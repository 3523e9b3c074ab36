import Mathlib.Data.List.Forall2

namespace Outcome

variable {ε α β : Type}

@[simp] theorem ok_bind (a : α) (f : α → Except ε β) : (Except.ok a >>= f) = f a := rfl

@[simp] theorem error_bind (e : ε) (f : α → Except ε β) : (Except.error e >>= f) = .error e := rfl

@[simp] theorem throw_bind (e : ε) (f : α → Except ε β) :
    ((throw e : Except ε α) >>= f) = .error e := rfl

/-- A sequence of two computations returns when both do. -/
theorem bind_ok (x : Except ε α) (f : α → Except ε β) (b : β) :
    (x >>= f) = .ok b ↔ ∃ a, x = .ok a ∧ f a = .ok b := by
  cases x with
  | error e => simp
  | ok a => simp

/-- A sequence of two computations fails when the first does, or the second. -/
theorem bind_error (x : Except ε α) (f : α → Except ε β) (e : ε) :
    x >>= f = .error e ↔ x = .error e ∨ ∃ a, x = .ok a ∧ f a = .error e := by
  cases x with
  | error e' => simp
  | ok a => simp

/-- A guard that passed. -/
theorem guard_ok (c : Prop) [Decidable c] (e : ε) (x : Except ε α) (a : α) :
    (if c then .error e else x) = .ok a ↔ ¬c ∧ x = .ok a := by
  by_cases h : c
  · simp [h]
  · simp [h]

theorem mapError_ok {δ : Type} (f : ε → δ) (x : Except ε α) (a : α) :
    x.mapError f = .ok a ↔ x = .ok a := by
  cases x with
  | error e => simp [Except.mapError]
  | ok b => simp [Except.mapError]

theorem mapError_error {δ : Type} (f : ε → δ) (x : Except ε α) (d : δ) :
    x.mapError f = .error d ↔ ∃ e, x = .error e ∧ f e = d := by
  cases x with
  | error e => simp [Except.mapError]
  | ok b => simp [Except.mapError]

theorem map_ok (f : α → β) (x : Except ε α) (b : β) :
    x.map f = .ok b ↔ ∃ a, x = .ok a ∧ f a = b := by
  cases x with
  | error e => simp [Except.map]
  | ok a => simp [Except.map]

/-- A computation on every element, element by element. -/
theorem mapM_ok (f : α → Except ε β) (xs : List α) (ys : List β) :
    xs.mapM f = .ok ys ↔ List.Forall₂ (fun x y => f x = .ok y) xs ys := by
  induction xs generalizing ys with
  | nil =>
    rw [List.mapM_nil, List.forall₂_nil_left_iff]
    constructor
    · intro h
      cases h
      rfl
    · intro h
      rw [h]
      rfl
  | cons x xs ih =>
    rw [List.mapM_cons, bind_ok, List.forall₂_cons_left_iff]
    constructor
    · intro given
      obtain ⟨y, hy, h⟩ := given
      obtain ⟨zs, hzs, hcons⟩ := (bind_ok _ _ _).mp h
      cases hcons
      exact ⟨y, zs, hy, (ih zs).mp hzs, rfl⟩
    · intro given
      obtain ⟨y, zs, hy, hzs, rfl⟩ := given
      exact ⟨y, hy, (bind_ok _ _ _).mpr ⟨zs, (ih zs).mpr hzs, rfl⟩⟩

/-- Related lists: every element of either has a partner. -/
theorem forall₂_partner {R : α → β → Prop} {xs : List α} {ys : List β} (h : List.Forall₂ R xs ys) :
    (∀ x ∈ xs, ∃ y ∈ ys, R x y) ∧ ∀ y ∈ ys, ∃ x ∈ xs, R x y := by
  induction h with
  | nil => simp
  | cons related rest ih =>
    constructor
    · intro x hx
      rcases List.mem_cons.mp hx with rfl | tail
      · exact ⟨_, List.mem_cons_self, related⟩
      · obtain ⟨y, hy, r⟩ := ih.1 x tail
        exact ⟨y, List.mem_cons_of_mem _ hy, r⟩
    · intro y hy
      rcases List.mem_cons.mp hy with rfl | tail
      · exact ⟨_, List.mem_cons_self, related⟩
      · obtain ⟨x, hx, r⟩ := ih.2 y tail
        exact ⟨x, List.mem_cons_of_mem _ hx, r⟩

end Outcome
