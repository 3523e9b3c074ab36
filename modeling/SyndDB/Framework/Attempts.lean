import Mathlib.Logic.Basic

namespace Attempts

variable {ε σ α β : Type}

/-- `Q` holds of the value and the state of a return, `E` of the error and the
state of a failure. -/
def Ends (Q : α → σ → Prop) (E : ε → σ → Prop) : EStateM.Result ε σ α → Prop
  | .ok a s => Q a s
  | .error e s => E e s

variable {Q : α → σ → Prop} {E : ε → σ → Prop}

@[simp] theorem ends_ok (a : α) (s : σ) : Ends Q E (.ok a s : EStateM.Result ε σ α) ↔
    Q a s := Iff.rfl

@[simp] theorem ends_error (e : ε) (s : σ) : Ends Q E (.error e s : EStateM.Result ε σ α) ↔
    E e s := Iff.rfl

theorem ends_mono {Q' : α → σ → Prop} {E' : ε → σ → Prop} (hQ : ∀ a s, Q a s → Q' a s)
    (hE : ∀ e s, E e s → E' e s) {r : EStateM.Result ε σ α} (h : Ends Q E r) : Ends Q' E' r := by
  cases r with
  | ok a s => exact hQ a s h
  | error e s => exact hE e s h

theorem ends_pure {a : α} {s : σ} (h : Q a s) : Ends Q E ((pure a : EStateM ε σ α) s) := h

theorem ends_modify {f : σ → σ} {s : σ} {Q : PUnit → σ → Prop} (h : Q ⟨⟩ (f s)) :
    Ends Q E ((modify f : EStateM ε σ PUnit) s) := h

/-- The second part starts where the first one returned. -/
theorem ends_bind {x : EStateM ε σ β} {f : β → EStateM ε σ α} {s : σ}
    (h : Ends (fun b t => Ends Q E (f b t)) E (x s)) : Ends Q E ((x >>= f) s) := by
  simp only [bind, EStateM.bind]
  cases ended : x s with
  | ok b t =>
    rw [ended] at h
    exact h
  | error e t =>
    rw [ended] at h
    exact h

/-- Sequencing through an assertion between the two parts. -/
theorem ends_seq (A : β → σ → Prop) {x : EStateM ε σ β} {f : β → EStateM ε σ α} {s : σ}
    (first : Ends A E (x s)) (second : ∀ b t, A b t → Ends Q E (f b t)) : Ends Q E ((x >>= f) s) :=
  ends_bind (ends_mono second (fun _ _ failed => failed) first)

/-- An error of the kind is the reason for another attempt. -/
def caught (again : ε → Bool) (x : EStateM ε σ α) : EStateM ε σ (α ⊕ ε) := fun s =>
  match x s with
  | .ok a s => .ok (.inl a) s
  | .error e s => if again e then .ok (.inr e) s else .error e s

theorem ends_caught {again : ε → Bool} {x : EStateM ε σ α} {s : σ} {Q : α ⊕ ε → σ → Prop}
    (h : Ends (fun a t => Q (.inl a) t)
      (fun e t => (again e = true → Q (.inr e) t) ∧ (again e = false → E e t)) (x s)) :
    Ends Q E (caught again x s) := by
  unfold caught
  cases ended : x s with
  | ok a t =>
    rw [ended] at h
    exact h
  | error e t =>
    rw [ended] at h
    dsimp only
    split
    · next kind => exact h.1 kind
    · next kind => exact h.2 (Bool.eq_false_iff.mpr kind)

-- what an attempt does, and what follows on one that is to be repeated
variable (attempt : Nat → EStateM ε σ (α ⊕ β)) (pause : Nat → σ → σ)

/-- The first attempts, until one of them gives a result. Otherwise the reason of the
last one is given. -/
def tries : Nat → EStateM ε σ (α ⊕ Option β)
  | 0 => pure (.inr none)
  | n + 1 => do
      match ← tries n with
      | .inl a => return .inl a
      | .inr _ =>
          match ← attempt (n + 1) with
          | .inl a => return .inl a
          | .inr b =>
              modify (pause (n + 1))
              return .inr (some b)

variable {attempt pause}

/-- What one attempt takes on if it is to be repeated, all of them do. -/
theorem ends_tries (I : Nat → Option β → σ → Prop) (max : Nat) (s : σ) (start : I 0 none s)
    (step : ∀ n < max, ∀ last t, I n last t →
      Ends (fun r u => r.elim (fun a => Q a u) fun b => I (n + 1) (some b) (pause (n + 1) u)) E
        (attempt (n + 1) t)) :
    Ends (fun r t => r.elim (fun a => Q a t) fun last => I max last t) E
      (tries attempt pause max s) := by
  induction max with
  | zero => exact start
  | succ max ih =>
    rw [tries]
    refine ends_seq _ (ih fun n within => step n (Nat.lt_succ_of_lt within)) ?_
    intro r t reached
    cases r with
    | inl a => exact reached
    | inr last =>
      refine ends_seq _ (step max (Nat.lt_succ_self max) last t reached) ?_
      intro r u ended
      cases r with
      | inl a => exact ended
      | inr b => exact ended

section Extends

variable {τ ρ : Type} {attempt : Nat → EStateM ε σ (α ⊕ β)} {pause : Nat → σ → σ}

/-- A computation on more state, which does what another one does. -/
def Extends (π : τ → σ) (y : EStateM ε τ α) (x : EStateM ε σ α) : Prop :=
  ∀ t, Ends (fun a u => x (π t) = .ok a (π u)) (fun e u => x (π t) = .error e (π u)) (y t)

variable {π : τ → σ}

theorem extends_pure (a : α) : Extends π (pure a : EStateM ε τ α) (pure a) := fun _ => rfl

theorem extends_throw (e : ε) : Extends π (throw e : EStateM ε τ α) (throw e) := fun _ => rfl

theorem extends_modify {f : σ → σ} {g : τ → τ} (same : ∀ t, π (g t) = f (π t)) :
    Extends π (modify g : EStateM ε τ PUnit) (modify f) := by
  intro t
  have next : (modify f : EStateM ε σ PUnit) (π t) = .ok ⟨⟩ (π (g t)) := by
    rw [same]
    rfl
  exact next

theorem extends_bind {y : EStateM ε τ β} {x : EStateM ε σ β} {g : β → EStateM ε τ α}
    {f : β → EStateM ε σ α} (first : Extends π y x) (second : ∀ b, Extends π (g b) (f b)) :
    Extends π (y >>= g) (x >>= f) := by
  intro t
  refine ends_bind (ends_mono (fun b u started => ?_) (fun e u failed => ?_) (first t))
  · have next : (x >>= f) (π t) = f b (π u) := by
      simp only [bind, EStateM.bind, started]
    rw [next]
    exact second b u
  · simp only [bind, EStateM.bind, failed]

theorem extends_caught {again : ε → Bool} {y : EStateM ε τ α} {x : EStateM ε σ α}
    (h : Extends π y x) : Extends π (caught again y) (caught again x) := by
  intro t
  refine ends_caught (ends_mono (fun a u ended => ?_)
    (fun e u ended => ⟨fun kind => ?_, fun kind => ?_⟩) (h t))
  · simp only [caught, ended]
  · simp only [caught, ended, kind, if_true]
  · simp only [caught, ended, kind, Bool.false_eq_true, if_false]

theorem extends_tries {attempt' : Nat → EStateM ε τ (α ⊕ β)} {pause' : Nat → τ → τ}
    (each : ∀ n, Extends π (attempt' n) (attempt n)) (rest : ∀ n t, π (pause' n t) = pause n (π t))
    (max : Nat) : Extends π (tries attempt' pause' max) (tries attempt pause max) := by
  induction max with
  | zero => exact extends_pure _
  | succ max ih =>
    rw [tries, tries]
    refine extends_bind ih fun r => ?_
    cases r with
    | inl a => exact extends_pure _
    | inr last =>
      refine extends_bind (each (max + 1)) fun r => ?_
      cases r with
      | inl a => exact extends_pure _
      | inr b => exact extends_bind (extends_modify (rest (max + 1))) fun _ => extends_pure _

/-- A call, with a record of it and its answer. -/
def noted (record : Except ε α → List ρ) (x : EStateM ε σ α) : EStateM ε (σ × List ρ) α := fun s =>
  match x s.1 with
  | .ok a t => .ok a (t, s.2 ++ record (.ok a))
  | .error e t => .error e (t, s.2 ++ record (.error e))

theorem extends_noted (record : Except ε α → List ρ) (x : EStateM ε σ α) :
    Extends Prod.fst (noted record x) x := by
  intro s
  unfold noted
  cases ended : x s.1 with
  | ok a t => rfl
  | error e t => rfl

theorem ends_noted {Q : α → σ × List ρ → Prop} {E : ε → σ × List ρ → Prop}
    {record : Except ε α → List ρ} {x : EStateM ε σ α} {s : σ × List ρ}
    (good : ∀ a t, x s.1 = .ok a t → Q a (t, s.2 ++ record (.ok a)))
    (bad : ∀ e t, x s.1 = .error e t → E e (t, s.2 ++ record (.error e))) :
    Ends Q E (noted record x s) := by
  unfold noted
  cases ended : x s.1 with
  | ok a t => exact good a t ended
  | error e t => exact bad e t ended

end Extends

end Attempts
