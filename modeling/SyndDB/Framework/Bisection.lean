import Mathlib.Data.List.TakeWhile

namespace Bisection

variable {α : Type}

/-- Halve `size` positions from `base` on, down to one. -/
def narrow (order : Nat → Ordering) (base size : Nat) : Nat :=
  if size ≤ 1 then base
  else
    let mid := base + size / 2
    narrow order (if order mid = .gt then base else mid) (size - size / 2)
termination_by size
decreasing_by omega

/-- How the element at a position compares. There is nothing to find behind the end. -/
def orderAt (cmp : α → Ordering) (xs : List α) (i : Nat) : Ordering := (xs[i]?.map cmp).getD .gt

/-- The position of an element that compares equal, or else where it would stand. -/
def search (cmp : α → Ordering) (xs : List α) : Except Nat Nat :=
  if xs.length = 0 then .error 0
  else
    let base := narrow (orderAt cmp xs) 0 xs.length
    match orderAt cmp xs base with
    | .eq => .ok base
    | .lt => .error (base + 1)
    | .gt => .error base

/-- The number of elements in front that satisfy the predicate. -/
def partitionPoint (p : α → Bool) (xs : List α) : Nat :=
  match search (fun x => if p x then .lt else .gt) xs with
  | .ok i => i
  | .error i => i

/-- The positions up to `n` are not too far. -/
def Splits (order : Nat → Ordering) (n : Nat) : Prop := ∀ i, order i ≠ .gt ↔ i < n

theorem narrow_spec (order : Nat → Ordering) (n base size : Nat) (splits : Splits order n)
    (low : base = 0 ∨ base < n) (high : n ≤ base + size) (h : 0 < size) :
    (narrow order base size = 0 ∨ narrow order base size < n) ∧ n ≤ narrow order base size + 1 := by
  fun_induction narrow order base size with
  | case1 base size small =>
    have one : size = 1 := by omega
    exact ⟨low, one ▸ high⟩
  | case2 base size large mid ih =>
    have mid_lt := splits mid
    have place : mid = base + size / 2 := rfl
    by_cases far : order mid = .gt
    · have beyond : ¬mid < n := fun before => mid_lt.mpr before far
      rw [dif_pos far] at ih
      rw [if_pos far]
      apply ih
      · exact low
      · omega
      · omega
    · have before : mid < n := mid_lt.mp far
      rw [dif_neg far] at ih
      rw [if_neg far]
      apply ih
      · exact Or.inr before
      · omega
      · omega

/-- Elements that compare smaller come first, and those that compare greater last. -/
def Ordered (cmp : α → Ordering) (xs : List α) : Prop :=
  xs.Pairwise fun a b => cmp b ≠ .gt → cmp a ≠ .gt

theorem splits_takeWhile (cmp : α → Ordering) (xs : List α) (ordered : Ordered cmp xs) :
    Splits (orderAt cmp xs) (xs.takeWhile fun x => cmp x ≠ .gt).length := by
  induction xs with
  | nil =>
    intro i
    simp [orderAt]
  | cons x xs ih =>
    obtain ⟨first, rest⟩ := List.pairwise_cons.mp ordered
    intro i
    by_cases near : cmp x = .gt
    · have all : ∀ y ∈ x :: xs, cmp y = .gt := by
        intro y hy
        rcases List.mem_cons.mp hy with rfl | hy
        · exact near
        · by_contra not_far
          exact first y hy not_far near
      have none : orderAt cmp (x :: xs) i = .gt := by
        unfold orderAt
        cases found : (x :: xs)[i]? with
        | none => rfl
        | some y => exact all y (List.mem_of_getElem? found)
      simp [none, near]
    · rw [List.takeWhile_cons_of_pos (by simpa using near), List.length_cons]
      cases i with
      | zero => simpa [orderAt] using near
      | succ i =>
        have tail := ih rest i
        simp only [orderAt, List.getElem?_cons_succ] at tail ⊢
        rw [tail]
        omega

/-- The last element that does not compare greater is where the search ends. -/
theorem search_base (cmp : α → Ordering) (xs : List α) (ordered : Ordered cmp xs) (h : xs ≠ []) :
    let n := (xs.takeWhile fun x => cmp x ≠ .gt).length
    let base := narrow (orderAt cmp xs) 0 xs.length
    (base = 0 ∨ base < n) ∧ n ≤ base + 1 ∧ (orderAt cmp xs base ≠ .gt ↔ base < n) := by
  intro n base
  have splits : Splits (orderAt cmp xs) n := splits_takeWhile cmp xs ordered
  have most : n ≤ 0 + xs.length := by
    rw [Nat.zero_add]
    exact (List.takeWhile_prefix _).length_le
  obtain ⟨low, high⟩ := narrow_spec _ n 0 xs.length splits (Or.inl rfl) most
    (List.length_pos_iff.mpr h)
  exact ⟨low, high, splits base⟩

theorem orderAt_mem (cmp : α → Ordering) (xs : List α) (i : Nat) (h : orderAt cmp xs i ≠ .gt) :
    ∃ x, xs[i]? = some x ∧ cmp x = orderAt cmp xs i := by
  unfold orderAt at h ⊢
  cases found : xs[i]? with
  | none => exact absurd (by rw [found]; rfl) h
  | some x => exact ⟨x, rfl, rfl⟩

theorem partitionPoint_eq (p : α → Bool) (xs : List α) (h : xs.Pairwise fun a b => p b → p a) :
    partitionPoint p xs = (xs.takeWhile p).length := by
  have near (x : α) : (if p x then Ordering.lt else .gt) ≠ .gt ↔ p x = true := by
    cases p x <;> simp
  have ordered : Ordered (fun x => if p x then .lt else .gt) xs := by
    apply h.imp
    intro a b later hb
    exact (near a).mpr (later ((near b).mp hb))
  by_cases empty : xs = []
  · rw [empty]
    rfl
  obtain ⟨low, high, here⟩ := search_base _ xs ordered empty
  have same : (xs.takeWhile fun x => (if p x then Ordering.lt else .gt) ≠ .gt) =
      xs.takeWhile p := by
    congr 1
    funext x
    cases p x <;> rfl
  rw [same] at low high here
  have nonempty : xs.length ≠ 0 := fun zero => empty (List.length_eq_zero_iff.mp zero)
  unfold partitionPoint search
  rw [if_neg nonempty]
  dsimp only
  cases found : orderAt (fun x => if p x then Ordering.lt else .gt) xs
      (narrow (orderAt (fun x => if p x then Ordering.lt else .gt) xs) 0 xs.length) with
  | lt =>
    have before := here.mp (by rw [found]; decide)
    dsimp only
    omega
  | eq =>
    obtain ⟨x, -, equal⟩ := orderAt_mem _ xs _ (by rw [found]; decide)
    rw [found] at equal
    cases px : p x <;> simp [px] at equal
  | gt =>
    have beyond := mt here.mpr (by rw [found]; decide)
    dsimp only
    omega

end Bisection
