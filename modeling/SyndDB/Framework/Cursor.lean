import Mathlib.Data.List.Basic
import Mathlib.Logic.Function.Iterate

namespace Cursor

variable {α : Type} (segments : List (List α))

structure Position where
  segment : Nat
  offset : Nat
  deriving DecidableEq

def read (p : Position) : Option α := segments[p.segment]? >>= (·[p.offset]?)

/-- The next element of the segment, or the start of the next segment. -/
def advance (p : Position) : Position :=
  match segments[p.segment]? with
  | none => p
  | some xs => if xs.length ≤ p.offset + 1 then ⟨p.segment + 1, 0⟩ else ⟨p.segment, p.offset + 1⟩

/-- The elements from a position on. -/
def remaining (p : Position) : List α :=
  match segments.drop p.segment with
  | [] => []
  | xs :: rest => xs.drop p.offset ++ rest.flatten

/-- A position at an element, or behind the last segment. -/
def Valid (p : Position) : Prop := ∀ xs, segments[p.segment]? = some xs → p.offset < xs.length

theorem drop_some (p : Position) (xs : List α) (h : segments[p.segment]? = some xs) :
    segments.drop p.segment = xs :: segments.drop (p.segment + 1) := by
  obtain ⟨inside, rfl⟩ := List.getElem?_eq_some_iff.mp h
  exact List.drop_eq_getElem_cons inside

theorem drop_none (p : Position) (h : segments[p.segment]? = none) : segments.drop p.segment = [] :=
  List.drop_eq_nil_iff.mpr (List.getElem?_eq_none_iff.mp h)

theorem remaining_some (p : Position) (xs : List α) (h : segments[p.segment]? = some xs) :
    remaining segments p = xs.drop p.offset ++ (segments.drop (p.segment + 1)).flatten := by
  rw [remaining, drop_some segments p xs h]

theorem remaining_none (p : Position) (h : segments[p.segment]? = none) :
    remaining segments p = [] := by
  rw [remaining, drop_none segments p h]

theorem remaining_start (i : Nat) : remaining segments ⟨i, 0⟩ = (segments.drop i).flatten := by
  unfold remaining
  dsimp only
  cases segments.drop i with
  | nil => rfl
  | cons xs rest => rfl

theorem remaining_cons (xs : List α) (p : Position) :
    remaining (xs :: segments) ⟨p.segment + 1, p.offset⟩ = remaining segments p := rfl

theorem valid_cons (xs : List α) (p : Position) (h : Valid segments p) :
    Valid (xs :: segments) ⟨p.segment + 1, p.offset⟩ := h

theorem remaining_sublist (p : Position) : (remaining segments p).Sublist segments.flatten := by
  cases found : segments[p.segment]? with
  | none =>
    rw [remaining_none segments p found]
    exact List.nil_sublist _
  | some xs =>
    have split : segments.flatten = (segments.take p.segment).flatten ++
        (xs ++ (segments.drop (p.segment + 1)).flatten) := by
      rw [← List.flatten_cons, ← drop_some segments p xs found, ← List.flatten_append,
        List.take_append_drop]
    rw [remaining_some segments p xs found, split]
    apply List.sublist_append_of_sublist_right
    exact (List.drop_sublist p.offset xs).append_right _

/-- What is read is the first of the remaining elements. -/
theorem read_eq (p : Position) (h : Valid segments p) :
    read segments p = (remaining segments p).head? := by
  unfold read
  cases found : segments[p.segment]? with
  | none =>
    rw [remaining_none segments p found]
    rfl
  | some xs =>
    have inside := h xs found
    rw [remaining_some segments p xs found, List.drop_eq_getElem_cons inside]
    simp [inside]

/-- One step leaves a valid position and takes one element off. -/
theorem advance_spec (p : Position) (nonempty : ∀ xs ∈ segments, xs ≠ []) (h : Valid segments p) :
    Valid segments (advance segments p) ∧
      remaining segments (advance segments p) = (remaining segments p).tail := by
  unfold advance
  cases found : segments[p.segment]? with
  | none =>
    dsimp only
    rw [remaining_none segments p found]
    exact ⟨h, rfl⟩
  | some xs =>
    have inside := h xs found
    have left : remaining segments p = xs.drop p.offset ++
      (segments.drop (p.segment + 1)).flatten :=
      remaining_some segments p xs found
    rw [List.drop_eq_getElem_cons inside] at left
    dsimp only
    by_cases last : xs.length ≤ p.offset + 1
    · rw [if_pos last, left, remaining_start, List.drop_of_length_le last]
      refine ⟨?_, rfl⟩
      intro ys next
      exact List.length_pos_iff.mpr (nonempty ys (List.mem_of_getElem? next))
    · rw [if_neg last, left]
      refine ⟨?_, remaining_some segments ⟨p.segment, p.offset + 1⟩ xs found⟩
      intro ys same
      rw [found] at same
      cases same
      exact Nat.not_le.mp last

/-- After `k` steps the first `k` elements are gone. -/
theorem advance_iterate (p : Position) (nonempty : ∀ xs ∈ segments, xs ≠ []) (h : Valid segments p)
    (k : Nat) : Valid segments ((advance segments)^[k] p) ∧
      remaining segments ((advance segments)^[k] p) = (remaining segments p).drop k := by
  induction k with
  | zero => exact ⟨h, rfl⟩
  | succ k ih =>
    obtain ⟨valid, left⟩ := ih
    rw [Function.iterate_succ_apply']
    obtain ⟨next, step⟩ := advance_spec segments _ nonempty valid
    refine ⟨next, ?_⟩
    rw [step, left, List.tail_drop]

/-- All segments have been gone through exactly if nothing remains. -/
theorem exhausted_iff (p : Position) (h : Valid segments p) :
    segments.length ≤ p.segment ↔ remaining segments p = [] := by
  cases found : segments[p.segment]? with
  | none => exact iff_of_true (List.getElem?_eq_none_iff.mp found) (remaining_none segments p found)
  | some xs =>
    obtain ⟨inside, -⟩ := List.getElem?_eq_some_iff.mp found
    refine iff_of_false (Nat.not_le.mpr inside) ?_
    rw [remaining_some segments p xs found, List.drop_eq_getElem_cons (h xs found)]
    exact List.cons_ne_nil _ _

end Cursor
