import Mathlib.Data.List.Perm.Basic
import Mathlib.Order.Lattice

namespace SortedRows

variable {κ ρ : Type} [LinearOrder κ] (key : ρ → κ)

def Sorted (rows : List ρ) : Prop := rows.Pairwise fun row row' => key row < key row'

instance (rows : List ρ) : Decidable (Sorted key rows) :=
  inferInstanceAs (Decidable (List.Pairwise _ _))

/-- The row, in place of the one that has its key. -/
def put (row : ρ) : List ρ → List ρ
  | [] => [row]
  | row' :: rows =>
      if key row < key row' then row :: row' :: rows
      else if key row = key row' then row :: rows
      else row' :: put row rows

def get (k : κ) (rows : List ρ) : Option ρ := rows.find? fun row => key row = k

variable {key}

theorem mem_put (row x : ρ) (rows : List ρ) (h : Sorted key rows) :
    x ∈ put key row rows ↔ x = row ∨ (x ∈ rows ∧ key x ≠ key row) := by
  induction rows with
  | nil => simp [put]
  | cons row' rows ih =>
    obtain ⟨above, rest⟩ := List.pairwise_cons.mp h
    rcases lt_trichotomy (key row) (key row') with less | same | more
    · have others : ∀ y ∈ row' :: rows, key y ≠ key row := by
        intro y member
        rcases List.mem_cons.mp member with rfl | later
        · exact less.ne'
        · exact (less.trans (above y later)).ne'
      rw [put, if_pos less, List.mem_cons]
      exact or_congr_right (iff_self_and.mpr (others x))
    · have others : ∀ y ∈ rows, key y ≠ key row := fun y member => same ▸ (above y member).ne'
      rw [put, if_neg same.not_lt, if_pos same, List.mem_cons, List.mem_cons]
      refine or_congr_right ⟨fun member => ⟨.inr member, others x member⟩, fun both => ?_⟩
      rcases both.1 with rfl | member
      · exact absurd same.symm both.2
      · exact member
    · rw [put, if_neg more.not_gt, if_neg more.ne', List.mem_cons, ih rest, List.mem_cons]
      constructor
      · intro either
        rcases either with rfl | rfl | ⟨member, other⟩
        · exact .inr ⟨.inl rfl, more.ne⟩
        · exact .inl rfl
        · exact .inr ⟨.inr member, other⟩
      · intro either
        rcases either with rfl | ⟨rfl | member, other⟩
        · exact .inr (.inl rfl)
        · exact .inl rfl
        · exact .inr (.inr ⟨member, other⟩)

theorem sorted_put (row : ρ) (rows : List ρ) (h : Sorted key rows) :
    Sorted key (put key row rows) := by
  induction rows with
  | nil => exact List.pairwise_singleton _ _
  | cons row' rows ih =>
    obtain ⟨above, rest⟩ := List.pairwise_cons.mp h
    rcases lt_trichotomy (key row) (key row') with less | same | more
    · rw [put, if_pos less]
      refine List.pairwise_cons.mpr ⟨?_, h⟩
      intro y member
      rcases List.mem_cons.mp member with rfl | later
      · exact less
      · exact less.trans (above y later)
    · rw [put, if_neg same.not_lt, if_pos same]
      refine List.pairwise_cons.mpr ⟨?_, rest⟩
      intro y member
      rw [same]
      exact above y member
    · rw [put, if_neg more.not_gt, if_neg more.ne']
      refine List.pairwise_cons.mpr ⟨?_, ih rest⟩
      intro y member
      rcases (mem_put row y rows rest).mp member with rfl | ⟨old, -⟩
      · exact more
      · exact above y old

/-- Rows with the same key are the same row. -/
theorem sorted_unique (rows : List ρ) (h : Sorted key rows) (x y : ρ) (hx : x ∈ rows)
    (hy : y ∈ rows) (same : key x = key y) : x = y := by
  induction rows with
  | nil => cases hx
  | cons row rows ih =>
    obtain ⟨above, rest⟩ := List.pairwise_cons.mp h
    rcases List.mem_cons.mp hx with rfl | x_later
    · rcases List.mem_cons.mp hy with rfl | y_later
      · rfl
      · exact absurd same (above y y_later).ne
    · rcases List.mem_cons.mp hy with rfl | y_later
      · exact absurd same (above x x_later).ne'
      · exact ih rest x_later y_later

theorem get_of_mem (rows : List ρ) (h : Sorted key rows) (row : ρ) (member : row ∈ rows) :
    get key (key row) rows = some row := by
  obtain ⟨found, hfound⟩ : ∃ found, get key (key row) rows = some found := by
    rw [← Option.isSome_iff_exists, get, List.find?_isSome]
    exact ⟨row, member, by simp⟩
  have same : key found = key row := by simpa using List.find?_some hfound
  rw [hfound, sorted_unique rows h found row (List.mem_of_find?_eq_some hfound) member same]

theorem mem_of_get (rows : List ρ) (k : κ) (row : ρ) (h : get key k rows = some row) :
    row ∈ rows ∧ key row = k := by
  have same : key row = k := by simpa using List.find?_some h
  exact ⟨List.mem_of_find?_eq_some h, same⟩

/-- A row that is there may be put there again. -/
theorem put_of_mem (row : ρ) (rows : List ρ) (h : Sorted key rows) (member : row ∈ rows) :
    put key row rows = rows := by
  induction rows with
  | nil => cases member
  | cons row' rows ih =>
    obtain ⟨above, rest⟩ := List.pairwise_cons.mp h
    rcases List.mem_cons.mp member with rfl | later
    · rw [put, if_neg (lt_irrefl _), if_pos rfl]
    · have more := above row later
      rw [put, if_neg more.not_gt, if_neg more.ne', ih rest later]

end SortedRows
