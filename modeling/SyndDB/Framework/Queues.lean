import Mathlib.Data.List.Basic

namespace Queues

variable {α : Type} (p : α → Bool)

/-- The elements of a list that meet the predicate are in the first queue, the
others in the second. -/
structure Split (l first second : List α) : Prop where
  first : l.filter p = first
  second : l.filter (fun x => !p x) = second

variable {p} {l first second : List α}

theorem split_nil : Split p [] [] [] := ⟨rfl, rfl⟩

/-- New elements go to the ends. -/
theorem Split.append (h : Split p l first second) (more : List α) :
    Split p (l ++ more) (first ++ more.filter p) (second ++ more.filter fun x => !p x) :=
  ⟨by rw [List.filter_append, h.first], by rw [List.filter_append, h.second]⟩

theorem Split.swap (h : Split p l first second) : Split (fun x => !p x) l second first :=
  ⟨h.second, by simpa only [Bool.not_not] using h.first⟩

/-- Between two empty queues there is nothing. -/
theorem Split.empty (h : Split p l [] []) : l = [] := by
  rw [List.eq_nil_iff_forall_not_mem]
  intro x member
  by_cases met : p x = true
  · exact List.filter_eq_nil_iff.mp h.first x member met
  · exact List.filter_eq_nil_iff.mp h.second x member (by simpa using met)

/-- What is in front of one queue and before all of the other is in front of the list. -/
theorem Split.take {r : α → α → Prop} {taken rest : List α} (h : Split p l (taken ++ rest) second)
    (sorted : l.Pairwise r) (before : ∀ x ∈ taken, ∀ y ∈ second, ¬r y x) :
    ∃ left, l = taken ++ left ∧ Split p left rest second := by
  induction taken generalizing l with
  | nil => exact ⟨l, rfl, h⟩
  | cons x taken ih =>
    obtain ⟨first, second'⟩ := h
    cases l with
    | nil => cases first
    | cons y l =>
      by_cases met : p y = true
      · rw [List.filter_cons_of_pos met, List.cons_append, List.cons.injEq] at first
        obtain ⟨rfl, first⟩ := first
        rw [List.filter_cons_of_neg (by simp [met])] at second'
        obtain ⟨left, rfl, split⟩ := ih ⟨first, second'⟩ sorted.of_cons
          fun z member => before z (List.mem_cons_of_mem _ member)
        exact ⟨left, rfl, split⟩
      · rw [List.filter_cons_of_neg met] at first
        have later : x ∈ l := by
          apply List.mem_of_mem_filter (p := p)
          rw [first]
          exact List.mem_cons_self
        have other : y ∈ second := by
          rw [← second', List.mem_filter]
          exact ⟨List.mem_cons_self, by simpa using met⟩
        exact absurd (List.rel_of_pairwise_cons sorted later) (before x List.mem_cons_self y other)

end Queues
