import Mathlib.Data.List.Basic

namespace Rewind

variable {σ α : Type} (undo redo : σ → α → Option σ)

/-- The events are undone, one after the other. -/
def Undoes : σ → List α → σ → Prop
  | s, [], t => s = t
  | s, a :: as, t => ∃ r, undo s a = some r ∧ Undoes r as t

/-- The next event, if there is one, cannot be undone. -/
def Stuck (s : σ) : List α → Prop
  | [] => True
  | a :: _ => undo s a = none

/-- Undo events until one cannot be: those undone, those left, and the state reached. -/
def rewind (s : σ) : List α → List α × List α × σ
  | [] => ([], [], s)
  | a :: as =>
      match undo s a with
      | none => ([], a :: as, s)
      | some r => (a :: (rewind r as).1, (rewind r as).2)

theorem rewind_append (s : σ) (as : List α) :
    (rewind undo s as).1 ++ (rewind undo s as).2.1 = as := by
  induction as generalizing s with
  | nil => rfl
  | cons a as ih =>
    rw [rewind]
    cases undo s a with
    | none => rfl
    | some r => exact congrArg (a :: ·) (ih r)

theorem rewind_undoes (s : σ) (as : List α) :
    Undoes undo s (rewind undo s as).1 (rewind undo s as).2.2 := by
  induction as generalizing s with
  | nil => rfl
  | cons a as ih =>
    rw [rewind]
    cases undone : undo s a with
    | none => rfl
    | some r => exact ⟨r, undone, ih r⟩

theorem rewind_stuck (s : σ) (as : List α) :
    Stuck undo (rewind undo s as).2.2 (rewind undo s as).2.1 := by
  induction as generalizing s with
  | nil => trivial
  | cons a as ih =>
    rw [rewind]
    cases undone : undo s a with
    | none => exact undone
    | some r => exact ih r

/-- No other events are undone. -/
theorem rewind_unique (s t : σ) (undone rest : List α) (back : Undoes undo s undone t)
    (stuck : Stuck undo t rest) : rewind undo s (undone ++ rest) = (undone, rest, t) := by
  induction undone generalizing s with
  | nil =>
    obtain rfl : s = t := back
    rw [List.nil_append]
    cases rest with
    | nil => rfl
    | cons a as =>
      have none : undo s a = none := stuck
      rw [rewind, none]
  | cons a undone ih =>
    obtain ⟨r, first, later⟩ := back
    have tail := ih r later
    rw [List.cons_append, rewind, first]
    show (a :: (rewind undo r (undone ++ rest)).1, (rewind undo r (undone ++ rest)).2) = _
    rw [tail]

theorem rewind_all_iff (s : σ) (as : List α) :
    (rewind undo s as).2.1 = [] ↔ ∃ t, Undoes undo s as t := by
  constructor
  · intro all
    have undone : (rewind undo s as).1 = as := by
      have parts := rewind_append undo s as
      rwa [all, List.append_nil] at parts
    have back := rewind_undoes undo s as
    rw [undone] at back
    exact ⟨_, back⟩
  · intro ⟨t, back⟩
    have whole := rewind_unique undo s t as [] back trivial
    rw [List.append_nil] at whole
    rw [whole]

theorem rewind_none_iff (s : σ) (as : List α) : (rewind undo s as).1 = [] ↔ Stuck undo s as := by
  constructor
  · intro none
    have left : (rewind undo s as).2.1 = as := by
      have parts := rewind_append undo s as
      rwa [none, List.nil_append] at parts
    have back := rewind_undoes undo s as
    rw [none] at back
    have same : s = (rewind undo s as).2.2 := back
    have stuck := rewind_stuck undo s as
    rwa [left, ← same] at stuck
  · intro stuck
    have whole := rewind_unique undo s s [] as rfl stuck
    rw [List.nil_append] at whole
    rw [whole]

/-- Redo events, passing over what cannot be redone. -/
def replay : List α → σ → σ
  | [], s => s
  | a :: as, s => replay as ((redo s a).getD s)

theorem replay_concat (as : List α) (a : α) (s : σ) :
    replay redo (as ++ [a]) s = (redo (replay redo as s) a).getD (replay redo as s) := by
  induction as generalizing s with
  | nil => rfl
  | cons b as ih => exact ih _

/-- Events that were undone lead back when they are redone in the opposite order. -/
theorem replay_undone (inverse : ∀ s a t, undo s a = some t → redo t a = some s) (s t : σ)
    (as : List α) (back : Undoes undo s as t) : replay redo as.reverse t = s := by
  induction as generalizing s with
  | nil => exact back.symm
  | cons a as ih =>
    obtain ⟨r, first, later⟩ := back
    have before : replay redo as.reverse t = r := ih r later
    have last : redo r a = some s := inverse s a r first
    rw [List.reverse_cons, replay_concat, before, last]
    rfl

end Rewind
