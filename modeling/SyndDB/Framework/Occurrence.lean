import Mathlib.Data.List.Infix

namespace Occurrence

variable {α : Type}

/-- Neither list is the beginning of the other. -/
def Apart (xs ys : List α) : Prop := ¬xs <+: ys ∧ ¬ys <+: xs

/-- No occurrence of the pattern begins within the part, whatever comes after it. -/
def BeginsOutside (pattern part : List α) : Prop := ∀ s ∈ part.tails, s ≠ [] → Apart pattern s

/-- No occurrence of the pattern reaches into the part, whatever comes in front of it. -/
def EndsOutside (pattern part : List α) : Prop := ∀ s ∈ pattern.tails, s ≠ [] → Apart s part

section

variable [DecidableEq α]

instance (xs ys : List α) : Decidable (Apart xs ys) := inferInstanceAs (Decidable (_ ∧ _))

instance (pattern part : List α) : Decidable (BeginsOutside pattern part) :=
  inferInstanceAs (Decidable (∀ s ∈ part.tails, s ≠ [] → Apart pattern s))

instance (pattern part : List α) : Decidable (EndsOutside pattern part) :=
  inferInstanceAs (Decidable (∀ s ∈ pattern.tails, s ≠ [] → Apart s part))

end

theorem Apart.not_prefix_append {xs ys : List α} (h : Apart xs ys) (zs : List α) :
    ¬xs <+: ys ++ zs := by
  intro first
  have second : ys <+: ys ++ zs := List.prefix_append ys zs
  rcases List.prefix_or_prefix_of_prefix first second with left | right
  · exact h.1 left
  · exact h.2 right

theorem BeginsOutside.of_cons {pattern part : List α} {c : α}
    (h : BeginsOutside pattern (c :: part))
    (after : List α) : ¬pattern <+: (c :: part) ++ after ∧ BeginsOutside pattern part := by
  have whole : c :: part ∈ (c :: part).tails := (List.mem_tails _ _).mpr List.suffix_rfl
  refine ⟨(h (c :: part) whole (List.cons_ne_nil c part)).not_prefix_append after, ?_⟩
  intro s hs
  exact h s ((List.mem_tails _ _).mpr
    (((List.mem_tails _ _).mp hs).trans (List.suffix_cons c part)))

/-- A part in which the pattern does not begin can be left out. -/
theorem infix_append_begins {pattern part : List α} (h : BeginsOutside pattern part)
    (after : List α) : pattern <:+: part ++ after ↔ pattern <:+: after := by
  induction part with
  | nil => rfl
  | cons c part ih =>
    obtain ⟨here, rest⟩ := h.of_cons after
    rw [List.cons_append, List.infix_cons_iff, ih rest]
    constructor
    · intro either
      exact either.resolve_left here
    · intro later
      exact Or.inr later

/-- A part that the pattern does not reach into separates what is before it from the rest. -/
theorem infix_append_ends {pattern part : List α} (h : EndsOutside pattern part)
    (before after : List α) : pattern <:+: before ++ (part ++ after) ↔
      pattern <:+: before ∨ pattern <:+: part ++ after := by
  constructor
  · intro occurs
    obtain ⟨front, back, split⟩ := occurs
    rw [List.append_assoc] at split
    rcases List.append_eq_append_iff.mp split with ⟨rest, first, second⟩ | ⟨rest, first, second⟩
    · -- the pattern begins after `front`, inside of `before`
      rcases List.append_eq_append_iff.mp second with ⟨tail, inside, -⟩ | ⟨tail, inside, crossing⟩
      · rw [first, inside]
        exact Or.inl ⟨front, tail, by rw [List.append_assoc]⟩
      · by_cases none : tail = []
        · rw [none, List.append_nil] at inside
          rw [first, ← inside]
          exact Or.inl ⟨front, [], by rw [List.append_nil]⟩
        · have suffix : tail <:+ pattern := ⟨rest, inside.symm⟩
          have begins : tail <+: part ++ after := ⟨back, crossing.symm⟩
          exact absurd begins ((h tail ((List.mem_tails _ _).mpr suffix) none).not_prefix_append
            after)
    · rw [second]
      exact Or.inr ⟨rest, back, by rw [List.append_assoc]⟩
  · intro either
    rcases either with first | second
    · exact List.infix_append_of_infix_left first
    · exact List.infix_append_of_infix_right second

/-- The part does not have the symbol that the pattern begins with. -/
theorem beginsOutside_of_head (pattern part : List α) (nonempty : pattern ≠ [])
    (h : ∀ c ∈ part, pattern.head? ≠ some c) : BeginsOutside pattern part := by
  intro s hs there
  cases pattern with
  | nil => exact absurd rfl nonempty
  | cons first pattern =>
    cases s with
    | nil => exact absurd rfl there
    | cons c s =>
      have member : c ∈ part := ((List.mem_tails _ _).mp hs).subset List.mem_cons_self
      have other : first ≠ c := fun same => h c member (congrArg some same)
      constructor
      · intro left
        exact other (List.cons_prefix_cons.mp left).1
      · intro right
        exact other (List.cons_prefix_cons.mp right).1.symm

section

variable [DecidableEq α]

/-- What stands before and after the first occurrence. -/
def cutAt (pattern : List α) : List α → Option (List α × List α)
  | [] => if pattern = [] then some ([], []) else none
  | c :: cs =>
      if pattern <+: c :: cs then some ([], (c :: cs).drop pattern.length)
      else (cutAt pattern cs).map fun r => (c :: r.1, r.2)

/-- What stands between the first occurrence and the second one, or the end. -/
def secondPiece (pattern text : List α) : Option (List α) :=
  (cutAt pattern text).map fun r => ((cutAt pattern r.2).map Prod.fst).getD r.2

theorem cutAt_some (pattern text before after : List α)
    (h : cutAt pattern text = some (before, after)) :
    text = before ++ (pattern ++ after) := by
  induction text generalizing before with
  | nil =>
    rw [cutAt] at h
    split_ifs at h with empty
    cases h
    rw [empty]
    rfl
  | cons c cs ih =>
    rw [cutAt] at h
    split_ifs at h with here
    · cases h
      obtain ⟨rest, split⟩ := here
      rw [← split, List.drop_left' rfl]
      rfl
    · obtain ⟨⟨before', after'⟩, later, same⟩ := Option.map_eq_some_iff.mp h
      cases same
      rw [ih before' later]
      rfl

theorem cutAt_pattern (pattern after : List α) : cutAt pattern (pattern ++ after) =
    some ([], after) := by
  cases text : pattern ++ after with
  | nil =>
    obtain ⟨rfl, rfl⟩ := List.append_eq_nil_iff.mp text
    rfl
  | cons c cs =>
    have here : pattern <+: c :: cs := ⟨after, text⟩
    rw [cutAt, if_pos here, ← text, List.drop_left' rfl]

/-- A part in which the pattern does not begin stays in one piece. -/
theorem cutAt_begins {pattern part : List α} (h : BeginsOutside pattern part) (after : List α) :
    cutAt pattern (part ++ after) = (cutAt pattern after).map fun r => (part ++ r.1, r.2) := by
  induction part with
  | nil => simp
  | cons c part ih =>
    obtain ⟨here, rest⟩ := h.of_cons after
    rw [List.cons_append] at here ⊢
    rw [cutAt, if_neg here, ih rest, Option.map_map]
    rfl

/-- Up to a symbol that the pattern begins with, the second piece is what stands behind the
first occurrence. -/
theorem takeWhile_secondPiece {pattern part : List α} (h : BeginsOutside pattern part)
    (after : List α) (p : α → Bool) (c : α) (first : pattern.head? = some c) (stops : p c = false) :
    (secondPiece pattern (part ++ (pattern ++ after))).map (List.takeWhile p) =
      some (after.takeWhile p) := by
  rw [secondPiece, cutAt_begins h, cutAt_pattern]
  simp only [Option.map_some, Option.some.injEq]
  cases cut : cutAt pattern after with
  | none => rfl
  | some pieces =>
    obtain ⟨before, rest⟩ := pieces
    rw [cutAt_some pattern after before rest cut]
    cases pattern with
    | nil => cases first
    | cons d pattern =>
      obtain rfl := Option.some.inj first
      have stop : List.takeWhile p (d :: pattern ++ rest) = [] := by
        rw [List.cons_append, List.takeWhile_cons, stops]
        rfl
      rw [List.takeWhile_append, stop, List.append_nil]
      split_ifs with whole
      · exact (List.takeWhile_prefix p).eq_of_length whole
      · rfl

end

end Occurrence
