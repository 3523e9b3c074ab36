import Mathlib.Data.Nat.Find

namespace History

variable {ε : Type} (P R Q : ε → Prop)

def NoneAfter (es : List ε) (n : Nat) : Prop := ∀ k e, n < k → es[k]? = some e → ¬Q e

/-- At `n`, the first `P` since the last `R`. -/
structure FirstSince (es : List ε) (n : Nat) : Prop where
  event : ∃ e, es[n]? = some e ∧ P e
  lasting : NoneAfter R es n
  first : ∀ m e, m < n → es[m]? = some e → P e → ∃ k f, m < k ∧ k < n ∧ es[k]? = some f ∧ R f

/-- At `n`, the last `P`, without any `R` since. -/
structure Latest (es : List ε) (n : Nat) : Prop where
  event : ∃ e, es[n]? = some e ∧ P e
  last : NoneAfter P es n
  lasting : NoneAfter R es n

variable {P R Q} {es : List ε} {n m : Nat}

theorem lt_of_event {e : ε} (h : es[n]? = some e) : n < es.length :=
  (List.getElem?_eq_some_iff.mp h).1

theorem event_append (e : ε) (h : n < es.length) : (es ++ [e])[n]? = es[n]? :=
  List.getElem?_append_left h

theorem event_new (es : List ε) (e : ε) : (es ++ [e])[es.length]? = some e := by
  rw [List.getElem?_append_right (Nat.le_refl _), Nat.sub_self]
  rfl

/-- An event of a longer history is an old one or the new one. -/
theorem event_cases {e f : ε} (h : (es ++ [e])[n]? = some f) :
    n < es.length ∧ es[n]? = some f ∨ n = es.length ∧ f = e := by
  have short := lt_of_event h
  rw [List.length_append, List.length_singleton] at short
  rcases Nat.lt_or_eq_of_le (Nat.le_of_lt_succ short) with old | rfl
  · rw [event_append e old] at h
    exact Or.inl ⟨old, h⟩
  · rw [event_new] at h
    exact Or.inr ⟨rfl, (Option.some.inj h).symm⟩

theorem noneAfter_append (e : ε) (old : n < es.length) :
    NoneAfter Q (es ++ [e]) n ↔ NoneAfter Q es n ∧ ¬Q e := by
  constructor
  · intro h
    refine ⟨?_, h es.length e old (event_new es e)⟩
    intro k f after found
    refine h k f after ?_
    rw [event_append e (lt_of_event found)]
    exact found
  · intro h k f after found
    obtain ⟨h, he⟩ := h
    rcases event_cases found with ⟨-, found⟩ | ⟨-, rfl⟩
    · exact h k f after found
    · exact he

theorem noneAfter_new (es : List ε) (e : ε) : NoneAfter Q (es ++ [e]) es.length := by
  intro k f after found
  rcases event_cases found with ⟨short, -⟩ | ⟨rfl, -⟩
  · exact absurd short (Nat.not_lt.mpr (Nat.le_of_lt after))
  · exact absurd after (Nat.lt_irrefl _)

theorem FirstSince.lt_length (h : FirstSince P R es n) : n < es.length := by
  obtain ⟨e, found, -⟩ := h.event
  exact lt_of_event found

theorem FirstSince.unique (h : FirstSince P R es n) (h' : FirstSince P R es m) : n = m := by
  have not_lt {n m : Nat} (h : FirstSince P R es n) (h' : FirstSince P R es m) : ¬n < m := by
    intro before
    obtain ⟨e, found, hp⟩ := h.event
    obtain ⟨k, f, after, -, reset, hr⟩ := h'.first n e before found hp
    exact h.lasting k f after reset hr
  exact Nat.le_antisymm (Nat.not_lt.mp (not_lt h' h)) (Nat.not_lt.mp (not_lt h h'))

/-- It stays the first one until the next `R`. -/
theorem FirstSince.append (h : FirstSince P R es n) (e : ε) (he : ¬R e) :
    FirstSince P R (es ++ [e]) n := by
  have old := h.lt_length
  refine ⟨?_, (noneAfter_append e old).mpr ⟨h.lasting, he⟩, ?_⟩
  · rw [event_append e old]
    exact h.event
  · intro m f before found hp
    rw [event_append e (Nat.lt_trans before old)] at found
    obtain ⟨k, g, after, within, reset, hr⟩ := h.first m f before found hp
    refine ⟨k, g, after, within, ?_, hr⟩
    rw [event_append e (Nat.lt_trans within old)]
    exact reset

theorem FirstSince.of_append {e : ε} (h : FirstSince P R (es ++ [e]) n) (old : n < es.length) :
    FirstSince P R es n ∧ ¬R e := by
  obtain ⟨lasting, he⟩ := (noneAfter_append e old).mp h.lasting
  refine ⟨⟨?_, lasting, ?_⟩, he⟩
  · rw [← event_append e old]
    exact h.event
  · intro m f before found hp
    rw [← event_append e (lt_of_event found)] at found
    obtain ⟨k, g, after, within, reset, hr⟩ := h.first m f before found hp
    rw [event_append e (Nat.lt_trans within old)] at reset
    exact ⟨k, g, after, within, reset, hr⟩

/-- Without a first one there is no `P` since the last `R`. -/
theorem reset_of_no_first (apart : ∀ e, P e → ¬R e) (none : ∀ n, ¬FirstSince P R es n)
    (m : Nat) (e : ε) (found : es[m]? = some e) (hp : P e) : ¬NoneAfter R es m := by
  classical
  intro lasting
  -- the least place of a `P` with no `R` after it would be a first one
  let left (n : Nat) : Prop := (∃ e, es[n]? = some e ∧ P e) ∧ NoneAfter R es n
  have some' : ∃ n, left n := ⟨m, ⟨e, found, hp⟩, lasting⟩
  obtain ⟨event, last⟩ := Nat.find_spec some'
  refine none (Nat.find some') ⟨event, last, ?_⟩
  intro l f before found' hp'
  by_contra without
  refine Nat.find_min some' before ⟨⟨f, found', hp'⟩, ?_⟩
  intro k g after reset hr
  rcases Nat.lt_trichotomy k (Nat.find some') with within | rfl | beyond
  · exact without ⟨k, g, after, within, reset, hr⟩
  · obtain ⟨g', found'', hp''⟩ := event
    rw [found''] at reset
    cases reset
    exact apart g hp'' hr
  · exact last k g beyond reset hr

theorem FirstSince.new (apart : ∀ e, P e → ¬R e) (none : ∀ n, ¬FirstSince P R es n) (e : ε)
    (he : P e) :
    FirstSince P R (es ++ [e]) es.length := by
  refine ⟨⟨e, event_new es e, he⟩, noneAfter_new es e, ?_⟩
  intro m f before found hp
  rw [event_append e before] at found
  by_contra without
  refine reset_of_no_first apart none m f found hp ?_
  intro k g after reset hr
  refine without ⟨k, g, after, lt_of_event reset, ?_, hr⟩
  rw [event_append e (lt_of_event reset)]
  exact reset

theorem firstSince_append_other (e : ε) (hp : ¬P e) (hr : ¬R e) :
    FirstSince P R (es ++ [e]) n ↔ FirstSince P R es n := by
  constructor
  · intro h
    obtain ⟨f, found, hf⟩ := h.event
    rcases event_cases found with ⟨old, -⟩ | ⟨-, rfl⟩
    · exact (h.of_append old).1
    · exact absurd hf hp
  · intro h
    exact h.append e hr

theorem firstSince_append_event (apart : ∀ e, P e → ¬R e) (e : ε) (he : P e) :
    FirstSince P R (es ++ [e]) n ↔
      FirstSince P R es n ∨ n = es.length ∧ ∀ m, ¬FirstSince P R es m := by
  constructor
  · intro h
    obtain ⟨f, found, -⟩ := h.event
    rcases event_cases found with ⟨old, -⟩ | ⟨rfl, -⟩
    · exact Or.inl (h.of_append old).1
    · refine Or.inr ⟨rfl, ?_⟩
      intro m earlier
      exact absurd earlier.lt_length
        (Nat.not_lt.mpr (Nat.le_of_eq (h.unique (earlier.append e (apart e he)))))
  · intro h
    rcases h with h | ⟨rfl, none⟩
    · exact h.append e (apart e he)
    · exact FirstSince.new apart none e he

theorem not_firstSince_append_reset (apart : ∀ e, P e → ¬R e) (e : ε) (he : R e) :
    ¬FirstSince P R (es ++ [e]) n := by
  intro h
  obtain ⟨f, found, hf⟩ := h.event
  rcases event_cases found with ⟨old, -⟩ | ⟨-, rfl⟩
  · exact (h.of_append old).2 he
  · exact apart f hf he

/-- A new event of another kind ends the wait exactly if it is a `Q`. -/
theorem waiting_append_other (e : ε) (hp : ¬P e) (hr : ¬R e) :
    (∃ n, FirstSince P R (es ++ [e]) n ∧ NoneAfter Q (es ++ [e]) n) ↔
      (∃ n, FirstSince P R es n ∧ NoneAfter Q es n) ∧ ¬Q e := by
  simp only [firstSince_append_other e hp hr]
  constructor
  · intro h
    obtain ⟨n, first, waiting⟩ := h
    obtain ⟨waiting, he⟩ := (noneAfter_append e first.lt_length).mp waiting
    exact ⟨⟨n, first, waiting⟩, he⟩
  · intro h
    obtain ⟨⟨n, first, waiting⟩, he⟩ := h
    exact ⟨n, first, (noneAfter_append e first.lt_length).mpr ⟨waiting, he⟩⟩

theorem waiting_append_event (apart : ∀ e, P e → ¬R e) (e : ε) (he : P e) (hq : ¬Q e) :
    (∃ n, FirstSince P R (es ++ [e]) n ∧ NoneAfter Q (es ++ [e]) n) ↔
      (∃ n, FirstSince P R es n ∧ NoneAfter Q es n) ∨ ∀ m, ¬FirstSince P R es m := by
  simp only [firstSince_append_event apart e he]
  constructor
  · intro h
    obtain ⟨n, old | ⟨-, none⟩, waiting⟩ := h
    · exact Or.inl ⟨n, old, ((noneAfter_append e old.lt_length).mp waiting).1⟩
    · exact Or.inr none
  · intro h
    rcases h with ⟨n, old, waiting⟩ | none
    · exact ⟨n, Or.inl old, (noneAfter_append e old.lt_length).mpr ⟨waiting, hq⟩⟩
    · exact ⟨es.length, Or.inr ⟨rfl, none⟩, noneAfter_new es e⟩

theorem Latest.append (h : Latest P R es n) (e : ε) (hp : ¬P e) (hr : ¬R e) :
    Latest P R (es ++ [e]) n := by
  obtain ⟨f, found, hf⟩ := h.event
  have old := lt_of_event found
  refine ⟨⟨f, ?_, hf⟩, (noneAfter_append e old).mpr ⟨h.last, hp⟩,
    (noneAfter_append e old).mpr ⟨h.lasting, hr⟩⟩
  rw [event_append e old]
  exact found

theorem Latest.new (es : List ε) (e : ε) (he : P e) : Latest P R (es ++ [e]) es.length :=
  ⟨⟨e, event_new es e, he⟩, noneAfter_new es e, noneAfter_new es e⟩

end History
