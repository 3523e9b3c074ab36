import SyndDB.Framework.Interpretation
import Mathlib.Data.List.Forall2

namespace Resumption

variable {σ τ ε ρ ω κ δ α β : Type}

/-- `P` is owed at each external call, `R` may be assumed of its answer, `Q` is owed at the return.
The first argument is the store in which the current segment started. -/
def Resume.Upholds (P : ε → σ → σ → Prop) (R : ε → σ → ρ → σ → Prop) (Q : σ → α → σ → Prop) :
    σ → Resume σ ε ρ ω α → Prop
  | base, .ret a s => Q base a s
  | _, .revert _ => True
  | base, .call c s k => P c base s ∧ ∀ r s', R c s r s' → (k r s').Upholds P R Q s'

section Rules

variable {P : ε → σ → σ → Prop} {R : ε → σ → ρ → σ → Prop}

theorem upholds_weaken {P' : ε → σ → σ → Prop} {Q Q' : σ → α → σ → Prop}
    (hP : ∀ c base s, P c base s → P' c base s) (hQ : ∀ base a s, Q base a s → Q' base a s)
    (base : σ) (m : Resume σ ε ρ ω α) (h : m.Upholds P R Q base) : m.Upholds P' R Q' base := by
  induction m generalizing base with
  | ret a s => exact hQ base a s h
  | revert why => trivial
  | call c s k ih => exact ⟨hP c base s h.1, fun r s' hr => ih r s' s' (h.2 r s' hr)⟩

theorem upholds_mono {Q Q' : σ → α → σ → Prop} (hQ : ∀ base a s, Q base a s → Q' base a s)
    (base : σ) (m : Resume σ ε ρ ω α) (h : m.Upholds P R Q base) : m.Upholds P R Q' base :=
  upholds_weaken (fun _ _ _ hP => hP) hQ base m h

theorem upholds_bind {Q : σ → β → σ → Prop} (base : σ) (m : Resume σ ε ρ ω α)
    (f : α → Code σ ε ρ ω β) (h : m.Upholds P R (fun b a s => (f a s).Upholds P R Q b) base) :
    (m.bind f).Upholds P R Q base := by
  induction m generalizing base with
  | ret a s => exact h
  | revert why => trivial
  | call c s k ih => exact ⟨h.1, fun r s' hr => ih r s' s' (h.2 r s' hr)⟩

/-- Sequencing through an assertion between the two pieces. -/
theorem upholds_seq {Q : σ → β → σ → Prop} (A : σ → α → σ → Prop) (base : σ)
    (m : Resume σ ε ρ ω α) (f : α → Code σ ε ρ ω β) (hm : m.Upholds P R A base)
    (hf : ∀ b a s, A b a s → (f a s).Upholds P R Q b) : (m.bind f).Upholds P R Q base :=
  upholds_bind base m f (upholds_mono hf base m hm)

theorem upholds_require {Q : σ → Unit → σ → Prop} (base s : σ) (b : Bool) (why : ω)
    (h : b = true → Q base () s) :
    ((Code.require b why : Code σ ε ρ ω Unit) s).Upholds P R Q base := by
  cases b with
  | false => trivial
  | true => exact h rfl

theorem upholds_external {Q : σ → ρ → σ → Prop} (base s : σ) (c : ε) (call : P c base s)
    (h : ∀ r s', R c s r s' → Q s' r s') :
    ((Code.external c : Code σ ε ρ ω ρ) s).Upholds P R Q base :=
  ⟨call, h⟩

/-- Loop rule: the assertion knows which elements are done. -/
theorem upholds_each {Q : List β → σ → σ → Prop} (f : β → Code σ ε ρ ω Unit) (bs : List β)
    (hf : ∀ done b rest, done ++ b :: rest = bs → ∀ base s, Q done base s →
      (f b s).Upholds P R (fun b' _ s' => Q (done ++ [b]) b' s') base)
    (base s : σ) (h : Q [] base s) :
    (Code.each f bs s).Upholds P R (fun b' _ s' => Q bs b' s') base := by
  have from_here (rest done : List β) (split : done ++ rest = bs) (base s : σ)
      (h : Q done base s) :
      (Code.each f rest s).Upholds P R (fun b' _ s' => Q bs b' s') base := by
    induction rest generalizing done base s with
    | nil =>
      rw [List.append_nil] at split
      rw [split] at h
      exact h
    | cons b rest ih =>
      refine upholds_seq (fun b' _ s' => Q (done ++ [b]) b' s') base _ _
        (hf done b rest split base s h) ?_
      intro base' _ s' h'
      exact ih (done ++ [b]) (by simpa using split) base' s' h'
  exact from_here bs [] rfl base s h

/-- Only the first segment knows where it started. -/
theorem upholds_rebase {Q : σ → α → σ → Prop} (base base' : σ)
    (hP : ∀ c s, P c base' s → P c base s) (hQ : ∀ a s, Q base' a s → Q base a s)
    (m : Resume σ ε ρ ω α) (h : m.Upholds P R Q base') : m.Upholds P R Q base := by
  cases m with
  | ret a s => exact hQ a s h
  | revert why => trivial
  | call c s k => exact ⟨hP c s h.1, h.2⟩

/-- What every step keeps is kept from the beginning to the end. -/
theorem upholds_persists {I : σ → Prop} {G : σ → σ → Prop} {C : ε → σ → ρ → σ → Prop}
    {Q : σ → α → σ → Prop} (K : σ → Prop) (hK : ∀ s s', K s → G s s' → K s')
    (hQ : ∀ base a s, Q base a s → G base s) (base : σ) (m : Resume σ ε ρ ω α)
    (h : m.Upholds (fun _ b s => I s ∧ G b s) (fun c s r s' => I s' ∧ G s s' ∧ C c s r s') Q base)
    (start : K base) :
    m.Upholds (fun _ b s => I s ∧ G b s) (fun c s r s' => I s' ∧ G s s' ∧ C c s r s')
      (fun b a s => Q b a s ∧ K s) base := by
  induction m generalizing base with
  | ret a s => exact ⟨h, hK base s start (hQ base a s h)⟩
  | revert why => trivial
  | call c s k ih =>
    obtain ⟨before, later⟩ := h
    have atCall : K s := hK base s start before.2
    exact ⟨before, fun r s' hr => ih r s' s' (later r s' hr) (hK s s' atCall hr.2.1)⟩

/-- Code that was shown to be quiet over the first component, run over both. `K` is kept by what
the code does to the first component and by the calls that it makes. -/
theorem interpret_upholds {P : ε → σ × τ → σ × τ → Prop} {R : ε → σ × τ → ρ → σ × τ → Prop}
    {idle : ε → Prop} {E : σ → σ → Prop} (refl : ∀ s, E s s) {m : Code σ ε ρ ω α}
    (quiet : Quiet idle E m) (ext : ε → Code (σ × τ) ε ρ ω ρ) (K : σ × τ → σ × τ → Prop)
    (segment : ∀ base s s' t, K base (s, t) → E s s' → K base (s', t))
    (calls : ∀ c, idle c → ∀ base st, K base st →
      (ext c st).Upholds P R (fun b _ st' => K b st') base)
    (base st : σ × τ) (h : K base st) :
    (m.interpret ext st).Upholds P R (fun b _ st' => K b st') base := by
  have through (k : Resume σ ε ρ ω α) (s : σ) (t : τ) (base : σ × τ) (hk : K base (s, t))
      (ok : k.Sat (fun c b s => idle c ∧ True ∧ E b s) (fun _ _ => True)
        (fun b _ s => True ∧ E b s) s) :
      (k.interpret ext t).Upholds P R (fun b _ st' => K b st') base := by
    induction k generalizing s t base with
    | ret a s' => exact segment base s s' t hk ok.2
    | revert why => trivial
    | call c s' k ih =>
      obtain ⟨⟨hc, -, moved⟩, later⟩ := ok
      refine upholds_seq (fun b _ st' => K b st') base _ _
        (calls c hc base (s', t) (segment base s s' t hk moved)) ?_
      intro b r st' hst'
      exact ih r st'.1 st'.1 st'.2 b hst' (later r st'.1 trivial)
  exact through (m st.1) st.1 st.2 base h (quiet st.1 st.1 trivial (refl st.1))

end Rules

section Machine

variable (S : System σ ε ρ ω κ δ) (I : σ → Prop) (G : σ → σ → Prop)
  (C : ε → σ → ρ → σ → Prop)

/-- The rest of a call that was entered in `entry`. `I` is an invariant of the store, `G` what every
call has done when it returns, and `C` holds between each call and its answer. -/
def Dutiful (entry base : σ) (m : Resume σ ε ρ ω Unit) : Prop :=
  m.Upholds (fun _ _ s => I s) (fun c s r s' => I s' ∧ G s s' ∧ C c s r s')
    (fun _ _ s => I s ∧ G entry s) base

/-- Where the effects of a level's callees start from. -/
def Level.latest : Level σ ε ρ ω κ → σ
  | .contract f => f.atCall
  | .foreign s => s

/-- What has happened since the innermost level made its call. -/
def Follows : List (Level σ ε ρ ω κ) → σ → Prop
  | [], _ => True
  | l :: _, s => G l.latest s

/-- What the levels of a stack remember. -/
def Remembers : List (Level σ ε ρ ω κ) → Prop
  | [] => True
  | .contract f :: st =>
      (I f.entry ∧ Follows G st f.entry) ∧ I f.atCall ∧
      (∀ r s, I s → G f.atCall s → C f.waiting f.atCall r s →
        Dutiful I G C f.entry s (f.resume r s)) ∧
      Remembers st
  | .foreign s :: st => (I s ∧ Follows G st s) ∧ Remembers st

structure Kept (m : Machine σ ε ρ ω κ) : Prop where
  holds : I m.store
  follows : Follows G m.stack m.store
  levels : Remembers I G C m.stack

/-- The store in which the innermost frame resumes. -/
def resumesIn (m : Machine σ ε ρ ω κ) (f : Frame σ ε ρ ω κ) (r : ρ) : σ :=
  if S.failed r then f.atCall else m.store

/-- The condition on the answer that an event gives. -/
def Meets (m : Machine σ ε ρ ω κ) : Event ρ κ δ → Prop
  | .answer r => ∀ f st, m.stack = .contract f :: st → C f.waiting f.atCall r (resumesIn S m f r)
  | _ => True

/-- Every event of a run meets a condition on the machine it finds. -/
def Throughout (A : Machine σ ε ρ ω κ → Event ρ κ δ → Prop) (m : Machine σ ε ρ ω κ) :
    List (Event ρ κ δ) → Prop
  | [] => True
  | e :: es => A m e ∧ ∀ m', step S m e = some m' → Throughout A m' es

/-- The proof obligations, for runs whose events also meet `A`. -/
structure Guarantees (A : Machine σ ε ρ ω κ → Event ρ κ δ → Prop) : Prop where
  refl : ∀ s, G s s
  trans : ∀ a b c, G a b → G b c → G a c
  drift : ∀ m d, A m (.drift d) → I m.store →
    I (S.drift d m.store) ∧ G m.store (S.drift d m.store)
  code : ∀ m o, S.admits (waits m.stack) o → A m (.enter o) → I m.store →
    Dutiful I G C m.store m.store (S.code o m.store)
  meets : ∀ m e, A m e → Meets S C m e

instance decidableMeets [∀ c s r s', Decidable (C c s r s')] (m : Machine σ ε ρ ω κ)
    (e : Event ρ κ δ) : Decidable (Meets S C m e) :=
  match e with
  | .answer r =>
      match m with
      | ⟨store, .contract f :: st⟩ =>
          decidable_of_iff (C f.waiting f.atCall r (resumesIn S ⟨store, .contract f :: st⟩ f r)) (by
            constructor
            · rintro h f' st' same
              cases same
              exact h
            · intro h
              exact h f st rfl)
      | ⟨_, .foreign _ :: _⟩ => .isTrue (by intro f st same; cases same)
      | ⟨_, []⟩ => .isTrue (by intro f st same; cases same)
  | .enter _ | .begin | .commit | .abort | .drift _ => .isTrue trivial

instance decidableThroughout (A : Machine σ ε ρ ω κ → Event ρ κ δ → Prop)
    [∀ m e, Decidable (A m e)] (m : Machine σ ε ρ ω κ) (es : List (Event ρ κ δ)) :
    Decidable (Throughout S A m es) :=
  match es with
  | [] => .isTrue trivial
  | e :: es =>
      match hs : step S m e with
      | none => decidable_of_iff (A m e) (by
          constructor
          · intro h
            exact ⟨h, fun m' hm' => by rw [hs] at hm'; cases hm'⟩
          · exact fun h => h.1)
      | some m' =>
          have : Decidable (Throughout S A m' es) := decidableThroughout A m' es
          decidable_of_iff (A m e ∧ Throughout S A m' es) (by
            constructor
            · intro h
              refine ⟨h.1, fun m₁ hm₁ => ?_⟩
              rw [hs] at hm₁
              cases hm₁
              exact h.2
            · exact fun h => ⟨h.1, h.2 m' hs⟩)

variable {S I G C} {A : Machine σ ε ρ ω κ → Event ρ κ δ → Prop}

theorem throughout_weaken {B : Machine σ ε ρ ω κ → Event ρ κ δ → Prop}
    (hAB : ∀ m e, A m e → B m e) (m : Machine σ ε ρ ω κ) (es : List (Event ρ κ δ))
    (h : Throughout S A m es) : Throughout S B m es := by
  induction es generalizing m with
  | nil => trivial
  | cons e es ih => exact ⟨hAB m e h.1, fun m' hs => ih m' (h.2 m' hs)⟩

theorem throughout_true (m : Machine σ ε ρ ω κ) (es : List (Event ρ κ δ)) :
    Throughout S (fun _ _ => True) m es := by
  induction es generalizing m with
  | nil => trivial
  | cons e es ih => exact ⟨trivial, fun m' _ => ih m'⟩

/-- A condition on the waiting calls alone. -/
theorem throughout_of_along {B : List ε → Event ρ κ δ → Prop}
    (hBA : ∀ m e, B (waits m.stack) e → A m e) (m : Machine σ ε ρ ω κ) (es : List (Event ρ κ δ))
    (h : Along S B m es) : Throughout S A m es := by
  induction es generalizing m with
  | nil => trivial
  | cons e es ih => exact ⟨hBA m e h.1, fun m' hs => ih m' (along_tail S B m m' e es h hs)⟩

/-- Code whose every segment moves the store along `G`. -/
theorem dutiful_of_segments (trans : ∀ a b c, G a b → G b c → G a c) (entry base : σ)
    (m : Resume σ ε ρ ω Unit) (start : G entry base)
    (h : m.Upholds (fun _ b s => I s ∧ G b s) (fun c s r s' => I s' ∧ G s s' ∧ C c s r s')
      (fun b _ s => I s ∧ G b s) base) : Dutiful I G C entry base m := by
  have reached := upholds_persists (G entry)
    (fun s s' before moved => trans entry s s' before moved)
    (fun _ _ _ after => after.2) base m h start
  refine upholds_weaken ?_ ?_ base m reached
  · exact fun _ _ _ before => before.1
  · exact fun _ _ _ after => ⟨after.1.1, after.2⟩

theorem follows_trans (R : Guarantees S I G C A) (st : List (Level σ ε ρ ω κ)) (s s' : σ)
    (h : Follows G st s) (moved : G s s') : Follows G st s' := by
  cases st with
  | nil => trivial
  | cons l st => exact R.trans _ _ _ h moved

theorem settle_kept (R : Guarantees S I G C A) (o : κ) (entry base : σ)
    (st : List (Level σ ε ρ ω κ)) (m : Resume σ ε ρ ω Unit) (hm : Dutiful I G C entry base m)
    (he : I entry) (hf : Follows G st entry) (hl : Remembers I G C st) :
    Kept I G C (settle o entry st m) := by
  cases m with
  | ret a s => exact ⟨hm.1, follows_trans R st entry s hf hm.2, hl⟩
  | revert why => exact ⟨he, hf, hl⟩
  | call c s k =>
    obtain ⟨hs, later⟩ := hm
    refine ⟨hs, R.refl s, ⟨he, hf⟩, hs, ?_, hl⟩
    intro r s' hi hg hc
    exact later r s' ⟨hi, hg, hc⟩

theorem step_kept (R : Guarantees S I G C A) (m m' : Machine σ ε ρ ω κ) (e : Event ρ κ δ)
    (h : Kept I G C m) (ha : A m e) (hs : step S m e = some m') : Kept I G C m' := by
  have hc := R.meets m e ha
  obtain ⟨store, stack⟩ := m
  cases e with
  | enter o =>
    simp only [step] at hs
    split at hs
    · rename_i admitted
      cases hs
      exact settle_kept R o store store stack _ (R.code _ o admitted ha h.holds) h.holds h.follows
        h.levels
    · cases hs
  | answer r =>
    rcases stack with _ | ⟨f | s, st⟩
    · cases hs
    · cases hs
      obtain ⟨⟨he, hf⟩, hat, later, hl⟩ := h.levels
      have base : I (if S.failed r then f.atCall else store) ∧
          G f.atCall (if S.failed r then f.atCall else store) := by
        split
        · exact ⟨hat, R.refl _⟩
        · exact ⟨h.holds, h.follows⟩
      exact settle_kept R _ _ _ st _ (later r _ base.1 base.2 (hc f st rfl)) he hf hl
    · cases hs
  | begin =>
    cases hs
    exact ⟨h.holds, R.refl _, ⟨h.holds, h.follows⟩, h.levels⟩
  | commit =>
    rcases stack with _ | ⟨f | s, st⟩
    · cases hs
    · cases hs
    · cases hs
      exact ⟨h.holds, follows_trans R st s store h.levels.1.2 h.follows, h.levels.2⟩
  | abort =>
    rcases stack with _ | ⟨f | s, st⟩
    · cases hs
    · cases hs
    · cases hs
      exact ⟨h.levels.1.1, h.levels.1.2, h.levels.2⟩
  | drift d =>
    cases hs
    obtain ⟨hi, hg⟩ := R.drift _ d ha h.holds
    exact ⟨hi, follows_trans R stack store _ h.follows hg, h.levels⟩

theorem run_kept (R : Guarantees S I G C A) (m m' : Machine σ ε ρ ω κ) (es : List (Event ρ κ δ))
    (h : Kept I G C m) (ha : Throughout S A m es) (hr : run S m es = some m') :
    Kept I G C m' := by
  induction es generalizing m with
  | nil =>
    cases hr
    exact h
  | cons e es ih =>
    simp only [run] at hr
    cases hs : step S m e with
    | none => simp [hs] at hr
    | some m₁ =>
      simp only [hs, Option.bind_some] at hr
      exact ih m₁ (step_kept R m m₁ e h ha.1 hs) (ha.2 m₁ hs) hr

theorem boot_kept (s : σ) (h : I s) : Kept I G C (boot s : Machine σ ε ρ ω κ) :=
  ⟨h, trivial, trivial⟩

/-- The invariant holds of the store as of the last finished transaction. -/
theorem kept_committed (m : Machine σ ε ρ ω κ) (h : Kept I G C m) : I m.committed := by
  have levels (st : List (Level σ ε ρ ω κ)) (s : σ) (hs : I s) (hl : Remembers I G C st) :
      I (fallback s st) := by
    induction st generalizing s with
    | nil => exact hs
    | cons l st ih =>
      cases l with
      | contract f => exact ih f.entry hl.1.1 hl.2.2.2
      | foreign s' => exact ih s' hl.1.1 hl.2
  exact levels m.stack m.store h.holds h.levels

/-- Before each of the events the stack is deeper than it was. -/
def StaysAbove (S : System σ ε ρ ω κ δ) (depth : Nat) (m : Machine σ ε ρ ω κ) :
    List (Event ρ κ δ) → Prop
  | [] => True
  | e :: es => depth < m.stack.length ∧ ∀ m', step S m e = some m' → StaysAbove S depth m' es

/-- The call made with `enter o` is finished with the last of the events. -/
def Finishes (S : System σ ε ρ ω κ δ) (m : Machine σ ε ρ ω κ) (o : κ) (es : List (Event ρ κ δ))
    (m' : Machine σ ε ρ ω κ) : Prop :=
  ∃ m₀, step S m (.enter o) = some m₀ ∧ StaysAbove S m.stack.length m₀ es ∧
    run S m₀ es = some m' ∧ m'.stack = m.stack

theorem settle_stack (o : κ) (entry : σ) (st : List (Level σ ε ρ ω κ)) (c : Resume σ ε ρ ω Unit) :
    ∃ pre, (settle o entry st c).stack = pre ++ st := by
  cases c with
  | ret a s => exact ⟨[], rfl⟩
  | revert why => exact ⟨[], rfl⟩
  | call x s k => exact ⟨[_], rfl⟩

/-- What stands below a call that goes on is left alone by a step. -/
theorem step_above (m m' : Machine σ ε ρ ω κ) (e : Event ρ κ δ) (l : Level σ ε ρ ω κ)
    (pre st : List (Level σ ε ρ ω κ)) (hstack : m.stack = l :: pre ++ st)
    (hs : step S m e = some m') : ∃ pre', m'.stack = pre' ++ st := by
  obtain ⟨store, stack⟩ := m
  simp only at hstack
  subst hstack
  cases e with
  | enter o =>
    simp only [step] at hs
    split at hs
    · cases hs
      obtain ⟨new, grown⟩ := settle_stack o store (l :: pre ++ st) (S.code o store)
      exact ⟨new ++ (l :: pre), by rw [List.append_assoc]; exact grown⟩
    · cases hs
  | answer r =>
    cases l with
    | contract f =>
      cases hs
      obtain ⟨new, grown⟩ := settle_stack f.origin f.entry (pre ++ st)
        (f.resume r (if S.failed r then f.atCall else store))
      exact ⟨new ++ pre, by rw [List.append_assoc]; exact grown⟩
    | foreign s => cases hs
  | begin =>
    cases hs
    exact ⟨.foreign store :: l :: pre, rfl⟩
  | commit =>
    cases l with
    | contract f => cases hs
    | foreign s =>
      cases hs
      exact ⟨pre, rfl⟩
  | abort =>
    cases l with
    | contract f => cases hs
    | foreign s =>
      cases hs
      exact ⟨pre, rfl⟩
  | drift d =>
    cases hs
    exact ⟨l :: pre, rfl⟩

/-- What a waiting frame owes when it is resumed, up to its return. -/
def FrameOwes (I : σ → Prop) (G : σ → σ → Prop) (C : ε → σ → ρ → σ → Prop) (P : ε → σ → σ → Prop)
    (Q : σ → Unit → σ → Prop) (f : Frame σ ε ρ ω κ) : Prop :=
  ∀ r s, I s → G f.atCall s → C f.waiting f.atCall r s →
    (f.resume r s).Upholds P (fun c s r s' => I s' ∧ G s s' ∧ C c s r s') Q s

/-- A call that is finished has reverted, or has met its assertion. -/
theorem frame_outcome (R : Guarantees S I G C A) {P : ε → σ → σ → Prop} (Q : σ → Unit → σ → Prop)
    (f : Frame σ ε ρ ω κ) (owes : FrameOwes I G C P Q f) (st : List (Level σ ε ρ ω κ))
    (es : List (Event ρ κ δ))
    (m m' : Machine σ ε ρ ω κ) (pre : List (Level σ ε ρ ω κ)) (kept : Kept I G C m)
    (hstack : m.stack = pre ++ .contract f :: st) (ha : Throughout S A m es)
    (above : StaysAbove S st.length m es) (hr : run S m es = some m') (done : m'.stack = st) :
    m'.store = f.entry ∨ ∃ b, Q b () m'.store := by
  induction es generalizing m pre f with
  | nil =>
    cases hr
    rw [hstack] at done
    have lengths := congrArg List.length done
    simp only [List.length_append, List.length_cons] at lengths
    omega
  | cons e es ih =>
    simp only [run] at hr
    cases hs : step S m e with
    | none => simp [hs] at hr
    | some m₁ =>
      simp only [hs, Option.bind_some] at hr
      have kept₁ := step_kept R m m₁ e kept ha.1 hs
      have ha₁ := ha.2 m₁ hs
      have above₁ := above.2 m₁ hs
      cases pre with
      | cons l pre =>
        obtain ⟨pre', hstack'⟩ := step_above m m₁ e l pre (.contract f :: st)
          (by rw [hstack, List.cons_append]) hs
        exact ih f owes m₁ pre' kept₁ hstack' ha₁ above₁ hr
      | nil =>
        have same : ∀ pre', m₁.stack = pre' ++ .contract f :: st →
            m'.store = f.entry ∨ ∃ b, Q b () m'.store :=
          fun pre' h => ih f owes m₁ pre' kept₁ h ha₁ above₁ hr
        obtain ⟨store, stack⟩ := m
        simp only [List.nil_append] at hstack
        subst hstack
        cases e with
        | enter o =>
          simp only [step] at hs
          split at hs
          · cases hs
            obtain ⟨new, grown⟩ := settle_stack o store (.contract f :: st) (S.code o store)
            exact same new grown
          · cases hs
        | begin =>
          cases hs
          exact same [.foreign store] rfl
        | commit => cases hs
        | abort => cases hs
        | drift d =>
          cases hs
          exact same [] rfl
        | answer r =>
          cases hs
          -- the frame itself is resumed
          have hc := R.meets _ _ ha.1 f st rfl
          have base : I (if S.failed r then f.atCall else store) ∧
              G f.atCall (if S.failed r then f.atCall else store) := by
            split
            · exact ⟨kept.levels.2.1, R.refl _⟩
            · exact ⟨kept.holds, kept.follows⟩
          have resumed := owes r _ base.1 base.2 hc
          simp only [resumesIn] at hc
          have ended (s : σ) (hm₁ : settle f.origin f.entry st
              (f.resume r (if S.failed r then f.atCall else store)) = ⟨s, st⟩) : m'.store = s := by
            rw [hm₁] at hr above₁
            cases es with
            | nil =>
              cases hr
              rfl
            | cons e es => exact absurd above₁.1 (Nat.lt_irrefl _)
          cases hcode : f.resume r (if S.failed r then f.atCall else store) with
          | ret a s =>
            rw [hcode] at resumed
            have last := ended s (by rw [hcode]; rfl)
            rw [last]
            exact .inr ⟨_, resumed⟩
          | revert why =>
            left
            exact ended f.entry (by rw [hcode]; rfl)
          | call c s k =>
            rw [hcode] at resumed
            refine ih ⟨f.origin, f.entry, s, c, k⟩ ?_ _ [] kept₁ (by rw [hcode]; rfl) ha₁ above₁ hr
            intro r' s' holds grown met
            exact resumed.2 r' s' ⟨holds, grown, met⟩

/-- A finished call leaves the store as it found it, or has met its assertion. -/
theorem finished_outcome (R : Guarantees S I G C A) {P : ε → σ → σ → Prop}
    (Q : σ → Unit → σ → Prop) (m m' : Machine σ ε ρ ω κ) (o : κ) (es : List (Event ρ κ δ))
    (kept : Kept I G C m)
    (code : (S.code o m.store).Upholds P (fun c s r s' => I s' ∧ G s s' ∧ C c s r s') Q m.store)
    (ha : Throughout S A m (.enter o :: es)) (finishes : Finishes S m o es m') :
    m'.store = m.store ∨ ∃ b, Q b () m'.store := by
  obtain ⟨m₀, entered, above, hr, done⟩ := finishes
  have kept₀ := step_kept R m m₀ _ kept ha.1 entered
  have ha₀ := ha.2 m₀ entered
  simp only [step] at entered
  split at entered
  · have hm₀ := Option.some.inj entered
    have ended (s : σ) (h : settle o m.store m.stack (S.code o m.store) = ⟨s, m.stack⟩) :
        m'.store = s := by
      rw [← hm₀, h] at hr above
      cases es with
      | nil =>
        cases hr
        rfl
      | cons e es => exact absurd above.1 (Nat.lt_irrefl _)
    cases hcode : S.code o m.store with
    | ret a s =>
      rw [hcode] at code
      have last := ended s (by rw [hcode]; rfl)
      rw [last]
      exact .inr ⟨_, code⟩
    | revert why =>
      left
      exact ended m.store (by rw [hcode]; rfl)
    | call c s k =>
      rw [hcode] at code
      refine frame_outcome R (P := P) Q ⟨o, m.store, s, c, k⟩ ?_ m.stack es m₀ m' [] kept₀
        (by rw [← hm₀, hcode]; rfl) ha₀ above hr done
      intro r s' holds grown met
      exact code.2 r s' ⟨holds, grown, met⟩
  · cases entered

end Machine

section Lifted

variable {κ' δ' : Type} {S' : System (σ × τ) ε ρ ω κ' δ'} {S : System σ ε ρ ω κ δ} {enter : κ → κ'}
  {drifts : δ → δ'}

/-- The first event of a run, and its counterpart. -/
theorem lifts_cons (lifts : Lifts S' S enter drifts) (m' : Machine (σ × τ) ε ρ ω κ')
    (m n : Machine σ ε ρ ω κ) (h : m'.Mirrors Unserved m) (e : Event ρ κ δ)
    (es : List (Event ρ κ δ)) (hr : run S m (e :: es) = some n) :
    ∃ m₁ m₁', step S m e = some m₁ ∧ step S' m' (e.lift enter drifts) = some m₁' ∧
      m₁'.Mirrors Unserved m₁ ∧ run S m₁ es = some n := by
  simp only [run] at hr
  cases hs : step S m e with
  | none => simp [hs] at hr
  | some m₁ =>
    simp only [hs, Option.bind_some] at hr
    obtain ⟨m₁', first, mirrors⟩ := step_lifts lifts m' m m₁ h e hs
    exact ⟨m₁, m₁', rfl, first, mirrors, hr⟩

theorem throughout_lifts (lifts : Lifts S' S enter drifts)
    {A : Machine σ ε ρ ω κ → Event ρ κ δ → Prop}
    {B : Machine (σ × τ) ε ρ ω κ' → Event ρ κ' δ' → Prop}
    (hA : ∀ m' m e, m'.Mirrors Unserved m → A m e → B m' (e.lift enter drifts))
    (m' : Machine (σ × τ) ε ρ ω κ') (m n : Machine σ ε ρ ω κ) (h : m'.Mirrors Unserved m)
    (es : List (Event ρ κ δ)) (hr : run S m es = some n) (ha : Throughout S A m es) :
    Throughout S' B m' (es.map (Event.lift enter drifts)) := by
  induction es generalizing m' m with
  | nil => trivial
  | cons e es ih =>
    obtain ⟨m₁, m₁', hs, hs', mirrors, rest⟩ := lifts_cons lifts m' m n h e es hr
    refine ⟨hA m' m e h ha.1, ?_⟩
    intro m₂' hm₂
    rw [hs'] at hm₂
    cases hm₂
    exact ih m₁' m₁ mirrors rest (ha.2 m₁ hs)

theorem staysAbove_lifts (lifts : Lifts S' S enter drifts) (depth : Nat)
    (m' : Machine (σ × τ) ε ρ ω κ') (m n : Machine σ ε ρ ω κ) (h : m'.Mirrors Unserved m)
    (es : List (Event ρ κ δ)) (hr : run S m es = some n) (above : StaysAbove S depth m es) :
    StaysAbove S' depth m' (es.map (Event.lift enter drifts)) := by
  induction es generalizing m' m with
  | nil => trivial
  | cons e es ih =>
    obtain ⟨m₁, m₁', hs, hs', mirrors, rest⟩ := lifts_cons lifts m' m n h e es hr
    refine ⟨by rw [h.stack.length_eq]; exact above.1, ?_⟩
    intro m₂' hm₂
    rw [hs'] at hm₂
    cases hm₂
    exact ih m₁' m₁ mirrors rest (above.2 m₁ hs)

theorem run_above {S : System σ ε ρ ω κ δ} (st : List (Level σ ε ρ ω κ)) (m n : Machine σ ε ρ ω κ)
    (es : List (Event ρ κ δ)) (hstack : ∃ pre, m.stack = pre ++ st)
    (above : StaysAbove S st.length m es) (hr : run S m es = some n) :
    ∃ pre, n.stack = pre ++ st := by
  induction es generalizing m with
  | nil =>
    cases hr
    exact hstack
  | cons e es ih =>
    simp only [run] at hr
    cases hs : step S m e with
    | none => simp [hs] at hr
    | some m₁ =>
      simp only [hs, Option.bind_some] at hr
      obtain ⟨pre, hpre⟩ := hstack
      cases pre with
      | nil =>
        have deep := above.1
        rw [hpre, List.nil_append] at deep
        exact absurd deep (Nat.lt_irrefl _)
      | cons l pre =>
        obtain ⟨pre', hpre'⟩ := step_above m m₁ e l pre st (by rw [hpre, List.cons_append]) hs
        exact ih m₁ ⟨pre', hpre'⟩ (above.2 m₁ hs) hr

theorem finishes_lifts (lifts : Lifts S' S enter drifts) (m' : Machine (σ × τ) ε ρ ω κ')
    (m n : Machine σ ε ρ ω κ) (h : m'.Mirrors Unserved m) (o : κ) (es : List (Event ρ κ δ))
    (finishes : Finishes S m o es n) :
    ∃ n', Finishes S' m' (enter o) (es.map (Event.lift enter drifts)) n' ∧
      n'.Mirrors Unserved n := by
  obtain ⟨m₀, entered, above, hr, done⟩ := finishes
  obtain ⟨m₀', entered', mirrors⟩ := step_lifts lifts m' m m₀ h (.enter o) entered
  obtain ⟨n', hr', last⟩ := run_lifts lifts m₀' m₀ n mirrors es hr
  have depth : m'.stack.length = m.stack.length := h.stack.length_eq
  have above' := staysAbove_lifts lifts m'.stack.length m₀' m₀ n mirrors es hr (by
    rw [depth]
    exact above)
  have begun : ∃ pre, m₀'.stack = pre ++ m'.stack := by
    simp only [Event.lift, step] at entered'
    split at entered'
    · cases entered'
      exact settle_stack _ _ _ _
    · cases entered'
  refine ⟨n', ⟨m₀', entered', above', hr', ?_⟩, last⟩
  obtain ⟨pre, ended⟩ := run_above m'.stack m₀' n' _ begun above' hr'
  have lengths : n'.stack.length = m'.stack.length := by
    rw [last.stack.length_eq, done, depth]
  rw [ended, List.length_append] at lengths
  have empty : pre = [] := List.eq_nil_of_length_eq_zero (by omega)
  rw [ended, empty, List.nil_append]

end Lifted

end Resumption
