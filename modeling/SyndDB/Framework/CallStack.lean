import SyndDB.Framework.Resumption
import Mathlib.Data.List.Basic

namespace Resumption

/-- A contract frame that waits for foreign code. `entry` is the store to go back to when the
frame reverts, `atCall` the one to go back to when the foreign code reverts. -/
structure Frame (σ ε ρ ω κ : Type) where
  origin : κ
  entry : σ
  atCall : σ
  waiting : ε
  resume : ρ → σ → Resume σ ε ρ ω Unit

/-- A stack level: a waiting contract frame, or a frame of foreign code that may revert alone. -/
inductive Level (σ ε ρ ω κ : Type) where
  | contract (f : Frame σ ε ρ ω κ)
  | foreign (saved : σ)

variable {σ ε ρ ω κ δ : Type}

def Level.saved : Level σ ε ρ ω κ → σ
  | .contract f => f.entry
  | .foreign s => s

/-- The stores a revert at this level goes back to. -/
def Level.restores : Level σ ε ρ ω κ → List σ
  | .contract f => [f.entry, f.atCall]
  | .foreign s => [s]

/-- The external calls the contract frames of a stack are waiting for, innermost first. -/
def waits : List (Level σ ε ρ ω κ) → List ε
  | [] => []
  | .contract f :: st => f.waiting :: waits st
  | .foreign _ :: st => waits st

structure Machine (σ ε ρ ω κ : Type) where
  store : σ
  stack : List (Level σ ε ρ ω κ)

/-- The stores a machine holds: its own and those that reverts go back to. -/
def Machine.stores (m : Machine σ ε ρ ω κ) : List σ := m.store :: m.stack.flatMap Level.restores

def boot (s : σ) : Machine σ ε ρ ω κ := ⟨s, []⟩

/-- The store that is left when everything on a stack reverts. -/
def fallback (s : σ) : List (Level σ ε ρ ω κ) → σ
  | [] => s
  | l :: st => fallback l.saved st

/-- The store as of the last finished transaction. -/
def Machine.committed (m : Machine σ ε ρ ω κ) : σ := fallback m.store m.stack

/-- One move of the environment. Foreign code may call in (`enter`), answer the call that is being
waited for, open a frame of its own and close it with or without keeping its effects, or move
state that the contract does not own (`drift`). -/
inductive Event (ρ κ δ : Type) where
  | enter (c : κ)
  | answer (r : ρ)
  | begin
  | commit
  | abort
  | drift (d : δ)

/-- The contract system: its code, which answers stand for a reverted call, which calls the
platform lets through, and what the environment may move on its own. -/
structure System (σ ε ρ ω κ δ : Type) where
  code : κ → Code σ ε ρ ω Unit
  failed : ρ → Bool
  admits : List ε → κ → Bool
  drift : δ → σ → σ

/-- Put the outcome of a segment back on the stack. -/
def settle (origin : κ) (entry : σ) (st : List (Level σ ε ρ ω κ)) :
    Resume σ ε ρ ω Unit → Machine σ ε ρ ω κ
  | .ret _ s => ⟨s, st⟩
  | .revert _ => ⟨entry, st⟩
  | .call c s k => ⟨s, .contract ⟨origin, entry, s, c, k⟩ :: st⟩

variable (S : System σ ε ρ ω κ δ)

/-- `none` when the event is not possible in this state. -/
def step (m : Machine σ ε ρ ω κ) : Event ρ κ δ → Option (Machine σ ε ρ ω κ)
  | .enter c =>
      if S.admits (waits m.stack) c then some (settle c m.store m.stack (S.code c m.store))
      else none
  | .answer r =>
      match m.stack with
      | .contract f :: st =>
          -- effects of a reverted call are undone before its caller sees the failure
          some (settle f.origin f.entry st
            (f.resume r (if S.failed r then f.atCall else m.store)))
      | _ => none
  | .begin => some ⟨m.store, .foreign m.store :: m.stack⟩
  | .commit =>
      match m.stack with
      | .foreign _ :: st => some ⟨m.store, st⟩
      | _ => none
  | .abort =>
      match m.stack with
      | .foreign s :: st => some ⟨s, st⟩
      | _ => none
  | .drift d => some ⟨S.drift d m.store, m.stack⟩

def run (m : Machine σ ε ρ ω κ) : List (Event ρ κ δ) → Option (Machine σ ε ρ ω κ)
  | [] => some m
  | e :: es => (step S m e).bind fun m' => run m' es

/-- Every event of a run meets a condition on the waiting calls it finds. -/
def Along (A : List ε → Event ρ κ δ → Prop) (m : Machine σ ε ρ ω κ) :
    List (Event ρ κ δ) → Prop
  | [] => True
  | e :: es => A (waits m.stack) e ∧
      match step S m e with
      | none => True
      | some m' => Along A m' es

instance decidableAlong (A : List ε → Event ρ κ δ → Prop) [∀ ws e, Decidable (A ws e)]
    (m : Machine σ ε ρ ω κ) (es : List (Event ρ κ δ)) : Decidable (Along S A m es) :=
  match es with
  | [] => inferInstanceAs (Decidable True)
  | e :: es =>
      have : Decidable (match step S m e with | none => True | some m' => Along S A m' es) :=
        match step S m e with
        | none => inferInstanceAs (Decidable True)
        | some m' => decidableAlong A m' es
      inferInstanceAs (Decidable (_ ∧ _))

theorem along_true (m : Machine σ ε ρ ω κ) (es : List (Event ρ κ δ)) :
    Along S (fun _ _ => True) m es := by
  induction es generalizing m with
  | nil => trivial
  | cons e es ih =>
    refine ⟨trivial, ?_⟩
    cases step S m e with
    | none => trivial
    | some m' => exact ih m'

theorem along_tail (A : List ε → Event ρ κ δ → Prop) (m m' : Machine σ ε ρ ω κ)
    (e : Event ρ κ δ) (es : List (Event ρ κ δ)) (h : Along S A m (e :: es))
    (hs : step S m e = some m') : Along S A m' es := by
  have tail := h.2
  rw [hs] at tail
  exact tail

theorem run_append (m : Machine σ ε ρ ω κ) (es fs : List (Event ρ κ δ)) :
    run S m (es ++ fs) = (run S m es).bind fun m' => run S m' fs := by
  induction es generalizing m with
  | nil => rfl
  | cons e es ih =>
    simp only [List.cons_append, run]
    cases step S m e with
    | none => rfl
    | some m' => exact ih m'

theorem along_append (A : List ε → Event ρ κ δ → Prop) (m : Machine σ ε ρ ω κ)
    (es fs : List (Event ρ κ δ)) (h : Along S A m (es ++ fs)) :
    Along S A m es ∧ ∀ m', run S m es = some m' → Along S A m' fs := by
  induction es generalizing m with
  | nil =>
    refine ⟨trivial, ?_⟩
    intro m' hm
    cases hm
    exact h
  | cons e es ih =>
    simp only [Along, run]
    cases hs : step S m e with
    | none => exact ⟨⟨h.1, trivial⟩, fun m' hm => by cases hm⟩
    | some m₁ =>
      have ⟨front, back⟩ := ih m₁ (along_tail S A m m₁ e (es ++ fs) h hs)
      exact ⟨⟨h.1, front⟩, back⟩

/-- Some event of a run meets a condition on the machine it finds. -/
def Occurs (P : Machine σ ε ρ ω κ → Event ρ κ δ → Prop) (m : Machine σ ε ρ ω κ) :
    List (Event ρ κ δ) → Prop
  | [] => False
  | e :: es => P m e ∨ ∃ m', step S m e = some m' ∧ Occurs P m' es

/-- A step makes one store at most. -/
theorem step_stores (m m' : Machine σ ε ρ ω κ) (e : Event ρ κ δ) (hs : step S m e = some m') :
    ∀ s ∈ m'.stores, s = m'.store ∨ s ∈ m.stores := by
  have settled (o : κ) (entry : σ) (st : List (Level σ ε ρ ω κ)) (c : Resume σ ε ρ ω Unit)
      (hentry : entry ∈ m.stores) (hst : ∀ s ∈ st.flatMap Level.restores, s ∈ m.stores) :
      ∀ s ∈ (settle o entry st c).stores, s = (settle o entry st c).store ∨ s ∈ m.stores := by
    intro s hm
    rcases List.mem_cons.mp hm with now | hm
    · exact .inl now
    · cases c with
      | ret a s' => exact .inr (hst s hm)
      | revert why => exact .inr (hst s hm)
      | call c s' k =>
        rw [settle, List.flatMap_cons, List.mem_append] at hm
        rcases hm with hm | hm
        · simp only [Level.restores, List.mem_cons, List.not_mem_nil, or_false] at hm
          rcases hm with rfl | now
          · exact .inr hentry
          · exact .inl now
        · exact .inr (hst s hm)
  obtain ⟨store, stack⟩ := m
  have top (l : Level σ ε ρ ω κ) (st : List (Level σ ε ρ ω κ)) (hl : stack = l :: st) (s : σ)
      (hm : s ∈ l.restores ∨ s ∈ st.flatMap Level.restores) :
      s ∈ (⟨store, stack⟩ : Machine σ ε ρ ω κ).stores := by
    rw [Machine.stores, hl, List.flatMap_cons]
    exact List.mem_cons_of_mem _ (List.mem_append.mpr hm)
  cases e with
  | enter c =>
    simp only [step] at hs
    split at hs
    · cases hs
      exact settled c store stack _ List.mem_cons_self fun s hm => List.mem_cons_of_mem _ hm
    · cases hs
  | answer r =>
    rcases stack with _ | ⟨f | s, st⟩
    · cases hs
    · cases hs
      refine settled f.origin f.entry st _ ?_ ?_
      · exact top _ st rfl _ (.inl (by simp [Level.restores]))
      · exact fun s hm => top _ st rfl s (.inr hm)
    · cases hs
  | begin =>
    cases hs
    intro s hm
    rcases List.mem_cons.mp hm with now | hm
    · exact .inl now
    · rw [List.flatMap_cons, List.mem_append] at hm
      rcases hm with hm | hm
      · exact .inl (List.mem_singleton.mp hm)
      · exact .inr (List.mem_cons_of_mem _ hm)
  | commit =>
    rcases stack with _ | ⟨f | s, st⟩
    · cases hs
    · cases hs
    · cases hs
      intro s' hm
      rcases List.mem_cons.mp hm with now | hm
      · exact .inl now
      · exact .inr (top _ st rfl s' (.inr hm))
  | abort =>
    rcases stack with _ | ⟨f | s, st⟩
    · cases hs
    · cases hs
    · cases hs
      intro s' hm
      rcases List.mem_cons.mp hm with now | hm
      · exact .inl now
      · exact .inr (top _ st rfl s' (.inr hm))
  | drift d =>
    cases hs
    intro s hm
    rcases List.mem_cons.mp hm with now | hm
    · exact .inl now
    · exact .inr (List.mem_cons_of_mem _ hm)

section Rule

variable (I : σ → Prop) (W : ε → σ → Prop) (F : κ → σ → σ → Prop) (G : σ → σ → Prop)

def Holds (ws : List ε) (s : σ) : Prop := I s ∧ ∀ c ∈ ws, W c s

/-- A piece of code entered as `o` above frames that wait for `ws`. `I` is an invariant of the
store, `W c` what a frame that waits for `c` relies on, and `F o` what a segment of the code may
do to the store. -/
def Safe (ws : List ε) (o : κ) (base : σ) (m : Resume σ ε ρ ω Unit) : Prop :=
  m.Sat (fun c b s => Holds I W (c :: ws) s ∧ F o b s)
    (fun c s => Holds I W (c :: ws) s) (fun b _ s => Holds I W ws s ∧ F o b s) base

/-- What the levels of a stack remember. It does not mention the current store. -/
def Levels : List (Level σ ε ρ ω κ) → Prop
  | [] => True
  | .contract f :: st =>
      (Holds I W (waits st) f.entry ∧ ∀ l ∈ st, G l.saved f.entry) ∧
      (Holds I W (f.waiting :: waits st) f.atCall ∧ G f.entry f.atCall) ∧
      (∀ r s, Holds I W (f.waiting :: waits st) s →
        Safe I W F (waits st) f.origin s (f.resume r s)) ∧ Levels st
  | .foreign s :: st => (Holds I W (waits st) s ∧ ∀ l ∈ st, G l.saved s) ∧ Levels st

structure Sound (m : Machine σ ε ρ ω κ) : Prop where
  holds : Holds I W (waits m.stack) m.store
  grown : ∀ l ∈ m.stack, G l.saved m.store
  levels : Levels I W F G m.stack

/-- The proof obligations of the rule, for runs whose events all meet `A`. -/
structure Proves (A : List ε → Event ρ κ δ → Prop) : Prop where
  grows_refl : ∀ s, G s s
  grows_trans : ∀ a b c, G a b → G b c → G a c
  segment_grows : ∀ o a b, F o a b → G a b
  drift : ∀ d ws s, Holds I W ws s → Holds I W ws (S.drift d s) ∧ G s (S.drift d s)
  code : ∀ ws c s, S.admits ws c → A ws (.enter c) → Holds I W ws s →
    Safe I W F ws c s (S.code c s)

variable {S I W F G} {A : List ε → Event ρ κ δ → Prop}

/-- Settling a safe segment whose frame was entered in `entry` and resumed in `base`. -/
theorem settle_sound (R : Proves S I W F G A) (o : κ) (entry base : σ)
    (st : List (Level σ ε ρ ω κ)) (m : Resume σ ε ρ ω Unit)
    (hm : Safe I W F (waits st) o base m) (he : Holds I W (waits st) entry)
    (hge : ∀ l ∈ st, G l.saved entry) (heb : G entry base) (hl : Levels I W F G st) :
    Sound I W F G (settle o entry st m) := by
  cases m with
  | ret a s =>
    obtain ⟨hs, hF⟩ := hm
    have hes : G entry s := R.grows_trans _ _ _ heb (R.segment_grows _ _ _ hF)
    exact ⟨hs, fun l h => R.grows_trans _ _ _ (hge l h) hes, hl⟩
  | revert why => exact ⟨he, hge, hl⟩
  | call c s k =>
    obtain ⟨⟨hs, hF⟩, hk⟩ := hm
    have hes : G entry s := R.grows_trans _ _ _ heb (R.segment_grows _ _ _ hF)
    refine ⟨hs, ?_, ⟨he, hge⟩, ⟨hs, hes⟩, hk, hl⟩
    intro l h
    rcases List.mem_cons.mp h with rfl | h
    · exact hes
    · exact R.grows_trans _ _ _ (hge l h) hes

theorem step_sound (R : Proves S I W F G A) (m m' : Machine σ ε ρ ω κ) (e : Event ρ κ δ)
    (h : Sound I W F G m) (ha : A (waits m.stack) e) (hs : step S m e = some m') :
    Sound I W F G m' := by
  obtain ⟨store, stack⟩ := m
  cases e with
  | enter c =>
    simp only [step] at hs
    split at hs
    · rename_i had
      cases hs
      exact settle_sound R c store store stack _ (R.code _ c store had ha h.holds)
        h.holds h.grown (R.grows_refl _) h.levels
    · cases hs
  | answer r =>
    rcases stack with _ | ⟨f | s, st⟩
    · cases hs
    · cases hs
      obtain ⟨⟨he, hge⟩, ⟨hc, hec⟩, hk, hl⟩ := h.levels
      have hbase : Holds I W (f.waiting :: waits st) (if S.failed r then f.atCall else store) ∧
          G f.entry (if S.failed r then f.atCall else store) := by
        split
        · exact ⟨hc, hec⟩
        · exact ⟨h.holds, h.grown (.contract f) (by simp)⟩
      exact settle_sound R _ _ _ st _ (hk r _ hbase.1) he hge hbase.2 hl
    · cases hs
  | begin =>
    cases hs
    refine ⟨h.holds, ?_, ⟨h.holds, h.grown⟩, h.levels⟩
    intro l hl
    rcases List.mem_cons.mp hl with rfl | hl
    · exact R.grows_refl _
    · exact h.grown l hl
  | commit =>
    rcases stack with _ | ⟨f | s, st⟩
    · cases hs
    · cases hs
    · cases hs
      exact ⟨h.holds, fun l hl => h.grown l (by simp [hl]), h.levels.2⟩
  | abort =>
    rcases stack with _ | ⟨f | s, st⟩
    · cases hs
    · cases hs
    · cases hs
      exact ⟨h.levels.1.1, h.levels.1.2, h.levels.2⟩
  | drift d =>
    cases hs
    have hd := R.drift d _ _ h.holds
    exact ⟨hd.1, fun l hl => R.grows_trans _ _ _ (h.grown l hl) hd.2, h.levels⟩

theorem run_sound (R : Proves S I W F G A) (m m' : Machine σ ε ρ ω κ) (es : List (Event ρ κ δ))
    (h : Sound I W F G m) (ha : Along S A m es) (hr : run S m es = some m') :
    Sound I W F G m' := by
  induction es generalizing m with
  | nil => cases hr; exact h
  | cons e es ih =>
    simp only [run] at hr
    cases hs : step S m e with
    | none => simp [hs] at hr
    | some m₁ =>
      simp only [hs, Option.bind_some] at hr
      exact ih m₁ (step_sound R m m₁ e h ha.1 hs) (along_tail S A m m₁ e es ha hs) hr

theorem boot_sound (s : σ) (h : I s) :
    Sound I W F G (boot s : Machine σ ε ρ ω κ) := by
  refine ⟨⟨h, ?_⟩, ?_, trivial⟩
  · simp [boot, waits]
  · simp [boot]

/-- What a step does to the store: a segment of known origin ran, or work was undone, or the
environment moved its own state. -/
theorem step_moves (R : Proves S I W F G A) (m m' : Machine σ ε ρ ω κ) (e : Event ρ κ δ)
    (h : Sound I W F G m) (ha : A (waits m.stack) e) (hs : step S m e = some m') :
    match e with
    | .enter c => F c m.store m'.store ∨ m'.store = m.store
    | .answer r => ∃ f st, m.stack = .contract f :: st ∧
        (F f.origin (if S.failed r then f.atCall else m.store) m'.store ∨ m'.store = f.entry)
    | .abort => ∃ s st, m.stack = .foreign s :: st ∧ m'.store = s
    | .drift d => m'.store = S.drift d m.store
    | _ => m'.store = m.store := by
  have settled (o : κ) (entry base : σ) (st : List (Level σ ε ρ ω κ)) (c : Resume σ ε ρ ω Unit)
      (hc : Safe I W F (waits st) o base c) :
      F o base (settle o entry st c).store ∨ (settle o entry st c).store = entry := by
    cases c with
    | ret a s => exact .inl hc.2
    | revert why => exact .inr rfl
    | call c s k => exact .inl hc.1.2
  obtain ⟨store, stack⟩ := m
  cases e with
  | enter c =>
    simp only [step] at hs
    split at hs
    · rename_i had
      cases hs
      exact settled c store store stack _ (R.code _ c store had ha h.holds)
    · cases hs
  | answer r =>
    rcases stack with _ | ⟨f | s, st⟩
    · cases hs
    · cases hs
      refine ⟨f, st, rfl, settled _ _ _ st _ (h.levels.2.2.1 r _ ?_)⟩
      split
      · exact h.levels.2.1.1
      · exact h.holds
    · cases hs
  | begin => cases hs; rfl
  | commit =>
    rcases stack with _ | ⟨f | s, st⟩
    · cases hs
    · cases hs
    · cases hs; rfl
  | abort =>
    rcases stack with _ | ⟨f | s, st⟩
    · cases hs
    · cases hs
    · cases hs; exact ⟨s, st, rfl, rfl⟩
  | drift d => cases hs; rfl

/-- Every step moves the store on, either from where it is or from where a revert puts it. -/
theorem step_grows (R : Proves S I W F G A) (m m' : Machine σ ε ρ ω κ) (e : Event ρ κ δ)
    (h : Sound I W F G m) (ha : A (waits m.stack) e) (hs : step S m e = some m') :
    ∃ s, (s = m.store ∨ ∃ l st, m.stack = l :: st ∧ s ∈ l.restores) ∧ G s m'.store := by
  have moved := step_moves R m m' e h ha hs
  cases e with
  | enter c =>
    refine ⟨m.store, .inl rfl, ?_⟩
    rcases moved with hF | same
    · exact R.segment_grows c _ _ hF
    · rw [same]; exact R.grows_refl _
  | answer r =>
    obtain ⟨f, st, hst, hF | same⟩ := moved
    · refine ⟨_, ?_, R.segment_grows _ _ _ hF⟩
      split
      · exact .inr ⟨_, st, hst, by simp [Level.restores]⟩
      · exact .inl rfl
    · refine ⟨f.entry, .inr ⟨_, st, hst, by simp [Level.restores]⟩, ?_⟩
      rw [same]; exact R.grows_refl _
  | begin => exact ⟨m.store, .inl rfl, moved ▸ R.grows_refl _⟩
  | commit => exact ⟨m.store, .inl rfl, moved ▸ R.grows_refl _⟩
  | abort =>
    obtain ⟨s, st, hst, same⟩ := moved
    refine ⟨s, .inr ⟨_, st, hst, by simp [Level.restores]⟩, ?_⟩
    rw [same]; exact R.grows_refl _
  | drift d => exact ⟨m.store, .inl rfl, moved ▸ (R.drift d _ _ h.holds).2⟩

theorem fallback_grows (R : Proves S I W F G A) (s s' : σ) (st : List (Level σ ε ρ ω κ))
    (h : G s s') : G (fallback s st) (fallback s' st) := by
  cases st with
  | nil => exact h
  | cons l st => exact R.grows_refl _

/-- Whatever happens inside a transaction, from one finished transaction to the next the
store only grows. -/
theorem step_committed (R : Proves S I W F G A) (m m' : Machine σ ε ρ ω κ) (e : Event ρ κ δ)
    (h : Sound I W F G m) (ha : A (waits m.stack) e) (hs : step S m e = some m') :
    G m.committed m'.committed := by
  have settled (o : κ) (entry base : σ) (st : List (Level σ ε ρ ω κ)) (c : Resume σ ε ρ ω Unit)
      (hc : Safe I W F (waits st) o base c) (hb : G entry base) :
      G (fallback entry st) (settle o entry st c).committed := by
    cases c with
    | ret a s =>
      have hes : G entry s := R.grows_trans _ _ _ hb (R.segment_grows _ _ _ hc.2)
      exact fallback_grows R _ _ st hes
    | revert why => exact R.grows_refl _
    | call c s k => exact R.grows_refl _
  obtain ⟨store, stack⟩ := m
  cases e with
  | enter c =>
    simp only [step] at hs
    split at hs
    · rename_i had
      cases hs
      exact settled c store store stack _ (R.code _ c store had ha h.holds) (R.grows_refl _)
    · cases hs
  | answer r =>
    rcases stack with _ | ⟨f | s, st⟩
    · cases hs
    · cases hs
      obtain ⟨-, ⟨hc, hec⟩, hk, -⟩ := h.levels
      refine settled f.origin f.entry _ st _ (hk r _ ?_) ?_
      · split
        · exact hc
        · exact h.holds
      · split
        · exact hec
        · exact h.grown (.contract f) (by simp)
    · cases hs
  | begin => cases hs; exact R.grows_refl _
  | commit =>
    rcases stack with _ | ⟨f | s, st⟩
    · cases hs
    · cases hs
    · cases hs
      exact fallback_grows R _ _ st (h.grown _ (by simp))
  | abort =>
    rcases stack with _ | ⟨f | s, st⟩
    · cases hs
    · cases hs
    · cases hs; exact R.grows_refl _
  | drift d =>
    cases hs
    exact fallback_grows R _ _ stack (R.drift d _ _ h.holds).2

theorem run_committed (R : Proves S I W F G A) (m m' : Machine σ ε ρ ω κ)
    (es : List (Event ρ κ δ)) (h : Sound I W F G m) (ha : Along S A m es)
    (hr : run S m es = some m') : G m.committed m'.committed := by
  induction es generalizing m with
  | nil => cases hr; exact R.grows_refl _
  | cons e es ih =>
    simp only [run] at hr
    cases hs : step S m e with
    | none => simp [hs] at hr
    | some m₁ =>
      simp only [hs, Option.bind_some] at hr
      exact R.grows_trans _ _ _ (step_committed R m m₁ e h ha.1 hs)
        (ih m₁ (step_sound R m m₁ e h ha.1 hs) (along_tail S A m m₁ e es ha hs) hr)

/-- The invariant also holds of the store as of the last finished transaction. -/
theorem committed_holds (m : Machine σ ε ρ ω κ) (h : Sound I W F G m) : I m.committed := by
  have levels (st : List (Level σ ε ρ ω κ)) (s : σ) (hs : I s) (hl : Levels I W F G st) :
      I (fallback s st) := by
    induction st generalizing s with
    | nil => exact hs
    | cons l st ih =>
      cases l with
      | contract f => exact ih f.entry hl.1.1.1 hl.2.2.2
      | foreign s' => exact ih s' hl.1.1.1 hl.2
  exact levels m.stack m.store h.holds.1 h.levels

end Rule

end Resumption
