import SyndDB.Framework.CallStack

namespace Resumption

variable {σ τ ε ρ ω α β : Type}

/-- The same code over a store with a second component. Its external calls are carried out by
`ext`, which may pass them on, answer them at once, or take notes. -/
def Resume.interpret (ext : ε → Code (σ × τ) ε ρ ω ρ) :
    Resume σ ε ρ ω α → τ → Resume (σ × τ) ε ρ ω α
  | .ret a s, t => .ret a (s, t)
  | .revert why, _ => .revert why
  | .call c s k, t => (ext c (s, t)).bind fun r st => (k r st.1).interpret ext st.2

def Code.interpret (ext : ε → Code (σ × τ) ε ρ ω ρ) (m : Code σ ε ρ ω α) :
    Code (σ × τ) ε ρ ω α :=
  fun st => (m st.1).interpret ext st.2

/-- A step that only concerns the second component. -/
def Code.aside (f : σ → τ → τ) : Code (σ × τ) ε ρ ω Unit :=
  Code.modify fun st => (st.1, f st.1 st.2)

/-- The code run to its end, where `answer` gives what each external call returns and leaves. -/
def Resume.finish (answer : ε → σ → ρ × σ) : Resume σ ε ρ ω α → Except ω (α × σ)
  | .ret a s => .ok (a, s)
  | .revert why => .error why
  | .call c s k => (k (answer c s).1 (answer c s).2).finish answer

theorem resume_bind_assoc (m : Resume σ ε ρ ω α) {γ : Type} (f : α → Code σ ε ρ ω β)
    (g : β → Code σ ε ρ ω γ) : (m.bind f).bind g = m.bind fun a s => (f a s).bind g := by
  induction m with
  | ret a s => rfl
  | revert why => rfl
  | call c s k ih =>
    have continued : (fun r s' => ((k r s').bind f).bind g) =
        fun r s' => (k r s').bind fun a s => (f a s).bind g := by
      funext r s'
      exact ih r s'
    simp only [Resume.bind, continued]

theorem code_bind_assoc {γ : Type} (m : Code σ ε ρ ω α) (f : α → Code σ ε ρ ω β)
    (g : β → Code σ ε ρ ω γ) : m >>= f >>= g = m >>= fun a => f a >>= g := by
  funext s
  exact resume_bind_assoc (m s) f g

theorem code_pure_bind (a : α) (f : α → Code σ ε ρ ω β) : pure a >>= f = f a := rfl

section Laws

variable (ext : ε → Code (σ × τ) ε ρ ω ρ)

theorem resume_interpret_bind (m : Resume σ ε ρ ω α) (f : α → Code σ ε ρ ω β) (t : τ) :
    (m.bind f).interpret ext t =
      (m.interpret ext t).bind fun a st => (f a st.1).interpret ext st.2 := by
  induction m generalizing t with
  | ret a s => rfl
  | revert why => rfl
  | call c s k ih =>
    have continued : (fun r (st : σ × τ) => ((k r st.1).bind f).interpret ext st.2) =
        fun r st => ((k r st.1).interpret ext st.2).bind
          fun a st => (f a st.1).interpret ext st.2 := by
      funext r st
      exact ih r st.1 st.2
    simp only [Resume.bind, Resume.interpret, continued]
    exact (resume_bind_assoc _ _ _).symm

theorem interpret_bind (m : Code σ ε ρ ω α) (f : α → Code σ ε ρ ω β) :
    (m >>= f).interpret ext = m.interpret ext >>= fun a => (f a).interpret ext := by
  funext st
  exact resume_interpret_bind ext (m st.1) f st.2

theorem interpret_pure (a : α) : (pure a : Code σ ε ρ ω α).interpret ext = pure a := rfl

theorem interpret_modify (f : σ → σ) :
    (Code.modify f : Code σ ε ρ ω Unit).interpret ext = Code.modify fun st => (f st.1, st.2) := rfl

theorem interpret_require (b : Bool) (why : ω) :
    (Code.require b why : Code σ ε ρ ω Unit).interpret ext = Code.require b why := by
  funext st
  cases b with
  | false => rfl
  | true => rfl

/-- Reading the store and going on. -/
theorem interpret_get (f : σ → Code σ ε ρ ω β) (st : σ × τ) :
    (Code.get >>= f).interpret ext st = (f st.1).interpret ext st := rfl

theorem bind_pure_right (m : Resume σ ε ρ ω α) : (m.bind fun a s => .ret a s) = m := by
  induction m with
  | ret a s => rfl
  | revert why => rfl
  | call c s k ih =>
    have continued : (fun r s' => (k r s').bind fun a s => .ret a s) = k := by
      funext r s'
      exact ih r s'
    simp only [Resume.bind, continued]

theorem interpret_external (c : ε) :
    (Code.external c : Code σ ε ρ ω ρ).interpret ext = ext c := by
  funext st
  exact bind_pure_right (ext c st)

theorem interpret_each (f : β → Code σ ε ρ ω Unit) (bs : List β) :
    (Code.each f bs).interpret ext = Code.each (fun b => (f b).interpret ext) bs := by
  induction bs with
  | nil => rfl
  | cons b bs ih => rw [Code.each, interpret_bind, ih, Code.each]

end Laws

section Refinement

/-- `Served c s r s'`: between the call `c` made in `s` and its answer `r` in `s'` the environment
did what it does when `c` is answered at once. -/
inductive Resume.Refines (Served : ε → σ → ρ → σ → Prop) :
    Resume (σ × τ) ε ρ ω α → Resume σ ε ρ ω α → Prop
  | ret (a : α) (s : σ) (t : τ) : Refines Served (.ret a (s, t)) (.ret a s)
  | revert (why : ω) : Refines Served (.revert why) (.revert why)
  | call (c : ε) (s : σ) (t : τ) (k : ρ → σ × τ → Resume (σ × τ) ε ρ ω α)
      (k' : ρ → σ → Resume σ ε ρ ω α)
      (later : ∀ r s' t', Refines Served (k r (s', t')) (k' r s')) :
      Refines Served (.call c (s, t) k) (.call c s k')
  | served (m : Resume (σ × τ) ε ρ ω α) (c : ε) (s : σ) (r : ρ) (s' : σ)
      (k : ρ → σ → Resume σ ε ρ ω α) (answered : Served c s r s')
      (later : Refines Served m (k r s')) : Refines Served m (.call c s k)

variable {Served : ε → σ → ρ → σ → Prop}

theorem refines_bind {m : Resume (σ × τ) ε ρ ω α} {m' : Resume σ ε ρ ω α}
    {f : α → Code (σ × τ) ε ρ ω β} {f' : α → Code σ ε ρ ω β} (hm : m.Refines Served m')
    (hf : ∀ a s t, (f a (s, t)).Refines Served (f' a s)) :
    (m.bind f).Refines Served (m'.bind f') := by
  induction hm with
  | ret a s t => exact hf a s t
  | revert why => exact .revert why
  | call c s t k k' later ih => exact .call c s t _ _ ih
  | served m c s r s' k answered later ih => exact .served _ c s r s' _ answered ih

/-- Every call is passed on with at most a note before and after it, or answered at once. -/
def Faithful (Served : ε → σ → ρ → σ → Prop) (ext : ε → Code (σ × τ) ε ρ ω ρ) : Prop :=
  ∀ c s t,
    (∃ t' : τ, ∃ note : ρ → σ → τ → τ,
      ext c (s, t) = .call c (s, t') fun r st => .ret r (st.1, note r st.1 st.2)) ∨
    ∃ r s' t', ext c (s, t) = .ret r (s', t') ∧ Served c s r s'

theorem interpret_refines {ext : ε → Code (σ × τ) ε ρ ω ρ} (faithful : Faithful Served ext)
    (m : Resume σ ε ρ ω α) (t : τ) : (m.interpret ext t).Refines Served m := by
  induction m generalizing t with
  | ret a s => exact .ret a s t
  | revert why => exact .revert why
  | call c s k ih =>
    rcases faithful c s t with ⟨t', note, passed⟩ | ⟨r, s', t', done, answered⟩
    · rw [Resume.interpret, passed]
      refine .call c s t' _ k ?_
      intro r s'' t''
      exact ih r s'' _
    · rw [Resume.interpret, done]
      exact .served _ c s r s' k answered (ih r s' t')

variable {κ κ' δ δ' : Type} (S' : System (σ × τ) ε ρ ω κ' δ') (S : System σ ε ρ ω κ δ)

/-- The larger system does nothing that the smaller one could not. An entry without a counterpart
belongs to the added contract and concerns the second component only. -/
structure Embeds (Served : ε → σ → ρ → σ → Prop) (entry : κ' → Option κ) : Prop where
  failed : S'.failed = S.failed
  admits : ∀ ws o' o, entry o' = some o → S'.admits ws o' = true → S.admits ws o = true
  code : ∀ o' o s t, entry o' = some o → (S'.code o' (s, t)).Refines Served (S.code o s)
  beside : ∀ o' s t, entry o' = none →
    (∃ why, S'.code o' (s, t) = .revert why) ∨ ∃ t', S'.code o' (s, t) = .ret () (s, t')
  drift : ∀ d s t, ∃ es, ∀ st, run S ⟨s, st⟩ es = some ⟨(S'.drift d (s, t)).1, st⟩
  unchanged : ∀ c s r s', Served c s r s' → S.failed r = true → s' = s
  served : ∀ c s r s', Served c s r s' → ∀ m : Machine σ ε ρ ω κ, m.store = s →
    (waits m.stack).head? = some c → ∃ es, run S m es = some ⟨s', m.stack⟩

inductive Level.Mirrors (Served : ε → σ → ρ → σ → Prop) :
    Level (σ × τ) ε ρ ω κ' → Level σ ε ρ ω κ → Prop
  | contract (f' : Frame (σ × τ) ε ρ ω κ') (f : Frame σ ε ρ ω κ) (entry : f'.entry.1 = f.entry)
      (atCall : f'.atCall.1 = f.atCall) (waiting : f'.waiting = f.waiting)
      (later : ∀ r s t, (f'.resume r (s, t)).Refines Served (f.resume r s)) :
      Mirrors Served (.contract f') (.contract f)
  | foreign (st : σ × τ) : Mirrors Served (.foreign st) (.foreign st.1)

/-- The same machine, but for the second component of the store. -/
structure Machine.Mirrors (Served : ε → σ → ρ → σ → Prop) (m' : Machine (σ × τ) ε ρ ω κ')
    (m : Machine σ ε ρ ω κ) : Prop where
  store : m'.store.1 = m.store
  stack : List.Forall₂ (Level.Mirrors Served) m'.stack m.stack

variable {S' S} {entry : κ' → Option κ}

theorem mirrors_waits {st' : List (Level (σ × τ) ε ρ ω κ')} {st : List (Level σ ε ρ ω κ)}
    (h : List.Forall₂ (Level.Mirrors Served) st' st) : waits st' = waits st := by
  induction h with
  | nil => rfl
  | cons head tail ih =>
    cases head with
    | contract f' f entry atCall waiting later => rw [waits, waits, waiting, ih]
    | foreign st => exact ih

theorem mirrors_committed {m' : Machine (σ × τ) ε ρ ω κ'} {m : Machine σ ε ρ ω κ}
    (h : m'.Mirrors Served m) : m'.committed.1 = m.committed := by
  have levels (st' : List (Level (σ × τ) ε ρ ω κ')) (st : List (Level σ ε ρ ω κ)) (x : σ × τ)
      (hst : List.Forall₂ (Level.Mirrors Served) st' st) : (fallback x st').1 =
        fallback x.1 st := by
    induction hst generalizing x with
    | nil => rfl
    | cons head tail ih =>
      cases head with
      | contract f' f entry atCall waiting later =>
        rw [fallback, fallback, ih, Level.saved, Level.saved, entry]
      | foreign st => rw [fallback, fallback, ih, Level.saved, Level.saved]
  rw [Machine.committed, levels _ _ _ h.stack, h.store]
  rfl

/-- Settling a segment. The smaller machine may first have to see some calls answered. -/
theorem settle_mirrors (embeds : Embeds S' S Served entry) (o' : κ') (o : κ) (e : σ × τ)
    {st' : List (Level (σ × τ) ε ρ ω κ')} {st : List (Level σ ε ρ ω κ)}
    (hst : List.Forall₂ (Level.Mirrors Served) st' st) {c' : Resume (σ × τ) ε ρ ω Unit}
    {c : Resume σ ε ρ ω Unit} (h : c'.Refines Served c) :
    ∃ es n, run S (settle o e.1 st c) es = some n ∧ (settle o' e st' c').Mirrors Served n := by
  induction h with
  | ret a s t => exact ⟨[], _, rfl, rfl, hst⟩
  | revert why => exact ⟨[], _, rfl, rfl, hst⟩
  | call x s t k k' later ih => exact ⟨[], _, rfl, rfl, .cons (.contract _ _ rfl rfl rfl later) hst⟩
  | served m x s r s' k answered later ih =>
    obtain ⟨es, moved⟩ := embeds.served x s r s' answered
      (settle o e.1 st (.call x s k)) rfl rfl
    obtain ⟨fs, n, settled, mirrors⟩ := ih
    refine ⟨es ++ .answer r :: fs, n, ?_, mirrors⟩
    have back : (if S.failed r = true then s else s') = s' := by
      by_cases hr : S.failed r = true
      · rw [if_pos hr, embeds.unchanged x s r s' answered hr]
      · rw [if_neg hr]
    have stepped : step S ⟨s', .contract ⟨o, e.1, s, x, k⟩ :: st⟩ (.answer r) =
        some (settle o e.1 st (k r s')) := by
      simp only [step, back]
    rw [run_append, moved, Option.bind_some, run]
    change ((step S ⟨s', .contract ⟨o, e.1, s, x, k⟩ :: st⟩ (.answer r)).bind _) = _
    rw [stepped, Option.bind_some]
    exact settled

theorem step_mirrors (embeds : Embeds S' S Served entry) (m' n' : Machine (σ × τ) ε ρ ω κ')
    (m : Machine σ ε ρ ω κ) (h : m'.Mirrors Served m) (e : Event ρ κ' δ')
    (hs : step S' m' e = some n') : ∃ es n, run S m es = some n ∧ n'.Mirrors Served n := by
  obtain ⟨store', stack'⟩ := m'
  obtain ⟨store, stack⟩ := m
  obtain ⟨hstore, hstack⟩ := h
  subst hstore
  have single (x : Event ρ κ δ) (n : Machine σ ε ρ ω κ) (es : List (Event ρ κ δ))
      (p : Machine σ ε ρ ω κ) (hx : step S ⟨store'.1, stack⟩ x = some n)
      (hn : run S n es = some p) : run S ⟨store'.1, stack⟩ (x :: es) = some p := by
    rw [run, hx, Option.bind_some, hn]
  cases e with
  | enter o' =>
    simp only [step] at hs
    split at hs
    · rename_i admitted
      cases hs
      cases ho : entry o' with
      | some o =>
        have passed := embeds.admits _ o' o ho admitted
        rw [mirrors_waits hstack] at passed
        obtain ⟨es, n, settled, mirrors⟩ := settle_mirrors embeds o' o store' hstack
          (embeds.code o' o store'.1 store'.2 ho)
        exact ⟨.enter o :: es, n, single _ _ es n (by simp [step, passed]) settled, mirrors⟩
      | none =>
        rcases embeds.beside o' store'.1 store'.2 ho with ⟨why, reverted⟩ | ⟨t', returned⟩
        · refine ⟨[], _, rfl, ?_⟩
          change (settle o' store' stack' (S'.code o' (store'.1, store'.2))).Mirrors Served _
          rw [reverted]
          exact ⟨rfl, hstack⟩
        · refine ⟨[], _, rfl, ?_⟩
          change (settle o' store' stack' (S'.code o' (store'.1, store'.2))).Mirrors Served _
          rw [returned]
          exact ⟨rfl, hstack⟩
    · cases hs
  | answer r =>
    cases hstack with
    | nil => cases hs
    | cons head tail =>
      cases head with
      | contract f' f entry atCall waiting later =>
        cases hs
        have resumed : ∃ t, (if S'.failed r = true then f'.atCall else store') =
            (if S.failed r = true then f.atCall else store'.1, t) := by
          rw [embeds.failed, ← atCall]
          by_cases hr : S.failed r = true
          · exact ⟨f'.atCall.2, by rw [if_pos hr, if_pos hr]⟩
          · exact ⟨store'.2, by rw [if_neg hr, if_neg hr]⟩
        obtain ⟨t, ht⟩ := resumed
        rw [ht]
        obtain ⟨es, n, settled, mirrors⟩ := settle_mirrors embeds f'.origin f.origin f'.entry tail
          (later r (if S.failed r = true then f.atCall else store'.1) t)
        rw [entry] at settled
        exact ⟨.answer r :: es, n, single _ _ es n rfl settled, mirrors⟩
      | foreign st => cases hs
  | begin =>
    cases hs
    exact ⟨[.begin], _, rfl, rfl, .cons (.foreign store') hstack⟩
  | commit =>
    cases hstack with
    | nil => cases hs
    | cons head tail =>
      cases head with
      | contract f' f entry atCall waiting later => cases hs
      | foreign st =>
        cases hs
        exact ⟨[.commit], _, rfl, rfl, tail⟩
  | abort =>
    cases hstack with
    | nil => cases hs
    | cons head tail =>
      cases head with
      | contract f' f entry atCall waiting later => cases hs
      | foreign st =>
        cases hs
        exact ⟨[.abort], _, rfl, rfl, tail⟩
  | drift d =>
    cases hs
    obtain ⟨es, moved⟩ := embeds.drift d store'.1 store'.2
    exact ⟨es, _, moved stack, rfl, hstack⟩

/-- Every run of the larger system is, in the first component, a run of the smaller one. -/
theorem run_mirrors (embeds : Embeds S' S Served entry) (m' n' : Machine (σ × τ) ε ρ ω κ')
    (m : Machine σ ε ρ ω κ) (h : m'.Mirrors Served m) (es' : List (Event ρ κ' δ'))
    (hr : run S' m' es' = some n') : ∃ es n, run S m es = some n ∧ n'.Mirrors Served n := by
  induction es' generalizing m' m with
  | nil =>
    cases hr
    exact ⟨[], m, rfl, h⟩
  | cons e es' ih =>
    simp only [run] at hr
    cases hs : step S' m' e with
    | none => simp [hs] at hr
    | some m₁' =>
      simp only [hs, Option.bind_some] at hr
      obtain ⟨es, m₁, first, mirrors⟩ := step_mirrors embeds m' m₁' m h e hs
      obtain ⟨fs, n, rest, last⟩ := ih m₁' m₁ mirrors hr
      refine ⟨es ++ fs, n, ?_, last⟩
      rw [run_append, first, Option.bind_some, rest]

theorem boot_mirrors (s : σ) (t : τ) :
    (boot (s, t) : Machine (σ × τ) ε ρ ω κ').Mirrors Served (boot s : Machine σ ε ρ ω κ) :=
  ⟨rfl, .nil⟩

end Refinement

section Lifting

/-- No call is answered at once. -/
abbrev Unserved (_c : ε) (_s : σ) (_r : ρ) (_s' : σ) : Prop := False

variable {κ κ' δ δ' : Type} (S' : System (σ × τ) ε ρ ω κ' δ') (S : System σ ε ρ ω κ δ)

/-- The larger machine can keep step with the smaller one. -/
structure Lifts (enter : κ → κ') (drifts : δ → δ') : Prop where
  failed : S'.failed = S.failed
  admits : ∀ ws o, S'.admits ws (enter o) = S.admits ws o
  code : ∀ o s t, (S'.code (enter o) (s, t)).Refines Unserved (S.code o s)
  drift : ∀ d s t, (S'.drift (drifts d) (s, t)).1 = S.drift d s

def Event.lift (enter : κ → κ') (drifts : δ → δ') : Event ρ κ δ → Event ρ κ' δ'
  | .enter o => .enter (enter o)
  | .answer r => .answer r
  | .begin => .begin
  | .commit => .commit
  | .abort => .abort
  | .drift d => .drift (drifts d)

variable {S' S} {enter : κ → κ'} {drifts : δ → δ'}

theorem settle_lifts (o' : κ') (o : κ) (e : σ × τ) {st' : List (Level (σ × τ) ε ρ ω κ')}
    {st : List (Level σ ε ρ ω κ)} (hst : List.Forall₂ (Level.Mirrors Unserved) st' st)
    {c' : Resume (σ × τ) ε ρ ω Unit} {c : Resume σ ε ρ ω Unit} (h : c'.Refines Unserved c) :
    (settle o' e st' c').Mirrors Unserved (settle o e.1 st c) := by
  cases h with
  | ret a s t => exact ⟨rfl, hst⟩
  | revert why => exact ⟨rfl, hst⟩
  | call x s t k k' later => exact ⟨rfl, .cons (.contract _ _ rfl rfl rfl later) hst⟩
  | served m x s r s' k answered later => exact answered.elim

theorem step_lifts (lifts : Lifts S' S enter drifts) (m' : Machine (σ × τ) ε ρ ω κ')
    (m n : Machine σ ε ρ ω κ) (h : m'.Mirrors Unserved m) (e : Event ρ κ δ)
    (hs : step S m e = some n) :
    ∃ n', step S' m' (e.lift enter drifts) = some n' ∧ n'.Mirrors Unserved n := by
  obtain ⟨store', stack'⟩ := m'
  obtain ⟨store, stack⟩ := m
  obtain ⟨hstore, hstack⟩ := h
  subst hstore
  cases e with
  | enter o =>
    simp only [step] at hs
    split at hs
    · rename_i admitted
      cases hs
      refine ⟨_, ?_, settle_lifts (enter o) o store' hstack (lifts.code o store'.1 store'.2)⟩
      simp only [Event.lift, step, lifts.admits]
      rw [if_pos (by rw [mirrors_waits hstack]; exact admitted)]
    · cases hs
  | answer r =>
    cases hstack with
    | nil => cases hs
    | cons head tail =>
      cases head with
      | contract f' f entry atCall waiting later =>
        cases hs
        have resumed : (if S'.failed r = true then f'.atCall else store').1 =
            if S.failed r = true then f.atCall else store'.1 := by
          rw [lifts.failed, ← atCall]
          split
          · rfl
          · rfl
        refine ⟨_, rfl, ?_⟩
        rw [← resumed, ← entry]
        exact settle_lifts f'.origin f.origin f'.entry tail (later r _ _)
      | foreign st => cases hs
  | begin =>
    cases hs
    exact ⟨_, rfl, rfl, .cons (.foreign store') hstack⟩
  | commit =>
    cases hstack with
    | nil => cases hs
    | cons head tail =>
      cases head with
      | contract f' f entry atCall waiting later => cases hs
      | foreign st =>
        cases hs
        exact ⟨_, rfl, rfl, tail⟩
  | abort =>
    cases hstack with
    | nil => cases hs
    | cons head tail =>
      cases head with
      | contract f' f entry atCall waiting later => cases hs
      | foreign st =>
        cases hs
        exact ⟨_, rfl, rfl, tail⟩
  | drift d =>
    cases hs
    exact ⟨_, rfl, lifts.drift d store'.1 store'.2, hstack⟩

/-- Every run of the smaller system is, in the first component, a run of the larger one. -/
theorem run_lifts (lifts : Lifts S' S enter drifts) (m' : Machine (σ × τ) ε ρ ω κ')
    (m n : Machine σ ε ρ ω κ) (h : m'.Mirrors Unserved m) (es : List (Event ρ κ δ))
    (hr : run S m es = some n) :
    ∃ n', run S' m' (es.map (Event.lift enter drifts)) = some n' ∧ n'.Mirrors Unserved n := by
  induction es generalizing m' m with
  | nil =>
    cases hr
    exact ⟨m', rfl, h⟩
  | cons e es ih =>
    simp only [run] at hr
    cases hs : step S m e with
    | none => simp [hs] at hr
    | some m₁ =>
      simp only [hs, Option.bind_some] at hr
      obtain ⟨m₁', first, mirrors⟩ := step_lifts lifts m' m m₁ h e hs
      obtain ⟨n', rest, last⟩ := ih m₁' m₁ mirrors hr
      refine ⟨n', ?_, last⟩
      rw [List.map_cons, run, first, Option.bind_some, rest]

end Lifting

end Resumption
