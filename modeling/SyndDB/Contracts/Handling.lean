import SyndDB.Contracts.Frame
import SyndDB.Framework.Rely

namespace SyndDB.Contracts

open Octets Resumption

/-- `handleMessage` up to the target call. -/
def prepare (D : Deployment) (messageId : Bytes32) : M SequencerSignature := do
  let w ← Code.get
  let state := w.bridge.messageStates messageId
  Code.require (state.stage ≠ .NotStarted) (.MessageNotInitialized messageId)
  Code.require (!isMessageHandled w.bridge messageId) (.MessageAlreadyHandled messageId)
  Code.require (state.stage = .PreExecution) (.MessageCurrentlyProcessing messageId state.stage)
  let signature := w.bridge.sequencerSignatures messageId
  _validatePreModules messageId .PreExecution state.payload signature
  setStage messageId .Executing
  _unwrap D messageId
  return signature

/-- `handleMessage` after the target call. -/
def finish (messageId : Bytes32) (signature : SequencerSignature) : ExtResult → M Unit
  | .reverted returnData => Code.revert (.MessageExecutionFailed messageId returnData)
  | .returned _ => do
      setStage messageId .PostExecution
      let w ← Code.get
      _validatePostModules messageId .PostExecution (w.bridge.messageStates messageId).payload
        signature
      setStage messageId .Completed

theorem execute_finish (D : Deployment) (messageId : Bytes32) (signature : SequencerSignature) :
    (_execute D messageId >>= fun _ => finish messageId signature (.returned [])) =
      callTarget D messageId >>= finish messageId signature := by
  rw [_execute, code_bind_assoc]
  congr 1
  funext r
  cases r with
  | reverted data => rfl
  | returned data => rfl

theorem handleMessage_eq (D : Deployment) (messageId : Bytes32) :
    handleMessage D messageId =
      prepare D messageId >>= fun signature =>
        callTarget D messageId >>= finish messageId signature := by
  simp only [prepare, code_bind_assoc, code_pure_bind, ← execute_finish]
  rfl

/-- The turning points of a message. -/
inductive Moment where
  | initialized (messageId : Bytes32) (initializer signer : Address)
  | starting (messageId : Bytes32)
  | executing (messageId : Bytes32)
  | answered (messageId : Bytes32) (r : ExtResult)
  | completed (messageId : Bytes32)

/-- A contract beside the bridge, with state `τ`, external functions `κ` and drifts `δ`: how the
calls of the bridge are carried out, and what is written down when. -/
structure Companion (τ κ δ : Type) where
  ext : ExtCall → Code (World × τ) ExtCall ExtResult Error ExtResult
  note : Moment → World → τ → τ
  own : κ → World → τ → Option τ
  drift : δ → World × τ → World × τ

section Code

variable {τ κ δ : Type} (D : Deployment) (X : Companion τ κ δ)

abbrev Companion.Code (_X : Companion τ κ δ) (α : Type) : Type :=
  Resumption.Code (World × τ) ExtCall ExtResult Error α

def Companion.mark (m : Moment) : X.Code Unit := Code.aside (X.note m)

def handleWith (messageId : Bytes32) : X.Code Unit := do
  X.mark (.starting messageId)
  let signature ← (prepare D messageId).interpret X.ext
  X.mark (.executing messageId)
  let r ← (callTarget D messageId).interpret X.ext
  X.mark (.answered messageId r)
  (finish messageId signature r).interpret X.ext
  X.mark (.completed messageId)

/-- The signer of a message, as `_initializeMessage` recovers it. -/
def messageSigner (D : Deployment) (messageId : Bytes32) (targetAddress : Address)
    (payload : Bytes) (sequencerSignature : SequencerSignature) (nativeTokenAmount : UInt256) :
    Option Address :=
  D.crypto.recover (toEthSignedMessageHash D.crypto
    (messageHash D.crypto messageId targetAddress payload nativeTokenAmount))
    sequencerSignature.signature

def initializeWith (sender : Address) (messageId : Bytes32) (targetAddress : Address)
    (payload : Bytes) (sequencerSignature : SequencerSignature) (nativeTokenAmount : UInt256) :
    X.Code Unit := do
  (_initializeMessage D sender messageId targetAddress payload sequencerSignature
    nativeTokenAmount).interpret X.ext
  X.mark (.initialized messageId sender ((messageSigner D messageId targetAddress payload
    sequencerSignature nativeTokenAmount).getD 0))

/-- The external functions of the bridge, with the notes. -/
def bridgeWith (sender : Address) : BridgeCall → X.Code Unit
  | .initializeMessage i t p s a => do
      (onlyMessageInitializer sender).interpret X.ext
      initializeWith D X sender i t p s a
  | .handleMessage i => handleWith D X i
  | .initializeAndHandleMessage i t p s vs a => do
      (onlyMessageInitializer sender).interpret X.ext
      initializeWith D X sender i t p s a
      (Code.each (signMessageWithSignature D i) vs).interpret X.ext
      handleWith D X i
  | .batchInitializeMessage is ts ps ss as => do
      (onlyMessageInitializer sender).interpret X.ext
      Code.require (is.length = ts.length && is.length = ps.length && is.length = ss.length
        && is.length = as.length) .ArrayLengthMismatch
      Code.each (fun (i, t, p, s, a) => initializeWith D X sender i t p s a)
        (is.zip (ts.zip (ps.zip (ss.zip as))))
  | .batchHandleMessage is => Code.each (handleWith D X) is
  | c => (bridgeCode D sender c).interpret X.ext

def Companion.run (c : κ) : X.Code Unit :=
  fun st =>
    match X.own c st.1 st.2 with
    | some t => .ret () (st.1, t)
    | none => .revert (.CallReverted [])

/-- The bridge and the key manager beside the other contract. -/
def extended : System (World × τ) ExtCall ExtResult Error (Entry ⊕ κ) δ where
  code
    | .inl (.bridge sender c) => bridgeWith D X sender c
    | .inl (.keyManager sender c) =>
        ((system D).code (.keyManager sender c)).interpret X.ext
    | .inr c => X.run c
  failed := ExtResult.failed
  admits ws
    | .inl o => admits D ws o
    | .inr _ => true
  drift := X.drift

end Code

section Embedding

variable {τ κ δ : Type} (D : Deployment) (X : Companion τ κ δ)
  {Served : ExtCall → World → ExtResult → World → Prop}

theorem each_refines {β : Type} (f' : β → X.Code Unit) (f : β → M Unit)
    (hf : ∀ b w t, (f' b (w, t)).Refines Served (f b w)) (bs : List β) (w : World) (t : τ) :
    (Code.each f' bs (w, t)).Refines Served (Code.each f bs w) := by
  induction bs generalizing w t with
  | nil => exact .ret () w t
  | cons b bs ih => exact refines_bind (hf b w t) fun _ w t => ih w t

/-- A note at the end. -/
theorem refines_mark {m' : Resume (World × τ) ExtCall ExtResult Error Unit}
    {m : Resume World ExtCall ExtResult Error Unit} (moment : Moment) (h : m'.Refines Served m) :
    (m'.bind fun _ => X.mark moment).Refines Served m := by
  rw [← bind_pure_right m]
  exact refines_bind h fun _ w t => .ret () w _

variable {X} (faithful : Faithful Served X.ext)
include faithful

theorem handleWith_refines (messageId : Bytes32) (w : World) (t : τ) :
    (handleWith D X messageId (w, t)).Refines Served (handleMessage D messageId w) := by
  rw [handleMessage_eq]
  refine refines_bind (interpret_refines faithful _ _) fun signature w t => ?_
  refine refines_bind (interpret_refines faithful _ _) fun r w t => ?_
  exact refines_mark X _ (interpret_refines faithful _ _)

theorem initializeWith_refines (sender : Address) (messageId : Bytes32) (targetAddress : Address)
    (payload : Bytes) (sequencerSignature : SequencerSignature) (nativeTokenAmount : UInt256)
    (w : World) (t : τ) :
    (initializeWith D X sender messageId targetAddress payload sequencerSignature
      nativeTokenAmount (w, t)).Refines Served
      (_initializeMessage D sender messageId targetAddress payload sequencerSignature
        nativeTokenAmount w) :=
  refines_mark X _ (interpret_refines faithful _ _)

theorem bridgeWith_refines (sender : Address) (c : BridgeCall) (w : World) (t : τ) :
    (bridgeWith D X sender c (w, t)).Refines Served (bridgeCode D sender c w) := by
  cases c with
  | initializeMessage i tg p s a =>
    refine refines_bind (interpret_refines faithful _ _) fun _ w t => ?_
    exact initializeWith_refines D faithful sender i tg p s a w t
  | handleMessage i => exact handleWith_refines D faithful i w t
  | initializeAndHandleMessage i tg p s vs a =>
    have assoc : initializeAndHandleMessage D sender i tg p s vs a =
        onlyMessageInitializer sender >>= fun _ =>
          _initializeMessage D sender i tg p s a >>= fun _ =>
            Code.each (signMessageWithSignature D i) vs >>= fun _ => handleMessage D i := by
      simp only [initializeAndHandleMessage, initializeMessage, code_bind_assoc]
    rw [bridgeCode, assoc]
    refine refines_bind (interpret_refines faithful _ _) fun _ w t => ?_
    refine refines_bind (initializeWith_refines D faithful sender i tg p s a w t) fun _ w t => ?_
    refine refines_bind (interpret_refines faithful _ _) fun _ w t => ?_
    exact handleWith_refines D faithful i w t
  | batchInitializeMessage is ts ps ss as =>
    refine refines_bind (interpret_refines faithful _ _) fun _ w t => ?_
    refine refines_bind ?_ fun _ w t => ?_
    · simp only [Code.require]
      split
      · exact .ret () w t
      · exact .revert _
    · refine each_refines X _ _ (fun b w t => ?_) _ w t
      exact initializeWith_refines D faithful sender b.1 b.2.1 b.2.2.1 b.2.2.2.1 b.2.2.2.2 w t
  | batchHandleMessage is =>
    exact each_refines X _ _ (fun i w t => handleWith_refines D faithful i w t) is w t
  | _ => exact interpret_refines faithful _ _

/-- Every run beside the other contract is, in the first component, a run of the bridge. -/
theorem extended_embeds
    (unchanged : ∀ c w r w', Served c w r w' → r.failed = true → w' = w)
    (served : ∀ c w r w', Served c w r w' →
      ∀ m : Machine World ExtCall ExtResult Error Entry, m.store = w →
        (waits m.stack).head? = some c → ∃ es, run (system D) m es = some ⟨w', m.stack⟩)
    (drifts : ∀ d w t, ∃ es, ∀ st,
      run (system D) ⟨w, st⟩ es = some ⟨(X.drift d (w, t)).1, st⟩) :
    Embeds (extended D X) (system D) Served (Sum.elim some fun _ => none) where
  failed := rfl
  admits := by
    intro ws o' o ho admitted
    cases o' with
    | inl e => cases ho; exact admitted
    | inr c => cases ho
  code := by
    intro o' o w t ho
    cases o' with
    | inl e =>
      obtain rfl : e = o := Option.some.inj ho
      cases e with
      | bridge sender c => exact bridgeWith_refines D faithful sender c w t
      | keyManager sender c => exact interpret_refines faithful _ _
    | inr c => cases ho
  beside := by
    intro o' w t ho
    cases o' with
    | inl e => cases ho
    | inr c =>
      cases hc : X.own c w t with
      | none => exact .inl ⟨.CallReverted [], by simp [extended, Companion.run, hc]⟩
      | some t' => exact .inr ⟨t', by simp [extended, Companion.run, hc]⟩
  drift := drifts
  unchanged := unchanged
  served := served

end Embedding

/-- Nothing stands beside the bridge. Notes are taken at the turning points and at the answers. -/
def observer {τ : Type} (note : Moment → World → τ → τ)
    (seen : ExtCall → ExtResult → World → τ → τ) :
    Companion τ Empty Drift where
  ext c := fun st => .call c st fun r st' => .ret r (st'.1, seen c r st'.1 st'.2)
  note := note
  own c := nomatch c
  drift d st := (drift d st.1, st.2)

section Observing

variable {τ : Type} (D : Deployment) (note : Moment → World → τ → τ)
  (seen : ExtCall → ExtResult → World → τ → τ)

theorem observer_lifts : Lifts (extended D (observer note seen)) (system D) Sum.inl id where
  failed := rfl
  admits := fun _ _ => rfl
  code := by
    have faithful : Faithful Unserved (observer note seen).ext :=
      fun c _ t => .inl ⟨t, seen c, rfl⟩
    intro o w t
    cases o with
    | bridge sender c => exact bridgeWith_refines D faithful sender c w t
    | keyManager sender c => exact interpret_refines faithful _ _
  drift := fun _ _ _ => rfl

/-- Every run of the bridge can be observed. -/
theorem observed_run (w : World) (t : τ) (es : List (Event ExtResult Entry Drift))
    (m : Machine World ExtCall ExtResult Error Entry) (h : run (system D) (boot w) es = some m) :
    ∃ m', run (extended D (observer note seen)) (boot (w, t))
        (es.map (Event.lift Sum.inl id)) = some m' ∧
      m'.store.1 = m.store ∧ m'.committed.1 = m.committed := by
  obtain ⟨m', hm', mirrors⟩ := run_lifts (observer_lifts D note seen) (boot (w, t)) (boot w) m
    (boot_mirrors w t) es h
  exact ⟨m', hm', mirrors.store, mirrors_committed mirrors⟩

end Observing

/-- A check module whose code is known. `serve` answers a check of the bridge, `restore` puts
notes back that belong to one session when a call made in it returns. -/
structure Module (τ κ δ : Type) where
  serve : Bytes32 → ProcessingStage → Bytes → SequencerSignature → World → τ → ExtResult × τ
  restore : ExtCall → τ → τ → τ
  note : Moment → World → τ → τ
  own : κ → World → τ → Option τ
  drift : δ → τ → τ

namespace Module

variable {τ κ δ : Type} (M : Module τ κ δ) (T : Address)

/-- A call that the module does not serve. -/
def forward (c : ExtCall) : Code (World × τ) ExtCall ExtResult Error ExtResult :=
  fun st => .call c st fun r st' => .ret r (st'.1, M.restore c st.2 st'.2)

/-- A check of the module, which runs to its end. -/
def answer (i : Bytes32) (stage : ProcessingStage) (payload : Bytes)
    (signature : SequencerSignature) : Code (World × τ) ExtCall ExtResult Error ExtResult :=
  fun st => .ret (M.serve i stage payload signature st.1 st.2).1
    (st.1, (M.serve i stage payload signature st.1 st.2).2)

def ext : ExtCall → Code (World × τ) ExtCall ExtResult Error ExtResult
  | .check module i stage payload signature =>
      if module = T then M.answer i stage payload signature
      else M.forward (.check module i stage payload signature)
  | c => M.forward c

theorem ext_own (i : Bytes32) (stage : ProcessingStage) (payload : Bytes)
    (signature : SequencerSignature) :
    M.ext T (.check T i stage payload signature) = M.answer i stage payload signature := by
  rw [ext, if_pos rfl]

theorem ext_other (module : Address) (h : module ≠ T) (i : Bytes32) (stage : ProcessingStage)
    (payload : Bytes) (signature : SequencerSignature) :
    M.ext T (.check module i stage payload signature) =
      M.forward (.check module i stage payload signature) := by
  rw [ext, if_neg h]

/-- The module at an address. -/
def install : Companion τ κ (Drift ⊕ δ) where
  ext := M.ext T
  note := M.note
  own := M.own
  drift
    | .inl d, st => (Contracts.drift d st.1, st.2)
    | .inr d, st => (st.1, M.drift d st.2)

/-- Calls that are not about a message are passed on. -/
theorem install_idle (c : ExtCall) (hc : Idle c) : (M.install T).ext c = M.forward c := by
  cases c with
  | deposit amount => rfl
  | keyManager manager call => rfl
  | check module i stage payload signature => exact hc.elim
  | withdraw i amount => exact hc.elim
  | target i target value payload => exact hc.elim

theorem install_faithful : Faithful (fun _ w _ w' => w' = w) (M.install T).ext := by
  have forwarded (c : ExtCall) (w : World) (t : τ) :
      ∃ t' : τ, ∃ note : ExtResult → World → τ → τ,
        M.forward c (w, t) = .call c (w, t') fun r st => .ret r (st.1, note r st.1 st.2) :=
    ⟨t, fun _ _ t' => M.restore c t t', rfl⟩
  intro c w t
  cases c with
  | check module i stage payload signature =>
    by_cases own : module = T
    · subst own
      have served := M.ext_own module i stage payload signature
      exact .inr ⟨_, w, _, congrFun served (w, t), rfl⟩
    · left
      have passed := M.ext_other T module own i stage payload signature
      simp only [install, passed]
      exact forwarded _ w t
  | withdraw i amount => exact .inl (forwarded _ w t)
  | deposit amount => exact .inl (forwarded _ w t)
  | target i target value payload => exact .inl (forwarded _ w t)
  | keyManager manager call => exact .inl (forwarded _ w t)

/-- What happens to the bridge beside the module happens in a run of the bridge. -/
theorem install_run (D : Deployment) (w : World) (t : τ)
    (es' : List (Event ExtResult (Entry ⊕ κ) _))
    (m' : Machine (World × τ) ExtCall ExtResult Error (Entry ⊕ κ))
    (h : run (extended D (M.install T)) (boot (w, t)) es' = some m') :
    ∃ es m, run (system D) (boot w) es = some m ∧ m.store = m'.store.1 ∧
      m.committed = m'.committed.1 := by
  have embeds := extended_embeds D (M.install_faithful T) (fun _ _ _ _ same _ => same)
    (fun _ _ _ _ same m hm _ => ⟨[], by rw [same, ← hm]; rfl⟩)
    (fun d w t => by
      cases d with
      | inl d => exact ⟨[.drift d], fun _ => rfl⟩
      | inr d => exact ⟨[], fun _ => rfl⟩)
  obtain ⟨es, m, hm, mirrors⟩ := run_mirrors embeds _ m' _ (boot_mirrors w t) es' h
  exact ⟨es, m, hm, mirrors.store.symm, (mirrors_committed mirrors).symm⟩

/-- An event of the bridge alone. -/
def beside : Event ExtResult Entry Drift → Event ExtResult (Entry ⊕ κ) (Drift ⊕ δ) :=
  Event.lift .inl .inl

def isTarget : ExtCall → Bool
  | .target .. => true
  | _ => false

/-- No call but a target call is answered from outside. -/
def answersTargets (ws : List ExtCall) : Event ExtResult (Entry ⊕ κ) (Drift ⊕ δ) → Prop
  | .answer _ => ws.head?.any isTarget = true
  | _ => True

instance decidableAnswersTargets (ws : List ExtCall)
    (e : Event ExtResult (Entry ⊕ κ) (Drift ⊕ δ)) : Decidable (answersTargets ws e) :=
  match e with
  | .answer _ => inferInstanceAs (Decidable (_ = true))
  | .enter _ | .begin | .commit | .abort | .drift _ => inferInstanceAs (Decidable True)

/-- A condition that asks nothing of target calls. -/
theorem meets_of_targets (D : Deployment)
    (C : ExtCall → World × τ → ExtResult → World × τ → Prop)
    (hC : ∀ i t v p st r st', C (.target i t v p) st r st')
    (m : Machine (World × τ) ExtCall ExtResult Error (Entry ⊕ κ))
    (e : Event ExtResult (Entry ⊕ κ) (Drift ⊕ δ)) (h : answersTargets (waits m.stack) e) :
    Meets (extended D (M.install T)) C m e := by
  cases e with
  | answer r =>
    intro f st hst
    rw [hst, waits] at h
    cases hw : f.waiting with
    | target i t v p => exact hC i t v p _ _ _
    | _ => simp [answersTargets, hw, isTarget] at h
  | _ => trivial

end Module

end SyndDB.Contracts
