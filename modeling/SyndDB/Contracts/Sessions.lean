import SyndDB.Contracts.AtMostOnce
import SyndDB.Contracts.Handling

namespace SyndDB.Contracts

open Octets Resumption

/-- The trace has grown, and no target call was made. -/
structure Quieter (w w' : World) : Prop where
  trace : w.trace <+: w'.trace
  calls : w'.targetCalls = w.targetCalls

/-- What functions other than those that initialize or handle messages may do to the bridge. -/
structure Administers (w w' : World) : Prop extends Quieter w w' where
  states : w'.bridge.messageStates = w.bridge.messageStates
  signatures : w'.bridge.sequencerSignatures = w.bridge.sequencerSignatures
  signed : ∀ i v, w.bridge.validatorSignatures i v = true → w'.bridge.validatorSignatures i v = true

/-- Only the trace or the balance has changed. -/
structure SameBridge (w w' : World) : Prop extends Quieter w w' where
  bridge : w'.bridge = w.bridge
  keyManager : w'.keyManager = w.keyManager
  timestamp : w'.timestamp = w.timestamp
  views : w'.views = w.views

theorem quieter_refl (w : World) : Quieter w w := ⟨List.prefix_rfl, rfl⟩

theorem quieter_trace (w w' : World) (h : w'.trace = w.trace) : Quieter w w' := by
  refine ⟨?_, ?_⟩
  · exact h ▸ List.prefix_rfl
  · rw [World.targetCalls, h, World.targetCalls]

theorem quieter_record (w w' : World) (a : Action) (ha : a.targetCall? = none)
    (h : w'.trace = w.trace ++ [a]) : Quieter w w' := by
  refine ⟨by rw [h]; exact List.prefix_append _ _, ?_⟩
  simp [World.targetCalls, h, ha]

theorem administers_refl (w : World) : Administers w w := ⟨quieter_refl w, rfl, rfl, fun _ _ h => h⟩

theorem administers_trans (a b c : World) (h : Administers a b) (h' : Administers b c) :
    Administers a c :=
  ⟨⟨h.trace.trans h'.trace, h'.calls.trans h.calls⟩, h'.states.trans h.states,
    h'.signatures.trans h.signatures, fun i v hv => h'.signed i v (h.signed i v hv)⟩

theorem administers_bridge (w w' : World) (h : w'.bridge = w.bridge) (quieter : Quieter w w') :
    Administers w w' := by
  refine ⟨quieter, ?_, ?_, ?_⟩
  · rw [h]
  · rw [h]
  · rw [h]
    exact fun _ _ hv => hv

section Quietness

theorem administers_modify {idle : ExtCall → Prop} (f : BridgeState → BridgeState)
    (hm : ∀ b, (f b).messageStates = b.messageStates)
    (hs : ∀ b, (f b).sequencerSignatures = b.sequencerSignatures)
    (hv : ∀ b i v, b.validatorSignatures i v = true → (f b).validatorSignatures i v = true) :
    Quiet idle Administers (modifyBridge f) :=
  steady_modify administers_trans _ fun w _ =>
    ⟨trivial, quieter_trace w _ rfl, hm w.bridge, hs w.bridge, hv w.bridge⟩

theorem administers_record (a : Action) (ha : a.targetCall? = none) :
    Quiet Idle Administers (record a) :=
  steady_modify administers_trans _ fun w _ =>
    ⟨trivial, administers_bridge w _ rfl (quieter_record w _ a ha rfl)⟩

theorem administers_issue (c : ExtCall) (hc : Idle c) : Quiet Idle Administers (issue c) := by
  refine steady_bind (administers_record _ (idle_targetCall c hc)) fun _ => ?_
  refine steady_bind (steady_external administers_refl c fun _ _ => hc) fun r => ?_
  cases r with
  | reverted data => exact steady_revert _
  | returned data => exact steady_bind (administers_record _ rfl) fun _ => steady_pure _

theorem administers_wrap (amount : UInt256) : Quiet Idle Administers (_wrapNativeToken amount) := by
  refine steady_bind (steady_modify administers_trans _ fun w _ => ?_) fun _ => ?_
  · exact ⟨trivial, administers_bridge w _ rfl (quieter_trace w _ rfl)⟩
  · exact steady_bind (administers_issue _ trivial) fun _ => steady_pure _

theorem administers_accept {idle : ExtCall → Prop} (D : Deployment) (messageId : Bytes32)
    (validator : Address) : Quiet idle Administers (acceptValidator D messageId validator) := by
  refine steady_bind (isKeyValid_quiet _ _ _) fun _ => ?_
  refine administers_modify _ (fun _ => rfl) (fun _ => rfl) fun b i v hv => ?_
  by_cases hi : i = messageId
  · subst hi
    by_cases hva : v = validator
    · simp [hva]
    · simpa [hva] using hv
  · simpa [hi] using hv

theorem administers_sign (D : Deployment) (messageId : Bytes32) (signature : Bytes) :
    Quiet Idle Administers (signMessageWithSignature D messageId signature) :=
  steady_bind (recover_quiet _ _ _) fun _ => administers_accept _ _ _

theorem administers_modules (sender module : Address) (get : BridgeState → AddressSet)
    (put : BridgeState → AddressSet → BridgeState)
    (change : AddressSet → Address → Option AddressSet) (failure : Error)
    (hm : ∀ b s, (put b s).messageStates = b.messageStates)
    (hs : ∀ b s, (put b s).sequencerSignatures = b.sequencerSignatures)
    (hv : ∀ b s, (put b s).validatorSignatures = b.validatorSignatures) :
    Quiet Idle Administers (changeModules sender module get put change failure) := by
  refine steady_bind (onlyOwner_quiet _) fun _ => ?_
  refine steady_bind (steady_require _ _) fun _ => ?_
  refine steady_bind steady_get fun w => ?_
  split
  · exact steady_revert _
  · refine administers_modify _ (fun b => hm b _) (fun b => hs b _) fun b i v h => ?_
    rw [hv]
    exact h

theorem administers_runKeyManager (D : Deployment) (sender : Address) (c : TeeKeyManager.Call) :
    Quiet Idle Administers (runKeyManager D sender c) := by
  refine steady_bind steady_get fun w => ?_
  split
  · exact steady_revert _
  · refine steady_bind (steady_modify administers_trans _ fun w _ => ?_) fun _ => steady_pure _
    exact ⟨trivial, administers_bridge w _ rfl (quieter_trace w _ rfl)⟩

theorem administers_callKeyManager (D : Deployment) (c : TeeKeyManager.Call) :
    Quiet Idle Administers (callKeyManager D c) := by
  refine steady_bind steady_get fun w => ?_
  split
  · exact administers_runKeyManager D _ c
  · exact administers_issue _ trivial

/-- The functions that initialize or handle messages. -/
def BridgeCall.processes : BridgeCall → Bool
  | .initializeMessage .. | .handleMessage .. | .initializeAndHandleMessage ..
  | .batchInitializeMessage .. | .batchHandleMessage .. => true
  | _ => false

theorem administers_bridgeCode (D : Deployment) (sender : Address) (c : BridgeCall)
    (hc : c.processes = false) : Quiet Idle Administers (bridgeCode D sender c) := by
  have admin (f : BridgeState → BridgeState) (hm : ∀ b, (f b).messageStates = b.messageStates)
      (hs : ∀ b, (f b).sequencerSignatures = b.sequencerSignatures)
      (hv : ∀ b, (f b).validatorSignatures = b.validatorSignatures) :
      Quiet Idle Administers (onlyOwner sender >>= fun _ => modifyBridge f) := by
    refine steady_bind (onlyOwner_quiet _) fun _ => ?_
    refine administers_modify f hm hs fun b i v h => ?_
    rw [hv]
    exact h
  have forward (k : TeeKeyManager.Call) :
      Quiet Idle Administers (forwardToKeyManager D sender k) :=
    steady_bind (onlyOwner_quiet _) fun _ =>
      steady_bind (administers_callKeyManager D k) fun _ => steady_pure _
  have register (k : World → UInt256 → TeeKeyManager.Call) :
      Quiet Idle Administers (do
        let expiresAt ← registrationExpiry
        let w ← Code.get
        let data ← callKeyManager D (k w expiresAt)
        decodeKey data) :=
    steady_bind registrationExpiry_quiet fun _ => steady_bind steady_get fun _ =>
      steady_bind (administers_callKeyManager D _) fun _ => decodeKey_quiet _
  cases c with
  | receive value =>
    refine steady_bind (steady_modify administers_trans _ fun w _ => ?_) fun _ => ?_
    · exact ⟨trivial, administers_bridge w _ rfl (quieter_trace w _ rfl)⟩
    · split
      · exact administers_wrap _
      · exact steady_pure _
  | transferOwnership o => exact admin _ (fun _ => rfl) (fun _ => rfl) (fun _ => rfl)
  | acceptOwnership =>
    refine steady_bind steady_get fun w => steady_bind (steady_require _ _) fun _ => ?_
    exact administers_modify _ (fun _ => rfl) (fun _ => rfl) fun _ _ _ h => h
  | renounceOwnership => exact admin _ (fun _ => rfl) (fun _ => rfl) (fun _ => rfl)
  | addPreModule m =>
    exact administers_modules _ _ _ _ _ _ (fun _ _ => rfl) (fun _ _ => rfl) (fun _ _ => rfl)
  | addPostModule m =>
    exact administers_modules _ _ _ _ _ _ (fun _ _ => rfl) (fun _ _ => rfl) (fun _ _ => rfl)
  | removePreModule m =>
    exact administers_modules _ _ _ _ _ _ (fun _ _ => rfl) (fun _ _ => rfl) (fun _ _ => rfl)
  | removePostModule m =>
    exact administers_modules _ _ _ _ _ _ (fun _ _ => rfl) (fun _ _ => rfl) (fun _ _ => rfl)
  | setMessageInitializer a b => exact admin _ (fun _ => rfl) (fun _ => rfl) (fun _ => rfl)
  | signMessage i => exact administers_accept _ _ _
  | signMessageWithSignature i s => exact administers_sign _ _ _
  | setTeeKeyManager k =>
    refine steady_bind (onlyOwner_quiet _) fun _ => steady_bind (steady_require _ _) fun _ => ?_
    exact administers_modify _ (fun _ => rfl) (fun _ => rfl) fun _ _ _ h => h
  | setKeyRegistrationRestricted t r => exact admin _ (fun _ => rfl) (fun _ => rfl) (fun _ => rfl)
  | setDefaultKeyExpiration e => exact admin _ (fun _ => rfl) (fun _ => rfl) (fun _ => rfl)
  | wrapNativeToken a =>
    refine steady_bind (onlyMessageInitializer_quiet _) fun _ => steady_bind steady_get fun _ => ?_
    exact steady_bind (steady_require _ _) fun _ => administers_wrap _
  | registerKey t pv pb => exact steady_bind (register _) fun _ => steady_pure _
  | registerKeyWithSignature t pv pb d s => exact steady_bind (register _) fun _ => steady_pure _
  | approveKey t k e => exact forward _
  | rejectKey t k => exact forward _
  | removeKey t k => exact forward _
  | setKeyExpiration k e => exact forward _
  | revokeAllKeys => exact forward _
  | updateAttestationVerifier v => exact forward _
  | _ => cases hc

end Quietness

/-- The world after an action was recorded. -/
def World.noted (w : World) (a : Action) : World := { w with trace := w.trace ++ [a] }

/-- The world after a stage was written. -/
def World.staged (w : World) (messageId : Bytes32) (stage : ProcessingStage) : World :=
  { w with bridge := { w.bridge with
      messageStates := Function.update w.bridge.messageStates messageId
        { w.bridge.messageStates messageId with stage := stage } } }

/-- The world after a message was initialized. -/
def World.initiated (w : World) (messageId : Bytes32) (targetAddress : Address) (payload : Bytes)
    (sequencerSignature : SequencerSignature) (nativeTokenAmount : UInt256)
    (initializer signer : Address) : World :=
  { w with
    bridge := storeMessage messageId
      ⟨messageId, targetAddress, .PreExecution, payload, w.timestamp, nativeTokenAmount⟩
      sequencerSignature w.bridge
    trace := w.trace ++ [.initialized messageId initializer signer] }

/-- The world in which a target call is made: the value is gone and the call is on record. -/
def World.calling (w : World) (messageId : Bytes32) : World :=
  let state := w.bridge.messageStates messageId
  { w with
    balance := w.balance - state.nativeTokenAmount
    trace := w.trace ++
      [.called (.target messageId state.targetAddress state.nativeTokenAmount state.payload)] }

theorem noted_sameBridge (w : World) (a : Action) (ha : a.targetCall? = none) :
    SameBridge w (w.noted a) :=
  ⟨quieter_record w _ a ha rfl, rfl, rfl, rfl, rfl⟩

theorem administers_same (w w' : World) (h : SameBridge w w') : Administers w w' :=
  administers_bridge w w' h.bridge h.toQuieter

/-- Where a session stands: at its pre-checks, before and after the unwrapping, at and after the
target call, and at its post-checks. A loop of checks knows how many modules it asks and which of
them have agreed. -/
inductive Point where
  | checking (payload : Bytes) (total : Nat) (agreed : List Address)
  | cleared
  | executing
  | calling
  | called
  | concluding (payload : Bytes) (total : Nat) (agreed : List Address)

/-- The modules that have agreed are the first ones of the set. -/
def Tracks (s : AddressSet) (total : Nat) (agreed : List Address) : Prop :=
  agreed <+: s.values ∧ s.length = total

theorem tracks_nil (s : AddressSet) : Tracks s s.length [] := ⟨List.nil_prefix, rfl⟩

theorem tracks_next (s : AddressSet) (total : Nat) (agreed : List Address) (module : Address)
    (h : Tracks s total agreed) (hm : s.atIndex agreed.length = some module) :
    Tracks s total (agreed ++ [module]) := by
  obtain ⟨⟨rest, split⟩, total⟩ := h
  rw [AddressSet.atIndex, ← split] at hm
  cases rest with
  | nil => simp at hm
  | cons other rest =>
    have same : other = module := by simpa using hm
    subst same
    exact ⟨⟨rest, by rw [← split]; simp⟩, total⟩

theorem tracks_all (s : AddressSet) (agreed : List Address) (h : Tracks s agreed.length agreed) :
    agreed = s.values :=
  h.1.eq_of_length h.2.symm

/-- A module that is about to be asked has not been asked before. -/
theorem fresh_tracks (s : AddressSet) (total : Nat) (agreed : List Address) (m : Address)
    (h : Tracks s total agreed) (hm : s.atIndex agreed.length = some m) : m ∉ agreed := by
  obtain ⟨⟨rest, split⟩, -⟩ := tracks_next s total agreed m h hm
  have nodup := s.nodup
  rw [← split, List.append_assoc, List.nodup_append] at nodup
  intro asked
  exact nodup.2.2 m asked m (by simp) rfl

/-- The modules before one that is about to be asked. -/
theorem takeWhile_tracks (s : AddressSet) (total : Nat) (agreed : List Address) (m : Address)
    (h : Tracks s total agreed) (hm : s.atIndex agreed.length = some m) :
    s.values.takeWhile (· ≠ m) = agreed := by
  obtain ⟨⟨rest, split⟩, -⟩ := tracks_next s total agreed m h hm
  have distinct : ∀ a ∈ agreed, decide (a ≠ m) = true := by
    intro a ha
    refine decide_eq_true ?_
    rintro rfl
    exact fresh_tracks s total agreed a h hm ha
  rw [← split, List.append_assoc, List.takeWhile_append_of_pos distinct]
  simp

/-- A change of a set of modules that leaves one module where it is, or outside. -/
def SamePlace (T : Address) (s s' : AddressSet) : Prop :=
  ∀ j, s'.atIndex j = some T ↔ s.atIndex j = some T

/-- The loop comes past the place of the module, and the module has been asked when it has. -/
structure Passing (T : Address) (s : AddressSet) (total : Nat) (agreed : List Address) : Prop where
  within : ∀ j, s.atIndex j = some T → j < total
  asked : T ∈ agreed ↔ ∃ j, s.atIndex j = some T ∧ j < agreed.length

theorem atIndex_unique (s : AddressSet) (m : Address) (j k : Nat) (hj : s.atIndex j = some m)
    (hk : s.atIndex k = some m) : j = k := by
  obtain ⟨inside, _⟩ := List.getElem?_eq_some_iff.mp hj
  exact (List.getElem?_inj inside s.nodup).mp (Eq.trans hj hk.symm)

theorem mem_iff_atIndex (s : AddressSet) (m : Address) : m ∈ s.values ↔ ∃ j, s.atIndex j = some m :=
  List.mem_iff_getElem?

theorem mem_place (T : Address) (s s' : AddressSet) (same : SamePlace T s s') :
    T ∈ s'.values ↔ T ∈ s.values := by
  rw [mem_iff_atIndex, mem_iff_atIndex]
  exact exists_congr same

theorem passing_start (T : Address) (s : AddressSet) : Passing T s s.length [] := by
  refine ⟨?_, ?_⟩
  · intro j hj
    exact (List.getElem?_eq_some_iff.mp hj).1
  · constructor
    · exact fun asked => absurd asked List.not_mem_nil
    · rintro ⟨j, _, before⟩
      exact absurd before (Nat.not_lt_zero j)

theorem passing_fresh (T : Address) (s : AddressSet) (total : Nat) (agreed : List Address)
    (h : Passing T s total agreed) (here : s.atIndex agreed.length = some T) : T ∉ agreed := by
  intro asked
  obtain ⟨j, hj, before⟩ := h.asked.mp asked
  rw [atIndex_unique s T j agreed.length hj here] at before
  exact absurd before (Nat.lt_irrefl _)

/-- The loop goes on to the next module. -/
theorem passing_next (T : Address) (s : AddressSet) (total : Nat) (agreed : List Address)
    (m : Address) (h : Passing T s total agreed) (found : s.atIndex agreed.length = some m) :
    Passing T s total (agreed ++ [m]) := by
  refine ⟨h.within, ?_⟩
  rw [List.mem_append, List.mem_singleton, List.length_append, List.length_singleton, h.asked]
  constructor
  · rintro (⟨j, hj, before⟩ | rfl)
    · exact ⟨j, hj, by omega⟩
    · exact ⟨agreed.length, found, by omega⟩
  · rintro ⟨j, hj, before⟩
    by_cases last : j = agreed.length
    · subst last
      have same : m = T := Option.some.inj (found.symm.trans hj)
      exact .inr same.symm
    · exact .inl ⟨j, hj, by omega⟩

theorem passing_place (T : Address) (s s' : AddressSet) (total : Nat) (agreed : List Address)
    (h : Passing T s total agreed) (same : SamePlace T s s') : Passing T s' total agreed := by
  refine ⟨fun j hj => h.within j ((same j).mp hj), ?_⟩
  rw [h.asked]
  constructor
  · rintro ⟨j, hj, before⟩
    exact ⟨j, (same j).mpr hj, before⟩
  · rintro ⟨j, hj, before⟩
    exact ⟨j, (same j).mp hj, before⟩

/-- At the end of the loop the module has been asked if it is in the set. -/
theorem passing_all (T : Address) (s : AddressSet) (agreed : List Address)
    (h : Passing T s agreed.length agreed) : T ∈ agreed ↔ T ∈ s.values := by
  rw [h.asked, mem_iff_atIndex]
  constructor
  · rintro ⟨j, hj, _⟩
    exact ⟨j, hj⟩
  · rintro ⟨j, hj⟩
    exact ⟨j, hj, h.within j hj⟩

theorem mem_asked (T m : Address) (other : m ≠ T) (agreed : List Address) :
    T ∈ agreed ++ [m] ↔ T ∈ agreed := by
  rw [List.mem_append, List.mem_singleton]
  exact or_iff_left fun hT => other hT.symm

/-- An initialized message keeps its payload, and waits for its handling only if it did. -/
def Keeps (w w' : World) : Prop :=
  ∀ i, w.stage i ≠ .NotStarted → w'.stage i ≠ .NotStarted ∧
    (w'.stage i = .PreExecution → w.stage i = .PreExecution) ∧
    (w'.bridge.messageStates i).payload = (w.bridge.messageStates i).payload

theorem keeps_trans (a b c : World) (h : Keeps a b) (h' : Keeps b c) : Keeps a c := by
  intro i hi
  obtain ⟨started, waiting, payload⟩ := h i hi
  obtain ⟨started', waiting', payload'⟩ := h' i started
  exact ⟨started', fun hw => waiting (waiting' hw), payload'.trans payload⟩

/-- A step that concerns no message. -/
theorem keeps_states (w w' : World) (states : w'.bridge.messageStates = w.bridge.messageStates) :
    Keeps w w' := by
  intro i hi
  have stage : w'.stage i = w.stage i := by
    rw [World.stage, states]
    rfl
  rw [stage, states]
  exact ⟨hi, fun waiting => waiting, rfl⟩

theorem stage_staged (w : World) (i : Bytes32) (stage : ProcessingStage) (j : Bytes32) :
    (w.staged i stage).stage j = if j = i then stage else w.stage j :=
  stage_setStage i w stage j

/-- A message moves on. -/
theorem keeps_staged (i : Bytes32) (stage : ProcessingStage) (w : World)
    (moved : stage ≠ .NotStarted ∧ stage ≠ .PreExecution) : Keeps w (w.staged i stage) := by
  intro j hj
  rw [stage_staged]
  by_cases same : j = i
  · subst same
    rw [if_pos rfl]
    exact ⟨moved.1, fun waiting => absurd waiting moved.2, by simp [World.staged]⟩
  · rw [if_neg same]
    exact ⟨hj, fun waiting => waiting, by simp [World.staged, same]⟩

theorem keeps_initiated (w : World) (i : Bytes32) (target : Address) (payload : Bytes)
    (signature : SequencerSignature) (amount : UInt256) (sender signer : Address)
    (new : w.stage i = .NotStarted) :
    Keeps w (w.initiated i target payload signature amount sender signer) := by
  intro j hj
  have other : j ≠ i := by
    rintro rfl
    exact hj new
  have same : (w.initiated i target payload signature amount sender signer).bridge.messageStates j =
      w.bridge.messageStates j := by
    simp [World.initiated, storeMessage, other]
  rw [World.stage, same]
  exact ⟨hj, fun waiting => waiting, rfl⟩

/-- The answers of a check that returns a boolean. -/
def returnBool (b : Bool) : ExtResult := .returned (word (if b then 1 else 0))

theorem decodeBool_returnBool (b : Bool) (data : Bytes) (h : returnBool b = .returned data)
    (accepted : decodeBool data = some true) : b = true := by
  cases h
  cases b with
  | false => exact absurd accepted (by decide)
  | true => rfl

section Rule

variable {τ κ δ : Type} (D : Deployment) (X : Companion τ κ δ) (I : World × τ → Prop)
  (G : World × τ → World × τ → Prop) (C : ExtCall → World × τ → ExtResult → World × τ → Prop)

/-- The obligations of code in a segment that started in the given store. -/
abbrev Owes {α : Type} (Q : World × τ → α → World × τ → Prop) (base : World × τ)
    (m : Resume (World × τ) ExtCall ExtResult Error α) : Prop :=
  m.Upholds (fun _ b s => I s ∧ G b s) (fun c s r s' => I s' ∧ G s s' ∧ C c s r s') Q base

/-- Everything so far was in order, and `φ` holds. -/
structure Fine (φ : World × τ → Prop) (base st : World × τ) : Prop where
  holds : I st
  grown : G base st
  here : φ st

/-- A call that is made where `φ` holds, and after which `ψ` does unless it fails. -/
def Passes (c : ExtCall) (accepted : Bytes → Prop) (φ ψ : World × τ → Prop) : Prop :=
  ∀ b st, Fine I G φ b st →
    Owes I G C (fun b' r st' => ∀ data, r = .returned data → accepted data → Fine I G ψ b' st') b
      (X.ext c st)

variable {X I G C} in
/-- A call that is passed on. -/
theorem passes_call {c : ExtCall} {accepted : Bytes → Prop}
    {φ ψ : World × τ → Prop} (restore : τ → τ → τ)
    (hx : ∀ st, X.ext c st = .call c st fun r st' => .ret r (st'.1, restore st.2 st'.2))
    (h : ∀ st data st', I st → φ st → I st' → G st st' → C c st (.returned data) st' →
      accepted data → Fine I G ψ st' (st'.1, restore st.2 st'.2)) :
    Passes X I G C c accepted φ ψ := by
  intro b st before
  rw [hx]
  refine ⟨⟨before.holds, before.grown⟩, ?_⟩
  intro r st' answered data returned ok
  rw [returned] at answered
  exact h st data st' before.holds before.here answered.1 answered.2.1 answered.2.2 ok

variable {X I G C} in
/-- A call that is answered at once. -/
theorem passes_served {c : ExtCall} {accepted : Bytes → Prop} {φ ψ : World × τ → Prop}
    (answer : World × τ → ExtResult × τ)
    (hx : ∀ st, X.ext c st = .ret (answer st).1 (st.1, (answer st).2))
    (trans : ∀ a b c, G a b → G b c → G a c)
    (h : ∀ st data, I st → φ st → (answer st).1 = .returned data → accepted data →
      Fine I G ψ st (st.1, (answer st).2)) :
    Passes X I G C c accepted φ ψ := by
  intro b st before
  rw [hx]
  intro data returned ok
  have after := h st data before.holds before.here returned ok
  exact ⟨after.holds, trans _ _ _ before.grown after.grown, after.here⟩

/-- The obligations for an invariant `I`, a guarantee `G` and assertions `φ` at the points of a
session. `C` is what answers are assumed to meet, `A` a condition on the run. -/
structure Duties (A : Machine (World × τ) ExtCall ExtResult Error (Entry ⊕ κ) →
      Event ExtResult (Entry ⊕ κ) δ → Prop)
    (φ : Bytes32 → Point → World × τ → Prop) : Prop where
  refl : ∀ st, G st st
  trans : ∀ a b c, G a b → G b c → G a c
  meets : ∀ m e, A m e → Meets (extended D X) C m e
  drift : ∀ m d, A m (.drift d) → I m.store → I (X.drift d m.store) ∧ G m.store (X.drift d m.store)
  own : ∀ m c t, A m (.enter (.inr c)) → X.own c m.store.1 m.store.2 = some t → I m.store →
    I (m.store.1, t) ∧ G m.store (m.store.1, t)
  administered : ∀ w w' t, Administers w w' → I (w, t) → I (w', t) ∧ G (w, t) (w', t)
  idle : ∀ c, Idle c → ∀ b st, I st → G b st →
    Owes I G C (fun b' _ st' => I st' ∧ G b' st') b (X.ext c st)
  initialized : ∀ w t messageId target payload signature amount sender signer, I (w, t) →
    w.stage messageId = .NotStarted → w.bridge.messageInitializers sender = true →
    messageSigner D messageId target payload signature amount = some signer →
    isKeyValid D .Sequencer signer w = .ret true w →
    let w' := w.initiated messageId target payload signature amount sender signer
    let t' := X.note (.initialized messageId sender signer) w' t
    I (w', t') ∧ G (w, t) (w', t')
  kept : ∀ i p w w' t, SameBridge w w' → φ i p (w, t) → φ i p (w', t)
  starting : ∀ i w t, I (w, t) → w.stage i = .PreExecution →
    Fine I G (φ i (.checking (w.bridge.messageStates i).payload w.bridge.preModules.length []))
      (w, t) (w, X.note (.starting i) w t)
  preCheck : ∀ i payload signature total agreed module,
    Passes X I G C (.check module i .PreExecution payload signature)
      (fun data => decodeBool data = some true)
      (fun st => st.1.bridge.preModules.atIndex agreed.length = some module ∧
        φ i (.checking payload total agreed) st)
      (φ i (.checking payload total (agreed ++ [module])))
  cleared : ∀ i payload agreed w t, I (w, t) → φ i (.checking payload agreed.length agreed) (w, t) →
    Fine I G (φ i .cleared) (w, t) (w.staged i .Executing, t)
  withdraw : ∀ i amount,
    Passes X I G C (.withdraw i amount) (fun _ => True) (φ i .cleared) (φ i .cleared)
  executing : ∀ i w t, I (w, t) → φ i .cleared (w, t) →
    Fine I G (φ i .executing) (w, t) (w, X.note (.executing i) w t)
  calling : ∀ i w t, I (w, t) → φ i .executing (w, t) →
    Fine I G (φ i .calling) (w, t) (w.calling i, t)
  target : ∀ i t v p,
    Passes X I G C (.target i t v p) (fun _ => True) (φ i .calling) (φ i .called)
  ownTarget : ∀ i w keyManager t, φ i .calling (w, t) →
    φ i .called ({ w with keyManager := keyManager }, t)
  answered : ∀ i data w t, I (w, t) → φ i .called (w, t) →
    Fine I G (φ i (.concluding (w.bridge.messageStates i).payload w.bridge.postModules.length []))
      (w, t) (w.staged i .PostExecution, X.note (.answered i (.returned data)) w t)
  postCheck : ∀ i payload signature total agreed module,
    Passes X I G C (.check module i .PostExecution payload signature)
      (fun data => decodeBool data = some true)
      (fun st => st.1.bridge.postModules.atIndex agreed.length = some module ∧
        φ i (.concluding payload total agreed) st)
      (φ i (.concluding payload total (agreed ++ [module])))
  completed : ∀ i payload agreed w t, I (w, t) →
    φ i (.concluding payload agreed.length agreed) (w, t) →
    let w' := w.staged i .Completed
    let t' := X.note (.completed i) w' t
    I (w', t') ∧ G (w, t) (w', t')

/-- The obligations of a call up to its return, with the invariant at every call that it makes. -/
abbrev Carries {α : Type} (Q : World × τ → α → World × τ → Prop) (base : World × τ)
    (m : Resume (World × τ) ExtCall ExtResult Error α) : Prop :=
  m.Upholds (fun _ _ s => I s) (fun c s r s' => I s' ∧ G s s' ∧ C c s r s') Q base

/-- Everything is in order, and `φ` holds. -/
structure Sound (φ : World × τ → Prop) (st : World × τ) : Prop where
  holds : I st
  here : φ st

/-- A call that is made where `φ` holds, and after which `ψ` does unless it fails. -/
def Survives (c : ExtCall) (accepted : Bytes → Prop) (φ ψ : World × τ → Prop) : Prop :=
  ∀ b st, Sound I φ st →
    Carries I G C (fun _ r st' => ∀ data, r = .returned data → accepted data → Sound I ψ st') b
      (X.ext c st)

variable {X I G C} in
/-- A call that is passed on. -/
theorem survives_call {c : ExtCall} {accepted : Bytes → Prop} {φ ψ : World × τ → Prop}
    (restore : τ → τ → τ)
    (hx : ∀ st, X.ext c st = .call c st fun r st' => .ret r (st'.1, restore st.2 st'.2))
    (h : ∀ st data st', I st → φ st → I st' → G st st' → C c st (.returned data) st' →
      accepted data → Sound I ψ (st'.1, restore st.2 st'.2)) :
    Survives X I G C c accepted φ ψ := by
  intro b st before
  rw [hx]
  refine ⟨before.holds, ?_⟩
  intro r st' answered data returned ok
  rw [returned] at answered
  exact h st data st' before.holds before.here answered.1 answered.2.1 answered.2.2 ok

variable {X I G C} in
/-- A call that is answered at once. -/
theorem survives_served {c : ExtCall} {accepted : Bytes → Prop} {φ ψ : World × τ → Prop}
    (answer : World × τ → ExtResult × τ)
    (hx : ∀ st, X.ext c st = .ret (answer st).1 (st.1, (answer st).2))
    (h : ∀ st data, I st → φ st → (answer st).1 = .returned data → accepted data →
      Sound I ψ (st.1, (answer st).2)) :
    Survives X I G C c accepted φ ψ := by
  intro b st before
  rw [hx]
  intro data returned ok
  exact h st data before.holds before.here returned ok

/-- The obligations where what holds in a session is said relative to the store it was entered in.
`ready` is what is known of a message when a call sets out to handle it. -/
structure Obligations (A : Machine (World × τ) ExtCall ExtResult Error (Entry ⊕ κ) →
      Event ExtResult (Entry ⊕ κ) δ → Prop)
    (ready : Bytes32 → World × τ → Prop)
    (φ : Bytes32 → Point → World × τ → World × τ → Prop) : Prop where
  refl : ∀ st, G st st
  trans : ∀ a b c, G a b → G b c → G a c
  meets : ∀ m e, A m e → Meets (extended D X) C m e
  drift : ∀ m d, A m (.drift d) → I m.store → I (X.drift d m.store) ∧ G m.store (X.drift d m.store)
  own : ∀ m c t, A m (.enter (.inr c)) → X.own c m.store.1 m.store.2 = some t → I m.store →
    I (m.store.1, t) ∧ G m.store (m.store.1, t)
  administered : ∀ w w' t, Administers w w' → I (w, t) → I (w', t) ∧ G (w, t) (w', t)
  idle : ∀ c, Idle c → ∀ b st, I st →
    Carries I G C (fun _ _ st' => I st' ∧ G st st') b (X.ext c st)
  initialized : ∀ w t messageId target payload signature amount sender signer, I (w, t) →
    w.stage messageId = .NotStarted → w.bridge.messageInitializers sender = true →
    messageSigner D messageId target payload signature amount = some signer →
    isKeyValid D .Sequencer signer w = .ret true w →
    let w' := w.initiated messageId target payload signature amount sender signer
    let t' := X.note (.initialized messageId sender signer) w' t
    I (w', t') ∧ G (w, t) (w', t')
  kept : ∀ e i p w w' t, SameBridge w w' → I (w, t) → φ i p e (w, t) → φ i p e (w', t)
  stays : ∀ i st st', G st st' → ready i st → ready i st'
  handled : ∀ m sender i, A m (.enter (.inl (.bridge sender (.handleMessage i)))) → I m.store →
    m.store.1.stage i = .PreExecution → ready i m.store
  batched : ∀ m sender is, A m (.enter (.inl (.bridge sender (.batchHandleMessage is)))) →
    I m.store → ∀ i ∈ is, ready i m.store
  arrived : ∀ m sender i t p s vs a,
    A m (.enter (.inl (.bridge sender (.initializeAndHandleMessage i t p s vs a)))) → I m.store →
    m.store.1.stage i = .NotStarted → ∀ st, G m.store st → st.1.stage i = .PreExecution →
      (st.1.bridge.messageStates i).payload = p → ready i st
  starting : ∀ i w t, I (w, t) → w.stage i = .PreExecution → ready i (w, t) →
    Sound I (φ i (.checking (w.bridge.messageStates i).payload w.bridge.preModules.length [])
      (w, t)) (w, X.note (.starting i) w t)
  preCheck : ∀ e i payload signature total agreed module,
    Survives X I G C (.check module i .PreExecution payload signature)
      (fun data => decodeBool data = some true)
      (fun st => st.1.bridge.preModules.atIndex agreed.length = some module ∧
        φ i (.checking payload total agreed) e st)
      (φ i (.checking payload total (agreed ++ [module])) e)
  cleared : ∀ e i payload agreed w t, I (w, t) →
    φ i (.checking payload agreed.length agreed) e (w, t) →
    Sound I (φ i .cleared e) (w.staged i .Executing, t)
  withdraw : ∀ e i amount,
    Survives X I G C (.withdraw i amount) (fun _ => True) (φ i .cleared e) (φ i .cleared e)
  executing : ∀ e i w t, I (w, t) → φ i .cleared e (w, t) →
    Sound I (φ i .executing e) (w, X.note (.executing i) w t)
  calling : ∀ e i w t, I (w, t) → φ i .executing e (w, t) →
    Sound I (φ i .calling e) (w.calling i, t)
  target : ∀ e i t v p,
    Survives X I G C (.target i t v p) (fun _ => True) (φ i .calling e) (φ i .called e)
  ownTarget : ∀ e i w keyManager t, I (w, t) → φ i .calling e (w, t) →
    φ i .called e ({ w with keyManager := keyManager }, t)
  answered : ∀ e i data w t, I (w, t) → φ i .called e (w, t) →
    Sound I (φ i (.concluding (w.bridge.messageStates i).payload w.bridge.postModules.length []) e)
      (w.staged i .PostExecution, X.note (.answered i (.returned data)) w t)
  postCheck : ∀ e i payload signature total agreed module,
    Survives X I G C (.check module i .PostExecution payload signature)
      (fun data => decodeBool data = some true)
      (fun st => st.1.bridge.postModules.atIndex agreed.length = some module ∧
        φ i (.concluding payload total agreed) e st)
      (φ i (.concluding payload total (agreed ++ [module])) e)
  completed : ∀ e i payload agreed w t, I (w, t) →
    φ i (.concluding payload agreed.length agreed) e (w, t) →
    let w' := w.staged i .Completed
    let t' := X.note (.completed i) w' t
    I (w', t') ∧ G e (w', t')

variable {D X I G C} {A : Machine (World × τ) ExtCall ExtResult Error (Entry ⊕ κ) →
  Event ExtResult (Entry ⊕ κ) δ → Prop}

theorem survives_mono {c : ExtCall} {accepted : Bytes → Prop} {φ φ' ψ : World × τ → Prop}
    (hφ : ∀ st, φ' st → φ st) (h : Survives X I G C c accepted φ ψ) :
    Survives X I G C c accepted φ' ψ := by
  intro b st before
  exact h b st ⟨before.holds, hφ st before.here⟩

/-- What is shown step by step. -/
theorem duties_obligations {φ : Bytes32 → Point → World × τ → Prop} (R : Duties D X I G C A φ) :
    Obligations D X I G C A (fun _ _ => True) fun i p e st => G e st ∧ φ i p st := by
  have survives {c : ExtCall} {accepted : Bytes → Prop} {φ ψ : World × τ → Prop} (e : World × τ)
      (h : Passes X I G C c accepted φ ψ) :
      Survives X I G C c accepted (fun st => G e st ∧ φ st) (fun st => G e st ∧ ψ st) := by
    intro b st before
    have passed := h st st ⟨before.holds, R.refl st, before.here.2⟩
    -- the guarantee of every step also holds from the entry on
    have shown (m : Resume (World × τ) ExtCall ExtResult Error ExtResult) (base : World × τ)
        (start : G e base)
        (owes : Owes I G C (fun b' r st' => ∀ data, r = .returned data → accepted data →
          Fine I G ψ b' st') base m) :
        Carries I G C (fun _ r st' => ∀ data, r = .returned data → accepted data →
          Sound I (fun st => G e st ∧ ψ st) st') base m := by
      induction m generalizing base with
      | ret r st' =>
        intro data returned ok
        have after := owes data returned ok
        exact ⟨after.holds, R.trans _ _ _ start after.grown, after.here⟩
      | revert why => trivial
      | call c st' k ih =>
        obtain ⟨atCall, later⟩ := owes
        refine ⟨atCall.1, fun r st'' answered => ih r st'' st'' ?_ (later r st'' answered)⟩
        exact R.trans _ _ _ (R.trans _ _ _ start atCall.2) answered.2.1
    exact upholds_rebase b st (fun _ _ h => h) (fun _ _ h => h) _
      (shown _ st before.here.1 passed)
  have sound {ψ : World × τ → Prop} (e st st' : World × τ) (h : Fine I G ψ st st')
      (start : G e st) :
      Sound I (fun st => G e st ∧ ψ st) st' :=
    ⟨h.holds, R.trans _ _ _ start h.grown, h.here⟩
  exact {
    refl := R.refl
    trans := R.trans
    meets := R.meets
    drift := R.drift
    own := R.own
    administered := R.administered
    idle := by
      intro c hc b st holds
      have owes := upholds_persists (G st) (fun s s' before moved => R.trans _ _ _ before moved)
        (fun _ _ _ after => after.2) st _ (R.idle c hc st st holds (R.refl st)) (R.refl st)
      refine upholds_rebase b st (fun _ _ h => h) (fun _ _ h => h) _
        (upholds_weaken ?_ ?_ st _ owes)
      · exact fun _ _ _ before => before.1
      · exact fun _ _ _ after => ⟨after.1.1, after.2⟩
    initialized := R.initialized
    kept := by
      intro e i p w w' t same holds known
      have moved := R.administered w w' t (administers_same w w' same) holds
      exact ⟨R.trans _ _ _ known.1 moved.2, R.kept i p w w' t same known.2⟩
    stays := fun _ _ _ _ h => h
    handled := fun _ _ _ _ _ _ => trivial
    batched := fun _ _ _ _ _ _ _ => trivial
    arrived := fun _ _ _ _ _ _ _ _ _ _ _ _ _ _ _ => trivial
    starting := fun i w t holds stage _ => sound _ _ _ (R.starting i w t holds stage) (R.refl _)
    preCheck := fun e i payload signature total agreed module =>
      survives_mono (fun _ here => ⟨here.2.1, here.1, here.2.2⟩)
        (survives e (R.preCheck i payload signature total agreed module))
    cleared := fun e i payload agreed w t holds known =>
      sound e _ _ (R.cleared i payload agreed w t holds known.2) known.1
    withdraw := fun e i amount => survives e (R.withdraw i amount)
    executing := fun e i w t holds known => sound e _ _ (R.executing i w t holds known.2) known.1
    calling := fun e i w t holds known => sound e _ _ (R.calling i w t holds known.2) known.1
    target := fun e i t v p => survives e (R.target i t v p)
    ownTarget := by
      intro e i w keyManager t holds known
      have moved := R.administered w { w with keyManager := keyManager } t
        (administers_bridge _ _ rfl (quieter_trace _ _ rfl)) holds
      exact ⟨R.trans _ _ _ known.1 moved.2, R.ownTarget i w keyManager t known.2⟩
    answered := fun e i data w t holds known =>
      sound e _ _ (R.answered i data w t holds known.2) known.1
    postCheck := fun e i payload signature total agreed module =>
      survives_mono (fun _ here => ⟨here.2.1, here.1, here.2.2⟩)
        (survives e (R.postCheck i payload signature total agreed module))
    completed := by
      intro e i payload agreed w t holds known
      obtain ⟨after, moved⟩ := R.completed i payload agreed w t holds known.2
      exact ⟨after, R.trans _ _ _ known.1 moved⟩ }

section Steps

variable {ready : Bytes32 → World × τ → Prop} {φ : Bytes32 → Point → World × τ → World × τ → Prop}
  (R : Obligations D X I G C A ready φ)
include R

theorem sound_same {ψ ψ' : World × τ → Prop} (w w' : World) (t : τ) (same : SameBridge w w')
    (h : Sound I ψ (w, t)) (hψ : ψ (w, t) → ψ' (w', t)) : Sound I ψ' (w', t) :=
  ⟨(R.administered w w' t (administers_same w w' same) h.holds).1, hψ h.here⟩

omit R in
theorem interpret_issue
    (ext : ExtCall → Resumption.Code (World × τ) ExtCall ExtResult Error ExtResult)
    (c : ExtCall) (w : World) (t : τ) :
    (issue c).interpret ext (w, t) =
      (ext c (w.noted (.called c), t)).bind fun r st =>
        match r with
        | .reverted data => .revert (.CallReverted data)
        | .returned data => .ret data (st.1.noted (.returned c), st.2) := by
  have continued : (fun (r : ExtResult) (st : World × τ) =>
      ((match r with
        | .reverted data => Code.revert (.CallReverted data)
        | .returned data => do
            record (.returned c)
            return data : M Bytes) st.1).interpret ext st.2) =
      fun (r : ExtResult) st => match r with
        | .reverted data => .revert (.CallReverted data)
        | .returned data => .ret data (st.1.noted (.returned c), st.2) := by
    funext r st
    cases r with
    | reverted data => rfl
    | returned data => rfl
  rw [← continued]
  rfl

/-- A high-level call, with its records. -/
theorem issue_owes {ψ ψ' : World × τ → Prop} {accepted : Bytes → Prop} (c : ExtCall)
    (hc : (Action.called c).targetCall? = none)
    (survives : Survives X I G C c accepted ψ ψ')
    (kept : ∀ w w' t, SameBridge w w' → I (w, t) → ψ (w, t) → ψ (w', t))
    (kept' : ∀ w w' t, SameBridge w w' → I (w, t) → ψ' (w, t) → ψ' (w', t)) (b : World × τ)
    (w : World) (t : τ) (h : Sound I ψ (w, t)) :
    Carries I G C (fun _ data st' => accepted data → Sound I ψ' st') b
      ((issue c).interpret X.ext (w, t)) := by
  rw [interpret_issue]
  have called := sound_same R w _ t (noted_sameBridge w (.called c) hc) h
    (kept w _ t (noted_sameBridge w _ hc) h.holds)
  refine upholds_seq _ b _ _ (survives b _ called) ?_
  intro b' r st' answered
  cases r with
  | reverted data => trivial
  | returned data =>
    intro ok
    have after := answered data rfl ok
    exact sound_same R st'.1 _ st'.2 (noted_sameBridge _ (.returned c) rfl) after
      (kept' _ _ _ (noted_sameBridge _ _ rfl) after.holds)

/-- One pass of a module loop. -/
theorem checkModule_owes (modules : BridgeState → AddressSet) (stage : ProcessingStage)
    (payload : Bytes) (signature : SequencerSignature) (id : Bytes32)
    (ψ : List Address → World × τ → Prop)
    (kept : ∀ agreed w w' t, SameBridge w w' → I (w, t) → ψ agreed (w, t) → ψ agreed (w', t))
    (agreed : List Address)
    (check : ∀ module, Survives X I G C (.check module id stage payload signature)
      (fun data => decodeBool data = some true)
      (fun st => (modules st.1.bridge).atIndex agreed.length = some module ∧ ψ agreed st)
      (ψ (agreed ++ [module])))
    (b : World × τ) (w : World) (t : τ) (h : Sound I (ψ agreed) (w, t)) :
    Carries I G C (fun _ _ st' => ∃ module, Sound I (ψ (agreed ++ [module])) st') b
      ((_checkModule id modules stage payload signature agreed.length).interpret X.ext (w, t)) := by
  rw [_checkModule, interpret_get]
  cases found : (modules w.bridge).atIndex agreed.length with
  | none => trivial
  | some module =>
    simp only
    rw [interpret_bind]
    refine upholds_seq _ b _ _ (issue_owes R _ rfl (check module) ?_ (kept _) b w t
      ⟨h.holds, found, h.here⟩) ?_
    · intro w₁ w₂ t₁ same holds before
      exact ⟨by rw [same.bridge]; exact before.1, kept agreed w₁ w₂ t₁ same holds before.2⟩
    · intro b' data st' accepted
      cases hd : decodeBool data with
      | none => trivial
      | some ok =>
        rw [interpret_require]
        refine upholds_require b' st' ok _ ?_
        intro hok
        rw [hok] at hd
        exact ⟨module, accepted hd⟩

theorem validateModules_owes (modules : BridgeState → AddressSet) (stage : ProcessingStage)
    (payload : Bytes) (signature : SequencerSignature) (id : Bytes32)
    (ψ : Nat → List Address → World × τ → Prop)
    (kept : ∀ total agreed w w' t, SameBridge w w' → I (w, t) → ψ total agreed (w, t) →
      ψ total agreed (w', t))
    (check : ∀ total agreed module, Survives X I G C (.check module id stage payload signature)
      (fun data => decodeBool data = some true)
      (fun st => (modules st.1.bridge).atIndex agreed.length = some module ∧ ψ total agreed st)
      (ψ total (agreed ++ [module])))
    (b : World × τ) (w : World) (t : τ) (h : Sound I (ψ (modules w.bridge).length []) (w, t)) :
    Carries I G C (fun _ _ st' => ∃ agreed, Sound I (ψ agreed.length agreed) st') b
      ((_validateModules id modules stage payload signature).interpret X.ext (w, t)) := by
  rw [_validateModules, interpret_get, interpret_each]
  have loop := upholds_each
    (P := fun _ _ s => I s) (R := fun c s r s' => I s' ∧ G s s' ∧ C c s r s')
    (Q := fun (done : List Nat) _ st' => ∃ agreed, agreed.length = done.length ∧
      Sound I (ψ (modules w.bridge).length agreed) st')
    (fun i => (_checkModule id modules stage payload signature i).interpret X.ext)
    (List.range (modules w.bridge).length) ?_ b (w, t) ⟨[], rfl, h⟩
  · refine upholds_mono ?_ b _ loop
    intro b' _ st' after
    obtain ⟨agreed, len, sound⟩ := after
    rw [List.length_range] at len
    exact ⟨agreed, by rw [len]; exact sound⟩
  · intro done i rest split b' st' before
    obtain ⟨agreed, len, sound⟩ := before
    have index : i = agreed.length := by
      have short : done.length < (modules w.bridge).length := by
        have total := congrArg List.length split
        simp only [List.length_append, List.length_cons, List.length_range] at total
        omega
      have found : (done ++ i :: rest)[done.length]? = some i := by simp
      rw [split, List.getElem?_range short] at found
      rw [len]
      exact (Option.some.inj found).symm
    rw [index]
    refine upholds_mono ?_ b' _ (checkModule_owes R modules stage payload signature id
      (ψ (modules w.bridge).length) (kept _) agreed (check _ agreed) b' st'.1 st'.2 sound)
    intro b'' _ st'' next
    obtain ⟨module, sound⟩ := next
    exact ⟨agreed ++ [module], by simp [len], sound⟩

omit R in
theorem interpret_setStage
    (ext : ExtCall → Resumption.Code (World × τ) ExtCall ExtResult Error ExtResult) (i : Bytes32)
    (stage : ProcessingStage) (st : World × τ) :
    (setStage i stage).interpret ext st = .ret () (st.1.staged i stage, st.2) := rfl

theorem unwrap_owes (e : World × τ) (i : Bytes32) (b : World × τ) (w : World) (t : τ)
    (h : Sound I (φ i .cleared e) (w, t)) :
    Carries I G C (fun _ _ st' => Sound I (φ i .cleared e) st') b
      ((_unwrap D i).interpret X.ext (w, t)) := by
  rw [_unwrap, interpret_get]
  by_cases positive : 0 < (w.bridge.messageStates i).nativeTokenAmount
  · cases hb : w.views.balanceOf D.bridge with
    | none =>
      simp only [if_pos positive]
      trivial
    | some available =>
      simp only [if_pos positive]
      rw [interpret_bind, interpret_require]
      refine upholds_bind b _ _ (upholds_require b (w, t) _ _ fun _ => ?_)
      rw [interpret_bind]
      refine upholds_seq _ b _ _
        (issue_owes R _ rfl (R.withdraw e i _) (R.kept e i _) (R.kept e i _) b w t h) ?_
      intro b' data st' after
      exact after trivial
  · simp only [if_neg positive]
    exact h

theorem prepare_owes (e : World × τ) (i : Bytes32) (b : World × τ) (w : World) (t : τ)
    (h : w.stage i = .PreExecution →
      Sound I (φ i (.checking (w.bridge.messageStates i).payload w.bridge.preModules.length []) e)
        (w, t)) :
    Carries I G C (fun _ _ st' => Sound I (φ i .cleared e) st') b
      ((prepare D i).interpret X.ext (w, t)) := by
  have required {β : Type} {Q : World × τ → β → World × τ → Prop} (c : Bool) (why : Error) (m : M β)
      (hm : c = true → Carries I G C Q b (m.interpret X.ext (w, t))) :
      Carries I G C Q b ((Code.require c why >>= fun _ => m).interpret X.ext (w, t)) := by
    rw [interpret_bind, interpret_require]
    refine upholds_bind b _ _ (upholds_require b (w, t) c why ?_)
    intro hc
    exact hm hc
  rw [prepare, interpret_get]
  refine required _ _ _ fun _ => required _ _ _ fun _ => required _ _ _ fun hstage => ?_
  have started := h (of_decide_eq_true hstage)
  rw [interpret_bind, _validatePreModules, interpret_bind, interpret_require]
  refine upholds_seq _ b _ _ (upholds_bind b _ _ (upholds_require b (w, t) _ _ fun _ =>
    validateModules_owes R BridgeState.preModules .PreExecution _ _ i
      (fun total agreed => φ i (.checking (w.bridge.messageStates i).payload total agreed) e)
      (fun total agreed => R.kept e i _) (R.preCheck e i _ _) b w t started)) ?_
  intro b₁ _ st₁ checked
  obtain ⟨agreed, checked⟩ := checked
  have cleared := R.cleared e i _ agreed st₁.1 st₁.2 checked.holds checked.here
  rw [interpret_bind, bind_apply, interpret_setStage, bind_ret, interpret_bind]
  exact upholds_seq _ b₁ _ _ (unwrap_owes R e i b₁ _ _ cleared) fun _ _ _ after => after

/-- The payload run against the deployed key manager. -/
theorem ownTarget_owes (e : World × τ) (i : Bytes32) (value : UInt256) (payload : Bytes)
    (b : World × τ) (w : World) (t : τ) (h : Sound I (φ i .calling e) (w, t)) :
    Carries I G C (fun _ r st' => ∀ data, r = .returned data → Sound I (φ i .called e) st') b
      ((callOwnKeyManager D value payload).interpret X.ext (w, t)) := by
  have failing (data data' : Bytes) (h : ExtResult.reverted data = .returned data') : False := by
    cases h
  rw [callOwnKeyManager, interpret_get]
  cases D.decodeKeyManager payload with
  | none => exact fun data h => (failing _ _ h).elim
  | some c =>
    by_cases paid : value = 0
    · simp only [ne_eq, paid, not_true_eq_false, if_false]
      cases TeeKeyManager.dispatch D.crypto D.keyManagerConfig (keyManagerContext D.bridge w)
          w.keyManager c with
      | error why => exact fun data h => (failing _ _ h).elim
      | ok result =>
        intro data returned
        obtain ⟨holds, _⟩ := R.administered w { w with keyManager := result.2 } t
          (administers_bridge _ _ rfl (quieter_trace _ _ rfl)) h.holds
        exact ⟨holds, R.ownTarget e i w result.2 t h.holds h.here⟩
    · simp only [ne_eq, paid, not_false_eq_true, if_true]
      exact fun data h => (failing _ _ h).elim

/-- The target call. A revert of the target is not looked at here. -/
theorem callTarget_owes (e : World × τ) (i : Bytes32) (b : World × τ) (w : World) (t : τ)
    (h : Sound I (φ i .executing e) (w, t)) :
    Carries I G C (fun _ r st' => ∀ data, r = .returned data → Sound I (φ i .called e) st') b
      ((callTarget D i).interpret X.ext (w, t)) := by
  rw [callTarget, interpret_get]
  by_cases short : w.balance < (w.bridge.messageStates i).nativeTokenAmount
  · simp only [if_pos short]
    intro data failed
    cases failed
  · simp only [if_neg short]
    rw [interpret_bind, interpret_modify, interpret_bind]
    have calling := R.calling e i w t h.holds h.here
    by_cases own : (w.bridge.messageStates i).targetAddress = D.keyManager
    · simp only [if_pos own]
      exact ownTarget_owes R e i _ _ b _ t calling
    · simp only [if_neg own]
      rw [interpret_external]
      refine upholds_mono ?_ b _ (R.target e i _ _ _ b _ calling)
      intro b' r st' answered data returned
      exact answered data returned trivial

theorem finish_owes (e : World × τ) (i : Bytes32) (signature : SequencerSignature) (data : Bytes)
    (b : World × τ) (w : World) (t : τ)
    (h : Sound I
      (φ i (.concluding (w.bridge.messageStates i).payload w.bridge.postModules.length []) e)
      (w.staged i .PostExecution, t)) :
    Carries I G C (fun _ _ st' => ∃ w₁ payload agreed, st'.1 = w₁.staged i .Completed ∧
        Sound I (φ i (.concluding payload agreed.length agreed) e) (w₁, st'.2)) b
      ((finish i signature (.returned data)).interpret X.ext (w, t)) := by
  have payload : ((w.staged i .PostExecution).bridge.messageStates i).payload =
      (w.bridge.messageStates i).payload := by
    simp [World.staged]
  rw [finish, interpret_bind, bind_apply, interpret_setStage, bind_ret, interpret_get, payload,
    interpret_bind, _validatePostModules, interpret_bind, interpret_require]
  refine upholds_seq _ b _ _ (upholds_bind b _ _ (upholds_require b _ _ _ fun _ =>
    validateModules_owes R BridgeState.postModules .PostExecution _ _ i
      (fun total agreed => φ i (.concluding (w.bridge.messageStates i).payload total agreed) e)
      (fun total agreed => R.kept e i _) (R.postCheck e i _ _) b _ t h)) ?_
  intro b₁ _ st₁ checked
  obtain ⟨agreed, checked⟩ := checked
  rw [interpret_setStage]
  exact ⟨st₁.1, (w.bridge.messageStates i).payload, agreed, rfl, checked.holds, checked.here⟩

/-- The whole session. -/
theorem handleWith_owes (i : Bytes32) (b st : World × τ) (h : I st)
    (hr : st.1.stage i = .PreExecution → ready i st) :
    Carries I G C (fun _ _ st' => I st' ∧ G st st' ∧ st'.1.stage i = .Completed) b
      (handleWith D X i st) := by
  have mark {α : Type} (moment : Moment) (f : X.Code α) (st : World × τ) :
      (X.mark moment >>= fun _ => f) st = f (st.1, X.note moment st.1 st.2) := rfl
  rw [handleWith, mark, bind_apply]
  refine upholds_seq _ b _ _ (prepare_owes R st i b st.1 _ ?_) ?_
  · intro hstage
    exact R.starting i st.1 st.2 h hstage (hr hstage)
  intro b₁ signature st₁ cleared
  rw [mark, bind_apply]
  have executing := R.executing st i st₁.1 st₁.2 cleared.holds cleared.here
  refine upholds_seq _ b₁ _ _ (callTarget_owes R st i b₁ st₁.1 _ executing) ?_
  intro b₂ r st₂ called
  rw [mark, bind_apply]
  cases r with
  | reverted data => trivial
  | returned data =>
    have after := called data rfl
    have answered := R.answered st i data st₂.1 st₂.2 after.holds after.here
    refine upholds_seq _ b₂ _ _ (finish_owes R st i signature data b₂ st₂.1 _ answered) ?_
    intro b₃ _ st₃ finished
    obtain ⟨w₁, payload, agreed, last, concluded⟩ := finished
    have completed := R.completed st i payload agreed w₁ st₃.2 concluded.holds concluded.here
    rw [← last] at completed
    refine ⟨completed.1, completed.2, ?_⟩
    change st₃.1.stage i = .Completed
    rw [last, World.staged, stage_setStage, if_pos rfl]

/-- The session as a part of a call that was entered earlier. -/
theorem handleWith_keeps (e : World × τ) (i : Bytes32) (b st : World × τ) (h : I st ∧ G e st)
    (hr : st.1.stage i = .PreExecution → ready i st) :
    Carries I G C (fun _ _ st' => I st' ∧ G e st') b (handleWith D X i st) := by
  refine upholds_mono ?_ b _ (handleWith_owes R i b st h.1 hr)
  intro b' _ st' after
  exact ⟨after.1, R.trans _ _ _ h.2 after.2.1⟩

theorem quiet_owes {α : Type} {m : M α} (hm : Quiet Idle Administers m) (e b st : World × τ)
    (h : I st ∧ G e st) :
    Carries I G C (fun _ _ st' => I st' ∧ G e st') b (m.interpret X.ext st) := by
  have moved (w w' : World) (t : τ) (held : I (w, t) ∧ G e (w, t)) (h : Administers w w') :
      I (w', t) ∧ G e (w', t) := by
    obtain ⟨holds, grown⟩ := R.administered w w' t h held.1
    exact ⟨holds, R.trans _ _ _ held.2 grown⟩
  refine interpret_upholds administers_refl hm X.ext (fun _ st => I st ∧ G e st) ?_ ?_ b st h
  · intro base w w' t held h
    exact moved w w' t held h
  · intro c hc base st held
    refine upholds_mono ?_ base _ (R.idle c hc base st held.1)
    intro b' r st' after
    exact ⟨after.1, R.trans _ _ _ held.2 after.2⟩

omit R in
/-- The question is answered or refused, and nothing changes. -/
theorem isKeyValid_outcome (D : Deployment) (keyType : KeyType) (publicKey : Address) (w : World) :
    (∃ ok, isKeyValid D keyType publicKey w = .ret ok w) ∨
      ∃ why, isKeyValid D keyType publicKey w = .revert why := by
  simp only [isKeyValid, bind_apply, get_apply, bind_ret]
  split
  · cases TeeKeyManager.isKeyValid w.timestamp w.keyManager keyType publicKey with
    | ok b => exact .inl ⟨b, rfl⟩
    | error e => exact .inr ⟨_, rfl⟩
  · cases w.views.isKeyValid w.bridge.teeKeyManager keyType publicKey with
    | some b => exact .inl ⟨b, rfl⟩
    | none => exact .inr ⟨_, rfl⟩

theorem initializeWith_owes (sender : Address) (i : Bytes32) (target : Address) (payload : Bytes)
    (signature : SequencerSignature) (amount : UInt256) (e b : World × τ) (w : World) (t : τ)
    (authorized : w.bridge.messageInitializers sender = true) (h : I (w, t) ∧ G e (w, t)) :
    Carries I G C (fun _ _ st' => (I st' ∧ G e st') ∧
        st'.1.bridge.messageInitializers = w.bridge.messageInitializers ∧
        w.stage i = .NotStarted ∧
        st'.1.stage i = .PreExecution ∧ (st'.1.bridge.messageStates i).payload = payload) b
      (initializeWith D X sender i target payload signature amount (w, t)) := by
  rw [initializeWith, bind_apply, _initializeMessage, interpret_get, interpret_bind,
    interpret_require]
  refine upholds_bind b _ _ (upholds_bind b _ _ (upholds_require b (w, t) _ _ fun fresh => ?_))
  have new : w.stage i = .NotStarted := by
    simp only [isMessageInitialized, Bool.not_eq_true', decide_eq_false_iff_not] at fresh
    exact not_not.mp fresh
  simp only
  rw [interpret_bind, recover]
  cases hs : D.crypto.recover (toEthSignedMessageHash D.crypto
      (messageHash D.crypto i target payload amount)) signature.signature with
  | none => trivial
  | some signer =>
    have signed : messageSigner D i target payload signature amount = some signer := hs
    rw [signed, interpret_pure, code_pure_bind, interpret_bind, bind_apply]
    rcases isKeyValid_outcome D .Sequencer signer w with ⟨ok, answer⟩ | ⟨why, refused⟩
    · rw [Code.interpret, answer, Resume.interpret, bind_ret, interpret_bind, interpret_require]
      refine upholds_bind b _ _ (upholds_require b (w, t) _ _ fun hok => ?_)
      rw [hok] at answer
      obtain ⟨holds, grown⟩ := R.initialized w t i target payload signature amount sender signer
        h.1 new authorized signed answer
      refine ⟨⟨holds, R.trans _ _ _ h.2 grown⟩, rfl, new, ?_⟩
      constructor
      · simp [World.stage, storeMessage]
      · simp [storeMessage]
    · rw [Code.interpret, refused]
      trivial

/-- Signing concerns no message but for its signatures. -/
theorem signing_owes (i : Bytes32) (payload : Bytes) (vs : List Bytes) (e b st : World × τ)
    (h : (I st ∧ G e st) ∧ st.1.stage i = .PreExecution ∧
      (st.1.bridge.messageStates i).payload = payload) :
    Carries I G C (fun _ _ st' => (I st' ∧ G e st') ∧ st'.1.stage i = .PreExecution ∧
        (st'.1.bridge.messageStates i).payload = payload) b
      ((Code.each (signMessageWithSignature D i) vs).interpret X.ext st) := by
  have signing : Quiet (fun _ => False) Administers (Code.each (signMessageWithSignature D i) vs) :=
    steady_each _ _ fun v _ => steady_bind (recover_quiet _ _ _) fun _ =>
      administers_accept D i _
  refine interpret_upholds administers_refl signing X.ext (fun _ st => (I st ∧ G e st) ∧
    st.1.stage i = .PreExecution ∧ (st.1.bridge.messageStates i).payload = payload) ?_ ?_ b st h
  · intro base w w' t held moved
    obtain ⟨holds, grown⟩ := R.administered w w' t moved held.1.1
    refine ⟨⟨holds, R.trans _ _ _ held.1.2 grown⟩, ?_, ?_⟩
    · rw [World.stage, moved.states]
      exact held.2.1
    · rw [moved.states]
      exact held.2.2
  · exact fun c hc => hc.elim

/-- Every external function of the bridge does its duty. -/
theorem bridgeWith_owes (sender : Address) (c : BridgeCall) (st : World × τ) (h : I st)
    (handled : ∀ i, c = .handleMessage i → st.1.stage i = .PreExecution → ready i st)
    (batched : ∀ is, c = .batchHandleMessage is → ∀ i ∈ is, ready i st)
    (arrived : ∀ i t p s vs a, c = .initializeAndHandleMessage i t p s vs a →
      st.1.stage i = .NotStarted → ∀ st', G st st' →
      st'.1.stage i = .PreExecution → (st'.1.bridge.messageStates i).payload = p → ready i st') :
    Dutiful I G C st st (bridgeWith D X sender c st) := by
  have entered : I st ∧ G st st := ⟨h, R.refl st⟩
  have authorized {Q : World × τ → Unit → World × τ → Prop}
      (hq : st.1.bridge.messageInitializers sender = true → Q st () st) :
      Carries I G C Q st ((onlyMessageInitializer sender).interpret X.ext st) := by
    rw [onlyMessageInitializer, interpret_get, interpret_require]
    exact upholds_require st st _ _ hq
  have administered (hc : c.processes = false) :
      Dutiful I G C st st ((bridgeCode D sender c).interpret X.ext st) :=
    quiet_owes R (administers_bridgeCode D sender c hc) st st st entered
  cases c with
  | initializeMessage i t p s a =>
    refine upholds_bind st _ _ (authorized fun ok => ?_)
    refine upholds_mono ?_ st _ (initializeWith_owes R sender i t p s a st st st.1 st.2 ok entered)
    exact fun b _ s hs => hs.1
  | handleMessage i => exact handleWith_keeps R st i st st entered (handled i rfl)
  | initializeAndHandleMessage i t p s vs a =>
    refine upholds_bind st _ _ (authorized fun ok => ?_)
    refine upholds_seq _ st _ _
      (initializeWith_owes R sender i t p s a st st st.1 st.2 ok entered) ?_
    intro b₁ _ st₁ initialized
    refine upholds_seq _ b₁ _ _ (signing_owes R i p vs st b₁ st₁
      ⟨initialized.1, initialized.2.2.2⟩) ?_
    intro b₂ _ st₂ signed
    exact handleWith_keeps R st i b₂ st₂ signed.1 fun _ =>
      arrived i t p s vs a rfl initialized.2.2.1 st₂ signed.1.2 signed.2.1 signed.2.2
  | batchInitializeMessage is ts ps ss as =>
    refine upholds_bind st _ _ (authorized fun ok => ?_)
    refine upholds_bind st _ _ (upholds_require st st _ _ fun _ => ?_)
    refine upholds_mono ?_ st _ (upholds_each
      (Q := fun _ _ st' => (I st' ∧ G st st') ∧ st'.1.bridge.messageInitializers sender = true)
      _ _ ?_ st st ⟨entered, ok⟩)
    · exact fun b _ s hs => hs.1
    · intro done x rest _ b st' before
      refine upholds_mono ?_ b _ (initializeWith_owes R sender x.1 x.2.1 x.2.2.1 x.2.2.2.1 x.2.2.2.2
        st b st'.1 st'.2 before.2 before.1)
      intro b' _ s after
      exact ⟨after.1, by rw [after.2.1]; exact before.2⟩
  | batchHandleMessage is =>
    refine upholds_each (Q := fun _ _ st' => I st' ∧ G st st') _ _ ?_ st st entered
    intro done i rest split b st' before
    have listed : i ∈ is := by
      rw [← split]
      simp
    exact handleWith_keeps R st i b st' before fun _ =>
      R.stays i st st' before.2 (batched is rfl i listed)
  | _ => exact administered rfl

/-- The rule: the invariant holds in every run beside the companion that meets the condition. -/
theorem extended_guarantees : Guarantees (extended D X) I G C A where
  refl := R.refl
  trans := R.trans
  drift := R.drift
  meets := R.meets
  code := by
    intro m o _ entered holds
    cases o with
    | inl o =>
      cases o with
      | bridge sender c =>
        refine bridgeWith_owes R sender c m.store holds ?_ ?_ ?_
        · intro i same
          subst same
          exact R.handled m sender i entered holds
        · intro is same
          subst same
          exact R.batched m sender is entered holds
        · intro i t p s vs a same
          subst same
          exact R.arrived m sender i t p s vs a entered holds
      | keyManager sender c =>
        refine quiet_owes R ?_ m.store m.store m.store ⟨holds, R.refl _⟩
        exact steady_bind (administers_runKeyManager D sender c) fun _ => steady_pure _
    | inr c =>
      change Dutiful I G C m.store m.store (X.run c m.store)
      rw [Companion.run]
      cases hc : X.own c m.store.1 m.store.2 with
      | none => trivial
      | some t => exact R.own m c t entered hc holds

end Steps

end Rule

end SyndDB.Contracts
