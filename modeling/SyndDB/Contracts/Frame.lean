import SyndDB.Contracts.Bridge

namespace SyndDB.Contracts

open Octets Resumption

/-- The action is the target call of the given message. -/
def Action.executes (messageId : Bytes32) : Action → Bool
  | .called (.target i _ _ _) => i = messageId
  | _ => false

/-- How often the target call of a message has been made. -/
def World.executions (w : World) (messageId : Bytes32) : Nat :=
  w.trace.countP (Action.executes messageId)

/-- The content of a target call. -/
def Action.targetCall? : Action → Option (Bytes32 × Address × UInt256 × Bytes)
  | .called (.target i t v p) => some (i, t, v, p)
  | _ => none

/-- The target calls that were made, in order. -/
def World.targetCalls (w : World) : List (Bytes32 × Address × UInt256 × Bytes) :=
  w.trace.filterMap Action.targetCall?

/-- Nothing about any message has changed. -/
structure SameMessages (w w' : World) : Prop where
  states : w'.bridge.messageStates = w.bridge.messageStates
  signatures : w'.bridge.sequencerSignatures = w.bridge.sequencerSignatures
  calls : w'.targetCalls = w.targetCalls

/-- Nothing about any message or any key has changed. -/
structure Untouched (w w' : World) : Prop extends SameMessages w w' where
  keys : w'.keyManager = w.keyManager

theorem executes_iff (messageId : Bytes32) (a : Action) :
    a.executes messageId = a.targetCall?.any fun c => c.1 = messageId := by
  cases a with
  | called c => cases c <;> rfl
  | _ => rfl

/-- Executions are target calls. -/
theorem executions_eq (w : World) (messageId : Bytes32) :
    w.executions messageId = w.targetCalls.countP fun c => c.1 = messageId := by
  rw [World.executions, World.targetCalls, List.countP_filterMap]
  refine List.countP_congr fun a _ => ?_
  rw [executes_iff]
  cases a.targetCall? <;> simp

theorem SameMessages.executions {w w' : World} (h : SameMessages w w') (messageId : Bytes32) :
    w'.executions messageId = w.executions messageId := by
  rw [executions_eq, h.calls, executions_eq]

theorem sameMessages_refl (w : World) : SameMessages w w := ⟨rfl, rfl, rfl⟩

theorem sameMessages_trans (a b c : World) (h : SameMessages a b) (h' : SameMessages b c) :
    SameMessages a c :=
  ⟨h'.states.trans h.states, h'.signatures.trans h.signatures, h'.calls.trans h.calls⟩

theorem untouched_refl (w : World) : Untouched w w := ⟨sameMessages_refl w, rfl⟩

theorem untouched_trans (a b c : World) (h : Untouched a b) (h' : Untouched b c) :
    Untouched a c :=
  ⟨sameMessages_trans a b c h.1 h'.1, h'.keys.trans h.keys⟩

/-- The calls that are not made on behalf of a message. -/
def Idle : ExtCall → Prop
  | .deposit _ => True
  | .keyManager _ _ => True
  | _ => False

theorem record_untouched (w : World) (a : Action) (h : a.targetCall? = none) :
    Untouched w { w with trace := w.trace ++ [a] } := by
  refine ⟨⟨rfl, rfl, ?_⟩, rfl⟩
  simp [World.targetCalls, h]

theorem idle_targetCall (c : ExtCall) (hc : Idle c) : (Action.called c).targetCall? = none := by
  cases c with
  | deposit a => rfl
  | keyManager k c => rfl
  | _ => exact hc.elim

section Rules

variable {E : World → World → Prop} (refl : ∀ w, E w w)
  (trans : ∀ a b c, E a b → E b c → E a c) (sub : ∀ a b, Untouched a b → E a b)

include trans sub

theorem modifyBridge_quiet (f : BridgeState → BridgeState)
    (hm : ∀ b, (f b).messageStates = b.messageStates)
    (hs : ∀ b, (f b).sequencerSignatures = b.sequencerSignatures) :
    Quiet Idle E (modifyBridge f) :=
  steady_modify trans _ fun w _ =>
    ⟨trivial, sub _ _ ⟨⟨hm w.bridge, hs w.bridge, rfl⟩, rfl⟩⟩

include refl

theorem issue_quiet (c : ExtCall) (hc : Idle c) : Quiet Idle E (issue c) := by
  have step (a : Action) (ha : a.targetCall? = none) : Quiet Idle E (record a) :=
    steady_modify trans _ fun w _ => ⟨trivial, sub _ _ (record_untouched w a ha)⟩
  refine steady_bind (step _ (idle_targetCall c hc)) fun _ => ?_
  refine steady_bind (steady_external refl c fun _ _ => hc) fun r => ?_
  cases r with
  | reverted data => exact steady_revert _
  | returned data => exact steady_bind (step _ rfl) fun _ => steady_pure _

end Rules

theorem quiet_sameMessages {α : Type} {m : M α} (h : Quiet Idle Untouched m) :
    Quiet Idle SameMessages m :=
  quiet_mono (fun _ _ h => h) (fun _ _ h => h.toSameMessages) (fun _ _ _ h => h) untouched_refl
    sameMessages_trans h

theorem quiet_of_atomic {α : Type} {m : M α} (h : Quiet (fun _ => False) SameMessages m) :
    Quiet Idle SameMessages m :=
  quiet_mono (fun _ _ h => h.elim) (fun _ _ h => h) (fun _ _ _ h => h) sameMessages_refl
    sameMessages_trans h

theorem modifyBridge_untouched (f : BridgeState → BridgeState)
    (hm : ∀ b, (f b).messageStates = b.messageStates)
    (hs : ∀ b, (f b).sequencerSignatures = b.sequencerSignatures) :
    Quiet Idle Untouched (modifyBridge f) :=
  modifyBridge_quiet untouched_trans (fun _ _ h => h) f hm hs

section Readers

variable {J : World → Prop} {idle : ExtCall → World → Prop} {E : World → World → Prop}

theorem onlyOwner_quiet (sender : Address) :
    Steady J idle E (onlyOwner sender) :=
  steady_bind steady_get fun _ => steady_require _ _

theorem onlyMessageInitializer_quiet (sender : Address) :
    Steady J idle E (onlyMessageInitializer sender) :=
  steady_bind steady_get fun _ => steady_require _ _

theorem isKeyValid_quiet (D : Deployment) (keyType : KeyType)
    (publicKey : Address) : Steady J idle E (isKeyValid D keyType publicKey) := by
  refine steady_bind steady_get fun w => ?_
  split
  · split
    · exact steady_pure _
    · exact steady_revert _
  · split
    · exact steady_pure _
    · exact steady_revert _

theorem recover_quiet (X : Crypto) (hash : Bytes32)
    (signature : Bytes) : Steady J idle E (recover X hash signature) := by
  unfold recover
  split
  · exact steady_revert _
  · exact steady_pure _

theorem registrationExpiry_quiet :
    Steady J idle E registrationExpiry := by
  refine steady_bind steady_get fun w => ?_
  split
  · exact steady_pure _
  · split
    · exact steady_pure _
    · exact steady_revert _

theorem decodeKey_quiet (data : Bytes) :
    Steady J idle E (decodeKey data) := by
  unfold decodeKey
  split
  · exact steady_pure _
  · exact steady_revert _

end Readers

theorem changeModules_quiet (sender module : Address) (get : BridgeState → AddressSet)
    (put : BridgeState → AddressSet → BridgeState)
    (change : AddressSet → Address → Option AddressSet) (failure : Error)
    (hm : ∀ b s, (put b s).messageStates = b.messageStates)
    (hs : ∀ b s, (put b s).sequencerSignatures = b.sequencerSignatures) :
    Quiet Idle Untouched (changeModules sender module get put change failure) := by
  refine steady_bind (onlyOwner_quiet _) fun _ => ?_
  refine steady_bind (steady_require _ _) fun _ => ?_
  refine steady_bind steady_get fun w => ?_
  split
  · exact steady_revert _
  · exact modifyBridge_untouched _ (fun b => hm b _) (fun b => hs b _)

theorem acceptValidator_quiet (D : Deployment) (messageId : Bytes32) (validator : Address) :
    Quiet Idle Untouched (acceptValidator D messageId validator) :=
  steady_bind (isKeyValid_quiet _ _ _) fun _ =>
    modifyBridge_untouched _ (fun _ => rfl) (fun _ => rfl)

theorem signMessageWithSignature_quiet (D : Deployment) (messageId : Bytes32)
    (signature : Bytes) : Quiet Idle Untouched (signMessageWithSignature D messageId signature) :=
  steady_bind (recover_quiet _ _ _) fun _ => acceptValidator_quiet _ _ _

theorem wrap_quiet (amount : UInt256) : Quiet Idle Untouched (_wrapNativeToken amount) := by
  refine steady_bind (steady_modify untouched_trans _ fun w _ => ?_) fun _ => ?_
  · exact ⟨trivial, ⟨rfl, rfl, rfl⟩, rfl⟩
  · exact steady_bind (issue_quiet untouched_refl untouched_trans (fun _ _ h => h) _ trivial)
      fun _ => steady_pure _

theorem receive_quiet (D : Deployment) (sender : Address) (value : UInt256) :
    Quiet Idle Untouched (receive D sender value) := by
  refine steady_bind (steady_modify untouched_trans _ fun w _ => ?_) fun _ => ?_
  · exact ⟨trivial, ⟨rfl, rfl, rfl⟩, rfl⟩
  · split
    · exact wrap_quiet _
    · exact steady_pure _

theorem wrapNativeToken_quiet (sender : Address) (amount : UInt256) :
    Quiet Idle Untouched (wrapNativeToken sender amount) :=
  steady_bind (onlyMessageInitializer_quiet _) fun _ =>
    steady_bind steady_get fun _ =>
      steady_bind (steady_require _ _) fun _ => wrap_quiet _

/-- The functions that touch neither messages nor keys. -/
def BridgeCall.administrative : BridgeCall → Bool
  | .registerKey .. | .registerKeyWithSignature .. | .approveKey .. | .rejectKey ..
  | .removeKey .. | .setKeyExpiration .. | .revokeAllKeys | .updateAttestationVerifier ..
  | .initializeMessage .. | .handleMessage .. | .initializeAndHandleMessage ..
  | .batchInitializeMessage .. | .batchHandleMessage .. => false
  | _ => true

theorem administrative_quiet (D : Deployment) (sender : Address) (c : BridgeCall)
    (hc : c.administrative = true) : Quiet Idle Untouched (bridgeCode D sender c) := by
  have admin (f : BridgeState → BridgeState) (hm : ∀ b, (f b).messageStates = b.messageStates)
      (hs : ∀ b, (f b).sequencerSignatures = b.sequencerSignatures) :
      Quiet Idle Untouched (onlyOwner sender >>= fun _ => modifyBridge f) :=
    steady_bind (onlyOwner_quiet _) fun _ => modifyBridge_untouched f hm hs
  cases c with
  | receive value => exact receive_quiet D sender value
  | transferOwnership o => exact admin _ (fun _ => rfl) (fun _ => rfl)
  | acceptOwnership =>
    refine steady_bind steady_get fun w => steady_bind (steady_require _ _) fun _ => ?_
    exact modifyBridge_untouched _ (fun _ => rfl) (fun _ => rfl)
  | renounceOwnership => exact admin _ (fun _ => rfl) (fun _ => rfl)
  | addPreModule m => exact changeModules_quiet _ _ _ _ _ _ (fun _ _ => rfl) (fun _ _ => rfl)
  | addPostModule m => exact changeModules_quiet _ _ _ _ _ _ (fun _ _ => rfl) (fun _ _ => rfl)
  | removePreModule m => exact changeModules_quiet _ _ _ _ _ _ (fun _ _ => rfl) (fun _ _ => rfl)
  | removePostModule m => exact changeModules_quiet _ _ _ _ _ _ (fun _ _ => rfl) (fun _ _ => rfl)
  | setMessageInitializer a b => exact admin _ (fun _ => rfl) (fun _ => rfl)
  | signMessage i => exact acceptValidator_quiet _ _ _
  | signMessageWithSignature i s => exact signMessageWithSignature_quiet _ _ _
  | setTeeKeyManager k =>
    refine steady_bind (onlyOwner_quiet _) fun _ => steady_bind (steady_require _ _) fun _ => ?_
    exact modifyBridge_untouched _ (fun _ => rfl) (fun _ => rfl)
  | setKeyRegistrationRestricted t r => exact admin _ (fun _ => rfl) (fun _ => rfl)
  | setDefaultKeyExpiration e => exact admin _ (fun _ => rfl) (fun _ => rfl)
  | wrapNativeToken a => exact wrapNativeToken_quiet _ _
  | _ => cases hc

/-- A call of the deployed key manager makes no external call and concerns no message. -/
theorem runKeyManager_quiet (D : Deployment) (sender : Address) (c : TeeKeyManager.Call) :
    Quiet (fun _ => False) SameMessages (runKeyManager D sender c) := by
  refine steady_bind steady_get fun w => ?_
  split
  · exact steady_revert _
  · refine steady_bind (steady_modify sameMessages_trans _ fun w _ => ?_) fun _ => steady_pure _
    exact ⟨trivial, rfl, rfl, rfl⟩

theorem callOwnKeyManager_quiet (D : Deployment) (value : UInt256) (payload : Bytes) :
    Quiet (fun _ => False) SameMessages (callOwnKeyManager D value payload) := by
  refine steady_bind steady_get fun w => ?_
  split
  · exact steady_pure _
  · split
    · exact steady_pure _
    · split
      · exact steady_pure _
      · refine steady_bind (steady_modify sameMessages_trans _ fun w _ => ?_) fun _ => steady_pure _
        exact ⟨trivial, rfl, rfl, rfl⟩

theorem callKeyManager_quiet (D : Deployment) (c : TeeKeyManager.Call) :
    Quiet Idle SameMessages (callKeyManager D c) := by
  refine steady_bind steady_get fun w => ?_
  split
  · exact quiet_of_atomic (runKeyManager_quiet D _ c)
  · exact issue_quiet sameMessages_refl sameMessages_trans (fun _ _ h => h.toSameMessages) _ trivial

/-- The functions that pass something on to the key manager. -/
def BridgeCall.managesKeys : BridgeCall → Bool
  | .registerKey .. | .registerKeyWithSignature .. | .approveKey .. | .rejectKey ..
  | .removeKey .. | .setKeyExpiration .. | .revokeAllKeys | .updateAttestationVerifier .. => true
  | _ => false

theorem managesKeys_quiet (D : Deployment) (sender : Address) (c : BridgeCall)
    (hc : c.managesKeys = true) : Quiet Idle SameMessages (bridgeCode D sender c) := by
  have forward (k : TeeKeyManager.Call) :
      Quiet Idle SameMessages (forwardToKeyManager D sender k) :=
    steady_bind (onlyOwner_quiet _) fun _ =>
      steady_bind (callKeyManager_quiet D k) fun _ => steady_pure _
  have register (k : World → UInt256 → TeeKeyManager.Call) :
      Quiet Idle SameMessages (do
        let expiresAt ← registrationExpiry
        let w ← Code.get
        let data ← callKeyManager D (k w expiresAt)
        decodeKey data) :=
    steady_bind registrationExpiry_quiet fun _ => steady_bind steady_get fun _ =>
      steady_bind (callKeyManager_quiet D _) fun _ => decodeKey_quiet _
  cases c with
  | registerKey t pv pb => exact steady_bind (register _) fun _ => steady_pure _
  | registerKeyWithSignature t pv pb d s => exact steady_bind (register _) fun _ => steady_pure _
  | approveKey t k e => exact forward _
  | rejectKey t k => exact forward _
  | removeKey t k => exact forward _
  | setKeyExpiration k e => exact forward _
  | revokeAllKeys => exact forward _
  | updateAttestationVerifier v => exact forward _
  | _ => cases hc

theorem drift_untouched (d : Drift) (w : World) : Untouched w (drift d w) := by
  cases d with
  | elapse seconds =>
    simp only [drift]
    split
    · exact ⟨⟨rfl, rfl, rfl⟩, rfl⟩
    · exact untouched_refl w
  | views v => exact ⟨⟨rfl, rfl, rfl⟩, rfl⟩
  | credit amount => exact ⟨⟨rfl, rfl, rfl⟩, rfl⟩

end SyndDB.Contracts
