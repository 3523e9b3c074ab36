import SyndDB.Contracts.Frame

namespace SyndDB.Contracts

open Octets Resumption

/-- A target call with this target and payload would act on the keys under the bridge's address: on
the key manager directly, or through the bridge's own key functions. -/
def TouchesKeys (D : Deployment) (targetAddress : Address) (payload : Bytes) : Bool :=
  (targetAddress = D.keyManager &&
      (D.decodeKeyManager payload).any TeeKeyManager.Call.restricted) ||
  (targetAddress = D.bridge && (D.decodeBridge payload).any BridgeCall.managesKeys)

/-- No message that touches the keys has been executed. -/
def KeysUncalled (D : Deployment) (w : World) : Prop :=
  ∀ c ∈ w.targetCalls, TouchesKeys D c.2.1 c.2.2.2 = false

instance decidableKeysUncalled (D : Deployment) (w : World) : Decidable (KeysUncalled D w) :=
  List.decidableBAll (fun c : Bytes32 × Address × UInt256 × Bytes =>
    TouchesKeys D c.2.1 c.2.2.2 = false) w.targetCalls

/-- A call of the bridge that may act on the keys in the given world: not made by the
bridge to itself, and either a registration with an accepted attestation or a function
called by the owner. -/
def Authorised (D : Deployment) : Entry → World → Prop
  | .bridge sender (.registerKey _ pv pb), w
  | .bridge sender (.registerKeyWithSignature _ pv pb _ _), w =>
      sender ≠ D.bridge ∧ ∃ key,
        w.views.verifyAttestationProof w.keyManager.attestationVerifier pv pb = some key
  | .bridge sender c, w =>
      sender ≠ D.bridge ∧ c.managesKeys = true ∧ w.bridge.owner = sender
  | .keyManager _ _, _ => False

def SameKeys (w w' : World) : Prop := w'.keyManager = w.keyManager

/-- The call of the key manager behind a key function of the bridge. -/
def BridgeCall.command (w : World) (expiresAt : UInt256) : BridgeCall → Option TeeKeyManager.Call
  | .registerKey t pv pb =>
      some (.addKey t pv pb (w.bridge.keyRegistrationRestricted t) expiresAt)
  | .registerKeyWithSignature t pv pb d s =>
      some (.addKeyWithSignature t pv pb d s (w.bridge.keyRegistrationRestricted t) expiresAt)
  | .approveKey t k e => some (.approveKey t k e)
  | .rejectKey t k => some (.rejectKey t k)
  | .removeKey t k => some (.removeKey t k)
  | .setKeyExpiration k e => some (.setKeyExpiration k e)
  | .revokeAllKeys => some .revokeAllKeys
  | .updateAttestationVerifier v => some (.updateAttestationVerifier v)
  | _ => none

/-- The calls of the key manager that a call of the bridge may make: those behind its own key
functions, and only for the owner unless they are registrations. -/
def Commands (D : Deployment) : Entry → World → TeeKeyManager.Call → Prop
  | .bridge sender b, w, c =>
      sender ≠ D.bridge ∧ (∃ e, b.command w e = some c) ∧
        (c.attestation = none → w.bridge.owner = sender)
  | .keyManager _ _, _, _ => False

/-- The key manager is left alone or runs one commanded call. -/
def Operates (D : Deployment) (o : Entry) (w w' : World) : Prop :=
  SameKeys w w' ∨ ∃ c data, Commands D o w c ∧
    TeeKeyManager.dispatch D.crypto D.keyManagerConfig (keyManagerContext D.bridge w)
      w.keyManager c = .ok (data, w'.keyManager)

/-- What code entered as `o` does to the keys, as long as no message has touched them. -/
def Operation (D : Deployment) (o : Entry) (w w' : World) : Prop :=
  KeysUncalled D w' → KeysUncalled D w ∧ Operates D o w w'

/-- The key manager obeys the bridge. -/
def Obedient (D : Deployment) (w : World) : Prop := w.keyManager.bridge = D.bridge

/-- A call that waits for its answer does not touch the keys, unless a message has. -/
def Harmless (D : Deployment) : ExtCall → World → Prop
  | .target _ t _ p, w => KeysUncalled D w → TouchesKeys D t p = false
  | _, _ => True

/-- The keys stay as they are, as long as no message has touched them. -/
def KeysKept (D : Deployment) (w w' : World) : Prop :=
  KeysUncalled D w' → KeysUncalled D w ∧ SameKeys w w'

variable (D : Deployment)

theorem uncalled_same (w w' : World) (h : w'.targetCalls = w.targetCalls)
    (hw : KeysUncalled D w') : KeysUncalled D w := by
  rw [KeysUncalled, h] at hw
  exact hw

theorem keysKept_refl (w : World) : KeysKept D w w := fun uncalled => ⟨uncalled, rfl⟩

theorem keysKept_trans (a b c : World) (h : KeysKept D a b) (h' : KeysKept D b c) :
    KeysKept D a c := by
  intro uncalled
  obtain ⟨middle, same'⟩ := h' uncalled
  obtain ⟨start, same⟩ := h middle
  exact ⟨start, Eq.trans same' same⟩

theorem keysKept_untouched (w w' : World) (h : Untouched w w') : KeysKept D w w' :=
  fun uncalled => ⟨uncalled_same D w w' h.calls uncalled, h.keys⟩

theorem obedient_untouched (w w' : World) (h : Untouched w w') (hw : Obedient D w) :
    Obedient D w' := by
  rw [Obedient, h.keys]
  exact hw

/-- A waiting call stays harmless while the list of target calls grows. -/
theorem harmless_later (c : ExtCall) (w w' : World) (h : KeysUncalled D w' → KeysUncalled D w)
    (hc : Harmless D c w) : Harmless D c w' := by
  cases c with
  | target i t v p => exact fun uncalled => hc (h uncalled)
  | _ => trivial

theorem harmless_of_noTarget (c : ExtCall) (hc : (Action.called c).targetCall? = none) (w : World) :
    Harmless D c w := by
  cases c with
  | target i t v p => cases hc
  | _ => trivial

/-- Code that keeps the keys and whose calls are harmless. -/
abbrev KeepsKeys {α : Type} (m : M α) : Prop := Steady (Obedient D) (Harmless D) (KeysKept D) m

variable {D}

theorem untouched_keeps {α : Type} {m : M α} (hm : Quiet Idle Untouched m) : KeepsKeys D m :=
  quiet_mono (fun c w hc => harmless_of_noTarget D c (idle_targetCall c hc) w)
    (keysKept_untouched D) (obedient_untouched D) untouched_refl (keysKept_trans D) hm

theorem record_keeps (a : Action) (ha : a.targetCall? = none) : KeepsKeys D (record a) :=
  steady_modify (keysKept_trans D) _ fun w h =>
    ⟨h, keysKept_untouched D w _ (record_untouched w a ha)⟩

theorem issue_keeps (c : ExtCall) (hc : (Action.called c).targetCall? = none) :
    KeepsKeys D (issue c) := by
  refine steady_bind (record_keeps _ hc) fun _ => ?_
  refine steady_bind (steady_external (keysKept_refl D) c fun w _ => harmless_of_noTarget D c hc w)
    fun r => ?_
  cases r with
  | reverted data => exact steady_revert _
  | returned data => exact steady_bind (record_keeps _ rfl) fun _ => steady_pure _

theorem validateModules_keeps (id : Bytes32) (modules : BridgeState → AddressSet)
    (stage : ProcessingStage) (payload : Bytes) (signature : SequencerSignature) :
    KeepsKeys D (_validateModules id modules stage payload signature) := by
  refine steady_bind steady_get fun _ => steady_each _ _ fun i _ => ?_
  refine steady_bind steady_get fun w => ?_
  cases (modules w.bridge).atIndex i with
  | none => exact steady_revert _
  | some module =>
    refine steady_bind (issue_keeps _ rfl) fun data => ?_
    cases decodeBool data with
    | none => exact steady_revert _
    | some ok => exact steady_require _ _

theorem setStage_keeps (id : Bytes32) (stage : ProcessingStage) :
    KeepsKeys D (setStage id stage) :=
  steady_modify (keysKept_trans D) _ fun _ h => ⟨h, fun uncalled => ⟨uncalled, rfl⟩⟩

theorem unwrap_keeps (id : Bytes32) : KeepsKeys D (_unwrap D id) := by
  refine steady_bind steady_get fun w => ?_
  dsimp only
  split
  · cases w.views.balanceOf D.bridge with
    | none => exact steady_revert _
    | some available =>
      refine steady_bind (steady_require _ _) fun _ => ?_
      exact steady_bind (issue_keeps _ rfl) fun _ => steady_pure _
  · exact steady_pure _

/-- A payload that does not touch the keys leaves the key manager as it is. -/
theorem callOwnKeyManager_keeps (value : UInt256) (payload : Bytes) (base w : World)
    (hp : KeysUncalled D w → TouchesKeys D D.keyManager payload = false) (hw : Obedient D w)
    (h : KeysKept D base w) :
    (callOwnKeyManager D value payload w).Sat
      (fun c b s => Harmless D c s ∧ Obedient D s ∧ KeysKept D b s)
      (fun _ s => Obedient D s) (fun b _ s => Obedient D s ∧ KeysKept D b s) base := by
  simp only [callOwnKeyManager, bind_apply, get_apply, bind_ret]
  cases hd : D.decodeKeyManager payload with
  | none => exact ⟨hw, h⟩
  | some c =>
    dsimp only
    split
    · exact ⟨hw, h⟩
    · cases hr : TeeKeyManager.dispatch D.crypto D.keyManagerConfig (keyManagerContext D.bridge w)
          w.keyManager c with
      | error e => exact ⟨hw, h⟩
      | ok r =>
        have hb : w.keyManager.bridge ≠ 0 := hw ▸ D.bridge_ne_zero
        obtain ⟨bridge, moved⟩ := TeeKeyManager.dispatch_ok _ _ _ _ c r.1 r.2 hb hr
        refine ⟨bridge.trans hw, keysKept_trans D base w _ h ?_⟩
        intro uncalled
        refine ⟨uncalled, ?_⟩
        rcases moved with same | ⟨restricted, _⟩
        · exact same
        · have free := hp uncalled
          simp only [TouchesKeys, hd, decide_true, Bool.true_and, Option.any_some,
            Bool.or_eq_false_iff] at free
          exact absurd (free.1.symm.trans restricted) Bool.false_ne_true

/-- The target call enters the trace before it is made. -/
theorem callTarget_keeps (id : Bytes32) : KeepsKeys D (callTarget D id) := by
  intro base w hw h
  simp only [callTarget, bind_apply, get_apply, bind_ret]
  split
  · exact ⟨hw, h⟩
  · have kept : KeysKept D w
        { w with
          balance := w.balance - (w.bridge.messageStates id).nativeTokenAmount
          trace := w.trace ++
            [.called (.target id (w.bridge.messageStates id).targetAddress
              (w.bridge.messageStates id).nativeTokenAmount
              (w.bridge.messageStates id).payload)] } := by
      intro uncalled
      refine ⟨fun c hc => uncalled c ?_, rfl⟩
      simp only [World.targetCalls, List.filterMap_append, List.mem_append]
      exact .inl hc
    have called (free : KeysUncalled D
        { w with
          balance := w.balance - (w.bridge.messageStates id).nativeTokenAmount
          trace := w.trace ++ [.called (.target id (w.bridge.messageStates id).targetAddress
            (w.bridge.messageStates id).nativeTokenAmount (w.bridge.messageStates id).payload)] }) :
        TouchesKeys D (w.bridge.messageStates id).targetAddress
          (w.bridge.messageStates id).payload =
          false :=
      free (id, (w.bridge.messageStates id).targetAddress,
        (w.bridge.messageStates id).nativeTokenAmount, (w.bridge.messageStates id).payload)
        (by simp [World.targetCalls, Action.targetCall?])
    simp only [record, bind_apply, modify_apply, bind_ret]
    split
    · next own =>
      exact callOwnKeyManager_keeps _ _ base _ (fun free => own ▸ called free) hw
        (keysKept_trans D _ _ _ h kept)
    · exact ⟨⟨called, hw, keysKept_trans D _ _ _ h kept⟩, fun _ s obedient =>
        ⟨obedient, keysKept_refl D s⟩⟩

/-- Handling a message does not act on the keys, whatever the modules and the target do. -/
theorem handleMessage_keeps (id : Bytes32) : KeepsKeys D (handleMessage D id) := by
  refine steady_bind steady_get fun w => ?_
  refine steady_bind (steady_require _ _) fun _ => steady_bind (steady_require _ _) fun _ => ?_
  refine steady_bind (steady_require _ _) fun _ => ?_
  refine steady_bind (steady_bind (steady_require _ _) fun _ => validateModules_keeps _ _ _ _ _)
    fun _ => ?_
  refine steady_bind (setStage_keeps _ _) fun _ => steady_bind (unwrap_keeps _) fun _ => ?_
  have execute : KeepsKeys D (_execute D id) := by
    refine steady_bind (callTarget_keeps id) fun r => ?_
    cases r with
    | reverted data => exact steady_revert _
    | returned data => exact steady_pure _
  refine steady_bind execute fun _ => steady_bind (setStage_keeps _ _) fun _ => ?_
  refine steady_bind steady_get fun w => ?_
  refine steady_bind (steady_bind (steady_require _ _) fun _ => validateModules_keeps _ _ _ _ _)
    fun _ => ?_
  exact setStage_keeps _ _

theorem initialize_keeps (sender target : Address) (id : Bytes32) (payload : Bytes)
    (signature : SequencerSignature) (amount : UInt256) :
    KeepsKeys D (_initializeMessage D sender id target payload signature amount) := by
  refine steady_bind steady_get fun w => steady_bind (steady_require _ _) fun _ => ?_
  refine steady_bind (recover_quiet _ _ _) fun _ => steady_bind (isKeyValid_quiet _ _ _) fun _ => ?_
  refine steady_bind (steady_require _ _) fun _ => ?_
  exact steady_bind (steady_modify (keysKept_trans D) _ fun _ h =>
    ⟨h, fun uncalled => ⟨uncalled, rfl⟩⟩) fun _ => record_keeps _ rfl

/-- The functions that do not manage keys leave them alone. -/
theorem bridgeCode_keeps (sender : Address) (c : BridgeCall) (hc : c.managesKeys = false) :
    KeepsKeys D (bridgeCode D sender c) := by
  have starting (i : Bytes32) (t : Address) (p : Bytes) (s : SequencerSignature) (a : UInt256) :
      KeepsKeys D (initializeMessage D sender i t p s a) :=
    steady_bind (onlyMessageInitializer_quiet _) fun _ => initialize_keeps sender t i p s a
  cases c with
  | initializeMessage i t p s a => exact starting i t p s a
  | handleMessage i => exact handleMessage_keeps i
  | initializeAndHandleMessage i t p s vs a =>
    refine steady_bind (starting i t p s a) fun _ => ?_
    refine steady_bind ?_ fun _ => handleMessage_keeps i
    exact untouched_keeps (steady_each _ _ fun s _ => signMessageWithSignature_quiet D i s)
  | batchInitializeMessage is ts ps ss as =>
    refine steady_bind (onlyMessageInitializer_quiet _) fun _ => ?_
    refine steady_bind (steady_require _ _) fun _ => steady_each _ _ ?_
    exact fun ⟨i, t, p, s, a⟩ _ => initialize_keeps sender t i p s a
  | batchHandleMessage is => exact steady_each _ _ fun i _ => handleMessage_keeps i
  | _ => first | exact untouched_keeps (administrative_quiet D sender _ rfl) | cases hc

section Managing

variable (ws : List ExtCall) (o : Entry)

/-- What holds of a world in which frames wait for `ws`. -/
abbrev SafeAbove (D : Deployment) (w : World) : Prop := Holds (Obedient D) (Harmless D) ws w

/-- Obligations of code entered as `o` above frames that wait for `ws`. -/
def Operated (D : Deployment) {α : Type} (base : World)
    (m : Resume World ExtCall ExtResult Error α) : Prop :=
  m.Sat (fun c b s => SafeAbove (c :: ws) D s ∧ Operation D o b s)
    (fun c s => SafeAbove (c :: ws) D s) (fun b _ s => SafeAbove ws D s ∧ Operation D o b s) base

variable {ws o}

theorem safeAbove_later (w w' : World) (h : SafeAbove ws D w)
    (kept : KeysUncalled D w' → KeysUncalled D w) (hw : Obedient D w') : SafeAbove ws D w' :=
  ⟨hw, fun e he => harmless_later D e w w' kept (h.2 e he)⟩

theorem safeAbove_cons (c : ExtCall) (w : World) (h : SafeAbove ws D w) (hc : Harmless D c w) :
    SafeAbove (c :: ws) D w := by
  refine ⟨h.1, ?_⟩
  intro e he
  rcases List.mem_cons.mp he with rfl | he
  · exact hc
  · exact h.2 e he

theorem keeps_operated {α : Type} {m : M α} (hm : KeepsKeys D m) (w : World)
    (h : SafeAbove ws D w) :
    Operated ws o D w (m w) := by
  have moved (b s : World) (hb : SafeAbove ws D b) (hs : Obedient D s) (kept : KeysKept D b s) :
      SafeAbove ws D s ∧ Operation D o b s :=
    ⟨safeAbove_later b s hb (fun uncalled => (kept uncalled).1) hs,
      fun uncalled => ⟨(kept uncalled).1, .inl (kept uncalled).2⟩⟩
  refine steady_sat (keysKept_refl D) hm (SafeAbove ws D) w w h.1
    ?_ ?_ ?_ ?_ ?_
  · intro c s hc hs kept
    obtain ⟨safe, operation⟩ := moved w s h hs kept
    exact ⟨safeAbove_cons c s safe hc, operation⟩
  · exact fun _ s hs kept => moved w s h hs kept
  · exact fun c s hs => ⟨hs.1, hs.1, fun e he => hs.2 e (by simp [he])⟩
  · intro c b s hb hc hs kept
    obtain ⟨safe, operation⟩ := moved b s hb hs kept
    exact ⟨safeAbove_cons c s safe hc, operation⟩
  · exact fun b _ s hb hs kept => moved b s hb hs kept

/-- A commanded call of the configured key manager. -/
theorem callKeyManager_operated (c : TeeKeyManager.Call) (w : World)
    (h : SafeAbove ws D w) (hc : KeysUncalled D w → Commands D o w c) :
    Operated ws o D w (callKeyManager D c w) := by
  simp only [callKeyManager, bind_apply, get_apply, bind_ret]
  split
  · simp only [runKeyManager, bind_apply, get_apply, bind_ret]
    cases hr : TeeKeyManager.dispatch D.crypto D.keyManagerConfig (keyManagerContext D.bridge w)
        w.keyManager c with
    | error e => trivial
    | ok r =>
      have hb : w.keyManager.bridge ≠ 0 := h.1 ▸ D.bridge_ne_zero
      have bridge := (TeeKeyManager.dispatch_ok _ _ _ _ c r.1 r.2 hb hr).1
      refine ⟨safeAbove_later w _ h id (bridge.trans h.1), ?_⟩
      exact fun uncalled => ⟨uncalled, .inr ⟨c, r.1, hc uncalled, hr⟩⟩
  · exact keeps_operated (issue_keeps _ rfl) w h

theorem forwardToKeyManager_operated (sender : Address) (c : TeeKeyManager.Call) (w : World)
    (h : SafeAbove ws D w)
    (hc : w.bridge.owner = sender → KeysUncalled D w → Commands D o w c) :
    Operated ws o D w (forwardToKeyManager D sender c w) := by
  simp only [forwardToKeyManager, onlyOwner, bind_apply, get_apply, bind_ret]
  refine sat_bind _ _ _ (sat_require _ _ _ _ fun howner => ?_)
  apply sat_bind
  exact callKeyManager_operated c w h (hc (of_decide_eq_true howner))

/-- Registration, with whatever arguments the bridge computes for it. -/
theorem register_operated (k : World → UInt256 → TeeKeyManager.Call) (w : World)
    (h : SafeAbove ws D w) (hc : ∀ e, KeysUncalled D w → Commands D o w (k w e)) :
    Operated ws o D w ((do
        let expiresAt ← registrationExpiry
        let w ← Code.get
        let data ← callKeyManager D (k w expiresAt)
        decodeKey data : M Address) w) := by
  apply sat_bind
  refine atomic_sat (E := fun a b => b = a) (fun _ => rfl) registrationExpiry_quiet w w ?_
  intro e w₁ same
  rw [same]
  simp only [bind_apply, get_apply, bind_ret]
  apply sat_bind
  refine sat_mono ?_ _ _ (callKeyManager_operated (k w e) w h (hc e))
  intro b data s hs
  refine atomic_sat (E := fun a b => b = a) (fun _ => rfl) (decodeKey_quiet data) b s ?_
  intro _ s' same
  rw [same]
  exact hs

/-- A commanded call that succeeds is authorised. -/
theorem operates_authorised (o : Entry) (w w' : World) (h : Operates D o w w') :
    SameKeys w w' ∨ Authorised D o w := by
  rcases h with same | ⟨c, data, commands, hr⟩
  · exact .inl same
  · right
    cases o with
    | keyManager sender c => exact commands.elim
    | bridge sender b =>
      obtain ⟨outside, ⟨e, command⟩, byOwner⟩ := commands
      cases b with
      | registerKey t pv pb =>
        cases command
        exact ⟨outside, TeeKeyManager.dispatch_attested _ _ _ _ _ _ pv pb rfl hr⟩
      | registerKeyWithSignature t pv pb d s =>
        cases command
        exact ⟨outside, TeeKeyManager.dispatch_attested _ _ _ _ _ _ pv pb rfl hr⟩
      | approveKey t k e =>
        cases command
        exact ⟨outside, rfl, byOwner rfl⟩
      | rejectKey t k =>
        cases command
        exact ⟨outside, rfl, byOwner rfl⟩
      | removeKey t k =>
        cases command
        exact ⟨outside, rfl, byOwner rfl⟩
      | setKeyExpiration k e =>
        cases command
        exact ⟨outside, rfl, byOwner rfl⟩
      | revokeAllKeys =>
        cases command
        exact ⟨outside, rfl, byOwner rfl⟩
      | updateAttestationVerifier v =>
        cases command
        exact ⟨outside, rfl, byOwner rfl⟩
      | _ => cases command

end Managing

/-- The bridge does not call its own key functions, unless a message has touched the keys. -/
theorem self_call_harmless (ws : List ExtCall) (c : BridgeCall) (w : World)
    (h : SafeAbove ws D w) (uncalled : KeysUncalled D w)
    (hs : ws.head?.bind (selfCall D) = some c) : c.managesKeys = false := by
  cases ws with
  | nil => cases hs
  | cons e ws =>
    have he : Harmless D e w := h.2 e (by simp)
    cases e with
    | target i t v p =>
      simp only [List.head?_cons, Option.bind_some, selfCall] at hs
      split at hs
      · cases hs
      · rename_i ht
        split at hs
        · cases hs; rfl
        · split at hs
          · cases hs
          · have free := he uncalled
            rw [TouchesKeys, hs, not_not.mp ht] at free
            simpa using (Bool.or_eq_false_iff.mp free).2
    | _ => cases hs

theorem bridgeCode_operated (ws : List ExtCall) (sender : Address) (c : BridgeCall) (w : World)
    (ha : admits D ws (.bridge sender c) = true)
    (h : SafeAbove ws D w) :
    Operated ws (.bridge sender c) D w (bridgeCode D sender c w) := by
  cases hc : c.managesKeys with
  | false => exact keeps_operated (bridgeCode_keeps sender c hc) w h
  | true =>
    have outside (uncalled : KeysUncalled D w) : sender ≠ D.bridge := by
      intro hself
      simp only [admits, hself, ne_eq, not_true_eq_false, decide_false, Bool.false_or,
        decide_eq_true_eq] at ha
      rw [self_call_harmless ws c w h uncalled ha] at hc
      cases hc
    have forwarded (k : TeeKeyManager.Call) (hk : c.command w 0 = some k) :
        Operated ws (.bridge sender c) D w (forwardToKeyManager D sender k w) :=
      forwardToKeyManager_operated _ _ w h
        fun ho uncalled => ⟨outside uncalled, ⟨0, hk⟩, fun _ => ho⟩
    cases c with
    | registerKey t pv pb =>
      apply sat_bind
      refine sat_mono (fun _ _ _ hs => hs) _ _ (register_operated _ w h ?_)
      exact fun e uncalled => ⟨outside uncalled, ⟨e, rfl⟩, nofun⟩
    | registerKeyWithSignature t pv pb d s =>
      apply sat_bind
      refine sat_mono (fun _ _ _ hs => hs) _ _ (register_operated _ w h ?_)
      exact fun e uncalled => ⟨outside uncalled, ⟨e, rfl⟩, nofun⟩
    | approveKey t k e => exact forwarded _ rfl
    | rejectKey t k => exact forwarded _ rfl
    | removeKey t k => exact forwarded _ rfl
    | setKeyExpiration k e => exact forwarded _ rfl
    | revokeAllKeys => exact forwarded _ rfl
    | updateAttestationVerifier v => exact forwarded _ rfl
    | _ => cases hc

/-- Nobody but the bridge gets anywhere with the key manager itself. -/
theorem runKeyManager_operated (ws : List ExtCall) (sender : Address) (c : TeeKeyManager.Call)
    (w : World) (hsender : sender ≠ D.bridge) (h : SafeAbove ws D w) :
    Operated ws (.keyManager sender c) D w (runKeyManager D sender c w) := by
  simp only [runKeyManager, bind_apply, get_apply, bind_ret]
  cases hr : TeeKeyManager.dispatch D.crypto D.keyManagerConfig (keyManagerContext sender w)
      w.keyManager c with
  | error e => trivial
  | ok r =>
    have hb : w.keyManager.bridge ≠ 0 := h.1 ▸ D.bridge_ne_zero
    obtain ⟨_, same | ⟨_, hs⟩⟩ := TeeKeyManager.dispatch_ok _ _ _ _ c r.1 r.2 hb hr
    · have unchanged : ({ w with keyManager := r.2 } : World) = w := by rw [same]
      simp only [bind_apply, modify_apply, bind_ret, pure_apply, unchanged]
      exact ⟨h, fun uncalled => ⟨uncalled, .inl rfl⟩⟩
    · exact absurd (hs.trans h.1) hsender

theorem safeAbove_drift (d : Drift) (ws : List ExtCall) (w : World) (h : SafeAbove ws D w) :
    SafeAbove ws D (drift d w) :=
  have untouched := drift_untouched d w
  safeAbove_later w _ h (uncalled_same D w _ untouched.calls)
    (obedient_untouched D w _ untouched h.1)

/-- The bridge operates the key manager, call by call. -/
theorem system_operates (D : Deployment) :
    Proves (system D) (Obedient D) (Harmless D) (Operation D) (fun _ _ => True)
      (fun _ _ => True) where
  grows_refl := fun _ => trivial
  grows_trans := fun _ _ _ _ _ => trivial
  segment_grows := fun _ _ _ _ => trivial
  drift := fun d ws w h => ⟨safeAbove_drift d ws w h, trivial⟩
  code := by
    intro ws c w ha _ h
    cases c with
    | bridge sender c => exact bridgeCode_operated ws sender c w ha h
    | keyManager sender c =>
      apply sat_bind
      exact runKeyManager_operated ws sender c w (of_decide_eq_true ha) h

/-- In every state that is reached, code is above frames that wait for harmless calls. -/
theorem reached_operates (D : Deployment) (owner verifier : Address) (timestamp : UInt256)
    (views : Views) (es : List (Event ExtResult Entry Drift))
    (m : Machine World ExtCall ExtResult Error Entry)
    (hm : run (system D) (boot (genesis D owner verifier timestamp views)) es = some m) :
    Resumption.Sound (Obedient D) (Harmless D) (Operation D) (fun _ _ => True) m :=
  have genesis_obedient : Obedient D (genesis D owner verifier timestamp views) := rfl
  run_sound (system_operates D) _ m es (boot_sound _ genesis_obedient) (along_true _ _ es) hm

/-- The call whose code a step runs: the one that enters, or the one that waited for an answer. -/
def Runs (m : Machine World ExtCall ExtResult Error Entry) (e : Event ExtResult Entry Drift)
    (o : Entry) : Prop :=
  e = .enter o ∨ ∃ r f st, e = .answer r ∧ m.stack = .contract f :: st ∧ f.origin = o

/-- In every run, every step leaves the key manager (its key sets, pending keys, expirations and
verifier) as it is or as a revert puts it, unless it runs a call that is authorised to change it: a
registration with an accepted attestation, or a key function called by the owner, never one that the
bridge makes to itself. This is so as long as no message that touches the keys has been executed in
the history of the state that is reached. -/
theorem keys_change_only_by_authorised_call (D : Deployment) (owner verifier : Address)
    (timestamp : UInt256) (views : Views) (es : List (Event ExtResult Entry Drift))
    (e : Event ExtResult Entry Drift) (m m' : Machine World ExtCall ExtResult Error Entry)
    (hm : run (system D) (boot (genesis D owner verifier timestamp views)) es = some m)
    (hs : step (system D) m e = some m') (uncalled : KeysUncalled D m'.store) :
    ∃ w, (w = m.store ∨ ∃ l st, m.stack = l :: st ∧ w ∈ l.restores) ∧
      (m'.store.keyManager = w.keyManager ∨ ∃ o, Runs m e o ∧ Authorised D o w) := by
  have sound := reached_operates D owner verifier timestamp views es m hm
  have moved := step_moves (system_operates D) m m' e sound trivial hs
  cases e with
  | enter c =>
    refine ⟨m.store, .inl rfl, ?_⟩
    rcases moved with operation | same
    · rcases operates_authorised c m.store m'.store (operation uncalled).2 with same | auth
      · exact .inl same
      · exact .inr ⟨c, .inl rfl, auth⟩
    · exact .inl (congrArg World.keyManager same)
  | answer r =>
    obtain ⟨f, st, hst, hF | same⟩ := moved
    · refine ⟨if (system D).failed r then f.atCall else m.store, ?_, ?_⟩
      · split
        · exact .inr ⟨_, st, hst, by simp [Level.restores]⟩
        · exact .inl rfl
      · rcases operates_authorised _ _ m'.store (hF uncalled).2 with same | auth
        · exact .inl same
        · exact .inr ⟨f.origin, .inr ⟨r, f, st, rfl, hst, rfl⟩, auth⟩
    · exact ⟨f.entry, .inr ⟨_, st, hst, by simp [Level.restores]⟩,
        .inl (congrArg World.keyManager same)⟩
  | begin => exact ⟨m.store, .inl rfl, .inl (congrArg World.keyManager moved)⟩
  | commit => exact ⟨m.store, .inl rfl, .inl (congrArg World.keyManager moved)⟩
  | abort =>
    obtain ⟨s, st, hst, same⟩ := moved
    exact ⟨s, .inr ⟨_, st, hst, by simp [Level.restores]⟩,
      .inl (congrArg World.keyManager same)⟩
  | drift d =>
    refine ⟨m.store, .inl rfl, .inl ?_⟩
    rw [moved]
    exact (drift_untouched d m.store).keys

/-- A message to the key manager with the calldata of `revokeAllKeys()`. -/
def revokingMessage : Sample where
  targetAddress := 0x4E
  payload := [0xc1, 0x72, 0xac, 0x10]
  payloadHash := 0xac44315acb58b7de9b3010d456be78df9c3cb433f3b69eada2a9ba306f29da9b
  messageHash := 0xafd6d7960be93a729144df861373d61217a08d78dc2712e4c004cf3d7d4e59c4
  signedHash := 0x1b68b544eab94bdff98edc5b0a1687372366a52be38bb792d242e1e266af7e05
  signature :=
    bigEndian 32 0xb039fca459e5521cf0190cbc4284c377bbbe36ef186e15dcb8f7a71acd51747d ++
    bigEndian 32 0x615e20e6fc0a0ab750e7f8c260b0314b1d52f86df03e0a697af942d3dd1c9417 ++ [28]

/-- The owner may revoke the keys: the step after the registration changes them. -/
theorem keys_change_only_by_authorised_call_owner :
    ∃ m m', run (system revokingMessage.deployment) (boot revokingMessage.genesis)
        (revokingMessage.setup.take 1) = some m ∧
      step (system revokingMessage.deployment) m (.enter (.bridge 0x0A .revokeAllKeys)) = some m' ∧
      m.store.keyManager.sequencerKeys.values = [sampleSequencer] ∧
      m'.store.keyManager.sequencerKeys.values = [] ∧
      ∃ w, (w = m.store ∨ ∃ l st, m.stack = l :: st ∧ w ∈ l.restores) ∧
        (m'.store.keyManager = w.keyManager ∨
          ∃ o, Runs m (.enter (.bridge 0x0A .revokeAllKeys)) o ∧
            Authorised revokingMessage.deployment o w) := by
  have outcome : (run (system revokingMessage.deployment) (boot revokingMessage.genesis)
      (revokingMessage.setup.take 1)).bind (fun m =>
        (step (system revokingMessage.deployment) m (.enter (.bridge 0x0A .revokeAllKeys))).map
          fun m' => (m.store.keyManager.sequencerKeys.values,
            m'.store.keyManager.sequencerKeys.values)) = some ([sampleSequencer], []) := by
    decide
  have uncalled : (run (system revokingMessage.deployment) (boot revokingMessage.genesis)
      (revokingMessage.setup.take 1 ++ [.enter (.bridge 0x0A .revokeAllKeys)])).map
        (fun m => m.store.targetCalls) = some [] := by
    decide
  obtain ⟨m, hm, outcome⟩ := Option.bind_eq_some_iff.mp outcome
  obtain ⟨m', hs, values⟩ := Option.map_eq_some_iff.mp outcome
  have reached : run (system revokingMessage.deployment) (boot revokingMessage.genesis)
      (revokingMessage.setup.take 1 ++ [.enter (.bridge 0x0A .revokeAllKeys)]) = some m' := by
    rw [run_append, hm, Option.bind_some]
    exact Option.bind_eq_some_iff.mpr ⟨m', hs, rfl⟩
  rw [reached] at uncalled
  have none_called : m'.store.targetCalls = [] := Option.some.inj uncalled
  refine ⟨m, m', hm, hs, (Prod.mk.inj values).1, (Prod.mk.inj values).2,
    keys_change_only_by_authorised_call revokingMessage.deployment 0x0A 0xA7 1700000000
      sampleViews _ _ m m' hm hs ?_⟩
  rw [KeysUncalled, none_called]
  exact List.forall_mem_nil _

/-- Account `0x77`, neither owner nor initializer, handles the message and all keys are gone. -/
theorem handled_message_revokes_keys :
    ((run (system revokingMessage.deployment) (boot revokingMessage.genesis)
      revokingMessage.setup).map fun m => m.committed.keyManager.sequencerKeys.values) =
        some [sampleSequencer] ∧
    ((run (system revokingMessage.deployment) (boot revokingMessage.genesis)
      (revokingMessage.setup ++ [.enter (.bridge 0x77 (.handleMessage 1))])).map
        fun m => (m.stack.length, m.committed.keyManager.sequencerKeys.values)) =
        some (0, []) := by
  refine ⟨?_, ?_⟩ <;> decide +kernel

end SyndDB.Contracts
