import SyndDB.Contracts.Sessions
import Mathlib.Data.List.Perm.Subperm

namespace SyndDB.Contracts

open Octets Resumption

namespace TeeKeyManager

def getKeys (st : State) (keyType : KeyType) : List Address := (_getKeySet st keyType).values

/-- The condition under which `isKeyValid` reports a registered key as expired. -/
def expired (timestamp : UInt256) (st : State) (publicKey : Address) : Bool :=
  st.keyExpiration publicKey ≠ 0 && st.keyExpiration publicKey < timestamp

theorem isKeyValid_iff (timestamp : UInt256) (st : State) (keyType : KeyType)
    (publicKey : Address) :
    isKeyValid timestamp st keyType publicKey = .ok true ↔
      publicKey ∈ getKeys st keyType ∧ expired timestamp st publicKey = false := by
  have steps : isKeyValid timestamp st keyType publicKey =
      (require (decide (publicKey ∈ getKeys st keyType)) (.InvalidPublicKey publicKey)).bind
        fun _ => (require (!expired timestamp st publicKey) (.KeyExpired publicKey)).bind
          fun _ => .ok true := rfl
  rw [steps]
  by_cases registered : publicKey ∈ getKeys st keyType
  · cases expired timestamp st publicKey <;> simp [require, registered, Except.bind]
  · simp [require, registered, Except.bind]

end TeeKeyManager

def getValidatorSignatureCount (b : BridgeState) (messageId : Bytes32) (validators : List Address) :
    Nat :=
  validators.countP (b.validatorSignatures messageId)

namespace ValidatorSignatureThresholdModule

/-- The storage of the module. The constructor and `setThreshold` refuse a threshold of zero. -/
structure State where
  owner : Address
  signatureThreshold : UInt256
  positive : signatureThreshold ≠ 0

def check (w : World) (st : State) (messageId : Bytes32) (stage : ProcessingStage) : Bool :=
  if stage = .PreExecution then
    let validators := TeeKeyManager.getKeys w.keyManager .Validator
    if validators.length = 0 then false
    else
      let signatureCount := getValidatorSignatureCount w.bridge messageId validators
      if signatureCount < st.signatureThreshold.toNat then false else true
  else true

inductive Call where
  | setThreshold (sender : Address) (_signatureThreshold : UInt256)
  | transferOwnership (sender newOwner : Address)
  | renounceOwnership (sender : Address)

/-- The state-changing functions; `none` is a revert. -/
def call (st : State) : Call → Option State
  | .setThreshold sender x =>
      if sender = st.owner then
        if h : x = 0 then none else some { st with signatureThreshold := x, positive := h }
      else none
  | .transferOwnership sender newOwner =>
      if sender = st.owner ∧ newOwner ≠ 0 then some { st with owner := newOwner } else none
  | .renounceOwnership sender =>
      if sender = st.owner then some { st with owner := 0 } else none

/-- The module, and for each message the world and the threshold at its latest target call. -/
structure Record where
  state : State
  executed : Bytes32 → Option (World × UInt256)

def module : Module Record Call Empty where
  serve i stage _ _ w t := (returnBool (check w t.state i stage), t)
  restore _ _ t := t
  note
    | .executing i, w, t =>
        { t with executed := Function.update t.executed i (some (w, t.state.signatureThreshold)) }
    | _, _, t => t
  own c _ t := (call t.state c).map fun st => { t with state := st }
  drift d := nomatch d

/-- The registered validators whose signature is recorded. -/
def signers (w : World) (messageId : Bytes32) : List Address :=
  (TeeKeyManager.getKeys w.keyManager .Validator).filter (w.bridge.validatorSignatures messageId)

/-- The message is signed by at least `threshold` addresses, each a registered and
unexpired validator key. -/
def Approved (w : World) (messageId : Bytes32) (threshold : UInt256) : Prop :=
  ∃ validators : List Address, validators.Nodup ∧ threshold.toNat ≤ validators.length ∧
    ∀ v ∈ validators, w.bridge.validatorSignatures messageId v = true ∧
      TeeKeyManager.isKeyValid w.timestamp w.keyManager .Validator v = .ok true

/-- No registered validator whose signature is recorded has expired. -/
def NoneExpired (w : World) (messageId : Bytes32) : Prop :=
  ∀ v ∈ signers w messageId, TeeKeyManager.expired w.timestamp w.keyManager v = false

theorem approved_iff (w : World) (messageId : Bytes32) (threshold : UInt256) :
    Approved w messageId threshold ↔ threshold.toNat ≤
      ((signers w messageId).filter fun v => !TeeKeyManager.expired w.timestamp w.keyManager
        v).length := by
  have member (v : Address) : v ∈ ((signers w messageId).filter fun v =>
        !TeeKeyManager.expired w.timestamp w.keyManager v) ↔
      w.bridge.validatorSignatures messageId v = true ∧
        TeeKeyManager.isKeyValid w.timestamp w.keyManager .Validator v = .ok true := by
    rw [TeeKeyManager.isKeyValid_iff, signers, List.mem_filter, List.mem_filter, Bool.not_eq_true']
    tauto
  constructor
  · intro approved
    obtain ⟨validators, nodup, enough, each⟩ := approved
    have included : validators ⊆ (signers w messageId).filter fun v =>
        !TeeKeyManager.expired w.timestamp w.keyManager v :=
      fun v hv => (member v).mpr (each v hv)
    exact enough.trans (nodup.subperm included).length_le
  · intro enough
    have nodup : (TeeKeyManager.getKeys w.keyManager .Validator).Nodup :=
      w.keyManager.validatorKeys.nodup
    exact ⟨_, (nodup.filter _).filter _, enough, fun v hv => (member v).mp hv⟩

theorem approved_of_signers (w : World) (messageId : Bytes32) (threshold : UInt256)
    (enough : threshold.toNat ≤ (signers w messageId).length) (none : NoneExpired w messageId) :
    Approved w messageId threshold := by
  rw [approved_iff, List.filter_eq_self.mpr]
  · exact enough
  · intro v hv
    rw [none v hv]
    rfl

/-- A pre-check that passes has counted enough recorded signatures of registered validators. -/
theorem check_signers (w : World) (st : State) (messageId : Bytes32)
    (h : check w st messageId .PreExecution = true) :
    st.signatureThreshold.toNat ≤ (signers w messageId).length := by
  rw [signers, ← List.countP_eq_length_filter]
  simp only [check, if_true] at h
  split at h
  · cases h
  · split at h
    · cases h
    · rename_i count
      exact Nat.le_of_not_lt count

section Runs

variable (T : Address)

/-- What the module has counted is still there, and its threshold was not raised. -/
def Stands (messageId : Bytes32) (st st' : World × Record) : Prop :=
  (∀ v ∈ signers st.1 messageId, v ∈ TeeKeyManager.getKeys st'.1.keyManager .Validator) ∧
    st'.2.state.signatureThreshold.toNat ≤ st.2.state.signatureThreshold.toNat

/-- Over every pre-check of a pre-module and every unwrapping call the list of pre-modules stays as
it is and, if the module was asked before, what it has counted stands. -/
def Undisturbed : ExtCall → World × Record → ExtResult → World × Record → Prop
  | .check m i .PreExecution _ _, st, _, st' =>
      st'.1.bridge.preModules = st.1.bridge.preModules ∧
        (T ∈ st.1.bridge.preModules.values.takeWhile (· ≠ m) → Stands i st st')
  | .withdraw i _, st, _, st' =>
      st'.1.bridge.preModules = st.1.bridge.preModules ∧
        (T ∈ st.1.bridge.preModules.values → Stands i st st')
  | _, _, _, _ => True

def Enough (messageId : Bytes32) (st : World × Record) : Prop :=
  st.2.state.signatureThreshold.toNat ≤ (signers st.1 messageId).length

/-- A message that was executed with the module as a pre-module had enough recorded signatures. -/
structure Counted (st : World × Record) : Prop where
  recorded : ∀ i, st.1.stage i = .Completed → (st.2.executed i).isSome
  enough : ∀ i w threshold, st.2.executed i = some (w, threshold) →
    T ∈ w.bridge.preModules.values → threshold.toNat ≤ (signers w i).length

/-- Records are not lost, nor are signatures. -/
structure Grown (st st' : World × Record) : Prop where
  executed : ∀ i, (st.2.executed i).isSome → (st'.2.executed i).isSome
  signed : ∀ i v, st.1.bridge.validatorSignatures i v = true →
    st'.1.bridge.validatorSignatures i v = true

/-- What is known at each point of a session. -/
def Known (messageId : Bytes32) : Point → World × Record → Prop
  | .checking _ total agreed, st =>
      Tracks st.1.bridge.preModules total agreed ∧ (T ∈ agreed → Enough messageId st)
  | .cleared, st => T ∈ st.1.bridge.preModules.values → Enough messageId st
  | .executing, st | .calling, st | .called, st | .concluding _ _ _, st =>
      (st.2.executed messageId).isSome

theorem grown_refl (st : World × Record) : Grown st st := ⟨fun _ h => h, fun _ _ h => h⟩

theorem grown_trans (a b c : World × Record) (h : Grown a b) (h' : Grown b c) : Grown a c :=
  ⟨fun i hi => h'.executed i (h.executed i hi), fun i v hv => h'.signed i v (h.signed i v hv)⟩

variable {T}

theorem enough_of_stands (messageId : Bytes32) (st st' : World × Record) (h : Enough messageId st)
    (grown : Grown st st') (stands : Stands messageId st st') : Enough messageId st' := by
  have nodup : (signers st.1 messageId).Nodup := st.1.keyManager.validatorKeys.nodup.filter _
  have included : signers st.1 messageId ⊆ signers st'.1 messageId := by
    intro v hv
    exact List.mem_filter.mpr ⟨stands.1 v hv, grown.signed _ v (List.mem_filter.mp hv).2⟩
  calc st'.2.state.signatureThreshold.toNat
      ≤ st.2.state.signatureThreshold.toNat := stands.2
    _ ≤ (signers st.1 messageId).length := h
    _ ≤ (signers st'.1 messageId).length := (nodup.subperm included).length_le

/-- A step that writes no record. The stages of messages that are not completed by it may move. -/
theorem counted_step (w w' : World) (t t' : Record) (h : Counted T (w, t))
    (executed : t'.executed = t.executed)
    (signed : ∀ i v, w.bridge.validatorSignatures i v = true →
      w'.bridge.validatorSignatures i v = true)
    (stages : ∀ i, w'.stage i = .Completed → w.stage i = .Completed ∨ (t.executed i).isSome) :
    Counted T (w', t') ∧ Grown (w, t) (w', t') := by
  refine ⟨⟨?_, ?_⟩, ?_, signed⟩
  · intro i hi
    change (t'.executed i).isSome
    rw [executed]
    rcases stages i hi with before | known
    · exact h.recorded i before
    · exact known
  · intro i w₁ threshold hi
    change t'.executed i = _ at hi
    rw [executed] at hi
    exact h.enough i w₁ threshold hi
  · intro i hi
    change (t'.executed i).isSome
    rw [executed]
    exact hi

/-- The store moves, the records do not. -/
theorem counted_same (w w' : World) (t : Record) (h : Counted T (w, t))
    (signed : ∀ i v, w.bridge.validatorSignatures i v = true →
      w'.bridge.validatorSignatures i v = true)
    (states : w'.bridge.messageStates = w.bridge.messageStates) :
    Counted T (w', t) ∧ Grown (w, t) (w', t) := by
  refine counted_step w w' t t h rfl signed fun i hi => .inl ?_
  rw [World.stage, states] at hi
  exact hi

theorem counted_staged (i : Bytes32) (stage : ProcessingStage) (w : World) (t : Record)
    (h : Counted T (w, t)) (known : stage = .Completed → (t.executed i).isSome) :
    Counted T (w.staged i stage, t) ∧ Grown (w, t) (w.staged i stage, t) := by
  refine counted_step w _ t t h rfl (fun _ _ hv => hv) fun j hj => ?_
  rw [stage_staged] at hj
  by_cases same : j = i
  · rw [if_pos same] at hj
    rw [same]
    exact .inr (known hj)
  · rw [if_neg same] at hj
    exact .inl hj

theorem counted_executing (i : Bytes32) (w : World) (t : Record) (h : Counted T (w, t))
    (enough : T ∈ w.bridge.preModules.values → Enough i (w, t)) :
    Fine (Counted T) Grown (Known T i .executing) (w, t) (w, module.note (.executing i) w t) := by
  have written (j : Bytes32) : (module.note (.executing i) w t).executed j =
      if j = i then some (w, t.state.signatureThreshold) else t.executed j := by
    by_cases same : j = i
    · subst same
      simp [module]
    · simp [module, same]
  have kept (j : Bytes32) (hj : (t.executed j).isSome) :
      ((module.note (.executing i) w t).executed j).isSome := by
    rw [written]
    split
    · rfl
    · exact hj
  refine ⟨⟨fun j hj => kept j (h.recorded j hj), ?_⟩, ⟨kept, fun _ _ hv => hv⟩, ?_⟩
  · intro j w₁ threshold hj active
    change (module.note (.executing i) w t).executed j = _ at hj
    rw [written] at hj
    split at hj
    · rename_i same
      subst same
      cases hj
      exact enough active
    · exact h.enough j w₁ threshold hj active
  · change ((module.note (.executing i) w t).executed i).isSome
    rw [written, if_pos rfl]
    rfl

/-- The check of the module itself: when it passes, enough signatures are recorded. -/
theorem passes_check (i : Bytes32) (payload p : Bytes) (s : SequencerSignature) (total : Nat)
    (agreed : List Address) (m : Address) :
    Passes (module.install T) (Counted T) Grown (Undisturbed T) (.check m i .PreExecution p s)
      (fun data => decodeBool data = some true)
      (fun st => st.1.bridge.preModules.atIndex agreed.length = some m ∧
        Known T i (.checking payload total agreed) st)
      (Known T i (.checking payload total (agreed ++ [m]))) := by
  by_cases own : m = T
  · subst own
    refine passes_served (fun st => (returnBool (check st.1 st.2.state i .PreExecution), st.2))
      (fun st => congrFun (module.ext_own m i .PreExecution p s) st) grown_trans ?_
    intro st data counted here returned accepted
    have passed := decodeBool_returnBool _ data returned accepted
    exact ⟨counted, grown_refl st, tracks_next _ _ _ m here.2.1 here.1,
      fun _ => check_signers st.1 st.2.state i passed⟩
  · refine passes_call (fun _ t => t)
      (fun st => congrFun (module.ext_other T m own i .PreExecution p s) st) ?_
    intro st data st' _ here counted grown undisturbed _
    obtain ⟨found, tracks, enough⟩ := here
    obtain ⟨same, stands⟩ := undisturbed
    refine ⟨counted, grown_refl _, ?_, ?_⟩
    · change Tracks st'.1.bridge.preModules total (agreed ++ [m])
      rw [same]
      exact tracks_next _ _ _ m tracks found
    · intro asked
      have before : T ∈ agreed := by
        rcases List.mem_append.mp asked with before | last
        · exact before
        · exact absurd (List.mem_singleton.mp last).symm own
      rw [takeWhile_tracks _ _ _ m tracks found] at stands
      exact enough_of_stands i st st' (enough before) grown (stands before)

/-- A call that nothing is asked of. -/
theorem passes_known (c : ExtCall) (accepted : Bytes → Prop) (i : Bytes32) (p p' : Point)
    (hx : ∀ st, (module.install T).ext c st = .call c st fun r st' => .ret r (st'.1, st'.2))
    (hp : ∀ st, Known T i p st → (st.2.executed i).isSome)
    (hp' : ∀ st, (st.2.executed i).isSome → Known T i p' st) :
    Passes (module.install T) (Counted T) Grown (Undisturbed T) c accepted (Known T i p)
      (Known T i p') := by
  refine passes_call (fun _ t => t) hx ?_
  intro st data st' _ here counted grown _ _
  exact ⟨counted, grown_refl _, hp' st' (grown.executed i (hp st here))⟩

theorem drift_counted (d : Drift ⊕ Empty) (st : World × Record) (counted : Counted T st) :
    Counted T ((module.install T).drift d st) ∧ Grown st ((module.install T).drift d st) := by
  cases d with
  | inl d =>
    refine counted_same st.1 _ st.2 counted ?_
      (congrArg BridgeState.messageStates (drift_bridge d st.1))
    intro i v signed
    rw [drift_bridge]
    exact signed
  | inr d => cases d

theorem idle_counted (c : ExtCall) (hc : Idle c) (b st : World × Record) (counted : Counted T st)
    (grown : Grown b st) :
    Owes (Counted T) Grown (Undisturbed T) (fun b' _ st' => Counted T st' ∧ Grown b' st') b
      ((module.install T).ext c st) := by
  rw [Module.install_idle _ _ c hc]
  exact ⟨⟨counted, grown⟩, fun r st' answered => ⟨answered.1, grown_refl st'⟩⟩

theorem counted_initiated (w : World) (t : Record) (i : Bytes32) (target : Address)
    (payload : Bytes) (signature : SequencerSignature) (amount : UInt256) (sender signer : Address)
    (counted : Counted T (w, t)) :
    Counted T (w.initiated i target payload signature amount sender signer, t) ∧
      Grown (w, t) (w.initiated i target payload signature amount sender signer, t) := by
  refine counted_step w _ t t counted rfl (fun _ _ hv => hv) fun j hj => .inl ?_
  by_cases same : j = i
  · subst same
    simp [World.stage, World.initiated, storeMessage] at hj
  · simpa [World.stage, World.initiated, storeMessage, same] using hj

/-- Moves that leave the bridge and the keys alone change nothing of what is known. -/
theorem known_same (i : Bytes32) (p : Point) (w w' : World) (t : Record) (same : SameBridge w w')
    (known : Known T i p (w, t)) : Known T i p (w', t) := by
  cases p with
  | checking payload total agreed =>
    simp only [Known, Enough, signers] at known ⊢
    rw [same.bridge, same.keyManager]
    exact known
  | cleared =>
    simp only [Known, Enough, signers] at known ⊢
    rw [same.bridge, same.keyManager]
    exact known
  | executing => exact known
  | calling => exact known
  | called => exact known
  | concluding payload total agreed => exact known

theorem counted_cleared (i : Bytes32) (payload : Bytes) (agreed : List Address) (w : World)
    (t : Record) (counted : Counted T (w, t))
    (known : Known T i (.checking payload agreed.length agreed) (w, t)) :
    Fine (Counted T) Grown (Known T i .cleared) (w, t) (w.staged i .Executing, t) := by
  obtain ⟨holds, grown⟩ := counted_staged i .Executing w t counted (by intro h; cases h)
  refine ⟨holds, grown, ?_⟩
  intro active
  rw [tracks_all _ _ known.1] at known
  exact known.2 active

/-- The signatures still count when the amount of the message has been unwrapped. -/
theorem passes_withdraw (i : Bytes32) (amount : UInt256) :
    Passes (module.install T) (Counted T) Grown (Undisturbed T) (.withdraw i amount)
      (fun _ => True) (Known T i .cleared) (Known T i .cleared) := by
  refine passes_call (fun _ t => t) (fun _ => rfl) ?_
  intro st data st' _ here counted grown undisturbed _
  refine ⟨counted, grown_refl _, ?_⟩
  intro active
  change T ∈ st'.1.bridge.preModules.values at active
  rw [undisturbed.1] at active
  exact enough_of_stands i st st' (here active) grown (undisturbed.2 active)

/-- A post-check, of the module itself or of another one. -/
theorem passes_post (i : Bytes32) (payload : Bytes) (signature : SequencerSignature) (total : Nat)
    (agreed : List Address) (m : Address) :
    Passes (module.install T) (Counted T) Grown (Undisturbed T)
      (.check m i .PostExecution payload signature) (fun data => decodeBool data = some true)
      (fun st => st.1.bridge.postModules.atIndex agreed.length = some m ∧
        Known T i (.concluding payload total agreed) st)
      (Known T i (.concluding payload total (agreed ++ [m]))) := by
  by_cases own : m = T
  · subst own
    refine passes_served (fun st => (returnBool (check st.1 st.2.state i .PostExecution), st.2))
      (fun st => congrFun (module.ext_own m i .PostExecution payload signature) st) grown_trans ?_
    intro st data counted here _ _
    exact ⟨counted, grown_refl st, here.2⟩
  · refine passes_call (fun _ t => t)
      (fun st => congrFun (module.ext_other T m own i .PostExecution payload signature) st) ?_
    intro st data st' _ here counted grown _ _
    exact ⟨counted, grown_refl _, grown.executed i here.2⟩

variable (D : Deployment)

/-- The condition on a run. -/
abbrev Orderly : Machine (World × Record) ExtCall ExtResult Error (Entry ⊕ Call) →
    Event ExtResult (Entry ⊕ Call) (Drift ⊕ Empty) → Prop :=
  Meets (extended D (module.install T)) (Undisturbed T)

theorem duties : Duties D (module.install T) (Counted T) Grown (Undisturbed T)
    (Orderly (T := T) D) (Known T) where
  refl := grown_refl
  trans := grown_trans
  meets := fun _ _ h => h
  drift := fun m d _ counted => drift_counted d m.store counted
  own := by
    intro m c t _ called counted
    obtain ⟨st, _, rfl⟩ := Option.map_eq_some_iff.mp called
    exact counted_step m.store.1 m.store.1 m.store.2 _ counted rfl (fun _ _ hv => hv)
      fun i hi => .inl hi
  administered := fun w w' t moved counted => counted_same w w' t counted moved.signed moved.states
  idle := fun c hc b st counted grown => idle_counted c hc b st counted grown
  initialized := fun w t i target payload signature amount sender signer counted _ _ _ _ =>
    counted_initiated w t i target payload signature amount sender signer counted
  kept := fun i p w w' t same known => known_same i p w w' t same known
  starting := by
    intro i w t counted _
    exact ⟨counted, grown_refl _, tracks_nil _, fun asked => absurd asked List.not_mem_nil⟩
  preCheck := fun i payload signature total agreed m =>
    passes_check i payload payload signature total agreed m
  cleared := fun i payload agreed w t counted known =>
    counted_cleared i payload agreed w t counted known
  withdraw := fun i amount => passes_withdraw i amount
  executing := fun i w t counted known => counted_executing i w t counted known
  calling := by
    intro i w t counted known
    obtain ⟨holds, grown⟩ := counted_same w (w.calling i) t counted (fun _ _ hv => hv) rfl
    exact ⟨holds, grown, known⟩
  target := fun i t v p =>
    passes_known _ _ i .calling .called (fun _ => rfl) (fun _ h => h) (fun _ h => h)
  ownTarget := fun _ _ _ _ known => known
  answered := by
    intro i data w t counted known
    obtain ⟨holds, grown⟩ := counted_staged i .PostExecution w t counted (by intro h; cases h)
    exact ⟨holds, grown, known⟩
  postCheck := fun i payload signature total agreed m => passes_post i payload signature
    total agreed m
  completed := fun i payload agreed w t counted known =>
    counted_staged i .Completed w t counted fun _ => known

/-- In every run in which nobody interferes between the check of the module and the target call:
a completed message that was executed with the module as a pre-module, at a time when no
registered validator who had signed it was expired, was signed by enough valid validators. -/
theorem completed_approved (owner verifier : Address) (timestamp : UInt256) (views : Views)
    (state : State) (es : List (Event ExtResult (Entry ⊕ Call) (Drift ⊕ Empty)))
    (m : Machine (World × Record) ExtCall ExtResult Error (Entry ⊕ Call))
    (hm : run (extended D (module.install T))
      (boot (genesis D owner verifier timestamp views, ⟨state, fun _ => none⟩)) es = some m)
    (orderly : Throughout (extended D (module.install T)) (Orderly (T := T) D)
      (boot (genesis D owner verifier timestamp views, ⟨state, fun _ => none⟩)) es) :
    ∀ st, st = m.store ∨ st = m.committed → ∀ i, st.1.stage i = .Completed →
      ∃ w threshold, st.2.executed i = some (w, threshold) ∧
        (T ∈ w.bridge.preModules.values → NoneExpired w i → Approved w i threshold) := by
  have start : Counted T (genesis D owner verifier timestamp views, ⟨state, fun _ => none⟩) := by
    refine ⟨?_, ?_⟩
    · intro i hi
      simp [World.stage, genesis, BridgeState.deploy, MessageState.empty] at hi
    · intro i w threshold h
      cases h
  have kept := run_kept (extended_guarantees (duties_obligations (duties D))) _ m es
    (boot_kept _ start) orderly hm
  have verdict (st : World × Record) (counted : Counted T st) (i : Bytes32)
      (completed : st.1.stage i = .Completed) :
      ∃ w threshold, st.2.executed i = some (w, threshold) ∧
        (T ∈ w.bridge.preModules.values → NoneExpired w i → Approved w i threshold) := by
    obtain ⟨⟨w, threshold⟩, recorded⟩ := Option.isSome_iff_exists.mp (counted.recorded i completed)
    refine ⟨w, threshold, recorded, fun active none => ?_⟩
    exact approved_of_signers w i threshold (counted.enough i w threshold recorded active) none
  intro st hst
  rcases hst with rfl | rfl
  · exact verdict m.store kept.holds
  · exact verdict m.committed (kept_committed m kept)

end Runs

/-- One validator signs the plain message, and the module at `0x60` asks for one signature. -/
def sampleState : State := ⟨0x0A, 1, by decide⟩

def sampleValidator : Address := 0x5A

/-- The validator is registered and signs; its key is given an expiry, which passes or not, and
the message is handled. -/
def sampleEvents (expiresAt : UInt256) : List (Event ExtResult Entry Drift) :=
  plainMessage.setup ++
  [.enter (.bridge 0x0A (.addPreModule 0x60)),
   .enter (.bridge 0x0A (.registerKey .Validator (word (sampleValidator.setWidth 256)) [])),
   .enter (.bridge 0x0A (.setKeyExpiration sampleValidator expiresAt)),
   .enter (.bridge sampleValidator (.signMessage 1)),
   .drift (.elapse 100),
   .enter (.bridge 0x77 (.handleMessage 1)),
   .answer (.returned [])]

def sampleRun (expiresAt : UInt256) : List (Event ExtResult (Entry ⊕ Call) (Drift ⊕ Empty)) :=
  (sampleEvents expiresAt).map Module.beside

def sampleStart : World × Record := (plainMessage.genesis, ⟨sampleState, fun _ => none⟩)

theorem completed_approved_sample :
    ∃ m, run (extended plainMessage.deployment (module.install 0x60)) (boot sampleStart)
        (sampleRun 1700000200) = some m ∧
      m.committed.1.stage 1 = .Completed ∧
      ∃ w, m.committed.2.executed 1 = some (w, 1) ∧ Approved w 1 1 := by
  have outcome : (run (extended plainMessage.deployment (module.install 0x60)) (boot sampleStart)
      (sampleRun 1700000200)).map (fun m => (m.committed.1.stage 1,
        (m.committed.2.executed 1).map fun p => (p.2, p.1.bridge.preModules.values,
          (signers p.1 1).map fun v => TeeKeyManager.expired p.1.timestamp p.1.keyManager v))) =
      some (.Completed, some (1, [0x60], [false])) := by
    decide +kernel
  have along : Along (extended plainMessage.deployment (module.install 0x60))
      Module.answersTargets (boot sampleStart) (sampleRun 1700000200) := by
    decide +kernel
  obtain ⟨m, hm, values⟩ := Option.map_eq_some_iff.mp outcome
  obtain ⟨completed, values⟩ := Prod.mk.inj values
  obtain ⟨⟨w, threshold⟩, recorded, values⟩ := Option.map_eq_some_iff.mp values
  obtain ⟨rfl, values⟩ := Prod.mk.inj values
  obtain ⟨active, fresh⟩ := Prod.mk.inj values
  have orderly := throughout_of_along
    (Module.meets_of_targets module 0x60 plainMessage.deployment (Undisturbed 0x60)
      fun _ _ _ _ _ _ _ => trivial) _ _ along
  obtain ⟨w', threshold', recorded', approved⟩ := completed_approved plainMessage.deployment 0x0A
    0xA7 1700000000 sampleViews sampleState _ m hm orderly m.committed (.inr rfl) 1 completed
  obtain ⟨rfl, rfl⟩ := Prod.mk.inj (Option.some.inj (recorded.symm.trans recorded'))
  refine ⟨m, hm, completed, w, recorded, approved (by rw [active]; decide) ?_⟩
  intro v hv
  have value := List.mem_map_of_mem (f := fun v =>
    TeeKeyManager.expired w.timestamp w.keyManager v) hv
  rw [fresh] at value
  exact List.mem_singleton.mp value

/-- The key of the only signer has expired, and the message is executed. -/
theorem expired_signature_counts :
    ∃ m, run (extended plainMessage.deployment (module.install 0x60)) (boot sampleStart)
        (sampleRun 1700000050) = some m ∧
      m.committed.1.stage 1 = .Completed ∧
      ∃ w, m.committed.2.executed 1 = some (w, 1) ∧ 0x60 ∈ w.bridge.preModules.values ∧
        ¬ Approved w 1 1 := by
  have outcome : (run (extended plainMessage.deployment (module.install 0x60)) (boot sampleStart)
      (sampleRun 1700000050)).map (fun m => (m.committed.1.stage 1,
        (m.committed.2.executed 1).map fun p => (p.2, p.1.bridge.preModules.values,
          ((signers p.1 1).filter fun v =>
            !TeeKeyManager.expired p.1.timestamp p.1.keyManager v).length))) =
      some (.Completed, some (1, [0x60], 0)) := by
    decide +kernel
  obtain ⟨m, hm, values⟩ := Option.map_eq_some_iff.mp outcome
  obtain ⟨completed, values⟩ := Prod.mk.inj values
  obtain ⟨⟨w, threshold⟩, recorded, values⟩ := Option.map_eq_some_iff.mp values
  obtain ⟨rfl, values⟩ := Prod.mk.inj values
  obtain ⟨active, none⟩ := Prod.mk.inj values
  refine ⟨m, hm, completed, w, recorded, by rw [active]; decide, ?_⟩
  rw [approved_iff, none]
  decide

end ValidatorSignatureThresholdModule

end SyndDB.Contracts
