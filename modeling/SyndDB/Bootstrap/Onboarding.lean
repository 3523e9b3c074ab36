import SyndDB.Bootstrap.StateMachine
import SyndDB.Contracts.KeyRegistry
import SyndDB.Framework.Interpretation
import SyndDB.Relayer.Allowlist

namespace SyndDB.Bootstrap.Onboarding

open Octets Text Attempts Resumption StateMachine
open Contracts (Address Bytes32 Deployment ExtCall ExtResult KeyType UInt256 World checkedAdd word)
open Contracts.TeeKeyManager (_getKeySet addKeyWithSignature Call Config Context dispatch insertKey
  insertKey_accepts insertKey_bridge insertKey_effect isKeyValid KeyTable onlyBridge require
    require_iff SignedRegistration State
  verifyKeySignature_iff verifyProof_iff)
open Relayer (Admitted Answer RelayerConfig RelayerSubmitter checkRequest hexText0x
  submitAdmitted)

structure Node where
  deployment : Deployment
  /-- How the error of a call that reverts is displayed. -/
  display : Contracts.Error → String
  foreign : ExtCall → World → ExtResult × World
  txHash : World → Bytes32

def isInvalidPublicKeyError (errStr : String) : Bool :=
  contains errStr "InvalidPublicKey" || contains errStr "0xffc44e88"

namespace Node

variable (node : Node)

def isKeyValid (w : World) (keyType : KeyType) (address : Address) : Except String Bool :=
  match Contracts.TeeKeyManager.isKeyValid w.timestamp w.keyManager keyType address with
  | .ok _ => .ok true
  | .error e =>
      let text := node.display (.KeyManager e)
      if isInvalidPublicKeyError text then .ok false else .error text

/-- A transaction `registerKeyWithSignature`. -/
def transact (w : World) (keyType : KeyType) (publicValues proofBytes : Bytes) (deadline : UInt64)
    (signature : Bytes) : Except Contracts.Error World :=
  ((Contracts.registerKeyWithSignature node.deployment keyType publicValues proofBytes
    (BitVec.ofNat 256 deadline.toNat) signature w).finish node.foreign).map Prod.snd

/-- The relayer recognises how the node displays the revert of `isKeyValid` for a key that is
not registered. -/
def Displays : Prop :=
  ∀ key, isInvalidPublicKeyError (node.display (.KeyManager (.InvalidPublicKey key))) = true

end Node

/-- What happens around an attempt. Others change the chain before the relayer asks about the key,
before it sends its transaction, and before that is mined. -/
structure Turn where
  clientNow : UInt64
  relayerNow : UInt64
  identityToken : Except String Unit
  arrives : Bool
  answered : Bool
  /-- The error of a request or an answer that is lost. -/
  lost : String
  before : World → World
  asked : World → World
  sent : World → World
  mined : Bool
  /-- The receipt is there before the timeout. -/
  confirmed : Bool

namespace Turn

variable (node : Node) (config : RelayerConfig) (turn : Turn) (w : World)

/-- What the relayer finds. A transaction is estimated before it is sent. -/
def submitter (r : Admitted) : RelayerSubmitter where
  isKeyValid := node.isKeyValid (turn.before w)
  registerKey keyType publicValues proofBytes deadline signature :=
    let w := turn.asked (turn.before w)
    ((node.transact w keyType publicValues proofBytes deadline signature).mapError node.display).map
      fun _ => node.txHash w
  waitForConfirmation txHash :=
    if turn.mined && turn.confirmed then
      ((node.transact (turn.sent (turn.asked (turn.before w))) r.keyType r.publicValues
        r.proofBytes r.deadline r.signature).mapError
          fun _ => "Transaction reverted: " ++ hexText0x (word txHash)).map fun _ => ()
    else .error ("Timeout waiting for tx confirmation after " ++
      toString config.txConfirmationTimeout ++ "s: " ++ hexText0x (word txHash))

def sends (r : Admitted) : Bool :=
  match (turn.submitter node config w r).isKeyValid r.keyType r.attestation.teeSigningKey with
  | .ok false =>
      ((turn.submitter node config w r).registerKey r.keyType r.publicValues r.proofBytes r.deadline
        r.signature).isOk
  | _ => false

/-- The chain after a request that was admitted, and how many transactions of the
relayer took effect. -/
def after (r : Admitted) : World × Nat :=
  let w' := turn.sent (turn.asked (turn.before w))
  if turn.sends node config w r && turn.mined then
    match node.transact w' r.keyType r.publicValues r.proofBytes r.deadline r.signature with
    | .ok w'' => (w'', 1)
    | .error _ => (w', 0)
  else (w', 0)

def handle (request : Relayer.RegisterKeyRequest) : Answer × World × Nat :=
  match checkRequest config turn.relayerNow request with
  | .error answer => (answer, turn.before w, 0)
  | .ok r => (submitAdmitted (turn.submitter node config w r) r, turn.after node config w r)

end Turn

/-- What the relayer reads from the body of a request. -/
def received (request : RegisterKeyRequest) : Relayer.RegisterKeyRequest :=
  let text (bytes : Bytes) : String := (String.fromUTF8? ⟨bytes.toArray⟩).getD ""
  ⟨text request.publicValues, text request.proofBytes, request.deadline, text request.signature,
    request.keyType⟩

/-- The network between a client and the relayer. -/
structure Link where
  schedule : Nat → Turn
  /-- The status and the body of an answer. -/
  display : Answer → String

def Link.readResponse (link : Link) (answer : Answer) : Except StateMachine.BootstrapError Unit :=
  if ¬(200 ≤ answer.1 ∧ answer.1 < 300) then
    .error (.ContractSubmissionFailed ("Relayer returned " ++ link.display answer))
  else
    match answer.2.error with
    | some error => .error (.ContractSubmissionFailed ("Relayer error: " ++ error))
    | none => .ok ()

structure Net where
  chain : World
  attempts : Nat
  /-- How many transactions of the relayer took effect. -/
  effects : Nat

/-- `RelayerClient::register_key`, with what becomes of its request. -/
def registerKey (node : Node) (config : RelayerConfig) (link : Link) (client : RelayerClient)
    (signer : PrivateKeySigner) (publicValues proofBytes : String) (keyType : KeyType) :
    EStateM StateMachine.BootstrapError Net Unit := fun net =>
  let turn := link.schedule net.attempts
  let unhandled : Net := ⟨turn.before net.chain, net.attempts + 1, net.effects⟩
  match client.registerKey node.deployment.crypto signer turn.clientNow (utf8 publicValues)
      (utf8 proofBytes) keyType, turn.identityToken with
  | .error (.Config message), _ => .error (.Config message) unhandled
  | .ok _, .error message => .error (.ContractSubmissionFailed message) unhandled
  | .ok request, .ok () =>
      if turn.arrives then
        let (answer, chain, effects) := turn.handle node config net.chain (received request)
        let handled : Net := ⟨chain, net.attempts + 1, net.effects + effects⟩
        if turn.answered then
          match link.readResponse answer with
          | .error e => .error e handled
          | .ok () => .ok () handled
        else .error (.ContractSubmissionFailed turn.lost) handled
      else .error (.ContractSubmissionFailed turn.lost) unhandled

/-- The services of a run, with registrations sent over the network. -/
def overNetwork (node : Node) (config : RelayerConfig) (link : Link) (env : Environment Net) :
    Environment Net :=
  { env with registerKey := registerKey node config link, sleep := fun _ net => net }

section Chain

def Enrolled (keyType : KeyType) (key : Address) (w : World) : Prop :=
  (_getKeySet w.keyManager keyType).contains key = true

/-- The chain takes registrations of the key without approval, and lets no registered key expire. -/
structure Good (D : Deployment) (keyType : KeyType) (publicValues proofBytes : Bytes)
    (key : Address) (w : World) : Prop where
  linked : w.bridge.teeKeyManager = D.keyManager ∧ w.keyManager.bridge = D.bridge
  unrestricted : w.bridge.keyRegistrationRestricted keyType = false
  attested : w.views.verifyAttestationProof w.keyManager.attestationVerifier publicValues
    proofBytes = some key
  expiry : w.bridge.defaultKeyExpiration = 0 ∨
    ∃ expiresAt, checkedAdd w.timestamp w.bridge.defaultKeyExpiration = some expiresAt
  lasting : Enrolled keyType key w → isKeyValid w.timestamp w.keyManager keyType key = .ok true

variable {D : Deployment} {keyType : KeyType} {publicValues proofBytes : Bytes} {key : Address}
  {w : World}

theorem decodeKey_word (key : Address) (w : World) :
    Contracts.decodeKey (word (key.setWidth 256)) w = .ret key w := by
  have small : key.toNat < 2 ^ 256 := lt_trans key.isLt (by decide)
  have length : (word (key.setWidth 256)).length = 32 := length_bigEndian 32 _
  have value : fromBigEndian ((word (key.setWidth 256)).take 32) = key.toNat := by
    rw [List.take_of_length_le (le_of_eq length), word, BitVec.toNat_setWidth,
      Nat.mod_eq_of_lt small]
    exact fromBigEndian_bigEndian 32 _ (lt_of_lt_of_eq small (by norm_num))
  have decoded : Contracts.decodeAddress (word (key.setWidth 256)) = some key := by
    rw [Contracts.decodeAddress, Contracts.decodeWord, if_neg (by omega), value]
    change (if key.toNat < 2 ^ 160 then some (BitVec.ofNat 160 key.toNat) else none) = some key
    rw [if_pos key.isLt, BitVec.ofNat_toNat, BitVec.setWidth_eq]
  unfold Contracts.decodeKey
  rw [decoded]
  rfl

theorem runKeyManager_reads (D : Deployment) (sender : Address) (call : Call) (w : World) :
    Contracts.runKeyManager D sender call w =
      match dispatch D.crypto D.keyManagerConfig (Contracts.keyManagerContext sender w)
        w.keyManager call with
      | .error e => .revert (.KeyManager e)
      | .ok (data, keyManager) => .ret data { w with keyManager := keyManager } := by
  change (match dispatch D.crypto D.keyManagerConfig (Contracts.keyManagerContext sender w)
    w.keyManager call with
    | .error e => Code.revert (.KeyManager e)
    | .ok (data, keyManager) => do
        Code.modify fun w => { w with keyManager := keyManager }
        return data : Contracts.M Bytes) w = _
  cases dispatch D.crypto D.keyManagerConfig (Contracts.keyManagerContext sender w)
    w.keyManager call with
  | error e => rfl
  | ok r => rfl

theorem callKeyManager_linked (linked : w.bridge.teeKeyManager = D.keyManager) (call : Call) :
    Contracts.callKeyManager D call w = Contracts.runKeyManager D D.bridge call w := by
  change (if w.bridge.teeKeyManager = D.keyManager then Contracts.runKeyManager D D.bridge call
    else _) w = _
  rw [if_pos linked]

theorem registrationExpiry_good (good : Good D keyType publicValues proofBytes key w) :
    ∃ expiresAt, Contracts.registrationExpiry w = .ret expiresAt w ∧
      (expiresAt = 0 ∨ ¬expiresAt < w.timestamp) := by
  have reads : Contracts.registrationExpiry w =
      if w.bridge.defaultKeyExpiration = 0 then .ret 0 w
      else (checkedAdd w.timestamp w.bridge.defaultKeyExpiration).elim (.revert .ArithmeticOverflow)
        fun expiresAt => .ret expiresAt w := by
    change (if w.bridge.defaultKeyExpiration = 0 then (pure 0 : Contracts.M UInt256) else _) w = _
    split
    · rfl
    · cases checkedAdd w.timestamp w.bridge.defaultKeyExpiration with
      | some expiresAt => rfl
      | none => rfl
  by_cases unlimited : w.bridge.defaultKeyExpiration = 0
  · exact ⟨0, by rw [reads, if_pos unlimited], .inl rfl⟩
  · obtain ⟨expiresAt, added⟩ := good.expiry.resolve_left unlimited
    refine ⟨expiresAt, by rw [reads, if_neg unlimited, added, Option.elim_some], .inr ?_⟩
    have sum := Contracts.checkedAdd_some _ _ _ added
    rw [BitVec.lt_def, sum]
    omega

/-- A registration that passes all checks but the last one. -/
theorem addKeyWithSignature_passed (X : Contracts.Crypto) (cfg : Config) (ctx : Context)
    (st : State)
    (c : SignedRegistration) (sender : ctx.sender = st.bridge) (time : ¬c.deadline < ctx.timestamp)
    (attested : ctx.verifyAttestationProof st.attestationVerifier c.publicValues c.proofBytes =
      some key)
    (signed : X.recover (c.digest X cfg) c.signature = some key) :
    addKeyWithSignature X cfg ctx st c.keyType c.publicValues c.proofBytes c.deadline c.signature
      c.requiresApproval c.expiresAt =
    (insertKey st c.keyType key c.requiresApproval c.expiresAt).map fun st' => (key, st') := by
  have caller : onlyBridge ctx st = .ok () := by
    rw [onlyBridge, require_iff]
    exact decide_eq_true sender
  have early : require (!(c.deadline < ctx.timestamp)) .SignatureExpired = .ok () := by
    rw [require_iff]
    simpa using time
  rw [addKeyWithSignature, caller, Outcome.ok_bind, early, Outcome.ok_bind,
    (verifyProof_iff _ _ _ _ _).mpr attested, Outcome.ok_bind,
    (verifyKeySignature_iff X cfg c key).mpr signed,
    Outcome.ok_bind]
  cases insertKey st c.keyType key c.requiresApproval c.expiresAt with
  | ok st' => rfl
  | error e => rfl

/-- The signature is one of the key, for the digest of the key manager. -/
def Signed (D : Deployment) (publicValues proofBytes : Bytes) (key : Address) (deadline : UInt64)
    (signature : Bytes) : Prop :=
  ∀ c : SignedRegistration, c.publicValues = publicValues → c.proofBytes = proofBytes →
    c.deadline = BitVec.ofNat 256 deadline.toNat →
    D.crypto.recover (c.digest D.crypto D.keyManagerConfig) signature = some key

variable {node : Node} {deadline : UInt64} {signature : Bytes}

/-- The call of the bridge comes down to the insertion of the key. -/
theorem registerKeyWithSignature_good
    (good : Good node.deployment keyType publicValues proofBytes key w)
    (time : w.timestamp.toNat ≤ deadline.toNat)
    (signed : Signed node.deployment publicValues proofBytes key deadline signature) :
    ∃ expiresAt, (expiresAt = 0 ∨ ¬expiresAt < w.timestamp) ∧
      Contracts.registerKeyWithSignature node.deployment keyType publicValues proofBytes
          (BitVec.ofNat 256 deadline.toNat) signature w =
        match insertKey w.keyManager keyType key false expiresAt with
        | .ok keyManager => .ret key { w with keyManager := keyManager }
        | .error e => .revert (.KeyManager e) := by
  obtain ⟨expiresAt, reads, late⟩ := registrationExpiry_good good
  refine ⟨expiresAt, late, ?_⟩
  obtain ⟨linked, sender⟩ := good.linked
  let c : SignedRegistration :=
    ⟨keyType, publicValues, proofBytes, BitVec.ofNat 256 deadline.toNat, signature, false,
      expiresAt⟩
  have early : ¬c.deadline < w.timestamp := by
    have small : deadline.toNat < 2 ^ 256 := lt_trans deadline.toNat_lt (by decide)
    rw [BitVec.lt_def, BitVec.toNat_ofNat, Nat.mod_eq_of_lt small]
    omega
  have passed := addKeyWithSignature_passed node.deployment.crypto node.deployment.keyManagerConfig
    (Contracts.keyManagerContext node.deployment.bridge w) w.keyManager c sender.symm early
      good.attested
    (signed c rfl rfl rfl)
  have dispatched : dispatch node.deployment.crypto node.deployment.keyManagerConfig
      (Contracts.keyManagerContext node.deployment.bridge w) w.keyManager
      (.addKeyWithSignature keyType publicValues proofBytes (BitVec.ofNat 256 deadline.toNat)
        signature false expiresAt) =
      (insertKey w.keyManager keyType key false expiresAt).map
        fun keyManager => (word (key.setWidth 256), keyManager) := by
    rw [dispatch, passed]
    cases insertKey w.keyManager keyType key false expiresAt with
    | ok keyManager => rfl
    | error e => rfl
  change Resume.bind (Contracts.registrationExpiry w) _ = _
  rw [reads]
  change Resume.bind (Contracts.callKeyManager node.deployment
    (.addKeyWithSignature keyType publicValues proofBytes (BitVec.ofNat 256 deadline.toNat)
      signature (w.bridge.keyRegistrationRestricted keyType) expiresAt) w) _ = _
  rw [good.unrestricted, callKeyManager_linked linked, runKeyManager_reads, dispatched]
  cases insertKey w.keyManager keyType key false expiresAt with
  | ok keyManager => exact decodeKey_word key _
  | error e => rfl

theorem transact_good (good : Good node.deployment keyType publicValues proofBytes key w)
    (time : w.timestamp.toNat ≤ deadline.toNat)
    (signed : Signed node.deployment publicValues proofBytes key deadline signature) :
    ∃ expiresAt, (expiresAt = 0 ∨ ¬expiresAt < w.timestamp) ∧
      node.transact w keyType publicValues proofBytes deadline signature =
        ((insertKey w.keyManager keyType key false expiresAt).mapError .KeyManager).map
          fun keyManager => { w with keyManager := keyManager } := by
  obtain ⟨expiresAt, late, called⟩ := registerKeyWithSignature_good good time signed
  refine ⟨expiresAt, late, ?_⟩
  rw [Node.transact, called]
  cases insertKey w.keyManager keyType key false expiresAt with
  | ok keyManager => rfl
  | error e => rfl

theorem isKeyValid_ok (timestamp : UInt256) (st : State)
    (registered : (_getKeySet st keyType).contains key = true)
    (unexpired : st.keyExpiration key = 0 ∨ ¬st.keyExpiration key < timestamp) :
    isKeyValid timestamp st keyType key = .ok true := by
  have live : require (!(st.keyExpiration key ≠ 0 && st.keyExpiration key < timestamp))
      (.KeyExpired key) = .ok () := by
    rw [require_iff]
    rcases unexpired with unlimited | later
    · simp [unlimited]
    · simp [later]
  rw [isKeyValid, (require_iff _ _ ()).mpr registered, Outcome.ok_bind]
  simp only [live, Outcome.ok_bind]
  rfl

/-- A key that is not registered gets registered. -/
theorem transact_new (good : Good node.deployment keyType publicValues proofBytes key w)
    (time : w.timestamp.toNat ≤ deadline.toNat)
    (signed : Signed node.deployment publicValues proofBytes key deadline signature)
    (new : ¬Enrolled keyType key w) :
    ∃ w', node.transact w keyType publicValues proofBytes deadline signature = .ok w' ∧
      Good node.deployment keyType publicValues proofBytes key w' ∧ Enrolled keyType key w' ∧
      w'.timestamp = w.timestamp := by
  obtain ⟨expiresAt, late, transacted⟩ := transact_good good time signed
  obtain ⟨st, inserted⟩ := (insertKey_accepts w.keyManager keyType key false expiresAt).mpr
    (Bool.eq_false_iff.mpr new)
  obtain ⟨-, updated⟩ := insertKey_effect inserted
  have enrolled : (_getKeySet st keyType).contains key = true := by
    have entry := congrFun (congrFun (congrArg KeyTable.registered updated) keyType) key
    exact entry.trans (if_pos ⟨rfl, rfl⟩)
  have expires : st.keyExpiration key = expiresAt :=
    (congrFun (congrArg KeyTable.expiry updated) key).trans (Function.update_self ..)
  have verifier : st.attestationVerifier = w.keyManager.attestationVerifier := by
    obtain ⟨_, -, same⟩ := (Outcome.bind_ok _ _ _).mp inserted
    cases same
    cases keyType with
    | Sequencer => rfl
    | Validator => rfl
  refine ⟨{ w with keyManager := st }, by rw [transacted, inserted]; rfl, ?_, enrolled, rfl⟩
  refine ⟨⟨good.linked.1, (insertKey_bridge inserted).trans good.linked.2⟩, good.unrestricted, ?_,
    good.expiry, ?_⟩
  · rw [verifier]
    exact good.attested
  · intro _
    refine isKeyValid_ok _ st enrolled ?_
    rw [expires]
    exact late

theorem transact_again (good : Good node.deployment keyType publicValues proofBytes key w)
    (time : w.timestamp.toNat ≤ deadline.toNat)
    (signed : Signed node.deployment publicValues proofBytes key deadline signature)
    (enrolled : Enrolled keyType key w) :
    node.transact w keyType publicValues proofBytes deadline signature =
      .error (.KeyManager (.KeyAlreadyExists key)) := by
  obtain ⟨expiresAt, -, transacted⟩ := transact_good good time signed
  have present : (_getKeySet w.keyManager keyType).contains key = true := enrolled
  rw [transacted, insertKey]
  simp only [present, Bool.not_true, require]
  rfl

end Chain

section Attempt

variable (D : Deployment) (keyType : KeyType) (publicValues proofBytes : Bytes) (key : Address)

/-- A change by others, not after `latest`, that does not take the key away. -/
def Rely (latest : Nat) (change : World → World) : Prop :=
  ∀ w, Good D keyType publicValues proofBytes key w → w.timestamp.toNat ≤ latest →
    Good D keyType publicValues proofBytes key (change w) ∧
    (Enrolled keyType key w → Enrolled keyType key (change w)) ∧ (change w).timestamp.toNat ≤ latest

/-- What a request that was admitted leaves, with the answer to it. -/
structure Reached (latest : Nat) (turn : Turn) (w : World) (answer : Answer) (after : World × Nat) :
    Prop where
  good : Good D keyType publicValues proofBytes key after.1
  time : after.1.timestamp.toNat ≤ latest
  keeps : Enrolled keyType key w → Enrolled keyType key after.1
  once : after.2 = 0 ∨ after.2 = 1 ∧ ¬Enrolled keyType key w ∧ Enrolled keyType key after.1
  lands : turn.mined = true → Enrolled keyType key after.1
  sound : 200 ≤ answer.1 ∧ answer.1 < 300 → Enrolled keyType key after.1
  complete : Enrolled keyType key w → answer = Relayer.registered key none

variable {keyType publicValues proofBytes key} (node : Node) (config : RelayerConfig) (turn : Turn)
  {w : World}

theorem isKeyValid_enrolled (good : Good node.deployment keyType publicValues proofBytes key w)
    (enrolled : Enrolled keyType key w) : node.isKeyValid w keyType key = .ok true := by
  rw [Node.isKeyValid, good.lasting enrolled]

theorem isKeyValid_new (displays : node.Displays) (new : ¬Enrolled keyType key w) :
    node.isKeyValid w keyType key = .ok false := by
  have absent : (_getKeySet w.keyManager keyType).contains key = false := Bool.eq_false_iff.mpr new
  have invalid : isKeyValid w.timestamp w.keyManager keyType key =
      .error (.InvalidPublicKey key) := by
    rw [isKeyValid, absent]
    rfl
  rw [Node.isKeyValid, invalid]
  exact if_pos (displays key)

theorem reached (displays : node.Displays)
    (good : Good node.deployment keyType publicValues proofBytes key w) (r : Admitted)
    (time : w.timestamp.toNat ≤ r.deadline.toNat) (attested : r.attestation.teeSigningKey = key)
    (content : r.keyType = keyType ∧ r.publicValues = publicValues ∧ r.proofBytes = proofBytes)
    (signed : Signed node.deployment publicValues proofBytes key r.deadline r.signature)
    (before : Rely node.deployment keyType publicValues proofBytes key r.deadline.toNat turn.before)
    (asked : Rely node.deployment keyType publicValues proofBytes key r.deadline.toNat turn.asked)
    (sent : Rely node.deployment keyType publicValues proofBytes key r.deadline.toNat turn.sent) :
    Reached node.deployment keyType publicValues proofBytes key r.deadline.toNat turn w
      (submitAdmitted (turn.submitter node config w r) r) (turn.after node config w r) := by
  obtain ⟨rfl, rfl, rfl⟩ := content
  subst attested
  obtain ⟨good₁, kept₁, time₁⟩ := before w good time
  obtain ⟨good₂, kept₂, time₂⟩ := asked _ good₁ time₁
  obtain ⟨good₃, kept₃, time₃⟩ := sent _ good₂ time₂
  -- nothing was sent for a key that is there before the estimate
  have unsent (answer : Answer) (nothing : turn.sends node config w r = false)
      (enrolled : Enrolled r.keyType r.attestation.teeSigningKey (turn.asked (turn.before w)))
      (complete : Enrolled r.keyType r.attestation.teeSigningKey w →
        answer = Relayer.registered r.attestation.teeSigningKey none) :
      Reached node.deployment r.keyType r.publicValues r.proofBytes r.attestation.teeSigningKey
        r.deadline.toNat turn w answer (turn.after node config w r) := by
    have same : turn.after node config w r = (turn.sent (turn.asked (turn.before w)), 0) := by
      rw [Turn.after, nothing]
      rfl
    rw [same]
    exact ⟨good₃, time₃, fun _ => kept₃ enrolled, .inl rfl, fun _ => kept₃ enrolled,
      fun _ => kept₃ enrolled, complete⟩
  by_cases known : Enrolled r.keyType r.attestation.teeSigningKey (turn.before w)
  · have valid := isKeyValid_enrolled node good₁ known
    have answer : submitAdmitted (turn.submitter node config w r) r =
        Relayer.registered r.attestation.teeSigningKey none := by
      simp only [submitAdmitted, Turn.submitter, valid]
    rw [answer]
    refine unsent _ ?_ (kept₂ known) fun _ => rfl
    simp only [Turn.sends, Turn.submitter, valid]
  have invalid := isKeyValid_new node displays known
  have unknown : ¬Enrolled r.keyType r.attestation.teeSigningKey w :=
    fun enrolled => known (kept₁ enrolled)
  by_cases meanwhile : Enrolled r.keyType r.attestation.teeSigningKey (turn.asked (turn.before w))
  · refine unsent _ ?_ meanwhile fun enrolled => absurd enrolled unknown
    have refused := transact_again good₂ time₂ signed meanwhile
    simp only [Turn.sends, Turn.submitter, invalid, refused]
    rfl
  obtain ⟨w', estimated, -⟩ := transact_new good₂ time₂ signed meanwhile
  have sends : turn.sends node config w r = true := by
    simp only [Turn.sends, Turn.submitter, invalid, estimated]
    rfl
  cases mined : turn.mined with
  | false =>
    have same : turn.after node config w r = (turn.sent (turn.asked (turn.before w)), 0) := by
      rw [Turn.after, sends, mined]
      rfl
    have late : (submitAdmitted (turn.submitter node config w r) r).1 = 500 := by
      simp only [submitAdmitted, Turn.submitter, invalid, estimated, mined]
      rfl
    rw [same]
    refine ⟨good₃, time₃, fun enrolled => absurd enrolled unknown, .inl rfl, ?_, ?_,
      fun enrolled => absurd enrolled unknown⟩
    · intro landed
      rw [mined] at landed
      cases landed
    · intro success
      rw [late] at success
      omega
  | true =>
    by_cases overtaken :
      Enrolled r.keyType r.attestation.teeSigningKey (turn.sent (turn.asked (turn.before w)))
    · have reverted := transact_again good₃ time₃ signed overtaken
      have same : turn.after node config w r = (turn.sent (turn.asked (turn.before w)), 0) := by
        simp only [Turn.after, sends, mined, reverted]
        rfl
      rw [same]
      exact ⟨good₃, time₃, fun _ => overtaken, .inl rfl, fun _ => overtaken, fun _ => overtaken,
        fun enrolled => absurd enrolled unknown⟩
    · obtain ⟨w'', executed, good', enrolled, same'⟩ := transact_new good₃ time₃ signed overtaken
      have same : turn.after node config w r = (w'', 1) := by
        simp only [Turn.after, sends, mined, executed]
        rfl
      rw [same]
      exact ⟨good', same' ▸ time₃, fun _ => enrolled, .inr ⟨rfl, unknown, enrolled⟩,
        fun _ => enrolled, fun _ => enrolled, fun enrolled => absurd enrolled unknown⟩

/-- The request and the answer get through. -/
def Turn.Delivers (turn : Turn) : Prop :=
  turn.identityToken = .ok () ∧ turn.arrives = true ∧ turn.answered = true

/-- The request gets through, and a transaction that is sent for it is mined. -/
def Turn.Lands (turn : Turn) : Prop := turn.identityToken = .ok () ∧ turn.arrives = true ∧
    turn.mined = true

variable (keyType publicValues proofBytes key)

/-- The clocks agree to within the deadline, and others leave the key alone. -/
structure Turn.Fair (turn : Turn) : Prop where
  clocks : turn.relayerNow < turn.clientNow + 3600 ∧
    turn.clientNow + 3600 ≤ turn.relayerNow + Relayer.MAX_DEADLINE_FUTURE_SECS
  before : Rely D keyType publicValues proofBytes key (turn.clientNow + 3600).toNat turn.before
  asked : Rely D keyType publicValues proofBytes key (turn.clientNow + 3600).toNat turn.asked
  sent : Rely D keyType publicValues proofBytes key (turn.clientNow + 3600).toNat turn.sent

/-- A key with a proof for it, a relayer that is configured for its application, and
turns that are fair. -/
structure Setting (node : Node) (config : RelayerConfig) (link : Link) (client : RelayerClient)
    (signer : PrivateKeySigner) (proof : ProofResponse) (keyType : KeyType)
    (publicValues proofBytes : Bytes) :
    Prop where
  displays : node.Displays
  signs : ∀ n, ∃ signature,
    signer.signHash (client.registrationDigest node.deployment.crypto publicValues
      proofBytes ((link.schedule n).clientNow + 3600)) = .ok signature
  correct : signer.Correct node.deployment.crypto
  domain : node.deployment.keyManagerConfig.DOMAIN_SEPARATOR =
    Contracts.TeeKeyManager.domainSeparator
    node.deployment.crypto (BitVec.ofNat 256 client.chainId.toNat) client.teeKeyManagerAddress
  readsPublicValues : decodeHex (trimStart0x (utf8 proof.publicValues)) = .ok publicValues
  readsProofBytes : decodeHex (trimStart0x (utf8 proof.proofBytes)) = .ok proofBytes
  allowed : ∃ fields app, Relayer.extractAttestationFields publicValues = some fields ∧
    fields.teeSigningKey = signer.address ∧ config.getApplication fields.audienceHash = some app ∧
    (app.allowedImageDigests = [] ∨ fields.imageDigestHash ∈ app.allowedImageDigests)
  turns : ∀ n, (link.schedule n).Fair node.deployment keyType publicValues proofBytes signer.address
  monotone : ∀ n, ((link.schedule n).clientNow + 3600).toNat ≤
    ((link.schedule (n + 1)).clientNow + 3600).toNat

/-- What an attempt leaves, whether it succeeds or not. -/
structure Next (turn : Turn) (net net' : Net) : Prop where
  attempts : net'.attempts = net.attempts + 1
  good : Good D keyType publicValues proofBytes key net'.chain
  time : net'.chain.timestamp.toNat ≤ (turn.clientNow + 3600).toNat
  keeps : Enrolled keyType key net.chain → Enrolled keyType key net'.chain
  once : net'.effects = net.effects ∨
    net'.effects = net.effects + 1 ∧ ¬Enrolled keyType key net.chain ∧
      Enrolled keyType key net'.chain
  lands : turn.Lands → Enrolled keyType key net'.chain

theorem utf8_hexText0x (bytes : Bytes) : utf8 (hexText0x bytes) = [48, 120] ++ hexText bytes := by
  rw [hexText0x, utf8_append, utf8_hexEncode]
  rfl

theorem decodeHex_hexText0x (bytes : Bytes) :
    decodeHex (trimStart0x (utf8 (hexText0x bytes))) = .ok bytes := by
  have digits : trimStart0x ([48, 120] ++ hexText bytes) = hexText bytes := trimStart0x_hexText _
  rw [utf8_hexText0x, digits, decodeHex_hexText]

theorem received_text (publicValues proofBytes : String) (deadline : UInt64) (signature : Bytes)
    (keyType : KeyType) :
    received ⟨utf8 publicValues, utf8 proofBytes, deadline, [48, 120] ++ hexText signature,
      keyType⟩ = ⟨publicValues, proofBytes, deadline, hexText0x signature, keyType⟩ := by
  have text (s : String) : (String.fromUTF8? ⟨(utf8 s).toArray⟩).getD "" = s := by
    have bytes : (⟨(utf8 s).toArray⟩ : ByteArray) = s.toByteArray := by
      simp [utf8]
    rw [bytes, String.fromUTF8?, dif_pos s.isValidUTF8]
    rfl
  rw [received, ← utf8_hexText0x]
  simp only [text]

section Fair

variable {node config} {link : Link} {client : RelayerClient} {signer : PrivateKeySigner}
  {proof : ProofResponse} {keyType publicValues proofBytes key}

/-- The relayer admits the request that the client makes, with a signature of the key. -/
theorem Setting.admitted
    (setting : Setting node config link client signer proof keyType publicValues proofBytes)
    (n : Nat) : ∃ request r,
    client.registerKey node.deployment.crypto signer (link.schedule n).clientNow
      (utf8 proof.publicValues) (utf8 proof.proofBytes) keyType = .ok request ∧
    checkRequest config (link.schedule n).relayerNow (received request) = .ok r ∧
    r.attestation.teeSigningKey = signer.address ∧
    (r.keyType = keyType ∧ r.publicValues = publicValues ∧ r.proofBytes = proofBytes) ∧
    r.deadline = (link.schedule n).clientNow + 3600 ∧
    Signed node.deployment publicValues proofBytes signer.address r.deadline r.signature := by
  let deadline := (link.schedule n).clientNow + 3600
  obtain ⟨signature, signed⟩ := setting.signs n
  obtain ⟨fields, app, extracted, attested, found, allowed⟩ := setting.allowed
  refine ⟨_, ⟨publicValues, proofBytes, deadline, signature.bytes, keyType, fields⟩,
    (registerKey_ok _ _ _ _ _ _ _ _).mpr
      ⟨publicValues, proofBytes, signature, setting.readsPublicValues,
      setting.readsProofBytes, signed, rfl⟩, ?_, attested, ⟨rfl, rfl, rfl⟩, rfl, ?_⟩
  · rw [received_text]
    refine (Relayer.checkRequest_ok _ _ _ _).mpr
      ⟨⟨setting.readsPublicValues, extracted, app, found, allowed⟩,
      (setting.turns n).clocks, setting.readsProofBytes, decodeHex_hexText0x _, rfl, rfl⟩
  · intro c values bytes same
    have whole : node.deployment.keyManagerConfig = ⟨node.deployment.keyManagerConfig.deployer,
        Contracts.TeeKeyManager.domainSeparator node.deployment.crypto
          (BitVec.ofNat 256 client.chainId.toNat) client.teeKeyManagerAddress⟩ := by
      rw [← setting.domain]
    rw [whole, ← registrationDigest_agrees _ client _ c deadline same, values, bytes]
    exact setting.correct _ _ signed

theorem Link.readResponse_ok (answer : Answer) (read : link.readResponse answer = .ok ()) :
    200 ≤ answer.1 ∧ answer.1 < 300 := by
  by_contra refused
  rw [Link.readResponse, if_pos refused] at read
  cases read

theorem Link.readResponse_error (answer : Answer) {e : StateMachine.BootstrapError}
    (read : link.readResponse answer = .error e) : e.isRetryable = true := by
  unfold Link.readResponse at read
  split at read
  · cases read
    rfl
  · split at read
    · cases read
      rfl
    · cases read

theorem ends_registerKey
    (setting : Setting node config link client signer proof keyType publicValues proofBytes)
    (net : Net)
    (good : Good node.deployment keyType publicValues proofBytes signer.address net.chain)
    (turn : Turn) (now : link.schedule net.attempts = turn)
    (time : net.chain.timestamp.toNat ≤ (turn.clientNow + 3600).toNat) :
    Ends (fun _ net' =>
        Next node.deployment keyType publicValues proofBytes signer.address turn net net' ∧
          Enrolled keyType signer.address net'.chain)
      (fun e net' =>
        Next node.deployment keyType publicValues proofBytes signer.address turn net net' ∧
          e.isRetryable = true ∧ ¬(Enrolled keyType signer.address net.chain ∧ turn.Delivers))
      (registerKey node config link client signer proof.publicValues proof.proofBytes keyType
        net) := by
  obtain ⟨request, r, made, admitted, attested, content, deadline, signed⟩ :=
    setting.admitted net.attempts
  have fair := setting.turns net.attempts
  rw [now] at made admitted deadline fair
  obtain ⟨good₁, kept, time₁⟩ := fair.before net.chain good time
  have unhandled (lost : ¬turn.Lands) :
      Next node.deployment keyType publicValues proofBytes signer.address turn net
      ⟨turn.before net.chain, net.attempts + 1, net.effects⟩ :=
    ⟨rfl, good₁, time₁, kept, .inl rfl, fun landed => absurd landed lost⟩
  have handled : turn.handle node config net.chain (received request) =
      (submitAdmitted (turn.submitter node config net.chain r) r,
        turn.after node config net.chain r) := by
    rw [Turn.handle, admitted]
  have reach : Reached node.deployment keyType publicValues proofBytes signer.address
      r.deadline.toNat turn net.chain
      (submitAdmitted (turn.submitter node config net.chain r) r)
      (turn.after node config net.chain r) := by
    refine reached node config turn setting.displays good r ?_ attested content signed ?_ ?_ ?_
    · rw [deadline]
      exact time
    · exact deadline ▸ fair.before
    · exact deadline ▸ fair.asked
    · exact deadline ▸ fair.sent
  have next : Next node.deployment keyType publicValues proofBytes signer.address turn net
      ⟨(turn.after node config net.chain r).1, net.attempts + 1,
        net.effects + (turn.after node config net.chain r).2⟩ := by
    refine ⟨rfl, reach.good, deadline ▸ reach.time, reach.keeps, ?_,
      fun landed => reach.lands landed.2.2⟩
    rcases reach.once with none | ⟨one, new, enrolled⟩
    · exact .inl (by rw [none]; rfl)
    · exact .inr ⟨by rw [one], new, enrolled⟩
  unfold registerKey
  simp only [now, made]
  cases token : turn.identityToken with
  | error message =>
    refine ⟨unhandled fun landed => ?_, rfl, fun delivered => ?_⟩
    · cases token.symm.trans landed.1
    · cases token.symm.trans delivered.2.1
  | ok u =>
    simp only [handled]
    split
    · next arrives =>
      split
      · next answered =>
        cases read : link.readResponse
          (submitAdmitted (turn.submitter node config net.chain r) r) with
        | ok u => exact ⟨next, reach.sound (link.readResponse_ok _ read)⟩
        | error e =>
          refine ⟨next, link.readResponse_error _ read, fun delivered => ?_⟩
          rw [reach.complete delivered.1] at read
          cases read
      · next unanswered => exact ⟨next, rfl, fun delivered => unanswered delivered.2.2.2⟩
    · next lost => exact ⟨unhandled fun landed => lost landed.2.1, rfl,
        fun delivered => lost delivered.2.2.1⟩

/-- What the attempts so far have come to, when all of them failed. -/
structure Tried (D : Deployment) (link : Link) (keyType : KeyType) (publicValues proofBytes : Bytes)
    (key : Address) (n : Nat) (net : Net) : Prop where
  attempts : net.attempts = n
  good : Good D keyType publicValues proofBytes key net.chain
  time : net.chain.timestamp.toNat ≤ ((link.schedule n).clientNow + 3600).toNat
  once : net.effects = 0 ∨ net.effects = 1 ∧ Enrolled keyType key net.chain
  lands : ∀ i < n, (link.schedule i).Lands → Enrolled keyType key net.chain
  late : ∀ i j, i < j → j < n → (link.schedule i).Lands → ¬(link.schedule j).Delivers

theorem Tried.next {n : Nat} {net net' : Net}
    (tried : Tried node.deployment link keyType publicValues proofBytes key n net)
    (next : Next node.deployment keyType publicValues proofBytes key (link.schedule n) net net') :
    net'.attempts = n + 1 ∧ Good node.deployment keyType publicValues proofBytes key net'.chain ∧
      (net'.effects = 0 ∨ net'.effects = 1 ∧ Enrolled keyType key net'.chain) ∧
      ∀ i < n + 1, (link.schedule i).Lands → Enrolled keyType key net'.chain := by
  refine ⟨by rw [next.attempts, tried.attempts], next.good, ?_, ?_⟩
  · rcases next.once with same | ⟨more, new, enrolled⟩
    · rw [same]
      exact tried.once.imp_right fun one => ⟨one.1, next.keeps one.2⟩
    · rcases tried.once with none | ⟨-, known⟩
      · exact .inr ⟨by rw [more, none], enrolled⟩
      · exact absurd known new
  · intro i within landed
    rcases Nat.lt_succ_iff_lt_or_eq.mp within with earlier | rfl
    · exact next.keeps (tried.lands i earlier landed)
    · exact next.lands landed

/-- No matter what is lost, at most one transaction for the key takes effect, and a registration
that succeeds has the key registered. Once a transaction has landed, the first attempt that gets
through succeeds. -/
theorem registration_lands_once
    (setting : Setting node config link client signer proof keyType publicValues proofBytes)
    (env : Environment Net) (maxRetries : Nat) (w : World)
    (good : Good node.deployment keyType publicValues proofBytes signer.address w)
    (time : w.timestamp.toNat ≤ ((link.schedule 0).clientNow + 3600).toNat) :
    Ends (fun _ net => net.effects ≤ 1 ∧ Enrolled keyType signer.address net.chain ∧
        ∀ i j, i < j → (link.schedule i).Lands → (link.schedule j).Delivers → net.attempts ≤ j + 1)
      (fun e net => net.effects ≤ 1 ∧ net.attempts = maxRetries ∧
        (∃ last, e = .MaxRetriesExceeded "key_registration" last) ∧
        (∀ i < maxRetries, (link.schedule i).Lands → Enrolled keyType signer.address net.chain) ∧
        ∀ i j, i < j → j < maxRetries → (link.schedule i).Lands → ¬(link.schedule j).Delivers)
      (registerWithRetry (overNetwork node config link env) client proof signer keyType maxRetries
        ⟨w, 0, 0⟩) := by
  have few {net : Net}
      (once : net.effects = 0 ∨ net.effects = 1 ∧ Enrolled keyType signer.address net.chain) :
      net.effects ≤ 1 := by
    rcases once with none | ⟨one, -⟩
    · omega
    · omega
  refine ends_retrying (overNetwork node config link env) _ _ _ _
    (Tried node.deployment link keyType publicValues proofBytes signer.address) ?_ ?_ ?_
  · exact ⟨rfl, good, time, .inl rfl, fun i below => absurd below (Nat.not_lt_zero i),
      fun i j _ below => absurd below (Nat.not_lt_zero j)⟩
  · intro n within net tried
    refine ends_mono ?_ ?_
      (ends_registerKey setting net tried.good (link.schedule n) (by rw [tried.attempts])
        tried.time)
    · intro _ net' succeeded
      obtain ⟨next, enrolled⟩ := succeeded
      obtain ⟨attempts, -, once, -⟩ := tried.next next
      refine ⟨few once, enrolled, ?_⟩
      intro i j before landed delivered
      rw [attempts]
      by_contra later
      exact tried.late i j before (by omega) landed delivered
    · intro e net' failed
      obtain ⟨next, retryable, unknown⟩ := failed
      obtain ⟨attempts, good', once, lands⟩ := tried.next next
      refine ⟨fun _ => ⟨attempts, good', next.time.trans (setting.monotone n), once, lands, ?_⟩,
        fun final => ?_⟩
      · intro i j before below landed delivered
        rcases Nat.lt_succ_iff_lt_or_eq.mp below with earlier | rfl
        · exact tried.late i j before earlier landed delivered
        · exact unknown ⟨tried.lands i before landed, delivered⟩
      · rw [retryable] at final
        cases final
  · intro last net tried
    exact ⟨few tried.once, tried.attempts, ⟨_, rfl⟩, tried.lands, tried.late⟩

end Fair

end Attempt

namespace Sample

def audienceHash : Bytes32 := 0x05fddfdc68487358a647b2a60b9f6a39149dcf7ec8189407b3b18ee25739f180

def imageDigest : Bytes32 := 0xabababababababababababababababababababababababababababababababab

/-- The encoding of a struct of public values. -/
def publicValues : Bytes :=
  [word 1, word 1700000000, word 1700003600, word imageDigest,
    word (Contracts.sampleSequencer.setWidth 256),
    word 1, word 1, word audienceHash, word 27, word 5, word 6].flatten

def attestationHash : Bytes32 := 0xceb49923c19c6477c2a8b49cb93ad320820b973a45c59c43f0a2212f62a62541
def structHash : Bytes32 := 0xc62f3c33ec363335d52583291837a3c125d9fdb60ff514712733d17b2c9a9a7d
def digest : Bytes32 := 0xdf843ac0e08ff622b469d818a50356eb04b41e58559104b76966617aeafe2027

def sig : Sequencer.RawSignature where
  r := 0xe4ba92bcba8daddf28492a6afd25b34ea4ff07a7f04318e9fd07f167b40e15d8
  s := 0x5b6cd0c4889896133257b140bdd386c8b127cecb034199fc407869b422acd61a
  v := false

/-- The hashes, the signature and the recovered signer are the real values. -/
def crypto : Contracts.Crypto where
  keccak256 bs :=
    if bs = publicValues ++ [1, 2] then attestationHash
    else if bs = word Contracts.TeeKeyManager.SignedSample.typeHash ++ word attestationHash ++
        word 1700003600 then structHash
    else if bs = [0x19, 0x01] ++ word Contracts.TeeKeyManager.SignedSample.domain ++ word structHash
      then digest
    else Bootstrap.Sample.crypto.keccak256 bs
  recover hash bytes :=
    if hash = digest ∧ bytes = sig.bytes then some Contracts.sampleSequencer else none

def signer : PrivateKeySigner where
  address := Contracts.sampleSequencer
  signHash hash := if hash = digest then .ok sig else .error "another digest"

def node : Node where
  deployment := { Contracts.TeeKeyManager.SignedSample.deployment with crypto := crypto }
  display
    | .KeyManager (.InvalidPublicKey _) => "execution reverted, data: 0xffc44e88"
    | .KeyManager (.KeyAlreadyExists _) => "execution reverted, data: 0x2dc09057"
    | _ => "execution reverted"
  foreign _ w := (.reverted [], w)
  txHash _ := 7

def config : RelayerConfig where
  rpcUrl := "http://localhost:8545"
  chainId := 31337
  bridgeAddress := 0xB1
  privateKey := "0xac0974bec39a17e36ba4a6b4d238ff944bacb478cbed5efcae784d7bf4f2ff80"
  listenAddr := "0.0.0.0:8082"
  txConfirmationTimeout := 120
  validatorUrl := none
  applications := [(audienceHash, ⟨"https://app.example.com", [imageDigest]⟩)]

def turn (answered : Bool) : Turn where
  clientNow := 1700000000
  relayerNow := 1700000000
  identityToken := .ok ()
  arrives := true
  answered := answered
  lost := "Relayer request failed: operation timed out"
  before := id
  asked := id
  sent := id
  mined := true
  confirmed := true

/-- The first answer is lost. -/
def link : Link where
  schedule n := turn (n ≠ 0)
  display answer := toString answer.1

def proof : ProofResponse := ⟨hexText0x publicValues, hexText0x [1, 2], ""⟩

/-- The attestation verifier answers with the key that the public values are for. -/
def chain : World := Contracts.genesis node.deployment 0x0A 0xA7 1700000000
  { Contracts.sampleViews with
    verifyAttestationProof := fun _ publicValues _ =>
      (Relayer.extractAttestationFields publicValues).map Relayer.AttestationFields.teeSigningKey }

/-- No service is there but the relayer. -/
def offline : Environment Net where
  parseAddress _ := .error "invalid address"
  parseUrl _ := .error "invalid URL"
  buildClient := .ok ()
  generate net := (⟨[], signer⟩, net)
  teeKeyManager _ _ net := .error "connection refused" net
  newAttestationClient _ net := .error "not in a TEE" net
  getToken _ net := .error "not in a TEE" net
  generateProof _ _ _ _ _ net := .error (.ProofServiceUnavailable "connection refused") net
  registerKey _ _ _ _ _ net := .error (.ContractSubmissionFailed "connection refused") net
  isKeyValid _ _ _ net := .error (.KeyVerificationFailed "connection refused") net
  sleep _ net := net

theorem fields : Relayer.extractAttestationFields publicValues =
    some ⟨imageDigest, Contracts.sampleSequencer, audienceHash⟩ := by
  decide +kernel

theorem asked :
    Bootstrap.Sample.client.registrationDigest crypto publicValues [1, 2] 1700003600 = digest := by
  decide +kernel

theorem signed : signer.signHash digest = .ok sig := by
  simp [signer]

theorem deadline (n : Nat) : (link.schedule n).clientNow + 3600 = 1700003600 := by
  change (1700000000 : UInt64) + 3600 = 1700003600
  decide

theorem undisturbed (latest : Nat) :
    Rely node.deployment .Sequencer publicValues [1, 2] signer.address latest id :=
  fun _ good time => ⟨good, id, time⟩

theorem setting : Setting node config link Bootstrap.Sample.client signer proof .Sequencer
    publicValues [1, 2] where
  displays _ := by
    change isInvalidPublicKeyError "execution reverted, data: 0xffc44e88" = true
    decide
  signs n := by
    have same : node.deployment.crypto = crypto := rfl
    refine ⟨sig, ?_⟩
    rw [deadline, same, asked, signed]
  correct := by
    intro hash signature given
    have same : hash = digest := by
      by_contra other
      simp [signer, other] at given
    rw [same, signed] at given
    cases given
    exact if_pos ⟨same, rfl⟩
  domain := by
    decide +kernel
  readsPublicValues := decodeHex_hexText0x _
  readsProofBytes := decodeHex_hexText0x _
  allowed := ⟨_, ⟨"https://app.example.com", [imageDigest]⟩, fields, rfl, by decide,
    .inr (by decide)⟩
  turns n := by
    refine ⟨?_, undisturbed _, undisturbed _, undisturbed _⟩
    rw [deadline]
    change (1700000000 : UInt64) < 1700003600 ∧ 1700003600 ≤
      1700000000 + Relayer.MAX_DEADLINE_FUTURE_SECS
    decide
  monotone n := by
    rw [deadline, deadline]

theorem good : Good node.deployment .Sequencer publicValues [1, 2] signer.address chain where
  linked := ⟨rfl, rfl⟩
  unrestricted := rfl
  attested := by
    have answers (verifier : Address) (values bytes : Bytes) :
        chain.views.verifyAttestationProof verifier values bytes =
          (Relayer.extractAttestationFields values).map Relayer.AttestationFields.teeSigningKey :=
            rfl
    rw [answers, fields]
    rfl
  expiry := .inl rfl
  lasting enrolled := by cases enrolled

/-- The key is registered by the first attempt, and the second one succeeds. -/
theorem registration_lands_once_lost : ∃ net,
    registerWithRetry (overNetwork node config link offline) Bootstrap.Sample.client proof signer
      .Sequencer 3 ⟨chain, 0, 0⟩ = .ok () net ∧
    net.effects ≤ 1 ∧ Enrolled .Sequencer signer.address net.chain ∧ net.attempts ≤ 2 := by
  have time : chain.timestamp.toNat ≤ ((link.schedule 0).clientNow + 3600).toNat := by
    have started : chain.timestamp = 1700000000 := rfl
    rw [deadline, started]
    decide
  have lands : (link.schedule 0).Lands := ⟨rfl, rfl, rfl⟩
  have delivers : (link.schedule 1).Delivers := ⟨rfl, rfl, rfl⟩
  -- a variable keeps the attempts from being computed
  generalize three : 3 = maxRetries
  have ended := registration_lands_once setting offline maxRetries chain good time
  cases result : registerWithRetry (overNetwork node config link offline) Bootstrap.Sample.client
      proof signer .Sequencer maxRetries ⟨chain, 0, 0⟩ with
  | ok u net =>
    rw [result] at ended
    obtain ⟨once, enrolled, soon⟩ := ended
    exact ⟨net, rfl, once, enrolled, soon 0 1 (by decide) lands delivers⟩
  | error e net =>
    rw [result] at ended
    obtain ⟨-, -, -, -, never⟩ := ended
    exact absurd delivers (never 0 1 (by decide) (by omega) lands)

end Sample

end SyndDB.Bootstrap.Onboarding
