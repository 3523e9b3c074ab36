import SyndDB.Contracts.DataTypes
import SyndDB.Framework.Outcome

namespace SyndDB.Contracts

open Octets

/-- Hashing and signature recovery as the chain provides them. `recover` is `ECDSA.recover`;
`none` is its revert. -/
structure Crypto where
  keccak256 : Bytes → Bytes32
  recover : Bytes32 → Bytes → Option Address

/-- ABI decoding of a single returned word; `none` is the revert on malformed return data. -/
def decodeWord (data : Bytes) : Option Nat :=
  if data.length < 32 then none else some (fromBigEndian (data.take 32))

def decodeAddress (data : Bytes) : Option Address := do
  let x ← decodeWord data
  if x < 2 ^ 160 then some (BitVec.ofNat 160 x) else none

def decodeBool (data : Bytes) : Option Bool := do
  match ← decodeWord data with
  | 0 => some false
  | 1 => some true
  | _ => none

namespace TeeKeyManager

structure State where
  bridge : Address
  attestationVerifier : Address
  sequencerKeys : AddressSet
  validatorKeys : AddressSet
  keyExpiration : Address → UInt256
  pendingSequencerKeys : Address → Bool
  pendingValidatorKeys : Address → Bool

/-- The immutables written by the constructor. -/
structure Config where
  deployer : Address
  DOMAIN_SEPARATOR : Bytes32

inductive Error where
  | InvalidPublicKey (publicKey : Address)
  | KeyAlreadyExists (publicKey : Address)
  | KeyExpired (publicKey : Address)
  | InvalidSignature
  | SignatureExpired
  | OnlyBridge
  | OnlyDeployer
  | BridgeAlreadySet
  | KeyNotPending (publicKey : Address)
  | ZeroAddress
  -- reverts that bubble up from `verifyAttestationProof` and from `ECDSA.recover`
  | VerifierReverted
  | RecoverReverted
  -- no function with this selector, or value sent to a function that is not payable
  | NoFunction
  deriving DecidableEq

/-- What a call reads from the chain around it. The attestation verifier is only called
statically, so its answers are given by a function. -/
structure Context where
  sender : Address
  timestamp : UInt256
  verifyAttestationProof : Address → Bytes → Bytes → Option Address

def domainSeparator (X : Crypto) (chainId : UInt256) (this : Address) : Bytes32 :=
  X.keccak256
    (word (X.keccak256 (ascii
      "EIP712Domain(string name,string version,uint256 chainId,address verifyingContract)")) ++
    word (X.keccak256 (ascii "TeeKeyManager")) ++ word (X.keccak256 (ascii "1")) ++
    word chainId ++ word (this.setWidth 256))

/-- The state left by the constructor. -/
def deploy (attestationVerifier : Address) : State :=
  ⟨0, attestationVerifier, .empty, .empty, fun _ => 0, fun _ => false, fun _ => false⟩

def require (b : Bool) (e : Error) : Except Error Unit := if b then .ok () else .error e

def onlyBridge (ctx : Context) (st : State) : Except Error Unit :=
  require (ctx.sender = st.bridge) .OnlyBridge

def setBridge (cfg : Config) (ctx : Context) (st : State) (_bridge : Address) :
    Except Error State := do
  require (ctx.sender = cfg.deployer) .OnlyDeployer
  require (st.bridge = 0) .BridgeAlreadySet
  require (_bridge ≠ 0) .ZeroAddress
  return { st with bridge := _bridge }

def _getKeySet (st : State) : KeyType → AddressSet
  | .Sequencer => st.sequencerKeys
  | .Validator => st.validatorKeys

def _putKeySet (st : State) (keys : AddressSet) : KeyType → State
  | .Sequencer => { st with sequencerKeys := keys }
  | .Validator => { st with validatorKeys := keys }

def _getPendingKeys (st : State) (keyType : KeyType) (key : Address) : Bool :=
  match keyType with
  | .Sequencer => st.pendingSequencerKeys key
  | .Validator => st.pendingValidatorKeys key

def _setPendingKey (st : State) (keyType : KeyType) (key : Address) (value : Bool) : State :=
  match keyType with
  | .Sequencer =>
      { st with pendingSequencerKeys := Function.update st.pendingSequencerKeys key value }
  | .Validator =>
      { st with pendingValidatorKeys := Function.update st.pendingValidatorKeys key value }

def _deletePendingKey (st : State) (keyType : KeyType) (key : Address) : State :=
  _setPendingKey st keyType key false

def setExpiration (st : State) (key : Address) (expiresAt : UInt256) : State :=
  { st with keyExpiration := Function.update st.keyExpiration key expiresAt }

def isKeyValid (timestamp : UInt256) (st : State) (keyType : KeyType) (publicKey : Address) :
    Except Error Bool := do
  require ((_getKeySet st keyType).contains publicKey) (.InvalidPublicKey publicKey)
  let expiry := st.keyExpiration publicKey
  require (!(expiry ≠ 0 && expiry < timestamp)) (.KeyExpired publicKey)
  return true

/-- The common tail of the two registration functions. -/
def insertKey (st : State) (keyType : KeyType) (publicKey : Address) (requiresApproval : Bool)
    (expiresAt : UInt256) : Except Error State := do
  let keys := _getKeySet st keyType
  require (!keys.contains publicKey) (.KeyAlreadyExists publicKey)
  if requiresApproval then
    return _setPendingKey st keyType publicKey true
  else
    return setExpiration (_putKeySet st ((keys.add publicKey).getD keys) keyType) publicKey
      expiresAt

def verifyProof (ctx : Context) (st : State) (publicValues proofBytes : Bytes) :
    Except Error Address :=
  match ctx.verifyAttestationProof st.attestationVerifier publicValues proofBytes with
  | some publicKey => .ok publicKey
  | none => .error .VerifierReverted

def addKey (ctx : Context) (st : State) (keyType : KeyType) (publicValues proofBytes : Bytes)
    (requiresApproval : Bool) (expiresAt : UInt256) : Except Error (Address × State) := do
  onlyBridge ctx st
  let publicKey ← verifyProof ctx st publicValues proofBytes
  let st ← insertKey st keyType publicKey requiresApproval expiresAt
  return (publicKey, st)

def _verifyKeySignature (X : Crypto) (cfg : Config) (publicValues proofBytes : Bytes)
    (deadline : UInt256) (signature : Bytes) (expectedSigner : Address) : Except Error Unit := do
  let ADDKEY_TYPEHASH := X.keccak256 (ascii "AddKey(bytes32 attestationHash,uint256 deadline)")
  let attestationHash := X.keccak256 (publicValues ++ proofBytes)
  let structHash := X.keccak256 (word ADDKEY_TYPEHASH ++ word attestationHash ++ word deadline)
  let digest := X.keccak256 ([0x19, 0x01] ++ word cfg.DOMAIN_SEPARATOR ++ word structHash)
  match X.recover digest signature with
  | none => .error .RecoverReverted
  | some signer => require (signer = expectedSigner) .InvalidSignature

def addKeyWithSignature (X : Crypto) (cfg : Config) (ctx : Context) (st : State)
    (keyType : KeyType) (publicValues proofBytes : Bytes) (deadline : UInt256) (signature : Bytes)
    (requiresApproval : Bool) (expiresAt : UInt256) : Except Error (Address × State) := do
  onlyBridge ctx st
  require (!(deadline < ctx.timestamp)) .SignatureExpired
  let publicKey ← verifyProof ctx st publicValues proofBytes
  _verifyKeySignature X cfg publicValues proofBytes deadline signature publicKey
  let st ← insertKey st keyType publicKey requiresApproval expiresAt
  return (publicKey, st)

def approveKey (ctx : Context) (st : State) (keyType : KeyType) (publicKey : Address)
    (expiresAt : UInt256) : Except Error State := do
  onlyBridge ctx st
  require (_getPendingKeys st keyType publicKey) (.KeyNotPending publicKey)
  let st := _deletePendingKey st keyType publicKey
  let keys := _getKeySet st keyType
  return setExpiration (_putKeySet st ((keys.add publicKey).getD keys) keyType) publicKey expiresAt

def rejectKey (ctx : Context) (st : State) (keyType : KeyType) (publicKey : Address) :
    Except Error State := do
  onlyBridge ctx st
  require (_getPendingKeys st keyType publicKey) (.KeyNotPending publicKey)
  return _deletePendingKey st keyType publicKey

def removeKey (ctx : Context) (st : State) (keyType : KeyType) (publicKey : Address) :
    Except Error State := do
  onlyBridge ctx st
  match (_getKeySet st keyType).remove publicKey with
  | none => .error (.InvalidPublicKey publicKey)
  | some keys => return setExpiration (_putKeySet st keys keyType) publicKey 0

def setKeyExpiration (ctx : Context) (st : State) (publicKey : Address) (expiresAt : UInt256) :
    Except Error State := do
  onlyBridge ctx st
  require (st.sequencerKeys.contains publicKey || st.validatorKeys.contains publicKey)
    (.InvalidPublicKey publicKey)
  return setExpiration st publicKey expiresAt

/-- One pass of a revocation loop. -/
def revokeKey (keyType : KeyType) (st : State) (key : Address) : State :=
  let keys := _getKeySet st keyType
  setExpiration (_putKeySet st ((keys.remove key).getD keys) keyType) key 0

def revokeAllKeys (ctx : Context) (st : State) : Except Error State := do
  onlyBridge ctx st
  let st := st.sequencerKeys.values.foldl (revokeKey .Sequencer) st
  return st.validatorKeys.values.foldl (revokeKey .Validator) st

def updateAttestationVerifier (ctx : Context) (st : State) (_attestationVerifier : Address) :
    Except Error State := do
  onlyBridge ctx st
  return { st with attestationVerifier := _attestationVerifier }

/-- The external functions. `query` stands for the getters and the other views, which read the
state and cannot fail. -/
inductive Call where
  | setBridge (_bridge : Address)
  | isKeyValid (keyType : KeyType) (publicKey : Address)
  | addKey (keyType : KeyType) (publicValues proofBytes : Bytes) (requiresApproval : Bool)
      (expiresAt : UInt256)
  | addKeyWithSignature (keyType : KeyType) (publicValues proofBytes : Bytes) (deadline : UInt256)
      (signature : Bytes) (requiresApproval : Bool) (expiresAt : UInt256)
  | approveKey (keyType : KeyType) (publicKey : Address) (expiresAt : UInt256)
  | rejectKey (keyType : KeyType) (publicKey : Address)
  | removeKey (keyType : KeyType) (publicKey : Address)
  | setKeyExpiration (publicKey : Address) (expiresAt : UInt256)
  | revokeAllKeys
  | updateAttestationVerifier (_attestationVerifier : Address)
  | query
  deriving DecidableEq

/-- Run an external function: its return data and the state it leaves. -/
def dispatch (X : Crypto) (cfg : Config) (ctx : Context) (st : State) :
    Call → Except Error (Bytes × State)
  | .setBridge b => do return ([], ← setBridge cfg ctx st b)
  | .isKeyValid t k => do
      let ok ← isKeyValid ctx.timestamp st t k
      return (word (if ok then 1 else 0), st)
  | .addKey t pv pb r e => do
      let (key, st) ← addKey ctx st t pv pb r e
      return (word (key.setWidth 256), st)
  | .addKeyWithSignature t pv pb d s r e => do
      let (key, st) ← addKeyWithSignature X cfg ctx st t pv pb d s r e
      return (word (key.setWidth 256), st)
  | .approveKey t k e => do return ([], ← approveKey ctx st t k e)
  | .rejectKey t k => do return ([], ← rejectKey ctx st t k)
  | .removeKey t k => do return ([], ← removeKey ctx st t k)
  | .setKeyExpiration k e => do return ([], ← setKeyExpiration ctx st k e)
  | .revokeAllKeys => do return ([], ← revokeAllKeys ctx st)
  | .updateAttestationVerifier v => do return ([], ← updateAttestationVerifier ctx st v)
  | .query => return ([], st)

section Effects

variable (X : Crypto) (cfg : Config) (ctx : Context) (st : State)

theorem require_iff (b : Bool) (e : Error) (u : Unit) : require b e = .ok u ↔ b = true := by
  cases b with
  | false => simp [require]
  | true => simp [require]

theorem require_ok {b : Bool} {e : Error} {u : Unit} (h : require b e = .ok u) : b = true :=
  (require_iff b e u).mp h

theorem onlyBridge_ok {ctx : Context} {st : State} {u : Unit} (h : onlyBridge ctx st = .ok u) :
    ctx.sender = st.bridge :=
  of_decide_eq_true (require_ok h)

theorem verifyProof_iff (publicValues proofBytes : Bytes) (key : Address) :
    verifyProof ctx st publicValues proofBytes = .ok key ↔
      ctx.verifyAttestationProof st.attestationVerifier publicValues proofBytes = some key := by
  unfold verifyProof
  split
  · rename_i k hk
    simp [hk]
  · rename_i hk
    simp [hk]

@[simp] theorem setExpiration_bridge (key : Address) (e : UInt256) :
    (setExpiration st key e).bridge = st.bridge := rfl

@[simp] theorem putKeySet_bridge (keys : AddressSet) (t : KeyType) :
    (_putKeySet st keys t).bridge = st.bridge := by
  cases t <;> rfl

@[simp] theorem setPendingKey_bridge (t : KeyType) (key : Address) (v : Bool) :
    (_setPendingKey st t key v).bridge = st.bridge := by
  cases t <;> rfl

@[simp] theorem deletePendingKey_bridge (t : KeyType) (key : Address) :
    (_deletePendingKey st t key).bridge = st.bridge :=
  setPendingKey_bridge st t key false

theorem revoke_bridge (t : KeyType) (keys : List Address) :
    (keys.foldl (revokeKey t) st).bridge = st.bridge := by
  induction keys generalizing st with
  | nil => rfl
  | cons key keys ih =>
    rw [List.foldl_cons, ih]
    simp [revokeKey]

theorem insertKey_bridge {st st' : State} {t : KeyType} {key : Address} {r : Bool} {e : UInt256}
    (h : insertKey st t key r e = .ok st') : st'.bridge = st.bridge := by
  obtain ⟨_, _, h⟩ := (Outcome.bind_ok _ _ _).mp h
  split at h
  · cases h; simp
  · cases h; simp

section Accepted

variable {X cfg ctx st} {t : KeyType} {key : Address} {publicValues proofBytes : Bytes} {r : Bool}
  {e : UInt256} {st' : State}

theorem setBridge_ok {b : Address} (h : setBridge cfg ctx st b = .ok st') :
    st.bridge = 0 ∧ st' = { st with bridge := b } := by
  obtain ⟨_, _, h⟩ := (Outcome.bind_ok _ _ _).mp h
  obtain ⟨_, unset, h⟩ := (Outcome.bind_ok _ _ _).mp h
  obtain ⟨_, _, h⟩ := (Outcome.bind_ok _ _ _).mp h
  cases h
  exact ⟨of_decide_eq_true (require_ok unset), rfl⟩

theorem addKey_ok (h : addKey ctx st t publicValues proofBytes r e = .ok (key, st')) :
    ctx.sender = st.bridge ∧
      ctx.verifyAttestationProof st.attestationVerifier publicValues proofBytes = some key ∧
      insertKey st t key r e = .ok st' := by
  obtain ⟨_, sender, h⟩ := (Outcome.bind_ok _ _ _).mp h
  obtain ⟨_, proof, h⟩ := (Outcome.bind_ok _ _ _).mp h
  obtain ⟨_, inserted, h⟩ := (Outcome.bind_ok _ _ _).mp h
  cases h
  exact ⟨onlyBridge_ok sender, (verifyProof_iff _ _ _ _ _).mp proof, inserted⟩

theorem addKeyWithSignature_ok {deadline : UInt256} {signature : Bytes}
    (h : addKeyWithSignature X cfg ctx st t publicValues proofBytes deadline signature r e =
      .ok (key, st')) :
    ctx.sender = st.bridge ∧ ¬deadline < ctx.timestamp ∧
      ctx.verifyAttestationProof st.attestationVerifier publicValues proofBytes = some key ∧
      _verifyKeySignature X cfg publicValues proofBytes deadline signature key = .ok () ∧
      insertKey st t key r e = .ok st' := by
  obtain ⟨_, sender, h⟩ := (Outcome.bind_ok _ _ _).mp h
  obtain ⟨_, early, h⟩ := (Outcome.bind_ok _ _ _).mp h
  obtain ⟨_, proof, h⟩ := (Outcome.bind_ok _ _ _).mp h
  obtain ⟨_, signed, h⟩ := (Outcome.bind_ok _ _ _).mp h
  obtain ⟨_, inserted, h⟩ := (Outcome.bind_ok _ _ _).mp h
  cases h
  exact ⟨onlyBridge_ok sender, by simpa using require_ok early,
    (verifyProof_iff _ _ _ _ _).mp proof, signed, inserted⟩

theorem approveKey_ok (h : approveKey ctx st t key e = .ok st') :
    ctx.sender = st.bridge ∧ _getPendingKeys st t key = true ∧
      st' = setExpiration (_putKeySet (_deletePendingKey st t key)
        (((_getKeySet (_deletePendingKey st t key) t).add key).getD
          (_getKeySet (_deletePendingKey st t key) t)) t) key e := by
  obtain ⟨_, sender, h⟩ := (Outcome.bind_ok _ _ _).mp h
  obtain ⟨_, pending, h⟩ := (Outcome.bind_ok _ _ _).mp h
  cases h
  exact ⟨onlyBridge_ok sender, require_ok pending, rfl⟩

theorem rejectKey_ok (h : rejectKey ctx st t key = .ok st') :
    ctx.sender = st.bridge ∧ _getPendingKeys st t key = true ∧ st' =
      _deletePendingKey st t key := by
  obtain ⟨_, sender, h⟩ := (Outcome.bind_ok _ _ _).mp h
  obtain ⟨_, pending, h⟩ := (Outcome.bind_ok _ _ _).mp h
  cases h
  exact ⟨onlyBridge_ok sender, require_ok pending, rfl⟩

theorem removeKey_ok (h : removeKey ctx st t key = .ok st') :
    ctx.sender = st.bridge ∧ ∃ keys, (_getKeySet st t).remove key = some keys ∧
      st' = setExpiration (_putKeySet st keys t) key 0 := by
  obtain ⟨_, sender, h⟩ := (Outcome.bind_ok _ _ _).mp h
  split at h
  · cases h
  · rename_i keys removed
    cases h
    exact ⟨onlyBridge_ok sender, keys, removed, rfl⟩

theorem setKeyExpiration_ok (h : setKeyExpiration ctx st key e = .ok st') :
    ctx.sender = st.bridge ∧ st' = setExpiration st key e := by
  obtain ⟨_, sender, h⟩ := (Outcome.bind_ok _ _ _).mp h
  obtain ⟨_, _, h⟩ := (Outcome.bind_ok _ _ _).mp h
  cases h
  exact ⟨onlyBridge_ok sender, rfl⟩

theorem revokeAllKeys_ok (h : revokeAllKeys ctx st = .ok st') :
    ctx.sender = st.bridge ∧ ∃ sequencers, sequencers = st.sequencerKeys.values.foldl
        (revokeKey .Sequencer) st ∧
      st' = sequencers.validatorKeys.values.foldl (revokeKey .Validator) sequencers := by
  obtain ⟨_, sender, h⟩ := (Outcome.bind_ok _ _ _).mp h
  cases h
  exact ⟨onlyBridge_ok sender, _, rfl, rfl⟩

theorem updateAttestationVerifier_ok {v : Address}
    (h : updateAttestationVerifier ctx st v = .ok st') :
    ctx.sender = st.bridge ∧ st' = { st with attestationVerifier := v } := by
  obtain ⟨_, sender, h⟩ := (Outcome.bind_ok _ _ _).mp h
  cases h
  exact ⟨onlyBridge_ok sender, rfl⟩

/-- A function without return data, as it is called from outside. -/
theorem returned_ok {x : Except Error State} {data : Bytes}
    (h : (do return (([] : Bytes), ← x)) = .ok (data, st')) : x = .ok st' := by
  obtain ⟨_, done, h⟩ := (Outcome.bind_ok _ _ _).mp h
  cases h
  exact done

/-- A function that returns the key, as it is called from outside. -/
theorem keyed_ok {x : Except Error (Address × State)} {data : Bytes}
    (h : (do let (key, st) ← x
             return (word (key.setWidth 256), st)) = .ok (data, st')) : ∃ key, x =
               .ok (key, st') := by
  obtain ⟨⟨key, _⟩, done, h⟩ := (Outcome.bind_ok _ _ _).mp h
  cases h
  exact ⟨key, done⟩

end Accepted

/-- The functions reserved for the bridge. -/
def Call.restricted : Call → Bool
  | .setBridge _ | .isKeyValid _ _ | .query => false
  | _ => true

/-- A call that succeeds on a configured key manager keeps its bridge, and changes something only
when it is a restricted function called by the bridge. -/
theorem dispatch_ok (c : Call) (data : Bytes) (st' : State) (hb : st.bridge ≠ 0)
    (h : dispatch X cfg ctx st c = .ok (data, st')) :
    st'.bridge = st.bridge ∧
      (st' = st ∨ (c.restricted = true ∧ ctx.sender = st.bridge)) := by
  cases c with
  | setBridge b => exact absurd (setBridge_ok (returned_ok h)).1 hb
  | isKeyValid t k =>
    obtain ⟨_, _, h⟩ := (Outcome.bind_ok _ _ _).mp h
    cases h
    exact ⟨rfl, .inl rfl⟩
  | addKey t pv pb r e =>
    obtain ⟨key, h⟩ := keyed_ok h
    obtain ⟨sender, -, inserted⟩ := addKey_ok h
    exact ⟨insertKey_bridge inserted, .inr ⟨rfl, sender⟩⟩
  | addKeyWithSignature t pv pb d s r e =>
    obtain ⟨key, h⟩ := keyed_ok h
    obtain ⟨sender, -, -, -, inserted⟩ := addKeyWithSignature_ok h
    exact ⟨insertKey_bridge inserted, .inr ⟨rfl, sender⟩⟩
  | approveKey t k e =>
    obtain ⟨sender, -, rfl⟩ := approveKey_ok (returned_ok h)
    exact ⟨by simp, .inr ⟨rfl, sender⟩⟩
  | rejectKey t k =>
    obtain ⟨sender, -, rfl⟩ := rejectKey_ok (returned_ok h)
    exact ⟨by simp, .inr ⟨rfl, sender⟩⟩
  | removeKey t k =>
    obtain ⟨sender, keys, -, rfl⟩ := removeKey_ok (returned_ok h)
    exact ⟨by simp, .inr ⟨rfl, sender⟩⟩
  | setKeyExpiration k e =>
    obtain ⟨sender, rfl⟩ := setKeyExpiration_ok (returned_ok h)
    exact ⟨rfl, .inr ⟨rfl, sender⟩⟩
  | revokeAllKeys =>
    obtain ⟨sender, sequencers, revoked, rfl⟩ := revokeAllKeys_ok (returned_ok h)
    refine ⟨?_, .inr ⟨rfl, sender⟩⟩
    rw [revoke_bridge, revoked, revoke_bridge]
  | updateAttestationVerifier v =>
    obtain ⟨sender, rfl⟩ := updateAttestationVerifier_ok (returned_ok h)
    exact ⟨rfl, .inr ⟨rfl, sender⟩⟩
  | query =>
    cases h
    exact ⟨rfl, .inl rfl⟩

/-- The attestation that a registration call presents. -/
def Call.attestation : Call → Option (Bytes × Bytes)
  | .addKey _ pv pb _ _ => some (pv, pb)
  | .addKeyWithSignature _ pv pb _ _ _ _ => some (pv, pb)
  | _ => none

/-- A registration succeeds only with an attestation that the verifier accepts. -/
theorem dispatch_attested (c : Call) (r : Bytes × State) (pv pb : Bytes)
    (hc : c.attestation = some (pv, pb)) (h : dispatch X cfg ctx st c = .ok r) :
    ∃ key, ctx.verifyAttestationProof st.attestationVerifier pv pb = some key := by
  obtain ⟨data, st'⟩ := r
  cases c with
  | addKey t pv pb r e =>
    cases hc
    obtain ⟨key, h⟩ := keyed_ok h
    exact ⟨key, (addKey_ok h).2.1⟩
  | addKeyWithSignature t pv pb d s r e =>
    cases hc
    obtain ⟨key, h⟩ := keyed_ok h
    exact ⟨key, (addKeyWithSignature_ok h).2.2.1⟩
  | _ => cases hc

end Effects

end TeeKeyManager

end SyndDB.Contracts
