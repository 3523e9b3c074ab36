import SyndDB.Contracts.Bridge
import SyndDB.Framework.Outcome
import Mathlib.Data.Set.Function

namespace SyndDB.Contracts.TeeKeyManager

open Octets

/-- The arguments of `addKeyWithSignature`. -/
structure SignedRegistration where
  keyType : KeyType
  publicValues : Bytes
  proofBytes : Bytes
  deadline : UInt256
  signature : Bytes
  requiresApproval : Bool
  expiresAt : UInt256

namespace SignedRegistration

variable (X : Crypto) (cfg : Config) (c : SignedRegistration)

/-- `abi.encodePacked(publicValues, proofBytes)` -/
def attestation : Bytes := c.publicValues ++ c.proofBytes

/-- `abi.encode(ADDKEY_TYPEHASH, attestationHash, deadline)` -/
def encodedStruct : Bytes :=
  word (X.keccak256 (ascii "AddKey(bytes32 attestationHash,uint256 deadline)")) ++
    word (X.keccak256 c.attestation) ++ word c.deadline

/-- `abi.encodePacked("\x19\x01", DOMAIN_SEPARATOR, structHash)` -/
def signedData : Bytes :=
  [0x19, 0x01] ++ word cfg.DOMAIN_SEPARATOR ++ word (X.keccak256 (c.encodedStruct X))

/-- The digest from which the signer is recovered. -/
def digest : Bytes32 := X.keccak256 (c.signedData X cfg)

/-- The byte strings that are hashed for a registration. -/
def hashed : List Bytes := [c.attestation, c.encodedStruct X, c.signedData X cfg]

/-- The call goes through and the key is the one that the attestation is for. -/
def Accepted (ctx : Context) (st : State) (key : Address) : Prop :=
  ∃ st', addKeyWithSignature X cfg ctx st c.keyType c.publicValues c.proofBytes c.deadline
    c.signature c.requiresApproval c.expiresAt = .ok (key, st')

end SignedRegistration

/-- The order of the group of secp256k1. -/
def groupOrder : Nat := 0xfffffffffffffffffffffffffffffffebaaedce6af48a03bbfd25e8cd0364141

/-- ECDSA reads a digest modulo the order of the group, and there a signature that recovers to a
given key is one for a single digest. -/
def RecoversOneDigest (X : Crypto) : Prop :=
  ∀ digest digest' signature key, X.recover digest signature = some key →
    X.recover digest' signature = some key →
    digest.toNat % groupOrder = digest'.toNat % groupOrder

/-- No two of the byte strings have hashes that ECDSA takes for one digest. -/
def CollisionFree (X : Crypto) (hashed : List Bytes) : Prop :=
  Set.InjOn (fun bs => (X.keccak256 bs).toNat % groupOrder) {bs | bs ∈ hashed}

section Binding

variable (X : Crypto) (cfg : Config) (ctx : Context) (st : State)

/-- The signature check compares the recovered signer and nothing else. -/
theorem verifyKeySignature_iff (c : SignedRegistration) (key : Address) :
    _verifyKeySignature X cfg c.publicValues c.proofBytes c.deadline c.signature key = .ok () ↔
      X.recover (c.digest X cfg) c.signature = some key := by
  rw [SignedRegistration.digest, SignedRegistration.signedData, SignedRegistration.encodedStruct,
    SignedRegistration.attestation]
  unfold _verifyKeySignature
  dsimp only
  split
  · rename_i unrecovered
    rw [unrecovered]
    simp
  · rename_i signer recovered
    rw [recovered, require_iff]
    simp

theorem insertKey_accepts (keyType : KeyType) (key : Address) (requiresApproval : Bool)
    (expiresAt : UInt256) :
    (∃ st', insertKey st keyType key requiresApproval expiresAt = .ok st') ↔
      (_getKeySet st keyType).contains key = false := by
  unfold insertKey
  constructor
  · intro accepted
    obtain ⟨st', h⟩ := accepted
    obtain ⟨_, fresh, _⟩ := (Outcome.bind_ok _ _ _).mp h
    simpa using require_ok fresh
  · intro fresh
    simp only [fresh, Bool.not_false, require, if_true]
    cases requiresApproval with
    | false => exact ⟨_, rfl⟩
    | true => exact ⟨_, rfl⟩

/-- What a registration by signature is checked for. -/
theorem accepted_iff (c : SignedRegistration) (key : Address) :
    c.Accepted X cfg ctx st key ↔
      ctx.sender = st.bridge ∧ ¬c.deadline < ctx.timestamp ∧
      ctx.verifyAttestationProof st.attestationVerifier c.publicValues c.proofBytes = some key ∧
      X.recover (c.digest X cfg) c.signature = some key ∧
      (_getKeySet st c.keyType).contains key = false := by
  constructor
  · intro accepted
    obtain ⟨st', h⟩ := accepted
    obtain ⟨sender, early, proof, signed, inserted⟩ := addKeyWithSignature_ok h
    refine ⟨sender, early, proof, (verifyKeySignature_iff X cfg c key).mp signed, ?_⟩
    exact (insertKey_accepts st c.keyType key _ _).mp ⟨st', inserted⟩
  · intro given
    obtain ⟨sender, early, proof, signed, fresh⟩ := given
    obtain ⟨st', inserted⟩ :=
      (insertKey_accepts st c.keyType key c.requiresApproval c.expiresAt).mpr fresh
    refine ⟨st', ?_⟩
    have caller : onlyBridge ctx st = .ok () := by
      rw [onlyBridge, require_iff]
      exact decide_eq_true sender
    have time : require (!(c.deadline < ctx.timestamp)) .SignatureExpired = .ok () := by
      rw [require_iff]
      simpa using early
    simp only [addKeyWithSignature, caller, time, (verifyProof_iff _ _ _ _ _).mpr proof,
      (verifyKeySignature_iff X cfg c key).mpr signed, inserted, Outcome.ok_bind]
    rfl

theorem word_length (x : BitVec 256) : (word x).length = 32 := length_bigEndian 32 _

/-- Without collisions a digest is that of one attestation and one deadline. -/
theorem digest_binds (c c' : SignedRegistration)
    (collisionFree : CollisionFree X (c.hashed X cfg ++ c'.hashed X cfg))
    (h : (c.digest X cfg).toNat % groupOrder = (c'.digest X cfg).toNat % groupOrder) :
    c.attestation = c'.attestation ∧ c.deadline = c'.deadline := by
  have data : c.signedData X cfg = c'.signedData X cfg :=
    collisionFree (by simp [SignedRegistration.hashed]) (by simp [SignedRegistration.hashed]) h
  have structs := word_injective _ _ (List.append_cancel_left data)
  have encoded : c.encodedStruct X = c'.encodedStruct X :=
    collisionFree (by simp [SignedRegistration.hashed]) (by simp [SignedRegistration.hashed])
      (congrArg (fun x => x.toNat % groupOrder) structs)
  obtain ⟨front, deadlines⟩ := List.append_inj' encoded (by rw [word_length, word_length])
  have hashes := word_injective _ _ (List.append_cancel_left front)
  have attestations : c.attestation = c'.attestation :=
    collisionFree (by simp [SignedRegistration.hashed]) (by simp [SignedRegistration.hashed])
      (congrArg (fun x => x.toNat % groupOrder) hashes)
  exact ⟨attestations, word_injective _ _ deadlines⟩

/-- The digest does not depend on anything else. -/
theorem digest_of_covered (c c' : SignedRegistration)
    (attestations : c.attestation = c'.attestation)
    (deadlines : c.deadline = c'.deadline) : c.digest X cfg = c'.digest X cfg := by
  simp only [SignedRegistration.digest, SignedRegistration.signedData,
    SignedRegistration.encodedStruct, attestations, deadlines]

/-- A signature covers the deadline and the attestation as one byte string. Two registrations
that are accepted with one signature for one key agree on these, and on the public values and the
proof when the public values have the same length. Once a registration has been accepted, the
signature check passes for all that agree with it so far: whatever the key type, and wherever the
attestation is split. -/
theorem registration_signature_binds (X : Crypto) (recovers : RecoversOneDigest X) (cfg : Config)
    (ctx : Context) (st : State) (c : SignedRegistration) (key : Address)
    (accepted : c.Accepted X cfg ctx st key) (c' : SignedRegistration)
    (same : c'.signature = c.signature)
    (collisionFree : CollisionFree X (c.hashed X cfg ++ c'.hashed X cfg)) :
    (∀ ctx' st', c'.Accepted X cfg ctx' st' key →
      c.deadline = c'.deadline ∧
      c.publicValues ++ c.proofBytes = c'.publicValues ++ c'.proofBytes ∧
      (c.publicValues.length = c'.publicValues.length →
        c.publicValues = c'.publicValues ∧ c.proofBytes = c'.proofBytes)) ∧
    (_verifyKeySignature X cfg c'.publicValues c'.proofBytes c'.deadline c'.signature key = .ok () ↔
      c.deadline = c'.deadline ∧
      c.publicValues ++ c.proofBytes = c'.publicValues ++ c'.proofBytes) := by
  obtain ⟨-, -, -, signed, -⟩ := (accepted_iff X cfg ctx st c key).mp accepted
  have binds (signed' : X.recover (c'.digest X cfg) c'.signature = some key) :
      c.attestation = c'.attestation ∧ c.deadline = c'.deadline := by
    rw [same] at signed'
    exact digest_binds X cfg c c' collisionFree (recovers _ _ _ _ signed signed')
  refine ⟨?_, ?_⟩
  · intro ctx' st' accepted'
    obtain ⟨-, -, -, signed', -⟩ := (accepted_iff X cfg ctx' st' c' key).mp accepted'
    obtain ⟨attestations, deadlines⟩ := binds signed'
    exact ⟨deadlines, attestations, List.append_inj attestations⟩
  · rw [verifyKeySignature_iff]
    constructor
    · intro signed'
      obtain ⟨attestations, deadlines⟩ := binds signed'
      exact ⟨deadlines, attestations⟩
    · intro covered
      obtain ⟨deadlines, attestations⟩ := covered
      rw [← digest_of_covered X cfg c c' attestations deadlines, same]
      exact signed

end Binding

namespace SignedSample

def domain : Bytes32 := 0x711f460fb9d86fd9a3d9494bae44c22f439a3c21cb3afc47219e84f18b1ad3bd
def typeHash : Bytes32 := 0x74ef05714b42fad4d07ec994c63bedb378c781d10044b5606b073580a9bfe35c
def attestationHash : Bytes32 := 0xf30ffc70c83ab16e3e6b0a1b9c3e0ba5b3f6576545585e5f7b97a3e387c5d37e
def structHash : Bytes32 := 0xadf20efb3e06a7a2703925468f7f5512d6fcbdef850b7b77867558764812fd9e
def digest : Bytes32 := 0x28deb53b810aab938b53b83c9e4349300289a5a4d85bd54997d511eafcd20773

def publicValues : Bytes := word (sampleSequencer.setWidth 256)

def signature : Bytes :=
  bigEndian 32 0x326443a6275e63db5d76a0966d2859766ddeff1906abd777bfba3fefbc345184 ++
    bigEndian 32 0x786094cbee17fb30a2b3f457621d26e8ef94e4f42f5578a0d0db97895cbc123e ++ [28]

/-- The hashes, the signature and the recovered signer are the real values. -/
def crypto : Crypto where
  keccak256 bs :=
    if bs = ascii "AddKey(bytes32 attestationHash,uint256 deadline)" then typeHash
    else if bs = publicValues ++ [1, 2] then attestationHash
    else if bs = word typeHash ++ word attestationHash ++ word 1700003600 then structHash
    else if bs = [0x19, 0x01] ++ word domain ++ word structHash then digest
    else 0
  recover hash bytes := if hash = digest ∧ bytes = signature then some sampleSequencer else none

/-- The domain separator is that of a key manager at `0x4E` on chain `31337`. -/
def config : Config := ⟨0xDE, domain⟩

/-- The bridge calls, and the attestation verifier answers as `MockAttestationVerifier` does. -/
def context : Context := ⟨0xB1, 1700000000, fun _ publicValues _ => decodeAddress publicValues⟩

def deployed : State := { deploy 0xA7 with bridge := 0xB1 }

/-- What the key signed: two bytes of proof. -/
def asSequencer : SignedRegistration :=
  ⟨.Sequencer, publicValues, [1, 2], 1700003600, signature, false, 0⟩

/-- The same signature for the other role, and the first byte of the proof moved to
the public values. -/
def asValidator : SignedRegistration :=
  ⟨.Validator, publicValues ++ [1], [2], 1700003600, signature, false, 0⟩

/-- The key manager once the sequencer key is registered. -/
def registered : State :=
  { deployed with sequencerKeys := ⟨[sampleSequencer], List.nodup_singleton _⟩ }

theorem accepted_sequencer :
    asSequencer.Accepted crypto config context deployed sampleSequencer := by
  rw [accepted_iff]
  decide

theorem accepted_validator :
    asValidator.Accepted crypto config context registered sampleSequencer := by
  rw [accepted_iff]
  decide

theorem contracts_apart : (0x4E : Address) ≠ 0xB1 := by decide

theorem bridge_deployed : (0xB1 : Address) ≠ 0 := by decide

theorem keyManager_deployed : (0x4E : Address) ≠ 0 := by decide

def deployment : Deployment where
  crypto := crypto
  bridge := 0xB1
  keyManager := 0x4E
  keyManagerConfig := config
  wrappedNativeToken := 0xEE
  decodeBridge _ := none
  decodeKeyManager _ := none
  distinct := contracts_apart
  bridge_ne_zero := bridge_deployed
  keyManager_ne_zero := keyManager_deployed

def entry (sender : Address) (c : SignedRegistration) :
    Resumption.Event ExtResult Entry Drift :=
  .enter (.bridge sender
    (.registerKeyWithSignature c.keyType c.publicValues c.proofBytes c.deadline c.signature))

/-- The key is registered by its relayer, and then an observer sends the signature again. -/
def observedRun : List (Resumption.Event ExtResult Entry Drift) :=
  [entry 0x66 asSequencer, entry 0x77 asValidator]

def registers (w : World) : List Address × List Address :=
  (w.keyManager.sequencerKeys.values, w.keyManager.validatorKeys.values)

/-- One signature registers the key for both roles, with two attestations. -/
theorem one_signature_two_roles :
    asSequencer.Accepted crypto config context deployed sampleSequencer ∧
    asValidator.Accepted crypto config context registered sampleSequencer ∧
    asSequencer.signature = asValidator.signature ∧ asSequencer.keyType ≠ asValidator.keyType ∧
    asSequencer.publicValues ≠ asValidator.publicValues ∧
    asSequencer.proofBytes ≠ asValidator.proofBytes ∧
    (Resumption.run (system deployment) (Resumption.boot
      (genesis deployment 0x0A 0xA7 1700000000 sampleViews)) observedRun).map
        (fun m => registers m.committed) = some ([sampleSequencer], [sampleSequencer]) :=
  ⟨accepted_sequencer, accepted_validator, rfl, by decide, by decide,
    by decide +kernel, by decide +kernel⟩

theorem recovers_one_digest : RecoversOneDigest crypto := by
  intro hash hash' bytes key h h'
  have first := (Option.ite_none_right_eq_some.mp h).1.1
  have second := (Option.ite_none_right_eq_some.mp h').1.1
  rw [first, second]

theorem collision_free :
    CollisionFree crypto
      (asSequencer.hashed crypto config ++ asValidator.hashed crypto config) := by
  have distinct : ∀ bs ∈ asSequencer.hashed crypto config ++ asValidator.hashed crypto config,
      ∀ cs ∈ asSequencer.hashed crypto config ++ asValidator.hashed crypto config,
      (crypto.keccak256 bs).toNat % groupOrder = (crypto.keccak256 cs).toNat % groupOrder →
        bs = cs := by
    decide
  exact fun bs hbs cs hcs => distinct bs hbs cs hcs

end SignedSample

theorem registration_signature_binds_roles :
    SignedSample.asSequencer.deadline = SignedSample.asValidator.deadline ∧
    SignedSample.asSequencer.publicValues ++ SignedSample.asSequencer.proofBytes =
      SignedSample.asValidator.publicValues ++ SignedSample.asValidator.proofBytes ∧
    _verifyKeySignature SignedSample.crypto SignedSample.config
      SignedSample.asValidator.publicValues
      SignedSample.asValidator.proofBytes SignedSample.asValidator.deadline
      SignedSample.asValidator.signature sampleSequencer = .ok () := by
  have binds := registration_signature_binds SignedSample.crypto SignedSample.recovers_one_digest
    SignedSample.config SignedSample.context SignedSample.deployed SignedSample.asSequencer
    sampleSequencer SignedSample.accepted_sequencer SignedSample.asValidator rfl
    SignedSample.collision_free
  obtain ⟨deadlines, attestations, -⟩ :=
    binds.1 SignedSample.context SignedSample.registered SignedSample.accepted_validator
  exact ⟨deadlines, attestations, binds.2.mpr ⟨deadlines, attestations⟩⟩

end SyndDB.Contracts.TeeKeyManager
