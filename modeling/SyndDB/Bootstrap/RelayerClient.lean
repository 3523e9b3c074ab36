import SyndDB.Contracts.RegistrationBinding
import SyndDB.Sequencer.BridgeSignature

namespace SyndDB.Bootstrap

open Octets Text
open Contracts (Address Bytes32 Crypto KeyType UInt256 packedAddress word)
open Contracts.TeeKeyManager (Config Context SignedRegistration State addKeyWithSignature
  domainSeparator)
open Sequencer (RawSignature)

inductive BootstrapError where
  | Config (message : String)
  deriving DecidableEq

structure PrivateKeySigner where
  address : Address
  signHash : Bytes32 → Except String RawSignature

/-- What the signer signs recovers to its address. -/
def PrivateKeySigner.Correct (X : Crypto) (signer : PrivateKeySigner) : Prop :=
  ∀ digest signature, signer.signHash digest = .ok signature →
    X.recover digest signature.bytes = some signer.address

/-- `Contracts.KeyType` is the enum of the same name in the client. -/
structure RegisterKeyRequest where
  publicValues : Bytes
  proofBytes : Bytes
  deadline : UInt64
  signature : Bytes
  keyType : KeyType
  deriving DecidableEq

structure RelayerClient where
  teeKeyManagerAddress : Address
  chainId : UInt64

def computeDomainSeparator (X : Crypto) (name version : String) (chainId : UInt64)
    (contract : Address) : Bytes32 :=
  let typehash := X.keccak256 (ascii
    "EIP712Domain(string name,string version,uint256 chainId,address verifyingContract)")
  X.keccak256 ([word typehash, word (X.keccak256 (ascii name)), word (X.keccak256 (ascii version)),
    bigEndian 32 chainId.toNat, List.replicate 12 0, packedAddress contract].flatten)

namespace RelayerClient

/-- The EIP-712 digest that `create_registration_signature` puts together. -/
def registrationDigest (X : Crypto) (client : RelayerClient) (publicValues proofBytes : Bytes)
    (deadline : UInt64) : Bytes32 :=
  let domainSeparator :=
    computeDomainSeparator X "TeeKeyManager" "1" client.chainId client.teeKeyManagerAddress
  let typehash := X.keccak256 (ascii "AddKey(bytes32 attestationHash,uint256 deadline)")
  let attestationHash := X.keccak256 [publicValues, proofBytes].flatten
  let structHash := X.keccak256
    [word typehash, word attestationHash, bigEndian 32 deadline.toNat].flatten
  X.keccak256 [[0x19, 0x01], word domainSeparator, word structHash].flatten

def createRegistrationSignature (X : Crypto) (client : RelayerClient) (signer : PrivateKeySigner)
    (publicValues proofBytes : Bytes) (deadline : UInt64) : Except BootstrapError Bytes := do
  let signature ← (signer.signHash
    (client.registrationDigest X publicValues proofBytes deadline)).mapError
    fun e => .Config ("Signing failed: " ++ e)
  return signature.bytes

def parseHex (label : String) (text : Bytes) : Except BootstrapError Bytes :=
  (decodeHex (trimStart0x text)).mapError fun e => .Config (label ++ e.display)

/-- The request that `register_key` sends. The deadline is an hour from now. -/
def registerKey (X : Crypto) (client : RelayerClient) (signer : PrivateKeySigner) (now : UInt64)
    (publicValues proofBytes : Bytes) (keyType : KeyType) :
    Except BootstrapError RegisterKeyRequest := do
  let deadline := now + 3600
  let publicValuesBytes ← parseHex "Invalid public_values hex: " publicValues
  let proofBytesBytes ← parseHex "Invalid proof_bytes hex: " proofBytes
  let signature ←
    createRegistrationSignature X client signer publicValuesBytes proofBytesBytes deadline
  return ⟨publicValues, proofBytes, deadline, [48, 120] ++ hexText signature, keyType⟩

end RelayerClient

/-- The arguments with which the relayer calls `registerKeyWithSignature`, or its error. -/
def RegisterKeyRequest.arguments (request : RegisterKeyRequest) :
    Except String (Bytes × Bytes × UInt256 × Bytes) := do
  let publicValues ← (decodeHex (trimStart0x request.publicValues)).mapError
    fun e => "Invalid public_values hex: " ++ e.display
  let proofBytes ← (decodeHex (trimStart0x request.proofBytes)).mapError
    fun e => "Invalid proof_bytes hex: " ++ e.display
  let signature ← (decodeHex (trimStart0x request.signature)).mapError
    fun e => "Invalid signature hex: " ++ e.display
  return (publicValues, proofBytes, BitVec.ofNat 256 request.deadline.toNat, signature)

section Agreement

variable (X : Crypto) (client : RelayerClient) (signer : PrivateKeySigner)

theorem word_uint64 (x : UInt64) : word (BitVec.ofNat 256 x.toNat) = bigEndian 32 x.toNat := by
  have small : x.toNat < 2 ^ 256 := lt_trans x.toNat_lt (by decide)
  rw [word, BitVec.toNat_ofNat, Nat.mod_eq_of_lt small]

/-- An address is padded to a word on the left. -/
theorem word_address (a : Address) :
    word (a.setWidth 256) = List.replicate 12 0 ++ packedAddress a := by
  have small : a.toNat < 2 ^ 160 := a.isLt
  have wide : (a.setWidth 256).toNat = a.toNat := by
    rw [BitVec.toNat_setWidth, Nat.mod_eq_of_lt (lt_trans small (by decide))]
  rw [word, wide, packedAddress]
  exact bigEndian_pad 12 20 a.toNat (lt_of_lt_of_eq small (by norm_num))

/-- The client computes the separator that the constructor of the key manager stores. -/
theorem domainSeparator_agrees :
    computeDomainSeparator X "TeeKeyManager" "1" client.chainId client.teeKeyManagerAddress =
      domainSeparator X (BitVec.ofNat 256 client.chainId.toNat) client.teeKeyManagerAddress := by
  simp only [computeDomainSeparator, domainSeparator, word_uint64, word_address, List.flatten_cons,
    List.flatten_nil, List.append_nil, List.append_assoc]

/-- The client signs the digest of the key manager. -/
theorem registrationDigest_agrees (deployer : Address) (c : SignedRegistration) (deadline : UInt64)
    (hd : c.deadline = BitVec.ofNat 256 deadline.toNat) :
    client.registrationDigest X c.publicValues c.proofBytes deadline =
      c.digest X ⟨deployer, domainSeparator X (BitVec.ofNat 256 client.chainId.toNat)
        client.teeKeyManagerAddress⟩ := by
  simp only [RelayerClient.registrationDigest, SignedRegistration.digest,
    SignedRegistration.signedData, SignedRegistration.encodedStruct, SignedRegistration.attestation,
    domainSeparator_agrees, hd, word_uint64, List.flatten_cons, List.flatten_nil, List.append_nil,
    List.append_assoc]

theorem parseHex_ok (label : String) (text bytes : Bytes) :
    RelayerClient.parseHex label text = .ok bytes ↔ decodeHex (trimStart0x text) = .ok bytes := by
  rw [RelayerClient.parseHex, Outcome.mapError_ok]

/-- What a request that is sent consists of. -/
theorem registerKey_ok (now : UInt64) (publicValues proofBytes : Bytes) (keyType : KeyType)
    (request : RegisterKeyRequest) :
    client.registerKey X signer now publicValues proofBytes keyType = .ok request ↔
      ∃ pv pb signature, decodeHex (trimStart0x publicValues) = .ok pv ∧
        decodeHex (trimStart0x proofBytes) = .ok pb ∧
        signer.signHash (client.registrationDigest X pv pb (now + 3600)) = .ok signature ∧
        request = ⟨publicValues, proofBytes, now + 3600, [48, 120] ++ hexText signature.bytes,
          keyType⟩ := by
  simp only [RelayerClient.registerKey, RelayerClient.createRegistrationSignature, Outcome.bind_ok,
    parseHex_ok, Outcome.mapError_ok]
  constructor
  · intro sent
    obtain ⟨pv, hpv, pb, hpb, bytes, signed, result⟩ := sent
    obtain ⟨signature, hsignature, same⟩ := signed
    cases same
    cases result
    exact ⟨pv, pb, signature, hpv, hpb, hsignature, rfl⟩
  · intro given
    obtain ⟨pv, pb, signature, hpv, hpb, hsignature, rfl⟩ := given
    exact ⟨pv, hpv, pb, hpb, signature.bytes, ⟨signature, hsignature, rfl⟩, rfl⟩

/-- The relayer reads back the bytes that were signed for, and the signature. -/
theorem arguments_registerKey (now : UInt64) (publicValues proofBytes : Bytes) (keyType : KeyType)
    (request : RegisterKeyRequest)
    (sent : client.registerKey X signer now publicValues proofBytes keyType = .ok request) :
    ∃ pv pb signature,
      signer.signHash (client.registrationDigest X pv pb request.deadline) = .ok signature ∧
      request.arguments =
        .ok (pv, pb, BitVec.ofNat 256 request.deadline.toNat, signature.bytes) := by
  obtain ⟨pv, pb, signature, hpv, hpb, hsignature, rfl⟩ :=
    (registerKey_ok X client signer now publicValues proofBytes keyType request).mp sent
  refine ⟨pv, pb, signature, hsignature, ?_⟩
  have text : trimStart0x ([48, 120] ++ hexText signature.bytes) = hexText signature.bytes :=
    trimStart0x_hexText _
  simp only [RegisterKeyRequest.arguments, hpv, hpb, text, decodeHex_hexText, Except.mapError,
    Outcome.ok_bind]
  rfl

theorem require_error {b : Bool} {e e' : Contracts.TeeKeyManager.Error} {P : Prop}
    (h : Contracts.TeeKeyManager.require b e = .error e') (distinct : e ≠ e') : P := by
  cases b with
  | false =>
    cases h
    exact absurd rfl distinct
  | true => cases h

/-- A signature that recovers to the attested key is not what a registration fails for. -/
theorem not_invalidSignature (cfg : Config) (ctx : Context) (st : State) (c : SignedRegistration)
    (key : Address)
    (attested : ctx.verifyAttestationProof st.attestationVerifier c.publicValues c.proofBytes =
      some key)
    (signed : X.recover (c.digest X cfg) c.signature = some key) :
    addKeyWithSignature X cfg ctx st c.keyType c.publicValues c.proofBytes c.deadline c.signature
      c.requiresApproval c.expiresAt ≠ .error .InvalidSignature := by
  have proof := (Contracts.TeeKeyManager.verifyProof_iff ctx st c.publicValues c.proofBytes key).mpr
    attested
  have signature := (Contracts.TeeKeyManager.verifyKeySignature_iff X cfg c key).mpr signed
  intro rejected
  rcases Outcome.bind_error _ _ _ |>.mp rejected with caller | ⟨_, -, rejected⟩
  · exact require_error caller (by simp)
  rcases Outcome.bind_error _ _ _ |>.mp rejected with time | ⟨_, -, rejected⟩
  · exact require_error time (by simp)
  rw [proof, Outcome.ok_bind, signature, Outcome.ok_bind] at rejected
  rcases Outcome.bind_error _ _ _ |>.mp rejected with inserted | ⟨_, -, rejected⟩
  · rcases Outcome.bind_error _ _ _ |>.mp inserted with fresh | ⟨_, -, inserted⟩
    · exact require_error fresh (by simp)
    · split at inserted
      · cases inserted
      · cases inserted
  · cases rejected

/-- The client signs the digest that the key manager recovers from, and no request that it makes
for its own key is rejected for its signature. -/
theorem registration_digest_agreement (correct : signer.Correct X) (deployer : Address) :
    let cfg : Config := ⟨deployer, domainSeparator X (BitVec.ofNat 256 client.chainId.toNat)
      client.teeKeyManagerAddress⟩
    (∀ (c : SignedRegistration) (deadline : UInt64),
      c.deadline = BitVec.ofNat 256 deadline.toNat →
      client.registrationDigest X c.publicValues c.proofBytes deadline = c.digest X cfg) ∧
    (∀ now publicValues proofBytes keyType request,
      client.registerKey X signer now publicValues proofBytes keyType = .ok request →
      ∃ pv pb deadline signature, request.arguments = .ok (pv, pb, deadline, signature) ∧
        ∀ ctx st requiresApproval expiresAt,
          ctx.verifyAttestationProof st.attestationVerifier pv pb = some signer.address →
          Contracts.TeeKeyManager._verifyKeySignature X cfg pv pb deadline signature
            signer.address = .ok () ∧
          addKeyWithSignature X cfg ctx st request.keyType pv pb deadline signature
            requiresApproval expiresAt ≠ .error .InvalidSignature) := by
  intro cfg
  refine ⟨?_, ?_⟩
  · intro c deadline hd
    exact registrationDigest_agrees X client deployer c deadline hd
  · intro now publicValues proofBytes keyType request sent
    obtain ⟨pv, pb, signature, hsigned, arguments⟩ :=
      arguments_registerKey X client signer now publicValues proofBytes keyType request sent
    refine ⟨pv, pb, _, _, arguments, ?_⟩
    intro ctx st requiresApproval expiresAt attested
    let c : SignedRegistration := ⟨request.keyType, pv, pb,
      BitVec.ofNat 256 request.deadline.toNat, signature.bytes, requiresApproval, expiresAt⟩
    have recovered : X.recover (c.digest X cfg) c.signature = some signer.address := by
      rw [← registrationDigest_agrees X client deployer c request.deadline rfl]
      exact correct _ _ hsigned
    exact ⟨(Contracts.TeeKeyManager.verifyKeySignature_iff X cfg c signer.address).mpr recovered,
      not_invalidSignature X cfg ctx st c signer.address attested recovered⟩

end Agreement

namespace Sample

def domainTypeHash : Bytes32 := 0x8b73c3c69bb8fe3d512ecc4cf759cc79239f7b179b0ffacaa9a75d522b39400f
def nameHash : Bytes32 := 0x73f706a3fd772e1d176fe3eab55c94dc6e71e70ea532f6de2b1e24868555f36a
def versionHash : Bytes32 := 0xc89efdaa54c0f20c7adf612882df0950f5a951637e0307cdcb4c672f298b8bc6

def sig : RawSignature where
  r := 0x326443a6275e63db5d76a0966d2859766ddeff1906abd777bfba3fefbc345184
  s := 0x786094cbee17fb30a2b3f457621d26e8ef94e4f42f5578a0d0db97895cbc123e
  v := true

/-- The hashes, the signature and the recovered signer are the real values. -/
def crypto : Crypto where
  keccak256 bs :=
    if bs = ascii
      "EIP712Domain(string name,string version,uint256 chainId,address verifyingContract)" then
      domainTypeHash
    else if bs = ascii "TeeKeyManager" then nameHash
    else if bs = ascii "1" then versionHash
    else if bs = word domainTypeHash ++ word nameHash ++ word versionHash ++ word 31337 ++ word 0x4E
      then Contracts.TeeKeyManager.SignedSample.domain
    else Contracts.TeeKeyManager.SignedSample.crypto.keccak256 bs
  recover := Contracts.TeeKeyManager.SignedSample.crypto.recover

def client : RelayerClient := ⟨0x4E, 31337⟩

def signer : PrivateKeySigner where
  address := Contracts.sampleSequencer
  signHash digest :=
    if digest = Contracts.TeeKeyManager.SignedSample.digest then .ok sig else .error
      "another digest"

def publicValues : Bytes :=
  ascii "0x0000000000000000000000007E5F4552091a69125d5dfcb7b8c2659029395bdf"

def proofBytes : Bytes := ascii "0102"

def request : RegisterKeyRequest :=
  ⟨publicValues, proofBytes, 1700003600, [48, 120] ++ hexText sig.bytes, .Sequencer⟩

theorem signer_correct : signer.Correct crypto := by
  intro digest signature signed
  have asked : digest = Contracts.TeeKeyManager.SignedSample.digest := by
    by_contra other
    simp [signer, other] at signed
  subst asked
  cases signed
  decide

theorem sent :
    client.registerKey crypto signer 1700000000 publicValues proofBytes .Sequencer =
      .ok request := by
  decide +kernel

theorem registration_digest_agreement_sequencer :
    ∃ pv pb deadline signature, request.arguments = .ok (pv, pb, deadline, signature) ∧
      addKeyWithSignature crypto ⟨0xDE, domainSeparator crypto 31337 0x4E⟩
        Contracts.TeeKeyManager.SignedSample.context Contracts.TeeKeyManager.SignedSample.deployed
        .Sequencer pv pb deadline signature false 0 ≠ .error .InvalidSignature := by
  obtain ⟨pv, pb, deadline, signature, arguments, accepted⟩ :=
    (registration_digest_agreement crypto client signer signer_correct 0xDE).2 1700000000
      publicValues proofBytes .Sequencer request sent
  refine ⟨pv, pb, deadline, signature, arguments, ?_⟩
  have values : request.arguments =
      .ok (word (Contracts.sampleSequencer.setWidth 256), [1, 2], 1700003600, sig.bytes) := by
    decide +kernel
  rw [values] at arguments
  cases arguments
  exact (accepted Contracts.TeeKeyManager.SignedSample.context
    Contracts.TeeKeyManager.SignedSample.deployed false 0 (by decide)).2

end Sample

end SyndDB.Bootstrap
