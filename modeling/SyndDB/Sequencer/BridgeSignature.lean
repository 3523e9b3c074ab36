import SyndDB.Contracts.Bridge
import SyndDB.Framework.Text
import SyndDB.Sequencer.Pipeline

namespace SyndDB.Sequencer

open Octets Text Shared Resumption
open Contracts (Address Bytes32 UInt256 Crypto Deployment World SequencerSignature word
  packedAddress word_injective packedAddress_injective)

/-- `alloy::signers::Signature` -/
structure RawSignature where
  r : UInt256
  s : UInt256
  v : Bool

/-- The signing key. An error of `sign_raw_sync` is given by its text. -/
structure EvmKeyManager where
  address : Address
  signRawSync : Bytes → Except String RawSignature

structure BridgeSignature where
  messageId : Hex
  messageHash : Hex
  signature : Hex
  signer : Hex
  deriving DecidableEq

/-- `strip_prefix("0x").unwrap_or(..)` -/
def strip0x : Bytes → Bytes
  | 48 :: 120 :: rest => rest
  | text => text

def decodeField (label : String) (data : Bytes) : Except InboxError Bytes :=
  (decodeHex data).mapError fun e => .Signing (label ++ e.display)

/-- A 32-byte array with the bytes at its end; what is beyond the first 32 of them is cut off. -/
def leftPadded (bytes : Bytes) : Bytes :=
  List.replicate (32 - min bytes.length 32) 0 ++ bytes.take (min bytes.length 32)

def messageIdB256 (X : Crypto) (messageId : String) : Except InboxError Bytes :=
  let messageIdHex := strip0x (utf8 messageId)
  if messageIdHex.length = 64 && messageIdHex.all isAsciiHexdigit then
    decodeField "Invalid message_id hex: " messageIdHex
  else if messageIdHex.all isAsciiHexdigit && !messageIdHex.isEmpty then
    (decodeField "Invalid message_id hex: " messageIdHex).map leftPadded
  else .ok (word (X.keccak256 (utf8 messageId)))

def parseTargetAddress (targetAddress : String) : Except InboxError Bytes := do
  let bytes ← decodeField "Invalid target address hex: " (strip0x (utf8 targetAddress))
  if bytes.length ≠ 20 then
    .error (.Signing ("Invalid target address length: expected 20 bytes, got " ++
      toString bytes.length))
  else return bytes

def parseAmount (nativeTokenAmount : String) : Except InboxError Nat :=
  (parseUnsigned 128 (utf8 nativeTokenAmount)).mapError fun e =>
    .Signing ("Invalid amount: " ++ e.display)

/-- `r || s || v` -/
def RawSignature.bytes (sig : RawSignature) : Bytes :=
  word sig.r ++ word sig.s ++ [if sig.v then 28 else 27]

def signBridgeWithdrawal (X : Crypto) (keyManager : EvmKeyManager)
    (messageId targetAddress : String)
    (payload : Bytes) (nativeTokenAmount : String) : Except InboxError BridgeSignature := do
  let messageIdB256 ← messageIdB256 X messageId
  let targetAddressBytes ← parseTargetAddress targetAddress
  let amount ← parseAmount nativeTokenAmount
  let payloadHash := X.keccak256 payload
  let packed := messageIdB256 ++ targetAddressBytes ++ word payloadHash ++ bigEndian 32 amount
  let bridgeMessageHash := X.keccak256 packed
  let ethSignedData := [0x19] ++ ascii "Ethereum Signed Message:\n32" ++ word bridgeMessageHash
  let ethSignedHash := X.keccak256 ethSignedData
  let alloySig ← (keyManager.signRawSync (word ethSignedHash)).mapError InboxError.Signing
  return ⟨hex0x messageIdB256, hex0x (word bridgeMessageHash), hex0x alloySig.bytes,
    hex0x (packedAddress keyManager.address)⟩

theorem length_leftPadded (bytes : Bytes) : (leftPadded bytes).length = 32 := by
  rw [leftPadded, List.length_append, List.length_replicate, List.length_take]
  omega

theorem decodeField_ok (label : String) (data bytes : Bytes) :
    decodeField label data = .ok bytes ↔ data.map lowerHex = hexText bytes := by
  rw [decodeField, Outcome.mapError_ok, decodeHex_ok]

theorem messageIdB256_length (X : Crypto) (messageId : String) (bytes : Bytes)
    (h : messageIdB256 X messageId = .ok bytes) : bytes.length = 32 := by
  simp only [messageIdB256, Bool.and_eq_true, decide_eq_true_eq] at h
  split at h
  case isTrue exact =>
    have digits := congrArg List.length ((decodeField_ok _ _ _).mp h)
    rw [List.length_map, length_hexText, exact.1] at digits
    omega
  case isFalse =>
    split at h
    · obtain ⟨decoded, -, rfl⟩ := (Outcome.map_ok _ _ _).mp h
      exact length_leftPadded decoded
    · cases h
      exact length_bigEndian 32 _

theorem parseTargetAddress_ok (targetAddress : String) (bytes : Bytes) :
    parseTargetAddress targetAddress = .ok bytes ↔
      (strip0x (utf8 targetAddress)).map lowerHex = hexText bytes ∧ bytes.length = 20 := by
  rw [parseTargetAddress, Outcome.bind_ok]
  constructor
  · intro given
    obtain ⟨decoded, hdecoded, h⟩ := given
    obtain ⟨length, same⟩ := (Outcome.guard_ok _ _ _ _).mp h
    cases same
    exact ⟨(decodeField_ok _ _ _).mp hdecoded, not_not.mp length⟩
  · intro given
    obtain ⟨text, length⟩ := given
    exact ⟨bytes, (decodeField_ok _ _ _).mpr text,
      (Outcome.guard_ok _ _ _ _).mpr ⟨not_not.mpr length, rfl⟩⟩

theorem parseAmount_lt (nativeTokenAmount : String) (amount : Nat)
    (h : parseAmount nativeTokenAmount = .ok amount) : amount < 2 ^ 128 :=
  parseUnsigned_lt 128 amount _ ((Outcome.mapError_ok _ _ _).mp h)

theorem word_ofBytes (bytes : Bytes) (h : bytes.length = 32) :
    word (BitVec.ofNat 256 (fromBigEndian bytes)) = bytes := by
  have small := fromBigEndian_lt bytes
  rw [h] at small
  rw [word, BitVec.toNat_ofNat, Nat.mod_eq_of_lt (by simpa using small), ← h,
    bigEndian_fromBigEndian]

theorem packedAddress_ofBytes (bytes : Bytes) (h : bytes.length = 20) :
    packedAddress (BitVec.ofNat 160 (fromBigEndian bytes)) = bytes := by
  have small := fromBigEndian_lt bytes
  rw [h] at small
  rw [packedAddress, BitVec.toNat_ofNat, Nat.mod_eq_of_lt (by simpa using small), ← h,
    bigEndian_fromBigEndian]

/-- The typed values that the texts of a request stand for. -/
structure Denotes (X : Crypto) (messageId targetAddress nativeTokenAmount : String) (m : Bytes32)
    (t : Address) (a : UInt256) : Prop where
  messageId : messageIdB256 X messageId = .ok (word m)
  targetAddress : parseTargetAddress targetAddress = .ok (packedAddress t)
  nativeTokenAmount : parseAmount nativeTokenAmount = .ok a.toNat

/-- `ethSignedHash` of `_initializeMessage` -/
def bridgeDigest (X : Crypto) (m : Bytes32) (t : Address) (payload : Bytes) (a : UInt256) :
    Bytes32 :=
  Contracts.toEthSignedMessageHash X (Contracts.messageHash X m t payload a)

theorem denotes_of_parsed (X : Crypto) (messageId targetAddress nativeTokenAmount : String)
    (id target : Bytes) (amount : Nat) (hid : messageIdB256 X messageId = .ok id)
    (htarget : parseTargetAddress targetAddress = .ok target)
    (hamount : parseAmount nativeTokenAmount = .ok amount) :
    ∃ m t a, Denotes X messageId targetAddress nativeTokenAmount m t a ∧ id = word m ∧
      target = packedAddress t ∧ amount = a.toNat := by
  have wide := word_ofBytes id (messageIdB256_length X messageId id hid)
  have narrow := packedAddress_ofBytes target ((parseTargetAddress_ok _ _).mp htarget).2
  have small : amount < 2 ^ 256 :=
    lt_trans (parseAmount_lt nativeTokenAmount amount hamount) (by decide)
  have exact : (BitVec.ofNat 256 amount).toNat = amount := by
    rw [BitVec.toNat_ofNat, Nat.mod_eq_of_lt small]
  refine ⟨BitVec.ofNat 256 (fromBigEndian id), BitVec.ofNat 160 (fromBigEndian target),
    BitVec.ofNat 256 amount, ⟨?_, ?_, ?_⟩, wide.symm, narrow.symm, exact.symm⟩
  · rw [wide]
    exact hid
  · rw [narrow]
    exact htarget
  · rw [exact]
    exact hamount

/-- A signature is returned when the request parses and the key signs the digest of the bridge. -/
theorem signBridgeWithdrawal_ok (X : Crypto) (keyManager : EvmKeyManager)
    (messageId targetAddress : String) (payload : Bytes) (nativeTokenAmount : String)
    (out : BridgeSignature) :
    signBridgeWithdrawal X keyManager messageId targetAddress payload nativeTokenAmount = .ok out ↔
      ∃ m t a sig, Denotes X messageId targetAddress nativeTokenAmount m t a ∧
        keyManager.signRawSync (word (bridgeDigest X m t payload a)) = .ok sig ∧
        out = ⟨hex0x (word m), hex0x (word (Contracts.messageHash X m t payload a)),
          hex0x sig.bytes, hex0x (packedAddress keyManager.address)⟩ := by
  simp only [signBridgeWithdrawal, Outcome.bind_ok, Outcome.mapError_ok]
  constructor
  · intro h
    obtain ⟨id, hid, target, htarget, amount, hamount, sig, hsig, result⟩ := h
    obtain ⟨m, t, a, denotes, rfl, rfl, rfl⟩ :=
      denotes_of_parsed X messageId targetAddress nativeTokenAmount id target amount hid htarget
        hamount
    cases result
    exact ⟨m, t, a, sig, denotes, hsig, rfl⟩
  · intro h
    obtain ⟨m, t, a, sig, denotes, hsig, rfl⟩ := h
    exact ⟨_, denotes.messageId, _, denotes.targetAddress, _, denotes.nativeTokenAmount, sig, hsig,
      rfl⟩

structure BridgeMessage where
  messageId : Bytes32
  targetAddress : Address
  payload : Bytes
  nativeTokenAmount : UInt256
  deriving DecidableEq

namespace BridgeMessage

def digest (X : Crypto) (M : BridgeMessage) : Bytes32 :=
  bridgeDigest X M.messageId M.targetAddress M.payload M.nativeTokenAmount

/-- `_initializeMessage` goes through. -/
def Accepted (D : Deployment) (sender : Address) (w : World) (M : BridgeMessage)
    (sequencerSignature : SequencerSignature) : Prop :=
  ∃ w', Contracts._initializeMessage D sender M.messageId M.targetAddress M.payload
    sequencerSignature M.nativeTokenAmount w = .ret () w'

/-- `abi.encodePacked` of the four values that are hashed. -/
def packed (m : Bytes32) (t : Address) (payloadHash : Bytes32) (a : UInt256) : Bytes :=
  word m ++ packedAddress t ++ word payloadHash ++ word a

/-- The byte strings that are hashed for a message. -/
def hashed (X : Crypto) (M : BridgeMessage) : List Bytes :=
  [M.payload, packed M.messageId M.targetAddress (X.keccak256 M.payload) M.nativeTokenAmount,
    [0x19] ++ ascii "Ethereum Signed Message:\n32" ++
      word (Contracts.messageHash X M.messageId M.targetAddress M.payload M.nativeTokenAmount)]

end BridgeMessage

/-- The bridge takes the key for that of a sequencer. -/
def ValidSequencer (D : Deployment) (w : World) (signer : Address) : Prop :=
  Contracts.isKeyValid D .Sequencer signer w = .ret true w

theorem isKeyValid_cases (D : Deployment) (w : World) (signer : Address) :
    (∃ valid, Contracts.isKeyValid D .Sequencer signer w = .ret valid w) ∨
      ∃ why, Contracts.isKeyValid D .Sequencer signer w = .revert why := by
  simp only [Contracts.isKeyValid, bind_apply, get_apply, bind_ret]
  split
  · cases Contracts.TeeKeyManager.isKeyValid w.timestamp w.keyManager .Sequencer signer with
    | ok valid => exact .inl ⟨valid, rfl⟩
    | error e => exact .inr ⟨_, rfl⟩
  · cases w.views.isKeyValid w.bridge.teeKeyManager .Sequencer signer with
    | some valid => exact .inl ⟨valid, rfl⟩
    | none => exact .inr ⟨_, rfl⟩

theorem require_ret {σ ε ρ ω : Type} (b : Bool) (why : ω) (s : σ) :
    (Code.require b why : Code σ ε ρ ω Unit) s = if b then .ret () s else .revert why := rfl

theorem recover_none (X : Crypto) (hash : Bytes32) (signature : Bytes)
    (h : X.recover hash signature = none) :
    Contracts.recover X hash signature = Code.revert .RecoverReverted := by
  rw [Contracts.recover, h]

theorem recover_some (X : Crypto) (hash : Bytes32) (signature : Bytes) (signer : Address)
    (h : X.recover hash signature = some signer) :
    Contracts.recover X hash signature = pure signer := by
  rw [Contracts.recover, h]

namespace BridgeMessage

/-- The bridge recovers the signer from the digest of the message. -/
theorem accepted_iff (D : Deployment) (sender : Address) (w : World) (M : BridgeMessage)
    (sequencerSignature : SequencerSignature) :
    Accepted D sender w M sequencerSignature ↔
      Contracts.isMessageInitialized w.bridge M.messageId = false ∧
      ∃ signer, D.crypto.recover (M.digest D.crypto) sequencerSignature.signature = some signer ∧
        ValidSequencer D w signer := by
  simp only [Accepted, Contracts._initializeMessage, bind_apply, get_apply, bind_ret, require_ret]
  cases fresh : Contracts.isMessageInitialized w.bridge M.messageId with
  | true => simp
  | false =>
    simp only [Bool.not_false, if_true, bind_ret, true_and, bind_apply]
    change (∃ w', (Contracts.recover D.crypto (M.digest D.crypto)
      sequencerSignature.signature w).bind _ = _) ↔ _
    cases recovered : D.crypto.recover (M.digest D.crypto) sequencerSignature.signature with
    | none =>
      rw [recover_none _ _ _ recovered]
      simp
    | some signer =>
      rw [recover_some _ _ _ signer recovered]
      simp only [pure_apply, bind_ret, bind_apply, Option.some.injEq, exists_eq_left',
        ValidSequencer]
      rcases isKeyValid_cases D w signer with ⟨valid, answer⟩ | ⟨why, answer⟩
      · rw [answer]
        cases valid with
        | false => simp [require_ret]
        | true => simp [require_ret, Contracts.modifyBridge, Contracts.record]
      · rw [answer]
        simp

theorem packed_injective (m m' : Bytes32) (t t' : Address) (payloadHash payloadHash' : Bytes32)
    (a a' : UInt256) (h : packed m t payloadHash a = packed m' t' payloadHash' a') :
    m = m' ∧ t = t' ∧ payloadHash = payloadHash' ∧ a = a' := by
  have width (x y : BitVec 256) : (word x).length = (word y).length := by
    rw [word, word, length_bigEndian, length_bigEndian]
  have addressWidth : (packedAddress t).length = (packedAddress t').length := by
    rw [packedAddress, packedAddress, length_bigEndian, length_bigEndian]
  obtain ⟨front, amounts⟩ := List.append_inj' h (width a a')
  obtain ⟨front, hashes⟩ := List.append_inj' front (width payloadHash payloadHash')
  obtain ⟨ids, targets⟩ := List.append_inj' front addressWidth
  exact ⟨word_injective _ _ ids, packedAddress_injective _ _ targets, word_injective _ _ hashes,
    word_injective _ _ amounts⟩

/-- Without a collision among the byte strings that are hashed, a digest is that of one message. -/
theorem eq_of_digest_eq (X : Crypto) (M M' : BridgeMessage)
    (collisionFree : Set.InjOn X.keccak256 {bs | bs ∈ M.hashed X ++ M'.hashed X})
    (h : M.digest X = M'.digest X) : M = M' := by
  have signed := collisionFree (by simp [hashed]) (by simp [hashed]) h
  have hashes := word_injective _ _ (List.append_cancel_left signed)
  have packings := collisionFree (by simp [hashed, packed]) (by simp [hashed, packed]) hashes
  obtain ⟨ids, targets, payloadHashes, amounts⟩ := packed_injective _ _ _ _ _ _ _ _ packings
  have payloads := collisionFree (by simp [hashed]) (by simp [hashed]) payloadHashes
  cases M with
  | mk m t p a =>
    cases M' with
    | mk m' t' p' a' =>
      simp only at ids targets payloads amounts
      rw [ids, targets, payloads, amounts]

end BridgeMessage

/-- What recovers to keys that the bridge takes for those of sequencers, in either world, is a
signature on one digest. -/
def SignsOneDigest (D : Deployment) (w w' : World) (signature : Bytes) : Prop :=
  ∀ digest digest' signer signer', D.crypto.recover digest signature = some signer →
    D.crypto.recover digest' signature = some signer' → ValidSequencer D w signer →
    ValidSequencer D w' signer' → digest = digest'

/-- The sequencer signs the digest from which the bridge recovers the signer, the packing of a
message determines it, and a signature is accepted for one message only. -/
theorem bridge_digest_agreement (D : Deployment) :
    (∀ (keyManager : EvmKeyManager) (messageId targetAddress : String) (payload : Bytes)
      (nativeTokenAmount : String) (out : BridgeSignature),
      signBridgeWithdrawal D.crypto keyManager messageId targetAddress payload nativeTokenAmount =
        .ok out →
      ∃ M : BridgeMessage, M.payload = payload ∧
        Denotes D.crypto messageId targetAddress nativeTokenAmount M.messageId M.targetAddress
          M.nativeTokenAmount ∧
        out.messageId = hex0x (word M.messageId) ∧
        ∃ sig, keyManager.signRawSync (word (M.digest D.crypto)) = .ok sig ∧
          out.signature = hex0x sig.bytes) ∧
    (∀ sender w M (sequencerSignature : SequencerSignature),
      BridgeMessage.Accepted D sender w M sequencerSignature ↔
        Contracts.isMessageInitialized w.bridge M.messageId = false ∧
        ∃ signer, D.crypto.recover (M.digest D.crypto) sequencerSignature.signature = some signer ∧
          ValidSequencer D w signer) ∧
    (∀ m t payloadHash a m' t' payloadHash' a',
      BridgeMessage.packed m t payloadHash a = BridgeMessage.packed m' t' payloadHash' a' →
      m = m' ∧ t = t' ∧ payloadHash = payloadHash' ∧ a = a') ∧
    (∀ sender sender' w w' M M' (s s' : SequencerSignature), s'.signature = s.signature →
      Set.InjOn D.crypto.keccak256 {bs | bs ∈ M.hashed D.crypto ++ M'.hashed D.crypto} →
      SignsOneDigest D w w' s.signature → BridgeMessage.Accepted D sender w M s →
      BridgeMessage.Accepted D sender' w' M' s' → M = M') := by
  refine ⟨?_, BridgeMessage.accepted_iff D, ?_, ?_⟩
  · intro keyManager messageId targetAddress payload nativeTokenAmount out returned
    obtain ⟨m, t, a, sig, denotes, signed, rfl⟩ :=
      (signBridgeWithdrawal_ok _ _ _ _ _ _ _).mp returned
    exact ⟨⟨m, t, payload, a⟩, rfl, denotes, rfl, sig, signed, rfl⟩
  · intro m t payloadHash a m' t' payloadHash' a' h
    exact BridgeMessage.packed_injective _ _ _ _ _ _ _ _ h
  · intro sender sender' w w' M M' s s' same collisionFree oneDigest accepted accepted'
    obtain ⟨-, signer, recovered, valid⟩ := (BridgeMessage.accepted_iff _ _ _ _ _).mp accepted
    obtain ⟨-, signer', recovered', valid'⟩ := (BridgeMessage.accepted_iff _ _ _ _ _).mp accepted'
    rw [same] at recovered'
    apply BridgeMessage.eq_of_digest_eq D.crypto M M' collisionFree
    exact oneDigest _ _ signer signer' recovered recovered' valid valid'

namespace Withdrawal

def targetAddress : Address := 0xd8da6bf26964af9d7eed9e03e53415d37aa96045

def payload : Bytes := [0xa9, 0x05, 0x9c, 0xbb]

def sig : RawSignature where
  r := 0x39a15b6a0834af97aeaf5a326c99f1b313354dc4025418eb3ba5ec04664d23cb
  s := 0x172ddb565405a47a6e53ad5bd1acc58b340acd26d3c5d210bb40e70d64582fb3
  v := false

def payloadHash : Bytes32 := 0xabce0605a16ff5e998983a0af570b8ad942bb11e305eb20ae3ada0a3be24eb97
def messageHash : Bytes32 := 0x03d2e00315d5d248e4d6d75ab401a683308fdefc862c1339a4845957667d2583
def signedHash : Bytes32 := 0x243abe8e9589cc2ef99be90bd311039bdb1eb32221c09b5ddcb4f165bf0a0d47

/-- The hashes, the signature and the recovered signer are the real values. -/
def crypto : Crypto where
  keccak256 bs :=
    if bs = payload then payloadHash
    else if bs = BridgeMessage.packed 10 targetAddress payloadHash 1500 then messageHash
    else if bs = [0x19] ++ ascii "Ethereum Signed Message:\n32" ++ word messageHash then signedHash
    else if bs = utf8 "0x0a" then
      0x5616f548f40164193ebf18afb90f4c1171440d2001d4aa3b86a238ac76e2bb2f
    else if bs = utf8 "000a" then
      0x54395a959a9d05a25757f8d41959279599aad9d2a3cc09eb3d1983505fa5695a
    else 0
  recover hash signature :=
    if hash = signedHash ∧ signature = sig.bytes then some Contracts.sampleSequencer else none

def keyManager : EvmKeyManager where
  address := Contracts.sampleSequencer
  signRawSync digest := if digest = word signedHash then .ok sig else .error "no such digest"

def out : BridgeSignature where
  messageId := hex0x (word 10)
  messageHash := hex0x (word messageHash)
  signature := hex0x sig.bytes
  signer := hex0x (packedAddress Contracts.sampleSequencer)

theorem signed :
    signBridgeWithdrawal crypto keyManager "0x0a" "0xd8dA6BF26964aF9D7eEd9e03E53415D37aA96045"
      payload "1500" = .ok out := by
  decide +kernel

def deployment : Deployment where
  crypto := crypto
  bridge := 0xB7
  keyManager := 0x4C
  keyManagerConfig := ⟨0xDE, 0⟩
  wrappedNativeToken := 0xEE
  decodeBridge _ := none
  decodeKeyManager _ := none
  distinct := by decide
  bridge_ne_zero := by decide
  keyManager_ne_zero := by decide

/-- The sequencer key is registered. -/
def world : World :=
  let w := Contracts.genesis deployment 0x0A 0xA7 1700000000 Contracts.sampleViews
  { w with keyManager :=
    { w.keyManager with sequencerKeys := ⟨[Contracts.sampleSequencer], List.nodup_singleton _⟩ } }

def message : BridgeMessage := ⟨10, targetAddress, payload, 1500⟩

theorem accepted : BridgeMessage.Accepted deployment 0x1A world message
    ⟨sig.bytes, 1700000000⟩ := by
  rw [BridgeMessage.accepted_iff]
  exact ⟨by decide +kernel, Contracts.sampleSequencer, by decide +kernel, rfl⟩

theorem collision_free :
    Set.InjOn crypto.keccak256 {bs | bs ∈ message.hashed crypto ++ message.hashed crypto} := by
  have distinct : ∀ bs ∈ message.hashed crypto ++ message.hashed crypto,
      ∀ cs ∈ message.hashed crypto ++ message.hashed crypto,
      crypto.keccak256 bs = crypto.keccak256 cs → bs = cs := by
    decide
  exact fun bs hbs cs hcs => distinct bs hbs cs hcs

theorem signs_one_digest : SignsOneDigest deployment world world sig.bytes := by
  intro digest digest' signer signer' recovered recovered' _ _
  have first := (Option.ite_none_right_eq_some.mp recovered).1.1
  have second := (Option.ite_none_right_eq_some.mp recovered').1.1
  exact first.trans second.symm

theorem bridge_digest_agreement_withdrawal :
    (∃ M : BridgeMessage, M.payload = payload ∧
      Denotes crypto "0x0a" "0xd8dA6BF26964aF9D7eEd9e03E53415D37aA96045" "1500" M.messageId
        M.targetAddress M.nativeTokenAmount ∧
      out.messageId = hex0x (word M.messageId) ∧
      ∃ sig, keyManager.signRawSync (word (M.digest crypto)) = .ok sig ∧
        out.signature = hex0x sig.bytes) ∧ message = message :=
  ⟨(bridge_digest_agreement deployment).1 keyManager _ _ payload _ out signed,
    (bridge_digest_agreement deployment).2.2.2 0x1A 0x1A world world message message
      ⟨sig.bytes, 1700000000⟩ ⟨sig.bytes, 1700000000⟩ rfl collision_free signs_one_digest accepted
      accepted⟩

end Withdrawal

end SyndDB.Sequencer
