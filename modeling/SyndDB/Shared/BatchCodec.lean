import SyndDB.Shared.RoundTrip

namespace SyndDB.Shared

open Octets Outcome

def CborError.text : CborError → String
  | .Cbor message => "CBOR error: " ++ message
  | .Cose message => "COSE error: " ++ message
  | .SignatureVerification message => "Signature verification failed: " ++ message
  | .InvalidMessageType value => "Invalid message type: " ++ toString value
  | .MissingHeader field => "Missing header field: " ++ field
  | .Compression message => "Compression error: " ++ message
  | .Signing message => "Signing failed: " ++ message
  | .InvalidBatch message => "Invalid batch: " ++ message

variable (X : Externals)

/-- Messages from position `i` on. -/
def verifyMessages (key : Bytes) : Nat → List CborSignedMessage → Except CborError Unit
  | _, [] => .ok ()
  | i, m :: ms => do
      let _ ← (m.verifyAndParse X key).mapError fun e =>
        .SignatureVerification ("Message " ++ toString i ++ " verification failed: " ++ e.text)
      verifyMessages key (i + 1) ms

def CborBatch.verifyAllSignatures (b : CborBatch) : Except CborError Unit := do
  b.verifyBatchSignature X
  let verifyingKey ← verifyingKeyFromBytes X b.pubkey
  verifyMessages X verifyingKey 0 b.messages

theorem verifyMessages_ok (key : Bytes) (i : Nat) (ms : List CborSignedMessage) :
    verifyMessages X key i ms = .ok () ↔
      ∀ m ∈ ms, ∃ parsed, m.verifyAndParse X key = .ok parsed := by
  induction ms generalizing i with
  | nil => simp [verifyMessages]
  | cons m ms ih =>
    simp only [verifyMessages, bind_ok, mapError_ok, ih, exists_and_right, List.forall_mem_cons]

theorem verifyingKeyFromBytes_ok (pubkey key : Bytes) :
    verifyingKeyFromBytes X pubkey = .ok key ↔ key = pubkey ∧ X.validKey pubkey = true := by
  rw [verifyingKeyFromBytes]
  by_cases valid : X.validKey pubkey = true
  · simp [valid, eq_comm]
  · simp [valid]

theorem CborBatch.verifyBatchSignature_iff (b : CborBatch) :
    b.verifyBatchSignature X = .ok () ↔ computeContentHash X b.messages = b.contentHash ∧
      X.Verifies (computeSigningPayload X b.startSequence b.endSequence b.contentHash)
        b.batchSignature b.pubkey := by
  simp only [verifyBatchSignature, throw_bind, guard_ok, not_not, Bool.not_eq_true',
    Bool.not_eq_false]
  refine and_congr_right fun _ => ?_
  constructor
  · intro h
    obtain ⟨key, signature, last⟩ := h
    refine ⟨key, signature, ?_⟩
    by_contra unverified
    rw [if_pos (by simpa using unverified)] at last
    cases last
  · intro h
    obtain ⟨key, signature, verified⟩ := h
    refine ⟨key, signature, ?_⟩
    rw [if_neg (by simpa using verified)]
    rfl

/-- What a fully verified batch has passed. -/
theorem CborBatch.verifyAllSignatures_ok (b : CborBatch) :
    b.verifyAllSignatures X = .ok () ↔ computeContentHash X b.messages = b.contentHash ∧
      X.Verifies (computeSigningPayload X b.startSequence b.endSequence b.contentHash)
        b.batchSignature b.pubkey ∧
      ∀ m ∈ b.messages, ∃ parsed, m.verifyAndParse X b.pubkey = .ok parsed := by
  simp only [verifyAllSignatures, bind_ok, verifyingKeyFromBytes_ok]
  constructor
  · intro h
    obtain ⟨_, signature, key, ⟨rfl, -⟩, messages⟩ := h
    obtain ⟨content, verifies⟩ := (b.verifyBatchSignature_iff X).mp signature
    exact ⟨content, verifies, (verifyMessages_ok X _ _ _).mp messages⟩
  · intro h
    obtain ⟨content, verifies, messages⟩ := h
    refine ⟨(), (b.verifyBatchSignature_iff X).mpr ⟨content, verifies⟩, b.pubkey,
      ⟨rfl, verifies.validKey⟩, (verifyMessages_ok X _ _ _).mpr messages⟩

/-- `ciborium` with `serde_bytes`, and `zstd` at level 3. -/
structure Codec where
  intoWriter : CborBatchWire → Except CborError Bytes
  fromReader : Bytes → Except CborError CborBatchWire
  compress : Bytes → Except CborError Bytes
  decompress : Bytes → Except CborError Bytes

/-- What was written is read back. -/
structure Codec.Lossless (C : Codec) : Prop where
  reads : ∀ wire bytes, C.intoWriter wire = .ok bytes → C.fromReader bytes = .ok wire
  inflates : ∀ data bytes, C.compress data = .ok bytes → C.decompress bytes = .ok data

variable (C : Codec)

namespace CborBatch

def toWire (b : CborBatch) : CborBatchWire where
  version := b.version
  startSequence := b.startSequence
  endSequence := b.endSequence
  createdAt := b.createdAt
  contentHash := b.contentHash
  messages := b.messages.map CborSignedMessage.coseBytes
  batchSignature := b.batchSignature
  pubkey := b.pubkey

def toCbor (b : CborBatch) : Except CborError Bytes := C.intoWriter b.toWire

def toCborZstd (b : CborBatch) : Except CborError Bytes := do
  let cbor ← b.toCbor C
  C.compress cbor

def fromCbor (bytes : Bytes) : Except CborError CborBatch := do
  let wire ← C.fromReader bytes
  fromWire wire

def fromCborZstd (bytes : Bytes) : Except CborError CborBatch := do
  let cbor ← C.decompress bytes
  fromCbor C cbor

/-- The arrays have the lengths of their types. -/
structure Typed (b : CborBatch) : Prop where
  contentHash : b.contentHash.length = 32
  batchSignature : b.batchSignature.length = 64
  pubkey : b.pubkey.length = 64

theorem fromWire_toWire (b : CborBatch) (typed : b.Typed) : fromWire b.toWire = .ok b := by
  have messages : (b.messages.map CborSignedMessage.coseBytes).map CborSignedMessage.mk =
      b.messages := by
    rw [List.map_map]
    exact List.map_id _
  simp only [fromWire, throw_bind, guard_ok, toWire, typed.contentHash, typed.batchSignature,
    typed.pubkey, messages, ne_eq, not_true_eq_false, not_false_eq_true, true_and]
  rfl

/-- A batch made from messages that were made under the same key verifies. -/
theorem new_verifies (reads : X.ReadsMessages) (back : X.ReadsBack)
    (messages : List CborSignedMessage)
    (createdAt : UInt64) (key : Bytes) (sign : Bytes → Except CborError Bytes)
    (signer : X.SigningKey key sign)
    (made : ∀ m ∈ messages, ∃ sequence timestamp messageType payload,
      CborSignedMessage.new X sequence timestamp messageType payload key sign = .ok m)
    (b : CborBatch) (h : new X messages createdAt key sign = .ok b) :
    b.verifyAllSignatures X = .ok () := by
  obtain ⟨first, last, startSequence, endSequence, signature, -, -, -, -, signed, rfl⟩ :=
    (new_ok X _ _ _ _ _).mp h
  refine (verifyAllSignatures_ok X _).mpr ⟨rfl, (signer.correct _ _ signed).2, ?_⟩
  intro m member
  obtain ⟨sequence, timestamp, messageType, payload, built⟩ := made m member
  obtain ⟨bytes, coded, returned⟩ := (bind_ok _ _ _).mp built
  cases returned
  obtain ⟨signature, header, verified, -⟩ :=
    built_accepted X reads back sequence timestamp messageType
    payload key sign signer bytes coded
  exact ⟨_, verified⟩

/-- A batch comes back as it was from either codec, and what was built under one key
verifies after that. -/
theorem round_trip (reads : X.ReadsMessages) (back : X.ReadsBack) (lossless : C.Lossless)
    (b : CborBatch)
    (typed : b.Typed) (cbor packed : Bytes) (written : C.intoWriter b.toWire = .ok cbor)
    (compressed : C.compress cbor = .ok packed) :
    (b.toCbor C = .ok cbor ∧ fromCbor C cbor = .ok b) ∧
    (b.toCborZstd C = .ok packed ∧ fromCborZstd C packed = .ok b) ∧
    ∀ decoded, fromCbor C cbor = .ok decoded ∨ fromCborZstd C packed = .ok decoded →
      decoded.verifyBatchSignature X = b.verifyBatchSignature X ∧
      decoded.verifyAllSignatures X = b.verifyAllSignatures X ∧
      ∀ messages createdAt key sign, X.SigningKey key sign →
        (∀ m ∈ messages, ∃ sequence timestamp messageType payload,
          CborSignedMessage.new X sequence timestamp messageType payload key sign = .ok m) →
        new X messages createdAt key sign = .ok b → decoded.verifyAllSignatures X = .ok () := by
  have read : fromCbor C cbor = .ok b := by
    rw [fromCbor, lossless.reads b.toWire cbor written, ok_bind]
    exact fromWire_toWire b typed
  have inflated : fromCborZstd C packed = .ok b := by
    rw [fromCborZstd, lossless.inflates cbor packed compressed, ok_bind]
    exact read
  have stored : b.toCborZstd C = .ok packed := by
    rw [toCborZstd, toCbor, written, ok_bind]
    exact compressed
  refine ⟨⟨written, read⟩, ⟨stored, inflated⟩, ?_⟩
  intro decoded either
  obtain rfl : b = decoded := by
    rcases either with plain | zstd
    · exact Except.ok.inj (read.symm.trans plain)
    · exact Except.ok.inj (inflated.symm.trans zstd)
  refine ⟨rfl, rfl, ?_⟩
  intro messages createdAt key sign signer made built
  exact new_verifies X reads back messages createdAt key sign signer made b built

end CborBatch

namespace Sample

/-- Messages 0 and 1. -/
def builtBatch : CborBatch :=
  ⟨BATCH_VERSION, 0, 1, timestamp, contentHash01, [message cose0, message cose1],
    batchSignature01, pubkey⟩

def builtCbor : Bytes := builtBatch.toWire.encode

/-- A codec that knows some batches. Its zstd writes uncompressed blocks. -/
def recordedCodec (wires : List CborBatchWire) : Codec where
  intoWriter wire := if wire ∈ wires then .ok wire.encode else .error (.Cbor "not recorded")
  fromReader bytes :=
    match wires.find? fun wire => wire.encode = bytes with
    | some wire => .ok wire
    | none => .error (.Cbor "not recorded")
  compress data := .ok (zstdRawFrame data)
  decompress bytes := .ok (bytes.drop 9)

theorem recordedCodec_lossless (wires : List CborBatchWire)
    (h : ∀ w ∈ wires, ∀ w' ∈ wires, w.encode = w'.encode → w = w') :
      (recordedCodec wires).Lossless where
  reads wire bytes written := by
    simp only [recordedCodec] at written
    split at written
    · next member =>
      obtain rfl : wire.encode = bytes := Except.ok.inj written
      obtain ⟨other, found⟩ : ∃ other, wires.find? (fun w => w.encode = wire.encode) =
          some other := by
        rw [← Option.isSome_iff_exists, List.find?_isSome]
        exact ⟨wire, member, by simp⟩
      have same : other = wire := by
        apply h other (List.mem_of_find?_eq_some found) wire member
        simpa using List.find?_some found
      simp only [recordedCodec, found, same]
    · cases written
  inflates data bytes compressed := by
    obtain rfl : zstdRawFrame data = bytes := Except.ok.inj compressed
    have header : (bigEndian 6 0x28b52ffd0058 ++
        (bigEndian 3 (8 * data.length + 1)).reverse).length = 9 := by
      simp
    exact congrArg Except.ok (List.drop_left' header)

def codec : Codec := recordedCodec [builtBatch.toWire]

theorem codec_lossless : codec.Lossless :=
  recordedCodec_lossless _ (by decide +kernel)

theorem round_trip_two :
    CborBatch.new record.externals builtBatch.messages timestamp pubkey (record.sign pubkey) =
      .ok builtBatch ∧
    ∃ decoded, CborBatch.fromCborZstd codec (zstdRawFrame builtCbor) = .ok decoded ∧
      decoded.verifyAllSignatures record.externals = .ok () := by
  have built : CborBatch.new record.externals builtBatch.messages timestamp pubkey
      (record.sign pubkey) = .ok builtBatch := by
    decide +kernel
  have signer := record.signingKey pubkey (by decide) (by decide)
  have made : ∀ m ∈ builtBatch.messages, ∃ sequence timestamp messageType payload,
      CborSignedMessage.new record.externals sequence timestamp messageType payload pubkey
        (record.sign pubkey) = .ok m := by
    intro m member
    rcases List.mem_pair.mp member with rfl | rfl
    · exact ⟨0, timestamp, .Changeset, payload, by decide⟩
    · exact ⟨1, timestamp, .Changeset, payload, by decide⟩
  obtain ⟨-, ⟨-, read⟩, verified⟩ := CborBatch.round_trip record.externals codec
    (record.readsMessages wellFormed) (record.readsBack (by decide +kernel)) codec_lossless
      builtBatch
    ⟨by decide, by decide, by decide⟩ builtCbor (zstdRawFrame builtCbor) (by decide +kernel) rfl
  obtain ⟨-, -, whole⟩ := verified builtBatch (.inr read)
  exact ⟨built, builtBatch, read, whole _ _ _ _ signer made built⟩

end Sample

end SyndDB.Shared
