import SyndDB.Framework.Outcome
import SyndDB.Shared.Message

namespace SyndDB.Shared

open Octets

def BATCH_VERSION : UInt8 := 1

structure CborBatch where
  version : UInt8
  startSequence : UInt64
  endSequence : UInt64
  createdAt : UInt64
  contentHash : Bytes
  messages : List CborSignedMessage
  batchSignature : Bytes
  pubkey : Bytes
  deriving DecidableEq

/-- The serialized form, with lengths not yet checked. -/
structure CborBatchWire where
  version : UInt8
  startSequence : UInt64
  endSequence : UInt64
  createdAt : UInt64
  contentHash : Bytes
  messages : List Bytes
  batchSignature : Bytes
  pubkey : Bytes
  deriving DecidableEq

variable (X : Externals)

namespace CborBatch

/-- All message bytes one after the other, with nothing in between. -/
def contentBytes (messages : List CborSignedMessage) : Bytes :=
  messages.flatMap CborSignedMessage.coseBytes

def computeContentHash (messages : List CborSignedMessage) : Bytes :=
  X.sha256 (contentBytes messages)

def computeSigningPayload (startSequence endSequence : UInt64) (contentHash : Bytes) : Bytes :=
  X.keccak256 (batchSigningData startSequence endSequence contentHash)

/-- The range is read off the first and the last message. -/
def new (messages : List CborSignedMessage) (createdAt : UInt64) (signerPubkey : Bytes)
    (sign : Bytes → Except CborError Bytes) : Except CborError CborBatch := do
  match messages.head?, messages.getLast? with
  | some first, some last =>
      let startSequence ← first.sequence X
      let endSequence ← last.sequence X
      let contentHash := computeContentHash X messages
      let signature ← sign (computeSigningPayload X startSequence endSequence contentHash)
      return ⟨BATCH_VERSION, startSequence, endSequence, createdAt, contentHash, messages,
        signature, signerPubkey⟩
  | _, _ => throw (.InvalidBatch "Batch cannot be empty")

theorem new_ok (messages : List CborSignedMessage) (createdAt : UInt64) (signerPubkey : Bytes)
    (sign : Bytes → Except CborError Bytes) (batch : CborBatch) :
    new X messages createdAt signerPubkey sign = .ok batch ↔
      ∃ first last startSequence endSequence signature,
        messages.head? = some first ∧ messages.getLast? = some last ∧
        first.sequence X = .ok startSequence ∧ last.sequence X = .ok endSequence ∧
        sign (computeSigningPayload X startSequence endSequence (computeContentHash X messages)) =
          .ok signature ∧
        batch = ⟨BATCH_VERSION, startSequence, endSequence, createdAt,
          computeContentHash X messages, messages, signature, signerPubkey⟩ := by
  cases messages with
  | nil => simp [new, throw, throwThe, MonadExceptOf.throw]
  | cons m ms =>
    have hlast : (m :: ms).getLast? = some ((m :: ms).getLast (by simp)) :=
      List.getLast?_eq_some_getLast (by simp)
    simp only [new, List.head?_cons, hlast, Outcome.bind_ok, Option.some.injEq]
    constructor
    · intro h
      obtain ⟨s, hs, e, he, signature, hsign, hbatch⟩ := h
      cases hbatch
      exact ⟨m, _, s, e, signature, rfl, rfl, hs, he, hsign, rfl⟩
    · intro h
      obtain ⟨first, last, s, e, signature, rfl, rfl, hs, he, hsign, rfl⟩ := h
      exact ⟨s, hs, e, he, signature, hsign, rfl⟩

/-- A batch carries the messages it was built from. -/
theorem new_messages (messages : List CborSignedMessage) (createdAt : UInt64) (signerPubkey : Bytes)
    (sign : Bytes → Except CborError Bytes) (batch : CborBatch)
    (h : new X messages createdAt signerPubkey sign = .ok batch) : batch.messages = messages := by
  obtain ⟨first, last, s, e, signature, -, -, -, -, -, rfl⟩ := (new_ok X _ _ _ _ _).mp h
  rfl

def fromWire (wire : CborBatchWire) : Except CborError CborBatch := do
  if wire.contentHash.length ≠ 32 then throw (.InvalidBatch "Invalid content hash length")
  if wire.batchSignature.length ≠ 64 then throw (.InvalidBatch "Invalid batch signature length")
  if wire.pubkey.length ≠ 64 then
    throw (.InvalidBatch "Invalid public key length: expected 64 bytes")
  return ⟨wire.version, wire.startSequence, wire.endSequence, wire.createdAt, wire.contentHash,
    wire.messages.map CborSignedMessage.mk, wire.batchSignature, wire.pubkey⟩

def verifyBatchSignature (b : CborBatch) : Except CborError Unit := do
  if computeContentHash X b.messages ≠ b.contentHash then
    throw (.SignatureVerification "Content hash mismatch")
  let payload := computeSigningPayload X b.startSequence b.endSequence b.contentHash
  if !X.validKey b.pubkey then throw (.SignatureVerification "Invalid public key")
  if !X.validSignature b.batchSignature then throw (.SignatureVerification "Invalid signature")
  if !X.verifyPrehash b.pubkey (X.keccak256 payload) b.batchSignature then
    throw (.SignatureVerification "Batch signature verification failed")

end CborBatch

def CborSignedMessage.toSignedMessage (m : CborSignedMessage) (expectedPubkey : Bytes) :
    Except CborError SignedMessage := do
  let parsed ← m.verifyAndParse X expectedPubkey
  let coseProtectedHeader ← m.protectedHeader X
  return { sequence := parsed.sequence, timestamp := parsed.timestamp
           messageType := parsed.messageType.toMessageType, payload := parsed.payload
           messageHash := hex0x (X.keccak256 parsed.payload), signature := hex0x parsed.signature
           signer := hex0x parsed.pubkey, coseProtectedHeader := coseProtectedHeader }

def CborBatch.toSignedBatch (b : CborBatch) : Except CborError SignedBatch := do
  b.verifyBatchSignature X
  let verifyingKey ← verifyingKeyFromBytes X b.pubkey
  let messages ← b.messages.mapM fun m => m.toSignedMessage X verifyingKey
  return { startSequence := b.startSequence, endSequence := b.endSequence, messages := messages
           batchSignature := hex0x b.batchSignature, signer := hex0x b.pubkey
           createdAt := b.createdAt, contentHash := b.contentHash }

end SyndDB.Shared
