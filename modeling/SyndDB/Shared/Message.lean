import SyndDB.Shared.Cose

namespace SyndDB.Shared

open Octets

inductive VerificationError where
  | InvalidSignature (message : String)
  | InvalidPublicKey (message : String)
  | VerificationFailed (e : CborError)
  | HeaderMismatch (field outer header : String)
  | ProtectedHeaderParse (message : String)
  deriving DecidableEq

inductive MessageType where
  | Changeset
  | Withdrawal
  | Snapshot
  deriving DecidableEq

def CborMessageType.toMessageType : CborMessageType → MessageType
  | .Changeset => .Changeset
  | .Withdrawal => .Withdrawal
  | .Snapshot => .Snapshot

/-- Hexadecimal text of the JSON representation, as its characters. -/
abbrev Hex := List Char

structure SignedMessage where
  sequence : UInt64
  timestamp : UInt64
  messageType : MessageType
  payload : Bytes
  messageHash : Hex
  signature : Hex
  signer : Hex
  coseProtectedHeader : Bytes
  deriving DecidableEq

structure SignedBatch where
  startSequence : UInt64
  endSequence : UInt64
  messages : List SignedMessage
  batchSignature : Hex
  signer : Hex
  createdAt : UInt64
  contentHash : Bytes
  deriving DecidableEq

def hex0x (bs : Bytes) : Hex := '0' :: 'x' :: hexChars bs

/-- The digits left after an optional `0x`. -/
def stripHexPrefix : Hex → Hex
  | '0' :: 'x' :: digits => digits
  | digits => digits

@[simp] theorem stripHexPrefix_hex0x (bs : Bytes) : stripHexPrefix (hex0x bs) = hexChars bs := rfl

theorem hex0x_injective (as bs : Bytes) (h : hex0x as = hex0x bs) : as = bs := by
  have digits := congrArg (fun text => hexBytes (stripHexPrefix text)) h
  simpa [hexBytes_hexChars] using digits

/-- Head of a CBOR item: major type and length or value. -/
def cborHead (major n : Nat) : Bytes :=
  let m := major * 32
  if n < 24 then [UInt8.ofNat (m + n)]
  else if n < 2 ^ 8 then UInt8.ofNat (m + 24) :: bigEndian 1 n
  else if n < 2 ^ 16 then UInt8.ofNat (m + 25) :: bigEndian 2 n
  else if n < 2 ^ 32 then UInt8.ofNat (m + 26) :: bigEndian 4 n
  else UInt8.ofNat (m + 27) :: bigEndian 8 n

def cborBytes (bs : Bytes) : Bytes := cborHead 2 bs.length ++ bs

/-- `["Signature1", protected, h'', payload]` -/
def buildCoseSigStructure (protectedHeader payload : Bytes) : Bytes :=
  cborHead 4 4 ++ (cborHead 3 10 ++ ascii "Signature1") ++ cborBytes protectedHeader ++
    cborBytes [] ++ cborBytes payload

/-- The last integer under the label, cut down to 64 bits. -/
def lastU64 (label : Int) (entries : List (Value × Value)) : Option UInt64 :=
  entries.foldl (fun found entry =>
    match entry with
    | (.integer l, .integer v) =>
        if l = label then some (UInt64.ofNat (v % 2 ^ 64).toNat) else found
    | _ => found) none

variable (X : Externals)

def parseCoseProtectedHeaderFields (protectedHeader : Bytes) :
    Except VerificationError (UInt64 × UInt64) :=
  match X.fromReader protectedHeader with
  | none => .error (.ProtectedHeaderParse "CBOR parse error")
  | some .other => .error (.ProtectedHeaderParse "Protected header is not a CBOR map")
  | some (.map entries) =>
      match lastU64 HEADER_SEQUENCE entries with
      | none => .error (.ProtectedHeaderParse "Missing sequence in protected header")
      | some sequence =>
          match lastU64 HEADER_TIMESTAMP entries with
          | none => .error (.ProtectedHeaderParse "Missing timestamp in protected header")
          | some timestamp => .ok (sequence, timestamp)

def decodeSignature (signature : Hex) (kind : String) : Except VerificationError Bytes :=
  match hexBytes (stripHexPrefix signature) with
  | none => .error (.InvalidSignature "Invalid hex")
  | some bytes =>
      if bytes.length = 64 then .ok bytes
      else .error (.InvalidSignature (kind ++ " signature must be 64 bytes, got " ++
        toString bytes.length))

def decodePubkey (signer : Hex) : Except VerificationError Bytes :=
  match hexBytes (stripHexPrefix signer) with
  | none => .error (.InvalidPublicKey "Invalid hex")
  | some bytes =>
      if bytes.length = 64 then .ok bytes
      else .error (.InvalidPublicKey ("Public key must be 64 bytes, got " ++ toString bytes.length))

/-- The common end of both verification functions: parse signature and key, then verify. -/
def verifyWithKey (data signature pubkey : Bytes) : Except VerificationError Unit := do
  if !X.validSignature signature then throw (.InvalidSignature "Invalid signature")
  if !X.validKey pubkey then throw (.InvalidPublicKey "Invalid public key")
  match verifySecp256k1 X data signature pubkey with
  | .ok () => return ()
  | .error e => throw (.VerificationFailed e)

def SignedMessage.verifySignature (m : SignedMessage) : Except VerificationError Unit := do
  let (headerSequence, headerTimestamp) ← parseCoseProtectedHeaderFields X m.coseProtectedHeader
  if m.sequence ≠ headerSequence then
    throw (.HeaderMismatch "sequence" (toString m.sequence) (toString headerSequence))
  if m.timestamp ≠ headerTimestamp then
    throw (.HeaderMismatch "timestamp" (toString m.timestamp) (toString headerTimestamp))
  let signature ← decodeSignature m.signature "COSE"
  let pubkey ← decodePubkey m.signer
  verifyWithKey X (buildCoseSigStructure m.coseProtectedHeader m.payload) signature pubkey

/-- The digest preimage of a batch: the range and the content hash. -/
def batchSigningData (startSequence endSequence : UInt64) (contentHash : Bytes) : Bytes :=
  bigEndian 8 startSequence.toNat ++ bigEndian 8 endSequence.toNat ++ contentHash

/-- The content hash is taken from the batch as it is. -/
def SignedBatch.verifyBatchSignature (b : SignedBatch) : Except VerificationError Unit := do
  let pubkey ← decodePubkey b.signer
  let payload := X.keccak256 (batchSigningData b.startSequence b.endSequence b.contentHash)
  let signature ← decodeSignature b.batchSignature "Batch"
  verifyWithKey X payload signature pubkey

end SyndDB.Shared
