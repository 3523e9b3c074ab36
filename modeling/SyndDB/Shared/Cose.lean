import SyndDB.Framework.Octets

namespace SyndDB.Shared

open Octets

inductive CborError where
  | Cbor (message : String)
  | Cose (message : String)
  | SignatureVerification (message : String)
  | InvalidMessageType (value : UInt8)
  | MissingHeader (field : String)
  | Compression (message : String)
  | Signing (message : String)
  | InvalidBatch (message : String)
  deriving DecidableEq

inductive CborMessageType where
  | Changeset
  | Withdrawal
  | Snapshot
  deriving DecidableEq

def CborMessageType.fromU8 (value : UInt8) : Except CborError CborMessageType :=
  if value = 0 then .ok .Changeset
  else if value = 1 then .ok .Withdrawal
  else if value = 2 then .ok .Snapshot
  else .error (.InvalidMessageType value)

def CborMessageType.asU8 : CborMessageType → UInt8
  | .Changeset => 0
  | .Withdrawal => 1
  | .Snapshot => 2

inductive Label where
  | int (l : Int)
  | text (s : String)
  deriving DecidableEq

/-- CBOR values; those the code never looks into are kept as their encoding. -/
inductive Value where
  | integer (n : Int)
  | bytes (b : Bytes)
  | other (encoded : Bytes)
  deriving DecidableEq

/-- The header parameters with a field of their own, next to the algorithm. -/
inductive HeaderParameter where
  | CRIT
  | CONTENT_TYPE
  | KID
  | IV
  | PARTIAL_IV
  | COUNTER_SIG
  deriving DecidableEq

def HeaderParameter.label : HeaderParameter → Int
  | .CRIT => 2
  | .CONTENT_TYPE => 3
  | .KID => 4
  | .IV => 5
  | .PARTIAL_IV => 6
  | .COUNTER_SIG => 7

structure Header where
  alg : Option Label
  registered : List (HeaderParameter × Value)
  rest : List (Label × Value)
  deriving DecidableEq

structure ProtectedHeader where
  originalData : Option Bytes
  header : Header
  deriving DecidableEq

structure CoseSign1 where
  protectedHeader : ProtectedHeader
  unprotectedHeader : Header
  payload : Option Bytes
  signature : Bytes
  deriving DecidableEq

/-- A CBOR item as far as the code distinguishes it: a map, or something else. -/
inductive Item where
  | map (entries : List (Value × Value))
  | other

/-- What the crate takes from its dependencies: COSE coding from `coset`, CBOR reading from
`ciborium`, secp256k1 from `k256`, and the two hash functions. Keys and signatures are given by
their 64 bytes. -/
structure Externals where
  fromSlice : Bytes → Except CborError CoseSign1
  toVec : CoseSign1 → Except CborError Bytes
  headerToVec : Header → Except CborError Bytes
  tbsData : CoseSign1 → Bytes
  fromReader : Bytes → Option Item
  validKey : Bytes → Bool
  validSignature : Bytes → Bool
  verifyPrehash : (key digest signature : Bytes) → Bool
  keccak256 : Bytes → Bytes
  sha256 : Bytes → Bytes

variable (X : Externals)

def HEADER_SEQUENCE : Int := -65537
def HEADER_TIMESTAMP : Int := -65538
def HEADER_MSG_TYPE : Int := -65539

def ES256K : Int := -47

def verifyingKeyFromBytes (pubkey : Bytes) : Except CborError Bytes :=
  if X.validKey pubkey then .ok pubkey else .error (.SignatureVerification "Invalid public key")

def signatureFromBytes (bytes : Bytes) : Except CborError Bytes :=
  if X.validSignature bytes then .ok bytes else .error (.SignatureVerification "Invalid signature")

def verifySecp256k1 (data signature key : Bytes) : Except CborError Unit :=
  if X.verifyPrehash key (X.keccak256 data) signature then .ok ()
  else .error (.SignatureVerification "Signature verification failed")

structure ParsedCoseMessage where
  sequence : UInt64
  timestamp : UInt64
  messageType : CborMessageType
  payload : Bytes
  signature : Bytes
  pubkey : Bytes
  deriving DecidableEq

def buildCoseSign1 (sequence timestamp : UInt64) (messageType : CborMessageType)
    (payload signerPubkey : Bytes) (sign : Bytes → Except CborError Bytes) :
    Except CborError Bytes := do
  let rest : List (Label × Value) :=
    [(.int HEADER_SEQUENCE, .integer sequence.toNat),
     (.int HEADER_TIMESTAMP, .integer timestamp.toNat),
     (.int HEADER_MSG_TYPE, .integer messageType.asU8.toNat)]
  let unprotectedHeader : Header := ⟨none, [], [(.text "pubkey", .bytes signerPubkey)]⟩
  let cose : CoseSign1 :=
    ⟨⟨none, ⟨some (.int ES256K), [], rest⟩⟩, unprotectedHeader, some payload, []⟩
  let signature ← sign (X.tbsData cose)
  X.toVec { cose with signature := signature }

/-- The first integer stored under the label, cut down to 64 bits. -/
def extractU64FromHeader (header : Header) (label : Int) : Option UInt64 :=
  header.rest.findSome? fun entry =>
    match entry with
    | (.int l, .integer n) => if l = label then some (UInt64.ofNat (n % 2 ^ 64).toNat) else none
    | _ => none

def requireHeader (header : Header) (label : Int) (field : String) : Except CborError UInt64 :=
  match extractU64FromHeader header label with
  | some n => .ok n
  | none => .error (.MissingHeader field)

def exactly64 (bytes : Bytes) (message : String) : Except CborError Bytes :=
  if bytes.length = 64 then .ok bytes else .error (.Cose (message ++ toString bytes.length))

/-- Only the first byte string under `pubkey` is looked at. -/
def extractPubkeyBytes (header : Header) : Except CborError Bytes :=
  let found := header.rest.findSome? fun entry =>
    match entry with
    | (.text s, .bytes b) => if s = "pubkey" then some b else none
    | _ => none
  match found with
  | some b => exactly64 b "Invalid public key length: expected 64, got "
  | none => .error (.MissingHeader "pubkey")

def extractPubkey (header : Header) : Except CborError Bytes := do
  verifyingKeyFromBytes X (← extractPubkeyBytes header)

def parseCoseSign1 (bytes : Bytes) : Except CborError ParsedCoseMessage := do
  let cose ← X.fromSlice bytes
  let header := cose.protectedHeader.header
  let sequence ← requireHeader header HEADER_SEQUENCE "sequence"
  let timestamp ← requireHeader header HEADER_TIMESTAMP "timestamp"
  let msgType ← requireHeader header HEADER_MSG_TYPE "message_type"
  let messageType ← CborMessageType.fromU8 msgType.toUInt8
  let pubkey ← extractPubkeyBytes cose.unprotectedHeader
  let signature ← exactly64 cose.signature "Invalid signature length: "
  return ⟨sequence, timestamp, messageType, cose.payload.getD [], signature, pubkey⟩

def verifyAndParseCoseSign1 (bytes expectedPubkey : Bytes) :
    Except CborError ParsedCoseMessage := do
  let cose ← X.fromSlice bytes
  let pubkey ← extractPubkey X cose.unprotectedHeader
  if pubkey ≠ expectedPubkey then
    throw (.SignatureVerification ("Public key mismatch: expected 0x" ++ hexEncode expectedPubkey ++
      ", got 0x" ++ hexEncode pubkey))
  let signatureBytes ← exactly64 cose.signature "Invalid signature length: "
  let signature ← signatureFromBytes X signatureBytes
  verifySecp256k1 X (X.tbsData cose) signature expectedPubkey
  parseCoseSign1 X bytes

def extractSequence (bytes : Bytes) : Except CborError UInt64 := do
  let cose ← X.fromSlice bytes
  requireHeader cose.protectedHeader.header HEADER_SEQUENCE "sequence"

def extractProtectedHeader (bytes : Bytes) : Except CborError Bytes := do
  let cose ← X.fromSlice bytes
  X.headerToVec cose.protectedHeader.header

/-- A message as it is stored: the raw `COSE_Sign1` bytes. -/
structure CborSignedMessage where
  coseBytes : Bytes
  deriving DecidableEq

namespace CborSignedMessage

def new (sequence timestamp : UInt64) (messageType : CborMessageType) (payload signerPubkey : Bytes)
    (sign : Bytes → Except CborError Bytes) : Except CborError CborSignedMessage := do
  return ⟨← buildCoseSign1 X sequence timestamp messageType payload signerPubkey sign⟩

def verifyAndParse (m : CborSignedMessage) (expectedPubkey : Bytes) :
    Except CborError ParsedCoseMessage :=
  verifyAndParseCoseSign1 X m.coseBytes expectedPubkey

def sequence (m : CborSignedMessage) : Except CborError UInt64 := extractSequence X m.coseBytes

def size (m : CborSignedMessage) : Nat := m.coseBytes.length

def protectedHeader (m : CborSignedMessage) : Except CborError Bytes :=
  extractProtectedHeader X m.coseBytes

end CborSignedMessage

/-- What the code relies on: a message that was built decodes to what went in, the original
protected bytes aside. -/
def Externals.CodesMessages : Prop :=
  ∀ c bytes, c.protectedHeader.originalData = none → X.toVec c = .ok bytes →
    ∃ original, X.fromSlice bytes =
      .ok { c with protectedHeader := { c.protectedHeader with originalData := original } }

end SyndDB.Shared
