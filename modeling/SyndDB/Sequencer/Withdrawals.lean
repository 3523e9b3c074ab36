import SyndDB.Replication.Agreement
import SyndDB.Sequencer.MessageId
import SyndDB.Shared.BatchCodec
import SyndDB.Shared.RoundTrip

namespace SyndDB.Sequencer

open Octets Text Shared
open Contracts (Address Bytes32 UInt256 Crypto word packedAddress)
open Replication (WithdrawalRequest)

def TransportError.text : TransportError → String
  | .Storage message => "Storage error: " ++ message
  | .Serialization message => "Serialization error: " ++ message
  | .Network message => "Network error: " ++ message
  | .NotFound message => "Not found: " ++ message
  | .Config message => "Configuration error: " ++ message
  | .SignatureVerification message => "Signature verification failed: " ++ message

def BatcherError.text : BatcherError → String
  | .Transport e => "Transport error: " ++ e.text
  | .Cbor e => "CBOR encoding error: " ++ e.text
  | .ChannelClosed => "Batcher channel closed"
  | .Signing message => "Signing error: " ++ message

inductive SequencerError where
  | Inbox (e : InboxError)
  | CborSerializationFailed (message : String)
  | InvalidRecipientAddress
  | InvalidAmount
  | EmptyRequestId
  deriving DecidableEq

structure BridgeSignatureResponse where
  messageId : Hex
  messageHash : Hex
  signature : Hex
  signer : Hex
  sequence : UInt64
  timestamp : UInt64
  deriving DecidableEq

structure WithdrawalResponse where
  sequence : UInt64
  timestamp : UInt64
  messageHash : Hex
  coseSignature : Hex
  signer : Hex
  bridgeSignature : BridgeSignatureResponse
  batchWarning : Option String
  deriving DecidableEq

/-- `is_ascii_digit` -/
def isAsciiDigit (c : UInt8) : Bool := (decimalDigit c).isSome

/-- `0x` and 40 digits -/
def ValidRecipient (recipient : String) : Prop :=
  (utf8 recipient).take 2 = [48, 120] ∧ (utf8 recipient).length = 42 ∧
    ((utf8 recipient).drop 2).all isAsciiHexdigit = true

/-- Decimal digits, without a leading zero. -/
def ValidAmount (amount : String) : Prop :=
  utf8 amount ≠ [] ∧ (utf8 amount).all isAsciiDigit = true ∧
    ¬(1 < (utf8 amount).length ∧ (utf8 amount).head? = some 48)

instance (recipient : String) : Decidable (ValidRecipient recipient) :=
  inferInstanceAs (Decidable (_ ∧ _))

instance (amount : String) : Decidable (ValidAmount amount) := inferInstanceAs (Decidable (_ ∧ _))

/-- The counter is apart. -/
structure Inbox where
  keyManager : EvmKeyManager
  publicKey : Bytes
  length : publicKey.length = 64

/-- A message is signed with the two words of a signature. -/
def Inbox.submission (inbox : Inbox) (messageType : CborMessageType) (payload : Bytes)
    (timestamp : UInt64) : Submission where
  messageType := messageType
  payload := payload
  timestamp := timestamp
  signRawSync digest := (inbox.keyManager.signRawSync digest).map fun sig => word sig.r ++
    word sig.s

/-- What a handler holds while it waits for the batcher. -/
structure Handler where
  message : CborSignedMessage
  receipt : SequenceReceipt
  bridgeSig : BridgeSignature
  deriving DecidableEq

/-- What becomes of the message: there is no batcher; its channel is closed; or it is in the
channel, and the batcher answers. -/
inductive Delivery where
  | noBatcher
  | channelClosed
  | batched (answer : Except BatcherError Unit)

def Delivery.handed : Delivery → Bool
  | .noBatcher | .channelClosed => false
  | .batched _ => true

def Delivery.warning : Delivery → Option String
  | .noBatcher | .batched (.ok ()) => none
  | .channelClosed => some ("Batch publishing failed: " ++ BatcherError.ChannelClosed.text)
  | .batched (.error e) => some ("Batch publishing failed: " ++ e.text)

def Handler.response (handler : Handler) (delivery : Delivery) : WithdrawalResponse where
  sequence := handler.receipt.sequence
  timestamp := handler.receipt.timestamp
  messageHash := handler.receipt.messageHash
  coseSignature := handler.receipt.signature
  signer := handler.receipt.signer
  bridgeSignature :=
    { messageId := handler.bridgeSig.messageId
      messageHash := handler.bridgeSig.messageHash
      signature := handler.bridgeSig.signature
      signer := handler.bridgeSig.signer
      sequence := handler.receipt.sequence
      timestamp := handler.receipt.timestamp }
  batchWarning := delivery.warning

-- `to_cbor` writes a request, `compressPayload` its compressed form
variable (X : Externals) (C : Crypto) (compressPayload : Bytes → Bytes)
  (toCbor : WithdrawalRequest → Except String Bytes)

def payloadOf (request : WithdrawalRequest) : Except SequencerError Bytes :=
  if ¬ValidRecipient request.recipient then .error .InvalidRecipientAddress
  else if ¬ValidAmount request.amount then .error .InvalidAmount
  else if utf8 request.requestId = [] then .error .EmptyRequestId
  else (toCbor request).mapError .CborSerializationFailed

/-- The handler up to the batcher: what it holds or answers, the number it has taken,
and the counter. -/
structure Begun where
  result : Except SequencerError Handler
  taken : Option UInt64
  sequence : UInt64

variable (inbox : Inbox)

/-- `receive_withdrawal` before it turns to the batcher -/
def beginWithdrawal (sequence timestamp : UInt64) (request : WithdrawalRequest) : Begun :=
  match payloadOf toCbor request with
  | .error e => ⟨.error e, none, sequence⟩
  | .ok payload =>
      match sequenceMessage X compressPayload inbox.publicKey sequence
          (inbox.submission .Withdrawal payload timestamp) with
      | (.error e, next) => ⟨.error (.Inbox e), some sequence, next⟩
      | (.ok (message, receipt), next) =>
          match signBridgeWithdrawal C inbox.keyManager request.requestId request.recipient
              request.data request.amount with
          | .error e => ⟨.error (.Inbox e), some sequence, next⟩
          | .ok bridgeSig => ⟨.ok ⟨message, receipt, bridgeSig⟩, some sequence, next⟩

/-- The answer to a request, the number it took, and whether its message was handed
to the batcher. -/
structure Answer where
  result : Except SequencerError WithdrawalResponse
  taken : Option UInt64
  handed : Bool

/-- The counter and the handlers at work; the messages in the channel of the batcher, the numbers
that were assigned and the answers since the start. -/
structure Server where
  sequence : UInt64
  inFlight : List Handler
  batched : List CborSignedMessage
  assigned : List UInt64
  answered : List Answer

/-- A request arrives; a handler turns to the batcher and answers; a handler is dropped because its
client has gone, before it turns to the batcher or after. -/
inductive Arrival where
  | receive (timestamp : UInt64) (request : WithdrawalRequest)
  | deliver (handler : Nat) (delivery : Delivery)
  | abandon (handler : Nat) (handed : Bool)

namespace Server

def start (sequence : UInt64) : Server := ⟨sequence, [], [], [], []⟩

def receive (s : Server) (timestamp : UInt64) (request : WithdrawalRequest) : Server :=
  let begun := beginWithdrawal X C compressPayload toCbor inbox s.sequence timestamp request
  let s := { s with sequence := begun.sequence, assigned := s.assigned ++ begun.taken.toList }
  match begun.result with
  | .ok handler => { s with inFlight := s.inFlight ++ [handler] }
  | .error e => { s with answered := s.answered ++ [⟨.error e, begun.taken, false⟩] }

def deliver (s : Server) (i : Nat) (delivery : Delivery) : Server :=
  match s.inFlight[i]? with
  | none => s
  | some handler =>
      { s with
        inFlight := s.inFlight.eraseIdx i
        batched := if delivery.handed then s.batched ++ [handler.message] else s.batched
        answered := s.answered ++
          [⟨.ok (handler.response delivery), some handler.receipt.sequence, delivery.handed⟩] }

def abandon (s : Server) (i : Nat) (handed : Bool) : Server :=
  match s.inFlight[i]? with
  | none => s
  | some handler =>
      { s with
        inFlight := s.inFlight.eraseIdx i
        batched := if handed then s.batched ++ [handler.message] else s.batched }

def step (s : Server) : Arrival → Server
  | .receive timestamp request => s.receive X C compressPayload toCbor inbox timestamp request
  | .deliver i delivery => s.deliver i delivery
  | .abandon i handed => s.abandon i handed

end Server

/-- The request is refused before it takes a number. -/
def Refused (request : WithdrawalRequest) : Prop :=
  ¬ValidRecipient request.recipient ∨ ¬ValidAmount request.amount ∨ utf8 request.requestId = [] ∨
    ∃ e, toCbor request = .error e

/-- The key signs the message, and the signed message can be written. -/
structure CoseSignable (sequence timestamp : UInt64) (payload : Bytes) : Prop where
  validKey : X.validKey inbox.publicKey = true
  signs : ∃ sig, inbox.keyManager.signRawSync (X.keccak256 (X.tbsData
      (builtCose sequence timestamp .Withdrawal (compressPayload payload) inbox.publicKey []))) =
        .ok sig ∧
    X.validSignature (word sig.r ++ word sig.s) = true ∧
    (X.toVec (builtCose sequence timestamp .Withdrawal (compressPayload payload) inbox.publicKey
      (word sig.r ++ word sig.s))).isOk = true

/-- Both signatures can be made: a hexadecimal id has its digits in pairs, the amount fits, and the
key signs what the bridge checks. -/
structure Signable (sequence timestamp : UInt64) (request : WithdrawalRequest) (payload : Bytes) :
    Prop where
  cose : CoseSignable X compressPayload inbox sequence timestamp payload
  pairs : Hexadecimal request.requestId → (strip0x (utf8 request.requestId)).length % 2 = 0
  fits : decimalValue (utf8 request.amount) < 2 ^ 128
  bridge : ∀ m t a, Denotes C request.requestId request.recipient request.amount m t a →
    ∃ sig, inbox.keyManager.signRawSync (word (bridgeDigest C m t request.data a)) = .ok sig

/-- A request that takes a number is signed; a handler that holds a message hands it over. -/
def Completes (s : Server) : Arrival → Prop
  | .receive timestamp request => Refused toCbor request ∨ ∃ payload, toCbor request = .ok payload ∧
      Signable X C compressPayload inbox s.sequence timestamp request payload
  | .deliver i delivery => s.inFlight.length ≤ i ∨ delivery.handed = true
  | .abandon i handed => s.inFlight.length ≤ i ∨ handed = true

/-- An error has taken no number, and the message of a success was handed to the batcher. -/
def Answer.GapFree (answer : Answer) : Prop :=
  (∀ e, answer.result = .error e → answer.taken = none) ∧
    ∀ response, answer.result = .ok response → answer.handed = true

/-- All answers are so, and the numbers assigned are those of the messages that the batcher has, and
of those that a handler holds. -/
structure Server.GapFree (s : Server) : Prop where
  answers : ∀ answer ∈ s.answered, answer.GapFree
  numbers : ((s.batched ++ s.inFlight.map Handler.message).map
    fun m => (m.sequence X).toOption).Perm (s.assigned.map some)

section Request

variable {X C compressPayload toCbor inbox}

theorem payloadOf_ok (request : WithdrawalRequest) (payload : Bytes) :
    payloadOf toCbor request = .ok payload ↔
      ¬Refused toCbor request ∧ toCbor request = .ok payload := by
  rw [payloadOf, Outcome.guard_ok, Outcome.guard_ok, Outcome.guard_ok, Outcome.mapError_ok, Refused]
  constructor
  · intro h
    obtain ⟨recipient, amount, id, written⟩ := h
    refine ⟨?_, written⟩
    simp [not_not.mp recipient, not_not.mp amount, id, written]
  · intro h
    obtain ⟨passes, written⟩ := h
    simp only [not_or, not_not] at passes
    exact ⟨not_not.mpr passes.1, not_not.mpr passes.2.1, passes.2.2.1, written⟩

variable (compressPayload inbox) in
/-- The signed message reads back, so signing it is all that can fail. -/
theorem signMessage_total (codes : X.CodesMessages) (sequence timestamp : UInt64)
    (payload : Bytes) :
    (∃ signed, signMessage X compressPayload inbox.publicKey sequence
      (inbox.submission .Withdrawal payload timestamp) = .ok signed) ↔
      CoseSignable X compressPayload inbox sequence timestamp payload := by
  have signs (data bytes : Bytes) :
      signCose X (inbox.submission .Withdrawal payload timestamp) data = .ok bytes ↔
        ∃ sig, inbox.keyManager.signRawSync (X.keccak256 data) = .ok sig ∧
          X.validSignature (word sig.r ++ word sig.s) = true ∧ bytes = word sig.r ++
            word sig.s := by
    rw [signCose, signHashed, Inbox.submission]
    simp only
    cases inbox.keyManager.signRawSync (X.keccak256 data) with
    | error e => simp [Except.map]
    | ok sig =>
      simp only [Except.map, signatureFromBytes_ok, Except.ok.injEq, exists_eq_left']
      exact and_comm
  constructor
  · intro h
    obtain ⟨signed, h⟩ := h
    simp only [signMessage, CborSignedMessage.new, Outcome.bind_ok, Outcome.mapError_ok,
      verifyingKeyFromBytes] at h
    obtain ⟨key, hkey, message, ⟨bytes, built, -⟩, -⟩ := h
    obtain ⟨validKey, same⟩ : X.validKey inbox.publicKey = true ∧ inbox.publicKey = key := by
      split at hkey
      · exact ⟨‹_›, Except.ok.inj hkey⟩
      · cases hkey
    subst same
    obtain ⟨signature, signed, written⟩ := (buildCoseSign1_ok X _ _ _ _ _ _ _).mp built
    obtain ⟨sig, answered, valid, rfl⟩ := (signs _ _).mp signed
    exact ⟨validKey, sig, answered, valid, congrArg Except.isOk written⟩
  · intro h
    obtain ⟨validKey, sig, answered, valid, written⟩ := h
    obtain ⟨bytes, coded⟩ : ∃ bytes, X.toVec (builtCose sequence timestamp .Withdrawal
        (compressPayload payload) inbox.publicKey (word sig.r ++ word sig.s)) = .ok bytes := by
      cases result : X.toVec (builtCose sequence timestamp .Withdrawal (compressPayload payload)
          inbox.publicKey (word sig.r ++ word sig.s)) with
      | ok bytes => exact ⟨bytes, rfl⟩
      | error e =>
        rw [result] at written
        cases written
    have built : buildCoseSign1 X sequence timestamp .Withdrawal (compressPayload payload)
        inbox.publicKey (signCose X (inbox.submission .Withdrawal payload timestamp)) = .ok bytes :=
      (buildCoseSign1_ok X _ _ _ _ _ _ _).mpr
        ⟨_, (signs _ _).mpr ⟨sig, answered, valid, rfl⟩, coded⟩
    obtain ⟨original, decoded⟩ := codes _ _ rfl coded
    have length : (word sig.r ++ word sig.s).length = 64 := by
      rw [List.length_append, word, word, length_bigEndian, length_bigEndian]
    have parsed := (parseCoseSign1_ok X bytes _).mpr ⟨_, decoded,
      parses_built sequence timestamp .Withdrawal (compressPayload payload) inbox.publicKey
        (word sig.r ++ word sig.s) original inbox.length length⟩
    have key : verifyingKeyFromBytes X inbox.publicKey = .ok inbox.publicKey := if_pos validKey
    refine ⟨(⟨bytes⟩, ⟨sequence, timestamp, hex0x (X.keccak256 (compressPayload payload)),
      hex0x (word sig.r ++ word sig.s), hex0x inbox.publicKey⟩), ?_⟩
    rw [signMessage, key]
    change ((CborSignedMessage.new X sequence timestamp .Withdrawal (compressPayload payload)
      inbox.publicKey (signCose X (inbox.submission .Withdrawal payload timestamp))).mapError _ >>=
        _) = _
    rw [CborSignedMessage.new, built]
    change ((parseCoseSign1 X bytes).mapError _ >>= _) = _
    rw [parsed]
    rfl

/-- Without its `0x` the id is hashed, or it has its digits in pairs. -/
theorem messageIdB256_total (requestId : String) :
    (∃ bytes, messageIdB256 C requestId = .ok bytes) ↔
      (Hexadecimal requestId → (strip0x (utf8 requestId)).length % 2 = 0) := by
  by_cases hexadecimal : Hexadecimal requestId
  · constructor
    · intro h _
      obtain ⟨bytes, read⟩ := h
      obtain ⟨decoded, digits, -⟩ := (messageIdB256_hex C requestId hexadecimal bytes).mp read
      have length := congrArg List.length ((decodeHex_ok _ _).mp digits)
      rw [List.length_map, length_hexText] at length
      omega
    · intro h
      obtain ⟨decoded, digits⟩ := decodeHex_total _ (h hexadecimal) hexadecimal.2
      exact ⟨_, (messageIdB256_hex C requestId hexadecimal _).mpr ⟨decoded, digits, rfl⟩⟩
  · refine iff_of_true ⟨_, messageIdB256_text C requestId hexadecimal⟩ ?_
    intro h
    exact absurd h hexadecimal

theorem parseTargetAddress_total (recipient : String) (valid : ValidRecipient recipient) :
    ∃ bytes, parseTargetAddress recipient = .ok bytes := by
  obtain ⟨starts, length, digits⟩ := valid
  have forty : ((utf8 recipient).drop 2).length = 40 := by
    rw [List.length_drop, length]
  obtain ⟨bytes, decoded⟩ := decodeHex_total _ (by rw [forty]) digits
  have text := (decodeHex_ok _ _).mp decoded
  have twenty : bytes.length = 20 := by
    have same := congrArg List.length text
    rw [List.length_map, forty, length_hexText] at same
    omega
  refine ⟨bytes, (parseTargetAddress_ok recipient bytes).mpr ⟨?_, twenty⟩⟩
  rw [strip0x_of_starts _ starts]
  exact text

theorem parseAmount_total (amount : String) (valid : ValidAmount amount) :
    (∃ n, parseAmount amount = .ok n) ↔ decimalValue (utf8 amount) < 2 ^ 128 := by
  obtain ⟨nonempty, digits, -⟩ := valid
  rw [← parseUnsigned_total 128 (utf8 amount) nonempty digits]
  simp only [parseAmount, Outcome.mapError_ok]

theorem denotes_unique (request : WithdrawalRequest) (m m' : Bytes32) (t t' : Address)
    (a a' : UInt256) (h : Denotes C request.requestId request.recipient request.amount m t a)
    (h' : Denotes C request.requestId request.recipient request.amount m' t' a') :
    m = m' ∧ t = t' ∧ a = a' := by
  have ids := h.messageId.symm.trans h'.messageId
  have targets := h.targetAddress.symm.trans h'.targetAddress
  have amounts := h.nativeTokenAmount.symm.trans h'.nativeTokenAmount
  exact ⟨Contracts.word_injective _ _ (Except.ok.inj ids),
    Contracts.packedAddress_injective _ _ (Except.ok.inj targets),
    BitVec.toNat_inj.mp (Except.ok.inj amounts)⟩

variable (inbox) in
/-- The bridge signature of a request that was not refused. -/
theorem signBridgeWithdrawal_total (request : WithdrawalRequest)
    (recipient : ValidRecipient request.recipient) (amount : ValidAmount request.amount) :
    (∃ bridgeSig, signBridgeWithdrawal C inbox.keyManager request.requestId request.recipient
      request.data request.amount = .ok bridgeSig) ↔
      (Hexadecimal request.requestId → (strip0x (utf8 request.requestId)).length % 2 = 0) ∧
      decimalValue (utf8 request.amount) < 2 ^ 128 ∧
      ∀ m t a, Denotes C request.requestId request.recipient request.amount m t a →
        ∃ sig, inbox.keyManager.signRawSync (word (bridgeDigest C m t request.data a)) =
          .ok sig := by
  simp only [signBridgeWithdrawal_ok]
  rw [← messageIdB256_total (C := C), ← parseAmount_total request.amount amount]
  constructor
  · intro h
    obtain ⟨bridgeSig, m, t, a, sig, denotes, signed, -⟩ := h
    refine ⟨⟨_, denotes.messageId⟩, ⟨_, denotes.nativeTokenAmount⟩, ?_⟩
    intro m' t' a' denotes'
    obtain ⟨rfl, rfl, rfl⟩ := denotes_unique request m m' t t' a a' denotes denotes'
    exact ⟨sig, signed⟩
  · intro h
    obtain ⟨⟨id, hid⟩, ⟨n, hn⟩, signs⟩ := h
    obtain ⟨target, htarget⟩ := parseTargetAddress_total request.recipient recipient
    obtain ⟨m, t, a, denotes, -, -, -⟩ :=
      denotes_of_parsed C request.requestId request.recipient request.amount id target n hid
        htarget hn
    obtain ⟨sig, signed⟩ := signs m t a denotes
    exact ⟨_, m, t, a, sig, denotes, signed, rfl⟩

variable (compressPayload toCbor inbox) in
/-- A request is refused, or takes the number; then it fails, or its message bears the number. -/
theorem beginWithdrawal_cases (codes : X.CodesMessages) (sequence timestamp : UInt64)
    (request : WithdrawalRequest) :
    (Refused toCbor request ∧
      ∃ e, beginWithdrawal X C compressPayload toCbor inbox sequence timestamp request =
        ⟨.error e, none, sequence⟩) ∨
    ∃ payload, ¬Refused toCbor request ∧ toCbor request = .ok payload ∧
      ((¬Signable X C compressPayload inbox sequence timestamp request payload ∧
          ∃ e, beginWithdrawal X C compressPayload toCbor inbox sequence timestamp request =
            ⟨.error e, some sequence, sequence + 1⟩) ∨
        (Signable X C compressPayload inbox sequence timestamp request payload ∧
          ∃ handler, beginWithdrawal X C compressPayload toCbor inbox sequence timestamp request =
              ⟨.ok handler, some sequence, sequence + 1⟩ ∧
            handler.message.sequence X = .ok sequence)) := by
  cases passed : payloadOf toCbor request with
  | error e =>
    refine .inl ⟨?_, e, by rw [beginWithdrawal, passed]⟩
    by_contra fine
    cases written : toCbor request with
    | error why => exact fine (.inr (.inr (.inr ⟨why, written⟩)))
    | ok payload =>
      have ok := (payloadOf_ok request payload).mpr ⟨fine, written⟩
      rw [passed] at ok
      cases ok
  | ok payload =>
    obtain ⟨fine, written⟩ := (payloadOf_ok request payload).mp passed
    refine .inr ⟨payload, fine, written, ?_⟩
    have valid : ValidRecipient request.recipient ∧ ValidAmount request.amount := by
      simp only [Refused, not_or, not_not] at fine
      exact ⟨fine.1, fine.2.1⟩
    have bridge := signBridgeWithdrawal_total (C := C) inbox request valid.1 valid.2
    have message := signMessage_total compressPayload inbox codes sequence timestamp payload
    simp only [beginWithdrawal, passed, sequenceMessage]
    cases signed : signMessage X compressPayload inbox.publicKey sequence
        (inbox.submission .Withdrawal payload timestamp) with
    | error e =>
      refine .inl ⟨?_, _, rfl⟩
      intro signable
      obtain ⟨out, ok⟩ := message.mpr signable.cose
      rw [signed] at ok
      cases ok
    | ok out =>
      obtain ⟨m, receipt⟩ := out
      cases answered : signBridgeWithdrawal C inbox.keyManager request.requestId request.recipient
          request.data request.amount with
      | error e =>
        refine .inl ⟨?_, _, rfl⟩
        intro signable
        obtain ⟨bridgeSig, ok⟩ := bridge.mpr ⟨signable.pairs, signable.fits, signable.bridge⟩
        rw [answered] at ok
        cases ok
      | ok bridgeSig =>
        obtain ⟨pairs, fits, signs⟩ := bridge.mp ⟨bridgeSig, answered⟩
        refine .inr ⟨⟨message.mp ⟨_, signed⟩, pairs, fits, signs⟩, _, rfl, ?_⟩
        simp only [signMessage, Outcome.bind_ok, Outcome.mapError_ok] at signed
        obtain ⟨key, -, built, new, parsed, -, same⟩ := signed
        cases same
        exact sequence_new X codes _ _ _ _ _ _ _ new

end Request

section Runs

variable {X C compressPayload toCbor inbox}

/-- A message that goes from a handler to the batcher. -/
theorem handed_perm (s : Server) (i : Nat) (handler : Handler)
    (found : s.inFlight[i]? = some handler) :
    (s.batched ++ [handler.message] ++ (s.inFlight.eraseIdx i).map Handler.message).Perm
      (s.batched ++ s.inFlight.map Handler.message) := by
  obtain ⟨inside, rfl⟩ := List.getElem?_eq_some_iff.mp found
  have moved := (List.getElem_cons_eraseIdx_perm inside).map Handler.message
  rw [List.append_assoc]
  exact moved.append_left s.batched

theorem gapFree_receive (codes : X.CodesMessages) (s : Server) (timestamp : UInt64)
    (request : WithdrawalRequest) (h : s.GapFree X) :
    (s.receive X C compressPayload toCbor inbox timestamp request).GapFree X ↔
      Completes X C compressPayload toCbor inbox s (.receive timestamp request) := by
  rw [Server.receive, Completes]
  rcases beginWithdrawal_cases (C := C) compressPayload toCbor inbox codes s.sequence timestamp
    request with
    ⟨refused, e, begun⟩ |
      ⟨payload, fine, written, ⟨unsigned, e, begun⟩ | ⟨signable, handler, begun, number⟩⟩
  · rw [begun]
    refine iff_of_true ⟨?_, ?_⟩ (.inl refused)
    · intro answer member
      rcases List.mem_append.mp member with before | new
      · exact h.answers answer before
      · rw [List.mem_singleton.mp new]
        refine ⟨fun _ _ => rfl, ?_⟩
        intro response same
        cases same
    · simpa using h.numbers
  · rw [begun]
    refine iff_of_false ?_ ?_
    · intro gapFree
      have answer := gapFree.answers ⟨.error e, some s.sequence, false⟩ (by simp)
      have none := answer.1 e rfl
      cases none
    · intro completes
      rcases completes with refused | ⟨payload', written', signable⟩
      · exact fine refused
      · rw [written] at written'
        cases written'
        exact unsigned signable
  · rw [begun]
    refine iff_of_true ⟨h.answers, ?_⟩ (.inr ⟨payload, written, signable⟩)
    have appended := h.numbers.append_right [some s.sequence]
    simpa [number, Except.toOption] using appended

theorem gapFree_deliver (s : Server) (i : Nat) (delivery : Delivery) (h : s.GapFree X) :
    (s.deliver i delivery).GapFree X ↔ s.inFlight.length ≤ i ∨ delivery.handed = true := by
  rw [Server.deliver]
  cases found : s.inFlight[i]? with
  | none =>
    have outside := List.getElem?_eq_none_iff.mp found
    exact iff_of_true h (.inl outside)
  | some handler =>
    obtain ⟨inside, -⟩ := List.getElem?_eq_some_iff.mp found
    cases handed : delivery.handed with
    | false =>
      refine iff_of_false ?_ ?_
      · intro gapFree
        have answer := gapFree.answers
          ⟨.ok (handler.response delivery), some handler.receipt.sequence, false⟩ (by simp)
        have yes := answer.2 _ rfl
        cases yes
      · intro either
        rcases either with outside | yes
        · omega
        · cases yes
    | true =>
      refine iff_of_true ⟨?_, ?_⟩ (.inr rfl)
      · intro answer member
        rcases List.mem_append.mp member with before | new
        · exact h.answers answer before
        · rw [List.mem_singleton.mp new]
          refine ⟨?_, fun _ _ => rfl⟩
          intro e same
          cases same
      · exact ((handed_perm s i handler found).map _).trans h.numbers

theorem gapFree_abandon (s : Server) (i : Nat) (handed : Bool) (h : s.GapFree X) :
    (s.abandon i handed).GapFree X ↔ s.inFlight.length ≤ i ∨ handed = true := by
  rw [Server.abandon]
  cases found : s.inFlight[i]? with
  | none =>
    have outside := List.getElem?_eq_none_iff.mp found
    exact iff_of_true h (.inl outside)
  | some handler =>
    obtain ⟨inside, -⟩ := List.getElem?_eq_some_iff.mp found
    cases handed with
    | false =>
      refine iff_of_false ?_ ?_
      · intro gapFree
        -- one message fewer, and as many numbers
        have before := h.numbers.length_eq
        have after := gapFree.numbers.length_eq
        simp only [List.length_map, List.length_append, List.length_eraseIdx, if_pos inside,
          Bool.false_eq_true, if_false] at before after
        omega
      · intro either
        rcases either with outside | yes
        · omega
        · cases yes
    | true =>
      refine iff_of_true ⟨h.answers, ?_⟩ (.inr rfl)
      exact ((handed_perm s i handler found).map _).trans h.numbers

theorem gapFree_step (codes : X.CodesMessages) (s : Server) (e : Arrival) (h : s.GapFree X) :
    (s.step X C compressPayload toCbor inbox e).GapFree X ↔
      Completes X C compressPayload toCbor inbox s e := by
  cases e with
  | receive timestamp request => exact gapFree_receive codes s timestamp request h
  | deliver i delivery => exact gapFree_deliver s i delivery h
  | abandon i handed => exact gapFree_abandon s i handed h

theorem gapFree_start (sequence : UInt64) : (Server.start sequence).GapFree X where
  answers := by
    intro answer member
    cases member
  numbers := List.Perm.nil

variable (X C compressPayload toCbor inbox)

/-- In every state of a run no error has taken a number, every success was handed to the batcher,
and the numbers of the messages that are handed over or held are those assigned: exactly if every
request that takes a number can be signed, and every message goes to a batcher. -/
theorem withdrawals_gap_free_iff (codes : X.CodesMessages) (sequence : UInt64)
    (events : List Arrival) :
    (∀ n, (Run.stateAt (Server.step X C compressPayload toCbor inbox) (.start sequence) events
      n).GapFree X) ↔ Run.Along (Server.step X C compressPayload toCbor inbox)
        (Completes X C compressPayload toCbor inbox) (.start sequence) events :=
  Run.always_iff_along _ (fun _ _ (_ : True) => trivial)
    (fun s e _ h => gapFree_step codes s e h) (.start sequence) events trivial
      (gapFree_start sequence)

end Runs

namespace Withdrawal

open Replication.Sample (withdrawalRecord coseWithdrawal)

/-- The signature of the sample message. -/
def coseSig : RawSignature where
  r := 0xa661fb0194dc5e15550f00aeec4f50c663804052983ec16efd4f1677ac27f9a6
  s := 0x39a6a4fa73d204b999a220ec48da4a3df13881acea3eafc08a470123a4166342
  v := false

def coseDigest : Bytes := withdrawalRecord.externals.keccak256 (withdrawalRecord.externals.tbsData
  (builtCose 0 Shared.Sample.timestamp .Withdrawal Shared.Sample.payload Shared.Sample.pubkey []))

def sampleInbox : Inbox where
  keyManager :=
    { address := keyManager.address
      signRawSync := fun digest =>
        if digest = coseDigest then .ok coseSig else keyManager.signRawSync digest }
  publicKey := Shared.Sample.pubkey
  length := by decide

def request (requestId : String) : WithdrawalRequest where
  requestId := requestId
  recipient := "0xd8dA6BF26964aF9D7eEd9e03E53415D37aA96045"
  amount := "1500"
  data := payload

def serverStep : Server → Arrival → Server :=
  Server.step withdrawalRecord.externals crypto id (fun _ => .ok Shared.Sample.payload) sampleInbox

def completes : Server → Arrival → Prop :=
  Completes withdrawalRecord.externals crypto id (fun _ => .ok Shared.Sample.payload) sampleInbox

def oddRequest : List Arrival := [.receive Shared.Sample.timestamp (request "abc")]

def afterOdd : Server := Run.stateAt serverStep (.start 0) oddRequest 1

/-- The message of number 0 is signed, and then the id has no pairs of digits. -/
theorem odd_id_loses_number :
    afterOdd.sequence = 1 ∧ afterOdd.assigned = [0] ∧ afterOdd.batched = [] ∧
      afterOdd.inFlight = [] ∧
      afterOdd.answered.map (fun answer => (answer.result.isOk, answer.taken)) = [(false, some 0)] ∧
      ¬afterOdd.GapFree withdrawalRecord.externals := by
  have assigned : afterOdd.assigned = [0] := by decide +kernel
  have batched : afterOdd.batched = [] := by decide +kernel
  have inFlight : afterOdd.inFlight = [] := by decide +kernel
  refine ⟨by decide +kernel, assigned, batched, inFlight, by decide +kernel, ?_⟩
  intro gapFree
  have numbers := gapFree.numbers
  rw [assigned, batched, inFlight] at numbers
  exact absurd numbers.length_eq (by simp)

def paidOut : List Arrival :=
  [.receive Shared.Sample.timestamp (request "0x0a"), .deliver 0 (.batched (.ok ()))]

/-- A withdrawal that is signed, batched and answered. -/
theorem withdrawals_gap_free_iff_paid :
    Run.Along serverStep completes (.start 0) paidOut ∧
      ∀ n, (Run.stateAt serverStep (.start 0) paidOut n).GapFree withdrawalRecord.externals := by
  have codes : withdrawalRecord.externals.CodesMessages :=
    Recorded.codesMessages _ (by decide +kernel)
  have signsMessage : sampleInbox.keyManager.signRawSync coseDigest = .ok coseSig := by
    simp only [sampleInbox, if_true]
  have cose : CoseSignable withdrawalRecord.externals id sampleInbox 0 Shared.Sample.timestamp
      Shared.Sample.payload :=
    ⟨by decide, coseSig, signsMessage, by decide, by decide⟩
  have signed : signBridgeWithdrawal crypto sampleInbox.keyManager (request "0x0a").requestId
      (request "0x0a").recipient (request "0x0a").data (request "0x0a").amount = .ok out := by
    decide +kernel
  obtain ⟨pairs, fits, bridge⟩ := (signBridgeWithdrawal_total sampleInbox (request "0x0a")
    (by decide) (by decide)).mp ⟨out, signed⟩
  have along : Run.Along serverStep completes (.start 0) paidOut :=
    ⟨.inr ⟨_, rfl, cose, pairs, fits, bridge⟩, .inr rfl, trivial⟩
  exact ⟨along, (withdrawals_gap_free_iff withdrawalRecord.externals crypto id
    (fun _ => .ok Shared.Sample.payload) sampleInbox codes 0 paidOut).mpr along⟩

end Withdrawal

end SyndDB.Sequencer
