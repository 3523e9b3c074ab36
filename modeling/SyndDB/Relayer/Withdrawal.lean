import SyndDB.Contracts.Bridge
import SyndDB.Framework.Abi
import SyndDB.Sequencer.BridgeSignature

namespace SyndDB

open Octets Text Abi Contracts

namespace Contracts

/-- `struct SequencerSignature` of the contract. -/
def SequencerSignature.type : AbiType := .tuple [.bytes, .uint 256]

/-- `initializeAndHandleMessage` of the contract. -/
def initializeAndHandleMessageFunction : Function :=
  ⟨"initializeAndHandleMessage",
    [.bytes32, .address, .bytes, SequencerSignature.type, .array .bytes, .uint 256]⟩

def bytesOf : AbiValue → Option Bytes
  | .bytes bs => some bs
  | _ => none

/-- The arguments of `initializeAndHandleMessage`, from what follows the selector. -/
def decodeInitializeAndHandleMessage (data : Bytes) : Option BridgeCall := do
  match ← (AbiType.tuple initializeAndHandleMessageFunction.inputs).decode data with
  | .tuple [.word messageId, .word targetAddress, .bytes payload,
      .tuple [.bytes signature, .word submittedAt], .array signatures,
      .word nativeTokenAmount] => do
      let validatorSignatures ← signatures.mapM bytesOf
      return .initializeAndHandleMessage messageId (targetAddress.setWidth 160) payload
        ⟨signature, submittedAt⟩ validatorSignatures nativeTokenAmount
  | _ => none

end Contracts

namespace Relayer

open Sequencer (strip0x)

structure WithdrawalSubmissionRequest where
  messageId : String
  targetAddress : String
  payload : String
  nativeTokenAmount : String
  sequencerSignature : String
  sequence : BitVec 64
  timestamp : BitVec 64

inductive SubmitError where
  | FromHex (e : FromHexError)
  | InvalidStringLength
  | ParseInt (e : ParseIntError)
  | Bail (text : String)
  deriving DecidableEq

/-- `hex::decode` after `strip_prefix("0x")`. -/
def decodeField (field : String) : Except SubmitError Bytes :=
  (decodeHex (strip0x (utf8 field))).mapError SubmitError.FromHex

def parseMessageId (messageId : String) : Except SubmitError Bytes32 := do
  let messageIdBytes ← decodeField messageId
  if messageIdBytes.length ≠ 32 then
    .error (.Bail "Invalid message_id length: expected 32 bytes")
  else return BitVec.ofNat 256 (fromBigEndian messageIdBytes)

/-- `parse::<Address>()` -/
def parseAddress (targetAddress : String) : Except SubmitError Address :=
  let digits := strip0x (utf8 targetAddress)
  if digits.length % 2 ≠ 0 then .error (.FromHex .OddLength)
  else if digits.length / 2 ≠ 20 then .error .InvalidStringLength
  else
    ((hexPairs 0 digits).mapError SubmitError.FromHex).map fun bytes =>
      BitVec.ofNat 160 (fromBigEndian bytes)

/-- What a request says. -/
structure Withdrawal where
  messageId : Bytes32
  targetAddress : Address
  payload : Bytes
  nativeTokenAmount : UInt256
  signature : Bytes
  sequence : BitVec 64
  timestamp : BitVec 64
  deriving DecidableEq

def parse (request : WithdrawalSubmissionRequest) : Except SubmitError Withdrawal := do
  let messageId ← parseMessageId request.messageId
  let targetAddress ← parseAddress request.targetAddress
  let payload ← decodeField request.payload
  let nativeTokenAmount ←
    (parseUnsigned 128 (utf8 request.nativeTokenAmount)).mapError SubmitError.ParseInt
  let signature ← decodeField request.sequencerSignature
  return ⟨messageId, targetAddress, payload, BitVec.ofNat 256 nativeTokenAmount, signature,
    request.sequence, request.timestamp⟩

/-- The signature in the answer of the validator; `none` when there is no good answer. -/
def fetchValidatorSignature : Except String String → Option Bytes
  | .error _ => none
  | .ok signature => (decodeHex (strip0x (utf8 signature))).toOption

/-- Without a validator, or without its signature, the withdrawal is submitted all the same. -/
def validatorSignatures : Option (Except String String) → List Bytes
  | none => []
  | some answer => (fetchValidatorSignature answer).toList

namespace IBridge

/-- `struct SequencerSignature` of the relayer's interface. -/
def SequencerSignature : AbiType := .tuple [.bytes, .uint 64, .uint 64]

/-- `initializeAndHandleMessage` of the relayer's interface. -/
def initializeAndHandleMessage : Function :=
  ⟨"initializeAndHandleMessage",
    [.bytes32, .address, .bytes, SequencerSignature, .array .bytes, .uint 256]⟩

end IBridge

def Withdrawal.sequencerSignature (w : Withdrawal) : AbiValue :=
  .tuple [.bytes w.signature, .word (w.sequence.setWidth 256), .word (w.timestamp.setWidth 256)]

def Withdrawal.arguments (w : Withdrawal) (signatures : List Bytes) : List AbiValue :=
  [.word w.messageId, .word (w.targetAddress.setWidth 256), .bytes w.payload, w.sequencerSignature,
    .array (signatures.map .bytes), .word w.nativeTokenAmount]

structure Transaction where
  recipient : Address
  input : Bytes

/-- The transaction that is sent for a request. -/
def submitWithdrawal (bridgeAddress : Address) (validator : Option (Except String String))
    (request : WithdrawalSubmissionRequest) : Except SubmitError Transaction := do
  let w ← parse request
  return ⟨bridgeAddress, IBridge.initializeAndHandleMessage.selector ++
    (AbiValue.tuple (w.arguments (validatorSignatures validator))).encode⟩

/-- The transaction calls `initializeAndHandleMessage` of the bridge with what the request says.
Nothing is asked of the time of the signature, which the request does not have. -/
def Agrees (w : Withdrawal) (signatures : List Bytes) (input : Bytes) : Prop :=
  input.take 4 = initializeAndHandleMessageFunction.selector ∧
    ∃ submittedAt, decodeInitializeAndHandleMessage (input.drop 4) =
      some (.initializeAndHandleMessage w.messageId w.targetAddress w.payload
        ⟨w.signature, submittedAt⟩ signatures w.nativeTokenAmount)

theorem selector_relayer :
    IBridge.initializeAndHandleMessage.selector = [0x7b, 0xcb, 0xca, 0x1b] := by
  decide +kernel

theorem selector_bridge :
    initializeAndHandleMessageFunction.selector = [0x90, 0xfd, 0x69, 0x31] := by
  decide +kernel

theorem submitWithdrawal_ok (bridgeAddress : Address) (validator : Option (Except String String))
    (request : WithdrawalSubmissionRequest) (tx : Transaction) :
    submitWithdrawal bridgeAddress validator request = .ok tx ↔
      ∃ w, parse request = .ok w ∧
        tx = ⟨bridgeAddress, IBridge.initializeAndHandleMessage.selector ++
          (AbiValue.tuple (w.arguments (validatorSignatures validator))).encode⟩ := by
  rw [submitWithdrawal, Outcome.bind_ok]
  constructor
  · rintro ⟨w, parsed, same⟩
    cases same
    exact ⟨w, parsed, rfl⟩
  · rintro ⟨w, parsed, rfl⟩
    exact ⟨w, parsed, rfl⟩

/-- Selector and arguments of what is sent. -/
theorem input_split (w : Withdrawal) (signatures : List Bytes) :
    let input := IBridge.initializeAndHandleMessage.selector ++
      (AbiValue.tuple (w.arguments signatures)).encode
    input.take 4 = IBridge.initializeAndHandleMessage.selector ∧
      input.drop 4 = (AbiValue.tuple (w.arguments signatures)).encode :=
  have length := IBridge.initializeAndHandleMessage.length_selector
  ⟨List.take_left' length, List.drop_left' length⟩

theorem not_agrees (w : Withdrawal) (signatures : List Bytes) :
    ¬ Agrees w signatures (IBridge.initializeAndHandleMessage.selector ++
      (AbiValue.tuple (w.arguments signatures)).encode) := by
  rintro ⟨selectors, _⟩
  rw [(input_split w signatures).1, selector_relayer, selector_bridge] at selectors
  exact absurd selectors (by decide)

/-- No request for which the relayer sends a transaction reaches `initializeAndHandleMessage`. -/
theorem submitted_never_agrees (bridgeAddress : Address)
    (validator : Option (Except String String)) (request : WithdrawalSubmissionRequest)
    (tx : Transaction) (h : submitWithdrawal bridgeAddress validator request = .ok tx) :
    ∃ w, parse request = .ok w ∧ ¬ Agrees w (validatorSignatures validator) tx.input := by
  obtain ⟨w, parsed, rfl⟩ := (submitWithdrawal_ok bridgeAddress validator request tx).mp h
  exact ⟨w, parsed, not_agrees w _⟩

theorem mapM_bytesOf (signatures : List Bytes) :
    (signatures.map AbiValue.bytes).mapM bytesOf = some signatures := by
  induction signatures with
  | nil => rfl
  | cons signature signatures ih =>
    rw [List.map_cons, List.mapM_cons, ih]
    rfl

/-- The relayer's struct is longer than the contract's. -/
theorem sequencerSignature_accepted (w : Withdrawal) :
    Accepts Contracts.SequencerSignature.type w.sequencerSignature
      (.tuple [.bytes w.signature, .word (w.sequence.setWidth 256)]) := by
  have fields : AcceptsAll [.bytes, .uint 256]
      [.bytes w.signature, .word (w.sequence.setWidth 256)]
      [.bytes w.signature, .word (w.sequence.setWidth 256)] :=
    ⟨accepts_has _ _ trivial, accepts_has _ _ (BitVec.isLt _), trivial⟩
  exact ⟨rfl, rfl, tuple_reads _ _ _ [.word (w.timestamp.setWidth 256)] fields⟩

theorem arguments_accepted (w : Withdrawal) (signatures : List Bytes)
    (few : signatures.length < 2 ^ 64) :
    AcceptsAll initializeAndHandleMessageFunction.inputs (w.arguments signatures)
      [.word w.messageId, .word (w.targetAddress.setWidth 256), .bytes w.payload,
        .tuple [.bytes w.signature, .word (w.sequence.setWidth 256)],
        .array (signatures.map .bytes), .word w.nativeTokenAmount] := by
  have target : (w.targetAddress.setWidth 256).toNat < 2 ^ 160 := by
    have bound := w.targetAddress.isLt
    rw [BitVec.toNat_setWidth]
    omega
  have array : AbiType.Has (.array .bytes) (.array (signatures.map .bytes)) := by
    refine ⟨by rw [List.length_map]; exact few, fun v hv => ?_⟩
    obtain ⟨signature, _, rfl⟩ := List.mem_map.mp hv
    trivial
  exact ⟨accepts_has .bytes32 _ trivial, accepts_has .address _ target,
    accepts_has .bytes _ trivial, sequencerSignature_accepted w,
    accepts_has (.array .bytes) _ array, accepts_has (.uint 256) _ (BitVec.isLt _), trivial⟩

/-- The bridge would read the sequence number as the time of the signature. -/
theorem submitted_arguments (bridgeAddress : Address) (validator : Option (Except String String))
    (request : WithdrawalSubmissionRequest) (w : Withdrawal) (tx : Transaction)
    (parsed : parse request = .ok w)
    (h : submitWithdrawal bridgeAddress validator request = .ok tx)
    (short : tx.input.length < 2 ^ 64) :
    decodeInitializeAndHandleMessage (tx.input.drop 4) =
      some (.initializeAndHandleMessage w.messageId w.targetAddress w.payload
        ⟨w.signature, w.sequence.setWidth 256⟩ (validatorSignatures validator)
        w.nativeTokenAmount) := by
  obtain ⟨w', parsed', rfl⟩ := (submitWithdrawal_ok bridgeAddress validator request tx).mp h
  obtain rfl : w = w' := Except.ok.inj (parsed.symm.trans parsed')
  have few : (validatorSignatures validator).length < 2 ^ 64 := by
    cases validator with
    | none => exact Nat.pow_pos (by decide)
    | some answer =>
      rw [validatorSignatures]
      cases fetchValidatorSignature answer with
      | none => exact Nat.pow_pos (by decide)
      | some signature => exact Nat.one_lt_two_pow (by decide)
  rw [List.length_append] at short
  have read := tuple_reads _ _ _ [] (arguments_accepted w _ few) []
  rw [List.append_nil, List.append_nil] at read
  have arguments := read (by omega)
  have narrowed : (w.targetAddress.setWidth 256).setWidth 160 = w.targetAddress := by
    apply BitVec.eq_of_toNat_eq
    have bound := w.targetAddress.isLt
    simp only [BitVec.toNat_setWidth]
    omega
  rw [(input_split w _).2, decodeInitializeAndHandleMessage, arguments]
  simp only [Option.bind_eq_bind, Option.bind_some, mapM_bytesOf, narrowed]
  rfl

def sampleRequest : WithdrawalSubmissionRequest where
  messageId := "0x0000000000000000000000000000000000000000000000000000000000000001"
  targetAddress := "0x0000000000000000000000000000000000000099"
  payload := "0x12ab"
  nativeTokenAmount := "3"
  sequencerSignature := "0x0102"
  sequence := 7
  timestamp := 1700000000

def sampleWithdrawal : Withdrawal := ⟨1, 0x99, [0x12, 0xab], 3, [1, 2], 7, 1700000000⟩

theorem parse_sample : parse sampleRequest = .ok sampleWithdrawal := by
  decide

theorem submitted_never_agrees_sample :
    ∃ tx, submitWithdrawal 0xB1 none sampleRequest = .ok tx ∧
      ∃ w, parse sampleRequest = .ok w ∧ ¬ Agrees w [] tx.input := by
  have sent := (submitWithdrawal_ok 0xB1 none sampleRequest _).mpr
    ⟨sampleWithdrawal, parse_sample, rfl⟩
  exact ⟨_, sent, submitted_never_agrees 0xB1 none sampleRequest _ sent⟩

/-- The relayer calls `0x7bcbca1b`, and the function of the bridge is `0x90fd6931`. -/
theorem selectors_differ :
    ∃ tx w, submitWithdrawal 0xB1 none sampleRequest = .ok tx ∧ parse sampleRequest = .ok w ∧
      tx.input.take 4 = [0x7b, 0xcb, 0xca, 0x1b] ∧
      initializeAndHandleMessageFunction.selector = [0x90, 0xfd, 0x69, 0x31] ∧
      ¬ Agrees w [] tx.input := by
  have sent := (submitWithdrawal_ok 0xB1 none sampleRequest _).mpr
    ⟨sampleWithdrawal, parse_sample, rfl⟩
  have called := (input_split sampleWithdrawal []).1.trans selector_relayer
  exact ⟨_, sampleWithdrawal, sent, parse_sample, called, selector_bridge,
    not_agrees sampleWithdrawal []⟩

end Relayer

end SyndDB
