import Mathlib.Data.List.Induction
import SyndDB.Shared.Recorded

namespace SyndDB.Shared

open Octets Outcome

variable (X : Externals)

def SignedMessage.ofParsed (parsed : ParsedCoseMessage) (coseProtectedHeader : Bytes) :
    SignedMessage where
  sequence := parsed.sequence
  timestamp := parsed.timestamp
  messageType := parsed.messageType.toMessageType
  payload := parsed.payload
  messageHash := hex0x (X.keccak256 parsed.payload)
  signature := hex0x parsed.signature
  signer := hex0x parsed.pubkey
  coseProtectedHeader := coseProtectedHeader

def CborSignedMessage.toSignedMessageUnchecked (m : CborSignedMessage) :
    Except CborError SignedMessage := do
  let parsed ← parseCoseSign1 X m.coseBytes
  let coseProtectedHeader ← m.protectedHeader X
  return .ofParsed X parsed coseProtectedHeader

def Label.asInt : Label → Option Int
  | .int l => some l
  | .text _ => none

def Value.asInt : Value → Option Int
  | .integer n => some n
  | .bytes _ | .other _ => none

/-- The entries of a header with a field of their own. -/
def Header.known (h : Header) : List (Int × Value) :=
  (h.alg.toList.map fun alg => (1, alg.asValue)) ++
    h.registered.map fun entry => (entry.1.label, entry.2)

/-- The entries of a header with an integer label, in the order they are written. -/
def Header.labelled (h : Header) : List (Int × Value) :=
  h.known ++ h.rest.filterMap fun entry => entry.1.asInt.map fun l => (l, entry.2)

def labelledEntries (entries : List (Value × Value)) : List (Int × Value) :=
  entries.filterMap fun entry => entry.1.asInt.map fun l => (l, entry.2)

/-- The bytes of a protected header that are signed: those that were read, or those
that are written. -/
def Externals.protectedBytes (h : ProtectedHeader) : Bytes :=
  match h.originalData with
  | some bytes => bytes
  | none => if h.header.entries.isEmpty then [] else (X.headerToVec h.header).toOption.getD []

/-- What `coset` and `ciborium` promise about a message that was read: no label stands twice, the
header can be written and read again, and `Sig_structure` is the one of the standard. -/
structure Externals.ReadsMessages : Prop where
  distinct : ∀ bytes c, X.fromSlice bytes = .ok c →
    (c.protectedHeader.header.rest.map Prod.fst).Nodup
  rewrites : ∀ bytes c, X.fromSlice bytes = .ok c → ∃ header entries,
    X.headerToVec c.protectedHeader.header = .ok header ∧
      X.fromReader header = some (.map entries) ∧
      labelledEntries entries = c.protectedHeader.header.labelled
  signs : ∀ c, X.tbsData c =
    buildCoseSigStructure (X.protectedBytes c.protectedHeader) (c.payload.getD [])

/-- What parsing takes from a message. -/
structure Parses (c : CoseSign1) (parsed : ParsedCoseMessage) : Prop where
  sequence : extractU64FromHeader c.protectedHeader.header HEADER_SEQUENCE = some parsed.sequence
  timestamp : extractU64FromHeader c.protectedHeader.header HEADER_TIMESTAMP = some parsed.timestamp
  messageType : ∃ value, extractU64FromHeader c.protectedHeader.header HEADER_MSG_TYPE =
    some value ∧ CborMessageType.fromU8 value.toUInt8 = .ok parsed.messageType
  pubkey : extractPubkeyBytes c.unprotectedHeader = .ok parsed.pubkey
  length : c.signature.length = 64
  signature : parsed.signature = c.signature
  payload : parsed.payload = c.payload.getD []

theorem requireHeader_ok (header : Header) (label : Int) (field : String) (n : UInt64) :
    requireHeader header label field = .ok n ↔ extractU64FromHeader header label = some n := by
  rw [requireHeader]
  cases extractU64FromHeader header label with
  | none => simp
  | some m => simp

theorem exactly64_ok (bytes result : Bytes) (message : String) :
    exactly64 bytes message = .ok result ↔ bytes.length = 64 ∧ result = bytes := by
  rw [exactly64]
  by_cases length : bytes.length = 64
  · simp [length, eq_comm]
  · simp [length]

theorem parseCoseSign1_ok (bytes : Bytes) (parsed : ParsedCoseMessage) :
    parseCoseSign1 X bytes = .ok parsed ↔ ∃ c, X.fromSlice bytes = .ok c ∧ Parses c parsed := by
  simp only [parseCoseSign1, bind_ok, requireHeader_ok, exactly64_ok]
  constructor
  · rintro ⟨c, decoded, sequence, hs, timestamp, ht, value, hv, messageType, hm, pubkey, hp,
      signature, ⟨length, hsig⟩, returned⟩
    cases returned
    exact ⟨c, decoded, hs, ht, ⟨value, hv, hm⟩, hp, length, hsig, rfl⟩
  · intro h
    obtain ⟨c, decoded, hs, ht, ⟨value, hv, hm⟩, hp, length, hsig, payload⟩ := h
    refine ⟨c, decoded, _, hs, _, ht, value, hv, _, hm, _, hp, _, ⟨length, hsig⟩, ?_⟩
    rw [← payload]
    rfl

/-- Key and signature are well formed and the signature is one of the data. -/
structure Externals.Verifies (data signature key : Bytes) : Prop where
  validKey : X.validKey key = true
  validSignature : X.validSignature signature = true
  verified : X.verifyPrehash key (X.keccak256 data) signature = true

theorem verifySecp256k1_ok (data signature key : Bytes) :
    verifySecp256k1 X data signature key = .ok () ↔
      X.verifyPrehash key (X.keccak256 data) signature = true := by
  rw [verifySecp256k1]
  split
  · rename_i verified
    simp [verified]
  · rename_i unverified
    simp [unverified]

theorem extractPubkey_ok (header : Header) (key : Bytes) :
    extractPubkey X header = .ok key ↔
      extractPubkeyBytes header = .ok key ∧ X.validKey key = true := by
  simp only [extractPubkey, bind_ok, verifyingKeyFromBytes]
  constructor
  · intro h
    obtain ⟨found, read, valid⟩ := h
    split at valid
    · cases valid
      exact ⟨read, ‹_›⟩
    · cases valid
  · intro h
    obtain ⟨read, valid⟩ := h
    exact ⟨key, read, if_pos valid⟩

theorem signatureFromBytes_ok (bytes signature : Bytes) :
    signatureFromBytes X bytes = .ok signature ↔
      signature = bytes ∧ X.validSignature bytes = true := by
  rw [signatureFromBytes]
  split
  · rename_i valid
    simp [valid, eq_comm]
  · rename_i invalid
    simp [invalid]

theorem verifyAndParseCoseSign1_ok (bytes key : Bytes) (parsed : ParsedCoseMessage) :
    verifyAndParseCoseSign1 X bytes key = .ok parsed ↔ ∃ c, X.fromSlice bytes = .ok c ∧
      Parses c parsed ∧ parsed.pubkey = key ∧ X.Verifies (X.tbsData c) c.signature key := by
  simp only [verifyAndParseCoseSign1, bind_ok, throw_bind, guard_ok, not_not, extractPubkey_ok,
    exactly64_ok, signatureFromBytes_ok, parseCoseSign1_ok]
  constructor
  · rintro ⟨c, decoded, pubkey, ⟨found, valid⟩, rfl, _, ⟨-, rfl⟩, _, ⟨rfl, validSignature⟩, _,
      verified, d, again, parses⟩
    obtain rfl : c = d := Except.ok.inj (decoded.symm.trans again)
    have same : parsed.pubkey = pubkey := Except.ok.inj (parses.pubkey.symm.trans found)
    exact ⟨c, decoded, parses, same, valid, validSignature,
      (verifySecp256k1_ok X _ _ _).mp verified⟩
  · intro h
    obtain ⟨c, decoded, parses, rfl, valid, validSignature, verified⟩ := h
    exact ⟨c, decoded, _, ⟨parses.pubkey, valid⟩, rfl, _, ⟨parses.length, rfl⟩, _,
      ⟨rfl, validSignature⟩, (), (verifySecp256k1_ok X _ _ _).mpr verified, c, decoded, parses⟩

theorem toSignedMessageUnchecked_ok (m : CborSignedMessage) (message : SignedMessage) :
    m.toSignedMessageUnchecked X = .ok message ↔ ∃ c parsed header,
      X.fromSlice m.coseBytes = .ok c ∧ Parses c parsed ∧
      X.headerToVec c.protectedHeader.header = .ok header ∧
      message = .ofParsed X parsed header := by
  simp only [CborSignedMessage.toSignedMessageUnchecked, CborSignedMessage.protectedHeader,
    extractProtectedHeader, bind_ok, parseCoseSign1_ok]
  constructor
  · intro h
    obtain ⟨parsed, ⟨c, decoded, parses⟩, header, ⟨d, again, written⟩, returned⟩ := h
    obtain rfl : c = d := Except.ok.inj (decoded.symm.trans again)
    cases returned
    exact ⟨c, parsed, header, decoded, parses, written, rfl⟩
  · intro h
    obtain ⟨c, parsed, header, decoded, parses, written, rfl⟩ := h
    exact ⟨parsed, ⟨c, decoded, parses⟩, header, ⟨c, decoded, written⟩, rfl⟩

theorem toSignedMessage_unchecked (m : CborSignedMessage) (key : Bytes) (message : SignedMessage) :
    m.toSignedMessage X key = .ok message ↔ ∃ parsed header,
      verifyAndParseCoseSign1 X m.coseBytes key = .ok parsed ∧
      m.protectedHeader X = .ok header ∧ message = .ofParsed X parsed header := by
  simp only [CborSignedMessage.toSignedMessage, CborSignedMessage.verifyAndParse, bind_ok]
  constructor
  · intro h
    obtain ⟨parsed, verified, header, written, returned⟩ := h
    cases returned
    exact ⟨parsed, header, verified, written, rfl⟩
  · intro h
    obtain ⟨parsed, header, verified, written, rfl⟩ := h
    exact ⟨parsed, verified, header, written, rfl⟩

theorem verifyWithKey_ok (data signature pubkey : Bytes) :
    verifyWithKey X data signature pubkey = .ok () ↔ X.Verifies data signature pubkey := by
  simp only [verifyWithKey, throw_bind, guard_ok, Bool.not_eq_true', Bool.not_eq_false]
  constructor
  · intro h
    obtain ⟨validSignature, validKey, verified⟩ := h
    split at verified
    · rename_i checked
      exact ⟨validKey, validSignature, (verifySecp256k1_ok X _ _ _).mp checked⟩
    · cases verified
  · intro h
    obtain ⟨validKey, validSignature, verified⟩ := h
    refine ⟨validSignature, validKey, ?_⟩
    rw [(verifySecp256k1_ok X _ _ _).mpr verified]
    rfl

/-- Hexadecimal text of 64 bytes, whatever the errors are. -/
theorem decode64_ok (text : Hex) (notHex : VerificationError) (wrong : Bytes → VerificationError)
    (bytes : Bytes) :
    (match hexBytes text with
      | none => Except.error notHex
      | some decoded => if decoded.length = 64 then .ok decoded else .error (wrong decoded)) =
        .ok bytes ↔ hexBytes text = some bytes ∧ bytes.length = 64 := by
  cases hexBytes text with
  | none => simp
  | some decoded =>
    by_cases length : decoded.length = 64
    · simp only [length, if_true, Except.ok.injEq, Option.some.injEq]
      constructor
      · rintro rfl
        exact ⟨rfl, length⟩
      · intro h
        obtain ⟨rfl, -⟩ := h
        rfl
    · simp only [length, if_false, reduceCtorEq, Option.some.injEq, false_iff, not_and]
      rintro rfl
      exact length

theorem decodeSignature_ok (signature : Hex) (kind : String) (bytes : Bytes) :
    decodeSignature signature kind = .ok bytes ↔
      hexBytes (stripHexPrefix signature) = some bytes ∧ bytes.length = 64 :=
  decode64_ok (stripHexPrefix signature) _ _ bytes

theorem decodePubkey_ok (signer : Hex) (bytes : Bytes) :
    decodePubkey signer = .ok bytes ↔
      hexBytes (stripHexPrefix signer) = some bytes ∧ bytes.length = 64 :=
  decode64_ok (stripHexPrefix signer) _ _ bytes

theorem verifySignature_ok (m : SignedMessage) :
    m.verifySignature X = .ok () ↔
      parseCoseProtectedHeaderFields X m.coseProtectedHeader = .ok (m.sequence, m.timestamp) ∧
      ∃ signature pubkey, decodeSignature m.signature "COSE" = .ok signature ∧
        decodePubkey m.signer = .ok pubkey ∧
        X.Verifies (buildCoseSigStructure m.coseProtectedHeader m.payload) signature pubkey := by
  simp only [SignedMessage.verifySignature, bind_ok, throw_bind, guard_ok, not_not,
    verifyWithKey_ok]
  constructor
  · intro h
    obtain ⟨⟨sequence, timestamp⟩, fields, hs, ht, signature, hsig, pubkey, hkey, verifies⟩ := h
    dsimp only at hs ht
    rw [hs, ht]
    exact ⟨fields, signature, pubkey, hsig, hkey, verifies⟩
  · intro h
    obtain ⟨fields, signature, pubkey, hsig, hkey, verifies⟩ := h
    exact ⟨_, fields, rfl, rfl, signature, hsig, pubkey, hkey, verifies⟩

/-- An integer under the label, cut down to 64 bits. -/
def underLabel (label : Int) : Int × Value → Option UInt64
  | (l, .integer n) => if l = label then some (UInt64.ofNat (n % 2 ^ 64).toNat) else none
  | _ => none

theorem extractU64FromHeader_eq (header : Header) (label : Int) :
    extractU64FromHeader header label =
      (header.rest.filterMap fun entry => entry.1.asInt.map fun l => (l, entry.2)).findSome?
        (underLabel label) := by
  rw [extractU64FromHeader]
  induction header.rest with
  | nil => rfl
  | cons entry rest ih =>
    obtain ⟨l, v⟩ := entry
    cases l with
    | text s =>
      rw [List.findSome?_cons, List.filterMap_cons]
      exact ih
    | int l =>
      rw [List.findSome?_cons, List.filterMap_cons, ih]
      simp only [Label.asInt, Option.map_some, List.findSome?_cons]
      cases v with
      | integer n => rfl
      | bytes b => rfl
      | other e => rfl

theorem lastU64_eq (label : Int) (entries : List (Value × Value)) :
    lastU64 label entries = (labelledEntries entries).reverse.findSome? (underLabel label) := by
  induction entries using List.reverseRecOn with
  | nil => rfl
  | append_singleton entries entry ih =>
    obtain ⟨k, v⟩ := entry
    rw [lastU64] at ih
    rw [lastU64, List.foldl_append, ih, labelledEntries, labelledEntries, List.filterMap_append,
      List.reverse_append, List.findSome?_append]
    cases k with
    | integer l =>
      cases v with
      | integer n =>
        simp only [Value.asInt, Option.map_some, List.filterMap_cons, List.filterMap_nil,
          List.reverse_singleton, List.findSome?_cons, List.findSome?_nil, underLabel,
          List.foldl_cons, List.foldl_nil]
        split
        · rfl
        · rfl
      | bytes b => rfl
      | other e => rfl
    | bytes b => rfl
    | other e => rfl

theorem underLabel_ne (label : Int) (entry : Int × Value) (h : entry.1 ≠ label) :
    underLabel label entry = none := by
  obtain ⟨l, v⟩ := entry
  cases v with
  | integer n => exact if_neg h
  | bytes b => rfl
  | other e => rfl

/-- Where a label stands once, the first integer under it is the last. -/
theorem findSome_reverse (label : Int) (entries : List (Int × Value))
    (distinct : (entries.map Prod.fst).Nodup) :
    entries.reverse.findSome? (underLabel label) = entries.findSome? (underLabel label) := by
  induction entries with
  | nil => rfl
  | cons entry rest ih =>
    rw [List.map_cons, List.nodup_cons] at distinct
    rw [List.reverse_cons, List.findSome?_append, ih distinct.2]
    simp only [List.findSome?_cons, List.findSome?_nil]
    by_cases here : entry.1 = label
    · have none : rest.findSome? (underLabel label) = none := by
        rw [List.findSome?_eq_none_iff]
        intro other member
        apply underLabel_ne
        intro same
        rw [here, ← same] at distinct
        exact distinct.1 (List.mem_map_of_mem member)
      rw [none, Option.none_or]
    · rw [underLabel_ne label entry here, Option.or_none]

theorem known_apart (header : Header) (label : Int) (priv : label < 0) :
    ∀ entry ∈ header.known, underLabel label entry = none := by
  intro entry member
  apply underLabel_ne
  rcases List.mem_append.mp member with first | second
  · obtain ⟨alg, -, rfl⟩ := List.mem_map.mp first
    dsimp only
    omega
  · obtain ⟨⟨parameter, v⟩, -, rfl⟩ := List.mem_map.mp second
    cases parameter <;> simp only [HeaderParameter.label] <;> omega

theorem labels_nodup (rest : List (Label × Value)) (distinct : (rest.map Prod.fst).Nodup) :
    ((rest.filterMap fun entry => entry.1.asInt.map fun l => (l, entry.2)).map Prod.fst).Nodup := by
  have ints : (rest.filterMap fun entry => entry.1.asInt.map fun l => (l, entry.2)).map Prod.fst =
      (rest.map Prod.fst).filterMap Label.asInt := by
    rw [List.map_filterMap, List.filterMap_map]
    congr 1
    funext entry
    obtain ⟨l, v⟩ := entry
    cases l with
    | int l => rfl
    | text s => rfl
  rw [ints]
  apply List.Pairwise.filterMap _ _ distinct
  intro l l' different n found n' found' same
  cases l with
  | text s => cases found
  | int l =>
    cases l' with
    | text s => cases found'
    | int l' =>
      cases found
      cases found'
      exact different (congrArg Label.int same)

/-- Under a label of the private range, both scans find the same. -/
theorem lastU64_labelled (header : Header) (label : Int) (entries : List (Value × Value))
    (distinct : (header.rest.map Prod.fst).Nodup) (priv : label < 0)
    (same : labelledEntries entries = header.labelled) :
    lastU64 label entries = extractU64FromHeader header label := by
  have others : header.known.reverse.findSome? (underLabel label) = none := by
    rw [List.findSome?_eq_none_iff]
    intro entry member
    exact known_apart header label priv entry (List.mem_reverse.mp member)
  rw [lastU64_eq, same, Header.labelled, List.reverse_append, List.findSome?_append,
    findSome_reverse label _ (labels_nodup header.rest distinct), extractU64FromHeader_eq, others,
    Option.or_none]

theorem parses_pubkey_length (c : CoseSign1) (parsed : ParsedCoseMessage) (h : Parses c parsed) :
    parsed.pubkey.length = 64 := by
  have found := h.pubkey
  simp only [extractPubkeyBytes] at found
  split at found
  · obtain ⟨length, same⟩ := (exactly64_ok _ _ _).mp found
    rw [same]
    exact length
  · cases found

theorem parses_unique (c : CoseSign1) (p q : ParsedCoseMessage) (hp : Parses c p)
    (hq : Parses c q) : p = q := by
  obtain ⟨sequence, timestamp, messageType, payload, signature, pubkey⟩ := p
  obtain ⟨sequence', timestamp', messageType', payload', signature', pubkey'⟩ := q
  obtain ⟨v, hv, type⟩ := hp.messageType
  obtain ⟨v', hv', type'⟩ := hq.messageType
  obtain rfl : v = v' := Option.some.inj (hv.symm.trans hv')
  have hs := Option.some.inj (hp.sequence.symm.trans hq.sequence)
  have ht := Option.some.inj (hp.timestamp.symm.trans hq.timestamp)
  have hm := Except.ok.inj (type.symm.trans type')
  have hk := Except.ok.inj (hp.pubkey.symm.trans hq.pubkey)
  have hsig := hp.signature.trans hq.signature.symm
  have hpay := hp.payload.trans hq.payload.symm
  dsimp only at hs ht hm hk hsig hpay
  rw [hs, ht, hm, hk, hsig, hpay]

theorem fields_of_parses (reads : X.ReadsMessages) (bytes : Bytes) (c : CoseSign1)
    (parsed : ParsedCoseMessage) (header : Bytes) (decoded : X.fromSlice bytes = .ok c)
    (parses : Parses c parsed) (written : X.headerToVec c.protectedHeader.header = .ok header) :
    parseCoseProtectedHeaderFields X header = .ok (parsed.sequence, parsed.timestamp) := by
  obtain ⟨again, entries, rewritten, item, same⟩ := reads.rewrites bytes c decoded
  obtain rfl : again = header := Except.ok.inj (rewritten.symm.trans written)
  have distinct := reads.distinct bytes c decoded
  have sequence := lastU64_labelled _ HEADER_SEQUENCE entries distinct (by decide) same
  have timestamp := lastU64_labelled _ HEADER_TIMESTAMP entries distinct (by decide) same
  simp only [parseCoseProtectedHeaderFields, item, sequence, timestamp, parses.sequence,
    parses.timestamp]

/-- On a converted message the second verifier only depends on the signature. -/
theorem verifySignature_ofParsed (reads : X.ReadsMessages) (bytes : Bytes) (c : CoseSign1)
    (parsed : ParsedCoseMessage) (header : Bytes) (decoded : X.fromSlice bytes = .ok c)
    (parses : Parses c parsed) (written : X.headerToVec c.protectedHeader.header = .ok header) :
    (SignedMessage.ofParsed X parsed header).verifySignature X = .ok () ↔
      X.Verifies (buildCoseSigStructure header parsed.payload) parsed.signature parsed.pubkey := by
  have fields := fields_of_parses X reads bytes c parsed header decoded parses written
  have length : parsed.signature.length = 64 := by
    rw [parses.signature]
    exact parses.length
  rw [verifySignature_ok]
  simp only [SignedMessage.ofParsed, fields, true_and, decodeSignature_ok, decodePubkey_ok,
    stripHexPrefix_hex0x, hexBytes_hexChars, Option.some.injEq]
  constructor
  · intro h
    obtain ⟨_, _, ⟨rfl, -⟩, ⟨rfl, -⟩, verifies⟩ := h
    exact verifies
  · intro verifies
    exact ⟨_, _, ⟨rfl, length⟩, ⟨rfl, parses_pubkey_length c parsed parses⟩, verifies⟩

/-- Both verifiers accept or neither does, and they report the same. -/
def Externals.Agree (bytes key : Bytes) : Prop :=
  ((∃ parsed, verifyAndParseCoseSign1 X bytes key = .ok parsed) ↔
    ∃ message, (CborSignedMessage.mk bytes).toSignedMessageUnchecked X = .ok message ∧
      message.signer = hex0x key ∧ message.verifySignature X = .ok ()) ∧
  ∀ parsed message, verifyAndParseCoseSign1 X bytes key = .ok parsed →
    (CborSignedMessage.mk bytes).toSignedMessageUnchecked X = .ok message →
    message.sequence = parsed.sequence ∧ message.timestamp = parsed.timestamp ∧
      message.messageType = parsed.messageType.toMessageType ∧ message.payload = parsed.payload

/-- If the message is otherwise in order, its signature is one under both encodings of the protected
header, the one that was read and the one that is written again, or under neither. -/
def Externals.SameUnderBothHeaders (bytes key : Bytes) : Prop :=
  ∀ c parsed header, X.fromSlice bytes = .ok c → Parses c parsed →
    X.headerToVec c.protectedHeader.header = .ok header → parsed.pubkey = key →
    (X.Verifies (buildCoseSigStructure (X.protectedBytes c.protectedHeader) parsed.payload)
        parsed.signature key ↔
      X.Verifies (buildCoseSigStructure header parsed.payload) parsed.signature key)

theorem first_accepts (reads : X.ReadsMessages) (bytes key : Bytes) (c : CoseSign1)
    (parsed : ParsedCoseMessage) (decoded : X.fromSlice bytes = .ok c) (parses : Parses c parsed) :
    (∃ parsed, verifyAndParseCoseSign1 X bytes key = .ok parsed) ↔ parsed.pubkey = key ∧
      X.Verifies (buildCoseSigStructure (X.protectedBytes c.protectedHeader) parsed.payload)
        parsed.signature key := by
  rw [parses.payload, parses.signature, ← reads.signs]
  simp only [verifyAndParseCoseSign1_ok]
  constructor
  · intro h
    obtain ⟨again, d, redecoded, reparses, pubkey, verifies⟩ := h
    obtain rfl : c = d := Except.ok.inj (decoded.symm.trans redecoded)
    obtain rfl := parses_unique c parsed again parses reparses
    exact ⟨pubkey, verifies⟩
  · intro h
    obtain ⟨pubkey, verifies⟩ := h
    exact ⟨parsed, c, decoded, parses, pubkey, verifies⟩

theorem second_accepts (reads : X.ReadsMessages) (bytes key : Bytes) (c : CoseSign1)
    (parsed : ParsedCoseMessage) (header : Bytes) (decoded : X.fromSlice bytes = .ok c)
    (parses : Parses c parsed) (written : X.headerToVec c.protectedHeader.header = .ok header) :
    (∃ message, (CborSignedMessage.mk bytes).toSignedMessageUnchecked X = .ok message ∧
      message.signer = hex0x key ∧ message.verifySignature X = .ok ()) ↔ parsed.pubkey = key ∧
      X.Verifies (buildCoseSigStructure header parsed.payload) parsed.signature key := by
  have verify := verifySignature_ofParsed X reads bytes c parsed header decoded parses written
  constructor
  · intro h
    obtain ⟨message, converted, signer, accepted⟩ := h
    obtain ⟨d, again, header', redecoded, reparses, rewritten, rfl⟩ :=
      (toSignedMessageUnchecked_ok X _ _).mp converted
    obtain rfl : c = d := Except.ok.inj (decoded.symm.trans redecoded)
    obtain rfl := parses_unique c parsed again parses reparses
    obtain rfl : header = header' := Except.ok.inj (written.symm.trans rewritten)
    have pubkey : parsed.pubkey = key := hex0x_injective _ _ signer
    rw [verify, pubkey] at accepted
    exact ⟨pubkey, accepted⟩
  · intro h
    obtain ⟨rfl, verifies⟩ := h
    exact ⟨_, (toSignedMessageUnchecked_ok X _ _).mpr
      ⟨c, parsed, header, decoded, parses, written, rfl⟩, rfl, verify.mpr verifies⟩

/-- The two verifiers agree exactly where the re-encoded header makes no difference
to the signature. -/
theorem verifiers_agree_iff (reads : X.ReadsMessages) (bytes key : Bytes) :
    X.Agree bytes key ↔ X.SameUnderBothHeaders bytes key := by
  constructor
  · rintro ⟨agree, -⟩ c parsed header decoded parses written pubkey
    rw [first_accepts X reads bytes key c parsed decoded parses,
      second_accepts X reads bytes key c parsed header decoded parses written] at agree
    constructor
    · intro verifies
      exact (agree.mp ⟨pubkey, verifies⟩).2
    · intro verifies
      exact (agree.mpr ⟨pubkey, verifies⟩).2
  · intro same
    refine ⟨⟨?_, ?_⟩, ?_⟩
    · intro h
      obtain ⟨parsed, verified⟩ := h
      obtain ⟨c, decoded, parses, pubkey, -⟩ := (verifyAndParseCoseSign1_ok X _ _ _).mp verified
      obtain ⟨header, -, written, -, -⟩ := reads.rewrites bytes c decoded
      obtain ⟨-, verifies⟩ := (first_accepts X reads bytes key c parsed decoded parses).mp
        ⟨parsed, verified⟩
      rw [second_accepts X reads bytes key c parsed header decoded parses written]
      exact ⟨pubkey, (same c parsed header decoded parses written pubkey).mp verifies⟩
    · intro h
      obtain ⟨message, converted, accepted⟩ := h
      obtain ⟨c, parsed, header, decoded, parses, written, -⟩ :=
        (toSignedMessageUnchecked_ok X _ _).mp converted
      obtain ⟨pubkey, verifies⟩ := (second_accepts X reads bytes key c parsed header decoded parses
        written).mp ⟨message, converted, accepted⟩
      rw [first_accepts X reads bytes key c parsed decoded parses]
      exact ⟨pubkey, (same c parsed header decoded parses written pubkey).mpr verifies⟩
    · intro parsed message verified converted
      obtain ⟨c, decoded, parses, -⟩ := (verifyAndParseCoseSign1_ok X _ _ _).mp verified
      obtain ⟨d, again, header, redecoded, reparses, -, rfl⟩ :=
        (toSignedMessageUnchecked_ok X _ _).mp converted
      obtain rfl : c = d := Except.ok.inj (decoded.symm.trans redecoded)
      obtain rfl := parses_unique c parsed again parses reparses
      exact ⟨rfl, rfl, rfl, rfl⟩

theorem labelledEntries_asItem (h : Header) :
    labelledEntries (h.entries.map fun entry => (entry.1.asValue, entry.2)) = h.labelled := by
  have label (l : Label) : l.asValue.asInt = l.asInt := by
    cases l with
    | int l => rfl
    | text s => rfl
  rw [labelledEntries, Header.entries, Header.labelled, Header.known, List.map_append,
    List.filterMap_append, List.map_append, List.filterMap_append]
  simp only [List.filterMap_map, List.map_map, Function.comp_def, label]
  congr 1
  congr 1
  · rw [← List.filterMap_eq_map]
    rfl
  · rw [← List.filterMap_eq_map]
    rfl

/-- The headers in a record have distinct labels and distinct encodings. -/
structure Recorded.WellFormed (r : Recorded) : Prop where
  distinct : ∀ c ∈ r.messages, (c.protectedHeader.header.rest.map Prod.fst).Nodup
  headers : ∀ c ∈ r.messages, ∀ d ∈ r.messages,
    c.protectedHeader.header.encode = d.protectedHeader.header.encode →
    c.protectedHeader.header = d.protectedHeader.header

theorem Recorded.readsMessages (r : Recorded) (h : r.WellFormed) : r.externals.ReadsMessages := by
  have recorded (bytes : Bytes) (c : CoseSign1) (read : r.externals.fromSlice bytes = .ok c) :
      ∃ d ∈ r.messages, c.protectedHeader.header = d.protectedHeader.header := by
    simp only [Recorded.externals] at read
    split at read
    · rename_i d found
      cases read
      exact ⟨d, List.mem_of_find?_eq_some found, rfl⟩
    · cases read
  constructor
  · intro bytes c read
    obtain ⟨d, member, same⟩ := recorded bytes c read
    rw [same]
    exact h.distinct d member
  · intro bytes c read
    obtain ⟨d, member, same⟩ := recorded bytes c read
    obtain ⟨e, found⟩ : ∃ e, r.messages.find? (fun e =>
        e.protectedHeader.header.encode = c.protectedHeader.header.encode) = some e := by
      rw [← Option.isSome_iff_exists, List.find?_isSome]
      exact ⟨d, member, by simp [same]⟩
    have header : e.protectedHeader.header = c.protectedHeader.header := by
      rw [same]
      apply h.headers e (List.mem_of_find?_eq_some found) d member
      rw [← same]
      simpa using List.find?_some found
    refine ⟨c.protectedHeader.header.encode, _, rfl, ?_,
      labelledEntries_asItem c.protectedHeader.header⟩
    simp only [Recorded.externals, found, Option.map_some, header]
    rfl
  · intro c
    simp only [Recorded.externals, Externals.protectedBytes, ProtectedHeader.encode]
    cases c.protectedHeader.originalData with
    | none => rfl
    | some original => rfl

theorem sameUnderBothHeaders_of_canonical (bytes key : Bytes)
    (canonical : ∀ c, X.fromSlice bytes = .ok c →
      X.headerToVec c.protectedHeader.header = .ok (X.protectedBytes c.protectedHeader)) :
    X.SameUnderBothHeaders bytes key := by
  intro c parsed header decoded _ written _
  have same := Except.ok.inj ((canonical c decoded).symm.trans written)
  rw [same]

namespace Sample

theorem wellFormed : record.WellFormed := by
  constructor
  · decide
  · decide

theorem verifiers_agree_iff_plain :
    record.externals.ReadsMessages ∧ record.externals.Agree cose0.encode pubkey := by
  have reads := record.readsMessages wellFormed
  refine ⟨reads, (verifiers_agree_iff record.externals reads cose0.encode pubkey).mpr ?_⟩
  apply sameUnderBothHeaders_of_canonical
  intro c decoded
  have found : record.externals.fromSlice cose0.encode = .ok { cose0 with
      protectedHeader := ⟨some cose0.protectedHeader.encode, cose0.protectedHeader.header⟩ } := by
    decide +kernel
  rw [found] at decoded
  cases decoded
  rfl

/-- The header of the first message, with its sequence number in two bytes instead of one. -/
def stretchedHeader : Bytes :=
  bigEndian 27 0xa401382e3a0001000018003a000100011a6553f1003a0001000200

def stretched : CoseSign1 :=
  { cose0 with
    protectedHeader := ⟨some stretchedHeader, cose0.protectedHeader.header⟩
    signature := bigEndian 64
      0xca8b7493596f5c3d359b4c42deb2527460f2dd8514d149fbb103ceb9fb847ae55378cfcff79db7aeaafd5df5b4023f5726b3eb39562c2675ce168bda46b7d436 }

def stretchedDigest : Bytes :=
  bigEndian 32 0x6e2b4ac1ee477d70c78f930dc0ed35e8f036cce9713afaaee17c785109f4f1f2

def stretchedRecord : Recorded where
  messages := [stretched]
  keccak256 := [(tbs stretched, stretchedDigest), (tbs cose0, digest0)]
  sha256 := []
  signatures := [(pubkey, stretchedDigest, stretched.signature)]

/-- The signature is over the header as it was sent, and the converted message has it in
another encoding. -/
theorem stretched_header_splits_verifiers :
    stretchedRecord.externals.ReadsMessages ∧
      ¬ stretchedRecord.externals.Agree stretched.encode pubkey := by
  refine ⟨stretchedRecord.readsMessages ⟨by decide, by decide⟩, ?_⟩
  intro h
  obtain ⟨agree, -⟩ := h
  have first : (verifyAndParseCoseSign1 stretchedRecord.externals stretched.encode pubkey).isOk =
      true := by
    decide +kernel
  have second : ((CborSignedMessage.mk stretched.encode).toSignedMessageUnchecked
      stretchedRecord.externals).toOption.map
        (fun message => (message.verifySignature stretchedRecord.externals).isOk) = some false := by
    decide +kernel
  obtain ⟨parsed, verified⟩ : ∃ parsed,
      verifyAndParseCoseSign1 stretchedRecord.externals stretched.encode pubkey = .ok parsed := by
    cases result : verifyAndParseCoseSign1 stretchedRecord.externals stretched.encode pubkey with
    | ok parsed => exact ⟨parsed, rfl⟩
    | error e =>
      rw [result] at first
      cases first
  obtain ⟨message, converted, -, accepted⟩ := agree.mp ⟨parsed, verified⟩
  rw [converted] at second
  simp only [Except.toOption, Option.map_some, accepted] at second
  cases second

end Sample

end SyndDB.Shared
