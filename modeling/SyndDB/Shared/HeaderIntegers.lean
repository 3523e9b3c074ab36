import SyndDB.Shared.FieldBinding

namespace SyndDB.Shared

open Octets Outcome

variable (X : Externals)

def integersUnder (label : Int) (entries : List (Int × Value)) : List Int :=
  (valuesUnder label entries).filterMap Value.asInt

/-- The integers under the label are the number. -/
def Exact (label : Int) (entries : List (Int × Value)) (n : Nat) : Prop :=
  ∀ i ∈ integersUnder label entries, i = n

/-- The integers under the label are one number of the range. -/
def InRange (label : Int) (entries : List (Int × Value)) (bound : Int) : Prop :=
  ∀ i ∈ integersUnder label entries, (0 ≤ i ∧ i < bound) ∧ ∀ j ∈ integersUnder label entries, j = i

instance (label : Int) (entries : List (Int × Value)) (bound : Int) :
    Decidable (InRange label entries bound) :=
  inferInstanceAs (Decidable (∀ i ∈ _, _))

theorem underLabel_some (label : Int) (entry : Int × Value) (u : UInt64)
    (h : underLabel label entry = some u) :
    ∃ i, entry = (label, .integer i) ∧ u = UInt64.ofNat (i % 2 ^ 64).toNat := by
  obtain ⟨l, v⟩ := entry
  cases v with
  | integer i =>
    rw [underLabel] at h
    obtain ⟨rfl, same⟩ := Option.ite_none_right_eq_some.mp h
    exact ⟨i, rfl, (Option.some.inj same).symm⟩
  | bytes b => cases h
  | other e => cases h

theorem mem_integersUnder (label : Int) (entries : List (Int × Value)) (i : Int) :
    i ∈ integersUnder label entries ↔ (label, .integer i) ∈ entries := by
  simp only [integersUnder, valuesUnder, List.mem_filterMap]
  constructor
  · rintro ⟨v, ⟨⟨l, w⟩, member, found⟩, integer⟩
    obtain ⟨rfl, same⟩ := Option.ite_none_right_eq_some.mp found
    cases same
    cases w with
    | integer j =>
      cases integer
      exact member
    | bytes b => cases integer
    | other e => cases integer
  · intro member
    exact ⟨.integer i, ⟨_, member, if_pos rfl⟩, rfl⟩

/-- What is found is one of the integers, cut down. -/
theorem scan_some (label : Int) (entries : List (Int × Value)) (u : UInt64)
    (h : entries.findSome? (underLabel label) = some u) :
    ∃ i ∈ integersUnder label entries, u = UInt64.ofNat (i % 2 ^ 64).toNat := by
  obtain ⟨entry, member, found⟩ := List.exists_of_findSome?_eq_some h
  obtain ⟨i, rfl, cut⟩ := underLabel_some label entry u found
  exact ⟨i, (mem_integersUnder label entries i).mpr member, cut⟩

theorem extracted_integer (header : Header) (label : Int) (u : UInt64)
    (h : extractU64FromHeader header label = some u) :
    ∃ i ∈ integersUnder label header.labelled, u = UInt64.ofNat (i % 2 ^ 64).toNat := by
  rw [extractU64FromHeader_eq] at h
  obtain ⟨i, member, cut⟩ := scan_some label _ u h
  refine ⟨i, ?_, cut⟩
  rw [mem_integersUnder] at member ⊢
  exact List.mem_append_right _ member

theorem last_integer (entries : List (Value × Value)) (label : Int) (u : UInt64)
    (h : lastU64 label entries = some u) :
    ∃ i ∈ integersUnder label (labelledEntries entries), u = UInt64.ofNat (i % 2 ^ 64).toNat := by
  rw [lastU64_eq] at h
  obtain ⟨i, member, cut⟩ := scan_some label _ u h
  refine ⟨i, ?_, cut⟩
  rw [mem_integersUnder] at member ⊢
  exact List.mem_reverse.mp member

/-- The cast to 64 bits is exact in range, and only there. -/
theorem exact_iff (label : Int) (entries : List (Int × Value)) (u : UInt64)
    (h : ∃ i ∈ integersUnder label entries, u = UInt64.ofNat (i % 2 ^ 64).toNat) :
    Exact label entries u.toNat ↔ InRange label entries (2 ^ 64) := by
  obtain ⟨i, member, cut⟩ := h
  constructor
  · intro exact j hj
    have bound := u.toNat_lt
    have value := exact j hj
    refine ⟨⟨by omega, by omega⟩, fun k hk => ?_⟩
    rw [exact k hk, value]
  · intro range j hj
    obtain ⟨⟨nonneg, small⟩, single⟩ := range i member
    obtain ⟨n, rfl⟩ := Int.eq_ofNat_of_zero_le nonneg
    rw [single j hj, SignedMessage.cut_toNat n u (by omega) cut.symm]

theorem fromU8_ok (value : UInt8) (t : CborMessageType) :
    CborMessageType.fromU8 value = .ok t ↔ value = t.asU8 := by
  rw [CborMessageType.fromU8]
  split_ifs with first second third
  · subst first
    cases t <;> simp [CborMessageType.asU8]
  · subst second
    cases t <;> simp [CborMessageType.asU8]
  · subst third
    cases t <;> simp [CborMessageType.asU8]
  · cases t <;> simp_all [CborMessageType.asU8]

/-- The second cast, to 8 bits, comes before the check of the message type. -/
theorem exact_type_iff (label : Int) (entries : List (Int × Value)) (value : UInt64)
    (t : CborMessageType)
    (h : ∃ i ∈ integersUnder label entries, value = UInt64.ofNat (i % 2 ^ 64).toNat)
    (code : CborMessageType.fromU8 value.toUInt8 = .ok t) :
    Exact label entries t.asU8.toNat ↔ InRange label entries 256 := by
  obtain ⟨i, member, cut⟩ := h
  rw [fromU8_ok] at code
  constructor
  · intro exact j hj
    have bound := t.asU8.toNat_lt
    have same := exact j hj
    refine ⟨⟨by omega, by omega⟩, fun k hk => ?_⟩
    rw [exact k hk, same]
  · intro range j hj
    obtain ⟨⟨nonneg, small⟩, single⟩ := range i member
    obtain ⟨n, rfl⟩ := Int.eq_ofNat_of_zero_le nonneg
    have whole := SignedMessage.cut_toNat n value (by omega) cut.symm
    rw [single j hj, ← code, UInt64.toNat_toUInt8, whole]
    omega

/-- What either parser returns is exact exactly if the integers it reads are in range: 64 bits for
sequence and timestamp, 8 bits for the message type. -/
theorem header_integers_exact_iff :
    (∀ (bytes : Bytes) (parsed : ParsedCoseMessage), parseCoseSign1 X bytes = .ok parsed →
      ∃ cose, X.fromSlice bytes = .ok cose ∧
        (Exact HEADER_SEQUENCE cose.protectedHeader.header.labelled parsed.sequence.toNat ∧
          Exact HEADER_TIMESTAMP cose.protectedHeader.header.labelled parsed.timestamp.toNat ∧
          Exact HEADER_MSG_TYPE cose.protectedHeader.header.labelled parsed.messageType.asU8.toNat ↔
        InRange HEADER_SEQUENCE cose.protectedHeader.header.labelled (2 ^ 64) ∧
          InRange HEADER_TIMESTAMP cose.protectedHeader.header.labelled (2 ^ 64) ∧
          InRange HEADER_MSG_TYPE cose.protectedHeader.header.labelled 256)) ∧
    ∀ (protectedHeader : Bytes) (sequence timestamp : UInt64),
      parseCoseProtectedHeaderFields X protectedHeader = .ok (sequence, timestamp) →
      ∃ entries, X.fromReader protectedHeader = some (.map entries) ∧
        (Exact HEADER_SEQUENCE (labelledEntries entries) sequence.toNat ∧
          Exact HEADER_TIMESTAMP (labelledEntries entries) timestamp.toNat ↔
        InRange HEADER_SEQUENCE (labelledEntries entries) (2 ^ 64) ∧
          InRange HEADER_TIMESTAMP (labelledEntries entries) (2 ^ 64)) := by
  constructor
  · intro bytes parsed h
    obtain ⟨cose, decoded, parses⟩ := (parseCoseSign1_ok X bytes parsed).mp h
    obtain ⟨value, found, code⟩ := parses.messageType
    refine ⟨cose, decoded, ?_⟩
    rw [exact_iff _ _ _ (extracted_integer _ _ _ parses.sequence),
      exact_iff _ _ _ (extracted_integer _ _ _ parses.timestamp),
      exact_type_iff _ _ value _ (extracted_integer _ _ _ found) code]
  · intro protectedHeader sequence timestamp h
    obtain ⟨entries, read, hs, ht⟩ :=
      (SignedMessage.fields_ok X protectedHeader sequence timestamp).mp h
    refine ⟨entries, read, ?_⟩
    rw [exact_iff _ _ _ (last_integer _ _ _ hs), exact_iff _ _ _ (last_integer _ _ _ ht)]

namespace Sample

theorem header_integers_exact :
    (∃ cose, record.externals.fromSlice cose0.encode = .ok cose ∧
      Exact HEADER_SEQUENCE cose.protectedHeader.header.labelled 0 ∧
      Exact HEADER_TIMESTAMP cose.protectedHeader.header.labelled timestamp.toNat ∧
      Exact HEADER_MSG_TYPE cose.protectedHeader.header.labelled 0) ∧
    ∃ entries, record.externals.fromReader cose0.protectedHeader.encode = some (.map entries) ∧
      Exact HEADER_SEQUENCE (labelledEntries entries) 0 ∧
      Exact HEADER_TIMESTAMP (labelledEntries entries) timestamp.toNat := by
  obtain ⟨first, second⟩ := header_integers_exact_iff record.externals
  constructor
  · obtain ⟨cose, decoded, exact⟩ := first cose0.encode
      ⟨0, timestamp, .Changeset, payload, cose0.signature, pubkey⟩ (by decide +kernel)
    have found : record.externals.fromSlice cose0.encode = .ok { cose0 with
        protectedHeader := ⟨some cose0.protectedHeader.encode, cose0.protectedHeader.header⟩ } := by
      decide +kernel
    refine ⟨cose, decoded, exact.mpr ?_⟩
    obtain rfl := Except.ok.inj (found.symm.trans decoded)
    decide
  · obtain ⟨entries, read, exact⟩ := second cose0.protectedHeader.encode 0 timestamp (by
      rw [SignedMessage.fields_ok]
      exact ⟨headerEntries, header_read, by decide, by decide⟩)
    refine ⟨entries, read, exact.mpr ?_⟩
    have item := header_read.symm.trans read
    cases item
    decide

/-- A message with the sequence number -1 and the type 257. -/
def wrapped : CoseSign1 :=
  { cose0 with
    protectedHeader := ⟨none, ⟨some (.int ES256K), [],
      [(.int HEADER_SEQUENCE, .integer (-1)), (.int HEADER_TIMESTAMP, .integer timestamp.toNat),
       (.int HEADER_MSG_TYPE, .integer 257)]⟩⟩ }

def wrappedRecord : Recorded where
  messages := [wrapped]
  keccak256 := []
  sha256 := []
  signatures := []

def wrappedEntries : List (Value × Value) :=
  wrapped.protectedHeader.header.entries.map fun entry => (entry.1.asValue, entry.2)

/-- It is read as a withdrawal with the largest sequence number, by both parsers. -/
theorem header_integers_cut :
    (∃ cose parsed, wrappedRecord.externals.fromSlice wrapped.encode = .ok cose ∧
      parseCoseSign1 wrappedRecord.externals wrapped.encode = .ok parsed ∧
      ¬Exact HEADER_SEQUENCE cose.protectedHeader.header.labelled parsed.sequence.toNat ∧
      ¬Exact HEADER_MSG_TYPE cose.protectedHeader.header.labelled parsed.messageType.asU8.toNat) ∧
    ∃ entries sequence,
      wrappedRecord.externals.fromReader wrapped.protectedHeader.encode = some (.map entries) ∧
      parseCoseProtectedHeaderFields wrappedRecord.externals wrapped.protectedHeader.encode =
        .ok (sequence, timestamp) ∧
      ¬Exact HEADER_SEQUENCE (labelledEntries entries) sequence.toNat := by
  have stored : (-1 : Int) ∈ integersUnder HEADER_SEQUENCE wrapped.protectedHeader.header.labelled ∧
      (257 : Int) ∈ integersUnder HEADER_MSG_TYPE wrapped.protectedHeader.header.labelled := by
    decide
  constructor
  · refine ⟨{ wrapped with protectedHeader := ⟨some wrapped.protectedHeader.encode,
      wrapped.protectedHeader.header⟩ },
        ⟨UInt64.ofNat (2 ^ 64 - 1), timestamp, .Withdrawal, payload,
      cose0.signature, pubkey⟩, by decide +kernel, by decide +kernel, ?_, ?_⟩
    · intro exact
      exact absurd (exact (-1) stored.1) (by decide)
    · intro exact
      exact absurd (exact 257 stored.2) (by decide)
  · have read : wrappedRecord.externals.fromReader wrapped.protectedHeader.encode =
        some (.map wrappedEntries) := by
      have found : (wrappedRecord.messages.find? fun c =>
          c.protectedHeader.header.encode = wrapped.protectedHeader.encode) = some wrapped := by
        decide
      simp only [Recorded.externals, found]
      rfl
    refine ⟨wrappedEntries, UInt64.ofNat (2 ^ 64 - 1), read, ?_, ?_⟩
    · rw [SignedMessage.fields_ok]
      exact ⟨wrappedEntries, read, by decide, by decide⟩
    · intro exact
      have first : (-1 : Int) ∈ integersUnder HEADER_SEQUENCE (labelledEntries wrappedEntries) := by
        decide
      exact absurd (exact (-1) first) (by decide)

end Sample

end SyndDB.Shared
