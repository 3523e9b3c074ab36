import SyndDB.Shared.Verification

namespace SyndDB.Shared

open Octets Outcome

variable (X : Externals)

/-- All values under a label. -/
def valuesUnder (label : Int) (entries : List (Int × Value)) : List Value :=
  entries.filterMap fun entry => if entry.1 = label then some entry.2 else none

def Value.cut : Value → Option UInt64
  | .integer n => some (UInt64.ofNat (n % 2 ^ 64).toNat)
  | .bytes _ | .other _ => none

theorem findSome_underLabel (label : Int) (entries : List (Int × Value)) :
    entries.findSome? (underLabel label) = (valuesUnder label entries).findSome? Value.cut := by
  induction entries with
  | nil => rfl
  | cons entry rest ih =>
    rw [List.findSome?_cons, ih]
    simp only [valuesUnder, List.filterMap_cons]
    by_cases here : entry.1 = label
    · rw [if_pos here]
      obtain ⟨l, v⟩ := entry
      cases v with
      | integer n =>
        rw [underLabel, if_pos (show l = label from here)]
        rfl
      | bytes b => rfl
      | other e => rfl
    · rw [if_neg here, underLabel_ne label entry here]

/-- A single value under a label is what the scan finds. -/
theorem lastU64_single (label : Int) (entries : List (Value × Value)) (n : Int)
    (single : valuesUnder label (labelledEntries entries) = [.integer n]) :
    lastU64 label entries = some (UInt64.ofNat (n % 2 ^ 64).toNat) := by
  have reversed : valuesUnder label (labelledEntries entries).reverse = [.integer n] := by
    rw [valuesUnder, List.filterMap_reverse]
    exact congrArg List.reverse single
  rw [lastU64_eq, findSome_underLabel, reversed]
  rfl

namespace SignedMessage

/-- The protected header has the message type of the message, and no other. -/
def TypeFits (m : SignedMessage) (entries : List (Value × Value)) : Prop :=
  ∃ t : CborMessageType, t.toMessageType = m.messageType ∧
    valuesUnder HEADER_MSG_TYPE (labelledEntries entries) = [.integer t.asU8.toNat]

/-- Sequence and timestamp of the message are the ones in the entries of its protected header. -/
def NumbersFit (m : SignedMessage) (entries : List (Value × Value)) : Prop :=
  valuesUnder HEADER_SEQUENCE (labelledEntries entries) = [.integer m.sequence.toNat] ∧
    valuesUnder HEADER_TIMESTAMP (labelledEntries entries) = [.integer m.timestamp.toNat]

/-- The fields of the message are the ones in its protected header. -/
def Bound (m : SignedMessage) : Prop :=
  ∃ entries, X.fromReader m.coseProtectedHeader = some (.map entries) ∧
    m.NumbersFit entries ∧ m.TypeFits entries

/-- Two messages with the same signed parts. -/
structure Twins (m m' : SignedMessage) : Prop where
  coseProtectedHeader : m'.coseProtectedHeader = m.coseProtectedHeader
  payload : m'.payload = m.payload
  signature : m'.signature = m.signature

/-- The fields of the message are the signed ones, so that no accepted twin of it has other ones. -/
def FieldsBound (m : SignedMessage) : Prop :=
  m.Bound X ∧ ∀ m', m'.verifySignature X = .ok () → m.Twins m' →
    m'.sequence = m.sequence ∧ m'.timestamp = m.timestamp ∧ m'.messageType = m.messageType

theorem fields_ok (protectedHeader : Bytes) (sequence timestamp : UInt64) :
    parseCoseProtectedHeaderFields X protectedHeader = .ok (sequence, timestamp) ↔
      ∃ entries, X.fromReader protectedHeader = some (.map entries) ∧
        lastU64 HEADER_SEQUENCE entries = some sequence ∧
        lastU64 HEADER_TIMESTAMP entries = some timestamp := by
  rw [parseCoseProtectedHeaderFields]
  cases X.fromReader protectedHeader with
  | none => simp
  | some item =>
    cases item with
    | other => simp
    | map entries =>
      cases hs : lastU64 HEADER_SEQUENCE entries with
      | none => simp [hs]
      | some s =>
        cases ht : lastU64 HEADER_TIMESTAMP entries with
        | none => simp [hs, ht]
        | some t => simp [hs, ht]

theorem cut_toNat (n : Nat) (u : UInt64) (small : n < 2 ^ 64)
    (h : UInt64.ofNat ((n : Int) % 2 ^ 64).toNat = u) : u.toNat = n := by
  have same : ((n : Int) % 2 ^ 64).toNat = n := by omega
  rw [← h, same]
  exact UInt64.toNat_ofNat_of_lt' small

theorem typeFits_unique (m m' : SignedMessage) (entries : List (Value × Value))
    (h : m.TypeFits entries) (h' : m'.TypeFits entries) : m'.messageType = m.messageType := by
  obtain ⟨t, same, under⟩ := h
  obtain ⟨t', same', under'⟩ := h'
  have code : t.asU8.toNat = t'.asU8.toNat := by
    have := under.symm.trans under'
    simpa using this
  have types : t = t' := by
    cases t <;> cases t' <;> simp_all [CborMessageType.asU8]
  rw [← same, ← same', types]

/-- Nothing that is verified depends on the message type. -/
theorem verifySignature_retyped (m : SignedMessage) (t : MessageType) :
    { m with messageType := t }.verifySignature X = m.verifySignature X := rfl

theorem exists_other_type (t : MessageType) : ∃ t', t' ≠ t := by
  cases t with
  | Changeset => exact ⟨.Withdrawal, by decide⟩
  | Withdrawal => exact ⟨.Changeset, by decide⟩
  | Snapshot => exact ⟨.Changeset, by decide⟩

/-- The numbers of an accepted message are the ones in its protected header exactly if they stand
there once each and have 64 bits. -/
theorem numbersFit_iff (m : SignedMessage) (entries : List (Value × Value))
    (accepted : m.verifySignature X = .ok ())
    (item : X.fromReader m.coseProtectedHeader = some (.map entries)) :
    m.NumbersFit entries ↔
      (∃ n < 2 ^ 64, valuesUnder HEADER_SEQUENCE (labelledEntries entries) = [.integer (n : Nat)]) ∧
        ∃ n < 2 ^ 64,
          valuesUnder HEADER_TIMESTAMP (labelledEntries entries) = [.integer (n : Nat)] := by
  constructor
  · intro h
    obtain ⟨sequence, timestamp⟩ := h
    exact ⟨⟨_, m.sequence.toNat_lt, sequence⟩, ⟨_, m.timestamp.toNat_lt, timestamp⟩⟩
  · intro h
    obtain ⟨⟨n, small, sequence⟩, ⟨k, small', timestamp⟩⟩ := h
    obtain ⟨fields, -⟩ := (verifySignature_ok X m).mp accepted
    obtain ⟨again, item', hs, ht⟩ := (fields_ok X _ _ _).mp fields
    rw [item] at item'
    cases item'
    rw [lastU64_single _ _ _ sequence, Option.some.injEq] at hs
    rw [lastU64_single _ _ _ timestamp, Option.some.injEq] at ht
    constructor
    · rw [cut_toNat n _ small hs, sequence]
    · rw [cut_toNat k _ small' ht, timestamp]

/-- Accepted twins have the same numbers, and of two twins with different types at most one has the
fields of the header. -/
theorem twins_agree (m m' : SignedMessage) (accepted : m.verifySignature X = .ok ())
    (accepted' : m'.verifySignature X = .ok ()) (twins : m.Twins m') :
    m'.sequence = m.sequence ∧ m'.timestamp = m.timestamp ∧
      (m.Bound X → m'.Bound X → m'.messageType = m.messageType) := by
  obtain ⟨fields, -⟩ := (verifySignature_ok X m).mp accepted
  obtain ⟨fields', -⟩ := (verifySignature_ok X m').mp accepted'
  rw [twins.coseProtectedHeader, fields] at fields'
  have same := Except.ok.inj fields'
  refine ⟨(congrArg Prod.fst same).symm, (congrArg Prod.snd same).symm, ?_⟩
  intro bound bound'
  obtain ⟨entries, item, -, fits⟩ := bound
  obtain ⟨entries', item', -, fits'⟩ := bound'
  rw [twins.coseProtectedHeader, item] at item'
  cases item'
  exact typeFits_unique m m' entries fits fits'

/-- The fields of no accepted message are bound: changing nothing but the type gives an
accepted twin, and one of the two does not have the fields of the header. Sequence and
timestamp are the same in all accepted twins, and the ones of the header exactly if they stand
there once each and have 64 bits. -/
theorem fields_never_bound (m : SignedMessage) (accepted : m.verifySignature X = .ok ()) :
    ¬ m.FieldsBound X ∧
      (∃ t ≠ m.messageType, { m with messageType := t }.verifySignature X = .ok () ∧
        (m.Bound X → ¬ { m with messageType := t }.Bound X)) ∧
      (∀ m', m'.verifySignature X = .ok () → m.Twins m' →
        m'.sequence = m.sequence ∧ m'.timestamp = m.timestamp) ∧
      ∀ entries, X.fromReader m.coseProtectedHeader = some (.map entries) →
        (m.NumbersFit entries ↔
          (∃ n < 2 ^ 64,
            valuesUnder HEADER_SEQUENCE (labelledEntries entries) = [.integer (n : Nat)]) ∧
          ∃ n < 2 ^ 64,
            valuesUnder HEADER_TIMESTAMP (labelledEntries entries) = [.integer (n : Nat)]) := by
  obtain ⟨t, other⟩ := exists_other_type m.messageType
  have retyped : { m with messageType := t }.verifySignature X = .ok () :=
    (verifySignature_retyped X m t).trans accepted
  have twins : m.Twins { m with messageType := t } := ⟨rfl, rfl, rfl⟩
  refine ⟨?_, ⟨t, other, retyped, ?_⟩, ?_, fun entries => numbersFit_iff X m entries accepted⟩
  · intro bound
    exact other (bound.2 _ retyped twins).2.2
  · intro bound bound'
    exact other ((twins_agree X m _ accepted retyped twins).2.2 bound bound')
  · intro m' accepted' twins'
    obtain ⟨sequence, timestamp, -⟩ := twins_agree X m m' accepted accepted' twins'
    exact ⟨sequence, timestamp⟩

end SignedMessage

namespace Sample

/-- The first recorded message as a validator gets it, under a message type of its own. -/
def claimed (messageType : MessageType) : SignedMessage where
  sequence := 0
  timestamp := timestamp
  messageType := messageType
  payload := payload
  messageHash := hex0x (record.externals.keccak256 payload)
  signature := hex0x cose0.signature
  signer := hex0x pubkey
  coseProtectedHeader := cose0.protectedHeader.encode

def headerEntries : List (Value × Value) :=
  cose0.protectedHeader.header.entries.map fun entry => (entry.1.asValue, entry.2)

theorem header_read :
    record.externals.fromReader cose0.protectedHeader.encode = some (.map headerEntries) := by
  have found : (record.messages.find? fun c =>
      c.protectedHeader.header.encode = cose0.protectedHeader.encode) = some cose0 := by
    decide +kernel
  simp only [Recorded.externals, found]
  rfl

theorem claimed_accepted (t : MessageType) :
    (claimed t).verifySignature record.externals = .ok () := by
  have accepted : (claimed .Changeset).verifySignature record.externals = .ok () := by
    decide +kernel
  exact (SignedMessage.verifySignature_retyped record.externals (claimed .Changeset) t).trans
    accepted

theorem fields_never_bound_changeset :
    ¬ (claimed .Changeset).FieldsBound record.externals :=
  (SignedMessage.fields_never_bound record.externals (claimed .Changeset)
    (claimed_accepted .Changeset)).1

/-- A signed changeset is accepted as a withdrawal. -/
theorem changeset_accepted_as_withdrawal :
    (claimed .Changeset).verifySignature record.externals = .ok () ∧
      (claimed .Withdrawal).verifySignature record.externals = .ok () ∧
      ¬ (claimed .Withdrawal).Bound record.externals := by
  refine ⟨claimed_accepted _, claimed_accepted _, ?_⟩
  intro h
  obtain ⟨entries, read, -, t, type, under⟩ := h
  have same : headerEntries = entries := by
    have item := header_read.symm.trans read
    cases item
    rfl
  rw [← same] at under
  cases t with
  | Changeset => cases type
  | Withdrawal => exact absurd under (by decide +kernel)
  | Snapshot => cases type

end Sample

end SyndDB.Shared
