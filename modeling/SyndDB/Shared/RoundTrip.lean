import SyndDB.Shared.Verification

namespace SyndDB.Shared

open Octets Outcome

variable (X : Externals)

/-- What `coset` promises about a message that was built and written: it is read back, with the
protected bytes that were written. -/
def Externals.ReadsBack : Prop :=
  ∀ c bytes, c.protectedHeader.originalData = none → X.toVec c = .ok bytes →
    X.fromSlice bytes = .ok { c with
      protectedHeader := ⟨some (X.protectedBytes c.protectedHeader), c.protectedHeader.header⟩ }

/-- The message that is built, with a signature or before it. -/
def builtCose (sequence timestamp : UInt64) (messageType : CborMessageType)
    (payload signerPubkey signature : Bytes) : CoseSign1 :=
  ⟨⟨none, ⟨some (.int ES256K), [],
      [(.int HEADER_SEQUENCE, .integer sequence.toNat),
       (.int HEADER_TIMESTAMP, .integer timestamp.toNat),
       (.int HEADER_MSG_TYPE, .integer messageType.asU8.toNat)]⟩⟩,
    ⟨none, [], [(.text "pubkey", .bytes signerPubkey)]⟩, some payload, signature⟩

theorem buildCoseSign1_ok (sequence timestamp : UInt64) (messageType : CborMessageType)
    (payload signerPubkey : Bytes) (sign : Bytes → Except CborError Bytes) (bytes : Bytes) :
    buildCoseSign1 X sequence timestamp messageType payload signerPubkey sign = .ok bytes ↔
      ∃ signature,
        sign (X.tbsData (builtCose sequence timestamp messageType payload signerPubkey [])) =
          .ok signature ∧
        X.toVec (builtCose sequence timestamp messageType payload signerPubkey signature) =
          .ok bytes :=
  bind_ok _ _ _

theorem ofNat_toNat_mod (n : UInt64) : UInt64.ofNat ((n.toNat : Int) % 2 ^ 64).toNat = n := by
  have lt := n.toNat_lt
  have same : ((n.toNat : Int) % 2 ^ 64).toNat = n.toNat := by omega
  rw [same]
  exact UInt64.ofNat_toNat

theorem fromU8_asU8 (t : CborMessageType) :
    CborMessageType.fromU8
      (UInt64.ofNat ((t.asU8.toNat : Int) % 2 ^ 64).toNat).toUInt8 = .ok t := by
  cases t with
  | Changeset => rfl
  | Withdrawal => rfl
  | Snapshot => rfl

theorem parses_built (sequence timestamp : UInt64) (messageType : CborMessageType)
    (payload key signature : Bytes) (original : Option Bytes) (keyLength : key.length = 64)
    (length : signature.length = 64) :
    Parses { builtCose sequence timestamp messageType payload key signature with
      protectedHeader := ⟨original,
        (builtCose sequence timestamp messageType payload key signature).protectedHeader.header⟩ }
      ⟨sequence, timestamp, messageType, payload, signature, key⟩ := by
  have apart : HEADER_SEQUENCE ≠ HEADER_TIMESTAMP ∧ HEADER_SEQUENCE ≠ HEADER_MSG_TYPE ∧
      HEADER_TIMESTAMP ≠ HEADER_MSG_TYPE := by decide
  obtain ⟨st, sm, tm⟩ := apart
  constructor
  · simpa [extractU64FromHeader, builtCose] using ofNat_toNat_mod sequence
  · simpa [extractU64FromHeader, builtCose, st] using ofNat_toNat_mod timestamp
  · refine ⟨_, ?_, fromU8_asU8 messageType⟩
    simp [extractU64FromHeader, builtCose, sm, tm]
  · simp [extractPubkeyBytes, builtCose, exactly64, keyLength]
  · exact length
  · rfl
  · rfl

/-- A key and the function that signs with it: the signatures have 64 bytes and verify. -/
structure Externals.SigningKey (key : Bytes) (sign : Bytes → Except CborError Bytes) : Prop where
  length : key.length = 64
  correct : ∀ data signature, sign data = .ok signature →
    signature.length = 64 ∧ X.Verifies data signature key

/-- A message built with a signing key is accepted, converted and accepted again. -/
theorem built_accepted (reads : X.ReadsMessages) (back : X.ReadsBack) (sequence timestamp : UInt64)
    (messageType : CborMessageType) (payload key : Bytes) (sign : Bytes → Except CborError Bytes)
    (signer : X.SigningKey key sign) (bytes : Bytes)
    (built : buildCoseSign1 X sequence timestamp messageType payload key sign = .ok bytes) :
    ∃ signature header,
      verifyAndParseCoseSign1 X bytes key =
        .ok ⟨sequence, timestamp, messageType, payload, signature, key⟩ ∧
      (CborSignedMessage.mk bytes).protectedHeader X = .ok header ∧
      (SignedMessage.ofParsed X ⟨sequence, timestamp, messageType, payload, signature, key⟩
        header).verifySignature X = .ok () := by
  obtain ⟨signature, signed, written⟩ := (buildCoseSign1_ok X _ _ _ _ _ _ _).mp built
  obtain ⟨length, verifies⟩ := signer.correct _ _ signed
  have decoded := back _ bytes rfl written
  have parses := parses_built sequence timestamp messageType payload key signature
    (some (X.protectedBytes
      (builtCose sequence timestamp messageType payload key signature).protectedHeader))
    signer.length length
  obtain ⟨header, -, rewritten, -, -⟩ := reads.rewrites bytes _ decoded
  have same :
      X.protectedBytes (builtCose sequence timestamp messageType payload key
        signature).protectedHeader =
      header := congrArg (fun result => result.toOption.getD []) rewritten
  -- the signature was made over the header as it is written again
  rw [reads.signs] at verifies
  refine ⟨signature, header, (verifyAndParseCoseSign1_ok X _ _ _).mpr ⟨_, decoded, parses, rfl, ?_⟩,
    ?_, (verifySignature_ofParsed X reads bytes _ _ header decoded parses rewritten).mpr ?_⟩
  · rw [reads.signs]
    exact verifies
  · simp only [CborSignedMessage.protectedHeader, extractProtectedHeader, decoded, ok_bind,
      rewritten]
  · rw [← same]
    exact verifies

/-- What was built is parsed, verified and converted back to what went in, and the converted message
passes the second verifier. -/
theorem cose_round_trip (reads : X.ReadsMessages) (back : X.ReadsBack)
    (sequence timestamp : UInt64) (messageType : CborMessageType) (payload key signature : Bytes)
    (sign : Bytes → Except CborError Bytes) (signer : X.SigningKey key sign)
    (signed : sign (X.tbsData (builtCose sequence timestamp messageType payload key [])) =
      .ok signature)
    (written : (X.toVec (builtCose sequence timestamp messageType payload key signature)).isOk) :
    ∃ bytes message,
      buildCoseSign1 X sequence timestamp messageType payload key sign = .ok bytes ∧
      parseCoseSign1 X bytes = .ok ⟨sequence, timestamp, messageType, payload, signature, key⟩ ∧
      verifyAndParseCoseSign1 X bytes key =
        .ok ⟨sequence, timestamp, messageType, payload, signature, key⟩ ∧
      (CborSignedMessage.mk bytes).toSignedMessage X key = .ok message ∧
      message.verifySignature X = .ok () ∧ message.sequence = sequence ∧
      message.timestamp = timestamp ∧ message.messageType = messageType.toMessageType ∧
      message.payload = payload ∧ message.signature = hex0x signature ∧
      message.signer = hex0x key := by
  let parsed : ParsedCoseMessage := ⟨sequence, timestamp, messageType, payload, signature, key⟩
  let built := builtCose sequence timestamp messageType payload key signature
  let read : CoseSign1 := { built with protectedHeader :=
    ⟨some (X.protectedBytes built.protectedHeader), built.protectedHeader.header⟩ }
  obtain ⟨length, verifies⟩ := signer.correct _ _ signed
  obtain ⟨bytes, coded⟩ : ∃ bytes, X.toVec built = .ok bytes := by
    cases result : X.toVec built with
    | ok bytes => exact ⟨bytes, rfl⟩
    | error e =>
      simp only [built] at result
      rw [result] at written
      cases written
  have decoded : X.fromSlice bytes = .ok read := back built bytes rfl coded
  have parses : Parses read parsed :=
    parses_built sequence timestamp messageType payload key signature _ signer.length length
  obtain ⟨header, -, rewritten, -, -⟩ := reads.rewrites bytes read decoded
  have unsigned : X.tbsData (builtCose sequence timestamp messageType payload key []) =
      buildCoseSigStructure header payload := by
    rw [reads.signs]
    have header_bytes : X.protectedBytes built.protectedHeader = header := by
      show (X.headerToVec built.protectedHeader.header).toOption.getD [] = header
      rw [show X.headerToVec built.protectedHeader.header = .ok header from rewritten]
      rfl
    exact congrArg (fun h => buildCoseSigStructure h payload) header_bytes
  have verified : verifyAndParseCoseSign1 X bytes key = .ok parsed := by
    rw [verifyAndParseCoseSign1_ok]
    refine ⟨read, decoded, parses, rfl, ?_⟩
    have same : X.tbsData read =
        X.tbsData (builtCose sequence timestamp messageType payload key []) := by
      rw [reads.signs, reads.signs]
      rfl
    rw [same]
    exact verifies
  have converted : (CborSignedMessage.mk bytes).toSignedMessage X key =
      .ok (.ofParsed X parsed header) := by
    rw [toSignedMessage_unchecked]
    refine ⟨parsed, header, verified, ?_, rfl⟩
    simp only [CborSignedMessage.protectedHeader, extractProtectedHeader, decoded, ok_bind,
      rewritten]
  refine ⟨bytes, .ofParsed X parsed header, ?_, ?_, verified, converted, ?_, rfl, rfl, rfl, rfl,
    rfl, rfl⟩
  · exact (buildCoseSign1_ok X _ _ _ _ _ _ _).mpr ⟨signature, signed, coded⟩
  · exact (parseCoseSign1_ok X _ _).mpr ⟨read, decoded, parses⟩
  · rw [verifySignature_ofParsed X reads bytes read parsed header decoded parses rewritten,
      ← unsigned]
    exact verifies

theorem Recorded.readsBack (r : Recorded)
    (h : ∀ c ∈ r.messages, ∀ d ∈ r.messages, c.encode = d.encode → c = d) :
    r.externals.ReadsBack := by
  intro c bytes new coded
  simp only [Recorded.externals] at coded
  split at coded
  · rename_i member
    obtain rfl : c.encode = bytes := Except.ok.inj coded
    obtain ⟨d, found⟩ : ∃ d, r.messages.find? (fun d => d.encode = c.encode) = some d := by
      rw [← Option.isSome_iff_exists, List.find?_isSome]
      exact ⟨c, member, by simp⟩
    obtain rfl : d = c := by
      apply h d (List.mem_of_find?_eq_some found) c member
      simpa using List.find?_some found
    simp only [Recorded.externals, found, Externals.protectedBytes, ProtectedHeader.encode, new]
    rfl
  · cases coded

/-- Hash, then sign the digest. -/
def Recorded.sign (r : Recorded) (key data : Bytes) : Except CborError Bytes :=
  (r.signRawSync key (r.externals.keccak256 data)).mapError .Signing

theorem Recorded.signingKey (r : Recorded) (key : Bytes) (curve : onCurve key = true)
    (scalars : ∀ entry ∈ r.signatures, inScalarRange entry.2.2 = true) :
    r.externals.SigningKey key (r.sign key) := by
  constructor
  · simp only [onCurve, Bool.and_eq_true, decide_eq_true_eq] at curve
    exact curve.1.1.1
  · intro data signature signed
    simp only [Recorded.sign, Recorded.signRawSync] at signed
    split at signed
    · rename_i entry found
      cases signed
      have member := List.mem_of_find?_eq_some found
      have same := List.find?_some found
      simp only [decide_eq_true_eq] at same
      have range := scalars entry member
      have length : entry.2.2.length = 64 := by
        simp only [inScalarRange, Bool.and_eq_true, decide_eq_true_eq] at range
        exact range.1.1.1.1
      refine ⟨length, curve, range, ?_⟩
      simp only [Recorded.externals, decide_eq_true_eq]
      rw [← same.1, show tabulated r.keccak256 data = entry.2.1 from same.2.symm]
      exact member
    · cases signed

namespace Sample

theorem cose_round_trip_plain :
    ∃ bytes message,
      buildCoseSign1 record.externals 0 timestamp .Changeset payload pubkey (record.sign pubkey) =
        .ok bytes ∧
      parseCoseSign1 record.externals bytes =
        .ok ⟨0, timestamp, .Changeset, payload, cose0.signature, pubkey⟩ ∧
      verifyAndParseCoseSign1 record.externals bytes pubkey =
        .ok ⟨0, timestamp, .Changeset, payload, cose0.signature, pubkey⟩ ∧
      (CborSignedMessage.mk bytes).toSignedMessage record.externals pubkey = .ok message ∧
      message.verifySignature record.externals = .ok () ∧ message.sequence = 0 ∧
      message.timestamp = timestamp ∧ message.messageType = .Changeset ∧
      message.payload = payload ∧ message.signature = hex0x cose0.signature ∧
      message.signer = hex0x pubkey := by
  have signer := record.signingKey pubkey (by decide) (by decide)
  have signed : record.sign pubkey
      (record.externals.tbsData (builtCose 0 timestamp .Changeset payload pubkey [])) =
        .ok cose0.signature := by
    decide
  exact cose_round_trip record.externals (record.readsMessages wellFormed)
    (record.readsBack (by decide +kernel)) 0 timestamp .Changeset payload pubkey cose0.signature
    (record.sign pubkey) signer signed (by decide)

end Sample

end SyndDB.Shared
