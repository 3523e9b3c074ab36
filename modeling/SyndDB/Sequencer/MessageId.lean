import SyndDB.Sequencer.BridgeSignature

namespace SyndDB.Sequencer

open Octets Text Shared
open Contracts (Crypto word word_injective)

/-- The validator's reading. -/
def requestIdToMessageId (X : Crypto) (requestId : String) : Bytes :=
  let bytes := utf8 requestId
  if bytes.take 2 = [48, 120] && bytes.length = 66 then
    match decodeHex (bytes.drop 2) with
    | .ok decoded => if decoded.length = 32 then decoded else word (X.keccak256 bytes)
    | .error _ => word (X.keccak256 bytes)
  else word (X.keccak256 bytes)

/-- One or more digits, after an optional `0x`. -/
def Hexadecimal (requestId : String) : Prop :=
  strip0x (utf8 requestId) ≠ [] ∧ (strip0x (utf8 requestId)).all isAsciiHexdigit = true

/-- `0x` and 64 digits. -/
def FullWord (requestId : String) : Prop :=
  (utf8 requestId).take 2 = [48, 120] ∧ (utf8 requestId).length = 66 ∧ Hexadecimal requestId

instance (requestId : String) : Decidable (Hexadecimal requestId) :=
  inferInstanceAs (Decidable (_ ∧ _))

instance (requestId : String) : Decidable (FullWord requestId) :=
  inferInstanceAs (Decidable (_ ∧ _))

/-- Both readings hash the text, or both take it for the id. -/
def SameReading (requestId : String) : Prop := ¬Hexadecimal requestId ∨ FullWord requestId

instance (requestId : String) : Decidable (SameReading requestId) :=
  inferInstanceAs (Decidable (_ ∨ _))

/-- The texts differ at most in a `0x` and in the case of hexadecimal letters. -/
def SameUpToCase (requestId requestId' : String) : Prop :=
  (strip0x (utf8 requestId)).map lowerHex = (strip0x (utf8 requestId')).map lowerHex

instance (requestId requestId' : String) : Decidable (SameUpToCase requestId requestId') :=
  inferInstanceAs (Decidable (_ = _))

/-- The second text is `0x` and the digits of the hash of the first, which is not hexadecimal. -/
def SpellsHash (X : Crypto) (requestId requestId' : String) : Prop :=
  ¬Hexadecimal requestId ∧ FullWord requestId' ∧
    (strip0x (utf8 requestId')).map lowerHex = hexText (word (X.keccak256 (utf8 requestId)))

/-- A text that is read in two ways is not, as a number, the hash of itself. -/
def NotOwnHash (X : Crypto) (requestId : String) : Prop :=
  ¬SameReading requestId → ∀ decoded, decodeHex (strip0x (utf8 requestId)) = .ok decoded →
    leftPadded decoded ≠ word (X.keccak256 (utf8 requestId))

section Readings

variable (X : Crypto) (requestId : String)

theorem strip0x_of_starts (text : Bytes) (h : text.take 2 = [48, 120]) :
    strip0x text = text.drop 2 := by
  match text with
  | [] => simp at h
  | [c] => simp at h
  | c :: d :: rest =>
    simp only [List.take_succ_cons, List.take_zero, List.cons.injEq, and_true] at h
    rw [h.1, h.2]
    rfl

theorem leftPadded_of_length (bytes : Bytes) (h : bytes.length = 32) :
    leftPadded bytes = bytes := by
  simp [leftPadded, h, List.take_of_length_le (Nat.le_of_eq h)]

theorem messageIdB256_text (h : ¬Hexadecimal requestId) :
    messageIdB256 X requestId = .ok (word (X.keccak256 (utf8 requestId))) := by
  have short : ¬(strip0x (utf8 requestId)).all isAsciiHexdigit = true ∨
      strip0x (utf8 requestId) = [] := by
    by_cases empty : strip0x (utf8 requestId) = []
    · exact .inr empty
    · exact .inl fun digits => h ⟨empty, digits⟩
  rcases short with digits | empty
  · simp only [Bool.not_eq_true] at digits
    simp [messageIdB256, digits]
  · simp [messageIdB256, empty]

/-- The digits are decoded and padded. -/
theorem messageIdB256_hex (h : Hexadecimal requestId) (bytes : Bytes) :
    messageIdB256 X requestId = .ok bytes ↔
      ∃ decoded, decodeHex (strip0x (utf8 requestId)) = .ok decoded ∧ leftPadded decoded =
        bytes := by
  obtain ⟨nonempty, digits⟩ := h
  simp only [messageIdB256, digits, Bool.and_true, decide_eq_true_eq, Bool.true_and,
    Bool.not_eq_true', List.isEmpty_eq_false_iff, nonempty, ne_eq, not_false_eq_true, if_true]
  split
  case isTrue exact =>
    rw [decodeField, Outcome.mapError_ok]
    have whole (decoded : Bytes) (hd : decodeHex (strip0x (utf8 requestId)) = .ok decoded) :
        leftPadded decoded = decoded := by
      have length := congrArg List.length ((decodeHex_ok _ _).mp hd)
      rw [List.length_map, length_hexText, exact] at length
      exact leftPadded_of_length decoded (by omega)
    constructor
    · intro hd
      exact ⟨bytes, hd, whole bytes hd⟩
    · intro given
      obtain ⟨decoded, hd, rfl⟩ := given
      rw [whole decoded hd]
      exact hd
  case isFalse =>
    rw [Outcome.map_ok]
    simp only [decodeField, Outcome.mapError_ok]

theorem requestIdToMessageId_text (h : ¬FullWord requestId) :
    requestIdToMessageId X requestId = word (X.keccak256 (utf8 requestId)) := by
  simp only [requestIdToMessageId, Bool.and_eq_true, decide_eq_true_eq]
  split
  case isFalse => rfl
  case isTrue starts =>
    cases decoded : decodeHex ((utf8 requestId).drop 2) with
    | error e => rfl
    | ok bytes =>
      -- digits that decode would make it a full word
      have text := (decodeHex_ok _ _).mp decoded
      rw [← strip0x_of_starts _ starts.1] at text
      have nonempty : strip0x (utf8 requestId) ≠ [] := by
        rw [strip0x_of_starts _ starts.1]
        intro empty
        have length := congrArg List.length empty
        rw [List.length_drop, starts.2] at length
        simp at length
      exact absurd ⟨starts.1, starts.2, nonempty, digits_of_hexText _ _ text⟩ h

theorem requestIdToMessageId_full (h : FullWord requestId) (bytes : Bytes) :
    requestIdToMessageId X requestId = bytes ↔
      (strip0x (utf8 requestId)).map lowerHex = hexText bytes := by
  obtain ⟨starts, length, -, digits⟩ := h
  have stripped := strip0x_of_starts _ starts
  have size : ((utf8 requestId).drop 2).length = 64 := by rw [List.length_drop, length]
  rw [stripped] at digits ⊢
  obtain ⟨decoded, hd⟩ := decodeHex_total _ (by rw [size]) digits
  have text := (decodeHex_ok _ _).mp hd
  have whole : decoded.length = 32 := by
    have lengths := congrArg List.length text
    rw [List.length_map, length_hexText, size] at lengths
    omega
  have value : requestIdToMessageId X requestId = decoded := by
    simp [requestIdToMessageId, starts, length, hd, whole]
  rw [value, text]
  exact ⟨fun same => same ▸ rfl, fun same => hexText_injective same⟩

/-- The two readings agree where they follow the same rule. -/
theorem readings_agree_iff (own : NotOwnHash X requestId) (bytes : Bytes)
    (h : messageIdB256 X requestId = .ok bytes) :
    bytes = requestIdToMessageId X requestId ↔ SameReading requestId := by
  by_cases hex : Hexadecimal requestId
  · obtain ⟨decoded, hd, padded⟩ := (messageIdB256_hex X requestId hex bytes).mp h
    by_cases full : FullWord requestId
    · have text := (decodeHex_ok _ _).mp hd
      have length : decoded.length = 32 := by
        have lengths := congrArg List.length text
        rw [List.length_map, length_hexText, strip0x_of_starts _ full.1, List.length_drop,
          full.2.1] at lengths
        omega
      rw [leftPadded_of_length decoded length] at padded
      have same := (requestIdToMessageId_full X requestId full bytes).mpr (padded ▸ text)
      exact ⟨fun _ => .inr full, fun _ => same.symm⟩
    · have differs : ¬SameReading requestId := by
        rintro (text | full')
        · exact text hex
        · exact full full'
      rw [requestIdToMessageId_text X requestId full, ← padded]
      constructor
      · intro same
        exact absurd same (own differs decoded hd)
      · intro reading
        exact absurd reading differs
  · rw [messageIdB256_text X requestId hex, Except.ok.injEq] at h
    rw [requestIdToMessageId_text X requestId fun full => hex full.2.2]
    exact ⟨fun _ => .inl hex, fun _ => h.symm⟩

end Readings

section Collisions

variable (X : Crypto) (requestId requestId' : String)

/-- A text whose hash another one spells is not a variant of it. -/
theorem spellsHash_distinct (h : SpellsHash X requestId requestId') :
    ¬SameUpToCase requestId requestId' := by
  obtain ⟨text, full, digits⟩ := h
  intro same
  apply text
  have spelled := same.trans digits
  refine ⟨?_, digits_of_hexText _ _ spelled⟩
  intro empty
  have lengths := congrArg List.length spelled
  rw [List.length_map, length_hexText, empty, word, length_bigEndian] at lengths
  simp at lengths

theorem spellsHash_shared (h : SpellsHash X requestId requestId') :
    requestIdToMessageId X requestId = requestIdToMessageId X requestId' := by
  obtain ⟨text, full, digits⟩ := h
  rw [requestIdToMessageId_text X requestId fun full => text full.2.2]
  exact ((requestIdToMessageId_full X requestId' full _).mpr digits).symm

/-- Where both readings agree, two texts share an id only as variants of each other or by a
spelled-out hash. -/
theorem shared_id_cases
    (collisionFree : X.keccak256 (utf8 requestId) = X.keccak256 (utf8 requestId') →
      requestId = requestId')
    (h : SameReading requestId) (h' : SameReading requestId')
    (same : requestIdToMessageId X requestId = requestIdToMessageId X requestId') :
    SameUpToCase requestId requestId' ∨ SpellsHash X requestId requestId' ∨
      SpellsHash X requestId' requestId := by
  rcases h with text | full
  · rw [requestIdToMessageId_text X requestId fun full => text full.2.2] at same
    rcases h' with text' | full'
    · rw [requestIdToMessageId_text X requestId' fun full => text' full.2.2] at same
      rw [collisionFree (word_injective _ _ same)]
      exact .inl rfl
    · have digits := (requestIdToMessageId_full X requestId' full' _).mp same.symm
      exact .inr (.inl ⟨text, full', digits⟩)
  · have digits := (requestIdToMessageId_full X requestId full _).mp same
    rcases h' with text' | full'
    · rw [requestIdToMessageId_text X requestId' fun full => text' full.2.2] at digits
      exact .inr (.inr ⟨text', full, digits⟩)
    · exact .inl (digits.trans ((requestIdToMessageId_full X requestId' full' _).mp rfl).symm)

end Collisions

/-- The id that is returned is the sequencer's reading. -/
theorem signBridgeWithdrawal_messageId (X : Crypto) (keyManager : EvmKeyManager)
    (messageId targetAddress : String) (payload : Bytes) (nativeTokenAmount : String)
    (out : BridgeSignature)
    (h : signBridgeWithdrawal X keyManager messageId targetAddress payload nativeTokenAmount =
      .ok out) :
    ∃ bytes, messageIdB256 X messageId = .ok bytes ∧ out.messageId = hex0x bytes := by
  obtain ⟨m, t, a, sig, denotes, -, rfl⟩ := (signBridgeWithdrawal_ok _ _ _ _ _ _ _).mp h
  exact ⟨word m, denotes.messageId, rfl⟩

/-- Sequencer and validator derive the same ids for two requests, and different ones unless the
texts are variants of each other, exactly when both texts are read by the same rule and neither
spells the hash of the other. -/
theorem message_ids_agree_iff (X : Crypto) (keyManager : EvmKeyManager)
    (requestId requestId' targetAddress targetAddress' amount amount' : String)
    (payload payload' : Bytes) (out out' : BridgeSignature)
    (signed : signBridgeWithdrawal X keyManager requestId targetAddress payload amount = .ok out)
    (signed' : signBridgeWithdrawal X keyManager requestId' targetAddress' payload' amount' =
      .ok out')
    (collisionFree : X.keccak256 (utf8 requestId) = X.keccak256 (utf8 requestId') →
      requestId = requestId')
    (own : NotOwnHash X requestId) (own' : NotOwnHash X requestId') :
    (out.messageId = hex0x (requestIdToMessageId X requestId) ∧
      out'.messageId = hex0x (requestIdToMessageId X requestId') ∧
      (¬SameUpToCase requestId requestId' → out.messageId ≠ out'.messageId)) ↔
    SameReading requestId ∧ SameReading requestId' ∧
      ¬SpellsHash X requestId requestId' ∧ ¬SpellsHash X requestId' requestId := by
  obtain ⟨bytes, hbytes, hout⟩ := signBridgeWithdrawal_messageId _ _ _ _ _ _ _ signed
  obtain ⟨bytes', hbytes', hout'⟩ := signBridgeWithdrawal_messageId _ _ _ _ _ _ _ signed'
  have agree := readings_agree_iff X requestId own bytes hbytes
  have agree' := readings_agree_iff X requestId' own' bytes' hbytes'
  rw [hout, hout']
  constructor
  · intro h
    obtain ⟨same, same', apart⟩ := h
    have reads := hex0x_injective _ _ same
    have reads' := hex0x_injective _ _ same'
    refine ⟨agree.mp reads, agree'.mp reads', ?_, ?_⟩
    · intro spells
      apply apart (spellsHash_distinct X _ _ spells)
      rw [reads, reads', spellsHash_shared X _ _ spells]
    · intro spells
      apply apart fun variants => spellsHash_distinct X _ _ spells variants.symm
      rw [reads, reads', spellsHash_shared X _ _ spells]
  · intro h
    obtain ⟨reading, reading', spells, spells'⟩ := h
    have reads := agree.mpr reading
    have reads' := agree'.mpr reading'
    refine ⟨congrArg hex0x reads, congrArg hex0x reads', ?_⟩
    intro distinct shared
    have same := hex0x_injective _ _ shared
    rw [reads, reads'] at same
    rcases shared_id_cases X _ _ collisionFree reading reading' same with variants | hash | hash
    · exact distinct variants
    · exact spells hash
    · exact spells' hash

namespace Withdrawal

theorem signed_padded :
    signBridgeWithdrawal crypto keyManager "000a" "0xd8dA6BF26964aF9D7eEd9e03E53415D37aA96045"
      payload "1500" = .ok out := by
  decide +kernel

theorem distinct_hashes : crypto.keccak256 (utf8 "0x0a") = crypto.keccak256 (utf8 "000a") →
    "0x0a" = "000a" := by
  decide

/-- The short ids `0x0a` and `000a` are one message id to the sequencer, and two others
to the validator. -/
theorem short_ids_diverge :
    signBridgeWithdrawal crypto keyManager "0x0a" "0xd8dA6BF26964aF9D7eEd9e03E53415D37aA96045"
      payload "1500" = .ok out ∧
    signBridgeWithdrawal crypto keyManager "000a" "0xd8dA6BF26964aF9D7eEd9e03E53415D37aA96045"
      payload "1500" = .ok out ∧
    (crypto.keccak256 (utf8 "0x0a") = crypto.keccak256 (utf8 "000a") → "0x0a" = "000a") ∧
    ¬SameUpToCase "0x0a" "000a" ∧ out.messageId ≠ hex0x (requestIdToMessageId crypto "0x0a") ∧
    out.messageId ≠ hex0x (requestIdToMessageId crypto "000a") :=
  ⟨signed, signed_padded, distinct_hashes, by decide, by decide, by decide⟩

/-- Nothing decodes to the hash of its text. -/
theorem not_own_hash (requestId : String)
    (h : ∀ decoded ∈ (decodeHex (strip0x (utf8 requestId))).toOption,
      leftPadded decoded ≠ word (crypto.keccak256 (utf8 requestId))) :
    NotOwnHash crypto requestId := by
  intro _ decoded hd
  apply h
  rw [hd]
  rfl

theorem message_ids_agree_iff_short :
    (out.messageId = hex0x (requestIdToMessageId crypto "0x0a") ∧
      out.messageId = hex0x (requestIdToMessageId crypto "000a") ∧
      (¬SameUpToCase "0x0a" "000a" → out.messageId ≠ out.messageId)) ↔
    SameReading "0x0a" ∧ SameReading "000a" ∧
      ¬SpellsHash crypto "0x0a" "000a" ∧ ¬SpellsHash crypto "000a" "0x0a" :=
  message_ids_agree_iff crypto keyManager "0x0a" "000a" _ _ _ _ payload payload out out signed
    signed_padded distinct_hashes (not_own_hash _ (by decide))
    (not_own_hash _ (by decide))

end Withdrawal

end SyndDB.Sequencer
