import SyndDB.Stylus.Jwt

namespace SyndDB.Stylus

open Octets

/-- `bytes[start..stop]`, which panics outside of the bytes. -/
def slice (bytes : Bytes) (start stop : Nat) : Option Bytes :=
  if start ≤ stop ∧ stop ≤ bytes.length then some ((bytes.drop start).take (stop - start)) else none

/-- `a - b`, which panics below zero. -/
def difference (a b : Nat) : Option Nat := if b ≤ a then some (a - b) else none

/-- The check with every index, difference and slice as the code takes it. There is no result where
one of them panics. -/
def verifyPkcs1v15Sha256Checked (decrypted expectedHash : Bytes) : Option Bool := do
  let len := decrypted.length
  if len < 62 then return false
  if (← decrypted[0]?) ≠ 0x00 then return false
  if (← decrypted[1]?) ≠ 0x01 then return false
  match separatorPos 2 (decrypted.drop 2) with
  | none => return false
  | some separator =>
      if separator < 10 then return false
      let digestStart := separator + 1
      if (← difference len digestStart) ≠ PKCS1_SHA256_DIGEST_INFO.length + 32 then return false
      let hashStart := digestStart + PKCS1_SHA256_DIGEST_INFO.length
      if (← slice decrypted digestStart hashStart) ≠ PKCS1_SHA256_DIGEST_INFO then return false
      return (← slice decrypted hashStart (hashStart + 32)) = expectedHash

theorem slice_eq (bytes : Bytes) (start n : Nat) (h : start + n ≤ bytes.length) :
    slice bytes start (start + n) = some ((bytes.drop start).take n) := by
  have bounds : start ≤ start + n ∧ start + n ≤ bytes.length := ⟨Nat.le_add_right _ _, h⟩
  rw [slice, if_pos bounds, Nat.add_sub_cancel_left]

/-- The separator is the zero that ends the padding. -/
theorem separatorPos_iff (i pos : Nat) (text : Bytes) :
    separatorPos i text = some pos ↔
      ∃ n rest, text = List.replicate n 0xff ++ 0 :: rest ∧ pos = i + n := by
  induction text generalizing i with
  | nil =>
    constructor
    · intro h
      cases h
    · rintro ⟨n, rest, same, -⟩
      cases n <;> cases same
  | cons byte text ih =>
    by_cases zero : byte = 0
    · rw [separatorPos, if_pos zero, zero, Option.some.injEq]
      constructor
      · intro h
        exact ⟨0, text, rfl, h.symm⟩
      · rintro ⟨n, rest, same, rfl⟩
        cases n with
        | zero => rfl
        | succ n => cases same
    · rw [separatorPos, if_neg zero]
      by_cases padding : byte = 0xff
      · have continues : ¬byte ≠ 0xff := not_not_intro padding
        rw [if_neg continues, ih, padding]
        constructor
        · rintro ⟨n, rest, rfl, rfl⟩
          exact ⟨n + 1, rest, rfl, by omega⟩
        · rintro ⟨n, rest, same, rfl⟩
          cases n with
          | zero => cases same
          | succ n =>
            rw [List.replicate_succ, List.cons_append, List.cons.injEq] at same
            exact ⟨n, rest, same.2, by omega⟩
      · rw [if_pos padding]
        constructor
        · intro h
          cases h
        · rintro ⟨n, rest, same, -⟩
          cases n with
          | zero => exact absurd (List.cons.inj same).1 zero
          | succ n => exact absurd (List.cons.inj same).1 padding

theorem separatorPos_lt (text : Bytes) (pos : Nat) (h : separatorPos 2 (text.drop 2) = some pos) :
    pos < text.length := by
  obtain ⟨n, rest, same, rfl⟩ := (separatorPos_iff _ _ _).mp h
  have length := congrArg List.length same
  rw [List.length_drop, List.length_append, List.length_replicate, List.length_cons] at length
  omega

theorem header_iff (decrypted : Bytes) (h : 62 ≤ decrypted.length) :
    ∃ a b, decrypted[0]? = some a ∧ decrypted[1]? = some b ∧
      (decrypted.take 2 = [0x00, 0x01] ↔ a = 0x00 ∧ b = 0x01) := by
  rcases decrypted with _ | ⟨a, _ | ⟨b, rest⟩⟩
  · simp at h
  · simp at h
  · exact ⟨a, b, rfl, rfl, by simp⟩

/-- No index, slice or difference of the check is out of bounds. -/
theorem verifyPkcs1v15Sha256Checked_eq (decrypted expectedHash : Bytes) :
    verifyPkcs1v15Sha256Checked decrypted expectedHash =
      some (verifyPkcs1v15Sha256 decrypted expectedHash) := by
  unfold verifyPkcs1v15Sha256Checked verifyPkcs1v15Sha256
  by_cases short : decrypted.length < 62
  · rw [if_pos short, if_pos short]
    rfl
  rw [if_neg short, if_neg short]
  obtain ⟨a, b, first, second, header⟩ := header_iff decrypted (Nat.not_lt.mp short)
  rw [first, second]
  by_cases zero : a = 0x00
  · by_cases one : b = 0x01
    · have started : ¬decrypted.take 2 ≠ [0x00, 0x01] := not_not_intro (header.mpr ⟨zero, one⟩)
      rw [if_neg started, zero, one]
      cases found : separatorPos 2 (decrypted.drop 2) with
      | none => rfl
      | some separator =>
        have inside : separator + 1 ≤ decrypted.length := separatorPos_lt decrypted separator found
        by_cases padding : separator < 10
        · simp [padding]
        · by_cases whole : decrypted.length - (separator + 1) = PKCS1_SHA256_DIGEST_INFO.length + 32
          · have info : separator + 1 + PKCS1_SHA256_DIGEST_INFO.length ≤ decrypted.length :=
              by omega
            have hash : separator + 1 + PKCS1_SHA256_DIGEST_INFO.length + 32 ≤
                decrypted.length := by
              omega
            simp only [difference, if_pos inside, slice_eq _ _ _ info, slice_eq _ _ _ hash]
            by_cases known : (decrypted.drop (separator + 1)).take PKCS1_SHA256_DIGEST_INFO.length =
                PKCS1_SHA256_DIGEST_INFO
            · simp [padding, whole, known]
            · simp [padding, whole, known]
          · simp [difference, padding, inside, whole]
    · have started : decrypted.take 2 ≠ [0x00, 0x01] := fun same => one (header.mp same).2
      rw [if_pos started, zero]
      simp [one]
  · have started : decrypted.take 2 ≠ [0x00, 0x01] := fun same => zero (header.mp same).1
    rw [if_pos started]
    simp [zero]

/-- EMSA-PKCS1-v1_5 with `n` bytes of padding. -/
def pkcs1v15Sha256 (n : Nat) (hash : Bytes) : Bytes :=
  [0x00, 0x01] ++ List.replicate n 0xff ++ [0x00] ++ PKCS1_SHA256_DIGEST_INFO ++ hash

def padded (n : Nat) (rest : Bytes) : Bytes :=
  [0x00, 0x01] ++ (List.replicate n 0xff ++ 0x00 :: rest)

/-- Two parts of known lengths make up the bytes. -/
theorem parts_iff (bytes first second : Bytes) :
    bytes = first ++ second ↔ bytes.length = first.length + second.length ∧
      bytes.take first.length = first ∧ (bytes.drop first.length).take second.length = second := by
  constructor
  · rintro rfl
    refine ⟨List.length_append, List.take_left, ?_⟩
    rw [List.drop_left, List.take_length]
  · rintro ⟨length, before, after⟩
    have rest : (bytes.drop first.length).take second.length = bytes.drop first.length := by
      apply List.take_of_length_le
      rw [List.length_drop]
      omega
    calc bytes = bytes.take first.length ++ bytes.drop first.length :=
          (List.take_append_drop _ _).symm
      _ = first ++ second := by rw [before, ← rest, after]

/-- After the separator come the digest info and the hash, and nothing else. -/
theorem verifyPkcs1v15Sha256_padded (n : Nat) (rest hash : Bytes) (h : hash.length = 32) :
    verifyPkcs1v15Sha256 (padded n rest) hash = true ↔
      8 ≤ n ∧ rest = PKCS1_SHA256_DIGEST_INFO ++ hash := by
  have info : PKCS1_SHA256_DIGEST_INFO.length = 19 := rfl
  have length : (padded n rest).length = n + 3 + rest.length := by
    simp only [padded, List.length_append, List.length_cons, List.length_nil, List.length_replicate]
    omega
  have started : (padded n rest).take 2 = [0x00, 0x01] := rfl
  have separator : separatorPos 2 ((padded n rest).drop 2) = some (2 + n) :=
    (separatorPos_iff _ _ _).mpr ⟨n, rest, rfl, rfl⟩
  have digest : (padded n rest).drop (2 + n + 1) = rest := by
    have front : ([0x00, 0x01] ++ List.replicate n 0xff ++ [0x00] : Bytes).length = 2 + n + 1 := by
      simp only [List.length_append, List.length_cons, List.length_nil, List.length_replicate]
    have same : padded n rest = ([0x00, 0x01] ++ List.replicate n 0xff ++ [0x00]) ++ rest := by
      simp [padded]
    rw [← front, same, List.drop_left]
  have hashed : (padded n rest).drop (2 + n + 1 + 19) = rest.drop 19 := by
    rw [← List.drop_drop, digest]
  have parts := parts_iff rest PKCS1_SHA256_DIGEST_INFO hash
  rw [info, h] at parts
  unfold verifyPkcs1v15Sha256
  rw [length, started, separator, info]
  dsimp only
  rw [digest, hashed]
  by_cases short : n + 3 + rest.length < 62
  · rw [if_pos short]
    constructor
    · intro accepted
      cases accepted
    · rintro ⟨padding, same⟩
      have whole := (parts.mp same).1
      omega
  · have rest_length : n + 3 + rest.length - (2 + n + 1) = rest.length := by omega
    have padding : ¬2 + n < 10 ↔ 8 ≤ n := by omega
    rw [if_neg short, if_neg (not_not_intro rfl), rest_length, ← padding, parts]
    by_cases few : 2 + n < 10
    · simp [few]
    · by_cases whole : rest.length = 19 + 32
      · by_cases known : rest.take 19 = PKCS1_SHA256_DIGEST_INFO
        · simp [few, whole, known]
        · simp [few, whole, known]
      · simp [few, whole]

/-- What is accepted has a separator. -/
theorem padded_of_verifyPkcs1v15Sha256 (decrypted hash : Bytes)
    (h : verifyPkcs1v15Sha256 decrypted hash = true) :
    ∃ n rest, decrypted = padded n rest := by
  unfold verifyPkcs1v15Sha256 at h
  split at h
  · cases h
  split at h
  · cases h
  split at h
  · cases h
  rename_i started _ separator found
  obtain ⟨n, rest, shape, -⟩ := (separatorPos_iff _ _ _).mp found
  refine ⟨n, rest, ?_⟩
  calc decrypted = decrypted.take 2 ++ decrypted.drop 2 := (List.take_append_drop _ _).symm
    _ = padded n rest := by rw [Decidable.not_not.mp started, shape, padded]

/-- The check accepts a padded digest with at least eight bytes of padding, and nothing else. -/
theorem verifyPkcs1v15Sha256_exact (decrypted expectedHash : Bytes) (h : expectedHash.length = 32) :
    (verifyPkcs1v15Sha256 decrypted expectedHash = true ↔
      ∃ n, 8 ≤ n ∧ decrypted = pkcs1v15Sha256 n expectedHash) ∧
    verifyPkcs1v15Sha256Checked decrypted expectedHash =
      some (verifyPkcs1v15Sha256 decrypted expectedHash) := by
  refine ⟨⟨?_, ?_⟩, verifyPkcs1v15Sha256Checked_eq decrypted expectedHash⟩
  · intro accepted
    obtain ⟨n, rest, rfl⟩ := padded_of_verifyPkcs1v15Sha256 decrypted expectedHash accepted
    obtain ⟨padding, rfl⟩ := (verifyPkcs1v15Sha256_padded n rest expectedHash h).mp accepted
    exact ⟨n, padding, by simp [pkcs1v15Sha256, padded]⟩
  · rintro ⟨n, padding, rfl⟩
    have accepted := (verifyPkcs1v15Sha256_padded n _ expectedHash h).mpr ⟨padding, rfl⟩
    simpa [pkcs1v15Sha256, padded] using accepted

/-- Eight bytes of padding are enough. -/
theorem verifyPkcs1v15Sha256_exact_shortest :
    verifyPkcs1v15Sha256 (pkcs1v15Sha256 8 (List.replicate 32 7)) (List.replicate 32 7) = true :=
  (verifyPkcs1v15Sha256_exact _ (List.replicate 32 7) (by decide)).1.mpr ⟨8, by decide, rfl⟩

end SyndDB.Stylus
