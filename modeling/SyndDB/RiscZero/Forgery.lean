import SyndDB.RiscZero.AttestationVerifier

namespace SyndDB.RiscZero

open Octets
open SyndDB.Stylus (isUtf8 splitDot base64Value base64Groups base64Decode base64urlDecode
  PKCS1_SHA256_DIGEST_INFO)

def base64Alphabet : Bytes :=
  ascii "ABCDEFGHIJKLMNOPQRSTUVWXYZabcdefghijklmnopqrstuvwxyz0123456789+/"

def base64Char (v : UInt8) : UInt8 := base64Alphabet.getD v.toNat 61

/-- Base64 in the standard alphabet, with padding. -/
def base64Encode : Bytes → Bytes
  | [] => []
  | [a] => [base64Char (a >>> 2), base64Char ((a &&& 3) <<< 4), 61, 61]
  | [a, b] =>
      [base64Char (a >>> 2), base64Char ((a &&& 3) <<< 4 ||| b >>> 4),
        base64Char ((b &&& 15) <<< 2), 61]
  | a :: b :: c :: rest =>
      base64Char (a >>> 2) :: base64Char ((a &&& 3) <<< 4 ||| b >>> 4) ::
        base64Char ((b &&& 15) <<< 2 ||| c >>> 6) :: base64Char (c &&& 63) :: base64Encode rest

/-- A character that is none of `-`, `.`, `=` and `_`. -/
def Plain (c : UInt8) : Prop := c ≤ 0x7f ∧ c ≠ 45 ∧ c ≠ 46 ∧ c ≠ 61 ∧ c ≠ 95

instance (c : UInt8) : Decidable (Plain c) := inferInstanceAs (Decidable (_ ∧ _))

theorem base64Char_spec (v : UInt8) (h : v < 64) :
    base64Value (base64Char v) = v.toNat ∧ Plain (base64Char v) := by
  refine byte_of_table v (UInt8.lt_iff_toNat_lt.mp h) ?_
  decide +kernel

theorem lt_of_and (v : UInt8) (h : v &&& 63 = v) : v < 64 := by
  rw [UInt8.lt_iff_toNat_lt, ← h, UInt8.toNat_and]
  exact Nat.lt_of_le_of_lt Nat.and_le_right (by decide)

/-- Four sextets of three bytes, and the bytes put together again. -/
theorem sextets (a b c : UInt8) :
    (a >>> 2 < 64 ∧ (a &&& 3) <<< 4 ||| b >>> 4 < 64 ∧ (b &&& 15) <<< 2 ||| c >>> 6 < 64 ∧
      c &&& 63 < 64) ∧
    (a >>> 2) <<< 2 ||| ((a &&& 3) <<< 4 ||| b >>> 4) >>> 4 = a ∧
    ((a &&& 3) <<< 4 ||| b >>> 4) <<< 4 ||| ((b &&& 15) <<< 2 ||| c >>> 6) >>> 2 = b ∧
    ((b &&& 15) <<< 2 ||| c >>> 6) <<< 6 ||| c &&& 63 = c := by
  refine ⟨⟨lt_of_and _ ?_, lt_of_and _ ?_, lt_of_and _ ?_, lt_of_and _ ?_⟩, ?_, ?_, ?_⟩
  all_goals
    apply UInt8.toBitVec_inj.mp
    ext i hi
    interval_cases i <;> simp

theorem base64Groups_four (va vb vc vd : UInt8) (ha : va < 64) (hb : vb < 64) (hc : vc < 64)
    (hd : vd < 64) (rest bytes : Bytes) (h : base64Groups rest = .ok bytes) :
    base64Groups (base64Char va :: base64Char vb :: base64Char vc :: base64Char vd :: rest) =
      .ok ((va <<< 2 ||| vb >>> 4) :: (vb <<< 4 ||| vc >>> 2) :: (vc <<< 6 ||| vd) :: bytes) := by
  obtain ⟨va', -⟩ := base64Char_spec va ha
  obtain ⟨vb', -⟩ := base64Char_spec vb hb
  obtain ⟨vc', pc⟩ := base64Char_spec vc hc
  obtain ⟨vd', pd⟩ := base64Char_spec vd hd
  have nonneg (v : UInt8) : ¬((v.toNat : Int) < 0) := by omega
  simp only [base64Groups, va', vb', vc', vd', nonneg, pc.2.2.2.1, pd.2.2.2.1, or_self, if_false,
    Int.toNat_natCast, UInt8.ofNat_toNat, h]
  rfl

theorem base64Groups_encode (bytes : Bytes) : base64Groups (base64Encode bytes) = .ok bytes := by
  fun_induction base64Encode bytes with
  | case1 => rfl
  | case2 a =>
    obtain ⟨⟨ha, hb, -, -⟩, first, -, -⟩ := sextets a 0 0
    simp only [show (0 : UInt8) >>> 4 = 0 from rfl, UInt8.or_zero] at hb first
    obtain ⟨va, -⟩ := base64Char_spec _ ha
    obtain ⟨vb, -⟩ := base64Char_spec _ hb
    have nonneg (v : UInt8) : ¬((v.toNat : Int) < 0) := by omega
    simp only [base64Groups, va, vb, nonneg, or_self, if_false, if_true, Int.toNat_natCast,
      UInt8.ofNat_toNat, first]
    rfl
  | case3 a b =>
    obtain ⟨⟨ha, hb, hc, -⟩, first, second, -⟩ := sextets a b 0
    simp only [show (0 : UInt8) >>> 6 = 0 from rfl, UInt8.or_zero] at hc second
    obtain ⟨va, -⟩ := base64Char_spec _ ha
    obtain ⟨vb, -⟩ := base64Char_spec _ hb
    obtain ⟨vc, pc⟩ := base64Char_spec _ hc
    have nonneg (v : UInt8) : ¬((v.toNat : Int) < 0) := by omega
    simp only [base64Groups, va, vb, vc, nonneg, pc.2.2.2.1, or_self, if_false, if_true,
      Int.toNat_natCast, UInt8.ofNat_toNat, first, second]
    rfl
  | case4 a b c rest ih =>
    obtain ⟨⟨ha, hb, hc, hd⟩, first, second, third⟩ := sextets a b c
    rw [base64Groups_four _ _ _ _ ha hb hc hd _ rest ih, first, second, third]

theorem base64Encode_chars (bytes : Bytes) (c : UInt8) (h : c ∈ base64Encode bytes) :
    c ≤ 0x7f ∧ c ≠ 45 ∧ c ≠ 46 ∧ c ≠ 95 := by
  have plain (v : UInt8) (hv : v < 64) : base64Char v ≤ 0x7f ∧ base64Char v ≠ 45 ∧
      base64Char v ≠ 46 ∧ base64Char v ≠ 95 := by
    obtain ⟨-, ascii, minus, dot, -, underscore⟩ := base64Char_spec v hv
    exact ⟨ascii, minus, dot, underscore⟩
  have equals : (61 : UInt8) ≤ 0x7f ∧ (61 : UInt8) ≠ 45 ∧ (61 : UInt8) ≠ 46 ∧
      (61 : UInt8) ≠ 95 := by
    decide
  fun_induction base64Encode bytes with
  | case1 => simp at h
  | case2 a =>
    obtain ⟨⟨ha, hb, -, -⟩, -⟩ := sextets a 0 0
    simp only [show (0 : UInt8) >>> 4 = 0 from rfl, UInt8.or_zero] at hb
    simp only [List.mem_cons, List.not_mem_nil, or_false] at h
    rcases h with rfl | rfl | rfl | rfl
    · exact plain _ ha
    · exact plain _ hb
    · exact equals
    · exact equals
  | case3 a b =>
    obtain ⟨⟨ha, hb, hc, -⟩, -⟩ := sextets a b 0
    simp only [show (0 : UInt8) >>> 6 = 0 from rfl, UInt8.or_zero] at hc
    simp only [List.mem_cons, List.not_mem_nil, or_false] at h
    rcases h with rfl | rfl | rfl | rfl
    · exact plain _ ha
    · exact plain _ hb
    · exact plain _ hc
    · exact equals
  | case4 a b c rest ih =>
    obtain ⟨⟨ha, hb, hc, hd⟩, -⟩ := sextets a b c
    simp only [List.mem_cons] at h
    rcases h with rfl | rfl | rfl | rfl | h
    · exact plain _ ha
    · exact plain _ hb
    · exact plain _ hc
    · exact plain _ hd
    · exact ih h

theorem length_base64Encode (bytes : Bytes) : (base64Encode bytes).length % 4 = 0 := by
  fun_induction base64Encode bytes with
  | case1 => rfl
  | case2 a => simp
  | case3 a b => simp
  | case4 a b c rest ih =>
    simp only [List.length_cons]
    omega

/-- Encoded text is read back. -/
theorem base64urlDecode_encode (bytes : Bytes) :
    base64urlDecode (base64Encode bytes) = .ok bytes := by
  have unchanged : ((base64Encode bytes).map
      fun c => if c = 45 then 43 else if c = 95 then 47 else c) =
      base64Encode bytes := by
    conv_rhs => rw [← List.map_id (base64Encode bytes)]
    apply List.map_congr_left
    intro c hc
    obtain ⟨-, minus, -, underscore⟩ := base64Encode_chars bytes c hc
    simp [minus, underscore]
  have whole := length_base64Encode bytes
  simp only [base64urlDecode, unchanged, whole, List.append_nil, base64Decode, ne_eq,
    not_true_eq_false, if_false]
  exact base64Groups_encode bytes

theorem isUtf8_ascii (text : Bytes) (h : ∀ c ∈ text, c ≤ 0x7f) : isUtf8 text = true := by
  induction text with
  | nil => rw [isUtf8]
  | cons c text ih =>
    rw [isUtf8.eq_def]
    simp only [h c (by simp), if_true]
    exact ih fun d hd => h d (by simp [hd])

theorem splitDot_append (before after : Bytes) (h : 46 ∉ before) :
    splitDot (before ++ 46 :: after) = some (before, after) := by
  induction before with
  | nil => simp [splitDot]
  | cons c before ih =>
    have first : c ≠ 46 := fun same => h (by simp [same])
    have rest : 46 ∉ before := fun member => h (by simp [member])
    simp only [List.cons_append, splitDot, if_neg first, ih rest, Option.map_some]

/-- EMSA-PKCS1-v1_5 with SHA-256, for a modulus of `k` bytes. -/
def emsaPkcs1v15 (k : Nat) (hash : Bytes) : Bytes :=
  [0, 1] ++ List.replicate (k - 54) 0xff ++ [0] ++ PKCS1_SHA256_DIGEST_INFO ++ hash

theorem length_emsaPkcs1v15 (hash : Bytes) (h : hash.length = 32) :
    (emsaPkcs1v15 256 hash).length = 256 := by
  simp only [emsaPkcs1v15, List.length_append, List.length_replicate, h]
  rfl

/-- A padded digest is far below the cubes of the roots, and these are below a
modulus of 256 bytes. -/
theorem sizes : (256 : Nat) ^ 254 + 256 ^ 254 = 2 ^ 2033 ∧ (2 : Nat) ^ 2033 + 2 ^ 2033 ≤ 2 ^ 2046 ∧
    (256 : Nat) ^ 255 + 2 ^ 2033 ≤ 2 ^ 2046 ∧ (2 : Nat) ^ 2047 ≤ 256 ^ 256 ∧
    (2 : Nat) ^ 2046 = (2 ^ 682) ^ 3 ∧ (2 ^ 682 + 3 : Nat) ^ 3 < 2 ^ 2047 ∧
    (2 : Nat) ^ 682 + 3 < 256 ^ 255 := by
  decide +kernel

theorem emsaPkcs1v15_lt (hash : Bytes) (h : hash.length = 32) :
    fromBigEndian (emsaPkcs1v15 256 hash) < 2 ^ 2033 := by
  have length := length_emsaPkcs1v15 hash h
  have shape : ∃ rest, emsaPkcs1v15 256 hash = 0 :: 1 :: rest := ⟨_, rfl⟩
  obtain ⟨rest, hrest⟩ := shape
  rw [hrest, List.length_cons, List.length_cons] at length
  have small := fromBigEndian_lt rest
  rw [show rest.length = 254 by omega] at small
  rw [hrest, fromBigEndian_cons, fromBigEndian_cons, show rest.length = 254 by omega]
  simp only [UInt8.toNat_zero, Nat.zero_mul, Nat.zero_add, UInt8.toNat_one, Nat.one_mul]
  calc 256 ^ 254 + fromBigEndian rest < 256 ^ 254 + 256 ^ 254 := Nat.add_lt_add_left small _
    _ = 2 ^ 2033 := sizes.1

/-- Two roots of the parity that makes the modulus odd. -/
def forgedRoot (em : Nat) (second : Bool) : Nat := 2 ^ 682 + 2 * second.toNat + (em + 1) % 2

/-- The modulus under which the cube of the root is the padded digest. No factor of it is needed. -/
def forgedModulus (em : Nat) (second : Bool) : Nat := forgedRoot em second ^ 3 - em

theorem forgedRoot_cube (em : Nat) (second : Bool) :
    2 ^ 2046 ≤ forgedRoot em second ^ 3 ∧ forgedRoot em second ^ 3 < 2 ^ 2047 ∧
      forgedRoot em second ^ 3 % 2 = (em + 1) % 2 := by
  obtain ⟨-, -, -, -, least, most, -⟩ := sizes
  have parity : forgedRoot em second % 2 = (em + 1) % 2 := by
    rw [forgedRoot]
    omega
  have atMost : forgedRoot em second ≤ 2 ^ 682 + 3 := by
    have := Bool.toNat_le second
    rw [forgedRoot]
    omega
  refine ⟨?_, ?_, ?_⟩
  · calc 2 ^ 2046 = (2 ^ 682) ^ 3 := least
      _ ≤ forgedRoot em second ^ 3 := Nat.pow_le_pow_left (by rw [forgedRoot]; omega) 3
  · calc forgedRoot em second ^ 3 ≤ (2 ^ 682 + 3) ^ 3 := Nat.pow_le_pow_left atMost 3
      _ < 2 ^ 2047 := most
  · rw [Nat.pow_mod, parity]
    rcases Nat.mod_two_eq_zero_or_one (em + 1) with h | h
    · rw [h]
    · rw [h]

theorem forgedModulus_spec (em : Nat) (second : Bool) (h : em < 2 ^ 2033) :
    em < forgedModulus em second ∧ 256 ^ 255 ≤ forgedModulus em second ∧
      forgedModulus em second < 256 ^ 256 ∧ forgedModulus em second % 2 = 1 := by
  obtain ⟨low, high, parity⟩ := forgedRoot_cube em second
  rw [forgedModulus]
  generalize forgedRoot em second ^ 3 = cube at *
  obtain ⟨-, p1, p2, p3, -⟩ := sizes
  generalize (2 : Nat) ^ 2033 = bound at *
  generalize (2 : Nat) ^ 2046 = least at *
  generalize (2 : Nat) ^ 2047 = most at *
  generalize (256 : Nat) ^ 255 = a at *
  generalize (256 : Nat) ^ 256 = b at *
  refine ⟨by omega, by omega, by omega, by omega⟩

theorem forgedRoot_spec (em : Nat) (second : Bool) (h : em < 2 ^ 2033) :
    forgedRoot em second < forgedModulus em second ∧
      forgedRoot em second ^ 3 % forgedModulus em second = em := by
  obtain ⟨small, least, -, -⟩ := forgedModulus_spec em second h
  obtain ⟨low, -, -⟩ := forgedRoot_cube em second
  have large : em ≤ forgedRoot em second ^ 3 := by
    have := sizes.2.1
    omega
  refine ⟨?_, ?_⟩
  · have root : forgedRoot em second < 256 ^ 255 := by
      have := Bool.toNat_le second
      rw [forgedRoot]
      have := sizes.2.2.2.2.2.2
      omega
    omega
  · have split : forgedRoot em second ^ 3 = em + forgedModulus em second := by
      rw [forgedModulus]
      omega
    rw [split, Nat.add_mod_right, Nat.mod_eq_of_lt small]

theorem forgedModulus_distinct (em : Nat) (h : em < 2 ^ 2033) :
    forgedModulus em false ≠ forgedModulus em true := by
  have lower : forgedRoot em false < forgedRoot em true := by
    simp only [forgedRoot, Bool.toNat_false, Bool.toNat_true]
    omega
  have cubes : forgedRoot em false ^ 3 < forgedRoot em true ^ 3 :=
    Nat.pow_lt_pow_left lower (by decide)
  obtain ⟨low, -, -⟩ := forgedRoot_cube em false
  have := sizes.2.1
  rw [forgedModulus, forgedModulus]
  omega

end SyndDB.RiscZero
