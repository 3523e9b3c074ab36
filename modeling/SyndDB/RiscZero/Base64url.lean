import SyndDB.Framework.Text
import SyndDB.RiscZero.KeyBinding

namespace SyndDB.GcpAttestation

open Octets Text

def DECODE_TABLE : List Int :=
  [-1, -1, -1, -1, -1, -1, -1, -1, -1, -1, -1, -1, -1, -1, -1, -1, -1, -1, -1, -1, -1, -1, -1,
   -1, -1, -1, -1, -1, -1, -1, -1, -1, -1, -1, -1, -1, -1, -1, -1, -1, -1, -1, -1, 62, -1, -1,
   -1, 63, 52, 53, 54, 55, 56, 57, 58, 59, 60, 61, -1, -1, -1, -2, -1, -1, -1, 0, 1, 2, 3, 4,
   5, 6, 7, 8, 9, 10, 11, 12, 13, 14, 15, 16, 17, 18, 19, 20, 21, 22, 23, 24, 25, -1, -1, -1,
   -1, -1, -1, 26, 27, 28, 29, 30, 31, 32, 33, 34, 35, 36, 37, 38, 39, 40, 41, 42, 43, 44, 45,
   46, 47, 48, 49, 50, 51, -1, -1, -1, -1, -1]

def tableValue (c : UInt8) : Int := if c < 128 then DECODE_TABLE.getD c.toNat (-1) else -1

/-- The bytes from position `i` on. All four values are looked up before any is checked. -/
def decodeGroups : Bytes → Except String Bytes
  | a :: b :: c :: d :: rest => do
      let va := tableValue a
      let vb := tableValue b
      let vc := tableValue c
      let vd := tableValue d
      if va < 0 ∨ vb < 0 then throw "Invalid base64 character"
      let first := UInt8.ofNat va.toNat <<< 2 ||| UInt8.ofNat vb.toNat >>> 4
      if c ≠ 61 then
        if vc < 0 then throw "Invalid base64 character"
        let second := UInt8.ofNat vb.toNat <<< 4 ||| UInt8.ofNat vc.toNat >>> 2
        if d ≠ 61 then
          if vd < 0 then throw "Invalid base64 character"
          let third := UInt8.ofNat vc.toNat <<< 6 ||| UInt8.ofNat vd.toNat
          return [first, second, third] ++ (← decodeGroups rest)
        return [first, second] ++ (← decodeGroups rest)
      return [first] ++ (← decodeGroups rest)
  | _ => .ok []

def decodeBase64Standard (input : String) : Except String Bytes :=
  let input := utf8 input
  if input.length % 4 ≠ 0 then .error "Invalid base64 length" else decodeGroups input

def decodeBase64url (input : String) : Except String Bytes :=
  let standard := String.ofList
    (input.toList.map fun c => if c = '-' then '+' else if c = '_' then '/' else c)
  match (utf8 standard).length % 4 with
  | 2 => decodeBase64Standard ((standard.push '=').push '=')
  | 3 => decodeBase64Standard (standard.push '=')
  | _ => decodeBase64Standard standard

end SyndDB.GcpAttestation

namespace SyndDB.Bootstrap

open Octets Text

def DECODE_TABLE : List Int :=
  [-1, -1, -1, -1, -1, -1, -1, -1, -1, -1, -1, -1, -1, -1, -1, -1, -1, -1, -1, -1, -1, -1, -1,
   -1, -1, -1, -1, -1, -1, -1, -1, -1, -1, -1, -1, -1, -1, -1, -1, -1, -1, -1, -1, 62, -1, -1,
   -1, 63, 52, 53, 54, 55, 56, 57, 58, 59, 60, 61, -1, -1, -1, -2, -1, -1, -1, 0, 1, 2, 3, 4,
   5, 6, 7, 8, 9, 10, 11, 12, 13, 14, 15, 16, 17, 18, 19, 20, 21, 22, 23, 24, 25, -1, -1, -1,
   -1, -1, -1, 26, 27, 28, 29, 30, 31, 32, 33, 34, 35, 36, 37, 38, 39, 40, 41, 42, 43, 44, 45,
   46, 47, 48, 49, 50, 51, -1, -1, -1, -1, -1]

def tableValue (c : UInt8) : Int := if c < 128 then DECODE_TABLE.getD c.toNat (-1) else -1

/-- A third or fourth character is looked up only where it is used. -/
def decodeGroups : Bytes → Except String Bytes
  | a :: b :: c :: d :: rest => do
      let va := tableValue a
      let vb := tableValue b
      if va < 0 ∨ vb < 0 then throw "Invalid base64 character"
      let first := UInt8.ofNat va.toNat <<< 2 ||| UInt8.ofNat vb.toNat >>> 4
      if c ≠ 61 then
        let vc := tableValue c
        if vc < 0 then throw "Invalid base64 character"
        let second := UInt8.ofNat vb.toNat <<< 4 ||| UInt8.ofNat vc.toNat >>> 2
        if d ≠ 61 then
          let vd := tableValue d
          if vd < 0 then throw "Invalid base64 character"
          let third := UInt8.ofNat vc.toNat <<< 6 ||| UInt8.ofNat vd.toNat
          return [first, second, third] ++ (← decodeGroups rest)
        return [first, second] ++ (← decodeGroups rest)
      return [first] ++ (← decodeGroups rest)
  | _ => .ok []

def base64Decode (input : String) : Except String Bytes :=
  let bytes := utf8 input
  if bytes.length % 4 ≠ 0 then .error "Invalid base64 length" else decodeGroups bytes

def base64urlDecode (input : String) : Except String Bytes :=
  let standard := String.ofList
    (input.toList.map fun c => if c = '-' then '+' else if c = '_' then '/' else c)
  match (utf8 standard).length % 4 with
  | 2 => base64Decode (standard ++ "==")
  | 3 => base64Decode (standard.push '=')
  | _ => base64Decode standard

end SyndDB.Bootstrap

namespace SyndDB.RiscZero

open Octets Text
open SyndDB.Stylus (isUtf8 splitDot base64Value base64Groups base64Decode base64urlDecode)

/-- The standard character for one of the url alphabet. -/
def toStandard (c : UInt8) : UInt8 := if c = 45 then 43 else if c = 95 then 47 else c

/-- What completes the last group of four. -/
def padding (length : Nat) : Bytes :=
  match length % 4 with
  | 2 => [61, 61]
  | 3 => [61]
  | _ => []

theorem base64urlDecode_eq (input : Bytes) :
    base64urlDecode input =
      base64Decode (input.map toStandard ++ padding (input.map toStandard).length) :=
  rfl

/-- The same on characters, as the readers of text do it. -/
def standardChar (c : Char) : Char := if c = '-' then '+' else if c = '_' then '/' else c

theorem utf8_standardChar (c : Char) :
    String.utf8EncodeChar (standardChar c) = (String.utf8EncodeChar c).map toStandard := by
  by_cases minus : c = '-'
  · subst minus
    decide
  by_cases underscore : c = '_'
  · subst underscore
    decide
  rw [standardChar, if_neg minus, if_neg underscore]
  conv_lhs => rw [← List.map_id (String.utf8EncodeChar c)]
  apply List.map_congr_left
  intro b hb
  have other (d : Char) (small : d.toNat < 128) (ne : c ≠ d) : b ≠ UInt8.ofNat d.toNat := by
    rintro rfl
    have value : (UInt8.ofNat d.toNat).toNat = d.toNat :=
      UInt8.toNat_ofNat_of_lt' (by show d.toNat < 256; omega)
    rcases mem_utf8EncodeChar c _ hb with ⟨low, same⟩ | high
    · have numbers := congrArg UInt8.toNat same
      rw [value, UInt8.toNat_ofNat_of_lt' (by show c.toNat < 256; omega)] at numbers
      exact ne (Char.toNat_inj.mp numbers.symm)
    · omega
  have h45 : b ≠ 45 := other '-' (by decide) minus
  have h95 : b ≠ 95 := other '_' (by decide) underscore
  simp [toStandard, h45, h95]

theorem utf8_standard (text : String) :
    utf8 (String.ofList (text.toList.map standardChar)) = (utf8 text).map toStandard := by
  rw [utf8_ofList, utf8_eq, List.map_flatMap, List.flatMap_map]
  exact List.flatMap_congr fun c _ => utf8_standardChar c

theorem gcp_tableValue (c : UInt8) : GcpAttestation.tableValue c = base64Value c := by
  refine byte_of_table c c.toNat_lt ?_
  decide +kernel

theorem gcp_decodeGroups : ∀ input, GcpAttestation.decodeGroups input = base64Groups input
  | [] => rfl
  | [_] => rfl
  | [_, _] => rfl
  | [_, _, _] => rfl
  | a :: b :: c :: d :: rest => by
    simp only [GcpAttestation.decodeGroups, base64Groups, gcp_tableValue, gcp_decodeGroups rest]
    by_cases first : base64Value a < 0 ∨ base64Value b < 0
    · rw [if_pos first, if_pos first]
      rfl
    rw [if_neg first, if_neg first]
    by_cases third : c = 61
    · rw [if_neg (not_not.mpr third), if_pos third]
      rfl
    rw [if_pos third, if_neg third]
    by_cases invalid : base64Value c < 0
    · rw [if_pos invalid, if_pos invalid]
      rfl
    rw [if_neg invalid, if_neg invalid]
    by_cases fourth : d = 61
    · rw [if_neg (not_not.mpr fourth), if_pos fourth]
      rfl
    rw [if_pos fourth, if_neg fourth]
    by_cases last : base64Value d < 0
    · rw [if_pos last, if_pos last]
      rfl
    · rw [if_neg last, if_neg last]
      rfl

/-- Where the values are looked up makes no difference. -/
theorem bootstrap_decodeGroups :
    ∀ input, Bootstrap.decodeGroups input = GcpAttestation.decodeGroups input
  | [] => rfl
  | [_] => rfl
  | [_, _] => rfl
  | [_, _, _] => rfl
  | a :: b :: c :: d :: rest => by
    simp only [Bootstrap.decodeGroups, GcpAttestation.decodeGroups, bootstrap_decodeGroups rest]
    rfl

theorem gcp_decodeBase64Standard (text : String) :
    GcpAttestation.decodeBase64Standard text = base64Decode (utf8 text) := by
  simp only [GcpAttestation.decodeBase64Standard, base64Decode, gcp_decodeGroups]

theorem bootstrap_base64Decode (text : String) :
    Bootstrap.base64Decode text = base64Decode (utf8 text) := by
  simp only [Bootstrap.base64Decode, base64Decode, bootstrap_decodeGroups, gcp_decodeGroups]

theorem utf8_equals : utf8 "=" = [61] ∧ utf8 "==" = [61, 61] := by
  rw [utf8_eq, utf8_eq]
  decide

/-- Both libraries translate the characters of the text. -/
theorem base64urlDecode_utf8 (text : String) :
    let b64 := utf8 (String.ofList (text.toList.map
      fun c => if c = '-' then '+' else if c = '_' then '/' else c))
    base64urlDecode (utf8 text) = base64Decode (b64 ++ padding b64.length) := by
  intro b64
  have standard : b64 = (utf8 text).map toStandard := utf8_standard text
  rw [base64urlDecode_eq, standard]

theorem gcp_decodeBase64url (text : String) :
    GcpAttestation.decodeBase64url text = base64urlDecode (utf8 text) := by
  rw [base64urlDecode_utf8]
  unfold GcpAttestation.decodeBase64url padding
  split
  · rename_i two
    simp [two, gcp_decodeBase64Standard, String.push_eq_append, utf8_append, utf8_equals]
  · rename_i three
    simp [three, gcp_decodeBase64Standard, String.push_eq_append, utf8_append, utf8_equals]
  · simp [gcp_decodeBase64Standard]

theorem bootstrap_base64urlDecode (text : String) :
    Bootstrap.base64urlDecode text = base64urlDecode (utf8 text) := by
  rw [base64urlDecode_utf8]
  unfold Bootstrap.base64urlDecode padding
  split
  · rename_i two
    simp [two, bootstrap_base64Decode, utf8_append, utf8_equals]
  · rename_i three
    simp [three, bootstrap_base64Decode, String.push_eq_append, utf8_append, utf8_equals]
  · simp [bootstrap_base64Decode]

/-- The test helper's alphabet. -/
def TABLE : Bytes := ascii "ABCDEFGHIJKLMNOPQRSTUVWXYZabcdefghijklmnopqrstuvwxyz0123456789-_"

/-- One to three bytes as two to four characters, in the arithmetic of `usize`. -/
def encodeChunk (chunk : Bytes) : Bytes :=
  let b0 := (chunk.getD 0 0).toNat
  let b1 := (chunk.getD 1 0).toNat
  let b2 := (chunk.getD 2 0).toNat
  [TABLE.getD (b0 >>> 2 &&& 0x3f) 0, TABLE.getD ((b0 <<< 4 ||| b1 >>> 4) &&& 0x3f) 0] ++
    (if chunk.length > 1 then [TABLE.getD ((b1 <<< 2 ||| b2 >>> 6) &&& 0x3f) 0] else []) ++
    (if chunk.length > 2 then [TABLE.getD (b2 &&& 0x3f) 0] else [])

def base64urlEncode : Bytes → Bytes
  | [] => []
  | a :: b :: c :: rest => encodeChunk [a, b, c] ++ base64urlEncode rest
  | chunk => encodeChunk chunk

theorem masked (x : Nat) (v : UInt8) (h : v < 64)
    (bits : ∀ i < 6, x.testBit i = v.toNat.testBit i) : x &&& 0x3f = v.toNat := by
  apply Nat.eq_of_testBit_eq
  intro i
  rw [Nat.testBit_and, show 0x3f = 2 ^ 6 - 1 from rfl, Nat.testBit_two_pow_sub_one]
  by_cases low : i < 6
  · simp [low, bits i low]
  · have small : v.toNat < 2 ^ i :=
      Nat.lt_of_lt_of_le (UInt8.lt_iff_toNat_lt.mp h)
        (Nat.pow_le_pow_right (n := 2) (by decide) (show 6 ≤ i by omega))
    simp [low, Nat.testBit_lt_two_pow small]

/-- The indices are the sextets. -/
theorem chunk_indices (a b c : UInt8) :
    a.toNat >>> 2 &&& 0x3f = (a >>> 2).toNat ∧
    (a.toNat <<< 4 ||| b.toNat >>> 4) &&& 0x3f = ((a &&& 3) <<< 4 ||| b >>> 4).toNat ∧
    (b.toNat <<< 2 ||| c.toNat >>> 6) &&& 0x3f = ((b &&& 15) <<< 2 ||| c >>> 6).toNat ∧
    c.toNat &&& 0x3f = (c &&& 63).toNat := by
  have two (i : Nat) : Nat.testBit 3 i = decide (i < 2) := Nat.testBit_two_pow_sub_one 2 i
  have four (i : Nat) : Nat.testBit 15 i = decide (i < 4) := Nat.testBit_two_pow_sub_one 4 i
  have six (i : Nat) : Nat.testBit 63 i = decide (i < 6) := Nat.testBit_two_pow_sub_one 6 i
  obtain ⟨⟨h0, h1, h2, h3⟩, -⟩ := sextets a b c
  refine ⟨masked _ _ h0 ?_, masked _ _ h1 ?_, masked _ _ h2 ?_, masked _ _ h3 ?_⟩
  all_goals
    intro i hi
    simp only [UInt8.toNat_or, UInt8.toNat_and, UInt8.toNat_shiftLeft, UInt8.toNat_shiftRight]
    interval_cases i <;> simp [Nat.testBit_mod_two_pow _ 8, two, four, six]

def urlChar (v : UInt8) : UInt8 := TABLE.getD v.toNat 0

theorem urlChar_spec (v : UInt8) (h : v < 64) :
    toStandard (urlChar v) = base64Char v ∧ urlChar v ≤ 0x7f ∧ urlChar v ≠ 46 ∧ urlChar v ≠ 61 := by
  refine byte_of_table v (UInt8.lt_iff_toNat_lt.mp h) ?_
  decide +kernel

theorem encodeChunk_one (a : UInt8) :
    encodeChunk [a] = [urlChar (a >>> 2), urlChar ((a &&& 3) <<< 4)] := by
  obtain ⟨i0, i1, -, -⟩ := chunk_indices a 0 0
  simp only [show (0 : UInt8) >>> 4 = 0 from rfl, UInt8.or_zero] at i1
  change [TABLE.getD (a.toNat >>> 2 &&& 0x3f) 0,
    TABLE.getD ((a.toNat <<< 4 ||| (0 : UInt8).toNat >>> 4) &&& 0x3f) 0] = _
  rw [i0, i1]
  rfl

theorem encodeChunk_two (a b : UInt8) :
    encodeChunk [a, b] =
      [urlChar (a >>> 2), urlChar ((a &&& 3) <<< 4 ||| b >>> 4), urlChar ((b &&& 15) <<< 2)] := by
  obtain ⟨i0, i1, i2, -⟩ := chunk_indices a b 0
  simp only [show (0 : UInt8) >>> 6 = 0 from rfl, UInt8.or_zero] at i2
  change [TABLE.getD (a.toNat >>> 2 &&& 0x3f) 0,
    TABLE.getD ((a.toNat <<< 4 ||| b.toNat >>> 4) &&& 0x3f) 0,
    TABLE.getD ((b.toNat <<< 2 ||| (0 : UInt8).toNat >>> 6) &&& 0x3f) 0] = _
  rw [i0, i1, i2]
  rfl

theorem encodeChunk_three (a b c : UInt8) :
    encodeChunk [a, b, c] = [urlChar (a >>> 2), urlChar ((a &&& 3) <<< 4 ||| b >>> 4),
      urlChar ((b &&& 15) <<< 2 ||| c >>> 6), urlChar (c &&& 63)] := by
  obtain ⟨i0, i1, i2, i3⟩ := chunk_indices a b c
  change [TABLE.getD (a.toNat >>> 2 &&& 0x3f) 0,
    TABLE.getD ((a.toNat <<< 4 ||| b.toNat >>> 4) &&& 0x3f) 0,
    TABLE.getD ((b.toNat <<< 2 ||| c.toNat >>> 6) &&& 0x3f) 0, TABLE.getD (c.toNat &&& 0x3f) 0] = _
  rw [i0, i1, i2, i3]
  rfl

theorem padding_add_four (n : Nat) : padding (n + 4) = padding n := by
  rw [padding, padding, Nat.add_mod_right]

/-- In the standard alphabet and with padding it is the encoding of the standard. -/
theorem base64urlEncode_standard (bytes : Bytes) :
    (base64urlEncode bytes).map toStandard ++ padding (base64urlEncode bytes).length =
      base64Encode bytes := by
  fun_induction base64Encode bytes with
  | case1 => rfl
  | case2 a =>
    obtain ⟨⟨h0, h1, -, -⟩, -⟩ := sextets a 0 0
    simp only [show (0 : UInt8) >>> 4 = 0 from rfl, UInt8.or_zero] at h1
    rw [show base64urlEncode [a] = encodeChunk [a] from rfl, encodeChunk_one]
    simp [(urlChar_spec _ h0).1, (urlChar_spec _ h1).1, padding]
  | case3 a b =>
    obtain ⟨⟨h0, h1, h2, -⟩, -⟩ := sextets a b 0
    simp only [show (0 : UInt8) >>> 6 = 0 from rfl, UInt8.or_zero] at h2
    rw [show base64urlEncode [a, b] = encodeChunk [a, b] from rfl, encodeChunk_two]
    simp [(urlChar_spec _ h0).1, (urlChar_spec _ h1).1, (urlChar_spec _ h2).1, padding]
  | case4 a b c rest ih =>
    obtain ⟨⟨h0, h1, h2, h3⟩, -⟩ := sextets a b c
    rw [base64urlEncode, encodeChunk_three, ← ih]
    simp [(urlChar_spec _ h0).1, (urlChar_spec _ h1).1, (urlChar_spec _ h2).1,
      (urlChar_spec _ h3).1, padding_add_four]

theorem chunk_cases (chunk : Bytes) (nonempty : chunk = [] → False)
    (short : ∀ a b c rest, chunk = a :: b :: c :: rest → False) :
    (∃ a, chunk = [a]) ∨ ∃ a b, chunk = [a, b] := by
  rcases chunk with - | ⟨a, - | ⟨b, - | ⟨c, rest⟩⟩⟩
  · exact absurd rfl nonempty
  · exact Or.inl ⟨a, rfl⟩
  · exact Or.inr ⟨a, b, rfl⟩
  · exact absurd rfl (short a b c rest)

theorem base64urlEncode_chars (bytes : Bytes) (c : UInt8) (h : c ∈ base64urlEncode bytes) :
    ∃ v < 64, c = urlChar v := by
  fun_induction base64urlEncode bytes with
  | case1 => simp at h
  | case2 a b d rest ih =>
    obtain ⟨⟨h0, h1, h2, h3⟩, -⟩ := sextets a b d
    simp only [encodeChunk_three, List.mem_append, List.mem_cons, List.not_mem_nil, or_false] at h
    rcases h with (rfl | rfl | rfl | rfl) | h
    · exact ⟨_, h0, rfl⟩
    · exact ⟨_, h1, rfl⟩
    · exact ⟨_, h2, rfl⟩
    · exact ⟨_, h3, rfl⟩
    · exact ih h
  | case3 chunk nonempty short =>
    obtain ⟨a, rfl⟩ | ⟨a, b, rfl⟩ := chunk_cases chunk nonempty short
    · obtain ⟨⟨h0, h1, -, -⟩, -⟩ := sextets a 0 0
      simp only [show (0 : UInt8) >>> 4 = 0 from rfl, UInt8.or_zero] at h1
      simp only [encodeChunk_one, List.mem_cons, List.not_mem_nil, or_false] at h
      rcases h with rfl | rfl
      · exact ⟨_, h0, rfl⟩
      · exact ⟨_, h1, rfl⟩
    · obtain ⟨⟨h0, h1, h2, -⟩, -⟩ := sextets a b 0
      simp only [show (0 : UInt8) >>> 6 = 0 from rfl, UInt8.or_zero] at h2
      simp only [encodeChunk_two, List.mem_cons, List.not_mem_nil, or_false] at h
      rcases h with rfl | rfl | rfl
      · exact ⟨_, h0, rfl⟩
      · exact ⟨_, h1, rfl⟩
      · exact ⟨_, h2, rfl⟩

theorem base64urlEncode_plain (bytes : Bytes) (c : UInt8) (h : c ∈ base64urlEncode bytes) :
    c ≤ 0x7f ∧ c ≠ 46 ∧ c ≠ 61 := by
  obtain ⟨v, small, rfl⟩ := base64urlEncode_chars bytes c h
  exact (urlChar_spec v small).2

/-- The reader undoes the encoder. -/
theorem base64urlDecode_urlEncode (bytes : Bytes) :
    base64urlDecode (base64urlEncode bytes) = .ok bytes := by
  rw [base64urlDecode_eq, List.length_map, base64urlEncode_standard, base64Decode,
    if_neg (not_not.mpr (length_base64Encode bytes)), base64Groups_encode]

theorem parseJwt_urlEncoded (header payload signature : Bytes) :
    Stylus.parseJwt (base64urlEncode header ++
        46 :: (base64urlEncode payload ++ 46 :: base64urlEncode signature)) =
      .ok ⟨header, payload, signature, base64urlEncode header ++
        46 :: base64urlEncode payload⟩ := by
  have noDot (bytes : Bytes) : 46 ∉ base64urlEncode bytes :=
    fun member => (base64urlEncode_plain bytes 46 member).2.1 rfl
  have text : isUtf8 (base64urlEncode header ++
      46 :: (base64urlEncode payload ++ 46 :: base64urlEncode signature)) = true := by
    apply isUtf8_ascii
    intro c hc
    simp only [List.mem_append, List.mem_cons] at hc
    rcases hc with member | rfl | member | rfl | member
    · exact (base64urlEncode_plain _ c member).1
    · decide
    · exact (base64urlEncode_plain _ c member).1
    · decide
    · exact (base64urlEncode_plain _ c member).1
  simp only [Stylus.parseJwt, text, splitDot_append _ _ (noDot _), base64urlDecode_urlEncode,
    Bool.not_true, Bool.false_eq_true, if_false, Outcome.ok_bind]
  rfl

/-- An encoded token is taken apart into what was encoded, and the three readers give one
answer on every text. -/
theorem tokens_parsed_and_readers_agree :
    (∀ header payload signature : Bytes,
      Stylus.parseJwt (base64urlEncode header ++
          46 :: (base64urlEncode payload ++ 46 :: base64urlEncode signature)) =
        .ok ⟨header, payload, signature, base64urlEncode header ++ 46 :: base64urlEncode payload⟩) ∧
    ∀ text : String,
      GcpAttestation.decodeBase64url text = Stylus.base64urlDecode (utf8 text) ∧
      Bootstrap.base64urlDecode text = Stylus.base64urlDecode (utf8 text) :=
  ⟨parseJwt_urlEncoded, fun text => ⟨gcp_decodeBase64url text, bootstrap_base64urlDecode text⟩⟩

end SyndDB.RiscZero
