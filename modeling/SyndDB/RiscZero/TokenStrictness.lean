import SyndDB.RiscZero.Base64url
import SyndDB.RiscZero.DropIn
import Mathlib.Data.List.DropRight

namespace SyndDB.RiscZero

open Octets
open SyndDB.Stylus (isUtf8 splitDot base64Value base64Groups base64Decode base64urlDecode)

/-- An encoding of some bytes, without padding or with all of it. -/
def Encoding (text : Bytes) : Prop :=
  ∃ bytes, text = base64urlEncode bytes ∨
    text = base64urlEncode bytes ++ padding (base64urlEncode bytes).length

def unpadded (text : Bytes) : Bytes := text.rdropWhile (· = 61)

/-- The bits of the last character that no byte takes. -/
def spareBits : Bytes → Nat
  | [_, b] => (base64Value (toStandard b)).toNat % 16
  | [_, _, c] => (base64Value (toStandard c)).toNat % 4
  | _ :: _ :: _ :: _ :: rest => spareBits rest
  | _ => 0

/-- No `+` or `/`, no `=` but in final padding, which then completes a group of four, and
no spare bit set. -/
structure Regular (text : Bytes) : Prop where
  urlAlphabet : 43 ∉ text ∧ 47 ∉ text
  equalsLast : 61 ∉ unpadded text
  complete : unpadded text ≠ text → text.length % 4 = 0
  noSpareBits : spareBits (unpadded text) = 0

instance (text : Bytes) : Decidable (Regular text) :=
  decidable_of_iff ((43 ∉ text ∧ 47 ∉ text) ∧ 61 ∉ unpadded text ∧
      (unpadded text ≠ text → text.length % 4 = 0) ∧ spareBits (unpadded text) = 0)
    ⟨fun h => ⟨h.1, h.2.1, h.2.2.1, h.2.2.2⟩, fun h => ⟨h.1, h.2, h.3, h.4⟩⟩

theorem toStandard_eq (c : UInt8) : (toStandard c = 61 ↔ c = 61) ∧
    (toStandard c = 46 ↔ c = 46) := by
  refine byte_of_table c c.toNat_lt ?_
  decide +kernel

/-- A character with a value, outside the standard alphabet's two, is the url character of it. -/
theorem urlChar_value (c : UInt8) (h : ¬base64Value (toStandard c) < 0) (plus : c ≠ 43)
    (slash : c ≠ 47) :
    ∃ v < 64, c = urlChar v ∧ base64Value (toStandard c) = v.toNat := by
  have entry : ¬base64Value (toStandard c) < 0 → c ≠ 43 → c ≠ 47 →
      UInt8.ofNat (base64Value (toStandard c)).toNat < 64 ∧
        c = urlChar (UInt8.ofNat (base64Value (toStandard c)).toNat) ∧
        base64Value (toStandard c) = (UInt8.ofNat (base64Value (toStandard c)).toNat).toNat := by
    refine byte_of_table c c.toNat_lt ?_
    decide +kernel
  exact ⟨_, entry h plus slash⟩

/-- Three bytes of four sextets, and the sextets taken out again. -/
theorem sextets_again (va vb vc vd : UInt8) (ha : va < 64) (hb : vb < 64) (hc : vc < 64)
    (hd : vd < 64) :
    (va <<< 2 ||| vb >>> 4) >>> 2 = va ∧
    ((va <<< 2 ||| vb >>> 4) &&& 3) <<< 4 ||| (vb <<< 4 ||| vc >>> 2) >>> 4 = vb ∧
    ((vb <<< 4 ||| vc >>> 2) &&& 15) <<< 2 ||| (vc <<< 6 ||| vd) >>> 6 = vc ∧
    (vc <<< 6 ||| vd) &&& 63 = vd := by
  have cut (v : UInt8) (h : v < 64) : ∃ w, v = w &&& 63 := by
    refine ⟨v, UInt8.toNat_inj.mp ?_⟩
    rw [UInt8.toNat_and]
    exact (Nat.and_two_pow_sub_one_of_lt_two_pow (n := 6) (UInt8.lt_iff_toNat_lt.mp h)).symm
  obtain ⟨va, rfl⟩ := cut va ha
  obtain ⟨vb, rfl⟩ := cut vb hb
  obtain ⟨vc, rfl⟩ := cut vc hc
  obtain ⟨vd, rfl⟩ := cut vd hd
  refine ⟨?_, ?_, ?_, ?_⟩
  all_goals
    apply UInt8.toBitVec_inj.mp
    ext i hi
    interval_cases i <;> simp

/-- What an accepted group has been checked for. -/
theorem base64Groups_four_ok (a b c d : UInt8) (rest bytes : Bytes)
    (h : base64Groups (a :: b :: c :: d :: rest) = .ok bytes) :
    (¬base64Value a < 0 ∧ ¬base64Value b < 0 ∧
      (c ≠ 61 → ¬base64Value c < 0 ∧ (d ≠ 61 → ¬base64Value d < 0))) ∧
    ∃ more, base64Groups rest = .ok more := by
  simp only [base64Groups, Outcome.throw_bind, Outcome.guard_ok, not_or] at h
  obtain ⟨⟨ha, hb⟩, h⟩ := h
  by_cases third : c = 61
  · rw [if_pos third, Outcome.bind_ok] at h
    obtain ⟨more, hmore, -⟩ := h
    exact ⟨⟨ha, hb, fun other => absurd third other⟩, more, hmore⟩
  rw [if_neg third, Outcome.guard_ok] at h
  obtain ⟨hc, h⟩ := h
  by_cases fourth : d = 61
  · rw [if_pos fourth, Outcome.bind_ok] at h
    obtain ⟨more, hmore, -⟩ := h
    exact ⟨⟨ha, hb, fun _ => ⟨hc, fun other => absurd fourth other⟩⟩, more, hmore⟩
  · rw [if_neg fourth, Outcome.guard_ok, Outcome.bind_ok] at h
    obtain ⟨hd, more, hmore, -⟩ := h
    exact ⟨⟨ha, hb, fun _ => ⟨hc, fun _ => hd⟩⟩, more, hmore⟩

/-- A group does not begin with `=`. -/
theorem no_more_equals (k : Nat) (bytes : Bytes) (whole : k % 4 = 0)
    (h : base64Groups (List.replicate k 61) = .ok bytes) : k = 0 := by
  by_contra positive
  obtain ⟨k, rfl⟩ : ∃ i, k = i + 4 := ⟨k - 4, by omega⟩
  obtain ⟨⟨first, -⟩, -⟩ := base64Groups_four_ok 61 61 61 61 (List.replicate k 61) bytes h
  exact first (by decide)

theorem spareBits_of_char (v : UInt8) (h : v < 64) :
    (v.toNat % 16 = 0 → v <<< 4 = 0) ∧ (v.toNat % 4 = 0 → v <<< 6 = 0) := by
  refine byte_of_table v (UInt8.lt_iff_toNat_lt.mp h) ?_
  decide +kernel

/-- Accepted groups without the leniencies are those of an encoding. -/
theorem encoding_of_groups : ∀ (body : Bytes) (k : Nat) (bytes : Bytes),
    61 ∉ body → 43 ∉ body → 47 ∉ body → spareBits body = 0 → (body.length + k) % 4 = 0 →
    base64Groups (body.map toStandard ++ List.replicate k 61) = .ok bytes →
    (∃ source, body = base64urlEncode source) ∧ List.replicate k 61 = padding body.length
  | [], k, bytes, _, _, _, _, whole, h => by
    have none := no_more_equals k bytes (by simpa using whole) h
    subst none
    exact ⟨⟨[], rfl⟩, rfl⟩
  | [a], k, bytes, _, _, _, _, whole, h => by
    obtain ⟨k, rfl⟩ : ∃ i, k = i + 3 := ⟨k - 3, by simp at whole; omega⟩
    obtain ⟨⟨-, second, -⟩, -⟩ :=
      base64Groups_four_ok (toStandard a) 61 61 61 (List.replicate k 61) bytes h
    exact absurd (by decide) second
  | [a, b], k, bytes, _, plus, slash, spare, whole, h => by
    obtain ⟨k, rfl⟩ : ∃ i, k = i + 2 := ⟨k - 2, by simp at whole; omega⟩
    obtain ⟨⟨ha, hb, -⟩, more, rest⟩ :=
      base64Groups_four_ok (toStandard a) (toStandard b) 61 61 (List.replicate k 61) bytes h
    have none := no_more_equals k more (by simp at whole; omega) rest
    subst none
    obtain ⟨va, sa, rfl, -⟩ := urlChar_value a ha (by grind) (by grind)
    obtain ⟨vb, sb, rfl, value⟩ := urlChar_value b hb (by grind) (by grind)
    rw [spareBits, value, Int.toNat_natCast] at spare
    obtain ⟨first, second, -⟩ := sextets_again va vb 0 0 sa sb (by decide) (by decide)
    rw [(spareBits_of_char vb sb).1 spare] at second
    refine ⟨⟨[va <<< 2 ||| vb >>> 4], ?_⟩, rfl⟩
    have zero : (0 : UInt8) >>> 2 = 0 := rfl
    rw [zero, UInt8.or_zero, show (0 : UInt8) >>> 4 = 0 from rfl, UInt8.or_zero] at second
    rw [show base64urlEncode [va <<< 2 ||| vb >>> 4] = encodeChunk [va <<< 2 ||| vb >>> 4] from rfl,
      encodeChunk_one, first, second]
  | [a, b, c], k, bytes, equals, plus, slash, spare, whole, h => by
    obtain ⟨k, rfl⟩ : ∃ i, k = i + 1 := ⟨k - 1, by simp at whole; omega⟩
    obtain ⟨⟨ha, hb, hc⟩, more, rest⟩ :=
      base64Groups_four_ok (toStandard a) (toStandard b) (toStandard c) 61
        (List.replicate k 61) bytes h
    have none := no_more_equals k more (by simp at whole; omega) rest
    subst none
    have third := (hc fun same => equals (by simp [(toStandard_eq c).1.mp same])).1
    obtain ⟨va, sa, rfl, -⟩ := urlChar_value a ha (by grind) (by grind)
    obtain ⟨vb, sb, rfl, -⟩ := urlChar_value b hb (by grind) (by grind)
    obtain ⟨vc, sc, rfl, value⟩ := urlChar_value c third (by grind) (by grind)
    rw [spareBits, value, Int.toNat_natCast] at spare
    obtain ⟨first, second, third, -⟩ := sextets_again va vb vc 0 sa sb sc (by decide)
    rw [(spareBits_of_char vc sc).2 spare] at third
    rw [show ((0 : UInt8) ||| 0) >>> 6 = 0 from rfl, UInt8.or_zero] at third
    refine ⟨⟨[va <<< 2 ||| vb >>> 4, vb <<< 4 ||| vc >>> 2], ?_⟩, rfl⟩
    rw [show base64urlEncode [va <<< 2 ||| vb >>> 4, vb <<< 4 ||| vc >>> 2] =
      encodeChunk [va <<< 2 ||| vb >>> 4, vb <<< 4 ||| vc >>> 2] from rfl, encodeChunk_two,
      first, second,
      third]
  | a :: b :: c :: d :: rest, k, bytes, equals, plus, slash, spare, whole, h => by
    rw [List.map_cons, List.map_cons, List.map_cons, List.map_cons, List.cons_append,
      List.cons_append, List.cons_append, List.cons_append] at h
    obtain ⟨⟨ha, hb, hc⟩, more, hmore⟩ := base64Groups_four_ok _ _ _ _ _ bytes h
    obtain ⟨third, hd⟩ := hc fun same => equals (by simp [(toStandard_eq c).1.mp same])
    have fourth := hd fun same => equals (by simp [(toStandard_eq d).1.mp same])
    obtain ⟨⟨source, rfl⟩, padded⟩ :=
      encoding_of_groups rest k more (by grind) (by grind) (by grind)
      spare (by simp only [List.length_cons] at whole; omega) hmore
    obtain ⟨va, sa, rfl, -⟩ := urlChar_value a ha (by grind) (by grind)
    obtain ⟨vb, sb, rfl, -⟩ := urlChar_value b hb (by grind) (by grind)
    obtain ⟨vc, sc, rfl, -⟩ := urlChar_value c third (by grind) (by grind)
    obtain ⟨vd, sd, rfl, -⟩ := urlChar_value d fourth (by grind) (by grind)
    obtain ⟨h0, h1, h2, h3⟩ := sextets_again va vb vc vd sa sb sc sd
    refine ⟨⟨(va <<< 2 ||| vb >>> 4) :: (vb <<< 4 ||| vc >>> 2) :: (vc <<< 6 ||| vd) :: source, ?_⟩,
      ?_⟩
    · rw [base64urlEncode, encodeChunk_three, h0, h1, h2, h3]
      rfl
    · rw [padded]
      exact (padding_add_four _).symm

theorem unpadded_append (body : Bytes) (k : Nat) (h : 61 ∉ body) :
    unpadded (body ++ List.replicate k 61) = body := by
  induction k with
  | zero =>
    rw [List.replicate_zero, List.append_nil, unpadded, List.rdropWhile_eq_self_iff]
    intro nonempty last
    exact h (by simpa using (of_decide_eq_true last) ▸ List.getLast_mem nonempty)
  | succ k ih =>
    rw [List.replicate_succ', ← List.append_assoc, unpadded,
      List.rdropWhile_concat_pos _ _ _ (by simp)]
    exact ih

theorem unpadded_split (text : Bytes) : ∃ k, text = unpadded text ++ List.replicate k 61 := by
  refine ⟨(text.rtakeWhile (· = 61)).length, ?_⟩
  have equals : text.rtakeWhile (· = 61) = List.replicate (text.rtakeWhile (· = 61)).length 61 := by
    apply List.eq_replicate_of_mem
    intro c hc
    simpa using List.mem_rtakeWhile_imp hc
  rw [← equals]
  exact List.rdropWhile_append_rtakeWhile.symm

theorem padding_replicate (n : Nat) : ∃ k, padding n = List.replicate k 61 := by
  unfold padding
  split
  · exact ⟨2, rfl⟩
  · exact ⟨1, rfl⟩
  · exact ⟨0, rfl⟩

theorem padding_whole (n : Nat) (h : n % 4 = 0) : padding n = [] := by
  simp [padding, h]

theorem padding_standard (n : Nat) : (padding n).map toStandard = padding n := by
  obtain ⟨k, same⟩ := padding_replicate n
  rw [same, List.map_replicate]
  rfl

theorem spareBits_encode (bytes : Bytes) : spareBits (base64urlEncode bytes) = 0 := by
  have value (v : UInt8) (h : v < 64) : (base64Value (toStandard (urlChar v))).toNat = v.toNat := by
    rw [(urlChar_spec v h).1, (base64Char_spec v h).1, Int.toNat_natCast]
  fun_induction base64urlEncode bytes with
  | case1 => rfl
  | case2 a b c rest ih =>
    rw [encodeChunk_three]
    exact ih
  | case3 chunk nonempty short =>
    obtain ⟨a, rfl⟩ | ⟨a, b, rfl⟩ := chunk_cases chunk nonempty short
    · obtain ⟨⟨-, h1, -, -⟩, -⟩ := sextets a 0 0
      simp only [show (0 : UInt8) >>> 4 = 0 from rfl, UInt8.or_zero] at h1
      rw [encodeChunk_one, spareBits, value _ h1, UInt8.toNat_shiftLeft, Nat.shiftLeft_eq]
      change (_ * 16) % 256 % 16 = 0
      omega
    · obtain ⟨⟨-, -, h2, -⟩, -⟩ := sextets a b 0
      simp only [show (0 : UInt8) >>> 6 = 0 from rfl, UInt8.or_zero] at h2
      rw [encodeChunk_two, spareBits, value _ h2, UInt8.toNat_shiftLeft, Nat.shiftLeft_eq]
      change (_ * 4) % 256 % 4 = 0
      omega

theorem decode_encoding (text bytes : Bytes)
    (h : text = base64urlEncode bytes ∨
      text = base64urlEncode bytes ++ padding (base64urlEncode bytes).length) :
    base64urlDecode text = .ok bytes ∧ unpadded text = base64urlEncode bytes := by
  have noEquals : 61 ∉ base64urlEncode bytes :=
    fun member => (base64urlEncode_plain bytes 61 member).2.2 rfl
  rcases h with rfl | rfl
  · refine ⟨base64urlDecode_urlEncode bytes, ?_⟩
    simpa using unpadded_append (base64urlEncode bytes) 0 noEquals
  · refine ⟨?_, ?_⟩
    · rw [base64urlDecode_eq, List.map_append, padding_standard, base64urlEncode_standard,
        padding_whole _ (length_base64Encode bytes), List.append_nil, base64Decode,
        if_neg (not_not.mpr (length_base64Encode bytes)), base64Groups_encode]
    · obtain ⟨k, same⟩ := padding_replicate (base64urlEncode bytes).length
      rw [same]
      exact unpadded_append _ k noEquals

theorem urlChar_alphabet (v : UInt8) (h : v < 64) : urlChar v ≠ 43 ∧ urlChar v ≠ 47 := by
  refine byte_of_table v (UInt8.lt_iff_toNat_lt.mp h) ?_
  decide +kernel

theorem regular_of_encoding (text : Bytes) (h : Encoding text) : Regular text := by
  obtain ⟨bytes, form⟩ := h
  obtain ⟨-, stripped⟩ := decode_encoding text bytes form
  have alphabet (c : UInt8) (hc : c ∈ text) : c ≠ 43 ∧ c ≠ 47 := by
    have either : c ∈ base64urlEncode bytes ∨ c = 61 := by
      rcases form with rfl | rfl
      · exact Or.inl hc
      · obtain ⟨k, same⟩ := padding_replicate (base64urlEncode bytes).length
        rw [same, List.mem_append, List.mem_replicate] at hc
        exact hc.imp_right And.right
    rcases either with member | rfl
    · obtain ⟨v, small, rfl⟩ := base64urlEncode_chars bytes c member
      exact urlChar_alphabet v small
    · decide
  refine ⟨⟨fun plus => (alphabet 43 plus).1 rfl, fun slash => (alphabet 47 slash).2 rfl⟩,
    ?_, ?_, ?_⟩
  · rw [stripped]
    exact fun member => (base64urlEncode_plain bytes 61 member).2.2 rfl
  · intro longer
    rw [stripped] at longer
    rcases form with rfl | rfl
    · exact absurd rfl longer
    · rw [← length_base64Encode bytes, ← base64urlEncode_standard]
      simp
  · rw [stripped]
    exact spareBits_encode bytes

theorem encoding_of_regular (text bytes : Bytes) (h : base64urlDecode text = .ok bytes)
    (regular : Regular text) : Encoding text := by
  obtain ⟨k, split⟩ := unpadded_split text
  obtain ⟨⟨plus, slash⟩, equals, complete, spare⟩ := regular
  generalize unpadded text = body at *
  have clean : 43 ∉ body ∧ 47 ∉ body := by
    rw [split] at plus slash
    exact ⟨fun member => plus (List.mem_append_left _ member), fun member =>
      slash (List.mem_append_left _ member)⟩
  rw [base64urlDecode_eq, base64Decode, Outcome.guard_ok, List.length_append, List.length_map,
    not_not] at h
  obtain ⟨whole, h⟩ := h
  by_cases same : body = text
  · subst same
    obtain ⟨k, padded⟩ := padding_replicate body.length
    rw [padded] at whole h
    rw [List.length_replicate] at whole
    obtain ⟨⟨source, encoded⟩, -⟩ :=
      encoding_of_groups body k bytes equals clean.1 clean.2 spare whole h
    exact ⟨source, Or.inl encoded⟩
  · have four := complete same
    rw [padding_whole _ four, List.append_nil, split, List.map_append, List.map_replicate] at h
    rw [split, List.length_append, List.length_replicate] at four
    obtain ⟨⟨source, encoded⟩, padded⟩ :=
      encoding_of_groups body k bytes equals clean.1 clean.2 spare four h
    refine ⟨source, Or.inr ?_⟩
    rw [split, padded, encoded]

theorem encoding_iff (text bytes : Bytes) (h : base64urlDecode text = .ok bytes) :
    Encoding text ↔ Regular text :=
  ⟨regular_of_encoding text, encoding_of_regular text bytes h⟩

/-- Up to final padding there is one encoding. -/
theorem unpadded_of_encoding (text bytes : Bytes) (h : base64urlDecode text = .ok bytes)
    (encoding : Encoding text) : unpadded text = base64urlEncode bytes := by
  obtain ⟨source, form⟩ := encoding
  obtain ⟨decoded, stripped⟩ := decode_encoding text source form
  obtain rfl := Except.ok.inj (h.symm.trans decoded)
  exact stripped

/-- What follows the second dot. -/
def signaturePart (token : Bytes) : Option Bytes :=
  (splitDot token).bind fun first => (splitDot first.2).map Prod.snd

/-- A dot in the place where no character is looked at: the fourth of a group that ends with its
third one, a `=`. -/
def HiddenDot (signature : Bytes) : Prop :=
  ∃ i, signature[4 * i + 2]? = some 61 ∧ signature[4 * i + 3]? = some 46

/-- A dot passes the reader only there. -/
theorem dot_hidden : ∀ (text bytes : Bytes), base64Groups text = .ok bytes → text.length % 4 = 0 →
    46 ∈ text → ∃ i, text[4 * i + 2]? = some 61 ∧ text[4 * i + 3]? = some 46
  | [], _, _, _, member => by simp at member
  | [_], _, _, whole, _ => by simp at whole
  | [_, _], _, _, whole, _ => by simp at whole
  | [_, _, _], _, _, whole, _ => by simp at whole
  | a :: b :: c :: d :: rest, bytes, h, whole, member => by
    obtain ⟨⟨ha, hb, hc⟩, more, hmore⟩ := base64Groups_four_ok a b c d rest bytes h
    have invalid : base64Value 46 < 0 := by decide
    by_cases later : 46 ∈ rest
    · obtain ⟨i, equals, dot⟩ := dot_hidden rest more hmore
        (by simp only [List.length_cons] at whole; omega) later
      exact ⟨i + 1, equals, dot⟩
    · have fourth : c = 61 ∧ d = 46 := by
        simp only [List.mem_cons, later, or_false] at member
        grind
      exact ⟨0, congrArg some fourth.1, congrArg some fourth.2⟩

theorem hiddenDot_iff (signature bytes : Bytes) (h : base64urlDecode signature = .ok bytes) :
    46 ∈ signature ↔ HiddenDot signature := by
  constructor
  · intro member
    rw [base64urlDecode_eq, base64Decode, Outcome.guard_ok, not_not] at h
    obtain ⟨whole, h⟩ := h
    have mapped : 46 ∈ signature.map toStandard := List.mem_map.mpr ⟨46, member, by decide⟩
    obtain ⟨i, equals, dot⟩ := dot_hidden _ bytes h whole (List.mem_append_left _ mapped)
    have inside : 4 * i + 3 < (signature.map toStandard).length := by
      by_contra outside
      rw [List.getElem?_append_right (by omega)] at dot
      obtain ⟨k, same⟩ := padding_replicate (signature.map toStandard).length
      rw [same] at dot
      have := List.eq_of_mem_replicate (List.mem_of_getElem? dot)
      exact absurd this (by decide)
    rw [List.getElem?_append_left (by omega), List.getElem?_map, Option.map_eq_some_iff]
      at equals dot
    obtain ⟨c, hc, third⟩ := equals
    obtain ⟨d, hd, fourth⟩ := dot
    refine ⟨i, ?_, ?_⟩
    · rw [hc, (toStandard_eq c).1.mp third]
    · rw [hd, (toStandard_eq d).2.mp fourth]
  · intro given
    obtain ⟨i, -, dot⟩ := given
    exact List.mem_of_getElem? dot

theorem splitDot_some (text before after : Bytes) (h : splitDot text = some (before, after)) :
    text = before ++ 46 :: after ∧ 46 ∉ before := by
  induction text generalizing before with
  | nil => cases h
  | cons c text ih =>
    rw [splitDot] at h
    by_cases dot : c = 46
    · rw [if_pos dot] at h
      cases h
      simp [dot]
    · rw [if_neg dot, Option.map_eq_some_iff] at h
      obtain ⟨⟨first, rest⟩, found, same⟩ := h
      cases same
      obtain ⟨split, clean⟩ := ih first found
      refine ⟨by rw [split]; rfl, ?_⟩
      simp [clean, Ne.symm dot]

/-- A token that the contract takes apart has two dots and those of its signature part. -/
theorem dots_of_token (token : Bytes) (jwt : Stylus.ParsedJwt)
    (h : Stylus.parseJwt token = .ok jwt) :
    ∃ signature bytes, signaturePart token = some signature ∧ base64urlDecode signature =
      .ok bytes ∧ token.count 46 = 2 + signature.count 46 ∧
      ((splitParts token).isSome = true ↔ 46 ∉ signature) := by
  obtain ⟨-, header, rest, payload, signature, first, second, -, -, decoded, -⟩ :=
    cut_ok token jwt h
  obtain ⟨split, noDot⟩ := splitDot_some token header rest first
  obtain ⟨splitRest, noDotRest⟩ := splitDot_some rest payload signature second
  refine ⟨signature, jwt.signature, by simp [signaturePart, first, second], decoded, ?_, ?_⟩
  · rw [split, splitRest, List.count_append, List.count_cons_self, List.count_append,
      List.count_cons_self, List.count_eq_zero.mpr noDot, List.count_eq_zero.mpr noDotRest]
    omega
  · simp [splitParts, first, second]

/-- Accepted texts are encodings, and differ in what they decode to, exactly if they are
regular; and an accepted token has the three parts of the library exactly if no dot hides in
its signature part. -/
theorem strictness_iff (x y token : Bytes) :
    (∀ bytesX bytesY : Bytes, base64urlDecode x = .ok bytesX → base64urlDecode y = .ok bytesY →
      (Encoding x ∧ Encoding y ∧ (bytesX = bytesY → unpadded x = unpadded y) ↔
        Regular x ∧ Regular y)) ∧
    ∀ jwt : Stylus.ParsedJwt, Stylus.parseJwt token = .ok jwt →
      (token.count 46 = 2 ∧ (splitParts token).isSome = true ↔
        ∀ signature ∈ signaturePart token, ¬HiddenDot signature) := by
  refine ⟨?_, ?_⟩
  · intro bytesX bytesY hx hy
    rw [encoding_iff x bytesX hx, encoding_iff y bytesY hy, ← and_assoc, and_iff_left_iff_imp]
    rintro ⟨regularX, regularY⟩ rfl
    rw [unpadded_of_encoding x bytesX hx ((encoding_iff x bytesX hx).mpr regularX),
      unpadded_of_encoding y bytesX hy ((encoding_iff y bytesX hy).mpr regularY)]
  · intro jwt h
    obtain ⟨signature, bytes, part, decoded, count, parts⟩ := dots_of_token token jwt h
    have shown : (∀ s ∈ signaturePart token, ¬HiddenDot s) ↔ 46 ∉ signature := by
      rw [part, hiddenDot_iff signature bytes decoded]
      simp
    rw [shown, parts, count]
    constructor
    · exact And.right
    · intro none
      refine ⟨?_, none⟩
      rw [List.count_eq_zero.mpr none]

theorem strictness_iff_plain :
    (Encoding (ascii "QUE") ∧ Encoding (ascii "QUE=")) ∧
    (ascii "QQ.QUE.QUFB").count 46 = 2 ∧ (splitParts (ascii "QQ.QUE.QUFB")).isSome = true := by
  have strict := strictness_iff (ascii "QUE") (ascii "QUE=") (ascii "QQ.QUE.QUFB")
  have texts := strict.1 [65, 65] [65, 65] (by decide +kernel) (by decide +kernel)
  have token := strict.2 ⟨[65], [65, 65], [65, 65, 65], ascii "QQ.QUE"⟩ (by decide +kernel)
  obtain ⟨first, second, -⟩ := texts.mpr (by decide +kernel)
  refine ⟨⟨first, second⟩, token.mpr ?_⟩
  intro signature part
  have same : signaturePart (ascii "QQ.QUE.QUFB") = some (ascii "QUFB") := by decide +kernel
  obtain rfl := Option.some.inj (same.symm.trans part)
  rw [← hiddenDot_iff _ [65, 65, 65] (by decide +kernel)]
  decide

/-- `QQ=.` is accepted, `QQ` and `QR` decode to the same byte, and a token has a third dot. -/
theorem lenient_texts :
    (¬∀ text bytes : Bytes, base64urlDecode text = .ok bytes → Encoding text) ∧
    (¬∀ x y bytes : Bytes, base64urlDecode x = .ok bytes → base64urlDecode y = .ok bytes →
      unpadded x = unpadded y) ∧
    ¬∀ (token : Bytes) (jwt : Stylus.ParsedJwt), Stylus.parseJwt token = .ok jwt →
      token.count 46 = 2 ∧ (splitParts token).isSome = true := by
  refine ⟨?_, ?_, ?_⟩
  · intro strict
    have accepted : base64urlDecode (ascii "QQ=.") = .ok [65] := by decide +kernel
    have regular := (encoding_iff _ _ accepted).mp (strict _ _ accepted)
    exact absurd regular (by decide +kernel)
  · intro injective
    have same := injective (ascii "QQ") (ascii "QR") [65] (by decide +kernel) (by decide +kernel)
    exact absurd same (by decide +kernel)
  · intro two
    have dots := two (ascii "QQ.QUE.QQ=.") ⟨[65], [65, 65], [65], ascii "QQ.QUE"⟩
      (by decide +kernel)
    exact absurd dots.1 (by decide +kernel)

end SyndDB.RiscZero
