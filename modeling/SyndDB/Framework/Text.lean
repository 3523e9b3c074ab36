import SyndDB.Framework.Octets
import SyndDB.Framework.Outcome

namespace Text

open Octets

/-- White space as Unicode defines it, `char::is_whitespace`. -/
def isWhitespace (c : Char) : Bool :=
  (9 ≤ c.toNat && c.toNat ≤ 13) || (0x2000 ≤ c.toNat && c.toNat ≤ 0x200a) ||
    [0x20, 0x85, 0xa0, 0x1680, 0x2028, 0x2029, 0x202f, 0x205f, 0x3000].contains c.toNat

/-- `str::trim` -/
def trim (s : List Char) : List Char :=
  ((s.dropWhile isWhitespace).reverse.dropWhile isWhitespace).reverse

/-- `str::contains` -/
def contains (text part : String) : Bool :=
  text.toList.tails.any fun rest => part.toList.isPrefixOf rest

/-- `as_bytes` -/
def utf8 (s : String) : Bytes := s.toByteArray.data.toList

theorem utf8_append (s t : String) : utf8 (s ++ t) = utf8 s ++ utf8 t := by
  simp [utf8]

theorem utf8_ofList (cs : List Char) : utf8 (String.ofList cs) =
    cs.flatMap String.utf8EncodeChar := by
  simp [utf8, List.utf8Encode]

theorem utf8_eq (s : String) : utf8 s = s.toList.flatMap String.utf8EncodeChar := by
  rw [← utf8_ofList, String.ofList_toList]

/-- A byte below 128 is a character of its own. -/
theorem mem_utf8EncodeChar (c : Char) (b : UInt8) (h : b ∈ String.utf8EncodeChar c) :
    c.toNat < 128 ∧ b = UInt8.ofNat c.toNat ∨ 128 ≤ b.toNat := by
  have value : c.val.toNat = c.toNat := rfl
  have high (n : Nat) (small : n < 128) : 128 ≤ (UInt8.ofNat (n + 128)).toNat := by
    rw [UInt8.toNat_ofNat_of_lt' (by show n + 128 < 256; omega)]
    omega
  simp only [String.utf8EncodeChar, value] at h
  split at h
  · rename_i small
    exact Or.inl ⟨by omega, List.mem_singleton.mp h⟩
  · right
    split at h
    · simp only [List.mem_cons, List.not_mem_nil, or_false] at h
      rcases h with rfl | rfl
      · exact high (c.toNat / 64 % 32 + 64) (by omega)
      · exact high (c.toNat % 64) (by omega)
    · split at h
      · simp only [List.mem_cons, List.not_mem_nil, or_false] at h
        rcases h with rfl | rfl | rfl
        · exact high (c.toNat / 4096 % 16 + 96) (by omega)
        · exact high (c.toNat / 64 % 64) (by omega)
        · exact high (c.toNat % 64) (by omega)
      · simp only [List.mem_cons, List.not_mem_nil, or_false] at h
        rcases h with rfl | rfl | rfl | rfl
        · exact high (c.toNat / 262144 % 8 + 112) (by omega)
        · exact high (c.toNat / 4096 % 64) (by omega)
        · exact high (c.toNat / 64 % 64) (by omega)
        · exact high (c.toNat % 64) (by omega)

/-- Below 128 the bytes are the characters. -/
theorem utf8_ascii (cs : List Char) (h : ∀ c ∈ cs, c.toNat < 128) :
    utf8 (String.ofList cs) = cs.map fun c => UInt8.ofNat c.toNat := by
  have single (c : Char) (small : c.toNat < 128) :
      String.utf8EncodeChar c = [UInt8.ofNat c.toNat] := by
    have value : c.val.toNat = c.toNat := rfl
    rw [String.utf8EncodeChar, value]
    exact if_pos (by omega)
  rw [utf8_ofList]
  induction cs with
  | nil => rfl
  | cons c cs ih =>
    rw [List.flatMap_cons, List.map_cons, single c (h c List.mem_cons_self),
      ih fun d hd => h d (List.mem_cons_of_mem c hd)]
    rfl

inductive FromHexError where
  | OddLength
  | InvalidHexCharacter (c : UInt8) (index : Nat)
  deriving DecidableEq

/-- The `Debug` form of a character below 256. -/
def debugChar (c : Char) : String :=
  if c = '\x00' then "'\\0'"
  else if c = '\t' then "'\\t'"
  else if c = '\n' then "'\\n'"
  else if c = '\r' then "'\\r'"
  else if c = '\'' then "'\\''"
  else if c = '\\' then "'\\\\'"
  else if c.toNat < 32 ∨ 127 ≤ c.toNat ∧ c.toNat < 160 ∨ c.toNat = 173 then
    "'\\u\x7b" ++ String.ofList (Nat.toDigits 16 c.toNat) ++ "\x7d'"
  else "'" ++ String.singleton c ++ "'"

def FromHexError.display : FromHexError → String
  | .OddLength => "Odd number of digits"
  | .InvalidHexCharacter c index =>
      "Invalid character " ++ debugChar (Char.ofNat c.toNat) ++ " at position " ++ toString index

def hexNibble (c : UInt8) : Option Nat := hexValue (Char.ofNat c.toNat)

def isAsciiHexdigit (c : UInt8) : Bool := (hexNibble c).isSome

def hexNibbleAt (c : UInt8) (index : Nat) : Except FromHexError Nat :=
  match hexNibble c with
  | some x => .ok x
  | none => .error (.InvalidHexCharacter c index)

def hexPairs : Nat → Bytes → Except FromHexError Bytes
  | _, [] => .ok []
  | _, [_] => .error .OddLength
  | i, c :: d :: rest => do
      let high ← hexNibbleAt c i
      let low ← hexNibbleAt d (i + 1)
      let bytes ← hexPairs (i + 2) rest
      return UInt8.ofNat (16 * high + low) :: bytes

/-- `hex::decode` -/
def decodeHex (data : Bytes) : Except FromHexError Bytes :=
  if data.length % 2 ≠ 0 then .error .OddLength else hexPairs 0 data

/-- The letters `A` to `F` in lower case. -/
def lowerHex (c : UInt8) : UInt8 := if 65 ≤ c ∧ c ≤ 70 then c + 32 else c

def hexText (bs : Bytes) : Bytes := (hexChars bs).map fun c => UInt8.ofNat c.toNat

/-- The digit of a half byte. -/
def hexByte (n : Nat) : UInt8 := UInt8.ofNat (hexDigit n).toNat

theorem hexText_cons (b : UInt8) (bs : Bytes) :
    hexText (b :: bs) = hexByte (b.toNat / 16) :: hexByte (b.toNat % 16) :: hexText bs := rfl

/-- The digits of an encoding are its bytes. -/
theorem utf8_hexEncode (bs : Bytes) : utf8 (hexEncode bs) = hexText bs := by
  have digit : ∀ i : Fin 16, (hexDigit i.val).toNat < 128 := by decide
  apply utf8_ascii
  intro c hc
  obtain ⟨b, -, either⟩ := List.mem_flatMap.mp hc
  have hb := b.toNat_lt
  rcases List.mem_pair.mp either with rfl | rfl
  · exact digit ⟨b.toNat / 16, by omega⟩
  · exact digit ⟨b.toNat % 16, by omega⟩

theorem length_hexText (bs : Bytes) : (hexText bs).length = 2 * bs.length := by
  induction bs with
  | nil => rfl
  | cons b bs ih =>
    rw [hexText_cons, List.length_cons, List.length_cons, List.length_cons, ih]
    omega

/-- Letter case is all that the digits of one value differ in. -/
theorem hexNibble_eq_some (c : UInt8) (x : Nat) :
    hexNibble c = some x ↔ x < 16 ∧ lowerHex c = hexByte x := by
  have value : ∀ y ∈ hexNibble c, y < 16 ∧ lowerHex c = hexByte y := by
    refine byte_of_table c c.toNat_lt ?_
    decide +kernel
  have lower : hexNibble (lowerHex c) = hexNibble c := by
    refine byte_of_table c c.toNat_lt ?_
    decide +kernel
  have digit : ∀ y : Fin 16, hexNibble (hexByte y) = some y.val := by decide
  constructor
  · intro h
    exact value x h
  · intro given
    obtain ⟨bound, h⟩ := given
    rw [← lower, h]
    exact digit ⟨x, bound⟩

theorem hexNibbleAt_ok (c : UInt8) (index x : Nat) :
    hexNibbleAt c index = .ok x ↔ x < 16 ∧ lowerHex c = hexByte x := by
  rw [← hexNibble_eq_some, hexNibbleAt]
  cases hexNibble c with
  | none => simp
  | some y => simp

theorem hexByte_injective (x y : Nat) (hx : x < 16) (hy : y < 16) (h : hexByte x = hexByte y) :
    x = y := by
  have table : ∀ x y : Fin 16, hexByte x = hexByte y → x = y := by decide
  exact Fin.mk.inj (table ⟨x, hx⟩ ⟨y, hy⟩ h)

theorem hexText_injective : Function.Injective hexText := by
  intro bs cs h
  induction bs generalizing cs with
  | nil =>
    cases cs with
    | nil => rfl
    | cons c cs => simp [hexText_cons, show hexText [] = [] from rfl] at h
  | cons b bs ih =>
    cases cs with
    | nil => simp [hexText_cons, show hexText [] = [] from rfl] at h
    | cons c cs =>
      rw [hexText_cons, hexText_cons, List.cons.injEq, List.cons.injEq] at h
      obtain ⟨high, low, rest⟩ := h
      have hb := b.toNat_lt
      have hc := c.toNat_lt
      have quotients := hexByte_injective _ _ (by omega) (by omega) high
      have remainders := hexByte_injective _ _ (by omega) (by omega) low
      have same : b = c := UInt8.toNat_inj.mp (by omega)
      rw [same, ih rest]

theorem hexPairs_ok (i : Nat) (data bs : Bytes) :
    hexPairs i data = .ok bs ↔ data.map lowerHex = hexText bs := by
  fun_induction hexPairs i data generalizing bs with
  | case1 i =>
    cases bs with
    | nil => simp [hexText, hexChars]
    | cons b bs => simp [hexText_cons]
  | case2 i c =>
    cases bs with
    | nil => simp [hexText, hexChars]
    | cons b bs => simp [hexText_cons]
  | case3 i c d rest ih =>
    cases bs with
    | nil => simp [Outcome.bind_ok, show hexText [] = [] from rfl, pure, Except.pure]
    | cons b bs =>
      have hb := b.toNat_lt
      rw [hexText_cons, List.map_cons, List.map_cons, List.cons.injEq, List.cons.injEq]
      constructor
      · intro h
        obtain ⟨high, hhigh, h⟩ := (Outcome.bind_ok _ _ _).mp h
        obtain ⟨low, hlow, h⟩ := (Outcome.bind_ok _ _ _).mp h
        obtain ⟨bytes, hbytes, h⟩ := (Outcome.bind_ok _ _ _).mp h
        obtain ⟨highSmall, highDigit⟩ := (hexNibbleAt_ok _ _ _).mp hhigh
        obtain ⟨lowSmall, lowDigit⟩ := (hexNibbleAt_ok _ _ _).mp hlow
        cases h
        have value : (UInt8.ofNat (16 * high + low)).toNat = 16 * high + low :=
          UInt8.toNat_ofNat_of_lt' (by show 16 * high + low < 256; omega)
        refine ⟨?_, ?_, (ih bs).mp hbytes⟩
        · rw [highDigit, value]
          congr 1
          omega
        · rw [lowDigit, value]
          congr 1
          omega
      · intro given
        obtain ⟨high, low, rest⟩ := given
        refine (Outcome.bind_ok _ _ _).mpr ⟨b.toNat / 16, (hexNibbleAt_ok _ _ _).mpr
          ⟨by omega, high⟩, ?_⟩
        refine (Outcome.bind_ok _ _ _).mpr ⟨b.toNat % 16, (hexNibbleAt_ok _ _ _).mpr
          ⟨by omega, low⟩, ?_⟩
        refine (Outcome.bind_ok _ _ _).mpr ⟨bs, (ih bs).mpr rest, ?_⟩
        rw [ofNat_nibbles]
        rfl

/-- What decodes is, up to letter case, the text of the decoded bytes. -/
theorem decodeHex_ok (data bs : Bytes) :
    decodeHex data = .ok bs ↔ data.map lowerHex = hexText bs := by
  rw [decodeHex, Outcome.guard_ok, hexPairs_ok]
  constructor
  · exact And.right
  · intro h
    have length := congrArg List.length h
    rw [List.length_map, length_hexText] at length
    exact ⟨by omega, h⟩

theorem lowerHex_hexByte (x : Nat) (h : x < 16) : lowerHex (hexByte x) = hexByte x := by
  have table : ∀ i : Fin 16, lowerHex (hexByte i.val) = hexByte i.val := by decide
  exact table ⟨x, h⟩

@[simp] theorem decodeHex_hexText (bs : Bytes) : decodeHex (hexText bs) = .ok bs := by
  rw [decodeHex_ok]
  induction bs with
  | nil => rfl
  | cons b bs ih =>
    have hb := b.toNat_lt
    rw [hexText_cons, List.map_cons, List.map_cons, ih, lowerHex_hexByte _ (by omega),
      lowerHex_hexByte _ (by omega)]

/-- `trim_start_matches("0x")` -/
def trimStart0x : Bytes → Bytes
  | 48 :: 120 :: rest => trimStart0x rest
  | text => text

/-- There is no `x` among hexadecimal digits. -/
theorem trimStart0x_hexText (bs : Bytes) : trimStart0x (hexText bs) = hexText bs := by
  have digit : ∀ i : Fin 16, hexByte i.val ≠ 120 := by decide
  cases bs with
  | nil => rfl
  | cons b bs =>
    have hb := b.toNat_lt
    have low := digit ⟨b.toNat % 16, by omega⟩
    rw [hexText_cons, trimStart0x]
    intro rest first
    simp only [List.cons.injEq] at first
    exact absurd first.2.1 low

theorem isAsciiHexdigit_iff (c : UInt8) :
    isAsciiHexdigit c = true ↔ ∃ x, x < 16 ∧ lowerHex c = hexByte x := by
  rw [isAsciiHexdigit, Option.isSome_iff_exists]
  simp only [hexNibble_eq_some]

/-- Digits in pairs decode. -/
theorem decodeHex_total (data : Bytes) (even : data.length % 2 = 0)
    (digits : data.all isAsciiHexdigit = true) : ∃ bs, decodeHex data = .ok bs := by
  have pairs (i : Nat) : ∃ bs, hexPairs i data = .ok bs := by
    fun_induction hexPairs i data with
    | case1 i => exact ⟨[], rfl⟩
    | case2 i c => simp at even
    | case3 i c d rest ih =>
      simp only [List.length_cons] at even
      simp only [List.all_cons, Bool.and_eq_true] at digits
      obtain ⟨high, hhigh⟩ := (isAsciiHexdigit_iff c).mp digits.1
      obtain ⟨low, hlow⟩ := (isAsciiHexdigit_iff d).mp digits.2.1
      obtain ⟨bs, hbs⟩ := ih (by omega) digits.2.2
      rw [(hexNibbleAt_ok c i high).mpr hhigh, (hexNibbleAt_ok d (i + 1) low).mpr hlow, hbs]
      exact ⟨_, rfl⟩
  obtain ⟨bs, h⟩ := pairs 0
  exact ⟨bs, (decodeHex_ok data bs).mpr ((hexPairs_ok 0 data bs).mp h)⟩

theorem digits_of_hexText (data bs : Bytes) (h : data.map lowerHex = hexText bs) :
    data.all isAsciiHexdigit = true := by
  rw [List.all_eq_true]
  intro c hc
  have member : lowerHex c ∈ hexText bs := h ▸ List.mem_map_of_mem hc
  rw [isAsciiHexdigit_iff]
  obtain ⟨d, hd, digit⟩ := List.mem_map.mp member
  obtain ⟨b, -, either⟩ := List.mem_flatMap.mp hd
  have hb := b.toNat_lt
  rcases List.mem_pair.mp either with rfl | rfl
  · exact ⟨b.toNat / 16, by omega, digit.symm⟩
  · exact ⟨b.toNat % 16, by omega, digit.symm⟩

inductive ParseIntError where
  | Empty
  | InvalidDigit
  | PosOverflow
  deriving DecidableEq

def ParseIntError.display : ParseIntError → String
  | .Empty => "cannot parse integer from empty string"
  | .InvalidDigit => "invalid digit found in string"
  | .PosOverflow => "number too large to fit in target type"

def decimalDigit (c : UInt8) : Option Nat :=
  if 48 ≤ c ∧ c ≤ 57 then some (c.toNat - 48) else none

def parseDigits (bits : Nat) : Nat → Bytes → Except ParseIntError Nat
  | n, [] => .ok n
  | n, c :: rest =>
      match decimalDigit c with
      | none => .error .InvalidDigit
      | some d =>
          if 2 ^ bits ≤ 10 * n + d then .error .PosOverflow else parseDigits bits (10 * n + d) rest

/-- `parse` for an unsigned type: one leading `+` is allowed before the digits. -/
def parseUnsigned (bits : Nat) : Bytes → Except ParseIntError Nat
  | [] => .error .Empty
  | 43 :: c :: rest => parseDigits bits 0 (c :: rest)
  | text => parseDigits bits 0 text

theorem parseDigits_lt (bits n m : Nat) (text : Bytes) (hn : n < 2 ^ bits)
    (h : parseDigits bits n text = .ok m) : m < 2 ^ bits := by
  fun_induction parseDigits bits n text with
  | case1 n =>
    cases h
    exact hn
  | case2 n c rest none => cases h
  | case3 n c rest d digit large => cases h
  | case4 n c rest d digit small ih => exact ih (by omega) h

/-- What parses is in range. -/
theorem parseUnsigned_lt (bits n : Nat) (text : Bytes) (h : parseUnsigned bits text = .ok n) :
    n < 2 ^ bits := by
  have start : 0 < 2 ^ bits := Nat.pow_pos (by decide)
  unfold parseUnsigned at h
  split at h
  · cases h
  · exact parseDigits_lt bits 0 n _ start h
  · exact parseDigits_lt bits 0 n _ start h

/-- The number that decimal digits write. -/
def decimalValue (text : Bytes) : Nat := text.foldl (fun n c => 10 * n + (c.toNat - 48)) 0

theorem parseDigits_total (bits n : Nat) (text : Bytes) (start : n < 2 ^ bits)
    (digits : text.all (fun c => (decimalDigit c).isSome) = true) :
    (∃ m, parseDigits bits n text = .ok m) ↔
      text.foldl (fun n c => 10 * n + (c.toNat - 48)) n < 2 ^ bits := by
  have grows (text : Bytes) (n : Nat) :
      n ≤ text.foldl (fun n c => 10 * n + (c.toNat - 48)) n := by
    induction text generalizing n with
    | nil => exact Nat.le_refl n
    | cons c text ih =>
      have next := ih (10 * n + (c.toNat - 48))
      rw [List.foldl_cons]
      omega
  induction text generalizing n with
  | nil => simp [parseDigits, start]
  | cons c text ih =>
    rw [List.all_cons, Bool.and_eq_true] at digits
    obtain ⟨d, digit⟩ := Option.isSome_iff_exists.mp digits.1
    have value : d = c.toNat - 48 := by
      rw [decimalDigit] at digit
      exact (Option.some.inj (Option.ite_none_right_eq_some.mp digit).2).symm
    rw [parseDigits, digit, List.foldl_cons, ← value]
    simp only
    by_cases large : 2 ^ bits ≤ 10 * n + d
    · have reached := grows text (10 * n + d)
      rw [if_pos large]
      simp only [reduceCtorEq, exists_false, false_iff, Nat.not_lt]
      omega
    · rw [if_neg large]
      exact ih (10 * n + d) (by omega) digits.2

/-- Digits alone parse exactly if their number is in range. -/
theorem parseUnsigned_total (bits : Nat) (text : Bytes) (nonempty : text ≠ [])
    (digits : text.all (fun c => (decimalDigit c).isSome) = true) :
    (∃ n, parseUnsigned bits text = .ok n) ↔ decimalValue text < 2 ^ bits := by
  rw [decimalValue, ← parseDigits_total bits 0 text (Nat.pow_pos (by decide)) digits]
  cases text with
  | nil => exact absurd rfl nonempty
  | cons c text =>
    have first : c ≠ 43 := by
      rintro rfl
      simp [decimalDigit] at digits
    rw [parseUnsigned]
    · simp
    · intro d rest plus
      exact absurd (List.cons.inj plus).1 first

/-- A number as its decimal digits. -/
def decimalText (n : Nat) : Bytes := (Nat.toDigits 10 n).map fun c => UInt8.ofNat c.toNat

/-- With zeros in front, up to a width. -/
def paddedDecimal (width n : Nat) : Bytes := List.leftpad width 48 (decimalText n)

theorem decimalValue_append (text more : Bytes) :
    decimalValue (text ++ more) = decimalValue text * 10 ^ more.length + decimalValue more := by
  have fold (more : Bytes) (n : Nat) :
      more.foldl (fun n c => 10 * n + (c.toNat - 48)) n =
        n * 10 ^ more.length + decimalValue more := by
    induction more generalizing n with
    | nil => simp [decimalValue]
    | cons c more ih =>
      rw [decimalValue, List.foldl_cons, List.foldl_cons, ih, ih (10 * 0 + (c.toNat - 48)),
        List.length_cons, Nat.pow_succ]
      ring
  rw [decimalValue, List.foldl_append, fold]
  rfl

theorem decimalDigit_isSome (c : UInt8) :
    (decimalDigit c).isSome = true ↔ 48 ≤ c.toNat ∧ c.toNat ≤ 57 := by
  rw [decimalDigit]
  split_ifs with digit
  · exact ⟨fun _ => ⟨UInt8.le_iff_toNat_le.mp digit.1, UInt8.le_iff_toNat_le.mp digit.2⟩,
      fun _ => rfl⟩
  · constructor
    · intro none
      cases none
    · intro range
      exact absurd ⟨UInt8.le_iff_toNat_le.mpr range.1, UInt8.le_iff_toNat_le.mpr range.2⟩ digit

/-- Digits count no further than their places. -/
theorem decimalValue_lt (text : Bytes) (digits : ∀ c ∈ text, (decimalDigit c).isSome = true) :
    decimalValue text < 10 ^ text.length := by
  induction text with
  | nil => decide
  | cons c text ih =>
    have rest := ih fun d hd => digits d (List.mem_cons_of_mem c hd)
    have here := (decimalDigit_isSome c).mp (digits c List.mem_cons_self)
    have value : decimalValue [c] = c.toNat - 48 := by simp [decimalValue]
    rw [← List.singleton_append, decimalValue_append, List.length_append, List.length_singleton,
      Nat.add_comm 1, Nat.pow_succ, value]
    calc (c.toNat - 48) * 10 ^ text.length + decimalValue text
        < (c.toNat - 48) * 10 ^ text.length + 10 ^ text.length := Nat.add_lt_add_left rest _
      _ = (c.toNat - 48 + 1) * 10 ^ text.length := by ring
      _ ≤ 10 * 10 ^ text.length := Nat.mul_le_mul_right _ (by omega)
      _ = 10 ^ text.length * 10 := Nat.mul_comm _ _

theorem parseDigits_value (bits n m : Nat) (text : Bytes) (h : parseDigits bits n text = .ok m) :
    m = text.foldl (fun n c => 10 * n + (c.toNat - 48)) n := by
  fun_induction parseDigits bits n text with
  | case1 n =>
    cases h
    rfl
  | case2 n c rest none => cases h
  | case3 n c rest d digit large => cases h
  | case4 n c rest d digit small ih =>
    have value : d = c.toNat - 48 := by
      rw [decimalDigit] at digit
      exact (Option.some.inj (Option.ite_none_right_eq_some.mp digit).2).symm
    rw [ih h, value, List.foldl_cons]

/-- Digits alone are read as the number that they write. -/
theorem parseUnsigned_digits (bits : Nat) (text : Bytes) (nonempty : text ≠ [])
    (digits : ∀ c ∈ text, (decimalDigit c).isSome = true) (small : decimalValue text < 2 ^ bits) :
    parseUnsigned bits text = .ok (decimalValue text) := by
  obtain ⟨n, parsed⟩ :=
    (parseUnsigned_total bits text nonempty (List.all_eq_true.mpr digits)).mpr small
  have value : n = decimalValue text := by
    unfold parseUnsigned at parsed
    split at parsed
    · cases parsed
    · have plus := (decimalDigit_isSome 43).mp (digits 43 List.mem_cons_self)
      exact absurd plus.1 (by decide)
    · exact parseDigits_value bits 0 n text parsed
  rw [parsed, value]

theorem toDigits_range (n : Nat) : ∀ c ∈ Nat.toDigits 10 n, 48 ≤ c.toNat ∧ c.toNat ≤ 57 := by
  intro c hc
  have digit := Nat.isDigit_of_mem_toDigits (by decide) (by decide) hc
  simp only [Char.isDigit, Bool.and_eq_true, decide_eq_true_eq] at digit
  exact ⟨UInt32.le_iff_toNat_le.mp digit.1, UInt32.le_iff_toNat_le.mp digit.2⟩

theorem decimalText_digits (n : Nat) : ∀ c ∈ decimalText n, (decimalDigit c).isSome = true := by
  intro b hb
  obtain ⟨c, hc, rfl⟩ := List.mem_map.mp hb
  have range := toDigits_range n c hc
  rw [decimalDigit_isSome, UInt8.toNat_ofNat_of_lt' (by show c.toNat < 256; omega)]
  exact range

theorem decimalText_ne_nil (n : Nat) : decimalText n ≠ [] := by
  simp [decimalText]

theorem decimalValue_decimalText (n : Nat) : decimalValue (decimalText n) = n := by
  have fold (cs : List Char) (small : ∀ c ∈ cs, c.toNat < 256) (m : Nat) :
      (cs.map fun c => UInt8.ofNat c.toNat).foldl (fun n c => 10 * n + (c.toNat - 48)) m =
        Nat.ofDigitChars 10 cs m := by
    induction cs generalizing m with
    | nil => simp
    | cons c cs ih =>
      rw [List.map_cons, List.foldl_cons, UInt8.toNat_ofNat_of_lt' (small c List.mem_cons_self),
        ih fun d hd => small d (List.mem_cons_of_mem c hd), Nat.ofDigitChars_cons]
      rfl
  have small : ∀ c ∈ Nat.toDigits 10 n, c.toNat < 256 := by
    intro c hc
    have range := toDigits_range n c hc
    omega
  rw [decimalValue, decimalText, fold _ small]
  exact Nat.ofDigitChars_toDigits (by decide) (by decide)

theorem paddedDecimal_digits (width n : Nat) :
    ∀ c ∈ paddedDecimal width n, (decimalDigit c).isSome = true := by
  intro c hc
  rw [paddedDecimal, List.leftpad] at hc
  rcases List.mem_append.mp hc with zero | digit
  · rw [List.eq_of_mem_replicate zero]
    rfl
  · exact decimalText_digits n c digit

theorem decimalValue_paddedDecimal (width n : Nat) : decimalValue (paddedDecimal width n) = n := by
  have zeros (k : Nat) : decimalValue (List.replicate k 48) = 0 := by
    induction k with
    | zero => rfl
    | succ k ih =>
      rw [List.replicate_succ', decimalValue_append, ih]
      rfl
  rw [paddedDecimal, List.leftpad, decimalValue_append, zeros, Nat.zero_mul, Nat.zero_add,
    decimalValue_decimalText]

theorem length_paddedDecimal (width n : Nat) (positive : 0 < width) (h : n < 10 ^ width) :
    (paddedDecimal width n).length = width := by
  have short : (decimalText n).length ≤ width := by
    rw [decimalText, List.length_map]
    exact (Nat.length_toDigits_le_iff (by decide) positive).mpr h
  rw [paddedDecimal, List.length_leftpad]
  exact Nat.max_eq_left short

/-- A padded number is read back, also where it is wider than the padding. -/
theorem parseUnsigned_paddedDecimal (bits width n : Nat) (h : n < 2 ^ bits) :
    parseUnsigned bits (paddedDecimal width n) = .ok n := by
  have nonempty : paddedDecimal width n ≠ [] :=
    List.append_ne_nil_of_right_ne_nil _ (decimalText_ne_nil n)
  have parsed := parseUnsigned_digits bits _ nonempty (paddedDecimal_digits width n)
  rw [decimalValue_paddedDecimal] at parsed
  exact parsed h

theorem append_lt_append_iff (as bs xs ys : Bytes) (length : as.length = bs.length) :
    as ++ xs < bs ++ ys ↔ as < bs ∨ as = bs ∧ xs < ys := by
  induction as generalizing bs with
  | nil =>
    rw [List.eq_nil_of_length_eq_zero length.symm]
    simp
  | cons a as ih =>
    cases bs with
    | nil => cases length
    | cons b bs =>
      have rest := ih bs (Nat.succ.inj length)
      simp only [List.cons_append, List.cons_lt_cons_iff, List.cons.injEq, rest]
      tauto

theorem leading_lt_iff (x y low low' base : Nat) (h : low < base) (h' : low' < base) :
    x * base + low < y * base + low' ↔ x < y ∨ x = y ∧ low < low' := by
  have apart {x y low low' : Nat} (less : x < y) (h : low < base) : x * base + low <
    y * base + low' :=
    calc x * base + low < x * base + base := Nat.add_lt_add_left h _
      _ = (x + 1) * base := by ring
      _ ≤ y * base := Nat.mul_le_mul_right base less
      _ ≤ y * base + low' := Nat.le_add_right _ _
  rcases Nat.lt_trichotomy x y with less | rfl | greater
  · simp only [less, true_or, iff_true]
    exact apart less h
  · simp
  · have beyond : y * base + low' < x * base + low := apart greater h'
    omega

/-- Digits of one length are ordered like their numbers. -/
theorem digits_lt_iff (as bs : Bytes) (length : as.length = bs.length)
    (ha : ∀ c ∈ as, (decimalDigit c).isSome = true)
    (hb : ∀ c ∈ bs, (decimalDigit c).isSome = true) :
    as < bs ↔ decimalValue as < decimalValue bs := by
  induction as generalizing bs with
  | nil =>
    rw [List.eq_nil_of_length_eq_zero length.symm]
    simp
  | cons a as ih =>
    cases bs with
    | nil => cases length
    | cons b bs =>
      have rest := ih bs (Nat.succ.inj length) (fun c hc => ha c (List.mem_cons_of_mem a hc))
        fun c hc => hb c (List.mem_cons_of_mem b hc)
      have small := decimalValue_lt as fun c hc => ha c (List.mem_cons_of_mem a hc)
      have small' := decimalValue_lt bs fun c hc => hb c (List.mem_cons_of_mem b hc)
      have digit := (decimalDigit_isSome a).mp (ha a List.mem_cons_self)
      have digit' := (decimalDigit_isSome b).mp (hb b List.mem_cons_self)
      have value (c : UInt8) : decimalValue [c] = c.toNat - 48 := by simp [decimalValue]
      rw [Nat.succ.inj length] at small
      rw [List.cons_lt_cons_iff, rest, ← List.singleton_append, ← @List.singleton_append _ b,
        decimalValue_append, decimalValue_append, value, value, Nat.succ.inj length,
        leading_lt_iff _ _ _ _ _ small small', UInt8.lt_iff_toNat_lt, ← UInt8.toNat_inj]
      omega

theorem paddedDecimal_lt_iff (width m n : Nat) (positive : 0 < width) (hm : m < 10 ^ width)
    (hn : n < 10 ^ width) : paddedDecimal width m < paddedDecimal width n ↔ m < n := by
  have length := (length_paddedDecimal width m positive hm).trans
    (length_paddedDecimal width n positive hn).symm
  rw [digits_lt_iff _ _ length (paddedDecimal_digits width m) (paddedDecimal_digits width n),
    decimalValue_paddedDecimal, decimalValue_paddedDecimal]

theorem paddedDecimal_inj (width m n : Nat) :
    paddedDecimal width m = paddedDecimal width n ↔ m = n := by
  constructor
  · intro same
    rw [← decimalValue_paddedDecimal width m, same, decimalValue_paddedDecimal]
  · exact congrArg (paddedDecimal width)

/-- `str::strip_suffix` -/
def stripSuffix (suffix text : Bytes) : Option Bytes :=
  if suffix.isSuffixOf text then some (text.take (text.length - suffix.length)) else none

theorem stripSuffix_append (suffix text : Bytes) :
    stripSuffix suffix (text ++ suffix) = some text := by
  have ends : suffix.isSuffixOf (text ++ suffix) = true :=
    List.isSuffixOf_iff_suffix.mpr (List.suffix_append text suffix)
  rw [stripSuffix, if_pos ends, List.length_append, Nat.add_sub_cancel, List.take_left' rfl]

end Text
