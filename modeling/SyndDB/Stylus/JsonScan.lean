import SyndDB.Framework.Json
import SyndDB.Framework.Text
import SyndDB.Stylus.Jwt

namespace SyndDB.Stylus

open Json Octets

/-- What follows the colon, if that is what comes next. -/
def afterColon (text : Bytes) : Option Bytes :=
  match skipWhitespace text with
  | 58 :: value => some value
  | _ => none

theorem colonOr (next : Bytes) (otherwise : Option Bytes) :
    (match next with
      | 58 :: value => some value
      | _ => otherwise) =
    (match next with
      | 58 :: value => some value
      | _ => none).or otherwise := by
  split
  · rfl
  · rfl

theorem find_quote (key rest : Bytes) :
    jsonFindKey key (34 :: rest) =
      if key ++ [34] <+: rest then
        (afterColon (rest.drop (key.length + 1))).or (jsonFindKey key rest)
      else jsonFindKey key rest := by
  have pattern : (34 :: key ++ [34]).isPrefixOf (34 :: rest) = true ↔ key ++ [34] <+: rest := by
    rw [List.isPrefixOf_iff_prefix, List.cons_append, List.cons_prefix_cons]
    exact and_iff_right rfl
  have behind : (34 :: rest).drop (34 :: key ++ [34]).length = rest.drop (key.length + 1) := by
    rw [List.cons_append, List.length_cons, List.drop_succ_cons, List.length_append,
      List.length_singleton]
  rw [jsonFindKey]
  by_cases found : key ++ [34] <+: rest
  · rw [if_pos (pattern.mpr found), if_pos found, behind, afterColon]
    generalize skipWhitespace (rest.drop (key.length + 1)) = next
    exact colonOr next (jsonFindKey key rest)
  · rw [if_neg (mt pattern.mp found), if_neg found]

theorem find_ne (key rest : Bytes) (c : UInt8) (h : c ≠ 34) :
    jsonFindKey key (c :: rest) = jsonFindKey key rest := by
  have other : ¬(34 :: key ++ [34]).isPrefixOf (c :: rest) = true := by
    rw [List.isPrefixOf_iff_prefix, List.cons_append, List.cons_prefix_cons]
    intro both
    exact h both.1.symm
  rw [jsonFindKey, if_neg other]

theorem find_skip (key front rest : Bytes) (h : ∀ c ∈ front, c ≠ 34) :
    jsonFindKey key (front ++ rest) = jsonFindKey key rest := by
  induction front with
  | nil => rfl
  | cons c front ih =>
    rw [List.cons_append, find_ne key _ c (h c List.mem_cons_self)]
    exact ih fun d hd => h d (List.mem_cons_of_mem c hd)

/-- A name without quotes, backslashes and the characters that come after a string. -/
def IsClaimName (key : Bytes) : Prop := ∀ c ∈ key, c ∉ ([34, 92, 44, 58, 93, 125] : Bytes)

instance (key : Bytes) : Decidable (IsClaimName key) :=
  inferInstanceAs (Decidable (∀ c ∈ key, _))

theorem isClaimName_tail (c : UInt8) (key : Bytes) (h : IsClaimName (c :: key)) : IsClaimName key :=
  fun d hd => h d (List.mem_cons_of_mem c hd)

theorem head_claimName (c : UInt8) (key : Bytes) (h : IsClaimName (c :: key)) :
    c ≠ 34 ∧ c ≠ 92 ∧ c ≠ 44 ∧ c ≠ 58 ∧ c ≠ 93 ∧ c ≠ 125 := by
  have first := h c List.mem_cons_self
  simpa using first

/-- The name up to its quote is found at the start of a string exactly if it is the string. -/
theorem prefix_quoted (key raw after : Bytes) (claim : IsClaimName key)
    (quoted : Quoted after raw) :
    key ++ [34] <+: raw ++ 34 :: after ↔ raw = key := by
  induction quoted generalizing key with
  | nil =>
    cases key with
    | nil => simp
    | cons k key =>
      have other := (head_claimName k key claim).1
      refine iff_of_false ?_ (List.cons_ne_nil k key).symm
      intro found
      exact other (List.cons_prefix_cons.mp found).1
  | escape e raw escape quoted ih =>
    cases key with
    | nil =>
      refine iff_of_false ?_ (List.cons_ne_nil _ _)
      intro found
      exact absurd (List.cons_prefix_cons.mp found).1 (by decide)
    | cons k key =>
      have other := (head_claimName k key claim).2.1
      refine iff_of_false ?_ ?_
      · intro found
        exact other (List.cons_prefix_cons.mp found).1
      · intro same
        exact other (List.cons.inj same).1.symm
  | char c raw quote backslash control quoted ih =>
    cases key with
    | nil =>
      refine iff_of_false ?_ (List.cons_ne_nil _ _)
      intro found
      exact quote (List.cons_prefix_cons.mp found).1.symm
    | cons k key =>
      rw [List.cons_append, List.cons_append, List.cons_prefix_cons,
        ih key (isClaimName_tail k key claim), List.cons.injEq]
      exact and_congr_left fun _ => eq_comm

theorem suffix_cons_ne (c : UInt8) (key raw : Bytes) (h : c ≠ 34) :
    34 :: key <:+ c :: raw ↔ 34 :: key <:+ raw := by
  rw [List.suffix_cons_iff]
  constructor
  · intro either
    rcases either with same | later
    · exact absurd (List.cons.inj same).1.symm h
    · exact later
  · intro later
    exact Or.inr later

theorem suffix_cons_quote (key raw : Bytes) :
    34 :: key <:+ 34 :: raw ↔ raw = key ∨ 34 :: key <:+ raw := by
  rw [List.suffix_cons_iff, List.cons.injEq]
  simp [eq_comm]

theorem not_suffix_self (key : Bytes) : ¬34 :: key <:+ key := by
  intro h
  have length := h.length_le
  rw [List.length_cons] at length
  omega

theorem drop_name (key after : Bytes) :
    (key ++ 34 :: after).drop (key.length + 1) = after := by
  rw [List.drop_append, List.drop_of_length_le (by omega)]
  simp

/-- The search goes through a string. It stops behind the string if the string ends in a quote and
the name, and a colon comes next. -/
theorem find_inside (key raw after : Bytes) (claim : IsClaimName key) (quoted : Quoted after raw) :
    jsonFindKey key (raw ++ 34 :: after) =
      if 34 :: key <:+ raw then (afterColon after).or (jsonFindKey key (34 :: after))
      else jsonFindKey key (34 :: after) := by
  induction quoted with
  | nil => rw [List.nil_append, if_neg (mt List.suffix_nil.mp (List.cons_ne_nil 34 key))]
  | escape e raw escape quoted ih =>
    rw [List.cons_append, List.cons_append, find_ne key _ 92 (by decide)]
    by_cases quote : e = 34
    · rw [quote, find_quote, ih]
      simp only [prefix_quoted key raw after claim quoted,
        suffix_cons_ne 92 key (34 :: raw) (by decide), suffix_cons_quote]
      by_cases same : raw = key
      · rw [if_pos same, if_pos (Or.inl same), same, drop_name, if_neg (not_suffix_self key)]
      · simp [same]
    · rw [find_ne key _ e quote, ih]
      simp only [suffix_cons_ne 92 key (e :: raw) (by decide), suffix_cons_ne e key raw quote]
  | char c raw quote backslash control quoted ih =>
    rw [List.cons_append, find_ne key _ c quote, ih]
    simp only [suffix_cons_ne c key raw quote]

theorem find_string (key raw after : Bytes) (claim : IsClaimName key) (quoted : Quoted after raw) :
    jsonFindKey key (34 :: (raw ++ 34 :: after)) =
      if 34 :: key <:+ 34 :: raw then (afterColon after).or (jsonFindKey key (34 :: after))
      else jsonFindKey key (34 :: after) := by
  rw [find_quote, find_inside key raw after claim quoted]
  simp only [prefix_quoted key raw after claim quoted, suffix_cons_quote]
  by_cases same : raw = key
  · rw [if_pos same, if_pos (Or.inl same), same, drop_name, if_neg (not_suffix_self key)]
  · simp [same]

theorem lexes_token (text : Bytes) (t : Token) (ts : List Token) (h : Lexes text (t :: ts)) :
    ∃ after, skipWhitespace text = t.text ++ after ∧ t.Ends after ∧ Lexes after ts := by
  generalize whole : t :: ts = all at h
  induction h with
  | nil => cases whole
  | space c rest us space lexed ih =>
    obtain ⟨after, found⟩ := ih whole
    have skipped : skipWhitespace (c :: rest) = skipWhitespace rest :=
      List.dropWhile_cons_of_pos space
    exact ⟨after, skipped ▸ found⟩
  | token c rest after u us space found lexed ih =>
    cases whole
    obtain ⟨split, ends⟩ := token_spec c rest after t found
    have kept : skipWhitespace (c :: rest) = c :: rest :=
      List.dropWhile_cons_of_neg (by rw [Bool.not_eq_true]; exact space)
    exact ⟨after, kept.trans split, ends, lexed⟩

theorem afterColon_colon (text : Bytes) (ts : List Token) (h : Lexes text (.colon :: ts)) :
    ∃ value, afterColon text = some value ∧ Lexes value ts := by
  obtain ⟨value, skipped, -, lexed⟩ := lexes_token text .colon ts h
  refine ⟨value, ?_, lexed⟩
  rw [afterColon, skipped]
  rfl

/-- Only a colon starts with one. -/
theorem head_colon (t : Token) (rest after : Bytes) (ends : t.Ends after)
    (h : t.text ++ after = 58 :: rest) : t = .colon := by
  cases t with
  | colon => rfl
  | number text =>
    cases text with
    | nil => exact absurd ends.1 (by decide)
    | cons c text =>
      have first := ends.2.1 c List.mem_cons_self
      rw [(List.cons.inj h).1] at first
      exact absurd first (by decide)
  | bool b => cases b <;> exact absurd (List.cons.inj h).1 (by decide)
  | _ => exact absurd (List.cons.inj h).1 (by decide)

theorem afterColon_none (text : Bytes) (ts : List Token) (h : Lexes text ts)
    (other : ts.head? ≠ some .colon) : afterColon text = none := by
  rw [afterColon]
  split
  · rename_i value colon
    cases ts with
    | nil =>
      have spaces : skipWhitespace text = [] := by
        generalize none : ([] : List Token) = all at h
        induction h with
        | nil => rfl
        | space c rest us space lexed ih =>
          have skipped : skipWhitespace (c :: rest) = skipWhitespace rest :=
            List.dropWhile_cons_of_pos space
          rw [skipped] at colon ⊢
          exact ih colon none
        | token c rest after u us space found lexed ih => cases none
      rw [spaces] at colon
      cases colon
    | cons t ts =>
      obtain ⟨after, skipped, ends, -⟩ := lexes_token text t ts h
      rw [skipped] at colon
      rw [head_colon t value after ends colon] at other
      exact absurd rfl other
  · rfl

/-- The closing quote of a string does not start the quoted name: before the next quote comes what
follows the string. -/
theorem not_prefix_follows (key text : Bytes) (ts : List Token) (claim : IsClaimName key)
    (h : Lexes text ts) (follows : ∀ t ∈ ts.head?, t.follows = true) : ¬key ++ [34] <+: text := by
  induction h generalizing key with
  | nil =>
    intro found
    have empty := List.prefix_nil.mp found
    simp at empty
  | space c rest ts space lexed ih =>
    intro found
    cases key with
    | nil =>
      have quote : 34 = c := (List.cons_prefix_cons.mp found).1
      rw [← quote] at space
      exact absurd space (by decide)
    | cons k key =>
      exact ih key (isClaimName_tail k key claim) follows (List.cons_prefix_cons.mp found).2
  | token c rest after t ts space found lexed ih =>
    intro begins
    obtain ⟨split, -⟩ := token_spec c rest after t found
    have comes := follows t rfl
    have first : c = 44 ∨ c = 58 ∨ c = 125 ∨ c = 93 := by
      cases t with
      | comma => exact Or.inl (List.cons.inj split).1
      | colon => exact Or.inr (Or.inl (List.cons.inj split).1)
      | closeBrace => exact Or.inr (Or.inr (Or.inl (List.cons.inj split).1))
      | closeBracket => exact Or.inr (Or.inr (Or.inr (List.cons.inj split).1))
      | _ => cases comes
    cases key with
    | nil =>
      have quote : 34 = c := (List.cons_prefix_cons.mp begins).1
      rw [← quote] at first
      exact absurd first (by decide)
    | cons k key =>
      have same : k = c := (List.cons_prefix_cons.mp begins).1
      obtain ⟨-, -, comma, colon, bracket, brace⟩ := head_claimName k key claim
      rw [same] at comma colon bracket brace
      rcases first with rfl | rfl | rfl | rfl
      · exact comma rfl
      · exact colon rfl
      · exact brace rfl
      · exact bracket rfl

theorem text_no_quote (t : Token) (after : Bytes) (ends : t.Ends after)
    (h : ∀ raw, t ≠ .string raw) : ∀ c ∈ t.text, c ≠ 34 := by
  cases t with
  | string raw => exact absurd rfl (h raw)
  | number text =>
    intro c hc quote
    have char := ends.2.1 c hc
    rw [quote] at char
    exact absurd char (by decide)
  | bool b => cases b <;> decide +kernel
  | _ => decide +kernel

/-- Names that the scanner stops at: the name itself, and names that end in a quote and the name. -/
def scans (key raw : Bytes) : Bool := (34 :: key).isSuffixOf (34 :: raw)

theorem scans_iff (key raw : Bytes) : scans key raw = true ↔ 34 :: key <:+ 34 :: raw :=
  List.isSuffixOf_iff_suffix

/-- The scanner finds what follows the first name that it stops at. -/
theorem find_lexes (key text : Bytes) (ts : List Token) (claim : IsClaimName key)
    (h : Lexes text ts) (separated : Separated ts) :
    (afterName (scans key) ts = none → jsonFindKey key text = none) ∧
    ∀ us, afterName (scans key) ts = some us →
      ∃ value, jsonFindKey key text = some value ∧ Lexes value us := by
  induction h with
  | nil => exact ⟨fun _ => rfl, fun us found => by cases found⟩
  | space c rest ts space lexed ih =>
    have other : c ≠ 34 := by
      rintro rfl
      exact absurd space (by decide)
    rw [find_ne key rest c other]
    exact ih separated
  | token c rest after t ts space found lexed ih =>
    obtain ⟨split, ends⟩ := token_spec c rest after t found
    have next := ih (separated_tail t ts separated)
    rw [split]
    by_cases quoted : ∃ raw, t = .string raw
    · obtain ⟨raw, rfl⟩ := quoted
      have closing : jsonFindKey key (34 :: after) = jsonFindKey key after := by
        rw [find_quote, if_neg (not_prefix_follows key after ts claim lexed separated.1)]
      have string := find_string key raw after claim ends
      rw [closing] at string
      have whole : (Token.string raw).text ++ after = 34 :: (raw ++ 34 :: after) := by
        simp [Token.text]
      rw [whole, string]
      by_cases colon : ts.head? = some .colon
      · obtain ⟨us, rfl⟩ : ∃ us, ts = .colon :: us := by
          cases ts with
          | nil => cases colon
          | cons u us => exact ⟨us, by rw [Option.some.inj colon]⟩
        obtain ⟨value, behind, lexes⟩ := afterColon_colon after us lexed
        cases wanted : scans key raw with
        | true =>
          have stops : afterName (scans key) (.string raw :: .colon :: us) = some us := by
            rw [afterName, if_pos wanted]
          rw [if_pos ((scans_iff key raw).mp wanted), behind, stops]
          constructor
          · intro nothing
            cases nothing
          · intro vs same
            cases same
            exact ⟨value, rfl, lexes⟩
        | false =>
          have passes : afterName (scans key) (.string raw :: .colon :: us) =
              afterName (scans key) us := by
            rw [afterName, wanted]
            rfl
          have unwanted : ¬34 :: key <:+ 34 :: raw := by
            rw [← scans_iff, wanted]
            exact Bool.false_ne_true
          rw [if_neg unwanted, passes]
          exact next
      · rw [afterName_string _ raw ts colon, afterColon_none after ts lexed colon, Option.none_or,
          ite_self]
        exact next
    · have plain : ∀ raw, t ≠ .string raw := fun raw same => quoted ⟨raw, same⟩
      have passes : afterName (scans key) (t :: ts) = afterName (scans key) ts := by
        cases t with
        | string raw => exact absurd rfl (plain raw)
        | _ => rfl
      rw [find_skip key t.text after (text_no_quote t after ends plain), passes]
      exact next

/-- The value of the first member that the scanner stops at. -/
def firstScanned (document : Document) (key : Bytes) : Option Document :=
  (document.allMembers.find? fun m => scans key m.1).map Prod.snd

/-- In a document the scanner finds the text of that value. -/
theorem find_document (key text : Bytes) (document : Document) (claim : IsClaimName key)
    (wellFormed : parse text = some document) :
    (firstScanned document key = none → jsonFindKey key text = none) ∧
    ∀ value, firstScanned document key = some value →
      ∃ found rest, jsonFindKey key text = some found ∧ Lexes found (value.tokens ++ rest) := by
  have lexed : Lexes text document.tokens :=
    (tokens_iff text document.tokens).mp ((parse_iff text document).mp wellFormed)
  have separated : Separated document.tokens := by
    have whole := separated_tokens document [] (fun t ht => by cases ht) trivial
    rwa [List.append_nil] at whole
  have names := afterName_tokens (scans key) document [] (by simp)
  rw [List.append_nil] at names
  obtain ⟨absent, present⟩ := find_lexes key text document.tokens claim lexed separated
  constructor
  · intro none
    exact absent (names.absent (Option.map_eq_none_iff.mp none))
  · intro value first
    obtain ⟨m, found, rfl⟩ := Option.map_eq_some_iff.mp first
    obtain ⟨rest, follows⟩ := names.present m found
    obtain ⟨text', located, lexes⟩ := present _ follows
    exact ⟨text', rest, located, lexes⟩

/-- The raw contents of a string. -/
def stringOf : Document → Option Bytes
  | .string raw => some raw
  | _ => none

/-- The number that digits write, if it fits. -/
def decimalOf (digits : Bytes) : Option UInt64 :=
  if Text.decimalValue digits < 2 ^ 64 then some (UInt64.ofNat (Text.decimalValue digits)) else none

/-- The value of an unsigned integer literal. -/
def unsignedOf : Document → Option UInt64
  | .number text => if text.all isDigit then decimalOf text else none
  | _ => none

/-- The value of the digits that a number starts with. -/
def leadingDigitsOf : Document → Option UInt64
  | .number text => if text.takeWhile isDigit = [] then none else decimalOf (text.takeWhile isDigit)
  | _ => none

def boolOf : Document → Option Bool
  | .bool b => some b
  | _ => none

/-- The scanner keeps the parity of the backslashes in front of a character. -/
theorem closingQuote_quoted (read raw after : Bytes) (quoted : Quoted after raw)
    (even : (read.takeWhile (· = 92)).length % 2 = 0) :
    closingQuote read (raw ++ 34 :: after) = some (read.reverse ++ raw) := by
  induction quoted generalizing read with
  | nil => rw [List.nil_append, closingQuote, if_pos ⟨rfl, even⟩, List.append_nil]
  | escape e raw escape quoted ih =>
    have backslash : closingQuote read (92 :: e :: raw ++ 34 :: after) =
        closingQuote (92 :: read) (e :: (raw ++ 34 :: after)) := by
      rw [List.cons_append, List.cons_append, closingQuote, if_neg]
      intro both
      exact absurd both.1 (by decide)
    have odd : (((92 : UInt8) :: read).takeWhile (· = 92)).length % 2 = 1 := by
      rw [List.takeWhile_cons_of_pos (by decide), List.length_cons]
      omega
    have inside : closingQuote (92 :: read) (e :: (raw ++ 34 :: after)) =
        closingQuote (e :: 92 :: read) (raw ++ 34 :: after) := by
      rw [closingQuote, if_neg]
      intro both
      omega
    have even' : ((e :: 92 :: read).takeWhile (· = 92)).length % 2 = 0 := by
      by_cases again : e = 92
      · rw [List.takeWhile_cons_of_pos (by simpa using again), List.length_cons]
        omega
      · rw [List.takeWhile_cons_of_neg (by simpa using again)]
        rfl
    rw [backslash, inside, ih _ even']
    simp
  | char c raw quote backslash control quoted ih =>
    have even' : ((c :: read).takeWhile (· = 92)).length % 2 = 0 := by
      rw [List.takeWhile_cons_of_neg (by simpa using backslash)]
      rfl
    have step : closingQuote read (c :: raw ++ 34 :: after) =
        closingQuote (c :: read) (raw ++ 34 :: after) := by
      rw [List.cons_append, closingQuote, if_neg]
      intro both
      exact quote both.1
    rw [step, ih _ even']
    simp

theorem le_foldl_digits (n : Nat) (digits : Bytes) :
    n ≤ digits.foldl (fun n c => 10 * n + (c.toNat - 48)) n := by
  induction digits generalizing n with
  | nil => exact Nat.le_refl n
  | cons d digits ih =>
    have next := ih (10 * n + (d.toNat - 48))
    rw [List.foldl_cons]
    omega

theorem parseDigits_eq (result : UInt64) (digits : Bytes) :
    parseDigits result digits =
      if digits.foldl (fun n c => 10 * n + (c.toNat - 48)) result.toNat < 2 ^ 64 then
        some (UInt64.ofNat (digits.foldl (fun n c => 10 * n + (c.toNat - 48)) result.toNat))
      else none := by
  induction digits generalizing result with
  | nil => rw [parseDigits, List.foldl_nil, if_pos result.toNat_lt, UInt64.ofNat_toNat]
  | cons d digits ih =>
    rw [parseDigits, List.foldl_cons]
    by_cases fits : result.toNat * 10 + (d.toNat - 48) < 2 ^ 64
    · have ten : (10 : UInt64).toNat = 10 := rfl
      have next : (result * 10 + UInt64.ofNat (d.toNat - 48)).toNat =
          10 * result.toNat + (d.toNat - 48) := by
        rw [UInt64.toNat_add, UInt64.toNat_mul, UInt64.toNat_ofNat', ten]
        omega
      rw [if_pos fits, ih, next]
    · have grows := le_foldl_digits (10 * result.toNat + (d.toNat - 48)) digits
      rw [if_neg fits, if_neg (by omega)]

theorem parseDigits_zero (digits : Bytes) : parseDigits 0 digits = decimalOf digits :=
  parseDigits_eq 0 digits

/-- The first token of a value. -/
def headToken : Document → Token
  | .null => .null
  | .bool b => .bool b
  | .number text => .number text
  | .string raw => .string raw
  | .array _ => .openBracket
  | .object _ => .openBrace

theorem tokens_head (value : Document) : ∃ rest, value.tokens = headToken value :: rest := by
  cases value with
  | null => exact ⟨[], rfl⟩
  | bool b => exact ⟨[], rfl⟩
  | number text => exact ⟨[], rfl⟩
  | string raw => exact ⟨[], rfl⟩
  | array elements => exact ⟨afterComma elements.tokens, rfl⟩
  | object members => exact ⟨afterComma members.tokens, rfl⟩

/-- The text of a value begins with its first token. -/
theorem value_text (found : Bytes) (value : Document) (rest : List Token)
    (h : Lexes found (value.tokens ++ rest)) :
    ∃ after, skipWhitespace found = (headToken value).text ++ after ∧
      (headToken value).Ends after := by
  obtain ⟨others, same⟩ := tokens_head value
  rw [same, List.cons_append] at h
  obtain ⟨after, skipped, ends, -⟩ := lexes_token _ _ _ h
  exact ⟨after, skipped, ends⟩

theorem text_nonempty (t : Token) (after : Bytes) (ends : t.Ends after) :
    ∃ c rest, t.text = c :: rest := by
  cases text : t.text with
  | nil =>
    have positive := length_text_pos after t ends
    rw [text] at positive
    exact absurd positive (Nat.lt_irrefl 0)
  | cons c rest => exact ⟨c, rest, rfl⟩

theorem readString (value : Document) (after : Bytes) (ends : (headToken value).Ends after) :
    (match (headToken value).text ++ after with
      | 34 :: rest => closingQuote [] rest
      | _ => none) = stringOf value := by
  cases value with
  | string raw =>
    have whole : (Token.string raw).text ++ after = 34 :: (raw ++ 34 :: after) :=
      by simp [Token.text]
    rw [headToken, whole]
    exact closingQuote_quoted [] raw after ends rfl
  | null => rfl
  | bool b => cases b <;> rfl
  | array elements => rfl
  | object members => rfl
  | number text =>
    obtain ⟨c, rest, split⟩ := text_nonempty (.number text) after ends
    have other : c ≠ 34 :=
      text_no_quote (.number text) after ends (by simp) c (by rw [split]; exact List.mem_cons_self)
    rw [headToken, split, List.cons_append]
    split
    · rename_i tail same
      exact absurd (List.cons.inj same).1 other
    · rfl

theorem takeWhile_number (text after : Bytes) (ends : (Token.number text).Ends after) :
    (text ++ after).takeWhile isAsciiDigit = text.takeWhile isDigit := by
  have stops : after.takeWhile isAsciiDigit = [] := by
    cases after with
    | nil => rfl
    | cons c after =>
      have last := ends.2.2 c rfl
      have digit : isAsciiDigit c = false := by
        cases d : isAsciiDigit c with
        | false => rfl
        | true =>
          have same : isDigit c = true := d
          rw [isNumberChar, same] at last
          cases last
      rw [List.takeWhile_cons_of_neg (by rw [digit]; exact Bool.false_ne_true)]
  have same : isAsciiDigit = isDigit := rfl
  rw [List.takeWhile_append, stops, same]
  split
  · rename_i all
    rw [List.append_nil]
    exact (List.IsPrefix.eq_of_length (List.takeWhile_prefix _) all).symm
  · rfl

theorem readDigits (value : Document) (after : Bytes) (ends : (headToken value).Ends after) :
    (match ((headToken value).text ++ after).takeWhile isAsciiDigit with
      | [] => none
      | digits => parseDigits 0 digits) = leadingDigitsOf value := by
  cases value with
  | number text =>
    have digits := takeWhile_number text after ends
    show (match (text ++ after).takeWhile isAsciiDigit with
      | [] => none
      | digits => parseDigits 0 digits) = _
    rw [digits, leadingDigitsOf]
    split
    · rename_i none
      rw [none]
      rfl
    · rename_i some
      rw [if_neg some, parseDigits_zero]
  | null => rfl
  | bool b => cases b <;> rfl
  | string raw => rfl
  | array elements => rfl
  | object members => rfl

theorem readBool (value : Document) (after : Bytes) (ends : (headToken value).Ends after) :
    (if (ascii "true").isPrefixOf ((headToken value).text ++ after) then some true
      else if (ascii "false").isPrefixOf ((headToken value).text ++ after) then some false
      else none) = boolOf value := by
  have words : ascii "true" = 116 :: ascii "rue" ∧ ascii "false" = 102 :: ascii "alse" := by decide
  have other (c : UInt8) (rest : Bytes) (t : c ≠ 116) (f : c ≠ 102) :
      (if (ascii "true").isPrefixOf (c :: rest) then some true
        else if (ascii "false").isPrefixOf (c :: rest) then some false else none) = none := by
    rw [words.1, words.2, if_neg, if_neg]
    · intro begins
      exact f (List.cons_prefix_cons.mp (List.isPrefixOf_iff_prefix.mp begins)).1.symm
    · intro begins
      exact t (List.cons_prefix_cons.mp (List.isPrefixOf_iff_prefix.mp begins)).1.symm
  cases value with
  | bool b =>
    cases b with
    | true =>
      have begins : (ascii "true").isPrefixOf ((Token.bool true).text ++ after) = true :=
        List.isPrefixOf_iff_prefix.mpr ⟨after, rfl⟩
      rw [headToken, if_pos begins]
      rfl
    | false =>
      have begins : (ascii "false").isPrefixOf ((Token.bool false).text ++ after) = true :=
        List.isPrefixOf_iff_prefix.mpr ⟨after, rfl⟩
      have not_true : ¬(ascii "true").isPrefixOf ((Token.bool false).text ++ after) = true := by
        rw [words.1, List.isPrefixOf_iff_prefix]
        intro first
        exact absurd (List.cons_prefix_cons.mp first).1 (by decide)
      rw [headToken, if_neg not_true, if_pos begins]
      rfl
  | null => exact other 110 _ (by decide) (by decide)
  | string raw => exact other 34 _ (by decide) (by decide)
  | array elements => exact other 91 _ (by decide) (by decide)
  | object members => exact other 123 _ (by decide) (by decide)
  | number text =>
    obtain ⟨c, rest, split⟩ := text_nonempty (.number text) after ends
    have char : isNumberChar c = true :=
      ends.2.1 c (show c ∈ (Token.number text).text by rw [split]; exact List.mem_cons_self)
    rw [headToken, split]
    apply other c
    · rintro rfl
      exact absurd char (by decide)
    · rintro rfl
      exact absurd char (by decide)

/-- The text spells the document, in which one member has the name, and this value. -/
structure ClaimIn (text key : Bytes) (document value : Document) : Prop where
  wellFormed : parse text = some document
  once : ∃ name, document.named key = [(name, value)]

/-- The raw contents, if the value is a string; the number, if it is an unsigned integer that fits;
the truth value, if it is one. -/
structure ExtractsClaim (text key : Bytes) (value : Document) : Prop where
  string : jsonGetString text key = stringOf value
  unsigned : jsonGetU64 text key = unsignedOf value
  boolean : jsonGetBool text key = boolOf value

/-- The first member whose name is written as the claim's, or ends in an escaped quote and that, has
the same string as the claim's member, the same truth value, and a number that starts with digits
that fit exactly if the claim's member is an unsigned integer that fits, and then the same. -/
structure ScannedAlike (document : Document) (key : Bytes) (value : Document) : Prop where
  string : (firstScanned document key).bind stringOf = stringOf value
  leadingDigits : (firstScanned document key).bind leadingDigitsOf = unsignedOf value
  boolean : (firstScanned document key).bind boolOf = boolOf value

section

variable {key text : Bytes} {document : Document} (claim : IsClaimName key)
  (wellFormed : parse text = some document)

include claim wellFormed

/-- Each reading of the first scanned value. -/
theorem scan_bind {α : Type} (read : Bytes → Option α) (expected : Document → Option α)
    (agree : ∀ found value after, skipWhitespace found = (headToken value).text ++ after →
      (headToken value).Ends after → read found = expected value) :
    (jsonFindKey key text).bind read = (firstScanned document key).bind expected := by
  obtain ⟨absent, present⟩ := find_document key text document claim wellFormed
  cases first : firstScanned document key with
  | none =>
    rw [absent first]
    rfl
  | some value =>
    obtain ⟨found, rest, located, lexes⟩ := present value first
    obtain ⟨after, skipped, ends⟩ := value_text found value rest lexes
    rw [located]
    exact agree found value after skipped ends

theorem jsonGetString_eq : jsonGetString text key = (firstScanned document key).bind stringOf := by
  apply scan_bind claim wellFormed
  intro found value after skipped ends
  rw [skipped]
  exact readString value after ends

theorem jsonGetU64_eq : jsonGetU64 text key = (firstScanned document key).bind leadingDigitsOf := by
  apply scan_bind claim wellFormed
  intro found value after skipped ends
  rw [skipped]
  exact readDigits value after ends

theorem jsonGetBool_eq : jsonGetBool text key = (firstScanned document key).bind boolOf := by
  apply scan_bind claim wellFormed
  intro found value after skipped ends
  rw [skipped]
  exact readBool value after ends

end

/-- A claim is extracted as it should be exactly if the member that the scanner stops
at reads like it. -/
theorem jsonGet_exact_iff (key text : Bytes) (document value : Document) (claim : IsClaimName key)
    (inside : ClaimIn text key document value) :
    ExtractsClaim text key value ↔ ScannedAlike document key value := by
  have strings := jsonGetString_eq claim inside.wellFormed
  have digits := jsonGetU64_eq claim inside.wellFormed
  have booleans := jsonGetBool_eq claim inside.wellFormed
  constructor
  · intro extracts
    exact ⟨strings ▸ extracts.string, digits ▸ extracts.unsigned, booleans ▸ extracts.boolean⟩
  · intro alike
    exact ⟨strings.trans alike.string, digits.trans alike.leadingDigits,
      booleans.trans alike.boolean⟩

/-- In a document with the claim's name as it is, no name that ends in an escaped quote and it, and
no number there but an unsigned integer, the claim is extracted. -/
theorem scannedAlike_plain (key text : Bytes) (document value : Document) (claim : IsClaimName key)
    (inside : ClaimIn text key document value)
    (plain : ∀ m ∈ document.allMembers, unescape m.1 = some key → m.1 = key)
    (apart : ∀ m ∈ document.allMembers, scans key m.1 = true → m.1 = key)
    (integer : leadingDigitsOf value = unsignedOf value) : ScannedAlike document key value := by
  obtain ⟨name, once⟩ := inside.once
  have spelled : unescape key = some key := by
    apply unescape_plain
    intro c hc
    have allowed := claim c hc
    simp only [List.mem_cons, not_or] at allowed
    exact allowed.2.1
  have member : (name, value) ∈ document.named key := by rw [once]; exact List.mem_cons_self
  obtain ⟨held, named⟩ := List.mem_filter.mp member
  have written : name = key := plain (name, value) held (of_decide_eq_true named)
  have first : document.allMembers.find? (fun m => scans key m.1) = some (name, value) := by
    cases found : document.allMembers.find? (fun m => scans key m.1) with
    | none =>
      have unscanned := List.find?_eq_none.mp found (name, value) held
      have itself : 34 :: key <:+ 34 :: name := written ▸ List.suffix_rfl
      exact absurd ((scans_iff key name).mpr itself) unscanned
    | some m =>
      have stops : m.1 = key := by
        apply apart m (List.mem_of_find?_eq_some found)
        exact List.find?_some (p := fun m : Bytes × Document => scans key m.1) found
      have among : m ∈ document.named key := by
        refine List.mem_filter.mpr ⟨List.mem_of_find?_eq_some found, ?_⟩
        rw [stops, spelled]
        exact decide_eq_true rfl
      rw [once] at among
      rw [List.mem_singleton.mp among]
  have scanned : firstScanned document key = some value := by
    rw [firstScanned, first]
    rfl
  constructor
  · rw [scanned]
    rfl
  · rw [scanned]
    exact integer
  · rw [scanned]
    rfl

/-- The names of the claims that the verifier reads. -/
example : ∀ key ∈ ["alg", "kid", "iat", "exp", "iss", "aud", "secboot", "dbgstat",
    "image_digest"].map ascii, IsClaimName key := by decide +kernel

/-- An expiry with a fraction. -/
def fractionText : Bytes := ascii "\x7b\"exp\":1.5\x7d"

def fraction : Document := .number (ascii "1.5")

def fractionDocument : Document := .object (.member (ascii "exp") fraction .noMember)

theorem fraction_claim : ClaimIn fractionText (ascii "exp") fractionDocument fraction :=
  ⟨by decide +kernel, ascii "exp", by decide +kernel⟩

/-- The fraction is cut off. -/
theorem jsonGet_fraction :
    ¬∀ key text document value, IsClaimName key → ClaimIn text key document value →
      ExtractsClaim text key value := by
  intro extracts
  have extracted := extracts (ascii "exp") fractionText fractionDocument fraction
    (by decide +kernel) fraction_claim
  exact absurd extracted.unsigned (by decide +kernel)

/-- A name that stands within a string, too. -/
def quotedText : Bytes := ascii "\x7b\"nonce\": \"\\\"exp\\\": 7\", \"exp\": 12\x7d"

def quotedDocument : Document :=
  .object (.member (ascii "nonce") (.string (ascii "\\\"exp\\\": 7"))
    (.member (ascii "exp") (.number (ascii "12")) .noMember))

theorem jsonGet_exact_iff_quoted :
    ExtractsClaim quotedText (ascii "exp") (.number (ascii "12")) := by
  have inside : ClaimIn quotedText (ascii "exp") quotedDocument (.number (ascii "12")) :=
    ⟨by decide +kernel, ascii "exp", by decide +kernel⟩
  exact (jsonGet_exact_iff _ _ _ _ (by decide +kernel) inside).mpr
    ⟨by decide +kernel, by decide +kernel, by decide +kernel⟩

end SyndDB.Stylus
