import SyndDB.Framework.Octets
import Mathlib.Data.List.TakeWhile

namespace Json

open Octets

/-- Strings and numbers are kept the way they are written. -/
inductive Token where
  | openBrace
  | closeBrace
  | openBracket
  | closeBracket
  | comma
  | colon
  | null
  | bool (b : Bool)
  | number (text : Bytes)
  | string (raw : Bytes)
  deriving DecidableEq

def isSpace (c : UInt8) : Bool := c = 32 || c = 9 || c = 10 || c = 13

def isDigit (c : UInt8) : Bool := 48 ≤ c && c ≤ 57

def isHexDigit (c : UInt8) : Bool := isDigit c || (65 ≤ c && c ≤ 70) || (97 ≤ c && c ≤ 102)

/-- What may follow a backslash: one of `"\/bfnrt`, or `u` and four hexadecimal digits. -/
def isEscape (c : UInt8) (rest : Bytes) : Bool :=
  [34, 92, 47, 98, 102, 110, 114, 116].contains c ||
    (c = 117 && 4 ≤ rest.length && (rest.take 4).all isHexDigit)

/-- The text up to the closing quote, and what follows the quote. -/
def stringBody : Bytes → Option (Bytes × Bytes)
  | [] => none
  | c :: rest =>
      if c = 34 then some ([], rest)
      else if c < 32 then none
      else if c = 92 then
        match rest with
        | [] => none
        | e :: rest =>
            if isEscape e rest then
              (stringBody rest).map fun (raw, after) => (92 :: e :: raw, after)
            else none
      else (stringBody rest).map fun (raw, after) => (c :: raw, after)

def isNumberChar (c : UInt8) : Bool := isDigit c || c = 43 || c = 45 || c = 46 || c = 69 || c = 101

/-- What follows at least one digit. -/
def afterDigits (text : Bytes) : Option Bytes :=
  if text.takeWhile isDigit = [] then none else some (text.dropWhile isDigit)

/-- A number does not start with a zero and another digit. -/
def afterInteger : Bytes → Option Bytes
  | [] => none
  | c :: rest => if c = 48 then some rest else afterDigits (c :: rest)

def afterFraction : Bytes → Option Bytes
  | [] => some []
  | c :: rest => if c = 46 then afterDigits rest else some (c :: rest)

def afterExponent : Bytes → Option Bytes
  | [] => some []
  | c :: rest =>
      if c = 69 ∨ c = 101 then
        match rest with
        | [] => none
        | sign :: more => if sign = 43 ∨ sign = 45 then afterDigits more else afterDigits rest
      else some (c :: rest)

def isNumber (text : Bytes) : Bool :=
  let unsigned := if text.head? = some 45 then text.tail else text
  (afterInteger unsigned >>= afterFraction >>= afterExponent) = some []

def literal (word : Bytes) (t : Token) (text : Bytes) : Option (Token × Bytes) :=
  if word.isPrefixOf text then some (t, text.drop word.length) else none

def punctuation : List (UInt8 × Token) :=
  [(123, .openBrace), (125, .closeBrace), (91, .openBracket), (93, .closeBracket), (44, .comma),
   (58, .colon)]

def number (text : Bytes) : Option (Token × Bytes) :=
  let chars := text.takeWhile isNumberChar
  if isNumber chars then some (.number chars, text.dropWhile isNumberChar) else none

/-- The token that starts with a character, and what follows it. -/
def token (c : UInt8) (rest : Bytes) : Option (Token × Bytes) :=
  match punctuation.lookup c with
  | some t => some (t, rest)
  | none =>
      if c = 34 then (stringBody rest).map fun (raw, after) => (.string raw, after)
      else if c = 116 then literal (ascii "rue") (.bool true) rest
      else if c = 102 then literal (ascii "alse") (.bool false) rest
      else if c = 110 then literal (ascii "ull") .null rest
      else if c = 45 || isDigit c then number (c :: rest)
      else none

def lex : Nat → Bytes → Option (List Token)
  | _, [] => some []
  | 0, _ :: _ => none
  | n + 1, c :: rest =>
      if isSpace c then lex n rest
      else match token c rest with
        | none => none
        | some (t, after) => (lex n after).map (t :: ·)

/-- The tokens of a text. Every token takes a character, so the length of the text
is fuel enough. -/
def tokens (text : Bytes) : Option (List Token) := lex text.length text

def Token.text : Token → Bytes
  | .openBrace => [123]
  | .closeBrace => [125]
  | .openBracket => [91]
  | .closeBracket => [93]
  | .comma => [44]
  | .colon => [58]
  | .null => ascii "null"
  | .bool true => ascii "true"
  | .bool false => ascii "false"
  | .number text => text
  | .string raw => 34 :: (raw ++ [34])

/-- The body of a string that is closed before `after`. -/
inductive Quoted (after : Bytes) : Bytes → Prop where
  | nil : Quoted after []
  | escape (e : UInt8) (raw : Bytes) :
      isEscape e (raw ++ 34 :: after) = true → Quoted after raw → Quoted after (92 :: e :: raw)
  | char (c : UInt8) (raw : Bytes) :
      c ≠ 34 → c ≠ 92 → ¬c < 32 → Quoted after raw → Quoted after (c :: raw)

/-- A token that is followed by `rest` ends where it does. -/
def Token.Ends (rest : Bytes) : Token → Prop
  | .number text => isNumber text = true ∧ (∀ c ∈ text, isNumberChar c = true) ∧
      ∀ c ∈ rest.head?, isNumberChar c = false
  | .string raw => Quoted rest raw
  | _ => True

theorem stringBody_spec (text raw after : Bytes) (h : stringBody text = some (raw, after)) :
    text = raw ++ 34 :: after ∧ Quoted after raw := by
  fun_induction stringBody text generalizing raw with
  | case1 => cases h
  | case2 =>
    cases h
    exact ⟨rfl, .nil⟩
  | case3 => cases h
  | case4 => cases h
  | case5 e rest escape _ _ ih =>
    obtain ⟨⟨body, _⟩, found, same⟩ := Option.map_eq_some_iff.mp h
    cases same
    obtain ⟨rfl, quoted⟩ := ih body found
    exact ⟨rfl, .escape e body escape quoted⟩
  | case6 => cases h
  | case7 c rest quote control backslash ih =>
    obtain ⟨⟨body, _⟩, found, same⟩ := Option.map_eq_some_iff.mp h
    cases same
    obtain ⟨rfl, quoted⟩ := ih body found
    exact ⟨rfl, .char c body quote backslash control quoted⟩

theorem literal_spec (word : Bytes) (t u : Token) (text after : Bytes)
    (h : literal word t text = some (u, after)) : u = t ∧ text = word ++ after := by
  unfold literal at h
  split at h
  · rename_i found
    cases h
    obtain ⟨more, rfl⟩ := List.isPrefixOf_iff_prefix.mp found
    exact ⟨rfl, by rw [List.drop_left]⟩
  · cases h

theorem punctuation_spec (c : UInt8) (t : Token) (h : punctuation.lookup c = some t) :
    t.text = [c] ∧ ∀ rest, t.Ends rest := by
  obtain ⟨before, after, same, -⟩ := List.lookup_eq_some_iff.mp h
  have entry : (c, t) ∈ punctuation := by
    rw [same]
    exact List.mem_append_right before List.mem_cons_self
  simp only [punctuation, List.mem_cons, Prod.mk.injEq, List.not_mem_nil, or_false] at entry
  rcases entry with ⟨rfl, rfl⟩ | ⟨rfl, rfl⟩ | ⟨rfl, rfl⟩ | ⟨rfl, rfl⟩ | ⟨rfl, rfl⟩ | ⟨rfl, rfl⟩
  all_goals exact ⟨rfl, fun _ => trivial⟩

theorem number_spec (text after : Bytes) (t : Token) (h : number text = some (t, after)) :
    text = t.text ++ after ∧ t.Ends after := by
  unfold number at h
  dsimp only at h
  split at h
  · rename_i valid
    cases h
    refine ⟨List.takeWhile_append_dropWhile.symm, valid, ?_, ?_⟩
    · intro c hc
      exact List.mem_takeWhile_imp hc
    · intro c hc
      have first := List.head?_dropWhile_not isNumberChar text
      rw [Option.mem_def.mp hc] at first
      simpa using first
  · cases h

/-- A token and what follows it make up the text. -/
theorem token_spec (c : UInt8) (rest after : Bytes) (t : Token)
    (h : token c rest = some (t, after)) :
    c :: rest = t.text ++ after ∧ t.Ends after := by
  unfold token at h
  split at h
  · rename_i known
    obtain ⟨text, ends⟩ := punctuation_spec _ _ known
    cases h
    exact ⟨by rw [text]; rfl, ends _⟩
  · split at h
    · rename_i quote
      obtain ⟨⟨raw, _⟩, found, same⟩ := Option.map_eq_some_iff.mp h
      cases same
      obtain ⟨rfl, quoted⟩ := stringBody_spec _ _ _ found
      exact ⟨by rw [quote]; simp [Token.text], quoted⟩
    · split at h
      · rename_i first
        obtain ⟨rfl, rfl⟩ := literal_spec _ _ _ _ _ h
        exact ⟨by rw [first]; rfl, trivial⟩
      · split at h
        · rename_i first
          obtain ⟨rfl, rfl⟩ := literal_spec _ _ _ _ _ h
          exact ⟨by rw [first]; rfl, trivial⟩
        · split at h
          · rename_i first
            obtain ⟨rfl, rfl⟩ := literal_spec _ _ _ _ _ h
            exact ⟨by rw [first]; rfl, trivial⟩
          · split at h
            · exact number_spec _ _ _ h
            · cases h

/-- A text and its tokens. -/
inductive Lexes : Bytes → List Token → Prop where
  | nil : Lexes [] []
  | space (c : UInt8) (rest : Bytes) (ts : List Token) :
      isSpace c = true → Lexes rest ts → Lexes (c :: rest) ts
  | token (c : UInt8) (rest after : Bytes) (t : Token) (ts : List Token) :
      isSpace c = false → token c rest = some (t, after) → Lexes after ts →
        Lexes (c :: rest) (t :: ts)

theorem lex_lexes (n : Nat) (text : Bytes) (ts : List Token) (h : lex n text = some ts) :
    Lexes text ts := by
  fun_induction lex n text generalizing ts with
  | case1 =>
    cases h
    exact .nil
  | case2 => cases h
  | case3 n c rest space ih => exact .space c rest ts space (ih ts h)
  | case4 => cases h
  | case5 n c rest space t after found ih =>
    obtain ⟨us, lexed, rfl⟩ := Option.map_eq_some_iff.mp h
    exact .token c rest after t us (by simpa using space) found (ih us lexed)

theorem length_text_pos (rest : Bytes) (t : Token) (h : t.Ends rest) : 0 < t.text.length := by
  cases t with
  | number text =>
    cases text with
    | nil => exact absurd h.1 (by decide)
    | cons c text => exact Nat.succ_pos _
  | bool b =>
    cases b with
    | false => decide
    | true => decide
  | string raw => exact Nat.succ_pos _
  | _ => decide

theorem lex_of_lexes (text : Bytes) (ts : List Token) (h : Lexes text ts) (n : Nat)
    (fuel : text.length ≤ n) : lex n text = some ts := by
  induction h generalizing n with
  | nil => rw [lex.eq_def]
  | space c rest ts space _ ih =>
    obtain ⟨m, rfl⟩ : ∃ m, n = m + 1 := ⟨n - 1, by simp only [List.length_cons] at fuel; omega⟩
    rw [lex, if_pos space]
    exact ih m (by simpa using fuel)
  | token c rest after t ts space found _ ih =>
    obtain ⟨m, rfl⟩ : ∃ m, n = m + 1 := ⟨n - 1, by simp only [List.length_cons] at fuel; omega⟩
    obtain ⟨split, ends⟩ := token_spec c rest after t found
    have positive := length_text_pos after t ends
    have length := congrArg List.length split
    simp only [List.length_cons, List.length_append] at length fuel
    rw [lex, if_neg (by simp [space]), found]
    simp only [ih m (by omega), Option.map_some]

theorem tokens_iff (text : Bytes) (ts : List Token) : tokens text = some ts ↔ Lexes text ts :=
  ⟨lex_lexes _ text ts, fun h => lex_of_lexes text ts h _ (Nat.le_refl _)⟩

inductive Kind where
  | value
  | elements
  | members

/-- Values, and the elements and members of arrays and objects in the order they are written. -/
inductive Node : Kind → Type where
  | null : Node .value
  | bool (b : Bool) : Node .value
  | number (text : Bytes) : Node .value
  | string (raw : Bytes) : Node .value
  | array (elements : Node .elements) : Node .value
  | object (members : Node .members) : Node .value
  | noElement : Node .elements
  | element (value : Node .value) (rest : Node .elements) : Node .elements
  | noMember : Node .members
  | member (name : Bytes) (value : Node .value) (rest : Node .members) : Node .members
  deriving DecidableEq

abbrev Document := Node .value

def afterComma : List Token → List Token
  | .comma :: ts => ts
  | ts => ts

/-- A document as tokens. Elements and members start with a comma each and end with the
closing bracket. -/
def Node.tokens {k : Kind} : Node k → List Token
  | .null => [.null]
  | .bool b => [.bool b]
  | .number text => [.number text]
  | .string raw => [.string raw]
  | .array elements => .openBracket :: afterComma elements.tokens
  | .object members => .openBrace :: afterComma members.tokens
  | .noElement => [.closeBracket]
  | .element value rest => .comma :: (value.tokens ++ rest.tokens)
  | .noMember => [.closeBrace]
  | .member name value rest => .comma :: .string name :: .colon :: (value.tokens ++ rest.tokens)

/-- Two readings one after the other. -/
def andThen {α β γ : Type} (build : α → β → γ) (first : Option (α × List Token))
    (second : List Token → Option (β × List Token)) : Option (γ × List Token) := do
  let (a, ts) ← first
  let (b, ts) ← second ts
  return (build a b, ts)

/-- A reader of values, and of what is left of an array or an object. -/
abbrev Reader := (k : Kind) → List Token → Option (Node k × List Token)

def readValue (read : Reader) : List Token → Option (Document × List Token)
  | .null :: ts => some (.null, ts)
  | .bool b :: ts => some (.bool b, ts)
  | .number text :: ts => some (.number text, ts)
  | .string raw :: ts => some (.string raw, ts)
  | .openBracket :: .closeBracket :: ts => some (.array .noElement, ts)
  | .openBracket :: ts =>
      andThen (fun value rest => .array (.element value rest)) (read .value ts) (read .elements)
  | .openBrace :: .closeBrace :: ts => some (.object .noMember, ts)
  | .openBrace :: .string name :: .colon :: ts =>
      andThen (fun value rest => .object (.member name value rest)) (read .value ts) (read .members)
  | _ => none

def readElements (read : Reader) : List Token → Option (Node .elements × List Token)
  | .closeBracket :: ts => some (.noElement, ts)
  | .comma :: ts => andThen .element (read .value ts) (read .elements)
  | _ => none

def readMembers (read : Reader) : List Token → Option (Node .members × List Token)
  | .closeBrace :: ts => some (.noMember, ts)
  | .comma :: .string name :: .colon :: ts =>
      andThen (.member name) (read .value ts) (read .members)
  | _ => none

def read : Nat → Reader
  | 0, _ => fun _ => none
  | n + 1, .value => readValue (read n)
  | n + 1, .elements => readElements (read n)
  | n + 1, .members => readMembers (read n)

/-- The document a text spells. -/
def parse (text : Bytes) : Option Document := do
  let ts ← tokens text
  let (document, rest) ← read ts.length .value ts
  if rest = [] then some document else none

theorem andThen_some {α β γ : Type} (build : α → β → γ) (first : Option (α × List Token))
    (second : List Token → Option (β × List Token)) (c : γ) (after : List Token) :
    andThen build first second = some (c, after) ↔
      ∃ a between b, first = some (a, between) ∧ second between = some (b, after) ∧ c =
        build a b := by
  constructor
  · intro h
    obtain ⟨⟨a, between⟩, read, h⟩ := Option.bind_eq_some_iff.mp h
    obtain ⟨⟨b, rest⟩, read', h⟩ := Option.bind_eq_some_iff.mp h
    cases h
    exact ⟨a, between, b, read, read', rfl⟩
  · rintro ⟨a, between, b, read, read', rfl⟩
    simp [andThen, read, read']

theorem read_sound (n : Nat) (k : Kind) (ts after : List Token) (node : Node k)
    (h : read n k ts = some (node, after)) : ts = node.tokens ++ after := by
  induction n generalizing k ts after with
  | zero => cases h
  | succ n ih =>
    cases k with
    | value =>
      change readValue (read n) ts = _ at h
      unfold readValue at h
      split at h
      · cases h; rfl
      · cases h; rfl
      · cases h; rfl
      · cases h; rfl
      · cases h; rfl
      · obtain ⟨value, between, rest, first, second, rfl⟩ := (andThen_some _ _ _ _ _).mp h
        rw [ih _ _ _ _ first, ih _ _ _ _ second]
        simp [Node.tokens, afterComma]
      · cases h; rfl
      · obtain ⟨value, between, rest, first, second, rfl⟩ := (andThen_some _ _ _ _ _).mp h
        rw [ih _ _ _ _ first, ih _ _ _ _ second]
        simp [Node.tokens, afterComma]
      · cases h
    | elements =>
      change readElements (read n) ts = _ at h
      unfold readElements at h
      split at h
      · cases h; rfl
      · obtain ⟨value, between, rest, first, second, rfl⟩ := (andThen_some _ _ _ _ _).mp h
        rw [ih _ _ _ _ first, ih _ _ _ _ second]
        simp [Node.tokens]
      · cases h
    | members =>
      change readMembers (read n) ts = _ at h
      unfold readMembers at h
      split at h
      · cases h; rfl
      · obtain ⟨value, between, rest, first, second, rfl⟩ := (andThen_some _ _ _ _ _).mp h
        rw [ih _ _ _ _ first, ih _ _ _ _ second]
        simp [Node.tokens]
      · cases h

theorem readValue_array (read : Reader) (value : Document) (ts : List Token) :
    readValue read (.openBracket :: (value.tokens ++ ts)) =
      andThen (fun value rest => .array (.element value rest)) (read .value (value.tokens ++ ts))
        (read .elements) := by
  cases value <;> rfl

theorem length_tokens_pos {k : Kind} (node : Node k) : 0 < node.tokens.length := by
  cases node <;> simp [Node.tokens]

theorem fuel_of_tokens {k : Kind} (node : Node k) (n : Nat) (fuel : node.tokens.length ≤ n) :
    ∃ m, n = m + 1 := by
  have positive := length_tokens_pos node
  exact ⟨n - 1, by omega⟩

/-- A value and what comes after it, one after the other. -/
theorem andThen_tokens {k : Kind} {α : Type} (build : Document → Node k → α) (m : Nat)
    (value : Document) (rest : Node k) (after : List Token)
    (first : read m .value (value.tokens ++ (rest.tokens ++ after)) =
      some (value, rest.tokens ++ after))
    (second : read m k (rest.tokens ++ after) = some (rest, after)) :
    andThen build (read m .value (value.tokens ++ rest.tokens ++ after)) (read m k) =
      some (build value rest, after) := by
  rw [← List.append_assoc] at first
  exact (andThen_some _ _ _ _ _).mpr ⟨value, _, rest, first, second, rfl⟩

theorem read_tokens (k : Kind) (node : Node k) (n : Nat) (after : List Token)
    (fuel : node.tokens.length ≤ n) : read n k (node.tokens ++ after) = some (node, after) := by
  induction node generalizing n after with
  | null | bool | number | string | noElement | noMember =>
    obtain ⟨m, rfl⟩ := fuel_of_tokens _ n fuel
    rfl
  | array elements ih =>
    obtain ⟨m, rfl⟩ := fuel_of_tokens _ n fuel
    cases elements with
    | noElement => rfl
    | element value rest =>
      have length : (Node.element value rest).tokens.length ≤ m + 1 := by
        simpa [Node.tokens, afterComma] using fuel
      obtain ⟨_, between, _, first, second, same⟩ :=
        (andThen_some _ _ _ _ _).mp (ih (m + 1) after length)
      cases same
      have opened := readValue_array (read m) value (rest.tokens ++ after)
      rw [← List.append_assoc] at opened
      exact opened.trans ((andThen_some _ _ _ _ _).mpr ⟨value, between, rest, first, second, rfl⟩)
  | object members ih =>
    obtain ⟨m, rfl⟩ := fuel_of_tokens _ n fuel
    cases members with
    | noMember => rfl
    | member name value rest =>
      have length : (Node.member name value rest).tokens.length ≤ m + 1 := by
        simpa [Node.tokens, afterComma] using fuel
      obtain ⟨_, between, _, first, second, same⟩ :=
        (andThen_some _ _ _ _ _).mp (ih (m + 1) after length)
      cases same
      change andThen (fun value rest => Node.object (.member name value rest))
        (read m .value (value.tokens ++ rest.tokens ++ after)) (read m .members) = _
      exact (andThen_some _ _ _ _ _).mpr ⟨value, between, rest, first, second, rfl⟩
  | element value rest ih ih' =>
    obtain ⟨m, rfl⟩ := fuel_of_tokens _ n fuel
    simp only [Node.tokens, List.length_cons, List.length_append] at fuel
    have first := ih m (rest.tokens ++ after) (by omega)
    have second := ih' m after (by omega)
    exact andThen_tokens _ m value rest after first second
  | member name value rest ih ih' =>
    obtain ⟨m, rfl⟩ := fuel_of_tokens _ n fuel
    simp only [Node.tokens, List.length_cons, List.length_append] at fuel
    have first := ih m (rest.tokens ++ after) (by omega)
    have second := ih' m after (by omega)
    exact andThen_tokens _ m value rest after first second

/-- A text spells a document exactly if its tokens are the document's. -/
theorem parse_iff (text : Bytes) (document : Document) :
    parse text = some document ↔ tokens text = some document.tokens := by
  rw [parse, Option.bind_eq_bind, Option.bind_eq_some_iff]
  constructor
  · rintro ⟨ts, lexed, h⟩
    obtain ⟨⟨found, rest⟩, whole, h⟩ := Option.bind_eq_some_iff.mp h
    change (if rest = [] then some found else none) = some document at h
    by_cases empty : rest = []
    · rw [if_pos empty] at h
      cases h
      have same := read_sound _ _ _ _ _ whole
      rw [empty, List.append_nil] at same
      rw [lexed, same]
    · rw [if_neg empty] at h
      cases h
  · intro lexed
    have whole := read_tokens .value document document.tokens.length [] (Nat.le_refl _)
    rw [List.append_nil] at whole
    refine ⟨document.tokens, lexed, ?_⟩
    rw [whole]
    rfl

/-- The members at every depth, in the order in which they are written. -/
def Node.allMembers {k : Kind} : Node k → List (Bytes × Document)
  | .array elements => elements.allMembers
  | .object members => members.allMembers
  | .element value rest => value.allMembers ++ rest.allMembers
  | .member name value rest => (name, value) :: (value.allMembers ++ rest.allMembers)
  | _ => []

/-- What follows the first name with the property. -/
def afterName (p : Bytes → Bool) : List Token → Option (List Token)
  | .string raw :: .colon :: ts => if p raw then some ts else afterName p ts
  | _ :: ts => afterName p ts
  | [] => none

theorem afterName_comma (p : Bytes → Bool) (ts : List Token) :
    afterName p (afterComma ts) = afterName p ts := by
  unfold afterComma
  split
  · rfl
  · rfl

theorem afterName_string (p : Bytes → Bool) (raw : Bytes) (ts : List Token)
    (h : ts.head? ≠ some .colon) : afterName p (.string raw :: ts) = afterName p ts := by
  cases ts with
  | nil => rfl
  | cons t ts => cases t <;> first | rfl | simp at h

theorem head_rest {k : Kind} (node : Node k) (after : List Token) :
    (node.tokens ++ after).head? ≠ some .colon := by
  cases node <;> simp [Node.tokens]

/-- What the search for a name finds in tokens that hold these members. -/
structure FindsName (p : Bytes → Bool) (members : List (Bytes × Document)) (ts after : List Token) :
    Prop where
  absent : members.find? (fun m => p m.1) = none → afterName p ts = afterName p after
  present : ∀ m, members.find? (fun m => p m.1) = some m →
    ∃ rest, afterName p ts = some (m.2.tokens ++ rest)

theorem findsName_nil (p : Bytes → Bool) (ts after : List Token)
    (h : afterName p ts = afterName p after) : FindsName p [] ts after :=
  ⟨fun _ => h, fun m found => by cases found⟩

theorem findsName_append (p : Bytes → Bool) (ms ns : List (Bytes × Document))
    (ts between after : List Token) (first : FindsName p ms ts between)
    (second : FindsName p ns between after) : FindsName p (ms ++ ns) ts after := by
  constructor
  · intro none
    rw [List.find?_append, Option.or_eq_none_iff] at none
    rw [first.absent none.1, second.absent none.2]
  · intro m found
    rw [List.find?_append] at found
    cases here : ms.find? (fun m => p m.1) with
    | some n =>
      rw [here, Option.some_or] at found
      obtain ⟨rest, same⟩ := first.present n here
      cases found
      exact ⟨rest, same⟩
    | none =>
      rw [here, Option.none_or] at found
      rw [first.absent here]
      exact second.present m found

theorem afterComma_append {k : Kind} (node : Node k) (after : List Token) :
    afterComma node.tokens ++ after = afterComma (node.tokens ++ after) := by
  cases node <;> rfl

/-- The first name in the text is that of the first member. -/
theorem afterName_tokens (p : Bytes → Bool) {k : Kind} (node : Node k) (after : List Token)
    (h : after.head? ≠ some .colon) : FindsName p node.allMembers (node.tokens ++ after) after := by
  induction node generalizing after with
  | null => exact findsName_nil p _ after rfl
  | bool b => exact findsName_nil p _ after rfl
  | number text => exact findsName_nil p _ after rfl
  | string raw => exact findsName_nil p _ after (afterName_string p raw after h)
  | noElement => exact findsName_nil p _ after rfl
  | noMember => exact findsName_nil p _ after rfl
  | array elements ih =>
    have inner := ih after h
    have skip : afterName p ((Node.array elements).tokens ++ after) =
        afterName p (elements.tokens ++ after) := by
      show afterName p (afterComma elements.tokens ++ after) = _
      rw [afterComma_append, afterName_comma]
    exact ⟨fun none => skip.trans (inner.absent none), fun m found => skip ▸ inner.present m found⟩
  | object members ih =>
    have inner := ih after h
    have skip : afterName p ((Node.object members).tokens ++ after) =
        afterName p (members.tokens ++ after) := by
      show afterName p (afterComma members.tokens ++ after) = _
      rw [afterComma_append, afterName_comma]
    exact ⟨fun none => skip.trans (inner.absent none), fun m found => skip ▸ inner.present m found⟩
  | element value rest ih ih' =>
    have inner := findsName_append p _ _ _ _ _ (ih (rest.tokens ++ after) (head_rest rest after))
      (ih' after h)
    have skip : afterName p ((Node.element value rest).tokens ++ after) =
        afterName p (value.tokens ++ (rest.tokens ++ after)) := by
      show afterName p (value.tokens ++ rest.tokens ++ after) = _
      rw [List.append_assoc]
    exact ⟨fun none => skip.trans (inner.absent none), fun m found => skip ▸ inner.present m found⟩
  | member name value rest ih ih' =>
    have inner := findsName_append p _ _ _ _ _ (ih (rest.tokens ++ after) (head_rest rest after))
      (ih' after h)
    have skip : afterName p ((Node.member name value rest).tokens ++ after) =
        if p name then some (value.tokens ++ (rest.tokens ++ after))
        else afterName p (value.tokens ++ (rest.tokens ++ after)) := by
      show (if p name then some (value.tokens ++ rest.tokens ++ after)
        else afterName p (value.tokens ++ rest.tokens ++ after)) = _
      rw [List.append_assoc]
    have members : (Node.member name value rest).allMembers =
        (name, value) :: (value.allMembers ++ rest.allMembers) := rfl
    rw [members]
    constructor
    · intro none
      rw [List.find?_cons] at none
      cases wanted : p name with
      | true => simp [wanted] at none
      | false =>
        simp only [wanted] at none
        rw [skip, wanted]
        exact inner.absent none
    · intro m found
      rw [List.find?_cons] at found
      cases wanted : p name with
      | true =>
        simp only [wanted] at found
        cases found
        rw [skip, wanted]
        exact ⟨rest.tokens ++ after, rfl⟩
      | false =>
        simp only [wanted] at found
        rw [skip, wanted]
        exact inner.present m found

def Token.follows : Token → Bool
  | .comma => true
  | .colon => true
  | .closeBrace => true
  | .closeBracket => true
  | _ => false

/-- Strings are followed by a comma, a colon or a closing bracket. -/
def Separated : List Token → Prop
  | [] => True
  | .string _ :: ts => (∀ t ∈ ts.head?, t.follows = true) ∧ Separated ts
  | _ :: ts => Separated ts

theorem separated_tail (t : Token) (ts : List Token) (h : Separated (t :: ts)) : Separated ts := by
  cases t with
  | string raw => exact h.2
  | _ => exact h

theorem separated_afterComma (ts : List Token) (h : Separated ts) : Separated (afterComma ts) := by
  unfold afterComma
  split
  · exact separated_tail _ _ h
  · exact h

theorem follows_elements (node : Node .elements) (after : List Token) :
    ∀ t ∈ (node.tokens ++ after).head?, t.follows = true := by
  cases node <;> simp [Node.tokens, Token.follows]

theorem follows_members (node : Node .members) (after : List Token) :
    ∀ t ∈ (node.tokens ++ after).head?, t.follows = true := by
  cases node <;> simp [Node.tokens, Token.follows]

theorem separated_tokens {k : Kind} (node : Node k) (after : List Token)
    (first : ∀ t ∈ after.head?, t.follows = true) (rest : Separated after) :
    Separated (node.tokens ++ after) := by
  induction node generalizing after with
  | null => exact rest
  | bool b => exact rest
  | number text => exact rest
  | string raw => exact ⟨first, rest⟩
  | noElement => exact rest
  | noMember => exact rest
  | array elements ih =>
    show Separated (afterComma elements.tokens ++ after)
    rw [afterComma_append]
    exact separated_afterComma _ (ih after first rest)
  | object members ih =>
    show Separated (afterComma members.tokens ++ after)
    rw [afterComma_append]
    exact separated_afterComma _ (ih after first rest)
  | element value others ih ih' =>
    show Separated (value.tokens ++ others.tokens ++ after)
    rw [List.append_assoc]
    exact ih _ (follows_elements others after) (ih' after first rest)
  | member name value others ih ih' =>
    have behind : Separated (value.tokens ++ others.tokens ++ after) := by
      rw [List.append_assoc]
      exact ih _ (follows_members others after) (ih' after first rest)
    refine ⟨?_, behind⟩
    intro t ht
    obtain rfl : Token.colon = t := Option.some.inj ht
    rfl

inductive Piece where
  | byte (c : UInt8)
  | unit (n : Nat)

def shortEscapes : List (UInt8 × UInt8) :=
  [(34, 34), (92, 92), (47, 47), (98, 8), (102, 12), (110, 10), (114, 13), (116, 9)]

def hexDigitValue (c : UInt8) : Nat :=
  if isDigit c then c.toNat - 48 else if c < 97 then c.toNat - 55 else c.toNat - 87

def codeUnit (digits : Bytes) : Nat := digits.foldl (fun n c => n * 16 + hexDigitValue c) 0

/-- The bytes of a string, and the UTF-16 code units that it writes in hexadecimal digits. -/
def pieces : Bytes → Option (List Piece)
  | [] => some []
  | c :: rest =>
      if c ≠ 92 then (pieces rest).map (.byte c :: ·)
      else match rest with
        | [] => none
        | e :: rest =>
            if e ≠ 117 then do
              let c ← shortEscapes.lookup e
              (pieces rest).map (.byte c :: ·)
            else match rest with
              | a :: b :: c :: d :: rest => (pieces rest).map (.unit (codeUnit [a, b, c, d]) :: ·)
              | _ => none

/-- Two surrogates make one character, and a single one makes none. -/
def join : List Piece → Option Bytes
  | [] => some []
  | .byte c :: rest => (join rest).map (c :: ·)
  | .unit n :: rest =>
      if 0xd800 ≤ n ∧ n < 0xdc00 then
        match rest with
        | .unit low :: rest =>
            if 0xdc00 ≤ low ∧ low < 0xe000 then
              (join rest).map (String.utf8EncodeChar
                (Char.ofNat (0x10000 + (n - 0xd800) * 0x400 + (low - 0xdc00))) ++ ·)
            else none
        | _ => none
      else if 0xdc00 ≤ n ∧ n < 0xe000 then none
      else (join rest).map (String.utf8EncodeChar (Char.ofNat n) ++ ·)

/-- What a string says. -/
def unescape (raw : Bytes) : Option Bytes := pieces raw >>= join

theorem pieces_plain (raw : Bytes) (h : ∀ c ∈ raw, c ≠ 92) : pieces raw = some (raw.map .byte) := by
  induction raw with
  | nil => rfl
  | cons c raw ih =>
    have rest := ih fun d hd => h d (List.mem_cons_of_mem c hd)
    rw [List.map_cons, pieces.eq_def]
    simp only [h c List.mem_cons_self, not_false_eq_true, if_true, ne_eq, rest, Option.map_some]

theorem join_bytes (raw : Bytes) : join (raw.map .byte) = some raw := by
  induction raw with
  | nil => rfl
  | cons c raw ih =>
    rw [List.map_cons, join, ih]
    rfl

/-- A string without backslashes says what is written. -/
theorem unescape_plain (raw : Bytes) (h : ∀ c ∈ raw, c ≠ 92) : unescape raw = some raw := by
  rw [unescape, pieces_plain raw h]
  exact join_bytes raw

example : unescape (ascii "e\\u0078p \\ud83d\\ude00") =
    some (ascii "exp " ++ [0xf0, 0x9f, 0x98, 0x80]) := by decide +kernel

/-- The members of this name at any depth. -/
def Document.named (document : Document) (name : Bytes) : List (Bytes × Document) :=
  document.allMembers.filter fun m => unescape m.1 = some name

end Json
