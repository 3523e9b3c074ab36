import SyndDB.Framework.Keccak

namespace Abi

open Octets

inductive AbiType where
  | uint (bits : Nat)
  | address
  | bytes32
  | bytes
  | array (element : AbiType)
  | tuple (components : List AbiType)

inductive AbiValue where
  | word (x : BitVec 256)
  | bytes (bs : Bytes)
  | array (vs : List AbiValue)
  | tuple (vs : List AbiValue)

mutual

/-- The name of a type in a signature. -/
def AbiType.name : AbiType → Bytes
  | .uint bits => ascii ("uint" ++ toString bits)
  | .address => ascii "address"
  | .bytes32 => ascii "bytes32"
  | .bytes => ascii "bytes"
  | .array element => element.name ++ ascii "[]"
  | .tuple components => ascii "(" ++ names components ++ ascii ")"

def names : List AbiType → Bytes
  | [] => []
  | [t] => t.name
  | t :: ts => t.name ++ ascii "," ++ names ts

end

structure Function where
  name : String
  inputs : List AbiType

def Function.signature (f : Function) : Bytes :=
  ascii f.name ++ (AbiType.tuple f.inputs).name

def Function.selector (f : Function) : Bytes := (Keccak.keccak256 f.signature).take 4

theorem Function.length_selector (f : Function) : f.selector.length = 4 := by
  rw [selector, List.length_take, Keccak.length_keccak256]
  rfl

mutual

def AbiType.isDynamic : AbiType → Bool
  | .bytes => true
  | .array _ => true
  | .tuple components => anyDynamic components
  | _ => false

def anyDynamic : List AbiType → Bool
  | [] => false
  | t :: ts => t.isDynamic || anyDynamic ts

end

mutual

/-- What a component takes in the head of a tuple: an offset, or the component itself. -/
def AbiType.headSize : AbiType → Nat
  | .tuple components => if anyDynamic components then 32 else headSizes components
  | _ => 32

def headSizes : List AbiType → Nat
  | [] => 0
  | t :: ts => t.headSize + headSizes ts

end

/-- A component of a tuple, encoded. -/
structure Part where
  isDynamic : Bool
  content : Bytes

def Part.headSize (p : Part) : Nat := if p.isDynamic then 32 else p.content.length

/-- The heads, where the first tail stands at the offset. -/
def heads : Nat → List Part → Bytes
  | _, [] => []
  | offset, p :: ps =>
      if p.isDynamic then bigEndian 32 offset ++ heads (offset + p.content.length) ps
      else p.content ++ heads offset ps

def tails : List Part → Bytes
  | [] => []
  | p :: ps => if p.isDynamic then p.content ++ tails ps else tails ps

def join (ps : List Part) : Bytes := heads (ps.map Part.headSize).sum ps ++ tails ps

/-- Zeros up to a multiple of 32 bytes. -/
def padded (bs : Bytes) : Bytes := bs ++ List.replicate ((32 - bs.length % 32) % 32) 0

mutual

def AbiValue.isDynamic : AbiValue → Bool
  | .word _ => false
  | .bytes _ => true
  | .array _ => true
  | .tuple vs => anyDynamicValue vs

def anyDynamicValue : List AbiValue → Bool
  | [] => false
  | v :: vs => v.isDynamic || anyDynamicValue vs

end

mutual

def AbiValue.encode : AbiValue → Bytes
  | .word x => bigEndian 32 x.toNat
  | .bytes bs => bigEndian 32 bs.length ++ padded bs
  | .array vs => bigEndian 32 vs.length ++ join (parts vs)
  | .tuple vs => join (parts vs)

def parts : List AbiValue → List Part
  | [] => []
  | v :: vs => ⟨v.isDynamic, v.encode⟩ :: parts vs

end

/-- A value is read from the bytes that start with it and go on to the end of the calldata. -/
def readWord (data : Bytes) : Option (BitVec 256) :=
  if data.length < 32 then none else some (BitVec.ofNat 256 (fromBigEndian (data.take 32)))

/-- Lengths and offsets of 64 bits and more are refused. -/
def readLength (data : Bytes) : Option Nat := do
  let x ← readWord data
  if x.toNat < 2 ^ 64 then some x.toNat else none

def readBounded (bound : Nat) (data : Bytes) : Option AbiValue := do
  let x ← readWord data
  if x.toNat < bound then some (.word x) else none

def readBytes (data : Bytes) : Option AbiValue := do
  let length ← readLength data
  if data.length < 32 + length then none else some (.bytes ((data.drop 32).take length))

/-- The component at a position of a head. -/
def component (isDynamic : Bool) (read : Bytes → Option AbiValue) (data : Bytes) (position : Nat) :
    Option AbiValue :=
  if isDynamic then do
    let offset ← readLength (data.drop position)
    read (data.drop offset)
  else read (data.drop position)

def elements (isDynamic : Bool) (size : Nat) (read : Bytes → Option AbiValue) (data : Bytes) :
    Nat → Nat → Option (List AbiValue)
  | 0, _ => some []
  | n + 1, position => do
      let v ← component isDynamic read data position
      let vs ← elements isDynamic size read data n (position + size)
      return v :: vs

mutual

def AbiType.decode : AbiType → Bytes → Option AbiValue
  | .uint bits, data => readBounded (2 ^ bits) data
  | .address, data => readBounded (2 ^ 160) data
  | .bytes32, data => readBounded (2 ^ 256) data
  | .bytes, data => readBytes data
  | .array element, data => do
      let length ← readLength data
      let vs ← elements element.isDynamic element.headSize (fun d => element.decode d)
        (data.drop 32) length 0
      return .array vs
  | .tuple ts, data => do
      let vs ← decodeAll ts data 0
      return .tuple vs

def decodeAll : List AbiType → Bytes → Nat → Option (List AbiValue)
  | [], _, _ => some []
  | t :: ts, data, position => do
      let v ← component t.isDynamic (fun d => t.decode d) data position
      let vs ← decodeAll ts data (position + t.headSize)
      return v :: vs

end

example : (Function.mk "transfer" [.address, .uint 256]).selector = [0xa9, 0x05, 0x9c, 0xbb] := by
  decide +kernel

mutual

def AbiType.Has : AbiType → AbiValue → Prop
  | .uint bits, .word x => x.toNat < 2 ^ bits
  | .address, .word x => x.toNat < 2 ^ 160
  | .bytes32, .word _ => True
  | .bytes, .bytes _ => True
  | .array element, .array vs => vs.length < 2 ^ 64 ∧ ∀ v ∈ vs, element.Has v
  | .tuple ts, .tuple vs => HasAll ts vs
  | _, _ => False

def HasAll : List AbiType → List AbiValue → Prop
  | [], [] => True
  | t :: ts, v :: vs => t.Has v ∧ HasAll ts vs
  | _, _ => False

end

/-- How a value becomes a component. -/
def AbiValue.part (v : AbiValue) : Part := ⟨v.isDynamic, v.encode⟩

theorem parts_cons (v : AbiValue) (vs : List AbiValue) : parts (v :: vs) = v.part :: parts vs := by
  rw [parts, AbiValue.part]

theorem hasAll_cons (t : AbiType) (ts : List AbiType) (vs : List AbiValue) :
    HasAll (t :: ts) vs → ∃ v vs', vs = v :: vs' ∧ t.Has v ∧ HasAll ts vs' := by
  cases vs with
  | nil => exact fun h => h.elim
  | cons v vs' =>
    intro h
    exact ⟨v, vs', rfl, h.1, h.2⟩

theorem hasAll_nil (vs : List AbiValue) (h : HasAll [] vs) : vs = [] := by
  cases vs with
  | nil => rfl
  | cons v vs => exact h.elim

mutual

theorem has_isDynamic : (t : AbiType) → (v : AbiValue) → t.Has v → v.isDynamic = t.isDynamic
  | .uint _, v, h => by cases v <;> first | rfl | exact h.elim
  | .address, v, h => by cases v <;> first | rfl | exact h.elim
  | .bytes32, v, h => by cases v <;> first | rfl | exact h.elim
  | .bytes, v, h => by cases v <;> first | rfl | exact h.elim
  | .array _, v, h => by cases v <;> first | rfl | exact h.elim
  | .tuple ts, v, h => by
      cases v with
      | tuple vs => exact hasAll_anyDynamic ts vs h
      | _ => exact h.elim

theorem hasAll_anyDynamic : (ts : List AbiType) → (vs : List AbiValue) → HasAll ts vs →
    anyDynamicValue vs = anyDynamic ts
  | [], vs, h => by
      rw [hasAll_nil vs h]
      rfl
  | t :: ts, vs, h => by
      obtain ⟨v, vs', rfl, first, rest⟩ := hasAll_cons t ts vs h
      rw [anyDynamicValue, anyDynamic, has_isDynamic t v first, hasAll_anyDynamic ts vs' rest]

end

theorem length_heads (offset : Nat) (ps : List Part) :
    (heads offset ps).length = (ps.map Part.headSize).sum := by
  induction ps generalizing offset with
  | nil => rfl
  | cons p ps ih =>
    rw [heads, List.map_cons, List.sum_cons, Part.headSize]
    split
    · rw [List.length_append, length_bigEndian, ih]
    · rw [List.length_append, ih]

/-- Without a dynamic component there are no tails. -/
theorem tails_static (vs : List AbiValue) (h : anyDynamicValue vs = false) :
    tails (parts vs) = [] := by
  induction vs with
  | nil => rfl
  | cons v vs ih =>
    rw [anyDynamicValue, Bool.or_eq_false_iff] at h
    rw [parts_cons, tails, AbiValue.part, h.1]
    exact ih h.2

mutual

theorem headSize_part : (t : AbiType) → (v : AbiValue) → t.Has v → v.part.headSize = t.headSize
  | .uint _, v, h => by
      cases v with
      | word x => exact length_bigEndian 32 x.toNat
      | _ => exact h.elim
  | .address, v, h => by
      cases v with
      | word x => exact length_bigEndian 32 x.toNat
      | _ => exact h.elim
  | .bytes32, v, h => by
      cases v with
      | word x => exact length_bigEndian 32 x.toNat
      | _ => exact h.elim
  | .bytes, v, h => by cases v <;> first | rfl | exact h.elim
  | .array _, v, h => by cases v <;> first | rfl | exact h.elim
  | .tuple ts, v, h => by
      cases v with
      | tuple vs =>
        have typed : HasAll ts vs := h
        have dynamic := hasAll_anyDynamic ts vs typed
        rw [Part.headSize, AbiType.headSize, AbiValue.part, AbiValue.isDynamic, ← dynamic]
        cases static : anyDynamicValue vs with
        | true => rfl
        | false =>
          rw [AbiValue.encode, join, tails_static vs static, List.append_nil, length_heads]
          exact headSizes_parts ts vs typed
      | _ => exact h.elim

theorem headSizes_parts : (ts : List AbiType) → (vs : List AbiValue) → HasAll ts vs →
    ((parts vs).map Part.headSize).sum = headSizes ts
  | [], vs, h => by
      rw [hasAll_nil vs h]
      rfl
  | t :: ts, vs, h => by
      obtain ⟨v, vs', rfl, first, rest⟩ := hasAll_cons t ts vs h
      rw [parts_cons, List.map_cons, List.sum_cons, headSizes, headSize_part t v first,
        headSizes_parts ts vs' rest]

end

theorem readWord_append (n : Nat) (rest : Bytes) (h : n < 2 ^ 256) :
    readWord (bigEndian 32 n ++ rest) = some (BitVec.ofNat 256 n) := by
  have enough : ¬ (bigEndian 32 n ++ rest).length < 32 := by
    rw [List.length_append, length_bigEndian]
    omega
  have first : (bigEndian 32 n ++ rest).take 32 = bigEndian 32 n :=
    List.take_left' (length_bigEndian 32 n)
  rw [readWord, if_neg enough, first, fromBigEndian_bigEndian 32 n h]

theorem readLength_append (n : Nat) (rest : Bytes) (h : n < 2 ^ 64) :
    readLength (bigEndian 32 n ++ rest) = some n := by
  have small : n < 2 ^ 256 := Nat.lt_trans h (by decide)
  have value : (BitVec.ofNat 256 n).toNat = n := by
    rw [BitVec.toNat_ofNat, Nat.mod_eq_of_lt small]
  rw [readLength, readWord_append n rest small]
  simp only [Option.bind_eq_bind, Option.bind_some, value, if_pos h]

theorem readBounded_append (bound : Nat) (x : BitVec 256) (rest : Bytes) (h : x.toNat < bound) :
    readBounded bound (bigEndian 32 x.toNat ++ rest) = some (.word x) := by
  have value : BitVec.ofNat 256 x.toNat = x :=
    BitVec.ofNat_toNat 256 x |>.trans (BitVec.setWidth_eq x)
  rw [readBounded, readWord_append x.toNat rest x.isLt, value]
  simp only [Option.bind_eq_bind, Option.bind_some, if_pos h]

theorem readBytes_append (bs rest : Bytes) (h : bs.length < 2 ^ 64) :
    readBytes (bigEndian 32 bs.length ++ padded bs ++ rest) = some (.bytes bs) := by
  rw [List.append_assoc, readBytes, readLength_append bs.length _ h]
  have after : (bigEndian 32 bs.length ++ (padded bs ++ rest)).drop 32 = padded bs ++ rest :=
    List.drop_left' (length_bigEndian 32 _)
  have content : (padded bs ++ rest).take bs.length = bs := by
    rw [padded, List.append_assoc, List.take_left' rfl]
  have enough : ¬ (bigEndian 32 bs.length ++ (padded bs ++ rest)).length < 32 + bs.length := by
    simp only [List.length_append, length_bigEndian, padded]
    omega
  simp only [Option.bind_eq_bind, Option.bind_some, if_neg enough, after, content]

/-- The encoding of the first value is read as the second, whatever follows. -/
def Reads (read : Bytes → Option AbiValue) (v v' : AbiValue) : Prop :=
  ∀ rest, (v.encode ++ rest).length < 2 ^ 64 → read (v.encode ++ rest) = some v'

/-- Head and tail of some components stand at these places. -/
structure Stands (data : Bytes) (position offset : Nat) (ps : List Part) : Prop where
  short : data.length < 2 ^ 64
  within : offset ≤ data.length
  head : ∃ more, data.drop position = heads offset ps ++ more
  tail : ∃ rest, data.drop offset = tails ps ++ rest

theorem stands_next (data : Bytes) (position offset : Nat) (p : Part) (ps : List Part)
    (h : Stands data position offset (p :: ps)) :
    Stands data (position + p.headSize)
      (if p.isDynamic then offset + p.content.length else offset) ps := by
  obtain ⟨more, head⟩ := h.head
  obtain ⟨rest, tail⟩ := h.tail
  rw [heads] at head
  rw [tails] at tail
  have within := h.within
  have lengths := congrArg List.length tail
  rw [List.length_drop] at lengths
  cases dynamic : p.isDynamic with
  | true =>
    rw [dynamic] at head tail lengths
    simp only [if_true, List.append_assoc] at head tail lengths
    rw [List.length_append] at lengths
    refine ⟨h.short, ?_, ⟨more, ?_⟩, ⟨rest, ?_⟩⟩
    · simp only [if_true]
      omega
    · rw [Part.headSize, dynamic, if_pos rfl, if_pos rfl, ← List.drop_drop, head,
        List.drop_left' (length_bigEndian 32 offset)]
    · rw [if_pos rfl, ← List.drop_drop, tail, List.drop_left' rfl]
  | false =>
    rw [dynamic] at head tail
    simp only [Bool.false_eq_true, if_false, List.append_assoc] at head tail
    refine ⟨h.short, by simpa using within, ⟨more, ?_⟩, ⟨rest, ?_⟩⟩
    · rw [Part.headSize, dynamic, if_neg (by decide), if_neg (by decide), ← List.drop_drop, head,
        List.drop_left' rfl]
    · rw [if_neg (by decide)]
      exact tail

theorem component_reads (read : Bytes → Option AbiValue) (v v' : AbiValue) (hr : Reads read v v')
    (data : Bytes) (position offset : Nat) (ps : List Part)
    (h : Stands data position offset (v.part :: ps)) :
    component v.isDynamic read data position = some v' := by
  obtain ⟨more, head⟩ := h.head
  obtain ⟨rest, tail⟩ := h.tail
  have short := h.short
  have within := h.within
  rw [heads, AbiValue.part] at head
  rw [tails, AbiValue.part] at tail
  rw [component]
  cases dynamic : v.isDynamic with
  | true =>
    rw [dynamic] at head tail
    simp only [if_true, List.append_assoc] at head tail
    have here : (data.drop offset).length < 2 ^ 64 := by
      rw [List.length_drop]
      omega
    rw [if_pos rfl, head, readLength_append offset _ (by omega)]
    simp only [Option.bind_eq_bind, Option.bind_some]
    rw [tail] at here ⊢
    exact hr _ here
  | false =>
    rw [dynamic] at head
    simp only [Bool.false_eq_true, if_false, List.append_assoc] at head
    have here : (data.drop position).length < 2 ^ 64 := by
      rw [List.length_drop]
      omega
    rw [head] at here
    simp only [Bool.false_eq_true, if_false, head]
    exact hr _ here

/-- A value in the place of one of the type, which is read as another one. -/
structure Accepts (t : AbiType) (v v' : AbiValue) : Prop where
  dynamic : v.isDynamic = t.isDynamic
  size : v.part.headSize = t.headSize
  reads : Reads t.decode v v'

def AcceptsAll : List AbiType → List AbiValue → List AbiValue → Prop
  | [], [], [] => True
  | t :: ts, v :: vs, v' :: vs' => Accepts t v v' ∧ AcceptsAll ts vs vs'
  | _, _, _ => False

theorem acceptsAll_cons (t : AbiType) (ts : List AbiType) (vs vs' : List AbiValue)
    (h : AcceptsAll (t :: ts) vs vs') :
    ∃ v v' ws ws', vs = v :: ws ∧ vs' = v' :: ws' ∧ Accepts t v v' ∧ AcceptsAll ts ws ws' := by
  cases vs with
  | nil => exact h.elim
  | cons v ws =>
    cases vs' with
    | nil => exact h.elim
    | cons v' ws' => exact ⟨v, v', ws, ws', rfl, rfl, h.1, h.2⟩

theorem acceptsAll_nil (vs vs' : List AbiValue) (h : AcceptsAll [] vs vs') :
    vs = [] ∧ vs' = [] := by
  cases vs with
  | nil =>
    cases vs' with
    | nil => exact ⟨rfl, rfl⟩
    | cons v' ws' => exact h.elim
  | cons v ws => exact h.elim

/-- All components are read, also when others follow. -/
theorem decodeAll_parts (ts : List AbiType) (vs vs' : List AbiValue)
    (accepts : AcceptsAll ts vs vs') (qs : List Part) (data : Bytes) (position offset : Nat)
    (h : Stands data position offset (parts vs ++ qs)) : decodeAll ts data position = some vs' := by
  induction ts generalizing vs vs' position offset with
  | nil =>
    rw [(acceptsAll_nil vs vs' accepts).2]
    rfl
  | cons t ts ih =>
    obtain ⟨v, v', ws, ws', rfl, rfl, first, rest⟩ := acceptsAll_cons t ts vs vs' accepts
    rw [parts_cons, List.cons_append] at h
    have here := component_reads t.decode v v' first.reads data position offset _ h
    have next := stands_next data position offset _ _ h
    rw [first.size] at next
    have others := ih ws ws' rest _ _ next
    rw [decodeAll, ← first.dynamic, here, others]
    rfl

theorem stands_join (ps : List Part) (rest : Bytes) (short : (join ps ++ rest).length < 2 ^ 64) :
    Stands (join ps ++ rest) 0 (ps.map Part.headSize).sum ps := by
  have length := length_heads (ps.map Part.headSize).sum ps
  refine ⟨short, ?_, ⟨tails ps ++ rest, ?_⟩, ⟨rest, ?_⟩⟩
  · rw [join, List.length_append, List.length_append, length]
    omega
  · rw [List.drop_zero, join, List.append_assoc]
  · rw [join, List.append_assoc, List.drop_left' length]

theorem elements_replicate (t : AbiType) (data : Bytes) (n position : Nat) :
    elements t.isDynamic t.headSize (fun d => t.decode d) data n position =
      decodeAll (List.replicate n t) data position := by
  induction n generalizing position with
  | zero => rfl
  | succ n ih => rw [elements, List.replicate_succ, decodeAll, ih]

/-- The encoding of a tuple is read by its first components. -/
theorem tuple_reads (ts : List AbiType) (vs vs' ws : List AbiValue)
    (accepts : AcceptsAll ts vs vs') :
    Reads (AbiType.tuple ts).decode (.tuple (vs ++ ws)) (.tuple vs') := by
  intro rest short
  rw [AbiValue.encode] at short ⊢
  have split : parts (vs ++ ws) = parts vs ++ parts ws := by
    clear accepts short
    induction vs with
    | nil => rfl
    | cons v vs ih => rw [List.cons_append, parts_cons, parts_cons, List.cons_append, ih]
  have stands := stands_join (parts (vs ++ ws)) rest short
  have read := decodeAll_parts ts vs vs' accepts (parts ws) _ 0 _ (by rw [← split]; exact stands)
  rw [AbiType.decode, read]
  rfl

theorem array_reads (t : AbiType) (vs : List AbiValue) (few : vs.length < 2 ^ 64)
    (accepts : AcceptsAll (List.replicate vs.length t) vs vs) :
    Reads (AbiType.array t).decode (.array vs) (.array vs) := by
  intro rest short
  rw [AbiValue.encode, List.append_assoc] at short ⊢
  have content : (join (parts vs) ++ rest).length < 2 ^ 64 := by
    rw [List.length_append, length_bigEndian] at short
    omega
  have stands := stands_join (parts vs) rest content
  have read := decodeAll_parts _ vs vs accepts [] _ 0 _ (by rw [List.append_nil]; exact stands)
  rw [AbiType.decode, readLength_append vs.length _ few]
  simp only [Option.bind_eq_bind, Option.bind_some]
  rw [List.drop_left' (length_bigEndian 32 _), elements_replicate, read]
  rfl

mutual

/-- Every value of a type is decoded from its encoding. -/
theorem decode_encode : (t : AbiType) → (v : AbiValue) → t.Has v → Reads t.decode v v
  | .uint bits, v, h => by
      cases v with
      | word x => exact fun rest _ => readBounded_append _ x rest h
      | _ => exact h.elim
  | .address, v, h => by
      cases v with
      | word x => exact fun rest _ => readBounded_append _ x rest h
      | _ => exact h.elim
  | .bytes32, v, h => by
      cases v with
      | word x => exact fun rest _ => readBounded_append _ x rest x.isLt
      | _ => exact h.elim
  | .bytes, v, h => by
      cases v with
      | bytes bs =>
        intro rest short
        refine readBytes_append bs rest ?_
        simp only [AbiValue.encode, padded, List.length_append] at short
        omega
      | _ => exact h.elim
  | .array t, v, h => by
      cases v with
      | array vs =>
        have each (ws : List AbiValue) (typed : ∀ v ∈ ws, t.Has v) :
            AcceptsAll (List.replicate ws.length t) ws ws := by
          induction ws with
          | nil => trivial
          | cons v ws ih =>
            have first := typed v (by simp)
            exact ⟨⟨has_isDynamic t v first, headSize_part t v first, decode_encode t v first⟩,
              ih fun v' hv => typed v' (by simp [hv])⟩
        exact array_reads t vs h.1 (each vs h.2)
      | _ => exact h.elim
  | .tuple ts, v, h => by
      cases v with
      | tuple vs =>
        have read := tuple_reads ts vs vs [] (acceptsAll_has ts vs h)
        rw [List.append_nil] at read
        exact read
      | _ => exact h.elim

theorem acceptsAll_has : (ts : List AbiType) → (vs : List AbiValue) → HasAll ts vs →
    AcceptsAll ts vs vs
  | [], vs, h => by
      rw [hasAll_nil vs h]
      trivial
  | t :: ts, vs, h => by
      obtain ⟨v, vs', rfl, first, rest⟩ := hasAll_cons t ts vs h
      exact ⟨⟨has_isDynamic t v first, headSize_part t v first, decode_encode t v first⟩,
        acceptsAll_has ts vs' rest⟩

end

theorem accepts_has (t : AbiType) (v : AbiValue) (h : t.Has v) : Accepts t v v :=
  ⟨has_isDynamic t v h, headSize_part t v h, decode_encode t v h⟩

/-- What a value of one word is below. -/
def AbiType.bound : AbiType → Option Nat
  | .uint bits => some (2 ^ bits)
  | .address => some (2 ^ 160)
  | .bytes32 => some (2 ^ 256)
  | _ => none

/-- A type of one word stands in its place and is read there. -/
theorem component_bound (t : AbiType) (bound : Nat) (h : t.bound = some bound) (data : Bytes)
    (position : Nat) :
    t.headSize = 32 ∧
      component t.isDynamic (fun d => t.decode d) data position =
        readBounded bound (data.drop position) := by
  cases t with
  | uint bits =>
    cases h
    exact ⟨rfl, rfl⟩
  | address =>
    cases h
    exact ⟨rfl, rfl⟩
  | bytes32 =>
    cases h
    exact ⟨rfl, rfl⟩
  | bytes => cases h
  | array element => cases h
  | tuple components => cases h

theorem readWord_some (data : Bytes) (x : BitVec 256) :
    readWord data = some x ↔
      32 ≤ data.length ∧ x = BitVec.ofNat 256 (fromBigEndian (data.take 32)) := by
  rw [readWord]
  split_ifs with short
  · simp only [false_iff, not_and]
    omega
  · simp only [Option.some.injEq, eq_comm, Nat.not_lt.mp short, true_and]

theorem readBounded_some (bound : Nat) (data : Bytes) (v : AbiValue) :
    readBounded bound data = some v ↔
      ∃ x, readWord data = some x ∧ x.toNat < bound ∧ v = .word x := by
  rw [readBounded]
  cases readWord data with
  | none => simp
  | some x =>
    simp only [Option.bind_eq_bind, Option.bind_some, Option.some.injEq, exists_eq_left']
    split_ifs with small
    · simp [small, eq_comm]
    · simp [small]

/-- The words of a tuple are read one after the other. -/
theorem decodeAll_words (ts : List AbiType) (words : ∀ t ∈ ts, t.bound.isSome = true) (data : Bytes)
    (position : Nat) (vs : List AbiValue) (h : decodeAll ts data position = some vs) (i : Nat)
    (here : i < ts.length) :
    ∃ x, vs[i]? = some (.word x) ∧ readWord (data.drop (position + 32 * i)) = some x := by
  induction ts generalizing position vs i with
  | nil => exact absurd here (Nat.not_lt_zero i)
  | cons t ts ih =>
    obtain ⟨bound, hbound⟩ := Option.isSome_iff_exists.mp (words t List.mem_cons_self)
    obtain ⟨size, read⟩ := component_bound t bound hbound data position
    rw [decodeAll, read, size] at h
    obtain ⟨v, first, h⟩ := Option.bind_eq_some_iff.mp h
    obtain ⟨vs', rest, h⟩ := Option.bind_eq_some_iff.mp h
    cases h
    cases i with
    | zero =>
      obtain ⟨x, hx, -, rfl⟩ := (readBounded_some bound _ v).mp first
      exact ⟨x, rfl, hx⟩
    | succ i =>
      obtain ⟨x, found, hx⟩ := ih (fun u hu => words u (List.mem_cons_of_mem _ hu)) _ vs' rest i
        (Nat.lt_of_succ_lt_succ here)
      refine ⟨x, found, ?_⟩
      rw [← hx, Nat.add_assoc]
      congr 3
      omega

end Abi
