import SyndDB.Framework.Octets

namespace Cbor

open Octets InformationTheory

/-- A reader takes bytes from the front and leaves the others. -/
abbrev Reader (α : Type) := StateT Bytes Option α

variable {α β : Type}

def fail : Reader α := fun _ => none

def byte : Reader UInt8 := fun bytes =>
  match bytes with
  | [] => none
  | b :: rest => some (b, rest)

def take (n : Nat) : Reader Bytes := fun bytes =>
  if n ≤ bytes.length then some (bytes.take n, bytes.drop n) else none

def number (n : Nat) : Reader Nat := do
  let bytes ← take n
  return fromBigEndian bytes

def times : Nat → Reader Unit → Reader Unit
  | 0, _ => pure ()
  | n + 1, r => do
      r
      times n r

/-- What was read: an item of definite length and its major type, one of indefinite length, or the
stop code that ends such an item. -/
inductive Kind where
  | item (major : Nat)
  | indefinite
  | stop
  deriving DecidableEq

/-- The argument that additional information stands for. -/
def argument (info : Nat) : Reader Nat :=
  if info < 24 then pure info
  else if info = 24 then number 1
  else if info = 25 then number 2
  else if info = 26 then number 4
  else if info = 27 then number 8
  else fail

/-- The content of an item of definite length. -/
def content (nested : Reader Kind) (major info value : Nat) : Reader Unit :=
  if major = 2 ∨ major = 3 then discard (take value)
  else if major = 4 then times value (discard nested)
  else if major = 5 then times (2 * value) (discard nested)
  else if major = 6 then discard nested
  -- simple values below 32 have no second byte
  else if major = 7 ∧ info = 24 ∧ value < 32 then fail
  else pure ()

/-- Items up to the stop code, each followed by what belongs to it. -/
def untilStop (nested : Reader Kind) (rest : Kind → Reader Unit) : Nat → Reader Unit
  | 0 => fail
  | fuel + 1 => do
      let kind ← nested
      if kind = .stop then pure ()
      else
        rest kind
        untilStop nested rest fuel

/-- The content of an item of indefinite length: strings are made of strings of the same type,
and maps of pairs. -/
def chunks (nested : Bool → Reader Kind) (fuel major : Nat) : Reader Unit :=
  if major = 2 ∨ major = 3 then
    untilStop (nested true) (fun kind => if kind = .item major then pure () else fail) fuel
  else if major = 4 then untilStop (nested true) (fun _ => pure ()) fuel
  else if major = 5 then untilStop (nested true) (fun _ => discard (nested false)) fuel
  else fail

/-- One data item, or the stop code where it may stand. Items are nested less deep than `fuel`. -/
def item : Nat → Bool → Reader Kind
  | 0, _ => fail
  | fuel + 1, breakable => do
      let initial ← byte
      let major := initial.toNat / 32
      let info := initial.toNat % 32
      if info = 31 then
        if major = 7 then if breakable then pure .stop else fail
        else
          chunks (item fuel) fuel major
          pure .indefinite
      else
        let value ← argument info
        content (item fuel false) major info value
        pure (.item major)

/-- Exactly one data item. -/
def Complete (bytes : Bytes) : Prop := ∃ fuel kind, item fuel false bytes = some (kind, [])

theorem complete_of_read (bytes : Bytes) (fuel : Nat)
    (h : (item fuel false bytes).map Prod.snd = some []) : Complete bytes := by
  obtain ⟨⟨kind, rest⟩, read, rfl⟩ := Option.map_eq_some_iff.mp h
  exact ⟨fuel, kind, read⟩

/-- The second reader takes what the first one takes, whatever follows. -/
def Carried (r r' : Reader α) : Prop :=
  ∀ bytes a rest more, r bytes = some (a, rest) → r' (bytes ++ more) = some (a, rest ++ more)

theorem carried_fail (r : Reader α) : Carried fail r := by
  intro bytes a rest more h
  cases h

theorem carried_pure (a : α) : Carried (pure a : Reader α) (pure a) := by
  intro bytes b rest more h
  cases h
  rfl

theorem carried_byte : Carried byte byte := by
  intro bytes b rest more h
  cases bytes with
  | nil => cases h
  | cons c bytes =>
    cases h
    rfl

theorem carried_take (n : Nat) : Carried (take n) (take n) := by
  intro bytes taken rest more h
  by_cases enough : n ≤ bytes.length
  · rw [take, if_pos enough] at h
    cases h
    have longer : n ≤ (bytes ++ more).length := by
      rw [List.length_append]
      omega
    rw [take, if_pos longer, List.take_append_of_le_length enough,
      List.drop_append_of_le_length enough]
  · rw [take, if_neg enough] at h
    cases h

theorem bind_some (r : Reader α) (f : α → Reader β) (bytes : Bytes) (x : β × Bytes) :
    (r >>= f) bytes = some x ↔ ∃ a rest, r bytes = some (a, rest) ∧ f a rest = some x := by
  change (r bytes).bind (fun y => f y.1 y.2) = some x ↔ _
  rw [Option.bind_eq_some_iff, Prod.exists]

theorem carried_bind {r r' : Reader α} {f f' : α → Reader β} (first : Carried r r')
    (second : ∀ a, Carried (f a) (f' a)) : Carried (r >>= f) (r' >>= f') := by
  intro bytes b rest more h
  obtain ⟨a, middle, hr, hf⟩ := (bind_some r f bytes _).mp h
  have left := first bytes a middle more hr
  have right := second a middle b rest more hf
  exact (bind_some r' f' _ _).mpr ⟨a, middle ++ more, left, right⟩

theorem carried_discard {r r' : Reader α} (h : Carried r r') :
    Carried (discard r) (discard r') := by
  intro bytes u rest more taken
  have same (r : Reader α) (bytes : Bytes) :
      (discard r) bytes = (r bytes).bind fun x => some ((), x.2) := rfl
  rw [same] at taken ⊢
  obtain ⟨⟨a, left⟩, hr, hx⟩ := Option.bind_eq_some_iff.mp taken
  cases hx
  rw [h bytes a left more hr]
  rfl

theorem carried_ite {c : Prop} [Decidable c] {r r' s s' : Reader α} (yes : Carried r r')
    (no : Carried s s') : Carried (if c then r else s) (if c then r' else s') := by
  by_cases h : c
  · rwa [if_pos h, if_pos h]
  · rwa [if_neg h, if_neg h]

theorem carried_number (n : Nat) : Carried (number n) (number n) :=
  carried_bind (carried_take n) fun _ => carried_pure _

theorem carried_argument (info : Nat) : Carried (argument info) (argument info) := by
  unfold argument
  apply carried_ite (carried_pure info)
  apply carried_ite (carried_number 1)
  apply carried_ite (carried_number 2)
  apply carried_ite (carried_number 4)
  apply carried_ite (carried_number 8)
  exact carried_fail fail

theorem carried_times {r r' : Reader Unit} (h : Carried r r') (n : Nat) :
    Carried (times n r) (times n r') := by
  induction n with
  | zero => exact carried_pure ()
  | succ n ih => exact carried_bind h fun _ => ih

theorem carried_content {nested nested' : Reader Kind} (h : Carried nested nested')
    (major info value : Nat) :
    Carried (content nested major info value) (content nested' major info value) := by
  have any := carried_discard h
  unfold content
  apply carried_ite (carried_discard (carried_take value))
  apply carried_ite (carried_times any value)
  apply carried_ite (carried_times any (2 * value))
  apply carried_ite any
  apply carried_ite (carried_fail fail)
  exact carried_pure ()

theorem carried_untilStop {nested nested' : Reader Kind} {rest rest' : Kind → Reader Unit}
    (h : Carried nested nested') (after : ∀ kind, Carried (rest kind) (rest' kind))
    (fuel fuel' : Nat) (more : fuel ≤ fuel') :
    Carried (untilStop nested rest fuel) (untilStop nested' rest' fuel') := by
  induction fuel generalizing fuel' with
  | zero => exact carried_fail _
  | succ fuel ih =>
    obtain ⟨fuel', rfl⟩ : ∃ n, fuel' = n + 1 := ⟨fuel' - 1, by omega⟩
    have again := ih fuel' (by omega)
    apply carried_bind h
    intro kind
    apply carried_ite (carried_pure ())
    exact carried_bind (after kind) fun _ => again

theorem carried_chunks {nested nested' : Bool → Reader Kind}
    (h : ∀ breakable, Carried (nested breakable) (nested' breakable)) (fuel fuel' major : Nat)
    (more : fuel ≤ fuel') : Carried (chunks nested fuel major) (chunks nested' fuel' major) := by
  unfold chunks
  apply carried_ite
  · apply carried_untilStop (h true) _ fuel fuel' more
    intro kind
    exact carried_ite (carried_pure ()) (carried_fail fail)
  apply carried_ite
  · exact carried_untilStop (h true) (fun _ => carried_pure ()) fuel fuel' more
  apply carried_ite
  · exact carried_untilStop (h true) (fun _ => carried_discard (h false)) fuel fuel' more
  · exact carried_fail fail

/-- An item ends where it ends, whatever follows and however deep items may be nested. -/
theorem carried_item (fuel fuel' : Nat) (more : fuel ≤ fuel') (breakable : Bool) :
    Carried (item fuel breakable) (item fuel' breakable) := by
  induction fuel generalizing fuel' breakable with
  | zero => exact carried_fail _
  | succ fuel ih =>
    obtain ⟨fuel', rfl⟩ : ∃ n, fuel' = n + 1 := ⟨fuel' - 1, by omega⟩
    have nested := ih fuel' (by omega)
    apply carried_bind carried_byte
    intro initial
    apply carried_ite
    · apply carried_ite
      · exact carried_ite (carried_pure Kind.stop) (carried_fail fail)
      · apply carried_bind (carried_chunks nested fuel fuel' _ (by omega))
        intro _
        exact carried_pure Kind.indefinite
    · apply carried_bind (carried_argument _)
      intro value
      apply carried_bind (carried_content (nested false) _ _ _)
      intro _
      exact carried_pure _

theorem not_complete_nil : ¬Complete [] := by
  intro h
  obtain ⟨fuel, kind, read⟩ := h
  cases fuel with
  | zero => cases read
  | succ fuel =>
    obtain ⟨initial, rest, first, -⟩ := (bind_some byte _ [] _).mp read
    cases first

/-- No item continues another. -/
theorem complete_append (a b : Bytes) (ha : Complete a) (hb : Complete (a ++ b)) : b = [] := by
  obtain ⟨fuel, kind, read⟩ := ha
  obtain ⟨fuel', kind', read'⟩ := hb
  have first := carried_item fuel (max fuel fuel') (le_max_left _ _) false a kind [] b read
  have second := carried_item fuel' (max fuel fuel') (le_max_right _ _) false (a ++ b) kind'
    [] [] read'
  rw [List.append_nil, first] at second
  cases second
  rfl

/-- Items that stand one after the other can be told apart. -/
theorem complete_uniquelyDecodable : UniquelyDecodable {bytes | Complete bytes} :=
  uniquelyDecodable_of_prefixFree _ not_complete_nil complete_append

-- `[1, [2, 3], [4, 5]]` with lengths and without, and a string that ends too early
example : item 3 false [0x83, 1, 0x82, 2, 3, 0x82, 4, 5] = some (.item 4, []) := by decide
example : item 9 false [0x9f, 1, 0x82, 2, 3, 0x9f, 4, 5, 0xff, 0xff] =
    some (.indefinite, []) := by decide
example : item 9 false [0x44, 1, 2, 3] = none := by decide

end Cbor
