import SyndDB.Framework.Octets
import Mathlib.Data.List.Nodup
import Mathlib.Logic.Function.Basic

namespace SyndDB.Contracts

open Octets

abbrev Address := BitVec 160
abbrev Bytes32 := BitVec 256
abbrev UInt256 := BitVec 256

def word (x : BitVec 256) : Bytes := bigEndian 32 x.toNat
def packedAddress (a : Address) : Bytes := bigEndian 20 a.toNat

theorem word_injective (x y : BitVec 256) (h : word x = word y) : x = y :=
  BitVec.eq_of_toNat_eq (bigEndian_injective 32 _ _ x.isLt y.isLt h)

theorem packedAddress_injective (x y : Address) (h : packedAddress x = packedAddress y) : x = y :=
  BitVec.eq_of_toNat_eq (bigEndian_injective 20 _ _ x.isLt y.isLt h)

/-- Checked addition of Solidity 0.8. -/
def checkedAdd (a b : UInt256) : Option UInt256 :=
  if a.toNat + b.toNat < 2 ^ 256 then some (a + b) else none

theorem checkedAdd_some (a b c : UInt256) (h : checkedAdd a b = some c) :
    c.toNat = a.toNat + b.toNat := by
  rw [checkedAdd] at h
  split at h
  · cases h
    rw [BitVec.toNat_add]
    omega
  · cases h

/-- The revert data of checked arithmetic, `Panic(0x11)`. -/
def panicOverflow : Bytes := [0x4e, 0x48, 0x7b, 0x71] ++ word 0x11

/-- The revert data of `require` with a reason, `Error(string)`. -/
def errorString (reason : String) : Bytes :=
  let text := ascii reason
  [0x08, 0xc3, 0x79, 0xa0] ++ word 0x20 ++ word (BitVec.ofNat 256 text.length) ++ text ++
    List.replicate ((32 - text.length % 32) % 32) 0

inductive KeyType where
  | Sequencer
  | Validator
  deriving DecidableEq, Repr

inductive ProcessingStage where
  | NotStarted
  | PreExecution
  | Executing
  | PostExecution
  | Completed
  | Rejected
  deriving DecidableEq, Repr

/-- Position in the order `NotStarted`, `PreExecution`, `Executing`, `PostExecution`, `Completed`.
`Rejected` lies outside of it. -/
def ProcessingStage.rank : ProcessingStage → Nat
  | .NotStarted => 0
  | .PreExecution => 1
  | .Executing => 2
  | .PostExecution => 3
  | .Completed => 4
  | .Rejected => 5

structure MessageState where
  messageId : Bytes32
  targetAddress : Address
  stage : ProcessingStage
  payload : Bytes
  createdAt : UInt256
  nativeTokenAmount : UInt256
  deriving DecidableEq

/-- What a mapping holds where nothing was written. -/
def MessageState.empty : MessageState := ⟨0, 0, .NotStarted, [], 0, 0⟩

structure SequencerSignature where
  signature : Bytes
  submittedAt : UInt256
  deriving DecidableEq

/-- `EnumerableSet.AddressSet`: insertion at the end, removal by moving the last
element into the hole. -/
structure AddressSet where
  values : List Address
  nodup : values.Nodup

namespace AddressSet

def empty : AddressSet := ⟨[], List.nodup_nil⟩

def contains (s : AddressSet) (a : Address) : Bool := decide (a ∈ s.values)

def length (s : AddressSet) : Nat := s.values.length

/-- `none` is the out-of-bounds panic. -/
def atIndex (s : AddressSet) (i : Nat) : Option Address := s.values[i]?

private theorem append_nodup (l : List Address) (a : Address) (hl : l.Nodup) (h : a ∉ l) :
    (l ++ [a]).Nodup := by
  rw [List.nodup_append]
  refine ⟨hl, List.nodup_singleton a, ?_⟩
  intro b hb c hc hbc
  rw [List.mem_singleton.mp hc] at hbc
  exact h (hbc ▸ hb)

/-- `none` when the element was already there. -/
def add (s : AddressSet) (a : Address) : Option AddressSet :=
  if h : a ∈ s.values then none else some ⟨s.values ++ [a], append_nodup _ a s.nodup h⟩

/-- The last element takes the place of the removed one. -/
def swapPop (a : Address) (l : List Address) : List Address :=
  l.dropLast.map fun b => if b = a then l.getLastD 0 else b

private theorem swapPop_nodup (a : Address) (l : List Address) (h : l.Nodup) :
    (swapPop a l).Nodup := by
  rcases List.eq_nil_or_concat l with rfl | ⟨init, last, rfl⟩
  · simp [swapPop]
  · have hlast : last ∉ init := by
      intro hm
      rw [List.concat_eq_append, List.nodup_append] at h
      exact h.2.2 last hm last (by simp) rfl
    have hinit : init.Nodup := by
      rw [List.concat_eq_append, List.nodup_append] at h
      exact h.1
    simp only [swapPop, List.concat_eq_append, List.dropLast_concat, List.getLastD_concat]
    refine hinit.map_on ?_
    intro x hx y hy hxy
    split at hxy <;> split at hxy
    · simp_all
    · exact absurd (hxy ▸ hy) hlast
    · exact absurd (hxy ▸ hx) hlast
    · exact hxy

/-- `none` when the element was not there. -/
def remove (s : AddressSet) (a : Address) : Option AddressSet :=
  if a ∈ s.values then some ⟨swapPop a s.values, swapPop_nodup a _ s.nodup⟩ else none

@[simp] theorem contains_empty (b : Address) : empty.contains b = false := rfl

/-- Adding an element, which may have been there. -/
theorem contains_add (s : AddressSet) (a b : Address) :
    ((s.add a).getD s).contains b = (decide (b = a) || s.contains b) := by
  by_cases h : a ∈ s.values
  · by_cases hb : b = a
    · simp [add, h, hb, contains]
    · simp [add, h, hb]
  · by_cases hb : b = a
    · simp [add, h, hb, contains]
    · simp [add, h, hb, contains]

/-- The removed element is gone and the others are still there, in another order. -/
theorem mem_swapPop (a b : Address) (l : List Address) (hl : l.Nodup) (h : a ∈ l) :
    b ∈ swapPop a l ↔ b ∈ l ∧ b ≠ a := by
  rcases List.eq_nil_or_concat l with rfl | ⟨init, last, rfl⟩
  · simp at h
  · rw [List.concat_eq_append] at hl h
    have hlast : last ∉ init := by
      intro hm
      exact (List.nodup_append.mp hl).2.2 last hm last (by simp) rfl
    simp only [swapPop, List.concat_eq_append, List.dropLast_concat, List.getLastD_concat,
      List.mem_map, List.mem_append, List.mem_singleton]
    constructor
    · intro moved
      obtain ⟨c, hc, hcb⟩ := moved
      by_cases hca : c = a
      · rw [if_pos hca] at hcb
        subst hcb
        refine ⟨.inr rfl, ?_⟩
        intro same
        exact hlast (by rw [same, ← hca]; exact hc)
      · rw [if_neg hca] at hcb
        subst hcb
        exact ⟨.inl hc, hca⟩
    · intro given
      obtain ⟨hb, hba⟩ := given
      rcases hb with hb | hb
      · exact ⟨b, hb, if_neg hba⟩
      · subst hb
        have ha : a ∈ init := by
          rcases List.mem_append.mp h with ha | ha
          · exact ha
          · exact absurd (List.mem_singleton.mp ha).symm hba
        exact ⟨a, ha, if_pos rfl⟩

/-- Removing an element, which may have been absent. -/
theorem contains_remove (s : AddressSet) (a b : Address) :
    ((s.remove a).getD s).contains b = (s.contains b && !decide (b = a)) := by
  by_cases h : a ∈ s.values
  · simp [remove, h, contains, mem_swapPop a b s.values s.nodup h]
  · by_cases hb : b = a
    · simp [remove, h, hb, contains]
    · simp [remove, h, hb]

theorem contains_iff (s : AddressSet) (a : Address) : s.contains a = true ↔ a ∈ s.values := by
  simp [contains]

@[reducible] def decidableMem (s : AddressSet) (a : Address) : Decidable (a ∈ s.values) :=
  decidable_of_iff (s.contains a = true) (s.contains_iff a)

end AddressSet

end SyndDB.Contracts
