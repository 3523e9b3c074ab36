import Mathlib.Data.String.Basic
import SyndDB.Framework.SortedRows

namespace ObjectStore

open SortedRows

variable {β : Type}

structure Object (β : Type) where
  name : String
  data : β
  deriving DecidableEq

structure Bucket (β : Type) where
  objects : List (Object β)
  sorted : Sorted Object.name objects

namespace Bucket

def empty : Bucket β := ⟨[], List.Pairwise.nil⟩

/-- An object that has the name already is replaced. -/
def write (b : Bucket β) (name : String) (data : β) : Bucket β :=
  ⟨put Object.name ⟨name, data⟩ b.objects, sorted_put _ _ b.sorted⟩

def read (b : Bucket β) (name : String) : Option β :=
  (get Object.name name b.objects).map Object.data

/-- The names that begin with a text, in their order. -/
def list (b : Bucket β) (start : String) : List String :=
  (b.objects.map Object.name).filter fun name => start.toList.isPrefixOf name.toList

theorem read_eq_some (b : Bucket β) (name : String) (data : β) :
    b.read name = some data ↔ ⟨name, data⟩ ∈ b.objects := by
  rw [read, Option.map_eq_some_iff]
  constructor
  · intro h
    obtain ⟨⟨name', data'⟩, found, rfl⟩ := h
    obtain ⟨member, same⟩ := mem_of_get _ _ _ found
    obtain rfl : name' = name := same
    exact member
  · intro member
    exact ⟨_, get_of_mem _ b.sorted _ member, rfl⟩

@[simp] theorem read_empty (name : String) : (empty : Bucket β).read name = none := rfl

/-- A write is seen under its own name and under no other. -/
theorem read_write (b : Bucket β) (name other : String) (data : β) :
    (b.write name data).read other = if other = name then some data else b.read other := by
  apply Option.ext
  intro found
  rw [read_eq_some, write, mem_put _ _ _ b.sorted, Object.mk.injEq]
  split
  · next same =>
    rw [Option.some.injEq]
    constructor
    · intro either
      rcases either with ⟨-, rfl⟩ | ⟨-, differs⟩
      · rfl
      · exact absurd same differs
    · intro own
      exact .inl ⟨same, own.symm⟩
  · next differs =>
    rw [read_eq_some]
    constructor
    · intro either
      rcases either with ⟨same, -⟩ | ⟨member, -⟩
      · exact absurd same differs
      · exact member
    · intro member
      exact .inr ⟨member, differs⟩

theorem mem_list (b : Bucket β) (start name : String) :
    name ∈ b.list start ↔ (∃ data, b.read name = some data) ∧ start.toList <+: name.toList := by
  rw [list, List.mem_filter, List.mem_map, List.isPrefixOf_iff_prefix]
  refine and_congr_left fun _ => ?_
  constructor
  · intro h
    obtain ⟨⟨name', data⟩, member, rfl⟩ := h
    exact ⟨data, (read_eq_some b _ data).mpr member⟩
  · intro h
    obtain ⟨data, found⟩ := h
    exact ⟨_, (read_eq_some b name data).mp found, rfl⟩

theorem list_nodup (b : Bucket β) (start : String) : (b.list start).Nodup := by
  have names : (b.objects.map Object.name).Nodup := by
    rw [List.Nodup, List.pairwise_map]
    exact b.sorted.imp fun less => less.ne
  exact List.Pairwise.filter _ names

end Bucket

variable {α : Type} (le : α → α → Bool)

/-- Among elements that stand in no order the sorting changes nothing. -/
theorem filter_mergeSort (trans : ∀ a b c, le a b → le b c → le a c)
    (total : ∀ a b, le a b || le b a)
    (p : α → Bool) (xs : List α) (tied : ∀ a b, p a → p b → le a b) :
    (xs.mergeSort le).filter p = xs.filter p := by
  have ordered : (xs.filter p).Pairwise fun a b => le a b :=
    List.pairwise_iff_forall_sublist.mpr fun {a b} sub => by
      have ha : a ∈ xs.filter p := sub.subset (by simp)
      have hb : b ∈ xs.filter p := sub.subset (by simp)
      exact tied a b (List.mem_filter.mp ha).2 (List.mem_filter.mp hb).2
  have kept : (xs.filter p).Sublist (xs.mergeSort le) :=
    List.sublist_mergeSort trans total ordered List.filter_sublist
  have again : (xs.filter p).Sublist ((xs.mergeSort le).filter p) := by
    simpa only [List.filter_filter, Bool.and_self] using kept.filter p
  exact (again.eq_of_length ((List.mergeSort_perm xs le).filter p).length_eq.symm).symm

/-- The first of them is the first. -/
theorem find_mergeSort (trans : ∀ a b c, le a b → le b c → le a c) (total : ∀ a b, le a b || le b a)
    (p : α → Bool) (xs : List α) (tied : ∀ a b, p a → p b → le a b) :
    (xs.mergeSort le).find? p = xs.find? p := by
  rw [← List.head?_filter, ← List.head?_filter, filter_mergeSort le trans total p xs tied]

end ObjectStore
