import Mathlib.Data.List.Basic
import Mathlib.Data.Nat.Basic
import Mathlib.InformationTheory.Coding.UniquelyDecodable
import Mathlib.Tactic.IntervalCases
import Mathlib.Tactic.Ring

namespace Octets

abbrev Bytes := List UInt8

/-- The `n` low bytes of a number, most significant first. -/
def bigEndian : (n : Nat) → Nat → Bytes
  | 0, _ => []
  | n + 1, x => UInt8.ofNat (x / 256 ^ n) :: bigEndian n x

def fromBigEndian (bs : Bytes) : Nat := bs.foldl (fun n b => n * 256 + b.toNat) 0

def ascii (s : String) : Bytes := s.toList.map fun c => UInt8.ofNat c.toNat

/-- What a table shows of the first `n` bytes holds of each of them. -/
@[elab_as_elim] theorem byte_of_table {n : Nat} {p : UInt8 → Prop} (c : UInt8) (h : c.toNat < n)
    (table : ∀ i : Fin n, p (UInt8.ofNat i)) : p c := by
  have entry := table ⟨c.toNat, h⟩
  rwa [UInt8.ofNat_toNat] at entry

/-- The two halves of a byte put together again. -/
theorem ofNat_nibbles (b : UInt8) : UInt8.ofNat (16 * (b.toNat / 16) + b.toNat % 16) = b := by
  rw [Nat.div_add_mod]
  exact UInt8.ofNat_toNat

@[simp] theorem length_bigEndian (n x : Nat) : (bigEndian n x).length = n := by
  induction n with
  | zero => rfl
  | succ n ih => simp [bigEndian, ih]

private theorem bigEndian_mod (n x : Nat) : bigEndian n (x % 256 ^ n) = bigEndian n x := by
  induction n generalizing x with
  | zero => rfl
  | succ n ih =>
    have low : bigEndian n (x % 256 ^ (n + 1)) = bigEndian n x := by
      rw [← ih (x % 256 ^ (n + 1)), ← ih x]
      congr 1
      rw [Nat.pow_succ, Nat.mod_mul_right_mod]
    have high : UInt8.ofNat (x % 256 ^ (n + 1) / 256 ^ n) = UInt8.ofNat (x / 256 ^ n) := by
      rw [Nat.pow_succ, Nat.mod_mul_right_div_self]
      apply UInt8.toNat_inj.mp
      simp
    simp only [bigEndian, low, high]

/-- Big-endian encodings of numbers in range determine the numbers. -/
theorem bigEndian_injective (n x y : Nat) (hx : x < 256 ^ n) (hy : y < 256 ^ n)
    (h : bigEndian n x = bigEndian n y) : x = y := by
  induction n generalizing x y with
  | zero => simp at hx hy; omega
  | succ n ih =>
    simp only [bigEndian, List.cons.injEq] at h
    obtain ⟨high, low⟩ := h
    have hpos : 0 < 256 ^ n := Nat.pow_pos (by decide)
    have qx : x / 256 ^ n < 256 := by
      rw [Nat.div_lt_iff_lt_mul hpos, ← Nat.pow_succ']; exact hx
    have qy : y / 256 ^ n < 256 := by
      rw [Nat.div_lt_iff_lt_mul hpos, ← Nat.pow_succ']; exact hy
    have quotients : x / 256 ^ n = y / 256 ^ n := by
      have := congrArg UInt8.toNat high
      simpa [Nat.mod_eq_of_lt qx, Nat.mod_eq_of_lt qy] using this
    have remainders : x % 256 ^ n = y % 256 ^ n := by
      apply ih
      · exact Nat.mod_lt _ hpos
      · exact Nat.mod_lt _ hpos
      · rw [bigEndian_mod, bigEndian_mod]; exact low
    calc x = 256 ^ n * (x / 256 ^ n) + x % 256 ^ n := (Nat.div_add_mod x _).symm
      _ = 256 ^ n * (y / 256 ^ n) + y % 256 ^ n := by rw [quotients, remainders]
      _ = y := Nat.div_add_mod y _

/-- A wider encoding of a small number starts with zeros. -/
theorem bigEndian_pad (k n x : Nat) (h : x < 256 ^ n) :
    bigEndian (k + n) x = List.replicate k 0 ++ bigEndian n x := by
  induction k with
  | zero => simp
  | succ k ih =>
    have small : x < 256 ^ (k + n) :=
      Nat.lt_of_lt_of_le h (Nat.pow_le_pow_right (by decide) (by omega))
    rw [Nat.succ_add, bigEndian, Nat.div_eq_of_lt small, ih, List.replicate_succ,
      List.cons_append]
    rfl

theorem fromBigEndian_cons (b : UInt8) (bs : Bytes) :
    fromBigEndian (b :: bs) = b.toNat * 256 ^ bs.length + fromBigEndian bs := by
  have fold (n : Nat) (bs : Bytes) :
      bs.foldl (fun n b => n * 256 + b.toNat) n = n * 256 ^ bs.length + fromBigEndian bs := by
    induction bs generalizing n with
    | nil => simp [fromBigEndian]
    | cons c cs ih =>
      rw [fromBigEndian, List.foldl_cons, List.foldl_cons, ih, ih (0 * 256 + c.toNat),
        List.length_cons, Nat.pow_succ]
      ring
  rw [fromBigEndian, List.foldl_cons, fold]
  simp

theorem fromBigEndian_append (bs cs : Bytes) :
    fromBigEndian (bs ++ cs) = fromBigEndian bs * 256 ^ cs.length + fromBigEndian cs := by
  induction bs with
  | nil => simp [fromBigEndian]
  | cons b bs ih =>
    rw [List.cons_append, fromBigEndian_cons, ih, fromBigEndian_cons, List.length_append,
      Nat.pow_add]
    ring

/-- A number in range is read back. -/
theorem fromBigEndian_bigEndian (n x : Nat) (h : x < 256 ^ n) :
    fromBigEndian (bigEndian n x) = x := by
  induction n generalizing x with
  | zero =>
    have zero : x = 0 := by simpa using h
    rw [zero]
    rfl
  | succ n ih =>
    have positive : 0 < 256 ^ n := Nat.pow_pos (by decide)
    have high : x / 256 ^ n < 256 := by
      rw [Nat.div_lt_iff_lt_mul positive, ← Nat.pow_succ']
      exact h
    have low : fromBigEndian (bigEndian n x) = x % 256 ^ n := by
      rw [← bigEndian_mod]
      exact ih _ (Nat.mod_lt _ positive)
    rw [bigEndian, fromBigEndian_cons, length_bigEndian, low, UInt8.toNat_ofNat_of_lt' high,
      Nat.mul_comm, Nat.div_add_mod]

theorem fromBigEndian_lt (bs : Bytes) : fromBigEndian bs < 256 ^ bs.length := by
  induction bs with
  | nil => simp [fromBigEndian]
  | cons b bs ih =>
    have hb := b.toNat_lt
    rw [fromBigEndian_cons, List.length_cons, Nat.pow_succ]
    calc b.toNat * 256 ^ bs.length + fromBigEndian bs
        < b.toNat * 256 ^ bs.length + 256 ^ bs.length := Nat.add_lt_add_left ih _
      _ = (b.toNat + 1) * 256 ^ bs.length := by ring
      _ ≤ 256 * 256 ^ bs.length := Nat.mul_le_mul_right _ hb
      _ = 256 ^ bs.length * 256 := Nat.mul_comm _ _

/-- Bytes are the encoding of the number they spell. -/
theorem bigEndian_fromBigEndian (bs : Bytes) : bigEndian bs.length (fromBigEndian bs) = bs := by
  induction bs with
  | nil => rfl
  | cons b bs ih =>
    have positive : 0 < 256 ^ bs.length := Nat.pow_pos (by decide)
    have small := fromBigEndian_lt bs
    have high : (b.toNat * 256 ^ bs.length + fromBigEndian bs) / 256 ^ bs.length = b.toNat := by
      rw [Nat.mul_comm, Nat.mul_add_div positive, Nat.div_eq_of_lt small, Nat.add_zero]
    have low : bigEndian bs.length (b.toNat * 256 ^ bs.length + fromBigEndian bs) = bs := by
      rw [← bigEndian_mod, Nat.mul_comm, Nat.mul_add_mod, Nat.mod_eq_of_lt small, ih]
    rw [fromBigEndian_cons, List.length_cons, bigEndian, high, low, UInt8.ofNat_toNat]

/-- Words of which none is empty and none continues another can be told apart when they are written
one after the other. -/
theorem uniquelyDecodable_of_prefixFree {α : Type} (S : Set (List α)) (nonempty : [] ∉ S)
    (closed : ∀ a b, a ∈ S → a ++ b ∈ S → b = []) : InformationTheory.UniquelyDecodable S := by
  intro us vs hus hvs h
  induction us generalizing vs with
  | nil =>
    cases vs with
    | nil => rfl
    | cons v vs =>
      have empty : v = [] := (List.append_eq_nil_iff.mp h.symm).1
      exact absurd (empty ▸ hvs v (by simp)) nonempty
  | cons u us ih =>
    cases vs with
    | nil =>
      have empty : u = [] := (List.append_eq_nil_iff.mp h).1
      exact absurd (empty ▸ hus u (by simp)) nonempty
    | cons v vs =>
      have hu := hus u (by simp)
      have hv := hvs v (by simp)
      rw [List.flatten_cons, List.flatten_cons] at h
      have same : u = v := by
        rcases List.append_eq_append_iff.mp h with ⟨more, hmore, -⟩ | ⟨more, hmore, -⟩
        · have none := closed u more hu (hmore ▸ hv)
          rw [hmore, none, List.append_nil]
        · have none := closed v more hv (hmore ▸ hu)
          rw [hmore, none, List.append_nil]
      subst same
      rw [ih vs (fun w hw => hus w (by simp [hw])) (fun w hw => hvs w (by simp [hw]))
        (List.append_cancel_left h)]

def hexDigit (n : Nat) : Char := if n < 10 then Char.ofNat (48 + n) else Char.ofNat (87 + n)

def hexValue (c : Char) : Option Nat :=
  if '0' ≤ c ∧ c ≤ '9' then some (c.toNat - 48)
  else if 'a' ≤ c ∧ c ≤ 'f' then some (c.toNat - 87)
  else if 'A' ≤ c ∧ c ≤ 'F' then some (c.toNat - 55)
  else none

def hexChars (bs : Bytes) : List Char :=
  bs.flatMap fun b => [hexDigit (b.toNat / 16), hexDigit (b.toNat % 16)]

def hexBytes : List Char → Option Bytes
  | [] => some []
  | [_] => none
  | c :: d :: cs => do
      let high ← hexValue c
      let low ← hexValue d
      let rest ← hexBytes cs
      return UInt8.ofNat (16 * high + low) :: rest

/-- Lower-case hexadecimal, two digits a byte. -/
def hexEncode (bs : Bytes) : String := String.ofList (hexChars bs)

private theorem hexValue_hexDigit (n : Nat) (h : n < 16) : hexValue (hexDigit n) = some n := by
  interval_cases n <;> decide

theorem hexBytes_hexChars (bs : Bytes) : hexBytes (hexChars bs) = some bs := by
  induction bs with
  | nil => rfl
  | cons b bs ih =>
    have hb := b.toNat_lt
    have high : b.toNat / 16 < 16 := by omega
    have low : b.toNat % 16 < 16 := by omega
    change hexBytes (hexDigit (b.toNat / 16) :: hexDigit (b.toNat % 16) :: hexChars bs) = _
    simp only [hexBytes, hexValue_hexDigit _ high, hexValue_hexDigit _ low, ih,
      Option.bind_eq_bind, Option.bind_some, ofNat_nibbles]
    rfl

@[simp] theorem length_hexEncode (bs : Bytes) : (hexEncode bs).toList.length = 2 * bs.length := by
  rw [hexEncode, String.toList_ofList]
  induction bs with
  | nil => rfl
  | cons b bs ih =>
    change (hexDigit (b.toNat / 16) :: hexDigit (b.toNat % 16) :: hexChars bs).length = _
    simp only [List.length_cons, ih]
    omega

end Octets
