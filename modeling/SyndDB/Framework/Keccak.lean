import SyndDB.Framework.Octets

namespace Keccak

open Octets

abbrev Lane := BitVec 64

/-- The lane in column `x` and row `y` stands at `x + 5 * y`. -/
abbrev State := List Lane

def roundConstants : List Lane :=
  [0x0000000000000001, 0x0000000000008082, 0x800000000000808A, 0x8000000080008000,
   0x000000000000808B, 0x0000000080000001, 0x8000000080008081, 0x8000000000008009,
   0x000000000000008A, 0x0000000000000088, 0x0000000080008009, 0x000000008000000A,
   0x000000008000808B, 0x800000000000008B, 0x8000000000008089, 0x8000000000008003,
   0x8000000000008002, 0x8000000000000080, 0x000000000000800A, 0x800000008000000A,
   0x8000000080008081, 0x8000000000008080, 0x0000000080000001, 0x8000000080008008]

/-- How far each lane is rotated. -/
def offsets : List Nat :=
  [0, 1, 62, 28, 27, 36, 44, 6, 55, 20, 3, 10, 43, 25, 39, 41, 45, 15, 21, 8, 18, 2, 61, 56, 14]

def lane (s : State) (x y : Nat) : Lane := s.getD (x % 5 + 5 * (y % 5)) 0

def build (f : Nat → Nat → Lane) : State := (List.range 25).map fun i => f (i % 5) (i / 5)

def column (s : State) (x : Nat) : Lane :=
  lane s x 0 ^^^ lane s x 1 ^^^ lane s x 2 ^^^ lane s x 3 ^^^ lane s x 4

def theta (s : State) : State :=
  let parity := (List.range 5).map (column s)
  build fun x y =>
    lane s x y ^^^
      (parity.getD ((x + 4) % 5) 0 ^^^ (parity.getD ((x + 1) % 5) 0).rotateLeft 1)

/-- ρ and π in one step: each lane is rotated and moved. -/
def rhoPi (s : State) : State :=
  build fun x y =>
    let x' := (x + 3 * y) % 5
    (lane s x' x).rotateLeft (offsets.getD (x' + 5 * x) 0)

def chi (s : State) : State :=
  build fun x y => lane s x y ^^^ (~~~lane s (x + 1) y &&& lane s (x + 2) y)

def iota (constant : Lane) : State → State
  | [] => []
  | a :: s => (a ^^^ constant) :: s

def round (s : State) (constant : Lane) : State := iota constant (chi (rhoPi (theta s)))

def permute (s : State) : State := roundConstants.foldl round s

def rate : Nat := 136

def lanes : Nat → Bytes → List Lane
  | 0, _ => []
  | n + 1, bs => BitVec.ofNat 64 (fromBigEndian (bs.take 8).reverse) :: lanes n (bs.drop 8)

def absorb (s : State) (block : Bytes) : State :=
  permute (List.zipWith (· ^^^ ·) s (lanes 17 block ++ List.replicate 8 0))

/-- A one bit, and another one at the end of the block. -/
def pad (bs : Bytes) : Bytes :=
  let free := rate - bs.length % rate
  if free = 1 then bs ++ [0x81] else bs ++ [0x01] ++ List.replicate (free - 2) 0 ++ [0x80]

def blocks : Nat → Bytes → List Bytes
  | 0, _ => []
  | n + 1, bs => bs.take rate :: blocks n (bs.drop rate)

def squeeze (s : State) : Bytes := (s.take 4).flatMap fun a => (bigEndian 8 a.toNat).reverse

def keccak256 (bs : Bytes) : Bytes :=
  squeeze ((blocks (bs.length / rate + 1) (pad bs)).foldl absorb (List.replicate 25 0))

@[simp] theorem length_build (f : Nat → Nat → Lane) : (build f).length = 25 := by
  simp [build]

theorem length_iota (constant : Lane) (s : State) : (iota constant s).length = s.length := by
  cases s with
  | nil => rfl
  | cons a s => rfl

theorem length_round (s : State) (constant : Lane) : (round s constant).length = 25 := by
  rw [round, length_iota, chi, length_build]

theorem length_permute (s : State) (h : s.length = 25) : (permute s).length = 25 := by
  have rounds (constants : List Lane) (s : State) (h : s.length = 25) :
      (constants.foldl round s).length = 25 := by
    induction constants generalizing s with
    | nil => exact h
    | cons constant constants ih => exact ih (round s constant) (length_round s constant)
  exact rounds roundConstants s h

theorem length_lanes (n : Nat) (bs : Bytes) : (lanes n bs).length = n := by
  induction n generalizing bs with
  | zero => rfl
  | succ n ih => rw [lanes, List.length_cons, ih]

theorem length_absorb (s : State) (block : Bytes) (h : s.length = 25) :
    (absorb s block).length = 25 := by
  refine length_permute _ ?_
  rw [List.length_zipWith, List.length_append, length_lanes, List.length_replicate, h]
  rfl

theorem length_squeeze (s : State) (h : s.length = 25) : (squeeze s).length = 32 := by
  simp [squeeze, List.length_flatMap, h]

/-- A hash has 32 bytes. -/
theorem length_keccak256 (bs : Bytes) : (keccak256 bs).length = 32 := by
  have blocks (bss : List Bytes) (s : State) (h : s.length = 25) :
      (bss.foldl absorb s).length = 25 := by
    induction bss generalizing s with
    | nil => exact h
    | cons block bss ih => exact ih (absorb s block) (length_absorb s block h)
  exact length_squeeze _ (blocks _ _ List.length_replicate)

example : keccak256 [] =
    bigEndian 32 0xc5d2460186f7233c927e7db2dcc703c0e500b653ca82273b7bfad8045d85a470 := by
  decide +kernel

end Keccak
