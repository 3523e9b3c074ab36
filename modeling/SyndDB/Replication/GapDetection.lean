import SyndDB.Replication.BatchIndex

namespace SyndDB.Replication

/-- The loop of `detect_gaps`. The cursor wraps behind the last number there is. -/
def gapsFrom (fromSequence expected : UInt64) : List BatchInfo → List (UInt64 × UInt64)
  | [] => []
  | batch :: rest =>
      if batch.endSequence < fromSequence then gapsFrom fromSequence expected rest
      else if expected < batch.startSequence then
        (expected, batch.startSequence) :: gapsFrom fromSequence (batch.endSequence + 1) rest
      else gapsFrom fromSequence (batch.endSequence + 1) rest

def detectGaps (batches : List BatchInfo) (fromSequence : UInt64) : List (UInt64 × UInt64) :=
  gapsFrom fromSequence fromSequence batches

def latestSequence (batches : List BatchInfo) : Option UInt64 :=
  batches.getLast?.map BatchInfo.endSequence

/-- A sequence from the start on that no batch has, although some batch has a later one. -/
def Missing (batches : List BatchInfo) (fromSequence sequence : UInt64) : Prop :=
  fromSequence ≤ sequence ∧ (∃ later, sequence < later ∧ Covered batches later) ∧
    ¬Covered batches sequence

/-- The numbers from `a` up to but not including `b` have the property, and their neighbours on
both sides do not. -/
structure Maximal (P : UInt64 → Prop) (a b : UInt64) : Prop where
  nonempty : a < b
  inside : ∀ x, a ≤ x → x < b → P x
  above : ¬P b
  below : ∀ x, x < a → x + 1 = a → ¬P x

/-- The maximal intervals of missing sequences, in increasing order. -/
structure ExactGaps (batches : List BatchInfo) (fromSequence : UInt64)
    (gaps : List (UInt64 × UInt64)) : Prop where
  increasing : gaps.Pairwise fun g h => g.1 < h.1
  maximal : ∀ a b, (a, b) ∈ gaps ↔ Maximal (Missing batches fromSequence) a b

/-- The highest covered sequence, if any is covered. -/
def Highest (batches : List BatchInfo) (latest : Option UInt64) : Prop :=
  ∀ sequence, latest = some sequence ↔
    Covered batches sequence ∧ ∀ other, Covered batches other → other ≤ sequence

/-- The batches that the scan does not pass over. -/
def relevant (fromSequence : UInt64) (batches : List BatchInfo) : List BatchInfo :=
  batches.filter fun b => !(b.endSequence < fromSequence)

/-- The cursor before the batch at a position. -/
def cursor (expected : UInt64) (batches : List BatchInfo) : Nat → UInt64
  | 0 => expected
  | i + 1 => (batches[i]?.map fun p => p.endSequence + 1).getD expected

theorem cursor_succ (expected : UInt64) (batches : List BatchInfo) (i : Nat) (p : BatchInfo)
    (h : batches[i]? = some p) : cursor expected batches (i + 1) = p.endSequence + 1 := by
  rw [cursor, h]
  rfl

theorem getElem?_previous (batches : List BatchInfo) (j : Nat) (q : BatchInfo)
    (h : batches[j + 1]? = some q) : ∃ p, batches[j]? = some p := by
  obtain ⟨inside, -⟩ := List.getElem?_eq_some_iff.mp h
  exact ⟨batches[j], List.getElem?_eq_getElem (by omega)⟩

theorem cursor_cons (expected : UInt64) (batch : BatchInfo) (rest : List BatchInfo) (i : Nat)
    (q : BatchInfo) (h : rest[i]? = some q) :
    cursor expected (batch :: rest) (i + 1) = cursor (batch.endSequence + 1) rest i := by
  cases i with
  | zero => rfl
  | succ i =>
    obtain ⟨p, before⟩ := getElem?_previous rest i q h
    rw [cursor_succ _ rest i p before, cursor_succ _ (batch :: rest) (i + 1) p before]

/-- A gap is reported at the batches that start beyond the cursor. -/
def scan (expected : UInt64) : List BatchInfo → List (UInt64 × UInt64)
  | [] => []
  | batch :: rest =>
      if expected < batch.startSequence then
        (expected, batch.startSequence) :: scan (batch.endSequence + 1) rest
      else scan (batch.endSequence + 1) rest

theorem gapsFrom_eq (fromSequence expected : UInt64) (batches : List BatchInfo) :
    gapsFrom fromSequence expected batches = scan expected (relevant fromSequence batches) := by
  induction batches generalizing expected with
  | nil => rfl
  | cons batch rest ih =>
    unfold gapsFrom relevant
    by_cases before : batch.endSequence < fromSequence
    · rw [if_pos before, List.filter_cons_of_neg (by simpa using before)]
      exact ih expected
    · rw [if_neg before, List.filter_cons_of_pos (by simpa using before), scan, ih]
      rfl

theorem mem_scan (expected : UInt64) (batches : List BatchInfo) (a b : UInt64) :
    (a, b) ∈ scan expected batches ↔ ∃ i q, batches[i]? = some q ∧ a = cursor expected batches i ∧
      b = q.startSequence ∧ a < b := by
  induction batches generalizing expected with
  | nil => simp [scan]
  | cons batch rest ih =>
    have later : (∃ i q, (batch :: rest)[i]? = some q ∧ a = cursor expected (batch :: rest) i ∧
        b = q.startSequence ∧ a < b) ↔
        (a = expected ∧ b = batch.startSequence ∧ a < b) ∨
          (a, b) ∈ scan (batch.endSequence + 1) rest := by
      rw [ih]
      constructor
      · rintro ⟨i, q, found, rfl, rfl, less⟩
        cases i with
        | zero =>
          cases found
          exact Or.inl ⟨rfl, rfl, less⟩
        | succ i => exact Or.inr ⟨i, q, found, cursor_cons _ _ _ i q found, rfl, less⟩
      · rintro (⟨rfl, rfl, less⟩ | ⟨i, q, found, rfl, rfl, less⟩)
        · exact ⟨0, batch, rfl, rfl, rfl, less⟩
        · exact ⟨i + 1, q, found, (cursor_cons _ _ _ i q found).symm, rfl, less⟩
    rw [later, scan]
    by_cases beyond : expected < batch.startSequence
    · rw [if_pos beyond, List.mem_cons, Prod.mk.injEq]
      constructor
      · rintro (⟨rfl, rfl⟩ | member)
        · exact Or.inl ⟨rfl, rfl, beyond⟩
        · exact Or.inr member
      · rintro (⟨rfl, rfl, -⟩ | member)
        · exact Or.inl ⟨rfl, rfl⟩
        · exact Or.inr member
    · rw [if_neg beyond]
      constructor
      · exact Or.inr
      · rintro (⟨rfl, rfl, less⟩ | member)
        · exact absurd less beyond
        · exact member

/-- The order in which gaps are reported. -/
theorem pairwise_scan (R : UInt64 × UInt64 → UInt64 × UInt64 → Prop) (expected : UInt64)
    (batches : List BatchInfo) :
    (scan expected batches).Pairwise R ↔ ∀ i j p q, i < j → batches[i]? = some p →
      batches[j]? = some q → cursor expected batches i < p.startSequence →
      cursor expected batches j < q.startSequence →
      R (cursor expected batches i, p.startSequence)
        (cursor expected batches j, q.startSequence) := by
  induction batches generalizing expected with
  | nil => simp [scan]
  | cons batch rest ih =>
    have first : (scan expected (batch :: rest)).Pairwise R ↔
        (expected < batch.startSequence → ∀ g ∈ scan (batch.endSequence + 1) rest,
          R (expected, batch.startSequence) g) ∧
            (scan (batch.endSequence + 1) rest).Pairwise R := by
      rw [scan]
      by_cases beyond : expected < batch.startSequence
      · rw [if_pos beyond, List.pairwise_cons]
        simp [beyond]
      · rw [if_neg beyond]
        simp [beyond]
    rw [first, ih]
    constructor
    · rintro ⟨head, tail⟩ i j p q less hi hj beyond beyond'
      obtain ⟨j, rfl⟩ : ∃ n, j = n + 1 := ⟨j - 1, by omega⟩
      have later := cursor_cons expected batch rest j q hj
      rw [later] at beyond' ⊢
      cases i with
      | zero =>
        cases hi
        exact head beyond _ ((mem_scan _ _ _ _).mpr ⟨j, q, hj, rfl, rfl, beyond'⟩)
      | succ i =>
        have here := cursor_cons expected batch rest i p hi
        rw [here] at beyond ⊢
        exact tail i j p q (by omega) hi hj beyond beyond'
    · intro whole
      constructor
      · rintro beyond ⟨a, b⟩ member
        obtain ⟨j, q, hj, rfl, rfl, less⟩ := (mem_scan _ _ _ _).mp member
        have later := cursor_cons expected batch rest j q hj
        rw [← later] at less ⊢
        exact whole 0 (j + 1) batch q (by omega) rfl hj beyond less
      · intro i j p q less hi hj beyond beyond'
        have here := cursor_cons expected batch rest i p hi
        have later := cursor_cons expected batch rest j q hj
        rw [← here] at beyond ⊢
        rw [← later] at beyond' ⊢
        exact whole (i + 1) (j + 1) p q (by omega) hi hj beyond beyond'

/-- The sequence is covered, and no batch reaches beyond it. -/
def Reaches (batches : List BatchInfo) (sequence : UInt64) : Prop :=
  Covered batches sequence ∧ ∀ b ∈ batches, b.isEmpty = false → b.endSequence ≤ sequence

theorem isEmpty_eq_false (b : BatchInfo) : b.isEmpty = false ↔ b.startSequence ≤ b.endSequence := by
  rw [BatchInfo.isEmpty, decide_eq_false_iff_not, UInt64.not_lt]

theorem reaches_iff (batches : List BatchInfo) (sequence : UInt64) :
    Reaches batches sequence ↔
      Covered batches sequence ∧ ∀ other, Covered batches other → other ≤ sequence := by
  constructor
  · rintro ⟨covered, ends⟩
    refine ⟨covered, ?_⟩
    rintro other ⟨b, hb, inside⟩
    obtain ⟨low, high⟩ := (contains_iff_le b other).mp inside
    have nonempty := (isEmpty_eq_false b).mpr (UInt64.le_trans low high)
    exact UInt64.le_trans high (ends b hb nonempty)
  · rintro ⟨covered, highest⟩
    refine ⟨covered, ?_⟩
    intro b hb nonempty
    have last : b.contains b.endSequence = true :=
      (contains_iff_le b _).mpr ⟨(isEmpty_eq_false b).mp nonempty, UInt64.le_refl _⟩
    exact highest _ ⟨b, hb, last⟩

theorem covered_take (batches : List BatchInfo) (i : Nat) (sequence : UInt64) :
    Covered (batches.take i) sequence ↔
      ∃ (k : Nat) (c : BatchInfo), k < i ∧ batches[k]? = some c ∧ c.contains sequence = true := by
  constructor
  · rintro ⟨c, hc, inside⟩
    obtain ⟨k, hk, rfl⟩ := List.mem_take_iff_getElem.mp hc
    exact ⟨k, _, by omega, List.getElem?_eq_getElem (by omega), inside⟩
  · rintro ⟨k, c, less, found, inside⟩
    obtain ⟨hk, rfl⟩ := List.getElem?_eq_some_iff.mp found
    exact ⟨_, List.mem_take_iff_getElem.mpr ⟨k, by omega, rfl⟩, inside⟩

theorem covered_iff (batches : List BatchInfo) (sequence : UInt64) :
    Covered batches sequence ↔
      ∃ (k : Nat) (c : BatchInfo), batches[k]? = some c ∧ c.contains sequence = true := by
  constructor
  · rintro ⟨c, hc, inside⟩
    obtain ⟨k, found⟩ := List.mem_iff_getElem?.mp hc
    exact ⟨k, c, found, inside⟩
  · rintro ⟨k, c, found, inside⟩
    exact ⟨c, List.mem_of_getElem? found, inside⟩

theorem start_le_start (batches : List BatchInfo)
    (sorted : batches.Pairwise fun a b => a.startSequence ≤ b.startSequence) (i j : Nat)
    (p q : BatchInfo) (order : i ≤ j) (hi : batches[i]? = some p) (hj : batches[j]? = some q) :
    p.startSequence ≤ q.startSequence := by
  obtain ⟨inside, rfl⟩ := List.getElem?_eq_some_iff.mp hi
  obtain ⟨inside', rfl⟩ := List.getElem?_eq_some_iff.mp hj
  rcases Nat.lt_or_eq_of_le order with less | rfl
  · exact List.pairwise_iff_getElem.mp sorted i j inside inside' less
  · exact UInt64.le_refl _

/-- What is covered before the start of a batch is covered by the batches before it. -/
theorem covered_before (batches : List BatchInfo)
    (sorted : batches.Pairwise fun a b => a.startSequence ≤ b.startSequence) (i : Nat)
    (q : BatchInfo) (hi : batches[i]? = some q) (sequence : UInt64) (h : Covered batches sequence)
    (before : sequence < q.startSequence) : Covered (batches.take i) sequence := by
  obtain ⟨k, c, found, inside⟩ := (covered_iff batches sequence).mp h
  rw [covered_take]
  refine ⟨k, c, ?_, found, inside⟩
  by_contra after
  have order := start_le_start batches sorted i k q c (Nat.not_lt.mp after) hi found
  have start := ((contains_iff_le c sequence).mp inside).1
  exact UInt64.not_lt.mpr order (UInt64.lt_of_le_of_lt start before)

theorem succ_of_lt (a b : UInt64) (h : a < b) : (a + 1).toNat = a.toNat + 1 := by
  have less := UInt64.lt_iff_toNat_lt.mp h
  have bound := UInt64.toNat_lt b
  rw [UInt64.toNat_add]
  change (_ + 1) % 2 ^ 64 = _
  omega

theorem exists_pred (a b : UInt64) (h : a < b) : ∃ z, z + 1 = b ∧ a ≤ z ∧ z < b := by
  have less := UInt64.lt_iff_toNat_lt.mp h
  have one : (1 : UInt64) ≤ b := UInt64.le_iff_toNat_le.mpr (by change 1 ≤ b.toNat; omega)
  have value : (b - 1).toNat = b.toNat - 1 := UInt64.toNat_sub_of_le b 1 one
  refine ⟨b - 1, by simp, ?_, ?_⟩
  · rw [UInt64.le_iff_toNat_le, value]
    omega
  · rw [UInt64.lt_iff_toNat_lt, value]
    omega

/-- Two maximal intervals with a number in common are the same. -/
theorem Maximal.unique {P : UInt64 → Prop} {a b c d : UInt64} (first : Maximal P a b)
    (second : Maximal P c d) (x : UInt64) (hx : a ≤ x ∧ x < b) (hx' : c ≤ x ∧ x < d) :
    a = c ∧ b = d := by
  have left {a b c d : UInt64} (first : Maximal P a b) (second : Maximal P c d)
      (hx : a ≤ x ∧ x < b) (hx' : c ≤ x ∧ x < d) : ¬a < c := by
    intro less
    obtain ⟨z, succ, low, high⟩ := exists_pred a c less
    have inside : z < b := UInt64.lt_trans high (UInt64.lt_of_le_of_lt hx'.1 hx.2)
    exact second.below z high succ (first.inside z low inside)
  have right {a b c d : UInt64} (first : Maximal P a b) (second : Maximal P c d)
      (hx : a ≤ x ∧ x < b) (hx' : c ≤ x ∧ x < d) : ¬d < b := by
    intro less
    exact second.above (first.inside d (UInt64.le_of_lt (UInt64.lt_of_le_of_lt hx.1 hx'.2)) less)
  constructor
  · exact UInt64.le_antisymm (UInt64.not_lt.mp (left second first hx' hx))
      (UInt64.not_lt.mp (left first second hx hx'))
  · exact UInt64.le_antisymm (UInt64.not_lt.mp (right first second hx hx'))
      (UInt64.not_lt.mp (right second first hx' hx))

theorem covered_of_take (batches : List BatchInfo) (i : Nat) (sequence : UInt64)
    (h : Covered (batches.take i) sequence) : Covered batches sequence := by
  obtain ⟨b, hb, inside⟩ := h
  exact ⟨b, List.mem_of_mem_take hb, inside⟩

/-- Where a batch starts beyond the cursor, the batch in front of it lies before it and reaches as
far as any so far. The batch itself is not an empty range, unless it ends right before its own start
and that start is covered. -/
def CursorExact (fromSequence : UInt64) (batches : List BatchInfo) : Prop :=
  ∀ i q, batches[i]? = some q → cursor fromSequence batches i < q.startSequence →
    (∀ j p, i = j + 1 → batches[j]? = some p → p.startSequence < q.startSequence ∧
      p.endSequence < q.startSequence ∧ Reaches (batches.take i) p.endSequence) ∧
    (q.isEmpty = false ∨ q.endSequence + 1 = q.startSequence ∧ Covered batches q.startSequence)

/-- What the scan looks at: batches by their start, and none that ends before the first sequence. -/
structure Scanned (fromSequence : UInt64) (batches : List BatchInfo) : Prop where
  sorted : batches.Pairwise fun a b => a.startSequence ≤ b.startSequence
  late : ∀ b ∈ batches, fromSequence ≤ b.endSequence

section

variable {fromSequence : UInt64} {batches : List BatchInfo}

/-- Every missing sequence lies between a cursor and the start of a batch. -/
theorem missing_scanned (x : UInt64) (h : Missing batches fromSequence x) :
    ∃ (i : Nat) (q : BatchInfo), batches[i]? = some q ∧
      cursor fromSequence batches i ≤ x ∧ x < q.startSequence := by
  obtain ⟨start, ⟨later, less, covered⟩, uncovered⟩ := h
  have above : ∃ i : Nat, ∃ q : BatchInfo, batches[i]? = some q ∧ x < q.startSequence := by
    obtain ⟨k, c, found, inside⟩ := (covered_iff batches later).mp covered
    refine ⟨k, c, found, ?_⟩
    by_contra before
    have reach := UInt64.le_of_lt
      (UInt64.lt_of_lt_of_le less ((contains_iff_le c later).mp inside).2)
    exact uncovered ((covered_iff batches x).mpr
      ⟨k, c, found, (contains_iff_le c x).mpr ⟨UInt64.not_lt.mp before, reach⟩⟩)
  obtain ⟨q, found, beyond⟩ := Nat.find_spec above
  refine ⟨Nat.find above, q, found, ?_, beyond⟩
  cases first : Nat.find above with
  | zero => exact start
  | succ j =>
    rw [first] at found
    obtain ⟨p, previous⟩ := getElem?_previous batches j q found
    have before : ¬∃ q : BatchInfo, batches[j]? = some q ∧ x < q.startSequence :=
      Nat.find_min above (by omega)
    have low : p.startSequence ≤ x :=
      UInt64.not_lt.mp fun less => before ⟨_, previous, less⟩
    have high : p.endSequence < x := by
      by_contra reach
      exact uncovered ((covered_iff batches x).mpr
        ⟨j, _, previous, (contains_iff_le _ x).mpr ⟨low, UInt64.not_lt.mp reach⟩⟩)
    rw [cursor_succ _ _ j _ previous, UInt64.le_iff_toNat_le, succ_of_lt _ _ high]
    exact UInt64.lt_iff_toNat_lt.mp high

theorem covered_of_cursorExact (regular : CursorExact fromSequence batches) (i : Nat)
    (q : BatchInfo)
    (hi : batches[i]? = some q) (beyond : cursor fromSequence batches i < q.startSequence) :
    Covered batches q.startSequence := by
  rcases (regular i q hi beyond).2 with nonempty | ⟨-, covered⟩
  · refine ⟨q, List.mem_of_getElem? hi, (contains_iff_le q _).mpr ⟨UInt64.le_refl _, ?_⟩⟩
    exact (isEmpty_eq_false q).mp nonempty
  · exact covered

/-- What is known where an exact scan reports a gap. -/
theorem reported_maximal (gaps : ExactGaps batches fromSequence (scan fromSequence batches))
    (i : Nat) (q : BatchInfo) (hi : batches[i]? = some q)
    (beyond : cursor fromSequence batches i < q.startSequence) :
    Maximal (Missing batches fromSequence) (cursor fromSequence batches i) q.startSequence :=
  (gaps.maximal _ _).mp ((mem_scan _ _ _ _).mpr ⟨i, q, hi, rfl, rfl, beyond⟩)

/-- An exact scan does not report two gaps before the same start. -/
theorem reported_once (gaps : ExactGaps batches fromSequence (scan fromSequence batches))
    (i j : Nat)
    (p q : BatchInfo) (order : i < j) (hi : batches[i]? = some p) (hj : batches[j]? = some q)
    (beyond : cursor fromSequence batches i < p.startSequence)
    (beyond' : cursor fromSequence batches j < q.startSequence) :
    p.startSequence ≠ q.startSequence := by
  intro same
  have first := reported_maximal gaps i p hi beyond
  have second := reported_maximal gaps j q hj beyond'
  obtain ⟨z, succ, low, high⟩ := exists_pred _ _ beyond'
  have increasing := (pairwise_scan _ _ _).mp gaps.increasing i j p q order hi hj beyond beyond'
  have low' : cursor fromSequence batches i ≤ z :=
    UInt64.le_trans (UInt64.le_of_lt increasing) low
  obtain ⟨equal, -⟩ := first.unique second z ⟨low', same ▸ high⟩ ⟨low, high⟩
  exact UInt64.ne_of_lt increasing equal

/-- A batch that starts before the end of a missing interval ends more than one before it. -/
theorem end_of_start_lt (a : UInt64) (q : BatchInfo)
    (maximal : Maximal (Missing batches fromSequence) a q.startSequence) (c : BatchInfo)
    (hc : c ∈ batches) (starts : c.startSequence < q.startSequence) :
    c.endSequence < q.startSequence ∧ c.endSequence + 1 < q.startSequence := by
  obtain ⟨z, succ, low, high⟩ := exists_pred _ _ maximal.nonempty
  have after := succ_of_lt z _ high
  rw [succ] at after
  have ends : c.endSequence < z := by
    by_contra reach
    apply (maximal.inside z low high).2.2
    refine ⟨c, hc, (contains_iff_le c z).mpr ⟨?_, UInt64.not_lt.mp reach⟩⟩
    rw [UInt64.lt_iff_toNat_lt] at starts
    rw [UInt64.le_iff_toNat_le]
    omega
  have next := succ_of_lt _ _ ends
  rw [UInt64.lt_iff_toNat_lt] at ends ⊢
  rw [UInt64.lt_iff_toNat_lt]
  omega

/-- The start of a batch behind a missing interval is covered. -/
theorem covered_of_maximal (a : UInt64) (q : BatchInfo)
    (maximal : Maximal (Missing batches fromSequence) a q.startSequence) :
    Covered batches q.startSequence := by
  obtain ⟨z, succ, low, high⟩ := exists_pred _ _ maximal.nonempty
  obtain ⟨start, ⟨later, less, covered⟩, -⟩ := maximal.inside z low high
  have after := succ_of_lt z _ high
  rw [succ] at after
  by_contra uncovered
  apply maximal.above
  refine ⟨UInt64.le_trans start (UInt64.le_of_lt high), ⟨later, ?_, covered⟩, uncovered⟩
  have different : later ≠ q.startSequence := by
    rintro rfl
    exact uncovered covered
  have different' : later.toNat ≠ q.startSequence.toNat :=
    fun same => different (UInt64.toNat_inj.mp same)
  rw [UInt64.lt_iff_toNat_lt] at less ⊢
  omega

variable (scanned : Scanned fromSequence batches)

include scanned

theorem from_le_cursor (i : Nat) (q : BatchInfo) (hi : batches[i]? = some q)
    (before : ∀ j p, i = j + 1 → batches[j]? = some p → p.endSequence < q.startSequence) :
    fromSequence ≤ cursor fromSequence batches i := by
  cases i with
  | zero => exact UInt64.le_refl _
  | succ j =>
    obtain ⟨p, previous⟩ := getElem?_previous batches j q hi
    have late := UInt64.le_iff_toNat_le.mp (scanned.late _ (List.mem_of_getElem? previous))
    rw [cursor_succ _ _ j _ previous, UInt64.le_iff_toNat_le,
      succ_of_lt _ _ (before j _ rfl previous)]
    omega

/-- Under the condition nothing between a cursor and the start of the batch behind it is covered. -/
theorem uncovered_of_cursorExact (regular : CursorExact fromSequence batches) (i : Nat)
    (q : BatchInfo)
    (hi : batches[i]? = some q) (beyond : cursor fromSequence batches i < q.startSequence)
    (x : UInt64) (low : cursor fromSequence batches i ≤ x) (high : x < q.startSequence) :
    ¬Covered batches x := by
  intro covered
  have before := covered_before batches scanned.sorted i q hi x covered high
  obtain ⟨front, -⟩ := regular i q hi beyond
  cases i with
  | zero =>
    obtain ⟨b, hb, -⟩ := before
    cases hb
  | succ j =>
    obtain ⟨p, previous⟩ := getElem?_previous batches j q hi
    obtain ⟨-, ends, reaches⟩ := front j _ rfl previous
    have most := UInt64.le_iff_toNat_le.mp (((reaches_iff _ _).mp reaches).2 x before)
    rw [cursor_succ _ _ j _ previous, UInt64.le_iff_toNat_le, succ_of_lt _ _ ends] at low
    omega

/-- Under the condition the cursor is at a maximal interval wherever a gap is reported. -/
theorem maximal_of_cursorExact (regular : CursorExact fromSequence batches) (i : Nat)
    (q : BatchInfo)
    (hi : batches[i]? = some q) (beyond : cursor fromSequence batches i < q.startSequence) :
    Maximal (Missing batches fromSequence) (cursor fromSequence batches i) q.startSequence where
  nonempty := beyond
  inside := by
    intro x low high
    have covered := covered_of_cursorExact regular i q hi beyond
    have start := from_le_cursor scanned i q hi
      fun j p hj hp => ((regular i q hi beyond).1 j p hj hp).2.1
    exact ⟨UInt64.le_trans start low, ⟨q.startSequence, high, covered⟩,
      uncovered_of_cursorExact scanned regular i q hi beyond x low high⟩
  above := fun missing => missing.2.2 (covered_of_cursorExact regular i q hi beyond)
  below := by
    intro x less succ missing
    cases i with
    | zero => exact UInt64.not_lt.mpr missing.1 less
    | succ j =>
      obtain ⟨p, previous⟩ := getElem?_previous batches j q hi
      obtain ⟨-, -, reaches⟩ := (regular (j + 1) q hi beyond).1 j _ rfl previous
      rw [cursor_succ _ _ j _ previous] at succ
      have same : x = p.endSequence := (UInt64.add_left_inj 1).mp succ
      rw [same] at missing
      exact missing.2.2 (covered_of_take batches (j + 1) _ reaches.1)

/-- Under the condition gaps are reported in increasing order. -/
theorem increasing_of_cursorExact (regular : CursorExact fromSequence batches) (i j : Nat)
    (p q : BatchInfo) (order : i < j) (hi : batches[i]? = some p) (hj : batches[j]? = some q)
    (beyond : cursor fromSequence batches i < p.startSequence)
    (beyond' : cursor fromSequence batches j < q.startSequence) :
    cursor fromSequence batches i < cursor fromSequence batches j := by
  obtain ⟨k, rfl⟩ : ∃ k, j = k + 1 := ⟨j - 1, by omega⟩
  obtain ⟨r, previous⟩ := getElem?_previous batches k q hj
  obtain ⟨starts, ends, reaches⟩ := (regular (k + 1) q hj beyond').1 k _ rfl previous
  have first := start_le_start batches scanned.sorted i k p _ (by omega) hi previous
  have covered := covered_before batches scanned.sorted (k + 1) q hj p.startSequence
    (covered_of_cursorExact regular i p hi beyond) (UInt64.lt_of_le_of_lt first starts)
  have most := UInt64.le_iff_toNat_le.mp (((reaches_iff _ _).mp reaches).2 _ covered)
  have less := UInt64.lt_iff_toNat_lt.mp beyond
  rw [cursor_succ _ _ k _ previous, UInt64.lt_iff_toNat_lt, succ_of_lt _ _ ends]
  omega

theorem exactGaps_of_cursorExact (regular : CursorExact fromSequence batches) :
    ExactGaps batches fromSequence (scan fromSequence batches) where
  increasing := by
    rw [pairwise_scan]
    intro i j p q order hi hj beyond beyond'
    exact increasing_of_cursorExact scanned regular i j p q order hi hj beyond beyond'
  maximal := by
    intro a b
    rw [mem_scan]
    constructor
    · rintro ⟨i, q, hi, rfl, rfl, beyond⟩
      exact maximal_of_cursorExact scanned regular i q hi beyond
    · intro maximal
      have missing := maximal.inside a (UInt64.le_refl a) maximal.nonempty
      obtain ⟨i, q, hi, low, high⟩ := missing_scanned a missing
      have beyond := UInt64.lt_of_le_of_lt low high
      obtain ⟨left, right⟩ := maximal.unique
        (maximal_of_cursorExact scanned regular i q hi beyond) a
        ⟨UInt64.le_refl a, maximal.nonempty⟩ ⟨low, high⟩
      exact ⟨i, q, hi, left, right, maximal.nonempty⟩

/-- Where an exact scan reports a gap, all batches so far start before it. -/
theorem starts_of_exactGaps (gaps : ExactGaps batches fromSequence (scan fromSequence batches))
    (i : Nat) (q : BatchInfo) (hi : batches[i]? = some q)
    (beyond : cursor fromSequence batches i < q.startSequence) (k : Nat) (c : BatchInfo)
    (before : k < i) (hk : batches[k]? = some c) : c.startSequence < q.startSequence := by
  have maximal := reported_maximal gaps i q hi beyond
  induction k generalizing c with
  | zero =>
    by_contra starts
    have order := start_le_start batches scanned.sorted 0 i c q (Nat.zero_le i) hk hi
    have same := UInt64.le_antisymm order (UInt64.not_lt.mp starts)
    have start := (maximal.inside _ (UInt64.le_refl _) beyond).1
    have beyond' : cursor fromSequence batches 0 < c.startSequence :=
      same ▸ UInt64.lt_of_le_of_lt start beyond
    exact reported_once gaps 0 i c q before hk hi beyond' beyond same
  | succ k ih =>
    by_contra starts
    have order := start_le_start batches scanned.sorted (k + 1) i c q (by omega) hk hi
    have same := UInt64.le_antisymm order (UInt64.not_lt.mp starts)
    obtain ⟨p, previous⟩ := getElem?_previous batches k c hk
    have ends := end_of_start_lt _ q maximal p (List.mem_of_getElem? previous)
      (ih p (by omega) previous)
    have beyond' : cursor fromSequence batches (k + 1) < c.startSequence := by
      rw [cursor_succ _ _ k p previous, same]
      exact ends.2
    exact reported_once gaps (k + 1) i c q before hk hi beyond' beyond same

/-- An empty range in front of a gap ends right before its own start. -/
theorem empty_of_exactGaps (gaps : ExactGaps batches fromSequence (scan fromSequence batches))
    (i : Nat) (q : BatchInfo) (hi : batches[i]? = some q)
    (beyond : cursor fromSequence batches i < q.startSequence)
    (empty : q.endSequence < q.startSequence) :
    q.endSequence + 1 = q.startSequence := by
  have maximal := reported_maximal gaps i q hi beyond
  by_contra apart
  have next := succ_of_lt _ _ empty
  have ends : q.endSequence + 1 < q.startSequence := by
    have different : (q.endSequence + 1).toNat ≠ q.startSequence.toNat :=
      fun same => apart (UInt64.toNat_inj.mp same)
    rw [UInt64.lt_iff_toNat_lt] at empty ⊢
    omega
  obtain ⟨k, c, hk, inside⟩ := (covered_iff _ _).mp (covered_of_maximal _ q maximal)
  obtain ⟨low, high⟩ := (contains_iff_le c _).mp inside
  rcases Nat.lt_trichotomy k i with before | rfl | after
  · have starts := starts_of_exactGaps scanned gaps i q hi beyond k c before hk
    have ends := (end_of_start_lt _ q maximal c (List.mem_of_getElem? hk) starts).1
    exact UInt64.not_lt.mpr high ends
  · rw [hi] at hk
    cases hk
    exact UInt64.not_lt.mpr high empty
  · obtain ⟨hc, rfl⟩ := List.getElem?_eq_some_iff.mp hk
    have following : batches[i + 1]? = some batches[i + 1] := List.getElem?_eq_getElem (by omega)
    have least := start_le_start batches scanned.sorted i (i + 1) q _ (by omega) hi following
    have most := start_le_start batches scanned.sorted (i + 1) k _ _ (by omega) following hk
    have same := UInt64.le_antisymm least (UInt64.le_trans most low)
    have beyond' : cursor fromSequence batches (i + 1) < batches[i + 1].startSequence := by
      rw [cursor_succ _ _ i q hi, ← same]
      exact ends
    exact reported_once gaps i (i + 1) q _ (Nat.lt_succ_self i) hi following beyond beyond' same

theorem cursorExact_of_exactGaps
    (gaps : ExactGaps batches fromSequence (scan fromSequence batches)) :
    CursorExact fromSequence batches := by
  intro i q hi beyond
  have maximal := reported_maximal gaps i q hi beyond
  have covered := covered_of_maximal _ q maximal
  have starts := starts_of_exactGaps scanned gaps i q hi beyond
  constructor
  · rintro j p rfl hj
    have first := starts j p (Nat.lt_succ_self j) hj
    obtain ⟨ends, -⟩ := end_of_start_lt _ q maximal p (List.mem_of_getElem? hj) first
    have place := cursor_succ fromSequence batches j p hj
    have next := succ_of_lt _ _ ends
    refine ⟨first, ends, (reaches_iff _ _).mpr ⟨?_, ?_⟩⟩
    · apply covered_before batches scanned.sorted (j + 1) q hi _ ?_ ends
      by_contra uncovered
      refine maximal.below p.endSequence ?_ place.symm
        ⟨scanned.late p (List.mem_of_getElem? hj), ⟨_, ends, covered⟩, uncovered⟩
      rw [place, UInt64.lt_iff_toNat_lt, next]
      exact Nat.lt_succ_self _
    · intro y taken
      obtain ⟨k, c, before, hk, inside⟩ := (covered_take _ _ _).mp taken
      have high := ((contains_iff_le c y).mp inside).2
      have end_lt := (end_of_start_lt _ q maximal c (List.mem_of_getElem? hk)
        (starts k c before hk)).1
      by_contra reach
      have low : cursor fromSequence batches (j + 1) ≤ y := by
        rw [UInt64.not_le, UInt64.lt_iff_toNat_lt] at reach
        rw [place, UInt64.le_iff_toNat_le, next]
        exact reach
      exact (maximal.inside y low (UInt64.lt_of_le_of_lt high end_lt)).2.2
        (covered_of_take batches (j + 1) y taken)
  · rw [isEmpty_eq_false]
    by_cases nonempty : q.startSequence ≤ q.endSequence
    · exact Or.inl nonempty
    · exact Or.inr ⟨empty_of_exactGaps scanned gaps i q hi beyond (UInt64.not_le.mp nonempty),
        covered⟩

/-- The scan is exact exactly under the condition. -/
theorem exactGaps_scan_iff :
    ExactGaps batches fromSequence (scan fromSequence batches) ↔ CursorExact fromSequence batches :=
  ⟨cursorExact_of_exactGaps scanned, exactGaps_of_cursorExact scanned⟩

end

theorem covered_relevant (fromSequence : UInt64) (batches : List BatchInfo) (sequence : UInt64)
    (h : fromSequence ≤ sequence) :
    Covered (relevant fromSequence batches) sequence ↔ Covered batches sequence := by
  constructor
  · rintro ⟨b, hb, inside⟩
    exact ⟨b, List.mem_of_mem_filter hb, inside⟩
  · rintro ⟨b, hb, inside⟩
    have late := UInt64.le_trans h ((contains_iff_le b sequence).mp inside).2
    exact ⟨b, List.mem_filter.mpr ⟨hb, by simpa using late⟩, inside⟩

/-- The batches that are passed over make no difference. -/
theorem missing_relevant (fromSequence : UInt64) (batches : List BatchInfo) :
    Missing (relevant fromSequence batches) fromSequence = Missing batches fromSequence := by
  funext x
  apply propext
  constructor
  · rintro ⟨start, ⟨later, less, covered⟩, uncovered⟩
    have start' := UInt64.le_trans start (UInt64.le_of_lt less)
    exact ⟨start, ⟨later, less, (covered_relevant _ _ _ start').mp covered⟩,
      mt (covered_relevant _ _ _ start).mpr uncovered⟩
  · rintro ⟨start, ⟨later, less, covered⟩, uncovered⟩
    have start' := UInt64.le_trans start (UInt64.le_of_lt less)
    exact ⟨start, ⟨later, less, (covered_relevant _ _ _ start').mpr covered⟩,
      mt (covered_relevant _ _ _ start).mp uncovered⟩

theorem scanned_relevant (fromSequence : UInt64) (batches : List BatchInfo)
    (sorted : batches.Pairwise fun a b => a.startSequence ≤ b.startSequence) :
    Scanned fromSequence (relevant fromSequence batches) where
  sorted := sorted.filter _
  late := by
    intro b hb
    simpa using (List.mem_filter.mp hb).2

theorem exactGaps_detectGaps_iff (batches : List BatchInfo)
    (sorted : batches.Pairwise fun a b => a.startSequence ≤ b.startSequence)
    (fromSequence : UInt64) :
    ExactGaps batches fromSequence (detectGaps batches fromSequence) ↔
      CursorExact fromSequence (relevant fromSequence batches) := by
  have same : ExactGaps batches fromSequence (detectGaps batches fromSequence) ↔
      ExactGaps (relevant fromSequence batches) fromSequence
        (scan fromSequence (relevant fromSequence batches)) := by
    rw [detectGaps, gapsFrom_eq]
    constructor
    · rintro ⟨increasing, maximal⟩
      exact ⟨increasing, by rwa [missing_relevant]⟩
    · rintro ⟨increasing, maximal⟩
      exact ⟨increasing, by rwa [missing_relevant] at maximal⟩
  rw [same, exactGaps_scan_iff (scanned_relevant fromSequence batches sorted)]

theorem highest_latestSequence_iff (batches : List BatchInfo) :
    Highest batches (latestSequence batches) ↔
      ∀ last, batches.getLast? = some last → Reaches batches last.endSequence := by
  unfold latestSequence
  cases found : batches.getLast? with
  | none =>
    have empty := List.getLast?_eq_none_iff.mp found
    refine iff_of_true ?_ ?_
    · intro sequence
      rw [empty]
      simp [Covered]
    · intro last h
      cases h
  | some last =>
    constructor
    · rintro highest _ ⟨⟩
      exact (reaches_iff _ _).mpr ((highest last.endSequence).mp rfl)
    · intro reaches sequence
      obtain ⟨covered, most⟩ := (reaches_iff _ _).mp (reaches last rfl)
      rw [Option.map_some, Option.some.injEq]
      constructor
      · rintro rfl
        exact ⟨covered, most⟩
      · rintro ⟨covered', most'⟩
        exact UInt64.le_antisymm (most' _ covered) (most _ covered')

/-- Gap detection is exact, and the last batch the latest one, exactly if the cursor is at the end
of what is covered wherever it finds a gap, and the last batch is not nested in another one. -/
theorem gapDetection_iff (batches : List BatchInfo)
    (sorted : batches.Pairwise fun a b => a.startSequence ≤ b.startSequence)
    (fromSequence : UInt64) :
    (ExactGaps batches fromSequence (detectGaps batches fromSequence) ∧
      Highest batches (latestSequence batches)) ↔
    (CursorExact fromSequence (relevant fromSequence batches) ∧
      ∀ last, batches.getLast? = some last → Reaches batches last.endSequence) :=
  and_congr (exactGaps_detectGaps_iff batches sorted fromSequence)
    (highest_latestSequence_iff batches)

/-- Sequences 0 to 10, and 2 to 5 once more. -/
def nestedIndex : List BatchInfo :=
  [⟨0, 10, "batches/000000000000_000000000010.cbor.zst"⟩,
   ⟨2, 5, "batches/000000000002_000000000005.cbor.zst"⟩,
   ⟨8, 12, "batches/000000000008_000000000012.cbor.zst"⟩]

/-- The nested batch makes a gap of covered sequences. -/
theorem gapDetection_nested :
    ¬∀ batches : List BatchInfo, batches.Pairwise (fun a b => a.startSequence ≤ b.startSequence) →
      ∀ fromSequence, ExactGaps batches fromSequence (detectGaps batches fromSequence) ∧
        Highest batches (latestSequence batches) := by
  intro exact
  have gaps := (exact nestedIndex (by decide) 0).1
  have reported : ((6 : UInt64), (8 : UInt64)) ∈ detectGaps nestedIndex 0 := by decide
  have missing := ((gaps.maximal 6 8).mp reported).inside 6 (UInt64.le_refl 6) (by decide)
  exact missing.2.2 (by unfold Covered; decide)

theorem Indexed.filter {batches : List BatchInfo} (h : Indexed batches) (p : BatchInfo → Bool) :
    Indexed (batches.filter p) where
  sorted := h.sorted.filter p
  nonempty := fun b hb => h.nonempty b (List.mem_of_mem_filter hb)
  disjoint := h.disjoint.filter p
  bounded := fun b hb => h.bounded b (List.mem_of_mem_filter hb)

theorem Indexed.end_lt {batches : List BatchInfo} (h : Indexed batches) (k j : Nat)
    (b p : BatchInfo) (order : k < j) (hk : batches[k]? = some b) (hj : batches[j]? = some p) :
    b.endSequence < p.startSequence := by
  obtain ⟨inside, rfl⟩ := List.getElem?_eq_some_iff.mp hk
  obtain ⟨inside', rfl⟩ := List.getElem?_eq_some_iff.mp hj
  exact List.pairwise_iff_getElem.mp h.apart k j inside inside' order

/-- Among batches without overlaps each one reaches as far as those before it. -/
theorem Indexed.reaches {batches : List BatchInfo} (h : Indexed batches) (j : Nat) (p : BatchInfo)
    (hj : batches[j]? = some p) : Reaches (batches.take (j + 1)) p.endSequence := by
  have nonempty := h.start_le p (List.mem_of_getElem? hj)
  refine ⟨(covered_take _ _ _).mpr ⟨j, p, Nat.lt_succ_self j, hj, ?_⟩, ?_⟩
  · exact (contains_iff_le p _).mpr ⟨nonempty, UInt64.le_refl _⟩
  · intro b hb _
    obtain ⟨k, hk, rfl⟩ := List.mem_take_iff_getElem.mp hb
    have found : batches[k]? = some batches[k] := List.getElem?_eq_getElem (by omega)
    rcases Nat.lt_or_eq_of_le (show k ≤ j by omega) with before | rfl
    · exact UInt64.le_of_lt (UInt64.lt_of_lt_of_le (h.end_lt k j _ p before found hj) nonempty)
    · rw [found] at hj
      cases hj
      exact UInt64.le_refl _

theorem cursorExact_of_indexed (batches : List BatchInfo) (h : Indexed batches)
    (fromSequence : UInt64) : CursorExact fromSequence batches := by
  intro i q hi _
  refine ⟨?_, Or.inl (h.nonempty q (List.mem_of_getElem? hi))⟩
  rintro j p rfl hj
  have ends := h.end_lt j (j + 1) p q (Nat.lt_succ_self j) hj hi
  have nonempty := h.start_le p (List.mem_of_getElem? hj)
  exact ⟨UInt64.lt_of_le_of_lt nonempty ends, ends, h.reaches j p hj⟩

theorem reaches_last_of_indexed (batches : List BatchInfo) (h : Indexed batches) (last : BatchInfo)
    (found : batches.getLast? = some last) : Reaches batches last.endSequence := by
  rw [List.getLast?_eq_getElem?] at found
  have reaches := h.reaches _ last found
  rwa [List.take_of_length_le (by omega)] at reaches

/-- Without overlaps gap detection is exact. -/
theorem gapDetection_indexed (batches : List BatchInfo) (indexed : Indexed batches)
    (fromSequence : UInt64) :
    ExactGaps batches fromSequence (detectGaps batches fromSequence) ∧
      Highest batches (latestSequence batches) := by
  constructor
  · rw [exactGaps_detectGaps_iff batches indexed.sorted]
    exact cursorExact_of_indexed _ (indexed.filter _) fromSequence
  · rw [highest_latestSequence_iff]
    exact reaches_last_of_indexed batches indexed

theorem gapDetection_iff_gapped :
    ExactGaps gappedIndex 4 (detectGaps gappedIndex 4) ∧
      Highest gappedIndex (latestSequence gappedIndex) := by
  have indexed : Indexed gappedIndex := Indexed.of_apart _ (by decide) (by decide) (by decide)
  exact (gapDetection_iff gappedIndex (by decide) 4).mpr
    ⟨cursorExact_of_indexed _ (indexed.filter _) 4, reaches_last_of_indexed _ indexed⟩

example : detectGaps gappedIndex 0 = [(0, 3), (6, 8)] := by decide

end SyndDB.Replication
