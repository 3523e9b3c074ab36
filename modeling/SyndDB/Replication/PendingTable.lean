import Mathlib.Data.List.TakeWhile
import SyndDB.Framework.SortedRows
import SyndDB.Replication.Deferral

namespace SyndDB.Replication

open Occurrence Octets
open Text (contains)

def DeferralReason.json : DeferralReason → String
  | .MissingTable table => "\x7b\"type\":\"missing_table\",\"table\":\"" ++ (table ++ "\"\x7d")
  | .ColumnMismatch table expected actual =>
      "\x7b\"type\":\"column_mismatch\",\"table\":\"" ++ table ++ "\",\"expected\":" ++
        toString expected ++ ",\"actual\":" ++ toString actual ++ "\x7d"

/-- The text that the name of a table stands behind. -/
def tableMark : List Char := "\"table\":\"".toList

def isNotQuote (c : Char) : Bool := c ≠ '"'

/-- The name is searched for, not parsed. -/
def DeferralReason.ofJson (reasonJson : String) : DeferralReason :=
  if contains reasonJson "missing_table" then
    .MissingTable (String.ofList
      (((secondPiece tableMark reasonJson.toList).map (List.takeWhile isNotQuote)).getD
        "unknown".toList))
  else .MissingTable "unknown"

/-- A missing table without a quote in its name. -/
def DeferralReason.ReadsBack (reason : DeferralReason) : Prop :=
  ∃ table, reason = .MissingTable table ∧ '"' ∉ table.toList

/-- What stands before the mark in the text of a missing table. -/
def missingTableFront : List Char := "\x7b\"type\":\"missing_table\",".toList

theorem json_missingTable (table : String) : (DeferralReason.MissingTable table).json.toList =
    missingTableFront ++ (tableMark ++ (table.toList ++ ['"', '\x7d'])) := by
  have front :
      "\x7b\"type\":\"missing_table\",\"table\":\"".toList = missingTableFront ++ tableMark := by
    decide
  have back : "\"\x7d".toList = ['"', '\x7d'] := by decide
  rw [← List.append_assoc, ← front, ← back, ← String.toList_append, ← String.toList_append]
  rfl

theorem ofJson_missingTable (table : String) :
    DeferralReason.ofJson (DeferralReason.MissingTable table).json =
      .MissingTable (String.ofList (table.toList.takeWhile isNotQuote)) := by
  have outside : BeginsOutside tableMark missingTableFront := by decide
  have named : contains (DeferralReason.MissingTable table).json "missing_table" = true := by
    have inside : "missing_table".toList <:+: missingTableFront := by decide
    rw [contains_eq_true_iff, Occurs, json_missingTable]
    exact List.infix_append_of_infix_left inside
  have last : List.takeWhile isNotQuote ['"', '\x7d'] = [] := by decide
  rw [DeferralReason.ofJson, if_pos named, json_missingTable,
    takeWhile_secondPiece outside _ isNotQuote '"' (by decide) (by decide), Option.getD_some,
    List.takeWhile_append, last, List.append_nil]
  split_ifs with whole
  · rw [(List.takeWhile_prefix isNotQuote).eq_of_length whole]
  · rfl

/-- Reasons that are read back as they were written. -/
theorem ofJson_json_iff (reason : DeferralReason) :
    DeferralReason.ofJson reason.json = reason ↔ reason.ReadsBack := by
  cases reason with
  | MissingTable table =>
    have whole : String.ofList (table.toList.takeWhile isNotQuote) = table ↔
        '"' ∉ table.toList := by
      rw [← String.toList_inj, String.toList_ofList, List.takeWhile_eq_self_iff]
      constructor
      · intro all quote
        exact absurd (all _ quote) (by decide)
      · intro none c member
        simp only [isNotQuote, decide_eq_true_eq]
        rintro rfl
        exact none member
    rw [ofJson_missingTable, DeferralReason.MissingTable.injEq, whole, DeferralReason.ReadsBack]
    constructor
    · exact fun none => ⟨table, rfl, none⟩
    · intro given
      obtain ⟨table', same, none⟩ := given
      cases same
      exact none
  | ColumnMismatch table expected actual =>
    refine iff_of_false ?_ ?_
    · rw [DeferralReason.ofJson]
      split_ifs
      · simp
      · simp
    · intro given
      obtain ⟨table', same, -⟩ := given
      cases same

structure PendingRow where
  sequence : UInt64
  data : Bytes
  reason : String
  deriving DecidableEq

def PendingRow.key (row : PendingRow) : Nat := row.sequence.toNat

/-- The rows by their primary key. -/
structure PendingTable where
  rows : List PendingRow
  sorted : SortedRows.Sorted PendingRow.key rows

def PendingChangeset.toRow (changeset : PendingChangeset) : PendingRow :=
  ⟨changeset.sequence, changeset.data, changeset.reason.json⟩

def PendingRow.toChangeset (row : PendingRow) : PendingChangeset :=
  ⟨row.sequence, row.data, DeferralReason.ofJson row.reason⟩

namespace PendingTable

def empty : PendingTable := ⟨[], List.Pairwise.nil⟩

def store (table : PendingTable) (changeset : PendingChangeset) : Except String PendingTable :=
  if PendingStore.bindable changeset.sequence then
    .ok ⟨SortedRows.put PendingRow.key changeset.toRow table.rows,
      SortedRows.sorted_put changeset.toRow table.rows table.sorted⟩
  else .error "Failed to store pending changeset"

def clearUpTo (table : PendingTable) (sequence : UInt64) : Except String PendingTable :=
  if PendingStore.bindable sequence then
    .ok ⟨table.rows.filter fun row => sequence < row.sequence, table.sorted.filter _⟩
  else .error "Failed to clear pending changesets"

def getAll (table : PendingTable) : List PendingChangeset := table.rows.map PendingRow.toChangeset

def getRange (table : PendingTable) (start finish : UInt64) :
    Except String (List PendingChangeset) :=
  if PendingStore.bindable start ∧ PendingStore.bindable finish then
    .ok ((table.rows.filter fun row => start ≤ row.sequence ∧ row.sequence ≤ finish).map
      PendingRow.toChangeset)
  else .error "out of range integral type conversion attempted"

end PendingTable

/-- What is read back of a changeset. -/
def PendingChangeset.readBack (changeset : PendingChangeset) : PendingChangeset :=
  changeset.toRow.toChangeset

/-- After the changeset is stored, the entries are this one and the earlier ones of
other sequences. -/
def Replaces (changeset : PendingChangeset) (earlier found : List PendingChangeset) : Prop :=
  ∀ q, q ∈ found ↔ q = changeset ∨ q ∈ earlier ∧ q.sequence ≠ changeset.sequence

theorem readBack_eq_iff (changeset : PendingChangeset) :
    changeset.readBack = changeset ↔ changeset.reason.ReadsBack := by
  rw [← ofJson_json_iff]
  constructor
  · exact congrArg PendingChangeset.reason
  · intro same
    rw [PendingChangeset.readBack, PendingChangeset.toRow, PendingRow.toChangeset, same]

/-- What was stored is found in the place of all that had its sequence. -/
theorem replaces_readBack_iff (changeset : PendingChangeset) (earlier found : List PendingChangeset)
    (h : Replaces changeset.readBack earlier found) :
    Replaces changeset earlier found ↔ changeset.reason.ReadsBack := by
  rw [← readBack_eq_iff]
  constructor
  · intro replaced
    rcases (replaced changeset.readBack).mp ((h _).mpr (Or.inl rfl)) with same | ⟨-, other⟩
    · exact same
    · exact absurd rfl other
  · intro same
    rw [same] at h
    exact h

/-- The rows that a query selects by their sequence. -/
theorem replaces_put (rows : List PendingRow) (sorted : SortedRows.Sorted PendingRow.key rows)
    (changeset : PendingChangeset) (selects : UInt64 → Bool)
    (selected : selects changeset.sequence = true) :
    Replaces changeset.readBack
      ((rows.filter fun row => selects row.sequence).map PendingRow.toChangeset)
      (((SortedRows.put PendingRow.key changeset.toRow rows).filter fun row =>
        selects row.sequence).map PendingRow.toChangeset) := by
  have other (row : PendingRow) : row.key ≠ changeset.toRow.key ↔
    row.sequence ≠ changeset.sequence :=
    not_congr UInt64.toNat_inj
  intro q
  simp only [List.mem_map, List.mem_filter, SortedRows.mem_put _ _ _ sorted, other]
  constructor
  · intro given
    obtain ⟨row, ⟨rfl | ⟨old, apart⟩, hit⟩, rfl⟩ := given
    · exact Or.inl rfl
    · exact Or.inr ⟨⟨row, ⟨old, hit⟩, rfl⟩, apart⟩
  · intro given
    rcases given with rfl | ⟨⟨row, ⟨old, hit⟩, rfl⟩, apart⟩
    · exact ⟨changeset.toRow, ⟨Or.inl rfl, selected⟩, rfl⟩
    · exact ⟨row, ⟨Or.inr ⟨old, apart⟩, hit⟩, rfl⟩

namespace PendingTable

theorem store_ok (table stored : PendingTable) (changeset : PendingChangeset) :
    table.store changeset = .ok stored ↔
      PendingStore.bindable changeset.sequence = true ∧
        stored.rows = SortedRows.put PendingRow.key changeset.toRow table.rows := by
  rw [store]
  split_ifs with fits
  · rw [Except.ok.injEq]
    constructor
    · rintro rfl
      exact ⟨fits, rfl⟩
    · intro given
      obtain ⟨-, rows⟩ := given
      cases stored
      cases rows
      rfl
  · simp [fits]

theorem getRange_ok (table : PendingTable) (start finish : UInt64) (found : List PendingChangeset) :
    table.getRange start finish = .ok found ↔
      (PendingStore.bindable start = true ∧ PendingStore.bindable finish = true) ∧
        (table.rows.filter fun row => start ≤ row.sequence ∧ row.sequence ≤ finish).map
          PendingRow.toChangeset = found := by
  rw [getRange]
  split_ifs with fits
  · simp [fits]
  · simp [fits]

theorem replaces_getAll (table stored : PendingTable) (changeset : PendingChangeset)
    (h : table.store changeset = .ok stored) :
    Replaces changeset.readBack table.getAll stored.getAll := by
  have all := replaces_put table.rows table.sorted changeset (fun _ => true) rfl
  rw [List.filter_true, List.filter_true] at all
  rw [getAll, getAll, ((store_ok _ _ _).mp h).2]
  exact all

theorem replaces_getRange (table stored : PendingTable) (changeset : PendingChangeset)
    (h : table.store changeset = .ok stored) (start finish : UInt64)
    (low : start ≤ changeset.sequence)
    (high : changeset.sequence ≤ finish) (earlier found : List PendingChangeset)
    (before : table.getRange start finish = .ok earlier)
    (after : stored.getRange start finish = .ok found) :
    Replaces changeset.readBack earlier found := by
  obtain ⟨-, rfl⟩ := (getRange_ok _ _ _ _).mp before
  obtain ⟨-, rfl⟩ := (getRange_ok _ _ _ _).mp after
  rw [((store_ok _ _ _).mp h).2]
  exact replaces_put table.rows table.sorted changeset
    (fun sequence => decide (start ≤ sequence ∧ sequence ≤ finish)) (decide_eq_true ⟨low, high⟩)

/-- A changeset is found again as it was stored exactly if its sequence, and the ends of the range,
are integers of the database and its reason is a missing table without a quote in its name. -/
theorem pending_round_trip_iff (table : PendingTable) (changeset : PendingChangeset) :
    ((∃ stored, table.store changeset = .ok stored ∧
      Replaces changeset table.getAll stored.getAll) ↔
      PendingStore.bindable changeset.sequence = true ∧ changeset.reason.ReadsBack) ∧
    ∀ start finish, start ≤ changeset.sequence → changeset.sequence ≤ finish →
      ((∃ stored earlier found, table.store changeset = .ok stored ∧
          table.getRange start finish = .ok earlier ∧ stored.getRange start finish = .ok found ∧
          Replaces changeset earlier found) ↔
        PendingStore.bindable finish = true ∧ changeset.reason.ReadsBack) := by
  have storable (fits : PendingStore.bindable changeset.sequence = true) :
      ∃ stored, table.store changeset = .ok stored := by
    rw [store, if_pos fits]
    exact ⟨_, rfl⟩
  constructor
  · constructor
    · intro given
      obtain ⟨stored, h, replaced⟩ := given
      exact ⟨((store_ok _ _ _).mp h).1,
        (replaces_readBack_iff _ _ _ (replaces_getAll table stored changeset h)).mp replaced⟩
    · intro given
      obtain ⟨fits, reason⟩ := given
      obtain ⟨stored, h⟩ := storable fits
      exact ⟨stored, h,
        (replaces_readBack_iff _ _ _ (replaces_getAll table stored changeset h)).mpr reason⟩
  · intro start finish low high
    constructor
    · intro given
      obtain ⟨stored, earlier, found, h, before, after, replaced⟩ := given
      exact ⟨((getRange_ok _ _ _ _).mp before).1.2, (replaces_readBack_iff _ _ _
        (replaces_getRange table stored changeset h start finish low high earlier found before
          after)).mp replaced⟩
    · intro given
      obtain ⟨fits, reason⟩ := given
      have below (sequence : UInt64) (h : sequence ≤ finish) :
          PendingStore.bindable sequence = true := by
        have order := UInt64.le_iff_toNat_le.mp h
        rw [PendingStore.bindable, decide_eq_true_eq] at fits ⊢
        omega
      have ends : PendingStore.bindable start = true ∧ PendingStore.bindable finish = true :=
        ⟨below start (UInt64.le_trans low high), fits⟩
      obtain ⟨stored, h⟩ := storable (below _ high)
      have before := (getRange_ok table start finish _).mpr ⟨ends, rfl⟩
      have after := (getRange_ok stored start finish _).mpr ⟨ends, rfl⟩
      exact ⟨stored, _, _, h, before, after, (replaces_readBack_iff _ _ _
        (replaces_getRange table stored changeset h start finish low high _ _ before after)).mpr
          reason⟩

namespace Sample

def missing : PendingChangeset := ⟨7, [1, 2], .MissingTable "users"⟩

def mismatch : PendingChangeset := ⟨7, [1, 2], .ColumnMismatch "users" 2 3⟩

theorem pending_round_trip :
    (∃ stored, empty.store missing = .ok stored ∧ Replaces missing empty.getAll stored.getAll) ∧
    ∃ stored earlier found, empty.store missing = .ok stored ∧ empty.getRange 5 9 = .ok earlier ∧
      stored.getRange 5 9 = .ok found ∧ Replaces missing earlier found := by
  have reason : missing.reason.ReadsBack := ⟨"users", rfl, by decide⟩
  exact ⟨(pending_round_trip_iff empty missing).1.mpr ⟨by decide, reason⟩,
    ((pending_round_trip_iff empty missing).2 5 9 (by decide) (by decide)).mpr ⟨by decide, reason⟩⟩

/-- Another number of columns comes back as a missing table. -/
theorem mismatch_lost :
    ¬∀ (table : PendingTable) (changeset : PendingChangeset),
      ∃ stored, table.store changeset = .ok stored ∧
        Replaces changeset table.getAll stored.getAll := by
  intro all
  obtain ⟨stored, h, replaced⟩ := all empty mismatch
  have found : mismatch ∈ stored.getAll := (replaced mismatch).mpr (Or.inl rfl)
  rw [getAll, ((store_ok _ _ _).mp h).2] at found
  exact absurd found (by decide)

end Sample

end PendingTable

/-- The rows of a store. -/
def PendingStore.toRows (s : PendingStore) : List PendingRow := s.map PendingChangeset.toRow

theorem toRows_insertOrReplace (s : PendingStore) (changeset : PendingChangeset) :
    (PendingStore.insertOrReplace changeset s).toRows =
      SortedRows.put PendingRow.key changeset.toRow s.toRows := by
  induction s with
  | nil => rfl
  | cons q s ih =>
    have order : changeset.sequence < q.sequence ↔ changeset.toRow.key < q.toRow.key :=
      UInt64.lt_iff_toNat_lt
    have same : changeset.sequence = q.sequence ↔ changeset.toRow.key = q.toRow.key :=
      UInt64.toNat_inj.symm
    simp only [PendingStore.insertOrReplace, PendingStore.toRows, order, same, List.map_cons,
      SortedRows.put]
    split_ifs
    · rfl
    · rfl
    · rw [List.map_cons]
      exact congrArg _ ih

/-- The table holds the rows of the applier's store, in every step. -/
theorem store_toRows (s : PendingStore) (table : PendingTable) (h : table.rows = s.toRows)
    (changeset : PendingChangeset) :
    (table.store changeset).map PendingTable.rows =
      (s.store changeset).map PendingStore.toRows := by
  rw [PendingTable.store, PendingStore.store]
  split_ifs
  · rw [Except.map, Except.map, toRows_insertOrReplace, ← h]
  · rfl

theorem clearUpTo_toRows (s : PendingStore) (table : PendingTable) (h : table.rows = s.toRows)
    (sequence : UInt64) :
    (table.clearUpTo sequence).map PendingTable.rows =
      (s.clearUpTo sequence).map PendingStore.toRows := by
  have kept : PendingStore.toRows (s.filter fun p => sequence < p.sequence) =
      s.toRows.filter fun row => sequence < row.sequence := by
    rw [PendingStore.toRows, PendingStore.toRows, List.filter_map]
    rfl
  rw [PendingTable.clearUpTo, PendingStore.clearUpTo]
  split_ifs
  · rw [Except.map, Except.map, kept, ← h]
  · rfl

/-- An audit reads sequences and data, and so what it reads is what was stored. -/
theorem getAll_toRows (s : PendingStore) (table : PendingTable) (h : table.rows = s.toRows) :
    (table.getAll.map fun p => (p.sequence, p.data)) = s.map fun p => (p.sequence, p.data) := by
  rw [PendingTable.getAll, h, PendingStore.toRows, List.map_map, List.map_map]
  rfl

end SyndDB.Replication
