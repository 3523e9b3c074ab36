import SyndDB.Framework.PostImages
import SyndDB.Client.Replay
import SyndDB.Replication.Applier

namespace SyndDB.Replication

open Octets Shared Changes

variable {ν : Type}

/-- SQLite compares the names of tables without regard to the case of ASCII letters. -/
def foldCase (name : String) : String := String.ofList (name.toList.map Char.toLower)

/-- The values of a row in the columns of the primary key. A column has its place in the key,
counted from 1, or 0. -/
def keyOf : List Nat → List ν → List ν
  | 0 :: places, _ :: row => keyOf places row
  | (_ + 1) :: places, v :: row => v :: keyOf places row
  | _, _ => []

inductive ChangesetItem (ν : Type) where
  | SQLITE_INSERT (new : List ν)
  | SQLITE_UPDATE (old new : List ν)
  | SQLITE_DELETE (old : List ν)
  deriving DecidableEq

namespace ChangesetItem

/-- An item has the columns of its table, and an update leaves the primary key. Columns that it does
not change have one value on both sides. -/
def WellFormed (primaryKey : List Nat) : ChangesetItem ν → Prop
  | SQLITE_INSERT new => new.length = primaryKey.length
  | SQLITE_UPDATE old new => old.length = primaryKey.length ∧ new.length = primaryKey.length ∧
      keyOf primaryKey old = keyOf primaryKey new
  | SQLITE_DELETE old => old.length = primaryKey.length

def change (table : String) (primaryKey : List Nat) :
    ChangesetItem ν → Change (String × List ν) ν
  | SQLITE_INSERT new => .insert (table, keyOf primaryKey new) new
  | SQLITE_UPDATE old new => .update (table, keyOf primaryKey old) old new
  | SQLITE_DELETE old => .delete (table, keyOf primaryKey old) old

end ChangesetItem

/-- The items of one table after its header: the name, and the place of each column in
the primary key. -/
structure TableChanges (ν : Type) where
  tableName : String
  primaryKey : List Nat
  items : List (ChangesetItem ν)
  wellFormed : ∀ item ∈ items, item.WellFormed primaryKey

def TableChanges.numberOfColumns (t : TableChanges ν) : Nat := t.primaryKey.length

def TableChanges.table (t : TableChanges ν) : String := foldCase t.tableName

def TableChanges.changes (t : TableChanges ν) : List (Change (String × List ν) ν) :=
  t.items.map (ChangesetItem.change t.table t.primaryKey)

/-- A changeset was recorded on one schema, so a table has one header. -/
structure Changeset (ν : Type) where
  tables : List (TableChanges ν)
  uniform : ∀ t ∈ tables, ∀ t' ∈ tables, t.table = t'.table → t.primaryKey = t'.primaryKey

/-- Tables by their names in lower case, with the place of each column in the primary key, and their
rows by table and primary key. -/
structure Replica (ν : Type) where
  primaryKey : String → Option (List Nat)
  rows : Rows (String × List ν) ν
  shaped : ∀ table key row, rows (table, key) = some row →
    ∃ places, primaryKey table = some places ∧ row.length = places.length ∧ keyOf places row = key

variable [DecidableEq ν]

omit [DecidableEq ν] in
/-- An update that leaves the primary key leaves that of the row it meets. -/
theorem keyOf_patched (places : List Nat) {old new current result : List ν}
    (h : Patched old new current result) (same : keyOf places old = keyOf places new) :
    keyOf places result = keyOf places current := by
  induction h generalizing places with
  | nil => rfl
  | keep o c rest ih =>
    cases places with
    | nil => simp [keyOf]
    | cons place places =>
      cases place with
      | zero => exact ih places same
      | succ place =>
        rw [keyOf, keyOf, List.cons.injEq] at same
        rw [keyOf, keyOf, ih places same.2]
  | change o n different rest ih =>
    cases places with
    | nil => simp [keyOf]
    | cons place places =>
      cases place with
      | zero => exact ih places same
      | succ place =>
        rw [keyOf, keyOf, List.cons.injEq] at same
        exact absurd same.1 different

/-- Rows that fit the tables, and changes that do. -/
def Fits (primaryKey : String → Option (List Nat)) : Change (String × List ν) ν → Prop
  | .insert (table, key) new =>
      ∃ places, primaryKey table = some places ∧ new.length = places.length ∧ keyOf places new = key
  | .update (table, _) old new =>
      ∃ places, primaryKey table = some places ∧ keyOf places old = keyOf places new
  | .delete _ _ => True

def RowsFit (primaryKey : String → Option (List Nat)) (rows : Rows (String × List ν) ν) : Prop :=
  ∀ table key row, rows (table, key) = some row →
    ∃ places, primaryKey table = some places ∧ row.length = places.length ∧ keyOf places row = key

theorem rowsFit_update (primaryKey : String → Option (List Nat))
    (rows : Rows (String × List ν) ν) (key : String × List ν) (value : Option (List ν))
    (h : RowsFit primaryKey rows)
    (fits : ∀ row, value = some row → ∃ places, primaryKey key.1 = some places ∧
      row.length = places.length ∧ keyOf places row = key.2) :
    RowsFit primaryKey (Function.update rows key value) := by
  intro table k row found
  by_cases here : (table, k) = key
  · rw [here, Function.update_self] at found
    rw [← here] at fits
    exact fits row found
  · rw [Function.update_of_ne here] at found
    exact h table k row found

theorem rowsFit_effect (primaryKey : String → Option (List Nat))
    (rows result : Rows (String × List ν) ν) (change : Change (String × List ν) ν)
    (h : RowsFit primaryKey rows) (fits : Fits primaryKey change)
    (made : change.effect rows = .ok result) : RowsFit primaryKey result := by
  cases change with
  | insert key new =>
    simp only [Change.effect] at made
    split at made
    · cases made
      apply rowsFit_update primaryKey rows key _ h
      intro row same
      cases same
      exact fits
    · cases made
  | update key old new =>
    simp only [Change.effect] at made
    split at made
    · cases made
    · rename_i current found
      split at made
      · rename_i row patched
        cases made
        apply rowsFit_update primaryKey rows key _ h
        intro row' same
        cases same
        obtain ⟨places, named, width, own⟩ := h key.1 key.2 current found
        obtain ⟨places', named', keeps⟩ := fits
        obtain rfl : places = places' := Option.some.inj (named.symm.trans named')
        have byColumn := patched_of_patch old new current row patched
        refine ⟨places, named, byColumn.length.trans width, ?_⟩
        rw [keyOf_patched places byColumn keeps, own]
      · cases made
  | delete key old =>
    simp only [Change.effect] at made
    split at made
    · cases made
    · split at made
      · cases made
        apply rowsFit_update primaryKey rows key _ h
        intro row same
        cases same
      · cases made

theorem rowsFit_applyAll (handler : Conflict → Action) (primaryKey : String → Option (List Nat))
    (rows result : Rows (String × List ν) ν) (data : List (Change (String × List ν) ν))
    (h : RowsFit primaryKey rows) (fits : ∀ change ∈ data, Fits primaryKey change)
    (made : applyAll handler rows data = .ok result) : RowsFit primaryKey result := by
  induction data generalizing rows with
  | nil =>
    cases made
    exact h
  | cons change rest ih =>
    have later : ∀ other ∈ rest, Fits primaryKey other :=
      fun other member => fits other (List.mem_cons_of_mem _ member)
    rw [applyAll] at made
    cases effect : change.effect rows with
    | ok rows' =>
      rw [effect] at made
      exact ih rows' (rowsFit_effect primaryKey rows rows' change h
        (fits change List.mem_cons_self) effect) later made
    | error conflict =>
      rw [effect] at made
      cases handled : handler conflict with
      | skip =>
        simp only [handled] at made
        exact ih rows h later made
      | abort => simp [handled] at made

omit [DecidableEq ν] in
theorem fits_change (primaryKey : String → Option (List Nat)) (t : TableChanges ν)
    (item : ChangesetItem ν) (member : item ∈ t.items)
    (named : primaryKey t.table = some t.primaryKey) :
    Fits primaryKey (item.change t.table t.primaryKey) := by
  have shape := t.wellFormed item member
  cases item with
  | SQLITE_INSERT new => exact ⟨t.primaryKey, named, shape, rfl⟩
  | SQLITE_UPDATE old new => exact ⟨t.primaryKey, named, shape.2.2⟩
  | SQLITE_DELETE old => trivial

/-- SQLite passes over the changes of a table whose primary key has other columns, or the same ones
in another order. -/
def compatibleChanges (primaryKey : String → Option (List Nat)) (changeset : Changeset ν) :
    List (Change (String × List ν) ν) :=
  changeset.tables.flatMap fun t => if primaryKey t.table = some t.primaryKey then t.changes else []

omit [DecidableEq ν] in
theorem mem_compatibleChanges (primaryKey : String → Option (List Nat)) (changeset : Changeset ν)
    (change : Change (String × List ν) ν) :
    change ∈ compatibleChanges primaryKey changeset ↔ ∃ t ∈ changeset.tables,
      primaryKey t.table = some t.primaryKey ∧
      ∃ item ∈ t.items, item.change t.table t.primaryKey = change := by
  rw [compatibleChanges, List.mem_flatMap]
  constructor
  · intro given
    obtain ⟨t, member, taken⟩ := given
    by_cases named : primaryKey t.table = some t.primaryKey
    · rw [if_pos named] at taken
      exact ⟨t, member, named, List.mem_map.mp taken⟩
    · rw [if_neg named] at taken
      cases taken
  · intro given
    obtain ⟨t, member, named, found⟩ := given
    refine ⟨t, member, ?_⟩
    rw [if_pos named]
    exact List.mem_map.mpr found

omit [DecidableEq ν] in
theorem fits_compatibleChanges (primaryKey : String → Option (List Nat)) (changeset : Changeset ν) :
    ∀ change ∈ compatibleChanges primaryKey changeset, Fits primaryKey change := by
  intro change member
  obtain ⟨t, -, named, item, items, rfl⟩ := (mem_compatibleChanges _ _ _).mp member
  exact fits_change primaryKey t item items named

/-- The changes of a changeset made one after the other, with nothing else in the replica. A
changeset that fails leaves no trace. -/
def Replica.applyChanges (handler : Conflict → Action) (replica : Replica ν)
    (changeset : Changeset ν) :
    Except Conflict (Replica ν) :=
  match made : applyAll handler replica.rows (compatibleChanges replica.primaryKey changeset) with
  | .error conflict => .error conflict
  | .ok rows => .ok
      { replica with
        rows := rows
        shaped := rowsFit_applyAll handler replica.primaryKey replica.rows rows _ replica.shaped
          (fits_compatibleChanges replica.primaryKey changeset) made }

theorem Replica.applyChanges_ok (handler : Conflict → Action) (replica result : Replica ν)
    (changeset : Changeset ν) (h : replica.applyChanges handler changeset = .ok result) :
    result.primaryKey = replica.primaryKey ∧
      applyAll handler replica.rows (compatibleChanges replica.primaryKey changeset) =
        .ok result.rows := by
  rw [Replica.applyChanges] at h
  split at h
  · cases h
  · rename_i rows made
    cases h
    exact ⟨rfl, made⟩

/-- `SELECT COUNT(*) FROM pragma_table_info(?)` -/
def Replica.tableInfo (replica : Replica ν) (tableName : String) : Nat :=
  match replica.primaryKey (foldCase tableName) with
  | none => 0
  | some places => places.length

/-- What the applier takes from the session extension, with the order in which a hash map gives
its entries back. -/
structure ChangesetSession (ν : Type) [DecidableEq ν] where
  read : Bytes → Except String (Changeset ν)
  /-- `sqlite3changeset_apply`, with a conflict handler. -/
  applyStrm : (Conflict → Action) → Replica ν → Changeset ν → Except String (Replica ν)
  /-- Nothing but the changes themselves happens: no trigger fires and no foreign key acts, the only
  constraints that they meet are the primary keys, without a conflict clause, keys are told apart by
  their values, and every value keeps its form in its column. -/
  quiet : Replica ν → Changeset ν → Bool
  applyStrm_quiet : ∀ handler replica changeset result, quiet replica changeset = true →
    (∀ t ∈ changeset.tables, t.items ≠ [] → replica.tableInfo t.tableName = t.numberOfColumns) →
    applyStrm handler replica changeset = .ok result →
    replica.applyChanges handler changeset = .ok result
  hashOrder : List (String × Nat) → List (String × Nat)
  hashOrder_perm : ∀ entries, (hashOrder entries).Perm entries

/-- `HashMap::insert` -/
def recordColumns (table : String) (count : Nat) : List (String × Nat) → List (String × Nat)
  | [] => [(table, count)]
  | (t, c) :: rest =>
      if t = table then (t, count) :: rest else (t, c) :: recordColumns table count rest

/-- Table and number of columns of every item, in their order. -/
def Changeset.columnCounts (changeset : Changeset ν) : List (String × Nat) :=
  changeset.tables.flatMap fun t => t.items.map fun _ => (t.tableName, t.numberOfColumns)

def tableColumns (changeset : Changeset ν) : List (String × Nat) :=
  changeset.columnCounts.foldl (fun entries entry => recordColumns entry.1 entry.2 entries) []

namespace ChangesetSession

variable (S : ChangesetSession ν)

def validateChangesetSchema (replica : Replica ν) (changeset : Changeset ν) : Except String Unit :=
  let entries := S.hashOrder (tableColumns changeset)
  let missingTables := (entries.filter fun entry => replica.tableInfo entry.1 = 0).map Prod.fst
  let columnMismatches := (entries.filter fun entry =>
      replica.tableInfo entry.1 ≠ 0 ∧ replica.tableInfo entry.1 ≠ entry.2).map fun entry =>
    entry.1 ++ " (changeset has " ++ toString entry.2 ++ " columns, target has " ++
      toString (replica.tableInfo entry.1) ++ ")"
  if !missingTables.isEmpty then
    .error ("Changeset references tables that don't exist: " ++ ", ".intercalate missingTables ++
      ". A snapshot is required to sync schema first.")
  else if !columnMismatches.isEmpty then
    .error ("Schema mismatch - column counts don't match: " ++ "; ".intercalate columnMismatches ++
      ". A snapshot is required to sync schema first.")
  else .ok ()

/-- An INSERT that meets a row is left out, every other conflict aborts. -/
def applySingleChangeset (replica : Replica ν) (data : Bytes) : Except String (Replica ν) :=
  match S.read data with
  | .error e => .error ("Failed to read changeset item: " ++ e)
  | .ok changeset =>
      match S.validateChangesetSchema replica changeset with
      | .error e => .error e
      | .ok () =>
          match S.applyStrm skipInserts replica changeset with
          | .error e => .error ("Failed to apply changeset: " ++ e)
          | .ok result => .ok result

theorem applySingleChangeset_ok (replica result : Replica ν) (data : Bytes)
    (changeset : Changeset ν)
    (read : S.read data = .ok changeset) (h : S.applySingleChangeset replica data = .ok result) :
    S.validateChangesetSchema replica changeset = .ok () ∧
      S.applyStrm skipInserts replica changeset = .ok result := by
  rw [applySingleChangeset, read] at h
  cases valid : S.validateChangesetSchema replica changeset with
  | error e => simp [valid] at h
  | ok u =>
    simp only [valid] at h
    cases made : S.applyStrm skipInserts replica changeset with
    | error e => simp [made] at h
    | ok result' =>
      simp only [made, Except.ok.injEq] at h
      exact ⟨rfl, by rw [h]⟩

end ChangesetSession

theorem mem_recordColumns (table : String) (count : Nat) (entries : List (String × Nat))
    (one : ∀ c, (table, c) ∈ entries → c = count) (entry : String × Nat) :
    entry ∈ recordColumns table count entries ↔ entry = (table, count) ∨ entry ∈ entries := by
  induction entries with
  | nil => simp [recordColumns]
  | cons first rest ih =>
    obtain ⟨t, c⟩ := first
    rw [recordColumns]
    by_cases same : t = table
    · have known : c = count := one c (by simp [same])
      simp [same, known]
    · rw [if_neg same, List.mem_cons, List.mem_cons,
        ih fun c' member => one c' (List.mem_cons_of_mem _ member)]
      exact or_left_comm

/-- A map with one value for each key holds what was put into it. -/
theorem mem_recorded (counts entries : List (String × Nat))
    (one : ∀ entry ∈ counts ++ entries, ∀ other ∈ counts ++ entries, entry.1 = other.1 →
      entry = other) (entry : String × Nat) :
    entry ∈ counts.foldl (fun entries entry => recordColumns entry.1 entry.2 entries) entries ↔
      entry ∈ counts ∨ entry ∈ entries := by
  induction counts generalizing entries with
  | nil => simp
  | cons first rest ih =>
    have step (other : String × Nat) :
        other ∈ recordColumns first.1 first.2 entries ↔ other = first ∨ other ∈ entries := by
      apply mem_recordColumns
      intro c member
      have same := one (first.1, c) (by simp [member]) first (by simp) rfl
      rw [← same]
    rw [List.foldl_cons, ih, step, List.mem_cons]
    · constructor
      · rintro (h | h | h)
        · exact .inl (.inr h)
        · exact .inl (.inl h)
        · exact .inr h
      · rintro ((h | h) | h)
        · exact .inr (.inl h)
        · exact .inl h
        · exact .inr (.inr h)
    · have known (other : String × Nat)
          (h : other ∈ rest ++ recordColumns first.1 first.2 entries) :
          other ∈ first :: rest ++ entries := by
        rcases List.mem_append.mp h with h | h
        · simp [h]
        · rcases (step other).mp h with h | h
          · simp [h]
          · simp [h]
      intro one' hone' other hother
      exact one one' (known one' hone') other (known other hother)

omit [DecidableEq ν] in
theorem mem_columnCounts (changeset : Changeset ν) (entry : String × Nat) :
    entry ∈ changeset.columnCounts ↔
      ∃ t ∈ changeset.tables, t.items ≠ [] ∧ (t.tableName, t.numberOfColumns) = entry := by
  rw [Changeset.columnCounts, List.mem_flatMap]
  constructor
  · intro given
    obtain ⟨t, member, found⟩ := given
    obtain ⟨item, items, same⟩ := List.mem_map.mp found
    exact ⟨t, member, List.ne_nil_of_mem items, same⟩
  · intro given
    obtain ⟨t, member, items, same⟩ := given
    obtain ⟨item, rest, hitems⟩ := List.exists_cons_of_ne_nil items
    exact ⟨t, member, List.mem_map.mpr ⟨item, by simp [hitems], same⟩⟩

omit [DecidableEq ν] in
theorem mem_tableColumns (changeset : Changeset ν) (entry : String × Nat) :
    entry ∈ tableColumns changeset ↔
      ∃ t ∈ changeset.tables, t.items ≠ [] ∧ (t.tableName, t.numberOfColumns) = entry := by
  rw [← mem_columnCounts, tableColumns, mem_recorded]
  · simp
  · intro one hone other hother same
    rw [List.append_nil, mem_columnCounts] at hone hother
    obtain ⟨t, member, -, rfl⟩ := hone
    obtain ⟨t', member', -, rfl⟩ := hother
    have table : t.table = t'.table := congrArg foldCase same
    have key := changeset.uniform t member t' member' table
    rw [Prod.mk.injEq]
    exact ⟨same, congrArg List.length key⟩

/-- Every table that the changeset changes exists and has as many columns. -/
theorem ChangesetSession.validateChangesetSchema_ok (S : ChangesetSession ν) (replica : Replica ν)
    (changeset : Changeset ν) :
    S.validateChangesetSchema replica changeset = .ok () ↔ ∀ t ∈ changeset.tables, t.items ≠ [] →
      replica.tableInfo t.tableName ≠ 0 ∧ replica.tableInfo t.tableName = t.numberOfColumns := by
  have member (entry : String × Nat) : entry ∈ S.hashOrder (tableColumns changeset) ↔
      ∃ t ∈ changeset.tables, t.items ≠ [] ∧ (t.tableName, t.numberOfColumns) = entry := by
    rw [(S.hashOrder_perm _).mem_iff, mem_tableColumns]
  have passes : S.validateChangesetSchema replica changeset = .ok () ↔
      ∀ entry ∈ S.hashOrder (tableColumns changeset),
        replica.tableInfo entry.1 ≠ 0 ∧ replica.tableInfo entry.1 = entry.2 := by
    rw [validateChangesetSchema, Outcome.guard_ok, Outcome.guard_ok]
    have none_missing (entries : List (String × Nat)) :
        ¬ (!((entries.filter fun entry => replica.tableInfo entry.1 = 0).map Prod.fst).isEmpty) =
          true ↔ ∀ entry ∈ entries, replica.tableInfo entry.1 ≠ 0 := by
      simp [List.filter_eq_nil_iff]
    rw [none_missing]
    constructor
    · intro given entry hentry
      obtain ⟨present, counted, -⟩ := given
      have known := present entry hentry
      simp only [Bool.not_eq_true, Bool.not_eq_false', List.isEmpty_iff, List.map_eq_nil_iff,
        List.filter_eq_nil_iff, decide_eq_true_eq] at counted
      have equal := counted entry hentry
      simp only [ne_eq, known, not_false_eq_true, true_and, Classical.not_not] at equal
      exact ⟨known, equal⟩
    · intro all
      refine ⟨fun entry hentry => (all entry hentry).1, ?_, rfl⟩
      simp only [Bool.not_eq_true, Bool.not_eq_false', List.isEmpty_iff, List.map_eq_nil_iff,
        List.filter_eq_nil_iff, decide_eq_true_eq]
      intro entry hentry mismatch
      exact mismatch.2 (all entry hentry).2
  rw [passes]
  constructor
  · intro all t ht items
    exact all (t.tableName, t.numberOfColumns) ((member _).mpr ⟨t, ht, items, rfl⟩)
  · intro all entry hentry
    obtain ⟨t, ht, items, rfl⟩ := (member entry).mp hentry
    exact all t ht items

namespace Replica

/-- The table has this row. -/
def Holds (replica : Replica ν) (table : String) (row : List ν) : Prop :=
  ∃ key, replica.rows (table, key) = some row

/-- The replica is as the item leaves the table: the inserted row is there with its values, the row
of the updated key has the new values in the updated columns, no row has the deleted key. -/
def Shows (replica : Replica ν) (t : TableChanges ν) : ChangesetItem ν → Prop
  | .SQLITE_INSERT new => replica.Holds t.table new
  | .SQLITE_UPDATE old new => ∃ row, replica.Holds t.table row ∧
      keyOf t.primaryKey row = keyOf t.primaryKey old ∧
      ∀ i : Nat, old[i]? ≠ new[i]? → row[i]? = new[i]?
  | .SQLITE_DELETE old => ∀ row, replica.Holds t.table row →
      keyOf t.primaryKey row ≠ keyOf t.primaryKey old

/-- What a changeset may meet. In the tables with its primary keys, changes to one row want values
that go together, and an insert that meets a row finds its values in the columns that no update of
the changeset sets. A table with another primary key is already as the changeset leaves it. -/
structure Expects (replica : Replica ν) (changeset : Changeset ν) : Prop where
  compatible : ∀ change ∈ compatibleChanges replica.primaryKey changeset,
    ∀ other ∈ compatibleChanges replica.primaryKey changeset, other.key = change.key →
      change.Compatible other
  found : ∀ key new, Change.insert key new ∈ compatibleChanges replica.primaryKey changeset →
    ∀ row, replica.rows key = some row → ∀ i : Nat,
      ¬ Sets (changesTo key (compatibleChanges replica.primaryKey changeset)) i → row[i]? = new[i]?
  otherwise : ∀ t ∈ changeset.tables, ∀ places, replica.primaryKey t.table = some places →
    places ≠ t.primaryKey → ∀ item ∈ t.items, replica.Shows t item

omit [DecidableEq ν] in
theorem holds_iff (replica : Replica ν) (table : String) (places : List Nat) (row : List ν)
    (named : replica.primaryKey table = some places) :
    replica.Holds table row ↔ replica.rows (table, keyOf places row) = some row := by
  constructor
  · intro given
    obtain ⟨key, found⟩ := given
    obtain ⟨places', named', -, own⟩ := replica.shaped table key row found
    obtain rfl : places = places' := Option.some.inj (named.symm.trans named')
    rw [own, found]
  · intro found
    exact ⟨keyOf places row, found⟩

/-- In a table with the changeset's primary key, an item shows where its change is agreed with. -/
theorem shows_iff_agrees (replica : Replica ν) (t : TableChanges ν) (item : ChangesetItem ν)
    (named : replica.primaryKey t.table = some t.primaryKey) :
    replica.Shows t item ↔ (item.change t.table t.primaryKey).Agrees
      (replica.rows (item.change t.table t.primaryKey).key) := by
  have holds (row : List ν) := replica.holds_iff t.table t.primaryKey row named
  cases item with
  | SQLITE_INSERT new =>
    rw [ChangesetItem.change, agrees_insert]
    exact holds new
  | SQLITE_UPDATE old new =>
    rw [ChangesetItem.change, agrees_update]
    constructor
    · intro given
      obtain ⟨row, held, key, columns⟩ := given
      refine ⟨row, ?_, columns⟩
      rw [Change.key, ← key]
      exact (holds row).mp held
    · intro given
      obtain ⟨row, found, columns⟩ := given
      obtain ⟨places, named', -, own⟩ := replica.shaped t.table _ row found
      obtain rfl : t.primaryKey = places := Option.some.inj (named.symm.trans named')
      exact ⟨row, ⟨_, found⟩, own, columns⟩
  | SQLITE_DELETE old =>
    rw [ChangesetItem.change, agrees_delete, Change.key]
    constructor
    · intro absent
      cases found : replica.rows (t.table, keyOf t.primaryKey old) with
      | none => rfl
      | some row =>
        obtain ⟨places, named', -, own⟩ := replica.shaped t.table _ row found
        obtain rfl : t.primaryKey = places := Option.some.inj (named.symm.trans named')
        exact absurd own (absent row ⟨_, found⟩)
    · intro gone row held key
      have found := (holds row).mp held
      rw [key, gone] at found
      cases found

end Replica

omit [DecidableEq ν] in
theorem ChangesetItem.change_key (table : String) (primaryKey : List Nat) (item : ChangesetItem ν) :
    (item.change table primaryKey).key.1 = table := by
  cases item with
  | SQLITE_INSERT new => rfl
  | SQLITE_UPDATE old new => rfl
  | SQLITE_DELETE old => rfl

/-- A table with another primary key stays as it is. -/
theorem Replica.applyChanges_passed_over (handler : Conflict → Action) (replica result : Replica ν)
    (changeset : Changeset ν) (h : replica.applyChanges handler changeset = .ok result)
    (t : TableChanges ν) (member : t ∈ changeset.tables)
    (other : replica.primaryKey t.table ≠ some t.primaryKey) (key : List ν) :
    result.rows (t.table, key) = replica.rows (t.table, key) := by
  obtain ⟨-, made⟩ := replica.applyChanges_ok handler result changeset h
  have row := (applyAll_ok_iff handler _ _ _).mp made (t.table, key)
  have untouched :
      changesTo (t.table, key) (compatibleChanges replica.primaryKey changeset) = [] := by
    rw [changesTo, List.filter_eq_nil_iff]
    intro change hchange same
    obtain ⟨t', member', named, item, -, rfl⟩ := (mem_compatibleChanges _ _ _).mp hchange
    have table : t'.table = t.table := by
      rw [decide_eq_true_eq] at same
      rw [← item.change_key t'.table t'.primaryKey, same]
    rw [table, changeset.uniform t' member' t member table] at named
    exact other named
  rw [untouched, applyRow, Except.ok.injEq] at row
  exact row.symm

/-- Where nothing but the changes themselves happens, a changeset that is applied passes the schema
check and its changes are made. -/
theorem ChangesetSession.applySingleChangeset_quiet (S : ChangesetSession ν)
    (replica result : Replica ν)
    (data : Bytes) (changeset : Changeset ν) (read : S.read data = .ok changeset)
    (quiet : S.quiet replica changeset = true)
    (applied : S.applySingleChangeset replica data = .ok result) :
    S.validateChangesetSchema replica changeset = .ok () ∧
      replica.applyChanges skipInserts changeset = .ok result := by
  obtain ⟨valid, made⟩ := S.applySingleChangeset_ok replica result data changeset read applied
  have widths := (S.validateChangesetSchema_ok replica changeset).mp valid
  exact ⟨valid, S.applyStrm_quiet skipInserts replica changeset result quiet
    (fun t member items => (widths t member items).2) made⟩

/-- For a changeset with one change to a row, as the session extension records it: every
insert meets no row or its own values, and a table with another primary key is as the
changeset leaves it. -/
theorem expects_iff_of_nodup (replica : Replica ν) (changeset : Changeset ν)
    (nodup : ((compatibleChanges replica.primaryKey changeset).map Change.key).Nodup) :
    replica.Expects changeset ↔
      (∀ key new, Change.insert key new ∈ compatibleChanges replica.primaryKey changeset →
        replica.rows key = none ∨ replica.rows key = some new) ∧
      ∀ t ∈ changeset.tables, ∀ places, replica.primaryKey t.table = some places →
        places ≠ t.primaryKey → ∀ item ∈ t.items, replica.Shows t item := by
  have alone (key : String × List ν) (new : List ν)
      (member : Change.insert key new ∈ compatibleChanges replica.primaryKey changeset) (i : Nat) :
      ¬ Sets (changesTo key (compatibleChanges replica.primaryKey changeset)) i := by
    have only := changesTo_nodup _ nodup _ member
    rw [Change.key] at only
    rw [only]
    simp [Sets]
  constructor
  · intro expects
    refine ⟨?_, expects.otherwise⟩
    intro key new member
    cases met : replica.rows key with
    | none => exact .inl rfl
    | some row =>
      right
      rw [Option.some.injEq]
      apply List.ext_getElem?
      intro i
      exact expects.found key new member row met i (alone key new member i)
  · intro given
    obtain ⟨inserts, otherwise⟩ := given
    refine ⟨?_, ?_, otherwise⟩
    · intro change member other member' same
      have only := changesTo_nodup _ nodup change member
      have one : other ∈ changesTo change.key (compatibleChanges replica.primaryKey changeset) :=
        List.mem_filter.mpr ⟨member', by simp [same]⟩
      rw [only, List.mem_singleton] at one
      rw [one]
      exact change.compatible_self
    · intro key new member row met i _
      rcases inserts key new member with none | own
      · rw [met] at none
        cases none
      · rw [met, Option.some.injEq] at own
        rw [own]

omit [DecidableEq ν] in
theorem columns_compatibleChanges (primaryKey : String → Option (List Nat))
    (changeset : Changeset ν) :
    ∀ change ∈ compatibleChanges primaryKey changeset,
      (primaryKey change.key.1).map List.length = some change.columns := by
  intro change member
  obtain ⟨t, -, named, item, items, rfl⟩ := (mem_compatibleChanges _ _ _).mp member
  have shape := t.wellFormed item items
  rw [item.change_key, named, Option.map_some, Option.some.injEq]
  cases item with
  | SQLITE_INSERT new => exact shape.symm
  | SQLITE_UPDATE old new => exact shape.2.1.symm
  | SQLITE_DELETE old => exact shape.symm

/-- In the model of the client's changes, this is the application of the changes that are
not passed over. -/
theorem applySingleChangeset_client
    (Q : Client.Sqlite (String → Option (List Nat)) String (String × List ν))
    (table : ∀ key, Q.table key = key.1)
    (columns : ∀ schema t, Q.columns schema t = (schema t).map List.length)
    (A : Client.ChangesetApply (String → Option (List Nat)) (String × List ν) ν)
    (S : ChangesetSession ν) (replica result : Replica ν) (data : Bytes) (changeset : Changeset ν)
    (read : S.read data = .ok changeset) (quiet : S.quiet replica changeset = true)
    (undisturbed : A.quiet ⟨replica.primaryKey, replica.rows⟩
      (compatibleChanges replica.primaryKey changeset) = true)
    (applied : S.applySingleChangeset replica data = .ok result) :
    Client.applySingleChangeset Q A ⟨replica.primaryKey, replica.rows⟩
        (compatibleChanges replica.primaryKey changeset) =
      .ok ⟨result.primaryKey, result.rows⟩ := by
  obtain ⟨-, made⟩ := S.applySingleChangeset_quiet replica result data changeset read quiet applied
  obtain ⟨named, rows⟩ := replica.applyChanges_ok skipInserts result changeset made
  have valid : Client.validateChangesetSchema Q replica.primaryKey
      (compatibleChanges replica.primaryKey changeset) = true := by
    rw [Client.validateChangesetSchema, List.all_eq_true]
    intro change member
    rw [decide_eq_true_eq, table, columns]
    exact columns_compatibleChanges replica.primaryKey changeset change member
  exact (Client.applySingleChangeset_ok _ _ _).mpr
    ⟨valid, named, (A.applyStrm_quiet skipInserts _ _ _ undisturbed).mpr rows⟩

namespace ChangesetSample

/-- `CREATE TABLE users (id INTEGER PRIMARY KEY, name TEXT)` with the row `(1, 'Alice')`, without
triggers or further constraints. -/
def users : Replica String where
  primaryKey table := if table = "users" then some [1, 0] else none
  rows key := if key = ("users", ["1"]) then some ["1", "Alice"] else none
  shaped := by
    intro table key row found
    split at found
    · rename_i here
      cases here
      cases found
      exact ⟨[1, 0], rfl, rfl, rfl⟩
    · cases found

/-- One inserted row, recorded with these primary key columns. -/
def inserted (primaryKey : List Nat) (row : List String)
    (width : row.length = primaryKey.length) : Changeset String where
  tables := [⟨"users", primaryKey, [.SQLITE_INSERT row],
    by simpa [ChangesetItem.WellFormed] using width⟩]
  uniform := by simp

def bob : Changeset String := inserted [1, 0] ["1", "Bob"] rfl

/-- From a table whose primary key is the name. -/
def carol : Changeset String := inserted [0, 1] ["2", "Carol"] rfl

def session : ChangesetSession String where
  read data := if data = [1] then .ok bob else if data = [2] then .ok carol else .error
    "not recorded"
  applyStrm handler replica changeset :=
    (replica.applyChanges handler changeset).mapError fun _ =>
      "Error code 4: Callback routine requested an abort"
  quiet _ _ := true
  applyStrm_quiet := by
    intro handler replica changeset result _ _ applied
    cases made : replica.applyChanges handler changeset with
    | error conflict =>
      rw [made] at applied
      cases applied
    | ok other =>
      rw [made] at applied
      cases applied
      rfl
  hashOrder := id
  hashOrder_perm _ := .refl _

/-- What the table holds under a key afterwards. -/
def after (data : Bytes) (key : List String) : Except String (Option (List String)) :=
  (session.applySingleChangeset users data).map fun result => result.rows ("users", key)

theorem after_bob : after [1] ["1"] = .ok (some ["1", "Alice"]) := by decide

theorem after_carol : after [2] ["2"] = .ok none := by decide

/-- An inserted row that is not under its key afterwards. -/
theorem not_shown (data : Bytes) (changeset : Changeset String)
    (read : session.read data = .ok changeset)
    (primaryKey : List Nat) (row : List String) (width : row.length = primaryKey.length)
    (own : changeset = inserted primaryKey row width) (value : Option (List String))
    (left : after data (keyOf [1, 0] row) = .ok value) (lost : value ≠ some row) :
    ∃ result, session.applySingleChangeset users data = .ok result ∧
      ¬ ∀ t ∈ changeset.tables, ∀ item ∈ t.items, result.Shows t item := by
  obtain ⟨result, applied, found⟩ := (Outcome.map_ok _ _ _).mp left
  refine ⟨result, applied, ?_⟩
  intro shown
  obtain ⟨-, made⟩ := session.applySingleChangeset_quiet users result data changeset read
    rfl applied
  obtain ⟨named, -⟩ := users.applyChanges_ok skipInserts result changeset made
  rw [own] at shown
  have held : result.Holds (foldCase "users") row :=
    shown _ List.mem_cons_self (.SQLITE_INSERT row) List.mem_cons_self
  rw [show foldCase "users" = "users" by decide] at held
  rw [result.holds_iff "users" [1, 0] row (by rw [named]; rfl), found] at held
  exact lost held

end ChangesetSample

end SyndDB.Replication
