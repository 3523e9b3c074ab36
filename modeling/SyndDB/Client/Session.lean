import SyndDB.Framework.Changes
import SyndDB.Framework.Run
import SyndDB.Framework.Text

namespace SyndDB.Client

open Changes
open Text (isWhitespace)

/-- What the client asks of SQLite: the table of a row, the columns of a table, whether there are
user tables, the hash of the schema, and whether the update hook fires for writes to a row. -/
structure Sqlite (σ τ κ : Type) where
  table : κ → τ
  columns : σ → τ → Option Nat
  hasExistingTables : σ → Bool
  computeSchemaHash : σ → UInt64
  updateHook : κ → Bool

variable {σ τ κ ν : Type}

/-- What a snapshot file holds. -/
structure Image (σ κ ν : Type) where
  schema : σ
  rows : Rows κ ν

/-- A database: every row has the columns of its table. -/
structure Database (Q : Sqlite σ τ κ) (ν : Type) extends Image σ κ ν where
  shaped : ∀ key row, rows key = some row → Q.columns schema (Q.table key) = some row.length

variable {Q : Sqlite σ τ κ} [DecidableEq κ] [DecidableEq ν]

/-- Write or delete a row. A row that does not have the columns of its table is refused. -/
def Database.write (db : Database Q ν) (key : κ) (value : Option (List ν)) :
    Option (Database Q ν) :=
  if h : value.all (fun row => Q.columns db.schema (Q.table key) = some row.length) = true then
    some { db with
      rows := Function.update db.rows key value
      shaped := by
        intro other row found
        by_cases same : other = key
        · rw [same, Function.update_self] at found
          simpa [same, found] using h
        · rw [Function.update_of_ne same] at found
          exact db.shaped other row found }
  else none

/-- The rows changed since the session was created, each with the value it had before. -/
abbrev Session (κ ν : Type) := List (κ × Option (List ν))

/-- Snapshots go through a channel to a background thread, or out with a request at once. -/
inductive Route where
  | channel
  | request
  deriving DecidableEq

/-- What is handed over to the sequencer. -/
inductive Emission (σ κ ν : Type) where
  | snapshot (route : Route) (sequence : Nat) (data : Image σ κ ν)
  | changeset (sequence : Nat) (data : List (Change κ ν))

/-- The session state of a client, its database with the transaction it is in, what it has handed
over so far and its database at that time. -/
structure SessionState (Q : Sqlite σ τ κ) (ν : Type) where
  db : Database Q ν
  /-- The database to roll back to. -/
  transaction : Option (Database Q ν)
  session : Session κ ν
  sequence : Nat
  snapshotInterval : Nat
  changesetsSinceSnapshot : Nat
  hasChanges : Bool
  lastSchemaHash : UInt64
  /-- The schema that was hashed. -/
  lastSchema : σ
  emitted : List (Emission σ κ ν)
  lastEmitted : Database Q ν

namespace SessionState

/-- Hand a snapshot or changeset over. -/
def emit (c : SessionState Q ν) (e : Emission σ κ ν) : SessionState Q ν :=
  { c with emitted := c.emitted ++ [e], lastEmitted := c.db }

def emitSnapshot (route : Route) (c : SessionState Q ν) : SessionState Q ν :=
  c.emit (.snapshot route c.sequence c.db.toImage)

/-- The row write of an SQL statement. The session keeps the first value of a row. -/
def write (c : SessionState Q ν) (key : κ) (value : Option (List ν)) : SessionState Q ν :=
  if c.db.rows key = none ∧ value = none then c
  else match c.db.write key value with
    | none => c
    | some db => { c with
        db := db
        session := if key ∈ c.session.map Prod.fst then c.session
          else c.session ++ [(key, c.db.rows key)]
        hasChanges := c.hasChanges || Q.updateHook key }

/-- The state after a write that took effect. -/
def written (c : SessionState Q ν) (key : κ) (db : Database Q ν) : SessionState Q ν :=
  { c with
    db := db
    session := if key ∈ c.session.map Prod.fst then c.session
      else c.session ++ [(key, c.db.rows key)]
    hasChanges := c.hasChanges || Q.updateHook key }

omit [DecidableEq ν] in
theorem write_cases (c : SessionState Q ν) (key : κ) (value : Option (List ν)) :
    c.write key value = c ∨ ∃ db : Database Q ν,
      db.rows = Function.update c.db.rows key value ∧ c.write key value = c.written key db := by
  rw [write]
  split
  · exact .inl rfl
  · cases took : c.db.write key value with
    | none => exact .inl rfl
    | some db =>
      refine .inr ⟨db, ?_, rfl⟩
      rw [Database.write] at took
      split at took
      · cases took
        rfl
      · cases took

/-- What happens during one push: whether the channels to the senders take what is sent, and the
answers of SQLite when the changes are read and when the session is recreated. -/
structure Room where
  schemaSnapshot : Bool
  extraction : Except String Unit
  changeset : Bool
  intervalSnapshot : Bool
  recreation : Except String Unit

/-- A changed schema is sent as a snapshot, under a number of its own. -/
def detectSchemaChange (sent : Bool) (c : SessionState Q ν) : SessionState Q ν :=
  let current := Q.computeSchemaHash c.db.schema
  if current = c.lastSchemaHash then c
  else if sent then
    { c.emitSnapshot .channel with
      sequence := c.sequence + 1, changesetsSinceSnapshot := 0, lastSchemaHash := current,
      lastSchema := c.db.schema }
  else { c with lastSchemaHash := current, lastSchema := c.db.schema }

def sendChangeset (sent : Bool) (data : List (Change κ ν)) (c : SessionState Q ν) :
    SessionState Q ν :=
  let counted : SessionState Q ν := { c with
    sequence := c.sequence + 1, changesetsSinceSnapshot := c.changesetsSinceSnapshot + 1 }
  if sent then counted.emit (.changeset c.sequence data) else counted

def intervalSnapshot (sent : Bool) (c : SessionState Q ν) : SessionState Q ν :=
  if c.snapshotInterval ≤ c.changesetsSinceSnapshot then
    if sent then { c.emitSnapshot .channel with changesetsSinceSnapshot := 0 } else c
  else c

/-- When this fails, the session keeps the changes that were handed over. -/
def recreateSession (answer : Except String Unit) (c : SessionState Q ν) :
    Except String Unit × SessionState Q ν :=
  match answer with
  | .ok () => (.ok (), { c with session := [] })
  | .error e => (.error e, c)

/-- The session is only recreated when it held changes. -/
def extractAndSendChangeset (room : Room) (c : SessionState Q ν) :
    Except String Unit × SessionState Q ν :=
  if !c.hasChanges then (.ok (), c)
  else if c.transaction.isSome then (.ok (), c)
  else
    let c := c.detectSchemaChange room.schemaSnapshot
    match room.extraction with
    | .error e => (.error e, c)
    | .ok () =>
        let data := changes c.session c.db.rows
        let c := { c with hasChanges := false }
        if data.isEmpty then (.ok (), c)
        else ((c.sendChangeset room.changeset data).intervalSnapshot
          room.intervalSnapshot).recreateSession room.recreation

omit [DecidableEq κ] [DecidableEq ν] in
theorem detectSchemaChange_session (sent : Bool) (c : SessionState Q ν) :
    (c.detectSchemaChange sent).session = c.session ∧ (c.detectSchemaChange sent).db = c.db ∧
      (c.detectSchemaChange sent).transaction = c.transaction := by
  rw [detectSchemaChange]
  split
  · exact ⟨rfl, rfl, rfl⟩
  · split
    · exact ⟨rfl, rfl, rfl⟩
    · exact ⟨rfl, rfl, rfl⟩

/-- What a push can do. -/
inductive Push (room : Room) (c : SessionState Q ν) : Except String Unit × SessionState Q ν → Prop
  | idle (h : c.hasChanges = false ∨ c.transaction ≠ none) : Push room c (.ok (), c)
  | unread (flagged : c.hasChanges = true) (outside : c.transaction = none) (e : String)
      (read : room.extraction = .error e) :
      Push room c (.error e, c.detectSchemaChange room.schemaSnapshot)
  | nothing (flagged : c.hasChanges = true) (outside : c.transaction = none)
      (read : room.extraction = .ok ()) (empty : changes c.session c.db.rows = []) :
      Push room c (.ok (), { c.detectSchemaChange room.schemaSnapshot with hasChanges := false })
  | sent (flagged : c.hasChanges = true) (outside : c.transaction = none)
      (read : room.extraction = .ok ()) (some : changes c.session c.db.rows ≠ []) :
      Push room c
        (((({ c.detectSchemaChange room.schemaSnapshot with
          hasChanges := false } : SessionState Q ν).sendChangeset room.changeset
          (changes c.session c.db.rows)).intervalSnapshot room.intervalSnapshot).recreateSession
          room.recreation)

omit [DecidableEq κ] in
theorem push_cases (room : Room) (c : SessionState Q ν) :
    Push room c (c.extractAndSendChangeset room) := by
  obtain ⟨session, db, -⟩ := detectSchemaChange_session room.schemaSnapshot c
  rw [extractAndSendChangeset]
  by_cases flagged : c.hasChanges = true
  · by_cases outside : c.transaction = none
    · simp only [flagged, outside, Bool.not_true, Option.isSome_none, if_false,
        Bool.false_eq_true, session, db]
      cases read : room.extraction with
      | error e => exact .unread flagged outside e read
      | ok =>
        dsimp only
        split
        · rename_i empty
          have nothing := Push.nothing flagged outside read (List.isEmpty_iff.mp empty)
          simpa only [session, db] using nothing
        · rename_i some
          have sent := Push.sent flagged outside read (by simpa using some)
          simpa only [session, db] using sent
    · obtain ⟨saved, inside⟩ := Option.ne_none_iff_exists'.mp outside
      simpa [flagged, inside] using Push.idle (.inr outside)
  · simpa [flagged] using Push.idle (.inl (by simpa using flagged))

omit [DecidableEq κ] in
theorem push_keeps (room : Room) (c : SessionState Q ν) :
    (c.extractAndSendChangeset room).2.db = c.db ∧
      (c.extractAndSendChangeset room).2.transaction = c.transaction := by
  obtain ⟨-, same⟩ := detectSchemaChange_session room.schemaSnapshot c
  have intervalSnapshot_keeps (sent : Bool) (d : SessionState Q ν) :
      (d.intervalSnapshot sent).db = d.db ∧ (d.intervalSnapshot sent).transaction =
        d.transaction := by
    rw [intervalSnapshot]
    split
    · split
      · exact ⟨rfl, rfl⟩
      · exact ⟨rfl, rfl⟩
    · exact ⟨rfl, rfl⟩
  have recreateSession_keeps (answer : Except String Unit) (d : SessionState Q ν) :
      (d.recreateSession answer).2.db = d.db ∧
        (d.recreateSession answer).2.transaction = d.transaction := by
    cases answer with
    | ok => exact ⟨rfl, rfl⟩
    | error e => exact ⟨rfl, rfl⟩
  have pushed := push_cases room c
  generalize c.extractAndSendChangeset room = result at pushed ⊢
  cases pushed with
  | idle => exact ⟨rfl, rfl⟩
  | unread => exact same
  | nothing => exact same
  | sent =>
    rw [(recreateSession_keeps _ _).1, (recreateSession_keeps _ _).2,
      (intervalSnapshot_keeps _ _).1, (intervalSnapshot_keeps _ _).2, sendChangeset]
    split
    · exact same
    · exact same

omit [DecidableEq κ] in
theorem push_db (room : Room) (c : SessionState Q ν) :
    (c.extractAndSendChangeset room).2.db = c.db :=
  (push_keeps room c).1

/-- A snapshot is not possible inside a transaction, and may fail to be published. -/
def snapshot (published : Bool) (c : SessionState Q ν) : SessionState Q ν :=
  if c.transaction.isSome then c
  else if published then c.emitSnapshot .request
  else c

/-- Whether the first word is one of three. Only ASCII letters have their capitals
in these words. -/
def isDdl (sql : List Char) : Bool :=
  let upper := (sql.dropWhile isWhitespace).map Char.toUpper
  ["CREATE ".toList, "ALTER ".toList, "DROP ".toList].any fun word => word.isPrefixOf upper

/-- The effect of an SQL statement: a row write, or a change of the schema, which the
session does not see. -/
inductive Statement (Q : Sqlite σ τ κ) (ν : Type) where
  | write (key : κ) (value : Option (List ν))
  | alter (effect : Database Q ν → Database Q ν)

def execute (c : SessionState Q ν) : Statement Q ν → SessionState Q ν
  | .write key value => c.write key value
  | .alter effect => { c with db := effect c.db }

/-- A batch that fails half way leaves what it has done and takes no snapshot. -/
def executeDdl (sql : List Char) (batch : List (Statement Q ν)) (succeeds published : Bool)
    (c : SessionState Q ν) : SessionState Q ν :=
  let c := batch.foldl execute c
  if succeeds && isDdl sql then c.snapshot published else c

/-- What an application does: SQL on the connection, and calls of the client. -/
inductive Operation (Q : Sqlite σ τ κ) (ν : Type) where
  | write (key : κ) (value : Option (List ν))
  | alter (effect : Database Q ν → Database Q ν)
  | executeDdl (sql : List Char) (batch : List (Statement Q ν)) (succeeds published : Bool)
  | push (room : Room)
  | snapshot (published : Bool)
  | begin
  | commit
  | rollback

def step (c : SessionState Q ν) : Operation Q ν → SessionState Q ν
  | .write key value => c.execute (.write key value)
  | .alter effect => c.execute (.alter effect)
  | .executeDdl sql batch succeeds published => c.executeDdl sql batch succeeds published
  | .push room => (c.extractAndSendChangeset room).2
  | .snapshot published => c.snapshot published
  | .begin => if c.transaction.isSome then c else { c with transaction := some c.db }
  | .commit => { c with transaction := none }
  | .rollback =>
      match c.transaction with
      | none => c
      | some db => { c with db := db, transaction := none }

/-- A client attaches to a database. If it has tables, they are published at once. -/
def attach (empty db : Database Q ν) (snapshotInterval : Nat) (published : Bool) :
    SessionState Q ν :=
  let c : SessionState Q ν :=
    ⟨db, none, [], 0, snapshotInterval, 0, false, Q.computeSchemaHash db.schema, db.schema, [],
      empty⟩
  if Q.hasExistingTables db.schema then c.snapshot published else c

end SessionState

end SyndDB.Client
