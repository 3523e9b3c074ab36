import SyndDB.Framework.SortedRows
import SyndDB.Sequencer.Recovery
import SyndDB.Shared.BatchCodec

namespace SyndDB.Sequencer

open Shared

/-- A failure of the codec is a failure of the transport. -/
def serialized {α : Type} (result : Except CborError α) : Except TransportError α :=
  result.mapError fun e => .Serialization e.text

end SyndDB.Sequencer

namespace SyndDB.Sequencer.Local

open Octets Shared

structure BatchInfo where
  startSequence : UInt64
  endSequence : UInt64
  path : String
  contentHash : Bytes
  deriving DecidableEq

structure StoredBatch where
  compressedData : Bytes
  uncompressedSize : Nat
  contentHash : Bytes
  startSequence : UInt64
  endSequence : UInt64
  deriving DecidableEq

def StoredBatch.key (stored : StoredBatch) : Nat := stored.startSequence.toNat

/-- The integers of a row are the signed ones of SQLite. -/
def StoredBatch.Fits (stored : StoredBatch) : Prop :=
  stored.startSequence.toNat < 2 ^ 63 ∧ stored.endSequence.toNat < 2 ^ 63

instance (stored : StoredBatch) : Decidable stored.Fits := inferInstanceAs (Decidable (_ ∧ _))

def StoredBatch.Contains (stored : StoredBatch) (sequence : UInt64) : Prop :=
  stored.startSequence ≤ sequence ∧ sequence ≤ stored.endSequence

instance (stored : StoredBatch) (sequence : UInt64) : Decidable (stored.Contains sequence) :=
  inferInstanceAs (Decidable (_ ∧ _))

structure MemoryState where
  batches : List StoredBatch
  sorted : SortedRows.Sorted StoredBatch.key batches

/-- The table `batches`, by its primary key. -/
structure Connection where
  rows : List StoredBatch
  sorted : SortedRows.Sorted StoredBatch.key rows
  fits : ∀ row ∈ rows, row.Fits

inductive StorageInner where
  | Memory (state : MemoryState)
  | Sqlite (conn : Connection)

inductive RusqliteError where
  | ToSqlConversionFailure
  | ConstraintViolation
  -- any other failure that SQLite reports
  | SqliteFailure (message : String)

/-- `INSERT` of a row, its parameters being bound first. `fault` is a failure of SQLite's own. -/
def Connection.insert (conn : Connection) (row : StoredBatch) (fault : Option String) :
    Except RusqliteError Unit × Connection :=
  if fits : row.Fits then
    match fault with
    | some message => (.error (.SqliteFailure message), conn)
    | none =>
        if SortedRows.get StoredBatch.key row.key conn.rows = none then
          (.ok (),
            { rows := SortedRows.put StoredBatch.key row conn.rows
              sorted := SortedRows.sorted_put row conn.rows conn.sorted
              fits := by
                intro other member
                have cases := (SortedRows.mem_put row other conn.rows conn.sorted).mp member
                rcases cases with rfl | ⟨old, -⟩
                · exact fits
                · exact conn.fits other old })
        else (.error .ConstraintViolation, conn)
  else (.error .ToSqlConversionFailure, conn)

def MemoryState.insert (state : MemoryState) (stored : StoredBatch) : MemoryState where
  batches := SortedRows.put StoredBatch.key stored state.batches
  sorted := SortedRows.sorted_put stored state.batches state.sorted

variable (X : Externals) (C : Codec)

def stored (batch : CborBatch) (uncompressed compressed : Bytes) : StoredBatch :=
  ⟨compressed, uncompressed.length, batch.contentHash, batch.startSequence, batch.endSequence⟩

namespace StorageInner

/-- Of the failures of SQLite only those it reports itself are looked at, and among them a violated
constraint is taken for a batch that is there already. -/
def store (row : StoredBatch) (fault : Option String) :
    StorageInner → Except TransportError Unit × StorageInner
  | .Memory state => (.ok (), .Memory (state.insert row))
  | .Sqlite conn =>
      match conn.insert row fault with
      | (.error (.SqliteFailure message), conn) =>
          (.error (.Storage ("SQLite insert failed: " ++ message)), .Sqlite conn)
      | (.error .ConstraintViolation, conn) => (.ok (), .Sqlite conn)
      | (.error .ToSqlConversionFailure, conn) => (.ok (), .Sqlite conn)
      | (.ok (), conn) => (.ok (), .Sqlite conn)

def publish (batch : CborBatch) (fault : Option String) (s : StorageInner) :
    Except TransportError PublishMetadata × StorageInner :=
  match serialized (batch.toCbor C) with
  | .error e => (.error e, s)
  | .ok uncompressed =>
      match serialized (batch.toCborZstd C) with
      | .error e => (.error e, s)
      | .ok compressed =>
          match s.store (stored batch uncompressed compressed) fault with
          | (.error e, s) => (.error e, s)
          | (.ok (), s) =>
              (.ok ⟨"local://" ++ toString batch.startSequence, batch.contentHash,
                compressed.length, uncompressed.length⟩, s)

/-- A number that SQLite cannot hold makes the query fail, which is read as no row. -/
def getBatchCompressed (startSequence : UInt64) : StorageInner → Option Bytes
  | .Memory state =>
      (SortedRows.get StoredBatch.key startSequence.toNat state.batches).map
        StoredBatch.compressedData
  | .Sqlite conn =>
      if startSequence.toNat < 2 ^ 63 then
        (SortedRows.get StoredBatch.key startSequence.toNat conn.rows).map
          StoredBatch.compressedData
      else none

def fetch (startSequence : UInt64) (s : StorageInner) : Except TransportError (Option CborBatch) :=
  match s.getBatchCompressed startSequence with
  | none => .ok none
  | some data => do
      let batch ← serialized (CborBatch.fromCborZstd C data)
      return some batch

def batches : StorageInner → List StoredBatch
  | .Memory state => state.batches
  | .Sqlite conn => conn.rows

def listBatches (s : StorageInner) : List BatchInfo :=
  s.batches.map fun stored => ⟨stored.startSequence, stored.endSequence,
    "local://" ++ toString stored.startSequence, stored.contentHash⟩

def latestSequence (s : StorageInner) : Option UInt64 :=
  (s.batches.map StoredBatch.endSequence).max?

/-- The batch in which a message is looked for. `choose` is the row that SQLite returns first: the
query has no `ORDER BY`. -/
def findContaining (choose : List StoredBatch → Option StoredBatch) (sequence : UInt64) :
    StorageInner → Option StoredBatch
  | .Memory state => state.batches.find? fun stored => stored.Contains sequence
  | .Sqlite conn =>
      if sequence.toNat < 2 ^ 63 then choose
        (conn.rows.filter fun stored => stored.Contains sequence)
      else none

end StorageInner

/-- The first message with the number. -/
def messageOf (batch : CborBatch) (sequence : UInt64) : Option CborSignedMessage :=
  batch.messages.find? fun m => (m.sequence X).toOption = some sequence

def StorageInner.getMessage (choose : List StoredBatch → Option StoredBatch) (sequence : UInt64)
    (s : StorageInner) : Except TransportError (Option CborSignedMessage) :=
  match s.findContaining choose sequence with
  | none => .ok none
  | some stored => do
      let batch ← serialized (CborBatch.fromCborZstd C stored.compressedData)
      return messageOf X batch sequence

/-- The row that a batch is stored as, if it can be written. -/
def rowOf (batch : CborBatch) : Option StoredBatch := do
  let uncompressed ← (batch.toCbor C).toOption
  let compressed ← (batch.toCborZstd C).toOption
  return stored batch uncompressed compressed

def emptyMemory : StorageInner := .Memory ⟨[], List.Pairwise.nil⟩

def emptySqlite : StorageInner := .Sqlite ⟨[], List.Pairwise.nil, by simp⟩

/-- The storage after calls of `publish` in this order. -/
def published (s : StorageInner) (calls : List CborBatch) : StorageInner :=
  calls.foldl (fun s batch => (s.publish C batch none).2) s

section Rows

variable {C} (lossless : C.Lossless)

theorem rowOf_some (batch : CborBatch) (row : StoredBatch) :
    rowOf C batch = some row ↔ ∃ uncompressed compressed, batch.toCbor C = .ok uncompressed ∧
      batch.toCborZstd C = .ok compressed ∧ row = stored batch uncompressed compressed := by
  have toOption (result : Except CborError Bytes) (bytes : Bytes) :
      result.toOption = some bytes ↔ result = .ok bytes := by
    cases result with
    | error e => simp [Except.toOption]
    | ok a => simp [Except.toOption]
  simp only [rowOf, Option.bind_eq_bind, Option.bind_eq_some_iff, toOption]
  constructor
  · intro h
    obtain ⟨uncompressed, plain, compressed, packed, same⟩ := h
    exact ⟨uncompressed, compressed, plain, packed, (Option.some.inj same).symm⟩
  · intro h
    obtain ⟨uncompressed, compressed, plain, packed, same⟩ := h
    exact ⟨uncompressed, plain, compressed, packed, congrArg some same.symm⟩

theorem rowOf_range (batch : CborBatch) (row : StoredBatch) (h : rowOf C batch = some row) :
    row.startSequence = batch.startSequence ∧ row.endSequence = batch.endSequence := by
  obtain ⟨uncompressed, compressed, -, -, rfl⟩ := (rowOf_some batch row).mp h
  exact ⟨rfl, rfl⟩

include lossless in
/-- A row gives its batch back. -/
theorem rowOf_decodes (batch : CborBatch) (typed : batch.Typed) (row : StoredBatch)
    (h : rowOf C batch = some row) : CborBatch.fromCborZstd C row.compressedData = .ok batch := by
  obtain ⟨uncompressed, compressed, plain, packed, rfl⟩ := (rowOf_some batch row).mp h
  obtain ⟨cbor, written, zstd⟩ := (Outcome.bind_ok _ _ _).mp packed
  rw [stored, CborBatch.fromCborZstd, lossless.inflates cbor compressed zstd, Outcome.ok_bind,
    CborBatch.fromCbor, lossless.reads _ cbor written, Outcome.ok_bind]
  exact CborBatch.fromWire_toWire batch typed

theorem publish_failed (s : StorageInner) (batch : CborBatch) (h : rowOf C batch = none) :
    ∃ e, s.publish C batch none = (.error e, s) := by
  unfold StorageInner.publish serialized
  unfold rowOf at h
  cases plain : batch.toCbor C with
  | error e => exact ⟨_, rfl⟩
  | ok uncompressed =>
    cases packed : batch.toCborZstd C with
    | error e => exact ⟨_, rfl⟩
    | ok compressed =>
      rw [plain, packed] at h
      cases h

theorem publish_memory (state : MemoryState) (batch : CborBatch) (row : StoredBatch)
    (h : rowOf C batch = some row) :
    ((StorageInner.Memory state).publish C batch none).2 = .Memory (state.insert row) := by
  obtain ⟨uncompressed, compressed, plain, packed, rfl⟩ := (rowOf_some batch row).mp h
  simp only [StorageInner.publish, plain, packed, serialized, Except.mapError, StorageInner.store]

/-- Without a failure of SQLite's own `publish` returns, whatever becomes of the row. -/
theorem publish_sqlite (conn : Connection) (batch : CborBatch) (row : StoredBatch)
    (h : rowOf C batch = some row) :
    ∃ metadata, (StorageInner.Sqlite conn).publish C batch none =
      (.ok metadata, .Sqlite (conn.insert row none).2) := by
  obtain ⟨uncompressed, compressed, plain, packed, rfl⟩ := (rowOf_some batch row).mp h
  simp only [StorageInner.publish, plain, packed, serialized, Except.mapError, StorageInner.store,
    Connection.insert]
  by_cases fits : (stored batch uncompressed compressed).Fits
  · by_cases free : SortedRows.get StoredBatch.key (stored batch uncompressed compressed).key
        conn.rows = none
    · simp only [dif_pos fits, if_pos free]
      exact ⟨_, rfl⟩
    · simp only [dif_pos fits, if_neg free]
      exact ⟨_, rfl⟩
  · simp only [dif_neg fits]
    exact ⟨_, rfl⟩

theorem insert_rows (conn : Connection) (row : StoredBatch) :
    (conn.insert row none).2.rows =
      if row.Fits ∧ SortedRows.get StoredBatch.key row.key conn.rows = none then
        SortedRows.put StoredBatch.key row conn.rows
      else conn.rows := by
  unfold Connection.insert
  by_cases fits : row.Fits
  · by_cases free : SortedRows.get StoredBatch.key row.key conn.rows = none
    · simp only [dif_pos fits, if_pos free, if_pos (And.intro fits free)]
    · simp only [dif_pos fits, if_neg free, if_neg (fun both : _ ∧ _ => free both.2)]
  · simp only [dif_neg fits, if_neg (fun both : _ ∧ _ => fits both.1)]

/-- What an `INSERT` leaves: the old rows, and at most the new one. -/
theorem insert_mem (conn : Connection) (row other : StoredBatch) :
    (other ∈ conn.rows → other ∈ (conn.insert row none).2.rows) ∧
    (other ∈ (conn.insert row none).2.rows → other = row ∨ other ∈ conn.rows) := by
  rw [insert_rows]
  split
  · next both =>
    have unchanged := SortedRows.mem_put row other conn.rows conn.sorted
    constructor
    · intro member
      refine unchanged.mpr (.inr ⟨member, fun same => ?_⟩)
      have found := SortedRows.get_of_mem conn.rows conn.sorted other member
      rw [same, both.2] at found
      cases found
    · intro member
      exact (unchanged.mp member).imp_right And.left
  · exact ⟨id, .inr⟩

end Rows

end SyndDB.Sequencer.Local
