import SyndDB.Framework.ObjectStore
import SyndDB.Sequencer.LocalTransport
import SyndDB.Shared.BatchFilename

namespace SyndDB.Shared

open Octets Text ObjectStore

inductive StorageError where
  | Config (message : String)
  | Read (message : String)
  | Write (message : String)
  | List (message : String)
  | NotFound (message : String)
  | Http (message : String)
  deriving DecidableEq

def StorageError.text : StorageError → String
  | .Config message => "Configuration error: " ++ message
  | .Read message => "Read error: " ++ message
  | .Write message => "Write error: " ++ message
  | .List message => "List error: " ++ message
  | .NotFound message => "Object not found: " ++ message
  | .Http message => "HTTP error: " ++ message

/-- How the service fails to hand out an object: at the request, or in the middle of the data. -/
inductive ReadFault where
  | request (e : String)
  | chunk (e : String)
  deriving DecidableEq

/-- The failures that the requests of one call meet. -/
structure Faults where
  list : Option String
  read : Option ReadFault

def Faults.none : Faults := ⟨Option.none, Option.none⟩

/-- `bucket` and `prefix` of the configuration. -/
structure StorageClient where
  bucket : String
  pathPrefix : String
  deriving DecidableEq

namespace StorageClient

/-- A failed write may have reached the service all the same. -/
def write (fault : Option (String × Bool)) (path : String) (data : Bytes) (objects : Bucket Bytes) :
    Except StorageError Unit × Bucket Bytes :=
  match fault with
  | none => (.ok (), objects.write path data)
  | some (e, arrived) =>
      (.error (.Write ("Failed to write to " ++ path ++ ": " ++ e)),
        if arrived then objects.write path data else objects)

/-- An object is taken to be missing if the error says so. -/
def read (fault : Option ReadFault) (path : String) (objects : Bucket Bytes) :
    Except StorageError (Option Bytes) :=
  match fault with
  | none => .ok (objects.read path)
  | some (.request e) =>
      if contains e "404" || contains e "No such object" || contains e "not found" then .ok none
      else .error (.Read ("Failed to read " ++ path ++ ": " ++ e))
  | some (.chunk e) =>
      match objects.read path with
      | none => .ok none
      | some _ => .error (.Read ("Failed to read chunk: " ++ e))

def list (fault : Option String) (start : String) (objects : Bucket Bytes) :
    Except StorageError (List String) :=
  match fault with
  | none => .ok (objects.list start)
  | some e => .error (.List ("Failed to list objects: " ++ e))

/-- The first name of a listing. -/
def listOne (fault : Option String) (start : String) (objects : Bucket Bytes) :
    Except StorageError (Option String) :=
  match fault with
  | none => .ok (objects.list start).head?
  | some e => .error (.List ("Failed to list objects: " ++ e))

end StorageClient

/-- Bytes below 128 as text. -/
def asText (bytes : Bytes) : String := String.ofList (bytes.map fun b => Char.ofNat b.toNat)

def fileName (startSequence endSequence : UInt64) : String :=
  asText (formatBatchFilename startSequence endSequence)

/-- `rsplit('/').next()` -/
def lastSegment (name : String) : String :=
  String.ofList (name.toList.reverse.takeWhile fun c => c ≠ '/').reverse

namespace StorageClient

variable (client : StorageClient)

def batchesFolder : String := client.pathPrefix ++ "/batches/"

def batchPath (startSequence endSequence : UInt64) : String :=
  client.batchesFolder ++ fileName startSequence endSequence

end StorageClient

/-- A batch file found in a listing. -/
structure BatchFile where
  startSequence : UInt64
  endSequence : UInt64
  path : String
  deriving DecidableEq

/-- Names that are no batch file names are passed over. -/
def batchFile (name : String) : Option BatchFile :=
  (parseBatchFilename (utf8 (lastSegment name))).map fun range => ⟨range.1, range.2, name⟩

def BatchFile.startsBy (f g : BatchFile) : Bool := f.startSequence ≤ g.startSequence

/-- The batch files among the names, by their starts. Files with the same start stay in the order
of their names. -/
def batchFiles (names : List String) : List BatchFile :=
  (names.filterMap batchFile).mergeSort BatchFile.startsBy

theorem startsBy_trans (f g k : BatchFile) (fg : f.startsBy g) (gk : g.startsBy k) :
    f.startsBy k := by
  simp only [BatchFile.startsBy, decide_eq_true_eq, UInt64.le_iff_toNat_le] at fg gk ⊢
  omega

theorem startsBy_total (f g : BatchFile) : f.startsBy g || g.startsBy f := by
  simp only [BatchFile.startsBy, Bool.or_eq_true, decide_eq_true_eq, UInt64.le_iff_toNat_le]
  omega

theorem paths_sublist (names : List String) :
    ((names.filterMap batchFile).map BatchFile.path).Sublist names := by
  induction names with
  | nil => exact List.Sublist.slnil
  | cons name names ih =>
    rw [List.filterMap_cons, batchFile]
    cases parseBatchFilename (utf8 (lastSegment name)) with
    | none => exact ih.cons name
    | some range => exact ih.cons_cons name

theorem format_bytes (s e : UInt64) (b : UInt8) (h : b ∈ formatBatchFilename s e) :
    b.toNat < 128 ∧ b ≠ 47 := by
  have digit (n : Nat) (member : b ∈ paddedDecimal 12 n) : b.toNat < 128 ∧ b ≠ 47 := by
    have range := (decimalDigit_isSome b).mp (paddedDecimal_digits 12 n b member)
    refine ⟨by omega, ?_⟩
    intro slash
    rw [slash] at range
    exact absurd range.1 (by decide)
  have rest : ∀ b ∈ underscore :: batchExtension, b.toNat < 128 ∧ b ≠ 47 := by decide +kernel
  simp only [formatBatchFilename, List.mem_append, List.mem_cons] at h
  rcases h with (start | rfl | finish) | extension
  · exact digit _ start
  · exact rest _ List.mem_cons_self
  · exact digit _ finish
  · exact rest _ (List.mem_cons_of_mem _ extension)

theorem toNat_ofByte (b : UInt8) : (Char.ofNat b.toNat).toNat = b.toNat := by
  have lt := b.toNat_lt
  have valid : b.toNat.isValidChar := Or.inl (by omega)
  rw [Char.ofNat, dif_pos valid]
  rfl

theorem utf8_asText (bytes : Bytes) (h : ∀ b ∈ bytes, b.toNat < 128) :
    utf8 (asText bytes) = bytes := by
  have low : ∀ c ∈ bytes.map (fun b => Char.ofNat b.toNat), c.toNat < 128 := by
    intro c member
    obtain ⟨b, hb, rfl⟩ := List.mem_map.mp member
    rw [toNat_ofByte]
    exact h b hb
  rw [asText, utf8_ascii _ low, List.map_map]
  refine List.map_id'' ?_ _
  intro b
  simp only [Function.comp_apply, toNat_ofByte, UInt8.ofNat_toNat]

theorem utf8_fileName (s e : UInt64) : utf8 (fileName s e) = formatBatchFilename s e :=
  utf8_asText _ fun b member => (format_bytes s e b member).1

theorem fileName_no_slash (s e : UInt64) : '/' ∉ (fileName s e).toList := by
  rw [fileName, asText, String.toList_ofList]
  intro member
  obtain ⟨b, hb, slash⟩ := List.mem_map.mp member
  have value : b.toNat = 47 := by
    rw [← toNat_ofByte, slash]
    rfl
  exact (format_bytes s e b hb).2 (UInt8.toNat_inj.mp value)

namespace StorageClient

variable (client : StorageClient)

theorem lastSegment_batchPath (s e : UInt64) : lastSegment (client.batchPath s e) =
    fileName s e := by
  have folder :
      (client.batchesFolder).toList = client.pathPrefix.toList ++ "/batches".toList ++ ['/'] := by
    rw [batchesFolder, String.toList_append, List.append_assoc]
    rfl
  have plain : ∀ c ∈ (fileName s e).toList.reverse, decide (c ≠ '/') = true := by
    intro c member
    refine decide_eq_true ?_
    intro slash
    rw [slash] at member
    exact fileName_no_slash s e (List.mem_reverse.mp member)
  rw [lastSegment, batchPath, String.toList_append, folder, List.reverse_append,
    List.reverse_append, List.takeWhile_append_of_pos plain]
  simp

theorem batchFile_batchPath (s e : UInt64) :
    batchFile (client.batchPath s e) = some ⟨s, e, client.batchPath s e⟩ := by
  rw [batchFile, lastSegment_batchPath, utf8_fileName, parse_format]
  rfl

theorem batchPath_injective (s e s' e' : UInt64)
    (h : client.batchPath s e = client.batchPath s' e') :
    s = s' ∧ e = e' := by
  have same := (client.batchFile_batchPath s e).symm.trans
    ((congrArg batchFile h).trans (client.batchFile_batchPath s' e'))
  simp only [Option.some.injEq, BatchFile.mk.injEq] at same
  exact ⟨same.1, same.2.1⟩

theorem folder_of_batchPath (s e : UInt64) :
    client.batchesFolder.toList <+: (client.batchPath s e).toList := by
  rw [batchPath, String.toList_append]
  exact List.prefix_append _ _

end StorageClient

end SyndDB.Shared

namespace SyndDB.Sequencer.Gcs

open Octets Shared ObjectStore
open Local (BatchInfo)

variable (X : Externals) (C : Codec)

structure GcsTransport where
  client : StorageClient
  deriving DecidableEq

def stored {α : Type} (result : Except StorageError α) : Except TransportError α :=
  result.mapError fun e => .Storage e.text

namespace GcsTransport

variable (t : GcsTransport)

def batchPath (startSequence endSequence : UInt64) : String :=
  t.client.batchPath startSequence endSequence

def upload (fault : Option (String × Bool)) (path : String) (data : Bytes)
    (objects : Bucket Bytes) :
    Except TransportError Unit × Bucket Bytes :=
  match StorageClient.write fault path data objects with
  | (result, objects) => (stored result, objects)

def download (faults : Faults) (path : String) (objects : Bucket Bytes) :
    Except TransportError (Option Bytes) :=
  stored (StorageClient.read faults.read path objects)

def listBatchFiles (faults : Faults) (objects : Bucket Bytes) :
    Except TransportError (List BatchFile) := do
  let names ← stored (StorageClient.list faults.list t.client.batchesFolder objects)
  return batchFiles names

def findBatchContaining (faults : Faults) (sequence : UInt64) (objects : Bucket Bytes) :
    Except TransportError (Option String) := do
  let batches ← t.listBatchFiles faults objects
  return (batches.find? fun file => file.startSequence ≤ sequence ∧ sequence ≤ file.endSequence).map
    BatchFile.path

def publish (batch : CborBatch) (fault : Option (String × Bool)) (objects : Bucket Bytes) :
    Except TransportError PublishMetadata × Bucket Bytes :=
  let path := t.batchPath batch.startSequence batch.endSequence
  match serialized (batch.toCbor C) with
  | .error e => (.error e, objects)
  | .ok uncompressed =>
      match serialized (batch.toCborZstd C) with
      | .error e => (.error e, objects)
      | .ok compressed =>
          match upload fault path compressed objects with
          | (.error e, objects) => (.error e, objects)
          | (.ok (), objects) =>
              (.ok ⟨"gs://" ++ t.client.bucket ++ "/" ++ path, batch.contentHash, compressed.length,
                uncompressed.length⟩, objects)

def fetch (faults : Faults) (startSequence : UInt64) (objects : Bucket Bytes) :
    Except TransportError (Option CborBatch) := do
  let batches ← t.listBatchFiles faults objects
  match batches.find? fun file => file.startSequence = startSequence with
  | none => return none
  | some file =>
      match ← download faults file.path objects with
      | none => return none
      | some data =>
          let batch ← serialized (CborBatch.fromCborZstd C data)
          return some batch

def listBatches (faults : Faults) (objects : Bucket Bytes) :
    Except TransportError (List BatchInfo) := do
  let files ← t.listBatchFiles faults objects
  return files.map fun file => ⟨file.startSequence, file.endSequence,
    "gs://" ++ t.client.bucket ++ "/" ++ file.path, List.replicate 32 0⟩

def getLatestSequence (faults : Faults) (objects : Bucket Bytes) :
    Except TransportError (Option UInt64) := do
  let batches ← t.listBatchFiles faults objects
  return (batches.map BatchFile.endSequence).max?

def getMessage (faults : Faults) (sequence : UInt64) (objects : Bucket Bytes) :
    Except TransportError (Option CborSignedMessage) := do
  match ← t.findBatchContaining faults sequence objects with
  | none => return none
  | some path =>
      match ← download faults path objects with
      | none => return none
      | some data =>
          let batch ← serialized (CborBatch.fromCborZstd C data)
          return Local.messageOf X batch sequence

end GcsTransport

/-- The batch last published for each range. -/
abbrev Archive := UInt64 × UInt64 → Option CborBatch

def range (b : CborBatch) : UInt64 × UInt64 := (b.startSequence, b.endSequence)

/-- A call of `publish`, with the failure its upload meets. -/
structure Upload where
  batch : CborBatch
  fault : Option (String × Bool)

/-- The batch can be written and gets into the bucket. -/
def Upload.Arrives (u : Upload) : Prop :=
  (u.batch.toCbor C).isOk ∧ (u.batch.toCborZstd C).isOk ∧
    ∀ e arrived, u.fault = some (e, arrived) → arrived = true

instance (u : Upload) : Decidable (u.Arrives C) :=
  match h : u.fault with
  | none => decidable_of_iff ((u.batch.toCbor C).isOk ∧ (u.batch.toCborZstd C).isOk)
      (by simp [Upload.Arrives, h])
  | some (e, arrived) =>
      decidable_of_iff ((u.batch.toCbor C).isOk ∧ (u.batch.toCborZstd C).isOk ∧ arrived = true)
        (by simp [Upload.Arrives, h])

def Archive.record (archive : Archive) (u : Upload) : Archive :=
  if u.Arrives C then Function.update archive (range u.batch) (some u.batch) else archive

def recorded (uploads : List Upload) : Archive := uploads.foldl (Archive.record C) fun _ => none

namespace GcsTransport

variable (t : GcsTransport)

/-- The bucket after calls of `publish` in this order. -/
def published (uploads : List Upload) : Bucket Bytes :=
  uploads.foldl (fun objects u => (t.publish C u.batch u.fault objects).2) .empty

/-- Each batch of the archive is an object under the name of its range, and there is
no other object. -/
structure Mirrors (archive : Archive) (objects : Bucket Bytes) : Prop where
  own : ∀ r b, archive r = some b → range b = r ∧ b.Typed ∧ ∃ data, b.toCborZstd C = .ok data
  object : ∀ name data, objects.read name = some data ↔
    ∃ r b, archive r = some b ∧ name = t.batchPath r.1 r.2 ∧ b.toCborZstd C = .ok data

variable {C} {t}

theorem mirrors_empty : t.Mirrors C (fun _ => none) .empty where
  own r b found := by cases found
  object name data := by simp

theorem publish_objects (u : Upload) (objects : Bucket Bytes) :
    (∃ data, u.Arrives C ∧ u.batch.toCborZstd C = .ok data ∧
      (t.publish C u.batch u.fault objects).2 =
      objects.write (t.batchPath u.batch.startSequence u.batch.endSequence) data) ∨
    (¬u.Arrives C ∧ (t.publish C u.batch u.fault objects).2 = objects) := by
  unfold GcsTransport.publish serialized Upload.Arrives
  cases plain : u.batch.toCbor C with
  | error e => exact .inr ⟨by simp [Except.isOk, Except.toBool], rfl⟩
  | ok uncompressed =>
    cases packed : u.batch.toCborZstd C with
    | error e => exact .inr ⟨by simp [Except.isOk, Except.toBool], rfl⟩
    | ok compressed =>
      cases fault : u.fault with
      | none => exact .inl ⟨compressed, by simp [Except.isOk, Except.toBool], rfl, rfl⟩
      | some failure =>
        obtain ⟨e, arrived⟩ := failure
        cases arrived with
        | true => exact .inl ⟨compressed, by simp [Except.isOk, Except.toBool], rfl, rfl⟩
        | false => exact .inr ⟨by simp, rfl⟩

/-- A call of `publish` moves the bucket as it moves the archive. -/
theorem mirrors_publish (archive : Archive) (objects : Bucket Bytes)
    (h : t.Mirrors C archive objects) (u : Upload) (typed : u.batch.Typed) :
    t.Mirrors C (archive.record C u) (t.publish C u.batch u.fault objects).2 := by
  rcases publish_objects u objects with ⟨data, arrives, packed, written⟩ | ⟨lost, same⟩
  · rw [Archive.record, if_pos arrives, written]
    constructor
    · intro r b found
      by_cases new : r = range u.batch
      · rw [new, Function.update_self, Option.some.injEq] at found
        rw [new, ← found]
        exact ⟨rfl, typed, data, packed⟩
      · rw [Function.update_of_ne new] at found
        exact h.own r b found
    · intro name data'
      rw [Bucket.read_write]
      split
      · next same =>
        rw [Option.some.injEq]
        constructor
        · intro own
          exact ⟨range u.batch, u.batch, Function.update_self .., same, own ▸ packed⟩
        · intro listed
          obtain ⟨r, b, found, path, packed'⟩ := listed
          have paths := t.client.batchPath_injective _ _ _ _ (path.symm.trans same)
          obtain rfl : r = range u.batch := Prod.ext paths.1 paths.2
          rw [Function.update_self, Option.some.injEq] at found
          rw [← found, packed] at packed'
          exact Except.ok.inj packed'
      · next differs =>
        rw [h.object]
        refine exists_congr fun r => exists_congr fun b => ?_
        by_cases new : r = range u.batch
        · have other : ¬name = t.batchPath r.1 r.2 := by
            rw [new]
            exact differs
          simp [other]
        · rw [Function.update_of_ne new]
  · rw [Archive.record, if_neg lost, same]
    exact h

theorem published_mirrors (uploads : List Upload) (typed : ∀ u ∈ uploads, u.batch.Typed) :
    t.Mirrors C (recorded C uploads) (t.published C uploads) := by
  have run (archive : Archive) (objects : Bucket Bytes) (h : t.Mirrors C archive objects) :
      t.Mirrors C (uploads.foldl (Archive.record C) archive)
        (uploads.foldl (fun objects u => (t.publish C u.batch u.fault objects).2) objects) := by
    induction uploads generalizing archive objects with
    | nil => exact h
    | cons u rest ih =>
      exact ih (fun v member => typed v (List.mem_cons_of_mem u member)) _ _
        (mirrors_publish archive objects h u (typed u List.mem_cons_self))
  exact run _ _ mirrors_empty

/-- The batch files of the bucket. -/
def files (objects : Bucket Bytes) : List BatchFile :=
  batchFiles (objects.list t.client.batchesFolder)

variable {archive : Archive} {objects : Bucket Bytes} (h : t.Mirrors C archive objects)

include h in
theorem mem_files (file : BatchFile) : file ∈ t.files objects ↔
    ∃ r b, archive r = some b ∧ file = ⟨r.1, r.2, t.batchPath r.1 r.2⟩ := by
  rw [files, batchFiles, List.mem_mergeSort, List.mem_filterMap]
  constructor
  · intro listed
    obtain ⟨name, member, named⟩ := listed
    obtain ⟨⟨data, found⟩, -⟩ := (Bucket.mem_list _ _ _).mp member
    obtain ⟨r, b, kept, rfl, -⟩ := (h.object name data).mp found
    rw [batchPath, t.client.batchFile_batchPath, Option.some.injEq] at named
    exact ⟨r, b, kept, named.symm⟩
  · intro kept
    obtain ⟨r, b, kept, rfl⟩ := kept
    obtain ⟨-, -, data, packed⟩ := h.own r b kept
    exact ⟨t.batchPath r.1 r.2, (Bucket.mem_list _ _ _).mpr
      ⟨⟨data, (h.object _ data).mpr ⟨r, b, kept, rfl, packed⟩⟩,
        t.client.folder_of_batchPath r.1 r.2⟩,
      t.client.batchFile_batchPath r.1 r.2⟩

theorem files_ordered (objects : Bucket Bytes) :
    (t.files objects).Pairwise fun f g => f.startSequence ≤ g.startSequence := by
  have sorted : (t.files objects).Pairwise fun f g => f.startsBy g :=
    List.pairwise_mergeSort startsBy_trans startsBy_total _
  exact sorted.imp of_decide_eq_true

theorem files_nodup (objects : Bucket Bytes) : ((t.files objects).map BatchFile.path).Nodup := by
  have names : (((objects.list t.client.batchesFolder).filterMap batchFile).map
      BatchFile.path).Sublist (objects.list t.client.batchesFolder) := paths_sublist _
  exact ((List.mergeSort_perm _ _).map _).nodup_iff.mpr
    (List.Nodup.sublist names (Bucket.list_nodup objects t.client.batchesFolder))

theorem decodes (lossless : C.Lossless) (b : CborBatch) (typed : b.Typed) (data : Bytes)
    (packed : b.toCborZstd C = .ok data) : CborBatch.fromCborZstd C data = .ok b := by
  obtain ⟨cbor, written, zstd⟩ := (Outcome.bind_ok _ _ _).mp packed
  rw [CborBatch.fromCborZstd, lossless.inflates cbor data zstd, Outcome.ok_bind, CborBatch.fromCbor,
    lossless.reads _ cbor written, Outcome.ok_bind]
  exact CborBatch.fromWire_toWire b typed

include h in
/-- The object of a listed file is there, and decodes to the batch last published for the range. -/
theorem read_file (lossless : C.Lossless) (file : BatchFile) (listed : file ∈ t.files objects) :
    ∃ b data, archive (file.startSequence, file.endSequence) = some b ∧
      range b = (file.startSequence, file.endSequence) ∧
      objects.read file.path = some data ∧ CborBatch.fromCborZstd C data = .ok b := by
  obtain ⟨r, b, kept, rfl⟩ := (mem_files h file).mp listed
  obtain ⟨own, typed, data, packed⟩ := h.own r b kept
  exact ⟨b, data, kept, own, (h.object _ data).mpr ⟨r, b, kept, rfl, packed⟩,
    decodes lossless b typed data packed⟩

theorem latest_cases (objects : Bucket Bytes) :
    t.files objects = [] ∧ ((t.files objects).map BatchFile.endSequence).max? = none ∨
    ∃ file ∈ t.files objects, ((t.files objects).map BatchFile.endSequence).max? =
      some file.endSequence ∧ ∀ other ∈ t.files objects, other.endSequence ≤ file.endSequence := by
  -- the rows that a start of the sequencer would read
  let rows : StorageInner :=
    .Memory ((t.files objects).map fun file => ⟨file.startSequence, file.endSequence⟩)
  have ends : rows.latestSequence = ((t.files objects).map BatchFile.endSequence).max? :=
    congrArg List.max? (List.map_map ..)
  rcases (t.files objects).eq_nil_or_concat with empty | ⟨front, last, split⟩
  · exact .inl ⟨empty, by rw [empty]; rfl⟩
  · refine .inr ?_
    have bound (file : BatchFile) (listed : file ∈ t.files objects) :=
      Node.le_latestSequence rows ⟨file.startSequence, file.endSequence⟩
        (List.mem_map_of_mem listed)
    obtain ⟨latest, member, found, -⟩ := bound last (by simp [split])
    obtain ⟨row, stored, rfl⟩ := List.mem_map.mp member
    obtain ⟨file, listed, rfl⟩ := List.mem_map.mp stored
    refine ⟨file, listed, ends ▸ found, ?_⟩
    intro other listed'
    obtain ⟨latest', -, found', le⟩ := bound other listed'
    obtain rfl : file.endSequence = latest' := Option.some.inj (found.symm.trans found')
    exact le

variable (C t)

/-- The answers of the transport are those of the archive. -/
structure Serves (archive : Archive) (objects : Bucket Bytes) : Prop where
  listed : ∃ files, t.listBatchFiles .none objects = .ok files ∧
    (files.Pairwise fun f g => f.startSequence ≤ g.startSequence) ∧
      (files.map BatchFile.path).Nodup ∧
    ∀ file, file ∈ files ↔ file.path = t.batchPath file.startSequence file.endSequence ∧
      (archive (file.startSequence, file.endSequence)).isSome
  batches : ∀ files, t.listBatchFiles .none objects = .ok files → t.listBatches .none objects =
    .ok (files.map fun file => ⟨file.startSequence, file.endSequence,
      "gs://" ++ t.client.bucket ++ "/" ++ file.path, List.replicate 32 0⟩)
  latest : (∀ r, archive r = none) ∧ t.getLatestSequence .none objects = .ok none ∨
    ∃ r, (archive r).isSome ∧ t.getLatestSequence .none objects = .ok (some r.2) ∧
      ∀ r', (archive r').isSome → r'.2 ≤ r.2
  fetched : ∀ start, (∀ e, archive (start, e) = none) ∧ t.fetch C .none start objects = .ok none ∨
    ∃ e b, archive (start, e) = some b ∧ t.fetch C .none start objects = .ok (some b)
  found : ∀ n, (∀ r, (archive r).isSome → ¬(r.1 ≤ n ∧ n ≤ r.2)) ∧
      t.getMessage X C .none n objects = .ok none ∨
    ∃ r b, archive r = some b ∧ r.1 ≤ n ∧ n ≤ r.2 ∧
      t.getMessage X C .none n objects = .ok (Local.messageOf X b n)
  /-- Requests that fail hide batches, but do not change them. -/
  faulty : ∀ faults, (∀ start b, t.fetch C faults start objects = .ok (some b) →
      t.fetch C .none start objects = .ok (some b)) ∧
    ∀ n m, t.getMessage X C faults n objects = .ok (some m) → t.getMessage X C .none n objects =
      .ok (some m)

variable {C t}

theorem fetch_none (start : UInt64) (objects : Bucket Bytes) : t.fetch C .none start objects =
    match (t.files objects).find? fun file => file.startSequence = start with
    | none => .ok none
    | some file =>
        match objects.read file.path with
        | none => .ok none
        | some data => do
            let batch ← serialized (CborBatch.fromCborZstd C data)
            return some batch := rfl

theorem getMessage_none (n : UInt64) (objects : Bucket Bytes) : t.getMessage X C .none n objects =
    match ((t.files objects).find? fun file =>
        file.startSequence ≤ n ∧ n ≤ file.endSequence).map BatchFile.path with
    | none => .ok none
    | some path =>
        match objects.read path with
        | none => .ok none
        | some data => do
            let batch ← serialized (CborBatch.fromCborZstd C data)
            return Local.messageOf X batch n := rfl

/-- Something is only read where no request fails. -/
theorem download_some (faults : Faults) (path : String) (objects : Bucket Bytes) (data : Bytes)
    (h : download faults path objects = .ok (some data)) : faults.read = none := by
  unfold download stored StorageClient.read at h
  split at h
  · next faultless => exact faultless
  · split at h
    · cases h
    · cases h
  · split at h
    · cases h
    · cases h

theorem listBatchFiles_ok (faults : Faults) (objects : Bucket Bytes) (found : List BatchFile)
    (h : t.listBatchFiles faults objects = .ok found) : faults.list = none := by
  unfold GcsTransport.listBatchFiles stored StorageClient.list at h
  split at h
  · next faultless => exact faultless
  · cases h

theorem fetch_faultless (faults : Faults) (start : UInt64) (objects : Bucket Bytes) (b : CborBatch)
    (h : t.fetch C faults start objects = .ok (some b)) : faults = .none := by
  obtain ⟨found, listed, rest⟩ := (Outcome.bind_ok _ _ _).mp h
  have list := listBatchFiles_ok faults objects found listed
  split at rest
  · cases rest
  · obtain ⟨data, downloaded, rest⟩ := (Outcome.bind_ok _ _ _).mp rest
    cases data with
    | none => cases rest
    | some data =>
      exact congr (congrArg Faults.mk list) (download_some faults _ objects data downloaded)

theorem getMessage_faultless (faults : Faults) (n : UInt64) (objects : Bucket Bytes)
    (m : CborSignedMessage)
    (h : t.getMessage X C faults n objects = .ok (some m)) : faults = .none := by
  obtain ⟨path, found, rest⟩ := (Outcome.bind_ok _ _ _).mp h
  obtain ⟨listing, listed, -⟩ := (Outcome.bind_ok _ _ _).mp found
  have list := listBatchFiles_ok faults objects listing listed
  cases path with
  | none => cases rest
  | some path =>
    obtain ⟨data, downloaded, rest⟩ := (Outcome.bind_ok _ _ _).mp rest
    cases data with
    | none => cases rest
    | some data =>
      exact congr (congrArg Faults.mk list) (download_some faults _ objects data downloaded)

include h in
theorem mirrors_serves (lossless : C.Lossless) : t.Serves X C archive objects where
  listed := by
    refine ⟨t.files objects, rfl, files_ordered objects, files_nodup objects, ?_⟩
    intro file
    rw [mem_files h, Option.isSome_iff_exists]
    constructor
    · intro listed
      obtain ⟨r, b, kept, rfl⟩ := listed
      exact ⟨rfl, b, kept⟩
    · intro own
      obtain ⟨path, b, kept⟩ := own
      exact ⟨_, b, kept, by rw [← path]⟩
  batches := by
    intro files listed
    rw [listBatches, listed]
    rfl
  latest := by
    have answer :
        t.getLatestSequence .none objects =
          .ok ((t.files objects).map BatchFile.endSequence).max? := rfl
    have member (r : UInt64 × UInt64) (kept : (archive r).isSome) :
        ⟨r.1, r.2, t.batchPath r.1 r.2⟩ ∈ t.files objects := by
      obtain ⟨b, kept⟩ := Option.isSome_iff_exists.mp kept
      exact (mem_files h _).mpr ⟨r, b, kept, rfl⟩
    rcases latest_cases (t := t) objects with ⟨empty, none⟩ | ⟨file, listed, greatest, le⟩
    · refine .inl ⟨?_, answer.trans (congrArg Except.ok none)⟩
      intro r
      rw [← Option.not_isSome_iff_eq_none]
      intro kept
      have listed := member r kept
      rw [empty] at listed
      cases listed
    · obtain ⟨r, b, kept, rfl⟩ := (mem_files h file).mp listed
      refine .inr ⟨r, by rw [kept]; rfl, answer.trans (congrArg Except.ok greatest), ?_⟩
      intro r' kept'
      exact le _ (member r' kept')
  fetched := by
    intro start
    rw [fetch_none]
    cases search : (t.files objects).find? fun file => file.startSequence = start with
    | none =>
      refine .inl ⟨?_, rfl⟩
      intro e
      rw [Option.eq_none_iff_forall_ne_some]
      intro b kept
      have listed := (mem_files h _).mpr ⟨(start, e), b, kept, rfl⟩
      simpa using List.find?_eq_none.mp search _ listed
    | some file =>
      obtain ⟨b, data, kept, -, stored, decoded⟩ :=
        read_file h lossless file (List.mem_of_find?_eq_some search)
      have begins : file.startSequence = start := by simpa using List.find?_some search
      refine .inr ⟨file.endSequence, b, begins ▸ kept, ?_⟩
      simp only [stored, decoded]
      rfl
  found := by
    intro n
    rw [getMessage_none]
    cases search : (t.files objects).find? fun file => file.startSequence ≤ n ∧ n ≤
      file.endSequence with
    | none =>
      refine .inl ⟨?_, rfl⟩
      intro r kept covers
      obtain ⟨b, kept⟩ := Option.isSome_iff_exists.mp kept
      have listed := (mem_files h _).mpr ⟨r, b, kept, rfl⟩
      simpa [covers] using List.find?_eq_none.mp search _ listed
    | some file =>
      obtain ⟨b, data, kept, -, stored, decoded⟩ :=
        read_file h lossless file (List.mem_of_find?_eq_some search)
      have covers : file.startSequence ≤ n ∧ n ≤ file.endSequence :=
        by simpa using List.find?_some search
      refine .inr ⟨_, b, kept, covers.1, covers.2, ?_⟩
      simp only [Option.map_some, stored, decoded]
      rfl
  faulty := by
    intro faults
    constructor
    · intro start b answered
      obtain rfl := fetch_faultless faults start objects b answered
      exact answered
    · intro n m answered
      obtain rfl := getMessage_faultless X faults n objects m answered
      exact answered

/-- What `publish` acknowledges is in the bucket. -/
theorem acknowledged (u : Upload) (objects : Bucket Bytes) (metadata : PublishMetadata)
    (h : (t.publish C u.batch u.fault objects).1 = .ok metadata) : u.Arrives C := by
  unfold GcsTransport.publish serialized at h
  unfold Upload.Arrives
  cases plain : u.batch.toCbor C with
  | error e =>
    rw [plain] at h
    cases h
  | ok uncompressed =>
    cases packed : u.batch.toCborZstd C with
    | error e =>
      rw [plain, packed] at h
      cases h
    | ok compressed =>
      cases fault : u.fault with
      | none => simp [Except.isOk, Except.toBool]
      | some failure =>
        rw [plain, packed, fault] at h
        cases h

theorem recorded_others (uploads : List Upload) (archive : Archive) (r : UInt64 × UInt64)
    (others : ∀ u ∈ uploads, u.Arrives C → range u.batch ≠ r) :
    uploads.foldl (Archive.record C) archive r = archive r := by
  induction uploads generalizing archive with
  | nil => rfl
  | cons u rest ih =>
    rw [List.foldl_cons, ih _ fun v member => others v (List.mem_cons_of_mem u member),
      Archive.record]
    split
    · next arrives => exact Function.update_of_ne (others u List.mem_cons_self arrives).symm _ _
    · rfl

/-- After any calls of `publish`, with any failures of uploads, the transport serves the batch last
published for each range, and no acknowledged batch is lost before another one of its range. -/
theorem gcs_serves_last_published (lossless : C.Lossless) (t : GcsTransport) (uploads : List Upload)
    (typed : ∀ u ∈ uploads, u.batch.Typed) :
    t.Serves X C (recorded C uploads) (t.published C uploads) ∧
    ∀ before u after metadata, uploads = before ++ u :: after →
      (t.publish C u.batch u.fault (t.published C before)).1 = .ok metadata →
      (∀ v ∈ after, v.Arrives C → range v.batch ≠ range u.batch) →
      recorded C uploads (range u.batch) = some u.batch := by
  refine ⟨mirrors_serves X (published_mirrors uploads typed) lossless, ?_⟩
  intro before u after metadata split answered others
  have arrives := acknowledged u _ metadata answered
  rw [recorded, split, List.foldl_append, List.foldl_cons, recorded_others after _ _ others,
    Archive.record, if_pos arrives]
  exact Function.update_self ..

def sampleTransport : GcsTransport := ⟨⟨"synddb", "sequencer"⟩⟩

/-- The first upload gets through although its answer is lost. -/
def sampleUploads : List Upload :=
  [⟨Sample.builtBatch, some ("timed out", true)⟩, ⟨Sample.builtBatch, none⟩]

theorem sample_batch (u : Upload) (member : u ∈ sampleUploads) : u.batch = Sample.builtBatch := by
  rcases List.mem_pair.mp member with rfl | rfl
  · rfl
  · rfl

theorem sample_typed (u : Upload) (member : u ∈ sampleUploads) : u.batch.Typed := by
  rw [sample_batch u member]
  exact ⟨by decide, by decide, by decide⟩

theorem sample_arrives (u : Upload) (member : u ∈ sampleUploads) : u.Arrives Sample.codec := by
  have known (wire : CborBatchWire) : (Sample.recordedCodec [wire]).intoWriter wire =
    .ok wire.encode :=
    if_pos List.mem_cons_self
  have written : Sample.builtBatch.toCbor Sample.codec = .ok Sample.builtCbor :=
    known Sample.builtBatch.toWire
  have packed : Sample.builtBatch.toCborZstd Sample.codec =
      .ok (zstdRawFrame Sample.builtCbor) := by
    rw [CborBatch.toCborZstd, written]
    rfl
  refine ⟨by rw [sample_batch u member, written]; rfl,
    by rw [sample_batch u member, packed]; rfl, ?_⟩
  intro e arrived fault
  rcases List.mem_pair.mp member with rfl | rfl
  · exact (Prod.mk.inj (Option.some.inj fault)).2.symm
  · cases fault

theorem sample_recorded :
    recorded Sample.codec sampleUploads =
      fun r => if r = (0, 1) then some Sample.builtBatch else none := by
  have record (u : Upload) (member : u ∈ sampleUploads) (archive : Archive) :
      archive.record Sample.codec u = Function.update archive (0, 1) (some Sample.builtBatch) := by
    rw [Archive.record, if_pos (sample_arrives u member), sample_batch u member]
    rfl
  rw [recorded, sampleUploads, List.foldl_cons, List.foldl_cons, List.foldl_nil,
    record _ (by simp [sampleUploads]), record _ (by simp [sampleUploads]), Function.update_idem]
  funext r
  exact Function.update_apply ..

theorem gcs_serves_last_published_repeated :
    sampleTransport.fetch Sample.codec .none 0
      (sampleTransport.published Sample.codec sampleUploads) =
      .ok (some Sample.builtBatch) := by
  obtain ⟨serves, -⟩ :=
    gcs_serves_last_published Sample.record.externals Sample.codec_lossless sampleTransport
    sampleUploads sample_typed
  rw [sample_recorded] at serves
  rcases serves.fetched 0 with ⟨missing, -⟩ | ⟨e, b, found, answered⟩
  · exact absurd (missing 1) (by simp)
  · split at found
    · rw [answered, Option.some.inj found]
    · cases found

end GcsTransport

end SyndDB.Sequencer.Gcs
