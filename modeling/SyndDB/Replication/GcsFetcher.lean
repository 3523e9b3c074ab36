import Mathlib.Data.List.Find
import SyndDB.Replication.Coherence
import SyndDB.Replication.Storage
import SyndDB.Sequencer.GcsTransport

namespace SyndDB.Replication.Gcs

open Octets Text Shared ObjectStore
open Sequencer.Gcs

variable (X : Externals) (C : Codec)

structure GcsFetcher where
  client : StorageClient
  deriving DecidableEq

/-- An error is reported by what was tried. -/
def context {ε α : Type} (text : String) (result : Except ε α) : Except String α :=
  result.mapError fun _ => text

def info (file : BatchFile) : BatchInfo := ⟨file.startSequence, file.endSequence, file.path⟩

/-- The beginning of the names of batches that start with a sequence. -/
def startPath (client : StorageClient) (startSequence : UInt64) : String :=
  client.batchesFolder ++ asText (paddedDecimal 12 startSequence.toNat ++ [underscore])

namespace GcsFetcher

variable (f : GcsFetcher)

def download (faults : Shared.Faults) (path : String) (objects : Bucket Bytes) :
    Except String (Option Bytes) :=
  context "Failed to download from GCS" (StorageClient.read faults.read path objects)

def listBatches (faults : Shared.Faults) (objects : Bucket Bytes) :
    Except String (List BatchInfo) := do
  let names ← context "Failed to list batch objects"
    (StorageClient.list faults.list f.client.batchesFolder objects)
  return (batchFiles names).map info

def convert (path : String) (data : Bytes) : Except String SignedBatch := do
  let cborBatch ← context ("Failed to decompress/parse CBOR batch at " ++ path)
    (CborBatch.fromCborZstd C data)
  context ("Failed to convert CBOR batch at " ++ path) (cborBatch.toSignedBatch X)

def getBatchByPath (faults : Shared.Faults) (path : String) (objects : Bucket Bytes) :
    Except String (Option SignedBatch) := do
  match ← download faults path objects with
  | none => return none
  | some data =>
      let batch ← convert X C path data
      return some batch

def getBatch (faults : Shared.Faults) (startSequence : UInt64) (objects : Bucket Bytes) :
    Except String (Option SignedBatch) := do
  let found ← context "Failed to list batch objects"
    (StorageClient.listOne faults.list (startPath f.client startSequence) objects)
  match found with
  | none => return none
  | some name => getBatchByPath X C faults name objects

def findBatchContaining (faults : Shared.Faults) (sequence : UInt64) (objects : Bucket Bytes) :
    Except String (Option SignedBatch) := do
  let batches ← f.listBatches faults objects
  match batches.find? fun info => info.contains sequence with
  | none => return none
  | some info => getBatchByPath X C faults info.path objects

def get (faults : Shared.Faults) (sequence : UInt64) (objects : Bucket Bytes) :
    Except String (Option SignedMessage) := do
  match ← f.findBatchContaining X C faults sequence objects with
  | none => return none
  | some batch => return batch.messages.find? fun m => m.sequence = sequence

def getLatestSequence (faults : Shared.Faults) (objects : Bucket Bytes) :
    Except String (Option UInt64) := do
  let batches ← f.listBatches faults objects
  return (batches.map BatchInfo.endSequence).max?

/-- What a validator with this fetcher sees. -/
def fetcher (objects : Bucket Bytes) : Fetcher where
  listBatches := f.listBatches .none objects
  getBatchByPath path := getBatchByPath X C .none path objects
  get sequence := f.get X C .none sequence objects
  getLatestSequence := f.getLatestSequence .none objects

end GcsFetcher

theorem digits_plain (n : Nat) : ∀ c ∈ (asText (paddedDecimal 12 n)).toList, c ≠ '_' := by
  intro c member
  rw [asText, String.toList_ofList] at member
  obtain ⟨b, digit, rfl⟩ := List.mem_map.mp member
  have range := (decimalDigit_isSome b).mp (paddedDecimal_digits 12 n b digit)
  intro same
  have value := congrArg Char.toNat same
  rw [toNat_ofByte] at value
  have underscore_value : '_'.toNat = 95 := rfl
  omega

theorem utf8_digits (n : Nat) : utf8 (asText (paddedDecimal 12 n)) = paddedDecimal 12 n := by
  refine utf8_asText _ fun b digit => ?_
  have range := (decimalDigit_isSome b).mp (paddedDecimal_digits 12 n b digit)
  omega

/-- The digits end at the underscore, so that no number is taken for the beginning of another. -/
theorem startPath_iff (client : StorageClient) (start s e : UInt64) :
    (startPath client start).toList <+: (client.batchPath s e).toList ↔ s = start := by
  have name (bytes rest : Bytes) : (asText (bytes ++ underscore :: rest)).toList =
      (asText bytes).toList ++ '_' :: (asText rest).toList := by
    simp only [asText, String.toList_ofList, List.map_append, List.map_cons]
    rfl
  have number (n : Nat) (rest : List Char) :
      ((asText (paddedDecimal 12 n)).toList ++ '_' :: rest).takeWhile (fun c => decide (c ≠ '_')) =
        (asText (paddedDecimal 12 n)).toList := by
    rw [List.takeWhile_append_of_pos fun c member => decide_eq_true (digits_plain n c member)]
    simp
  rw [startPath, StorageClient.batchPath, String.toList_append, String.toList_append,
    List.prefix_append_right_inj, fileName, formatBatchFilename, List.append_assoc,
    List.cons_append,
    name, name]
  constructor
  · intro begins
    obtain ⟨rest, whole⟩ := begins
    rw [List.append_assoc, List.cons_append] at whole
    have same := congrArg (List.takeWhile fun c => decide (c ≠ '_')) whole
    rw [number, number] at same
    have digits := congrArg utf8 (String.toList_injective same)
    rw [utf8_digits, utf8_digits, paddedDecimal_inj] at digits
    exact (UInt64.toNat_inj.mp digits).symm
  · intro same
    rw [same]
    refine List.prefix_append_right_inj _ |>.mpr ?_
    exact ⟨_, rfl⟩

/-- Among related lists the first elements that satisfy related conditions are related. -/
theorem find_related {α β : Type} {R : α → β → Prop} {p : α → Bool} {q : β → Bool} {xs : List α}
    {ys : List β} (related : List.Forall₂ R xs ys) (same : ∀ x y, R x y → p x = q y) :
    Option.Rel R (xs.find? p) (ys.find? q) := by
  induction related with
  | nil => exact .none
  | @cons x y xs ys first _ ih =>
    rw [List.find?_cons, List.find?_cons, same x y first]
    cases q y with
    | true => exact .some first
    | false => exact ih

/-- A message of a converted batch is the message of the batch that has its number. -/
theorem message_of_converted (b : CborBatch) (batch : SignedBatch)
    (converted : b.toSignedBatch X = .ok batch)
    (n : UInt64) : Option.Rel (fun m message => m.toSignedMessage X b.pubkey = .ok message)
      (Sequencer.Local.messageOf X b n) (batch.messages.find? fun m => m.sequence = n) := by
  obtain ⟨-, -, -, -, messages⟩ := toSignedBatch_ok X b batch converted
  refine find_related messages ?_
  intro m message verified
  obtain ⟨parsed, header, accepted, -, rfl⟩ :=
    (toSignedMessage_unchecked X m b.pubkey message).mp verified
  rw [sequence_of_verified X m b.pubkey parsed accepted]
  exact decide_eq_decide.mpr Option.some_inj

variable {C} {t : GcsTransport} {archive : Archive} {objects : Bucket Bytes}
  (h : t.Mirrors C archive objects)

include h in
/-- The first name with the start is that of the file that the transport picks. -/
theorem list_startPath (start : UInt64) : (objects.list (startPath t.client start)).head? =
    ((t.files objects).find? fun file => file.startSequence = start).map BatchFile.path := by
  have tied (f g : BatchFile) (hf : decide (f.startSequence = start) = true)
      (hg : decide (g.startSequence = start) = true) : f.startsBy g := by
    rw [decide_eq_true_eq] at hf hg
    exact decide_eq_true (by rw [hf, hg]; exact UInt64.le_refl _)
  rw [GcsTransport.files, batchFiles, find_mergeSort _ startsBy_trans startsBy_total _ _ tied,
    List.find?_filterMap, Bucket.list, Bucket.list, List.head?_filter, List.find?_filter]
  have same : ∀ name ∈ objects.objects.map Object.name,
      (startPath t.client start).toList.isPrefixOf name.toList =
        decide (t.client.batchesFolder.toList.isPrefixOf name.toList = true ∧
          ((batchFile name).any fun file => file.startSequence = start) = true) := by
    intro name member
    obtain ⟨⟨_, data⟩, kept, rfl⟩ := List.mem_map.mp member
    obtain ⟨r, b, -, rfl, -⟩ := (h.object _ data).mp ((Bucket.read_eq_some _ _ _).mpr kept)
    rw [Bool.eq_iff_iff, decide_eq_true_eq, List.isPrefixOf_iff_prefix, List.isPrefixOf_iff_prefix]
    dsimp only
    rw [GcsTransport.batchPath, startPath_iff, t.client.batchFile_batchPath, Option.any_some,
      decide_eq_true_eq]
    exact (and_iff_right (t.client.folder_of_batchPath r.1 r.2)).symm
  rw [← List.find?_congr same]
  cases found : (objects.objects.map Object.name).find? fun name =>
      (startPath t.client start).toList.isPrefixOf name.toList with
  | none => rfl
  | some name =>
    obtain ⟨⟨_, data⟩, kept, rfl⟩ := List.mem_map.mp (List.mem_of_find?_eq_some found)
    obtain ⟨r, b, -, rfl, -⟩ := (h.object _ data).mp ((Bucket.read_eq_some _ _ _).mpr kept)
    rw [Option.bind_some, GcsTransport.batchPath, t.client.batchFile_batchPath]
    rfl

include h in
/-- The batch of a listed file, as the transport and the fetcher get it. -/
theorem getBatchByPath_file (lossless : C.Lossless) (file : BatchFile)
    (listed : file ∈ t.files objects) :
    ∃ b data, archive (file.startSequence, file.endSequence) = some b ∧
      objects.read file.path = some data ∧ CborBatch.fromCborZstd C data = .ok b ∧
      GcsFetcher.getBatchByPath X C .none file.path objects =
        (context ("Failed to convert CBOR batch at " ++ file.path)
          (b.toSignedBatch X)).map some := by
  obtain ⟨b, data, kept, -, found, decoded⟩ := GcsTransport.read_file h lossless file listed
  refine ⟨b, data, kept, found, decoded, ?_⟩
  have downloaded : GcsFetcher.download .none file.path objects = .ok (some data) :=
    congrArg Except.ok found
  have converted : GcsFetcher.convert X C file.path data =
      context ("Failed to convert CBOR batch at " ++ file.path) (b.toSignedBatch X) := by
    rw [GcsFetcher.convert, decoded]
    rfl
  rw [GcsFetcher.getBatchByPath, downloaded, Outcome.ok_bind]
  dsimp only
  rw [converted]
  rfl

variable (C t)

/-- The fetcher and the transport answer alike. The fetcher hands out converted batches, also by the
path of a file that the transport lists. -/
structure Agrees (archive : Archive) (objects : Bucket Bytes) : Prop where
  listed : ∃ files, t.listBatchFiles .none objects = .ok files ∧
    GcsFetcher.listBatches ⟨t.client⟩ .none objects = .ok (files.map info)
  latest : ∃ latest, t.getLatestSequence .none objects = .ok latest ∧
    GcsFetcher.getLatestSequence ⟨t.client⟩ .none objects = .ok latest
  fetched : ∀ start, t.fetch C .none start objects = .ok none ∧
      GcsFetcher.getBatch X C ⟨t.client⟩ .none start objects = .ok none ∨
    ∃ e b, archive (start, e) = some b ∧ t.fetch C .none start objects = .ok (some b) ∧
      GcsFetcher.getBatch X C ⟨t.client⟩ .none start objects = (context
        ("Failed to convert CBOR batch at " ++ t.batchPath start e) (b.toSignedBatch X)).map some
  found : ∀ n, t.getMessage X C .none n objects = .ok none ∧
      GcsFetcher.get X C ⟨t.client⟩ .none n objects = .ok none ∨
    ∃ r b, archive r = some b ∧ r.1 ≤ n ∧ n ≤ r.2 ∧
      t.getMessage X C .none n objects = .ok (Sequencer.Local.messageOf X b n) ∧
      GcsFetcher.get X C ⟨t.client⟩ .none n objects = (context
        ("Failed to convert CBOR batch at " ++ t.batchPath r.1 r.2) (b.toSignedBatch X)).map
          (fun batch => batch.messages.find? fun m => m.sequence = n) ∧
      ∀ batch, b.toSignedBatch X = .ok batch →
        Option.Rel (fun m message => m.toSignedMessage X b.pubkey = .ok message)
          (Sequencer.Local.messageOf X b n) (batch.messages.find? fun m => m.sequence = n)
  located : ∀ file ∈ t.files objects, ∃ b, archive (file.startSequence, file.endSequence) = some b ∧
    GcsFetcher.getBatchByPath X C .none file.path objects = (context
      ("Failed to convert CBOR batch at " ++ file.path) (b.toSignedBatch X)).map some

variable {C t}

theorem get_none (n : UInt64) (objects : Bucket Bytes) :
    GcsFetcher.get X C ⟨t.client⟩ .none n objects =
      match (t.files objects).find? fun file => file.startSequence ≤ n ∧ n ≤ file.endSequence with
      | none => .ok none
      | some file => do
          match ← GcsFetcher.getBatchByPath X C .none file.path objects with
          | none => return none
          | some batch => return batch.messages.find? fun m => m.sequence = n := by
  have same : ((fun i : BatchInfo => i.contains n) ∘ info) =
      fun file : BatchFile => decide (file.startSequence ≤ n ∧ n ≤ file.endSequence) := by
    funext file
    exact (Bool.decide_and _ _).symm
  have listed : GcsFetcher.listBatches ⟨t.client⟩ .none objects =
    .ok ((t.files objects).map info) := rfl
  rw [GcsFetcher.get, GcsFetcher.findBatchContaining, listed, Outcome.ok_bind, List.find?_map, same]
  cases (t.files objects).find? fun file => file.startSequence ≤ n ∧ n ≤ file.endSequence with
  | none => rfl
  | some file => rfl

include h in
theorem mirrors_agrees (lossless : C.Lossless) : Agrees X C t archive objects where
  listed := ⟨t.files objects, rfl, rfl⟩
  latest := ⟨_, rfl, congrArg (fun ends => Except.ok (List.max? ends)) (List.map_map ..)⟩
  fetched := by
    intro start
    have name := list_startPath h start
    have one : GcsFetcher.getBatch X C ⟨t.client⟩ .none start objects =
        match (objects.list (startPath t.client start)).head? with
        | none => .ok none
        | some name => GcsFetcher.getBatchByPath X C .none name objects := rfl
    rw [one, GcsTransport.fetch_none, name]
    cases search : (t.files objects).find? fun file => file.startSequence = start with
    | none => exact .inl ⟨rfl, rfl⟩
    | some file =>
      have listed := List.mem_of_find?_eq_some search
      obtain ⟨r, b, kept, rfl⟩ := (GcsTransport.mem_files h file).mp listed
      obtain ⟨b', data, kept', stored, decoded, got⟩ := getBatchByPath_file X h lossless _ listed
      obtain rfl : b = b' := Option.some.inj (kept.symm.trans kept')
      obtain rfl : r.1 = start := by simpa using List.find?_some search
      refine .inr ⟨r.2, b, kept, ?_, got⟩
      simp only [stored, decoded]
      rfl
  found := by
    intro n
    rw [GcsTransport.getMessage_none, get_none]
    cases search : (t.files objects).find? fun file => file.startSequence ≤ n ∧ n ≤
      file.endSequence with
    | none => exact .inl ⟨rfl, rfl⟩
    | some file =>
      have listed := List.mem_of_find?_eq_some search
      obtain ⟨r, b, kept, rfl⟩ := (GcsTransport.mem_files h file).mp listed
      obtain ⟨b', data, kept', stored, decoded, got⟩ := getBatchByPath_file X h lossless _ listed
      obtain rfl : b = b' := Option.some.inj (kept.symm.trans kept')
      have covers : r.1 ≤ n ∧ n ≤ r.2 := by simpa using List.find?_some search
      refine .inr ⟨r, b, kept, covers.1, covers.2, ?_, ?_, fun batch converted =>
        message_of_converted X b batch converted n⟩
      · simp only [Option.map_some, stored, decoded]
        rfl
      · dsimp only at got ⊢
        rw [got]
        cases b.toSignedBatch X with
        | error e => rfl
        | ok batch => rfl
  located := by
    intro file listed
    obtain ⟨b, data, kept, -, -, got⟩ := getBatchByPath_file X h lossless file listed
    exact ⟨b, kept, got⟩

/-- A batch of the archive under the path of its file, converted. -/
def Converts (archive : Archive) (file : BatchFile) (s : Stored) : Prop :=
  s.path = file.path ∧ ∃ b, archive (file.startSequence, file.endSequence) = some b ∧
    range b = (file.startSequence, file.endSequence) ∧ b.toSignedBatch X = .ok s.batch

variable {X}

theorem Converts.info_eq {file : BatchFile} {s : Stored} (converts : Converts X archive file s) :
    info file = s.info := by
  obtain ⟨path, b, -, own, converted⟩ := converts
  obtain ⟨start, finish, -⟩ := toSignedBatch_ok X b s.batch converted
  obtain ⟨startFile, finishFile⟩ := Prod.mk.inj own
  rw [Stored.info, start, finish, path, startFile, finishFile]
  rfl

theorem map_related {α β γ : Type} {R : α → β → Prop} {f : α → γ} {g : β → γ} {xs : List α}
    {ys : List β}
    (related : List.Forall₂ R xs ys) (same : ∀ x y, R x y → f x = g y) : xs.map f = ys.map g := by
  induction related with
  | nil => rfl
  | cons first _ ih => rw [List.map_cons, List.map_cons, same _ _ first, ih]

theorem find_own_path (stored : List Stored) (paths : (stored.map Stored.path).Nodup) (s : Stored)
    (member : s ∈ stored) : stored.find? (fun t => t.path = s.path) = some s := by
  obtain ⟨pre, post, rfl⟩ := List.append_of_mem member
  exact find_path pre s post paths

/-- Related lists are there if every element has a partner. -/
theorem exists_related {α β : Type} {R : α → β → Prop} (xs : List α) (each : ∀ x ∈ xs, ∃ y, R x y) :
    ∃ ys, List.Forall₂ R xs ys := by
  induction xs with
  | nil => exact ⟨[], .nil⟩
  | cons x xs ih =>
    obtain ⟨y, own⟩ := each x List.mem_cons_self
    obtain ⟨ys, rest⟩ := ih fun other member => each other (List.mem_cons_of_mem x member)
    exact ⟨y :: ys, .cons own rest⟩

include h in
theorem exists_stored (lossless : C.Lossless)
    (convertible : ∀ r b, archive r = some b → ∃ batch, b.toSignedBatch X = .ok batch) :
    ∃ stored, List.Forall₂ (Converts X archive) (t.files objects) stored := by
  refine exists_related _ fun file listed => ?_
  obtain ⟨b, data, kept, own, -⟩ := GcsTransport.read_file h lossless file listed
  obtain ⟨batch, converted⟩ := convertible _ b kept
  exact ⟨⟨file.path, batch⟩, rfl, b, kept, own, converted⟩

section Stored

variable {stored : List Stored}
  (related : List.Forall₂ (Converts X archive) (t.files objects) stored)

include related in
theorem stored_paths : (stored.map Stored.path).Nodup := by
  rw [← map_related related fun file s converts => converts.1.symm]
  exact GcsTransport.files_nodup objects

include h in
theorem getBatchByPath_converts (lossless : C.Lossless) (file : BatchFile)
    (listed : file ∈ t.files objects) (s : Stored) (converts : Converts X archive file s) :
    GcsFetcher.getBatchByPath X C .none file.path objects = .ok (some s.batch) := by
  obtain ⟨b, data, kept, -, -, got⟩ := getBatchByPath_file X h lossless file listed
  obtain ⟨-, b', kept', -, converted⟩ := converts
  obtain rfl : b = b' := Option.some.inj (kept.symm.trans kept')
  rw [got, converted]
  rfl

include h related in
theorem getBatchByPath_stored (lossless : C.Lossless) (path : String) :
    GcsFetcher.getBatchByPath X C .none path objects =
      .ok ((stored.find? fun s => s.path = path).map Stored.batch) := by
  cases found : stored.find? fun s => s.path = path with
  | some s =>
    obtain rfl : s.path = path := by simpa using List.find?_some found
    obtain ⟨file, listed, converts⟩ :=
      (Outcome.forall₂_partner related).2 s (List.mem_of_find?_eq_some found)
    rw [converts.1]
    exact getBatchByPath_converts h lossless file listed s converts
  | none =>
    have missing : objects.read path = none := by
      rw [Option.eq_none_iff_forall_ne_some]
      intro data kept
      obtain ⟨r, b, archived, rfl, -⟩ := (h.object path data).mp kept
      have listed := (GcsTransport.mem_files h _).mpr ⟨r, b, archived, rfl⟩
      obtain ⟨s, member, converts⟩ := (Outcome.forall₂_partner related).1 _ listed
      have differs := List.find?_eq_none.mp found s member
      rw [converts.1] at differs
      exact differs (decide_eq_true rfl)
    have downloaded : GcsFetcher.download .none path objects = .ok none :=
      congrArg Except.ok missing
    rw [GcsFetcher.getBatchByPath, downloaded]
    rfl

include h related in
theorem get_stored (lossless : C.Lossless) (n : UInt64) :
    GcsFetcher.get X C ⟨t.client⟩ .none n objects = (bucketFetcher stored).get n := by
  -- both take the first batch that covers the number
  have covering := find_related (p := fun file => file.startSequence ≤ n ∧ n ≤ file.endSequence)
    (q := fun s => s.info.contains n) related fun file s converts => by
      rw [← converts.info_eq]
      exact Bool.decide_and _ _
  rw [get_none]
  unfold bucketFetcher
  dsimp only
  cases first : (t.files objects).find? fun file => file.startSequence ≤ n ∧ n ≤
    file.endSequence with
  | none =>
    rw [first] at covering
    cases second : stored.find? fun s => s.info.contains n with
    | none => rfl
    | some s =>
      rw [second] at covering
      cases covering
  | some file =>
    rw [first] at covering
    cases second : stored.find? fun s => s.info.contains n with
    | none =>
      rw [second] at covering
      cases covering
    | some s =>
      rw [second] at covering
      cases covering with
      | some converts =>
        dsimp only
        rw [getBatchByPath_converts h lossless file (List.mem_of_find?_eq_some first) s converts,
          find_own_path stored (stored_paths related) s (List.mem_of_find?_eq_some second)]
        rfl

include h related in
/-- Where all batches convert, the fetcher is the one of the converted batches. -/
theorem fetcher_stored (lossless : C.Lossless) :
    GcsFetcher.fetcher X C ⟨t.client⟩ objects = bucketFetcher stored := by
  have listed : (t.files objects).map info = stored.map Stored.info :=
    map_related related fun file s converts => converts.info_eq
  have latest : ((t.files objects).map info).map BatchInfo.endSequence =
      stored.map fun s => s.batch.endSequence := by
    rw [listed, List.map_map]
    rfl
  rw [GcsFetcher.fetcher, bucketFetcher, Fetcher.mk.injEq]
  exact ⟨congrArg Except.ok listed, funext (getBatchByPath_stored h related lossless),
    funext (get_stored h related lossless),
    congrArg (fun ends : List UInt64 => Except.ok ends.max?) latest⟩

end Stored

variable (X)

/-- The message was built with a signer of the key. -/
def Made (key : Bytes) (m : CborSignedMessage) : Prop :=
  ∃ sequence timestamp messageType payload sign, X.SigningKey key sign ∧
    CborSignedMessage.new X sequence timestamp messageType payload key sign = .ok m

/-- A batch made from messages that were made under the same key converts. -/
theorem new_converts (reads : X.ReadsMessages) (back : X.ReadsBack)
    (messages : List CborSignedMessage)
    (createdAt : UInt64) (key : Bytes) (sign : Bytes → Except CborError Bytes)
    (signer : X.SigningKey key sign) (made : ∀ m ∈ messages, Made X key m)
    (b : CborBatch) (h : CborBatch.new X messages createdAt key sign = .ok b) :
    ∃ batch, b.toSignedBatch X = .ok batch := by
  obtain ⟨first, last, startSequence, endSequence, signature, -, -, -, -, signed, rfl⟩ :=
    (CborBatch.new_ok X _ _ _ _ _).mp h
  obtain ⟨-, verifies⟩ := signer.correct _ _ signed
  obtain ⟨converted, each⟩ :=
    mapM_exists (fun m : CborSignedMessage => m.toSignedMessage X key) messages
    fun m member => by
      obtain ⟨sequence, timestamp, messageType, payload, signMessage, own, built⟩ := made m member
      obtain ⟨bytes, coded, returned⟩ := (Outcome.bind_ok _ _ _).mp built
      cases returned
      obtain ⟨signature, header, verified, written, -⟩ :=
        built_accepted X reads back _ _ _ _ _ _ own bytes coded
      exact ⟨_, (toSignedMessage_unchecked X _ _ _).mpr ⟨_, header, verified, written, rfl⟩⟩
  refine ⟨_, (Outcome.bind_ok _ _ _).mpr
    ⟨(), (CborBatch.verifyBatchSignature_iff X _).mpr ⟨rfl, verifies⟩,
    (Outcome.bind_ok _ _ _).mpr ⟨key, (verifyingKeyFromBytes_ok X _ _).mpr ⟨rfl, verifies.validKey⟩,
      (Outcome.bind_ok _ _ _).mpr ⟨converted, (Outcome.mapM_ok _ _ _).mpr each, rfl⟩⟩⟩⟩

/-- After any calls of `publish`, with any failures of uploads, the fetcher answers as the transport
does. If all batches in the bucket convert, it is the fetcher of these batches. -/
theorem gcs_fetcher_agrees (lossless : C.Lossless) (t : GcsTransport) (uploads : List Upload)
    (typed : ∀ u ∈ uploads, u.batch.Typed) :
    Agrees X C t (recorded C uploads) (t.published C uploads) ∧
    ((∀ r b, recorded C uploads r = some b → ∃ batch, b.toSignedBatch X = .ok batch) →
      ∃ stored, List.Forall₂ (Converts X (recorded C uploads))
        (t.files (t.published C uploads)) stored ∧
        (stored.map Stored.path).Nodup ∧
        GcsFetcher.fetcher X C ⟨t.client⟩ (t.published C uploads) = bucketFetcher stored) := by
  have mirrors := GcsTransport.published_mirrors (C := C) (t := t) uploads typed
  refine ⟨mirrors_agrees X mirrors lossless, ?_⟩
  intro convertible
  obtain ⟨stored, related⟩ := exists_stored mirrors lossless convertible
  exact ⟨stored, related, stored_paths related, fetcher_stored mirrors related lossless⟩

/-- The first upload of the batch gets through although its answer is lost. -/
theorem gcs_fetcher_agrees_repeated :
    ∃ stored, GcsFetcher.fetcher Sample.record.externals Sample.codec
        ⟨GcsTransport.sampleTransport.client⟩
        (GcsTransport.sampleTransport.published Sample.codec GcsTransport.sampleUploads) =
        bucketFetcher stored := by
  have signer := Sample.record.signingKey Sample.pubkey (by decide) (by decide)
  have made : ∀ m ∈ Sample.builtBatch.messages, Made Sample.record.externals Sample.pubkey m := by
    intro m member
    rcases List.mem_pair.mp member with rfl | rfl
    · exact ⟨0, Sample.timestamp, .Changeset, Sample.payload, _, signer, by decide⟩
    · exact ⟨1, Sample.timestamp, .Changeset, Sample.payload, _, signer, by decide⟩
  have built : CborBatch.new Sample.record.externals Sample.builtBatch.messages Sample.timestamp
      Sample.pubkey (Sample.record.sign Sample.pubkey) = .ok Sample.builtBatch := by
    decide +kernel
  obtain ⟨-, stored⟩ := gcs_fetcher_agrees Sample.record.externals Sample.codec_lossless
    GcsTransport.sampleTransport GcsTransport.sampleUploads GcsTransport.sample_typed
  rw [GcsTransport.sample_recorded] at stored
  obtain ⟨stored, -, -, same⟩ := stored fun r b kept => by
    dsimp only at kept
    split at kept
    · rw [← Option.some.inj kept]
      exact new_converts Sample.record.externals (Sample.record.readsMessages Sample.wellFormed)
        (Sample.record.readsBack (by decide +kernel)) _ Sample.timestamp Sample.pubkey _ signer
          made _ built
    · cases kept
  exact ⟨stored, same⟩

end SyndDB.Replication.Gcs
