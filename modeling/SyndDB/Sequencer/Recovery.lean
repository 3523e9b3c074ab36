import SyndDB.Sequencer.Pipeline

namespace SyndDB.Sequencer

open Octets Shared Run

inductive PublisherType where
  | None
  | Local
  | Gcs
  deriving DecidableEq

structure SequencerConfig where
  publisherType : PublisherType
  localStoragePath : Option String
  batchConfig : BatchConfig

/-- The columns of a stored batch that recovery reads. -/
structure StoredBatch where
  startSequence : UInt64
  endSequence : UInt64
  deriving DecidableEq

/-- SQLite keeps signed integers of 64 bits. -/
def StoredBatch.Fits (b : StoredBatch) : Prop :=
  b.startSequence.toNat < 2 ^ 63 ∧ b.endSequence.toNat < 2 ^ 63

instance (b : StoredBatch) : Decidable b.Fits := inferInstanceAs (Decidable (_ ∧ _))

/-- The table of batches in a database. -/
structure Table where
  rows : List StoredBatch
  fits : ∀ row ∈ rows, row.Fits

def Table.empty : Table := ⟨[], by simp⟩

/-- A batch with the same start is there already, or a number is too large: both are passed over. -/
def Table.insert (b : StoredBatch) (t : Table) : Table :=
  if t.rows.any fun row => row.startSequence = b.startSequence then t
  else if h : b.Fits then
    ⟨t.rows ++ [b], by
      intro row member
      rcases List.mem_append.mp member with old | new
      · exact t.fits row old
      · rw [List.mem_singleton.mp new]
        exact h⟩
  else t

/-- A database may be a file, which outlives the process. -/
inductive StorageInner where
  | Memory (batches : List StoredBatch)
  | Sqlite (file : Option String) (table : Table)

namespace StorageInner

def batches : StorageInner → List StoredBatch
  | .Memory batches => batches
  | .Sqlite _ table => table.rows

def publish (batch : CborBatch) : StorageInner → StorageInner
  | .Memory batches =>
      .Memory (batches.filter (fun b => b.startSequence ≠ batch.startSequence) ++
        [⟨batch.startSequence, batch.endSequence⟩])
  | .Sqlite file table => .Sqlite file (table.insert ⟨batch.startSequence, batch.endSequence⟩)

def latestSequence (s : StorageInner) : Option UInt64 :=
  (s.batches.map StoredBatch.endSequence).max?

end StorageInner

/-- A call of `sequence_message`: the number it took and what it returned. -/
structure Taken where
  sequence : UInt64
  result : Except InboxError (CborSignedMessage × SequenceReceipt)

/-- A running sequencer node, the files on its disk, and the numbers taken since the first start. -/
structure Node where
  config : SequencerConfig
  transport : Option StorageInner
  pipeline : Pipeline
  disk : String → Table
  taken : List Taken

/-- Between two starts the process ends at any point, in order or not. -/
inductive Happening where
  | move (m : Move)
  | restart (config : SequencerConfig) (keyManager : Bytes) (now : Nat)

-- `file` is the file that SQLite opens for a path; none if the database belongs to the connection.
variable (X : Externals) (compressPayload : Bytes → Bytes) (file : String → Option String)

/-- The local transport, if there is one. -/
def localTransport (config : SequencerConfig) (disk : String → Table) : Option StorageInner :=
  match config.publisherType with
  | .None | .Gcs => none
  | .Local =>
      match config.localStoragePath with
      | none => some (.Memory [])
      | some path =>
          if path = ":memory:" then some (.Sqlite none .empty)
          else match file path with
            | none => some (.Sqlite none .empty)
            | some name => some (.Sqlite (some name) (disk name))

/-- Only a local transport is asked for the numbers that were used. -/
def startSequence (transport : Option StorageInner) : UInt64 :=
  match transport with
  | none => 0
  | some storage =>
      match storage.latestSequence with
      | none => 0
      | some sequence => sequence + 1

namespace Node

def boot (config : SequencerConfig) (keyManager : Bytes) (now : Nat) (disk : String → Table)
    (taken : List Taken) : Node :=
  let transport := localTransport file config disk
  ⟨config, transport, .start (startSequence transport) config.batchConfig keyManager now,
    disk, taken⟩

/-- The disk as the next process finds it. -/
def persisted (s : Node) : String → Table :=
  match s.transport with
  | some (.Sqlite (some name) table) => Function.update s.disk name table
  | _ => s.disk

/-- Without a publisher there is no batcher, and a message goes no further than its handler. -/
def move (s : Node) (m : Move) : Option Move :=
  match s.config.publisherType with
  | .Local | .Gcs => some m
  | .None =>
      match m with
      | .sequence submission => some (.sequence submission)
      | .abandon handler | .add handler => some (.abandon handler)
      | .control _ | .receive _ | .tick _ => none

/-- The calls of `sequence_message` in a move. -/
def takes (p : Pipeline) : Move → List Taken
  | .sequence submission =>
      [⟨p.sequence, signMessage X compressPayload p.task.batcher.keyManager p.sequence submission⟩]
  | _ => []

/-- The batches that a move publishes go to the local transport. -/
def advance (s : Node) (m : Move) : Node :=
  let pipeline := s.pipeline.step X compressPayload m
  let published :=
    pipeline.task.batcher.transport.drop s.pipeline.task.batcher.transport.length
  { s with
    transport := s.transport.map fun storage =>
      published.foldl (fun storage batch => storage.publish batch) storage
    pipeline := pipeline
    taken := s.taken ++ takes X compressPayload s.pipeline m }

def step (s : Node) : Happening → Node
  | .move m =>
      match s.move m with
      | some m => s.advance X compressPayload m
      | none => s
  | .restart config keyManager now => boot file config keyManager now s.persisted s.taken

/-- What a restarted sequencer finds stored. -/
def stored (config : SequencerConfig) (s : Node) : List StoredBatch :=
  match localTransport file config s.persisted with
  | none => []
  | some storage => storage.batches

/-- The condition on a step: the counter does not overflow, and a restarted sequencer finds a batch
that ends at or after every number taken so far. -/
def Recovers (s : Node) : Happening → Prop
  | .move (.sequence _) => s.pipeline.sequence.toNat + 1 < 2 ^ 64
  | .move _ => True
  | .restart config _ _ =>
      ∀ t ∈ s.taken, ∃ b ∈ s.stored file config, t.sequence ≤ b.endSequence

instance decidableRecovers (s : Node) (h : Happening) : Decidable (s.Recovers file h) := by
  cases h with
  | move m =>
    cases m with
    | sequence submission => exact inferInstanceAs (Decidable (_ < _))
    | _ => exact isTrue trivial
  | restart config keyManager now =>
    exact inferInstanceAs (Decidable (∀ t ∈ s.taken, ∃ b ∈ s.stored file config, _))

/-- No number is taken twice, and what is signed and returned has the number that was taken. -/
structure Unique (s : Node) : Prop where
  distinct : s.taken.Pairwise fun t u => t.sequence ≠ u.sequence
  signed : ∀ t ∈ s.taken, ∀ message receipt, t.result = .ok (message, receipt) →
    receipt.sequence = t.sequence ∧ number X message = some t.sequence.toNat

/-- All numbers taken are below the next. -/
structure Ahead (s : Node) : Prop extends s.Unique X where
  below : ∀ t ∈ s.taken, t.sequence < s.pipeline.sequence

theorem step_sequence (p : Pipeline) (m : Move) :
    (p.step X compressPayload m).sequence =
      match m with
      | .sequence _ => p.sequence + 1
      | _ => p.sequence := by
  cases m with
  | sequence submission =>
    simp only [Pipeline.step, sequenceMessage]
    cases signMessage X compressPayload p.task.batcher.keyManager p.sequence submission with
    | ok result => rfl
    | error e => rfl
  | abandon handler => rfl
  | add handler =>
    simp only [Pipeline.step]
    split
    · split
      · simp only [Pipeline.send]
        split
        · rfl
        · rfl
      · rfl
    · rfl
  | control c =>
    simp only [Pipeline.step]
    split
    · simp only [Pipeline.send]
      split
      · rfl
      · rfl
    · rfl
  | receive answers =>
    simp only [Pipeline.step]
    split
    · rfl
    · rfl
  | tick answers => rfl

/-- The number in the receipt is the number that was passed in. -/
theorem receipt_signed (keyManager : Bytes) (sequence : UInt64) (submission : Submission)
    (m : CborSignedMessage) (receipt : SequenceReceipt)
    (h : signMessage X compressPayload keyManager sequence submission = .ok (m, receipt)) :
    receipt.sequence = sequence := by
  simp only [signMessage, Outcome.bind_ok] at h
  obtain ⟨key, -, message, -, parsed, -, same⟩ := h
  cases same
  rfl

theorem ahead_same (s d : Node) (h : s.Ahead X) (taken : d.taken = s.taken)
    (sequence : d.pipeline.sequence = s.pipeline.sequence) : d.Ahead X := by
  refine ⟨⟨?_, ?_⟩, ?_⟩
  · rw [taken]
    exact h.distinct
  · rw [taken]
    exact h.signed
  · rw [taken, sequence]
    exact h.below

theorem ahead_advance (codes : X.CodesMessages) (s : Node) (m : Move) (h : s.Ahead X)
    (room : ∀ submission, m = .sequence submission → s.pipeline.sequence.toNat + 1 < 2 ^ 64) :
    (s.advance X compressPayload m).Ahead X := by
  have sequence := step_sequence X compressPayload s.pipeline m
  cases m with
  | sequence submission =>
    have next : (s.pipeline.sequence + 1).toNat = s.pipeline.sequence.toNat + 1 := by
      rw [UInt64.toNat_add]
      exact Nat.mod_eq_of_lt (room submission rfl)
    refine ⟨⟨?_, ?_⟩, ?_⟩
    · rw [advance, takes, List.pairwise_append]
      refine ⟨h.distinct, List.pairwise_singleton _ _, ?_⟩
      intro t member u last
      rw [List.mem_singleton.mp last]
      exact (UInt64.ne_of_lt (h.below t member))
    · intro t member message receipt returned
      rcases List.mem_append.mp member with old | new
      · exact h.signed t old message receipt returned
      · rw [List.mem_singleton.mp new] at returned ⊢
        exact ⟨receipt_signed X compressPayload _ _ _ _ _ returned,
          number_signed X compressPayload codes _ _ _ _ _ returned⟩
    · intro t member
      show t.sequence < (s.pipeline.step X compressPayload _).sequence
      rw [sequence, UInt64.lt_iff_toNat_lt, next]
      rcases List.mem_append.mp member with old | new
      · have below := UInt64.lt_iff_toNat_lt.mp (h.below t old)
        omega
      · rw [List.mem_singleton.mp new]
        exact Nat.lt_succ_self _
  | abandon handler => exact ahead_same X s _ h (List.append_nil _) sequence
  | add handler => exact ahead_same X s _ h (List.append_nil _) sequence
  | control c => exact ahead_same X s _ h (List.append_nil _) sequence
  | receive answers => exact ahead_same X s _ h (List.append_nil _) sequence
  | tick answers => exact ahead_same X s _ h (List.append_nil _) sequence

theorem le_latestSequence (storage : StorageInner) (b : StoredBatch)
    (member : b ∈ storage.batches) :
    ∃ latest ∈ storage.batches.map StoredBatch.endSequence,
      storage.latestSequence = some latest ∧ b.endSequence ≤ latest := by
  have max_eq (x y : UInt64) : max x y = if x ≤ y then y else x := rfl
  have lawful : Std.LawfulOrderMax UInt64 := by
    apply Std.LawfulOrderMax.of_max_le_iff
    · intro x y z
      rw [max_eq]
      split
      · rename_i le
        simp only [UInt64.le_iff_toNat_le] at le ⊢
        omega
      · rename_i gt
        simp only [UInt64.le_iff_toNat_le] at gt ⊢
        omega
    · intro x y
      rw [max_eq]
      split
      · exact .inr rfl
      · exact .inl rfl
  obtain ⟨latest, found⟩ : ∃ latest, storage.latestSequence = some latest := by
    rw [← Option.isSome_iff_exists, StorageInner.latestSequence, List.isSome_max?_iff]
    exact List.ne_nil_of_mem (List.mem_map_of_mem member)
  obtain ⟨stored, all⟩ := List.max?_eq_some_iff.mp found
  exact ⟨latest, stored, found, all _ (List.mem_map_of_mem member)⟩

/-- What is found at a start is in a database. -/
theorem localTransport_fits (config : SequencerConfig) (disk : String → Table)
    (storage : StorageInner) (found : localTransport file config disk = some storage) :
    ∀ b ∈ storage.batches, b.Fits := by
  have empty (e : Option String) : ∀ b ∈ (StorageInner.Sqlite e .empty).batches, b.Fits := by
    intro b member
    cases member
  rw [localTransport] at found
  split at found
  · cases found
  · cases found
  · split at found
    · cases found
      intro b member
      cases member
    · split at found
      · cases found
        exact empty none
      · split at found
        · cases found
          exact empty none
        · rename_i name _
          cases found
          exact (disk name).fits

/-- A start is after every batch that is stored. -/
theorem startSequence_above (config : SequencerConfig) (disk : String → Table)
    (storage : StorageInner) (found : localTransport file config disk = some storage)
    (b : StoredBatch) (member : b ∈ storage.batches) :
    b.endSequence < startSequence (some storage) := by
  obtain ⟨latest, stored, newest, le⟩ := le_latestSequence storage b member
  obtain ⟨last, last_member, rfl⟩ := List.mem_map.mp stored
  have small := (localTransport_fits file config disk storage found last last_member).2
  have next : (last.endSequence + 1).toNat = last.endSequence.toNat + 1 := by
    rw [UInt64.toNat_add]
    exact Nat.mod_eq_of_lt (Nat.lt_of_le_of_lt (Nat.succ_le_of_lt small) (by decide))
  rw [UInt64.le_iff_toNat_le] at le
  rw [startSequence, newest, UInt64.lt_iff_toNat_lt, next]
  omega

theorem restart_above (s : Node) (config : SequencerConfig) (keyManager : Bytes) (now : Nat)
    (recovers : s.Recovers file (.restart config keyManager now)) (t : Taken)
    (member : t ∈ s.taken) :
    t.sequence < (boot file config keyManager now s.persisted s.taken).pipeline.sequence := by
  obtain ⟨b, stored, le⟩ := recovers t member
  rw [Node.stored] at stored
  show t.sequence < startSequence (localTransport file config s.persisted)
  cases found : localTransport file config s.persisted with
  | none =>
    rw [found] at stored
    cases stored
  | some storage =>
    rw [found] at stored
    have above := startSequence_above file config s.persisted storage found b stored
    exact UInt64.lt_of_le_of_lt le above

theorem ahead_step (codes : X.CodesMessages) (s : Node) (h : Happening) (ahead : s.Ahead X)
    (recovers : s.Recovers file h) : (s.step X compressPayload file h).Ahead X := by
  cases h with
  | move m =>
    rw [step]
    split
    · rename_i m' moved
      apply ahead_advance X compressPayload codes s m' ahead
      rintro submission rfl
      obtain rfl : m = .sequence submission := by
        unfold move at moved
        split at moved
        · exact Option.some.inj moved
        · exact Option.some.inj moved
        · cases m with
          | sequence submission' =>
            cases moved
            rfl
          | _ => cases moved
      exact recovers
    · exact ahead
  | restart config keyManager now =>
    exact ⟨⟨ahead.distinct, ahead.signed⟩, restart_above file s config keyManager now recovers⟩

/-- In every run whose restarts find all numbers taken before in stored batches, no number is taken
twice, and the first number after a restart is larger than all before. -/
theorem sequence_numbers_unique (codes : X.CodesMessages) (config : SequencerConfig)
    (keyManager : Bytes) (now : Nat) (disk : String → Table) (happenings : List Happening)
    (recovers : Along (step X compressPayload file) (Recovers file)
      (boot file config keyManager now disk []) happenings) (n : Nat) :
    let moment := stateAt (step X compressPayload file) (boot file config keyManager now disk [])
      happenings
    (moment n).Unique X ∧ ∀ config keyManager now,
      happenings[n]? = some (.restart config keyManager now) →
      ∀ t ∈ (moment n).taken, t.sequence < (moment (n + 1)).pipeline.sequence := by
  intro moment
  have start : (boot file config keyManager now disk []).Ahead X :=
    ⟨⟨.nil, by simp [boot]⟩, by simp [boot]⟩
  have ahead : (moment n).Ahead X :=
    along_invariant _ (ahead_step X compressPayload file codes) _ _ start
      (along_take _ _ _ happenings n recovers)
  refine ⟨ahead.toUnique, ?_⟩
  intro config' keyManager' now' restarted t member
  have next : moment (n + 1) = boot file config' keyManager' now' (moment n).persisted
      (moment n).taken := stateAt_succ _ _ happenings n _ restarted
  rw [next]
  apply restart_above file (moment n) config' keyManager' now' _ t member
  exact along_getElem _ _ _ happenings n _ recovers restarted

def sampleConfig : SequencerConfig := ⟨.Local, some "sequencer.db", ⟨50, 1048576, 5000⟩⟩

def sampleBoot : Node := boot some sampleConfig Sample.pubkey 0 (fun _ => .empty) []

def flushed : List Happening :=
  let answers := Task.sampleAnswers Pipeline.accepting
  [.move (.sequence Pipeline.sampleSubmission), .move (.add 0), .move (.control .Flush),
   .move (.receive answers), .move (.receive answers), .restart sampleConfig Sample.pubkey 1000,
   .move (.sequence Pipeline.sampleSubmission)]

theorem sequence_numbers_unique_flushed :
    let step := step Sample.record.externals Pipeline.sampleCompress some
    Along step (Recovers some) sampleBoot flushed ∧
      (stateAt step sampleBoot flushed 7).Unique Sample.record.externals ∧
      ∀ t ∈ (stateAt step sampleBoot flushed 5).taken,
        t.sequence < (stateAt step sampleBoot flushed 6).pipeline.sequence := by
  have codes : Sample.record.externals.CodesMessages := Recorded.codesMessages _ (by decide +kernel)
  have recovers : Along (step Sample.record.externals Pipeline.sampleCompress some) (Recovers some)
      sampleBoot flushed := by
    decide +kernel
  have unique := sequence_numbers_unique Sample.record.externals Pipeline.sampleCompress some codes
    sampleConfig Sample.pubkey 0 (fun _ => .empty) flushed recovers
  exact ⟨recovers, (unique 7).1, (unique 5).2 sampleConfig Sample.pubkey 1000 rfl⟩

/-- The key that the second start generates: that of the secret scalar 2. -/
def secondKey : Bytes :=
  bigEndian 64
    0xc6047f9441ed7d6d3045406e95c07cd85c778e4b8cef3ca7abac09b95c709ee51ae168fea63dc339a3c58419466ceaeef7f632653266d0e1236431a950cfe52a

def secondSignature : Bytes :=
  bigEndian 64
    0xd913ba13e3545985e2a41e0940538f9b52ef78dcf6e3629efabf8caf775d7ed51e68e98f6da88c26384c6ba7114901e1f18c60223f0d13231954e7d05958bfd5

/-- A minute later, with the number 0 once more. -/
def secondCose : CoseSign1 :=
  ⟨⟨none, ⟨some (.int ES256K), [],
      [(.int HEADER_SEQUENCE, .integer 0), (.int HEADER_TIMESTAMP, .integer 1700000060),
       (.int HEADER_MSG_TYPE, .integer 0)]⟩⟩,
    ⟨none, [], [(.text "pubkey", .bytes secondKey)]⟩, some Sample.payload, secondSignature⟩

def secondDigest : Bytes :=
  bigEndian 32 0x81120f976c733bd8dbf460bd3f80f3abed8cc9691efda123627434be16fb9a0e

def restartRecord : Recorded :=
  { Sample.record with
    messages := [Sample.cose0, secondCose]
    keccak256 := [(Sample.tbs Sample.cose0, Sample.digest0), (Sample.tbs secondCose, secondDigest)]
    signatures := [(Sample.pubkey, Sample.digest0, Sample.cose0.signature),
      (secondKey, secondDigest, secondSignature)] }

def crashed : List Happening :=
  [.move (.sequence Pipeline.sampleSubmission), .restart sampleConfig secondKey 60000,
   .move (.sequence ⟨.Changeset, Sample.request, 1700000060, restartRecord.signRawSync secondKey⟩)]

def crashedNode : Node :=
  stateAt (step restartRecord.externals Pipeline.sampleCompress some) sampleBoot crashed 3

/-- The process ends before the first message is published: both get the number 0. -/
theorem restart_repeats_number :
    (crashedNode.taken.map fun t =>
        (t.sequence, t.result.toOption.map fun r => (r.1, r.2.sequence))) =
      [(0, some (Sample.message Sample.cose0, 0)), (0, some (Sample.message secondCose, 0))] ∧
      Sample.message Sample.cose0 ≠ Sample.message secondCose ∧
      ¬ crashedNode.Unique restartRecord.externals := by
  refine ⟨by decide +kernel, by decide +kernel, ?_⟩
  intro unique
  have repeated : ¬ crashedNode.taken.Pairwise fun t u => t.sequence ≠ u.sequence := by
    decide +kernel
  exact repeated unique.distinct

end Node

end SyndDB.Sequencer
