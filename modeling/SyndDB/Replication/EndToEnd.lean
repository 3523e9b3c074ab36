import SyndDB.Replication.Agreement
import SyndDB.Replication.GcsFetcher
import SyndDB.Sequencer.GcsPublishing

namespace SyndDB.Replication.Gcs

open Octets Shared ObjectStore
open Sequencer Sequencer.Gcs

variable (X : Externals) (compressPayload : Bytes → Bytes) (C : Codec) (t : GcsTransport)

/-- Whoever signs in the turn signs with the key. -/
def Signs (key : Bytes) (turn : Sequencer.Gcs.Turn) : Prop :=
  match turn.move with
  | .sequence submission => X.SigningKey key (signCose X submission)
  | .receive answers | .tick answers => X.SigningKey key (signBatchData X answers)
  | .abandon _ | .add _ | .control _ => True

/-- The event that the batcher handles in a move. -/
def event (p : Pipeline) : Move → Option (Event × Answers)
  | .receive answers => p.channel.head?.map fun c => (.command c, answers)
  | .tick answers => some (.tick, answers)
  | .sequence _ | .abandon _ | .add _ | .control _ => none

def added : Event → Option CborSignedMessage
  | .command c => c.added
  | .tick => none

/-- The counter does not overflow. -/
def Room (p : Pipeline) : Move → Prop
  | .sequence _ => p.sequence.toNat + 1 < 2 ^ 64
  | _ => True

instance (p : Pipeline) (move : Move) : Decidable (Room p move) :=
  match move with
  | .sequence _ => inferInstanceAs (Decidable (_ < _))
  | .abandon _ | .add _ | .control _ | .receive _ | .tick _ => isTrue trivial

/-- What a turn must meet: the counter does not overflow, the batcher takes up messages in the order
of their numbers from the first on, and batches get into the bucket. -/
structure Reliable (first : Nat) (d : Deployment) (turn : Sequencer.Gcs.Turn) : Prop where
  room : Room d.pipeline turn.move
  inLine : ∀ e ∈ event d.pipeline turn.move, ∀ m ∈ added e.1,
    number X m = some (first + d.pipeline.task.accepted.length)
  flushes : ∀ e ∈ event d.pipeline turn.move, d.pipeline.task.FlushSucceeds X
    (e.1, e.2.through fun batch => (t.publish C batch turn.fault d.objects).1)
  typed : ∀ b ∈ d.pipeline.submitted X turn.move, b.Typed

instance (first : Nat) (d : Deployment) (turn : Sequencer.Gcs.Turn) :
    Decidable (Reliable X C t first d turn) :=
  decidable_of_iff (Room d.pipeline turn.move ∧
      (∀ e ∈ event d.pipeline turn.move, ∀ m ∈ added e.1,
        number X m = some (first + d.pipeline.task.accepted.length)) ∧
      (∀ e ∈ event d.pipeline turn.move, d.pipeline.task.FlushSucceeds X
        (e.1, e.2.through fun batch => (t.publish C batch turn.fault d.objects).1)) ∧
      ∀ b ∈ d.pipeline.submitted X turn.move, b.Typed)
    ⟨fun h => ⟨h.1, h.2.1, h.2.2.1, h.2.2.2⟩, fun h => ⟨h.room, h.inLine, h.flushes, h.typed⟩⟩

/-- A message that the sequencer has, is one with the property. -/
structure All (P : CborSignedMessage → Prop) (p : Pipeline) : Prop where
  inFlight : ∀ m ∈ p.inFlight, P m
  channel : ∀ c ∈ p.channel, ∀ m ∈ c.added, P m
  accepted : ∀ m ∈ p.task.accepted, P m

variable {P : CborSignedMessage → Prop}

theorem intake_accepted (task : Task) (c : BatcherCommand) :
    (task.intake (.command c)).accepted = task.accepted ∨
      (task.intake (.command c)).accepted = task.accepted ++ c.added.toList := by
  cases c with
  | AddMessage m =>
    cases running : task.running with
    | true => exact .inr (by simp [Task.intake, running, BatcherCommand.added])
    | false => exact .inl (by simp [Task.intake, running])
  | _ => exact .inl rfl

theorem intake_all (task : Task) (c : BatcherCommand) (h : ∀ m ∈ task.accepted, P m)
    (own : ∀ m ∈ c.added, P m) :
    ∀ m ∈ (task.intake (.command c)).accepted, P m := by
  intro m member
  rcases intake_accepted task c with same | more
  · rw [same] at member
    exact h m member
  · rw [more] at member
    rcases List.mem_append.mp member with old | new
    · exact h m old
    · exact own m (Option.mem_toList.mp new)

theorem send_all (p : Pipeline) (c : BatcherCommand) (h : All P p) (own : ∀ m ∈ c.added, P m) :
    All P (p.send c) := by
  unfold Pipeline.send
  split
  · refine ⟨h.inFlight, ?_, h.accepted⟩
    intro c' member
    rcases List.mem_append.mp member with old | new
    · exact h.channel c' old
    · rw [List.mem_singleton.mp new]
      exact own
  · exact h

/-- The moves only pass messages on, but for the one that is signed. -/
theorem step_all (p : Pipeline) (move : Move) (h : All P p)
    (signed : ∀ submission m receipt, move = .sequence submission →
      signMessage X compressPayload p.task.batcher.keyManager p.sequence submission =
        .ok (m, receipt) → P m) :
    All P (p.step X compressPayload move) := by
  cases move with
  | sequence submission =>
    simp only [Pipeline.step, sequenceMessage]
    cases result : signMessage X compressPayload p.task.batcher.keyManager p.sequence
      submission with
    | error e => exact ⟨h.inFlight, h.channel, h.accepted⟩
    | ok pair =>
      obtain ⟨m, receipt⟩ := pair
      refine ⟨?_, h.channel, h.accepted⟩
      intro m' member
      rcases List.mem_append.mp member with old | new
      · exact h.inFlight m' old
      · rw [List.mem_singleton.mp new]
        exact signed submission m receipt rfl result
  | abandon handler =>
      exact ⟨fun m member => h.inFlight m (List.mem_of_mem_eraseIdx member), h.channel, h.accepted⟩
  | add handler =>
    simp only [Pipeline.step]
    cases found : p.inFlight[handler]? with
    | none => exact h
    | some m =>
      dsimp only
      split
      · refine send_all _ _ ⟨fun m member => h.inFlight m (List.mem_of_mem_eraseIdx member),
          h.channel, h.accepted⟩ ?_
        intro m' same
        obtain rfl : m = m' := Option.some.inj same
        exact h.inFlight m (List.mem_of_getElem? found)
      · exact h
  | control c =>
    simp only [Pipeline.step]
    split
    · refine send_all p _ h ?_
      intro m member
      cases c with
      | _ => cases member
    · exact h
  | receive answers =>
    simp only [Pipeline.step]
    cases queue : p.channel with
    | nil => exact h
    | cons c rest =>
      refine ⟨h.inFlight, fun c' member => h.channel c'
        (by rw [queue]; exact List.mem_cons_of_mem c member), ?_⟩
      dsimp only
      rw [(p.task.step_cases X (.command c, answers)).1]
      exact intake_all p.task c h.accepted (h.channel c (by rw [queue]; exact List.mem_cons_self))
  | tick answers =>
    refine ⟨h.inFlight, h.channel, ?_⟩
    simp only [Pipeline.step]
    rw [(p.task.step_cases X (.tick, answers)).1]
    exact h.accepted

theorem step_task (p : Pipeline) (move : Move) : (p.step X compressPayload move).task =
    (event p move).elim p.task (p.task.step X) := by
  cases move with
  | sequence submission =>
    simp only [Pipeline.step]
    split
    · rfl
    · rfl
  | abandon handler => rfl
  | add handler =>
    simp only [Pipeline.step]
    split
    · split
      · unfold Pipeline.send
        split
        · rfl
        · rfl
      · rfl
    · rfl
  | control c =>
    simp only [Pipeline.step]
    split
    · unfold Pipeline.send
      split
      · rfl
      · rfl
    · rfl
  | receive answers =>
    simp only [Pipeline.step, event]
    cases p.channel with
    | nil => rfl
    | cons c rest => rfl
  | tick answers => rfl

theorem event_through (p : Pipeline) (move : Move)
    (publish : CborBatch → Except TransportError PublishMetadata) :
    event p (move.through publish) = (event p move).map fun e => (e.1, e.2.through publish) := by
  cases move with
  | receive answers =>
    simp only [Move.through, event]
    cases p.channel.head? with
    | none => rfl
    | some c => rfl
  | _ => rfl

theorem submitted_event (p : Pipeline) (move : Move) :
    p.submitted X move = (event p move).bind (p.task.submitted X) := by
  cases move with
  | receive answers =>
    simp only [Pipeline.submitted, event]
    cases p.channel.head? with
    | none => rfl
    | some c => rfl
  | _ => rfl

/-- If flushes succeed, the batch was taken, and it was built from the messages with the key
of the batcher. -/
theorem submitted_taken (task : Task) (e : Event × Answers)
    (publish : CborBatch → Except TransportError PublishMetadata)
    (flushes : task.FlushSucceeds X (e.1, e.2.through publish)) (b : CborBatch)
    (submitted : task.submitted X e = some b) : (publish b).isOk ∧
      ∃ batcher, task.flushing e.1 e.2 = some batcher ∧
        CborBatch.new X batcher.messages e.2.createdAt batcher.keyManager (signBatchData X e.2) =
          .ok b := by
  obtain ⟨batcher, flushing, own⟩ := Option.bind_eq_some_iff.mp submitted
  unfold Batcher.toPublish at own
  split at own
  · cases own
  · next full =>
    have built :
        CborBatch.new X batcher.messages e.2.createdAt batcher.keyManager (signBatchData X e.2) =
          .ok b := by
      cases result : CborBatch.new X batcher.messages e.2.createdAt batcher.keyManager
        (signBatchData X e.2) with
      | error e =>
        rw [result] at own
        cases own
      | ok b' =>
        rw [result] at own
        exact congrArg Except.ok (Option.some.inj own)
    have sent := flushes batcher flushing (by simpa using full)
    rw [Batcher.publishes] at sent
    have same : CborBatch.new X batcher.messages (e.2.through publish).createdAt batcher.keyManager
        (signBatchData X (e.2.through publish)) = .ok b := built
    rw [same] at sent
    exact ⟨sent, batcher, flushing, built⟩

/-- The batcher that is flushed has the key and the messages of the task. -/
theorem flushing_key (task : Task) (e : Event × Answers) (batcher : Batcher)
    (flushing : task.flushing e.1 e.2 = some batcher) : batcher.keyManager =
      task.batcher.keyManager := by
  unfold Task.flushing at flushing
  split at flushing
  · cases flushing
  · split at flushing
    · split at flushing
      · exact Option.some.inj flushing ▸ rfl
      · cases flushing
    · exact Option.some.inj flushing ▸ rfl
    · exact Option.some.inj flushing ▸ rfl
    · cases flushing
    · split at flushing
      · exact Option.some.inj flushing ▸ rfl
      · cases flushing

theorem signMessage_made (key : Bytes) (sequence : UInt64) (submission : Submission)
    (m : CborSignedMessage)
    (receipt : SequenceReceipt) (signer : X.SigningKey key (signCose X submission))
    (signed : signMessage X compressPayload key sequence submission = .ok (m, receipt)) :
      Made X key m := by
  simp only [signMessage, Outcome.bind_ok] at signed
  obtain ⟨verifyingKey, own, message, built, parsed, -, returned⟩ := signed
  cases returned
  obtain ⟨rfl, -⟩ := (verifyingKeyFromBytes_ok X _ _).mp ((Outcome.mapError_ok _ _ _).mp own)
  exact ⟨_, _, _, _, _, signer, (Outcome.mapError_ok _ _ _).mp built⟩

/-- The next message is in line behind all that were taken up. -/
theorem in_line (task : Task) (first : Nat) (conserves : task.Conserves)
    (numbered : task.accepted.map (number X) = (List.range' first task.accepted.length).map some)
    (last : CborSignedMessage) (h : last ∈ task.batcher.messages.getLast?) :
    number X last = some (first + task.accepted.length - 1) ∧ task.accepted ≠ [] := by
  have whole : task.batcher.published ++ task.batcher.messages = task.accepted := conserves
  have found : task.accepted.getLast? = some last := by
    rw [← whole, List.getLast?_append, h]
    rfl
  have nonempty : task.accepted ≠ [] := List.getLast?_isSome.mp (by rw [found]; rfl)
  have positive := List.length_pos_iff.mpr nonempty
  have own : (task.accepted.map (number X)).getLast? = some (number X last) := by
    rw [List.getLast?_map, found]
    rfl
  rw [numbered, List.getLast?_map, List.getLast?_range', if_neg (by omega)] at own
  refine ⟨(Option.some.inj own).symm.trans ?_, nonempty⟩
  simp

/-- The bucket has what the batcher has published, all of it made under the key, and the messages
that were taken up are numbered from the first on. -/
structure Supplied (key : Bytes) (first : Nat) (d : Deployment) : Prop where
  archived : ∃ uploads, d.Archived X C t uploads ∧ uploads.map Upload.batch =
    d.pipeline.task.batcher.transport
  keyManager : d.pipeline.task.batcher.keyManager = key
  made : All (Made X key) d.pipeline
  conserves : d.pipeline.task.Conserves
  numbered : d.pipeline.task.accepted.map (number X) =
    (List.range' first d.pipeline.task.accepted.length).map some
  built : ∀ b ∈ d.pipeline.task.batcher.transport, b.Typed ∧ ∃ createdAt sign,
    X.SigningKey key sign ∧ CborBatch.new X b.messages createdAt key sign = .ok b

section Step

variable {key : Bytes} {first : Nat} {d : Deployment} {turn : Sequencer.Gcs.Turn}
  (h : Supplied X C t key first d) (signs : Signs X key turn)
  (reliable : Reliable X C t first d turn)

include h reliable in
theorem reliable_orderly : d.Orderly X turn := by
  refine ⟨?_, reliable.typed⟩
  cases move : turn.move with
  | sequence submission =>
    have room := reliable.room
    rw [move] at room
    exact room
  | receive answers =>
    intro m taken last found
    obtain ⟨c, head, own⟩ := Option.bind_eq_some_iff.mp taken
    have next := reliable.inLine (.command c, answers) (by rw [move, event, head]; rfl) m own
    obtain ⟨before, nonempty⟩ := in_line X d.pipeline.task first h.conserves h.numbered last found
    have positive := List.length_pos_iff.mpr nonempty
    rw [next, before, Option.map_some]
    congr 1
    omega
  | _ => trivial

include reliable in
/-- A batch that is handed over is taken. -/
theorem reliable_taken (b : CborBatch) (submitted : d.pipeline.submitted X turn.move = some b) :
    (t.publish C b turn.fault d.objects).1.isOk ∧ ∃ e ∈ event d.pipeline turn.move,
      CborBatch.new X b.messages e.2.createdAt d.pipeline.task.batcher.keyManager
        (signBatchData X e.2) = .ok b := by
  rw [submitted_event] at submitted
  obtain ⟨e, handled, own⟩ := Option.bind_eq_some_iff.mp submitted
  obtain ⟨taken, batcher, flushing, built⟩ :=
    submitted_taken X d.pipeline.task e _ (reliable.flushes e handled) b own
  refine ⟨taken, e, handled, ?_⟩
  rw [← flushing_key d.pipeline.task e batcher flushing, CborBatch.new_messages X _ _ _ _ _ built]
  exact built

include reliable in
theorem reliable_transport : (d.step X compressPayload C t turn).pipeline.task.batcher.transport =
    d.pipeline.task.batcher.transport ++ (d.pipeline.submitted X turn.move).toList := by
  rw [Deployment.step, Pipeline.step_transport]
  congr 2
  cases submitted : d.pipeline.submitted X turn.move with
  | none => rfl
  | some b =>
    obtain ⟨taken, -⟩ := reliable_taken X C t reliable b submitted
    rw [Option.filter_some, if_pos taken]

include signs in
theorem signs_event (e : Event × Answers) (handled : e ∈ event d.pipeline turn.move) :
    X.SigningKey key (signBatchData X e.2) := by
  unfold Signs at signs
  cases move : turn.move with
  | receive answers =>
    rw [move] at signs handled
    obtain ⟨c, -, rfl⟩ := Option.map_eq_some_iff.mp handled
    exact signs
  | tick answers =>
    rw [move] at signs handled
    obtain rfl : (Event.tick, answers) = e := Option.some.inj handled
    exact signs
  | _ =>
    rw [move] at handled
    cases handled

include h reliable in
theorem reliable_numbered :
    (d.step X compressPayload C t turn).pipeline.task.accepted.map (number X) =
    (List.range' first (d.step X compressPayload C t turn).pipeline.task.accepted.length).map
      some := by
  rw [Deployment.step, step_task, event_through]
  cases handled : event d.pipeline turn.move with
  | none => exact h.numbered
  | some e =>
    simp only [Option.map_some, Option.elim_some]
    rw [(d.pipeline.task.step_cases X _).1]
    cases own : e.1 with
    | tick => exact h.numbered
    | command c =>
      rcases intake_accepted d.pipeline.task c with same | more
      · rw [same]
        exact h.numbered
      · rw [more]
        cases found : c.added with
        | none => simpa using h.numbered
        | some m =>
          have next := reliable.inLine e handled m (by rw [own]; exact found)
          rw [Option.toList_some, List.map_append, h.numbered, List.length_append,
            List.length_singleton, List.range'_concat, List.map_append]
          simp [next]

include h signs reliable in
theorem supplied_step (codes : X.CodesMessages) :
    Supplied X C t key first (d.step X compressPayload C t turn) where
  archived := by
    obtain ⟨uploads, archived, batches⟩ := h.archived
    refine ⟨_, Deployment.step_archived X compressPayload codes d turn uploads archived
      (reliable_orderly X C t h reliable), ?_⟩
    rw [reliable_transport X compressPayload C t reliable, List.map_append, batches,
      Deployment.upload]
    cases d.pipeline.submitted X turn.move with
    | none => rfl
    | some b => rfl
  keyManager := (Pipeline.step_keyManager X compressPayload _ _).trans h.keyManager
  made := by
    refine step_all X compressPayload d.pipeline _ h.made ?_
    intro submission m receipt move signed
    have own : turn.move = .sequence submission := by
      cases move' : turn.move with
      | sequence s =>
        rw [move'] at move
        exact move
      | _ =>
        rw [move'] at move
        cases move
    rw [h.keyManager] at signed
    rw [Signs, own] at signs
    exact signMessage_made X compressPayload key _ submission m receipt signs signed
  conserves := by
    rw [Deployment.step, step_task, event_through]
    cases handled : event d.pipeline turn.move with
    | none => exact h.conserves
    | some e =>
      exact (d.pipeline.task.step_conserves X _ h.conserves).mpr (reliable.flushes e handled)
  numbered := reliable_numbered X compressPayload C t h reliable
  built := by
    intro b member
    rw [reliable_transport X compressPayload C t reliable] at member
    rcases List.mem_append.mp member with old | new
    · exact h.built b old
    · have submitted := Option.mem_toList.mp new
      obtain ⟨-, e, handled, built⟩ := reliable_taken X C t reliable b submitted
      rw [h.keyManager] at built
      exact ⟨reliable.typed b submitted, _, _, signs_event X signs e handled, built⟩

end Step

theorem supplied_start (key : Bytes) (startSequence : UInt64) (batchConfig : BatchConfig)
    (now : Nat) :
    Supplied X C t key startSequence.toNat (.start startSequence batchConfig key now) where
  archived := ⟨[], Deployment.start_archived X startSequence batchConfig key now, rfl⟩
  keyManager := rfl
  made := ⟨List.forall_mem_nil _, List.forall_mem_nil _, List.forall_mem_nil _⟩
  conserves := rfl
  numbered := rfl
  built := List.forall_mem_nil _

/-- A run with reliable turns only. -/
theorem supplied_run (codes : X.CodesMessages) (key : Bytes) (first : Nat)
    (turns : List Sequencer.Gcs.Turn)
    (signs : ∀ turn ∈ turns, Signs X key turn) (d : Deployment) (h : Supplied X C t key first d)
    (reliable : Run.Along (Deployment.step X compressPayload C t) (Reliable X C t first) d turns) :
    Supplied X C t key first (Run.run (Deployment.step X compressPayload C t) d turns) := by
  induction turns generalizing d with
  | nil => exact h
  | cons turn turns ih =>
    exact ih (fun later member => signs later (List.mem_cons_of_mem turn member)) _
      (supplied_step X compressPayload C t h (signs turn List.mem_cons_self) reliable.1 codes)
      reliable.2

/-- The batch under its path, converted. -/
def Delivers (b : CborBatch) (s : Stored) : Prop :=
  s.path = t.batchPath b.startSequence b.endSequence ∧ b.toSignedBatch X = .ok s.batch

/-- The range of a batch that was built from messages with these numbers. -/
theorem new_range (messages : List CborSignedMessage) (createdAt : UInt64) (key : Bytes)
    (sign : Bytes → Except CborError Bytes) (b : CborBatch)
    (built : CborBatch.new X messages createdAt key sign = .ok b) (first : Nat)
    (numbers : messages.map (number X) = (List.range' first messages.length).map some) :
    messages ≠ [] ∧ b.startSequence.toNat = first ∧ b.endSequence.toNat + 1 =
      first + messages.length := by
  have ordered := inOrder_new X messages createdAt key sign b ⟨first, numbers⟩ built
  have nonempty : messages ≠ [] := by
    obtain ⟨head, last, s, e, signature, found, -⟩ := (CborBatch.new_ok X _ _ _ _ _).mp built
    exact List.ne_nil_of_mem (List.mem_of_mem_head? found)
  have positive := List.length_pos_iff.mpr nonempty
  have inside (n : Nat) := consecutive_numbers X messages first n numbers
  have own : b.messages = messages := CborBatch.new_messages X _ _ _ _ _ built
  have least := ordered.least
  have greatest := ordered.greatest
  rw [own] at least greatest
  have low := (inside _).mp least.1
  have high := (inside _).mp greatest.1
  have start := least.2 ((inside first).mpr ⟨le_refl _, by omega⟩)
  have finish := greatest.2 ((inside (first + messages.length - 1)).mpr ⟨by omega, by omega⟩)
  exact ⟨nonempty, by omega, by omega⟩

theorem numbers_append (xs ys : List CborSignedMessage) (first : Nat)
    (h : (xs ++ ys).map (number X) = (List.range' first (xs ++ ys).length).map some) :
    xs.map (number X) = (List.range' first xs.length).map some ∧
      ys.map (number X) = (List.range' (first + xs.length) ys.length).map some := by
  rw [List.length_append, ← List.range'_append_1, List.map_append, List.map_append] at h
  exact List.append_inj h (by simp)

theorem sequence_converted (key : Bytes) (m : CborSignedMessage) (message : SignedMessage)
    (converted : m.toSignedMessage X key = .ok message) : number X m =
      some message.sequence.toNat := by
  obtain ⟨parsed, header, verified, -, rfl⟩ :=
    (toSignedMessage_unchecked X m key message).mp converted
  rw [number, sequence_of_verified X m key parsed verified]
  rfl

/-- The batches of a reliable run form a chain. -/
theorem chained_delivered (key : Bytes) {batches : List CborBatch} {stored : List Stored}
    (related : List.Forall₂ (Delivers X t) batches stored) (first : Nat)
    (built : ∀ b ∈ batches, ∃ createdAt sign, CborBatch.new X b.messages createdAt key sign = .ok b)
    (numbers : (batches.flatMap CborBatch.messages).map (number X) =
      (List.range' first (batches.flatMap CborBatch.messages).length).map some) :
        Chained first stored := by
  induction related generalizing first with
  | nil => trivial
  | @cons b s batches stored delivers _ ih =>
    rw [List.flatMap_cons] at numbers
    obtain ⟨own, rest⟩ := numbers_append X _ _ first numbers
    obtain ⟨createdAt, sign, made⟩ := built b List.mem_cons_self
    obtain ⟨nonempty, start, finish⟩ := new_range X b.messages createdAt key sign b made first own
    obtain ⟨startSame, endSame, -, -, converted⟩ := toSignedBatch_ok X b s.batch delivers.2
    have length := converted.length_eq
    have sequences : s.batch.messages.map (fun m => some m.sequence.toNat) =
        (List.range' first s.batch.messages.length).map some := by
      rw [← length, ← own]
      exact (map_related converted fun m message same => sequence_converted X _ m message same).symm
    refine ⟨?_, ?_, ?_, ?_, ?_⟩
    · rw [← List.length_pos_iff, ← length]
      exact List.length_pos_iff.mpr nonempty
    · refine List.map_injective_iff.mpr (Option.some_injective Nat) ?_
      rw [List.map_map]
      exact sequences
    · rw [startSame]
      exact start
    · rw [endSame, ← length]
      exact finish
    · rw [← length]
      exact ih _ (fun b' member => built b' (List.mem_cons_of_mem b member)) rest

theorem messages_delivered (key : Bytes) {batches : List CborBatch} {stored : List Stored}
    (related : List.Forall₂ (Delivers X t) batches stored) (keys : ∀ b ∈ batches, b.pubkey = key) :
    List.Forall₂ (fun m message => m.toSignedMessage X key = .ok message)
      (batches.flatMap CborBatch.messages) (messages stored) := by
  induction related with
  | nil => exact .nil
  | @cons b s batches stored delivers _ ih =>
    obtain ⟨-, -, -, -, converted⟩ := toSignedBatch_ok X b s.batch delivers.2
    rw [keys b List.mem_cons_self] at converted
    exact List.rel_append converted (ih fun b' member => keys b' (List.mem_cons_of_mem b member))

theorem verifyBatchSignature_converted (b : CborBatch) (typed : b.Typed) (batch : SignedBatch)
    (converted : b.toSignedBatch X = .ok batch) : batch.verifyBatchSignature X = .ok () := by
  simp only [CborBatch.toSignedBatch, Outcome.bind_ok] at converted
  obtain ⟨_, signature, key, -, messages, -, returned⟩ := converted
  cases returned
  obtain ⟨-, verifies⟩ := (b.verifyBatchSignature_iff X).mp signature
  simp only [SignedBatch.verifyBatchSignature, Outcome.bind_ok, decodePubkey_ok, decodeSignature_ok,
    stripHexPrefix_hex0x, hexBytes_hexChars, Option.some.injEq, verifyWithKey_ok]
  exact ⟨b.pubkey, ⟨rfl, typed.pubkey⟩, b.batchSignature, ⟨rfl, typed.batchSignature⟩, verifies⟩

/-- A message that was made under the configured key passes the validator. -/
theorem verify_made (reads : X.ReadsMessages) (back : X.ReadsBack) (config : ValidatorConfig)
    (m : CborSignedMessage) (made : Made X config.sequencerPubkey m) (message : SignedMessage)
    (converted : m.toSignedMessage X config.sequencerPubkey = .ok message) :
    SignatureVerifier.verify X config message = .ok () := by
  obtain ⟨sequence, timestamp, messageType, payload, sign, signer, built⟩ := made
  obtain ⟨bytes, coded, returned⟩ := (Outcome.bind_ok _ _ _).mp built
  cases returned
  obtain ⟨signature, header, verified, written, accepted⟩ :=
    built_accepted X reads back _ _ _ _ _ _ signer bytes coded
  have own := (toSignedMessage_unchecked X ⟨bytes⟩ _ _).mpr ⟨_, header, verified, written, rfl⟩
  obtain rfl := Except.ok.inj (own.symm.trans converted)
  have digits : (hexChars config.sequencerPubkey).length = 128 := by
    have length := length_hexEncode config.sequencerPubkey
    rw [hexEncode, String.toList_ofList, signer.length] at length
    exact length
  simp only [SignatureVerifier.verify, accepted]
  simp only [SignedMessage.ofParsed, stripHexPrefix_hex0x, digits, hexBytes_hexChars, ne_eq,
    not_true_eq_false, if_false]
  rfl

/-- The listing shows the batches in the order in which they were published. -/
theorem files_published (lossless : C.Lossless) (d : Deployment) (uploads : List Upload)
    (archived : d.Archived X C t uploads)
    (batches : uploads.map Upload.batch = d.pipeline.task.batcher.transport)
    (ordered : d.pipeline.task.batcher.transport.Pairwise fun b c => b.startSequence <
      c.startSequence) :
    t.files d.objects = d.pipeline.task.batcher.transport.map fun b =>
      ⟨b.startSequence, b.endSequence, t.batchPath b.startSequence b.endSequence⟩ := by
  have mirrors : t.Mirrors C (recorded C uploads) d.objects := by
    rw [archived.objects]
    exact GcsTransport.published_mirrors uploads archived.typed
  have straight := Deployment.archived_straight d uploads archived
  obtain ⟨files, listed, apart⟩ :=
    straight.files_apart (GcsTransport.mirrors_serves X mirrors lossless)
  obtain rfl : t.files d.objects = files := Except.ok.inj listed
  have strict : (t.files d.objects).Pairwise fun f g => f.startSequence < g.startSequence := by
    refine apart.imp_of_mem ?_
    intro f g member _ before
    obtain ⟨r, b, kept, rfl⟩ := (GcsTransport.mem_files mirrors f).mp member
    obtain ⟨rfl, inOrder⟩ := straight.ordered r b kept
    exact UInt64.lt_of_le_of_lt (range_ordered b inOrder) before
  have strict' : (d.pipeline.task.batcher.transport.map fun b =>
      BatchFile.mk b.startSequence b.endSequence
        (t.batchPath b.startSequence b.endSequence)).Pairwise
      fun f g => f.startSequence < g.startSequence := List.pairwise_map.mpr ordered
  have distinct {files : List BatchFile}
      (strict : files.Pairwise fun f g => f.startSequence < g.startSequence) :
      files.Nodup := by
    refine strict.imp fun less same => ?_
    rw [same] at less
    exact UInt64.lt_irrefl _ less
  refine List.Perm.eq_of_pairwise ?_ strict strict'
    ((List.perm_ext_iff_of_nodup (distinct strict) (distinct strict')).mpr ?_)
  · intro f g _ _ less greater
    exact absurd less (UInt64.lt_asymm greater)
  · intro file
    rw [GcsTransport.mem_files mirrors, List.mem_map]
    constructor
    · intro kept
      obtain ⟨r, b, kept, rfl⟩ := kept
      obtain ⟨u, member, -, rfl, rfl⟩ := (Deployment.archived_iff d uploads archived r b).mp kept
      exact ⟨u.batch, batches ▸ List.mem_map_of_mem member, rfl⟩
    · intro published
      obtain ⟨b, member, rfl⟩ := published
      obtain ⟨u, listed, rfl, arrives⟩ := archived.acknowledged b member
      exact ⟨range u.batch, u.batch, (Deployment.archived_iff d uploads archived _ _).mpr
        ⟨u, listed, arrives, rfl, rfl⟩, rfl⟩

/-- The batches of a chain begin one after the other. -/
theorem starts_ordered (key : Bytes) (batches : List CborBatch) (first : Nat)
    (built : ∀ b ∈ batches, ∃ createdAt sign, CborBatch.new X b.messages createdAt key sign = .ok b)
    (numbers : (batches.flatMap CborBatch.messages).map (number X) =
      (List.range' first (batches.flatMap CborBatch.messages).length).map some) :
    (∀ b ∈ batches, first ≤ b.startSequence.toNat) ∧
      batches.Pairwise fun b c => b.startSequence < c.startSequence := by
  induction batches generalizing first with
  | nil => simp
  | cons b batches ih =>
    rw [List.flatMap_cons] at numbers
    obtain ⟨own, rest⟩ := numbers_append X _ _ first numbers
    obtain ⟨createdAt, sign, made⟩ := built b List.mem_cons_self
    obtain ⟨nonempty, start, -⟩ := new_range X b.messages createdAt key sign b made first own
    have positive := List.length_pos_iff.mpr nonempty
    obtain ⟨later, ordered⟩ := ih _ (fun c member => built c (List.mem_cons_of_mem b member)) rest
    constructor
    · intro c member
      rcases List.mem_cons.mp member with rfl | tail
      · omega
      · have after := later c tail
        omega
    · refine List.pairwise_cons.mpr ⟨?_, ordered⟩
      intro c member
      have after := later c member
      rw [UInt64.lt_iff_toNat_lt]
      omega

/-- The batches of a reliable run convert. -/
theorem supplied_converts (reads : X.ReadsMessages) (back : X.ReadsBack) (key : Bytes) (first : Nat)
    (d : Deployment) (h : Supplied X C t key first d) (b : CborBatch)
    (member : b ∈ d.pipeline.task.batcher.transport) : ∃ batch, b.toSignedBatch X = .ok batch := by
  obtain ⟨-, createdAt, sign, signer, built⟩ := h.built b member
  refine new_converts X reads back b.messages createdAt key sign signer ?_ b built
  intro m own
  have whole : d.pipeline.task.batcher.published ++ d.pipeline.task.batcher.messages =
    d.pipeline.task.accepted :=
    h.conserves
  refine h.made.accepted m ?_
  rw [← whole]
  exact List.mem_append_left _ (List.mem_flatMap.mpr ⟨b, member, own⟩)

/-- What the validator is to find: the storage of the converted batches. -/
structure Delivered (config : ValidatorConfig) (first : Nat) (d : Deployment)
    (S : Storage X config) :
    Prop where
  first : S.first = first
  fetcher : GcsFetcher.fetcher X C ⟨t.client⟩ d.objects = S.fetcher
  messages : List.Forall₂
    (fun m message => m.toSignedMessage X config.sequencerPubkey = .ok message)
    d.pipeline.task.batcher.published (messages S.batches)

/-- The converted batches in the order in which they were published. -/
theorem exists_delivered (reads : X.ReadsMessages) (back : X.ReadsBack) (lossless : C.Lossless)
    (key : Bytes) (first : Nat) (d : Deployment) (h : Supplied X C t key first d) :
    ∃ stored, List.Forall₂ (Delivers X t) d.pipeline.task.batcher.transport stored ∧
      (stored.map Stored.path).Nodup ∧ GcsFetcher.fetcher X C ⟨t.client⟩ d.objects =
        bucketFetcher stored ∧
      Chained first stored := by
  obtain ⟨uploads, archived, batches⟩ := h.archived
  have mirrors : t.Mirrors C (recorded C uploads) d.objects := by
    rw [archived.objects]
    exact GcsTransport.published_mirrors uploads archived.typed
  have built (b : CborBatch) (member : b ∈ d.pipeline.task.batcher.transport) :
      ∃ createdAt sign, CborBatch.new X b.messages createdAt key sign = .ok b := by
    obtain ⟨-, createdAt, sign, -, own⟩ := h.built b member
    exact ⟨createdAt, sign, own⟩
  have numbers : (d.pipeline.task.batcher.transport.flatMap CborBatch.messages).map (number X) =
      (List.range' first (d.pipeline.task.batcher.transport.flatMap CborBatch.messages).length).map
        some := by
    have all := h.numbered
    rw [← show d.pipeline.task.batcher.published ++ d.pipeline.task.batcher.messages =
      d.pipeline.task.accepted from h.conserves] at all
    exact (numbers_append X _ _ first all).1
  have files := files_published X C t lossless d uploads archived batches
    (starts_ordered X key _ first built numbers).2
  obtain ⟨stored, related⟩ := exists_stored mirrors lossless fun r b kept => by
    obtain ⟨u, member, -, rfl, -⟩ := (Deployment.archived_iff d uploads archived r b).mp kept
    exact supplied_converts X C t reads back key first d h u.batch
      (batches ▸ List.mem_map_of_mem member)
  have delivered : List.Forall₂ (Delivers X t) d.pipeline.task.batcher.transport stored := by
    have converts := related
    rw [files, List.forall₂_map_left_iff] at converts
    refine ((List.forall₂_and_left _ _).mpr ⟨fun b member => member, converts⟩).imp ?_
    intro b s both
    obtain ⟨member, path, b', kept, -, converted⟩ := both
    obtain ⟨u, listed, rfl, arrives⟩ := archived.acknowledged b member
    have own := (Deployment.archived_iff d uploads archived _ _).mpr ⟨u, listed, arrives, rfl, rfl⟩
    obtain rfl : u.batch = b' := Option.some.inj (own.symm.trans kept)
    exact ⟨path, converted⟩
  exact ⟨stored, delivered, stored_paths related, fetcher_stored mirrors related lossless,
    chained_delivered X t key delivered first built numbers⟩

theorem supplied_delivers (reads : X.ReadsMessages) (back : X.ReadsBack) (lossless : C.Lossless)
    (config : ValidatorConfig) (first : Nat) (d : Deployment)
    (h : Supplied X C t config.sequencerPubkey first d)
    (fits : d.pipeline.task.accepted.length < 2 ^ 63) : ∃ S, Delivered X C t config first d S := by
  obtain ⟨stored, delivered, paths, same, chained⟩ :=
    exists_delivered X C t reads back lossless _ first d h
  have whole : d.pipeline.task.batcher.published ++ d.pipeline.task.batcher.messages =
    d.pipeline.task.accepted :=
    h.conserves
  have converted : List.Forall₂
      (fun m message => m.toSignedMessage X config.sequencerPubkey = .ok message)
      d.pipeline.task.batcher.published (messages stored) := by
    refine messages_delivered X t config.sequencerPubkey delivered fun b member => ?_
    obtain ⟨-, createdAt, sign, -, built⟩ := h.built b member
    obtain ⟨head, last, s, e, signature, -, -, -, -, -, own⟩ :=
      (CborBatch.new_ok X _ _ _ _ _).mp built
    exact congrArg CborBatch.pubkey own
  refine ⟨⟨stored, first, chained, paths, ?_, ?_, ?_⟩, rfl, same, converted⟩
  · intro s member
    obtain ⟨b, published, delivers⟩ := (Outcome.forall₂_partner delivered).2 s member
    exact verifyBatchSignature_converted X b (h.built b published).1 s.batch delivers.2
  · intro message member
    obtain ⟨m, published, own⟩ := (Outcome.forall₂_partner converted).2 message member
    refine verify_made X reads back config m (h.made.accepted m ?_) message own
    rw [← whole]
    exact List.mem_append_left _ published
  · rw [← converted.length_eq]
    have length := congrArg List.length whole
    rw [List.length_append] at length
    omega

/-- A loop that starts at the first message comes to rest where the messages lead. -/
theorem batch_loop_settles {δ : Type} (E : Engine δ) {config : ValidatorConfig}
    (S : Storage X config) (v : Validator δ) (next : v.nextSequence.toNat = S.first) :
    S.BatchSettles E S.batches.length (BatchLoop.enter v S.index)
      (reaches (Validator.runMessage X E config) v.nextSequence v (messages S.batches)) := by
  cases all : S.batches with
  | nil =>
    have empty : S.stop = S.first := by simp [Storage.stop, all, messages]
    exact S.batch_rests E _ rfl (S.batchRests_past v.nextSequence (by omega))
  | cons s rest =>
    have nonempty : s.batch.messages ≠ [] := by
      have chained := S.chained
      rw [all] at chained
      exact chained.1
    have settles := S.batch_settles E rest [] s all [] s.batch.messages rfl nonempty
      (BatchLoop.enter v S.index)
      rfl rfl (by simpa [messages, BatchLoop.enter] using next)
    exact settles

/-- In a run in which signers sign with the configured key and every turn is reliable, a validator
that reads the bucket at any time replays what the batcher has published: the messages that were
taken up, in their order, but for those that are still pending. -/
theorem validator_replays_sequencer (codes : X.CodesMessages) (reads : X.ReadsMessages)
    (back : X.ReadsBack)
    (lossless : C.Lossless) (config : ValidatorConfig) (startSequence : UInt64)
    (batchConfig : BatchConfig) (now : Nat) (turns : List Sequencer.Gcs.Turn)
    (signs : ∀ turn ∈ turns, Signs X config.sequencerPubkey turn)
    (reliable : Run.Along (Deployment.step X compressPayload C t)
      (Reliable X C t startSequence.toNat)
      (.start startSequence batchConfig config.sequencerPubkey now) turns)
    (fits : (Run.run (Deployment.step X compressPayload C t)
      (.start startSequence batchConfig config.sequencerPubkey now)
        turns).pipeline.task.accepted.length < 2 ^ 63) :
    let d := Run.run (Deployment.step X compressPayload C t)
      (.start startSequence batchConfig config.sequencerPubkey now) turns
    d.pipeline.task.batcher.published ++ d.pipeline.task.batcher.messages =
      d.pipeline.task.accepted ∧
    ∃ S : Storage X config, Delivered X C t config startSequence.toNat d S ∧
      ∀ {δ : Type} (E : Engine δ) (v : Validator δ), v.nextSequence = startSequence →
        S.BatchSettles E S.batches.length (BatchLoop.enter v S.index)
          (reaches (Validator.runMessage X E config) startSequence v (messages S.batches)) := by
  intro d
  have supplied := supplied_run X compressPayload C t codes config.sequencerPubkey
    startSequence.toNat turns signs _
    (supplied_start X C t config.sequencerPubkey startSequence batchConfig now) reliable
  obtain ⟨S, delivered⟩ := supplied_delivers X C t reads back lossless config startSequence.toNat d
    supplied fits
  refine ⟨supplied.conserves, S, delivered, ?_⟩
  intro δ E v next
  rw [← next]
  exact batch_loop_settles X E S v (by rw [next, delivered.first])

theorem signHashed_recorded (r : Recorded) (key : Bytes) (curve : onCurve key = true)
    (scalars : ∀ entry ∈ r.signatures, inScalarRange entry.2.2 = true) :
    r.externals.SigningKey key (signHashed r.externals (r.signRawSync key)) := by
  have signer := r.signingKey key curve scalars
  refine ⟨signer.length, ?_⟩
  intro data signature signed
  refine signer.correct data signature ?_
  unfold signHashed at signed
  rw [Recorded.sign]
  split at signed
  · cases signed
  · next bytes raw =>
    obtain ⟨rfl, -⟩ := (signatureFromBytes_ok _ _ _).mp signed
    rw [raw]
    rfl

theorem validator_replays_sequencer_two :
    ∃ S : Storage Sample.record.externals Sample.validatorConfig,
      GcsFetcher.fetcher Sample.record.externals Sample.codec ⟨GcsTransport.sampleTransport.client⟩
        sampleRun.objects = S.fetcher ∧ (messages S.batches).length = 2 ∧
      S.BatchSettles Sample.engine S.batches.length (BatchLoop.enter Sample.freshValidator S.index)
        (reaches (Validator.runMessage Sample.record.externals Sample.engine Sample.validatorConfig)
          0 Sample.freshValidator (messages S.batches)) := by
  have codes : Sample.record.externals.CodesMessages := Recorded.codesMessages _ (by decide +kernel)
  have signer := signHashed_recorded Sample.record Sample.pubkey (by decide) (by decide)
  have signs : ∀ turn ∈ sampleTurns,
      Signs Sample.record.externals Sample.validatorConfig.sequencerPubkey turn := by
    intro turn member
    obtain ⟨move, own, rfl⟩ := List.mem_map.mp member
    simp only [Pipeline.twoRequests, List.mem_cons, List.not_mem_nil, or_false] at own
    rcases own with rfl | rfl | rfl | rfl | rfl | rfl | rfl | rfl
    · exact signer
    · exact signer
    · trivial
    · trivial
    · trivial
    · exact signer
    · exact signer
    · exact signer
  have reliable : Run.Along
      (Deployment.step Sample.record.externals Pipeline.sampleCompress Sample.codec
        GcsTransport.sampleTransport)
      (Reliable Sample.record.externals Sample.codec GcsTransport.sampleTransport
        (0 : UInt64).toNat)
      (.start 0 ⟨50, 1048576, 5000⟩ Sample.validatorConfig.sequencerPubkey 0) sampleTurns := by
    decide +kernel
  obtain ⟨-, S, delivered, settles⟩ :=
    validator_replays_sequencer Sample.record.externals Pipeline.sampleCompress
    Sample.codec GcsTransport.sampleTransport codes (Sample.record.readsMessages Sample.wellFormed)
    (Sample.record.readsBack (by decide +kernel)) Sample.codec_lossless Sample.validatorConfig 0
    ⟨50, 1048576, 5000⟩ 0 sampleTurns signs reliable (by decide +kernel)
  refine ⟨S, delivered.fetcher, delivered.messages.length_eq.symm.trans ?_,
    settles Sample.engine Sample.freshValidator rfl⟩
  decide +kernel

end SyndDB.Replication.Gcs
