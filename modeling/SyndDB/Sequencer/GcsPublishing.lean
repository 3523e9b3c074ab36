import SyndDB.Sequencer.GcsTransport

namespace SyndDB.Sequencer

open Octets Shared

variable (X : Externals) (compressPayload : Bytes → Bytes)

/-- The batch of a flush. -/
def Batcher.toPublish (answers : Answers) (b : Batcher) : Option CborBatch :=
  if b.pending.isEmpty then none
  else (CborBatch.new X b.messages answers.createdAt b.keyManager
    (signBatchData X answers)).toOption

/-- The batch of a turn, whether or not the transport takes it. -/
def Task.submitted (t : Task) (e : Event × Answers) : Option CborBatch :=
  (t.flushing e.1 e.2).bind (Batcher.toPublish X e.2)

def Pipeline.submitted (p : Pipeline) : Move → Option CborBatch
  | .receive answers => p.channel.head?.bind fun c => p.task.submitted X (.command c, answers)
  | .tick answers => p.task.submitted X (.tick, answers)
  | .sequence _ | .abandon _ | .add _ | .control _ => none

def Answers.through (publish : CborBatch → Except TransportError PublishMetadata)
    (answers : Answers) :
    Answers :=
  { answers with publish := publish }

def Move.through (publish : CborBatch → Except TransportError PublishMetadata) : Move → Move
  | .receive answers => .receive (answers.through publish)
  | .tick answers => .tick (answers.through publish)
  | .sequence submission => .sequence submission
  | .abandon handler => .abandon handler
  | .add handler => .add handler
  | .control c => .control c

/-- The batches that the transport has taken are replaced. -/
def Batcher.over (batches : List CborBatch) (b : Batcher) : Batcher :=
  { b with transport := batches }

def Task.over (batches : List CborBatch) (t : Task) : Task :=
  { t with batcher := t.batcher.over batches }

def Pipeline.over (batches : List CborBatch) (p : Pipeline) : Pipeline :=
  { p with task := p.task.over batches }

theorem flushBatch_pending (answers : Answers) (b : Batcher) :
    (b.flushBatch X answers).2.pending = [] := by
  obtain ⟨empty, same⟩ | ⟨-, -, batch, -, -, pending, -⟩ | ⟨-, -, lost⟩ :=
    b.flushBatch_cases X answers
  · rw [same]
    exact empty
  · exact pending
  · rw [lost]

/-- A flush appends its batch if the transport takes it. -/
theorem flushBatch_transport (answers : Answers) (b : Batcher) :
    (b.flushBatch X answers).2.transport =
      b.transport ++ ((b.toPublish X answers).filter
        fun batch => (answers.publish batch).isOk).toList := by
  unfold Batcher.flushBatch Batcher.toPublish
  cases b.pending.isEmpty with
  | true => exact (List.append_nil _).symm
  | false =>
    cases CborBatch.new X b.messages answers.createdAt b.keyManager (signBatchData X answers) with
    | error e => exact (List.append_nil _).symm
    | ok batch =>
      have one : (Except.ok batch : Except CborError CborBatch).toOption = some batch := rfl
      simp only [Bool.false_eq_true, if_false, one, Option.filter_some]
      cases answers.publish batch with
      | error e => exact (List.append_nil _).symm
      | ok metadata => rfl

theorem flushBatch_keyManager (answers : Answers) (b : Batcher) :
    (b.flushBatch X answers).2.keyManager = b.keyManager := by
  unfold Batcher.flushBatch
  split
  · rfl
  · split
    · rfl
    · split
      · rfl
      · rfl

namespace Task

theorem intake_over (batches : List CborBatch) (t : Task) (event : Event) :
    (t.over batches).intake event = (t.intake event).over batches := by
  cases event with
  | tick => rfl
  | command c =>
    cases c with
    | AddMessage m =>
      have same : (t.over batches).running = t.running := rfl
      rw [intake, intake, same]
      cases t.running with
      | true => rfl
      | false => rfl
    | Flush => rfl
    | GetStats => rfl
    | Shutdown => rfl

theorem flushing_over (batches : List CborBatch) (t : Task) (event : Event) (answers : Answers) :
    (t.over batches).flushing event answers =
      (t.flushing event answers).map (Batcher.over batches) := by
  unfold flushing
  have same : (t.over batches).running = t.running := rfl
  rw [same]
  cases t.running with
  | false => rfl
  | true =>
    cases event with
    | tick =>
      by_cases due : t.batcher.config.flushInterval ≤ answers.now - t.batcher.lastFlush
      · simp [Task.over, Batcher.over, due]
      · simp [Task.over, Batcher.over, due]
    | command c =>
      cases c with
      | AddMessage m =>
        have full : ((t.over batches).batcher.push m).shouldFlush =
          (t.batcher.push m).shouldFlush := rfl
        dsimp only
        rw [full]
        cases (t.batcher.push m).shouldFlush with
        | true => rfl
        | false => rfl
      | Flush => rfl
      | GetStats => rfl
      | Shutdown => rfl

/-- A turn over other batches goes the same way, up to what the transport answers. -/
theorem step_over (batches : List CborBatch) (t : Task) (event : Event) (answers : Answers)
    (publish : CborBatch → Except TransportError PublishMetadata) :
    ((t.over batches).step X (event, answers.through publish)).batcher.pending =
        (t.step X (event, answers)).batcher.pending ∧
      ((t.over batches).step X (event, answers.through publish)).batcher.transport =
        batches ++ ((t.submitted X (event, answers)).filter
          fun batch => (publish batch).isOk).toList := by
  have flushing := flushing_over batches t event (answers.through publish)
  have intake := intake_over batches t event
  have now : t.flushing event (answers.through publish) = t.flushing event answers := rfl
  rw [now] at flushing
  obtain ⟨-, ⟨flushes, flushed⟩ | ⟨idle, transport, pending, -⟩⟩ := t.step_cases X (event, answers)
  · obtain ⟨-, ⟨flushes', flushed'⟩ | ⟨idle', -⟩⟩ :=
      (t.over batches).step_cases X (event, answers.through publish)
    · rw [flushed, flushed', intake, flushBatch_pending, flushBatch_pending, flushBatch_transport,
        submitted, flushes]
      exact ⟨rfl, rfl⟩
    · rw [flushing, flushes] at idle'
      cases idle'
  · obtain ⟨-, ⟨flushes', flushed'⟩ | ⟨idle', transport', pending', -⟩⟩ :=
      (t.over batches).step_cases X (event, answers.through publish)
    · rw [flushing, idle] at flushes'
      cases flushes'
    · rw [transport', pending', pending, intake, submitted, idle]
      exact ⟨rfl, (List.append_nil _).symm⟩

theorem step_keyManager (t : Task) (e : Event × Answers) :
    (t.step X e).batcher.keyManager = t.batcher.keyManager := by
  obtain ⟨event, answers⟩ := e
  have flushed (b : Batcher) := flushBatch_keyManager X answers b
  cases running : t.running with
  | false => simp [step, serve, running]
  | true =>
    cases event with
    | tick =>
      simp only [step, serve, running, Batcher.onTick, Bool.not_true, Bool.false_eq_true, if_false]
      split
      · exact flushed _
      · rfl
    | command c =>
      cases c with
      | AddMessage m =>
        simp only [step, serve, running, Batcher.handleAddMessage, Bool.not_true,
          Bool.false_eq_true, if_false]
        split
        · exact flushed _
        · rfl
      | Flush =>
        simp only [step, serve, running, Bool.not_true, Bool.false_eq_true, if_false]
        exact flushed _
      | GetStats => simp [step, serve, running, Batcher.getStats]
      | Shutdown =>
        simp only [step, serve, running, Bool.not_true, Bool.false_eq_true, if_false]
        split
        · rfl
        · exact flushed _

end Task

namespace Pipeline

variable {X}

theorem Sound.congr {p q : Pipeline} (h : p.Sound X) (sequence : q.sequence = p.sequence)
    (inFlight : q.inFlight = p.inFlight) (channel : q.channel = p.channel)
    (pending : q.task.batcher.pending = p.task.batcher.pending)
    (transport : q.task.batcher.transport = p.task.batcher.transport) : q.Sound X := by
  have messages : q.task.batcher.messages = p.task.batcher.messages := congrArg (List.map _) pending
  have tracked : q.tracked = p.tracked := by
    simp only [Pipeline.tracked, handedOver, Batcher.held, Batcher.published, messages,
      inFlight, channel, transport]
  refine h.mono tracked.le sequence ?_ ?_
  · rw [messages]
    exact h.pending
  · rw [transport]
    exact h.ordered

variable (X)

theorem send_over (batches : List CborBatch) (p : Pipeline) (c : BatcherCommand) :
    (p.over batches).send c = (p.send c).over batches := by
  have same : (p.over batches).task.running = p.task.running := rfl
  unfold send
  rw [same]
  cases p.task.running with
  | true => rfl
  | false => rfl

/-- A transport that takes everything. -/
def taking (batch : CborBatch) : Except TransportError PublishMetadata :=
  .ok ⟨"", batch.contentHash, 0, 0⟩

/-- A move over other batches goes the same way, up to what the transport answers. -/
theorem step_over (p : Pipeline) (batches : List CborBatch) (move : Move) :
    let q := (p.over batches).step X compressPayload (move.through taking)
    let r := p.step X compressPayload move
    q.sequence = r.sequence ∧ q.inFlight = r.inFlight ∧ q.channel = r.channel ∧
      q.task.batcher.pending = r.task.batcher.pending ∧
      q.task.batcher.transport = batches ++ (p.submitted X move).toList := by
  have all (found : Option CborBatch) :
      found.filter (fun batch => (taking batch).isOk) = found := by
    cases found with
    | none => rfl
    | some batch => rfl
  have idle {q r : Pipeline} (same : q = r.over batches) : q.sequence = r.sequence ∧
      q.inFlight = r.inFlight ∧ q.channel = r.channel ∧ q.task.batcher.pending =
        r.task.batcher.pending ∧
      q.task.batcher.transport = batches ++ [] := by
    rw [same]
    exact ⟨rfl, rfl, rfl, rfl, (List.append_nil _).symm⟩
  cases move with
  | sequence submission =>
    refine idle ?_
    simp only [Move.through, step]
    have key : (p.over batches).task.batcher.keyManager = p.task.batcher.keyManager := rfl
    have sequence : (p.over batches).sequence = p.sequence := rfl
    rw [key, sequence]
    cases sequenceMessage X compressPayload p.task.batcher.keyManager p.sequence submission with
    | mk result next =>
      cases result with
      | ok signed => rfl
      | error e => rfl
  | abandon handler => exact idle rfl
  | add handler =>
    refine idle ?_
    have inFlight : (p.over batches).inFlight = p.inFlight := rfl
    have room : (p.over batches).hasRoom = p.hasRoom := rfl
    simp only [Move.through, step, inFlight, room]
    cases p.inFlight[handler]? with
    | none => rfl
    | some m =>
      cases p.hasRoom with
      | false => rfl
      | true =>
        exact send_over batches { p with inFlight := p.inFlight.eraseIdx handler } (.AddMessage m)
  | control c =>
    refine idle ?_
    have room : (p.over batches).hasRoom = p.hasRoom := rfl
    simp only [Move.through, step, room]
    cases p.hasRoom with
    | false => rfl
    | true => exact send_over batches p c.command
  | receive answers =>
    have channel : (p.over batches).channel = p.channel := rfl
    simp only [Move.through, step, submitted, channel]
    cases p.channel with
    | nil => exact ⟨rfl, rfl, channel, rfl, (List.append_nil _).symm⟩
    | cons c rest =>
      obtain ⟨pending, transport⟩ := Task.step_over X batches p.task (.command c) answers taking
      rw [all] at transport
      exact ⟨rfl, rfl, rfl, pending, transport⟩
  | tick answers =>
    obtain ⟨pending, transport⟩ := Task.step_over X batches p.task .tick answers taking
    rw [all] at transport
    exact ⟨rfl, rfl, rfl, pending, transport⟩

theorem submitted_through (p : Pipeline) (move : Move)
    (publish : CborBatch → Except TransportError PublishMetadata) :
    p.submitted X (move.through publish) = p.submitted X move := by
  cases move with
  | _ => rfl

/-- The batcher knows the batches that were taken. -/
theorem step_transport (p : Pipeline) (move : Move)
    (publish : CborBatch → Except TransportError PublishMetadata) :
    (p.step X compressPayload (move.through publish)).task.batcher.transport =
      p.task.batcher.transport ++
        ((p.submitted X move).filter fun batch => (publish batch).isOk).toList := by
  have idle (move : Move) (same : move.through taking = move) (none : p.submitted X move = none) :
      (p.step X compressPayload move).task.batcher.transport = p.task.batcher.transport ++ [] := by
    obtain ⟨-, -, -, -, transport⟩ := step_over X compressPayload p p.task.batcher.transport move
    rw [none, same] at transport
    exact transport
  cases move with
  | sequence submission => exact idle _ rfl rfl
  | abandon handler => exact idle _ rfl rfl
  | add handler => exact idle _ rfl rfl
  | control c => exact idle _ rfl rfl
  | receive answers =>
    simp only [Move.through, step, submitted]
    cases p.channel with
    | nil => exact (List.append_nil _).symm
    | cons c rest =>
      exact (Task.step_over X p.task.batcher.transport p.task (.command c) answers publish).2
  | tick answers => exact (Task.step_over X p.task.batcher.transport p.task .tick answers publish).2

theorem step_keyManager (p : Pipeline) (move : Move) :
    (p.step X compressPayload move).task.batcher.keyManager = p.task.batcher.keyManager := by
  cases move with
  | sequence submission =>
    simp only [step]
    split
    · rfl
    · rfl
  | abandon handler => rfl
  | add handler =>
    simp only [step]
    split
    · split
      · unfold send
        split
        · rfl
        · rfl
      · rfl
    · rfl
  | control c =>
    simp only [step]
    split
    · unfold send
      split
      · rfl
      · rfl
    · rfl
  | receive answers =>
    simp only [step]
    split
    · exact Task.step_keyManager X _ _
    · rfl
  | tick answers => exact Task.step_keyManager X _ _

/-- Whatever the transport answers, the numbers of all batches that were handed to
it stay straight. -/
theorem step_over_sound (codes : X.CodesMessages) (p : Pipeline) (batches : List CborBatch)
    (move : Move) (h : (p.over batches).Sound X) (orderly : p.Orderly X move) :
    ((p.step X compressPayload move).over (batches ++ (p.submitted X move).toList)).Sound X := by
  have orderly' : (p.over batches).Orderly X (move.through taking) := by
    cases move with
    | _ => exact orderly
  obtain ⟨sequence, inFlight, channel, pending, transport⟩ :=
    step_over X compressPayload p batches move
  exact (step_sound X compressPayload codes _ _ h orderly').congr sequence.symm inFlight.symm
    channel.symm pending.symm transport.symm

end Pipeline

namespace Gcs

open ObjectStore

structure Deployment where
  pipeline : Pipeline
  objects : Bucket Bytes

/-- A move, with the failure that an upload in it meets. -/
structure Turn where
  move : Move
  fault : Option (String × Bool)

variable (C : Codec) (t : GcsTransport)

namespace Deployment

def start (startSequence : UInt64) (config : BatchConfig) (keyManager : Bytes) (now : Nat) :
    Deployment :=
  ⟨.start startSequence config keyManager now, .empty⟩

/-- The call of `publish` in a turn. -/
def upload (d : Deployment) (turn : Turn) : Option Upload :=
  (d.pipeline.submitted X turn.move).map fun batch => ⟨batch, turn.fault⟩

def step (d : Deployment) (turn : Turn) : Deployment where
  pipeline := d.pipeline.step X compressPayload
    (turn.move.through fun batch => (t.publish C batch turn.fault d.objects).1)
  objects :=
    match d.upload X turn with
    | none => d.objects
    | some u => (t.publish C u.batch u.fault d.objects).2

/-- What a turn must meet: the move is orderly, and the arrays have the lengths of their types. -/
def Orderly (d : Deployment) (turn : Turn) : Prop :=
  d.pipeline.Orderly X turn.move ∧ ∀ b ∈ d.pipeline.submitted X turn.move, b.Typed

/-- The bucket is what the uploads made of it, and all their batches have straight numbers. -/
structure Archived (d : Deployment) (uploads : List Upload) : Prop where
  objects : d.objects = t.published C uploads
  typed : ∀ u ∈ uploads, u.batch.Typed
  sound : (d.pipeline.over (uploads.map Upload.batch)).Sound X
  acknowledged : ∀ b ∈ d.pipeline.task.batcher.transport, ∃ u ∈ uploads, u.batch = b ∧ u.Arrives C

instance (b : CborBatch) : Decidable b.Typed :=
  decidable_of_iff (b.contentHash.length = 32 ∧ b.batchSignature.length = 64 ∧ b.pubkey.length = 64)
    ⟨fun h => ⟨h.1, h.2.1, h.2.2⟩, fun h => ⟨h.1, h.2, h.3⟩⟩

instance (d : Deployment) (turn : Turn) : Decidable (d.Orderly X turn) :=
  inferInstanceAs (Decidable (_ ∧ ∀ b ∈ d.pipeline.submitted X turn.move, b.Typed))

variable {C t}

theorem start_archived (startSequence : UInt64) (config : BatchConfig) (keyManager : Bytes)
    (now : Nat) :
    (start startSequence config keyManager now).Archived X C t [] where
  objects := rfl
  typed := by simp
  sound := Pipeline.start_sound X startSequence config keyManager now
  acknowledged := by
    intro b member
    cases member

theorem step_archived (codes : X.CodesMessages) (d : Deployment) (turn : Turn)
    (uploads : List Upload) (h : d.Archived X C t uploads) (orderly : d.Orderly X turn) :
    (d.step X compressPayload C t turn).Archived X C t (uploads ++ (d.upload X turn).toList) where
  objects := by
    rw [step, upload]
    cases d.pipeline.submitted X turn.move with
    | none => simpa using h.objects
    | some batch =>
      simp only [Option.map_some, Option.toList_some, h.objects]
      rw [GcsTransport.published, GcsTransport.published, List.foldl_append]
      rfl
  typed := by
    intro u member
    rcases List.mem_append.mp member with old | new
    · exact h.typed u old
    · obtain ⟨batch, submitted, rfl⟩ := Option.map_eq_some_iff.mp (Option.mem_toList.mp new)
      exact orderly.2 batch submitted
  sound := by
    have batches : (uploads ++ (d.upload X turn).toList).map Upload.batch =
        uploads.map Upload.batch ++ (d.pipeline.submitted X turn.move).toList := by
      rw [upload, List.map_append]
      cases d.pipeline.submitted X turn.move with
      | none => rfl
      | some batch => rfl
    have orderly' : d.pipeline.Orderly X
        (turn.move.through fun batch => (t.publish C batch turn.fault d.objects).1) := by
      have own := orderly.1
      cases move : turn.move with
      | _ =>
        rw [move] at own
        exact own
    have sound := Pipeline.step_over_sound X compressPayload codes d.pipeline
      (uploads.map Upload.batch) _ h.sound
      orderly'
    rw [Pipeline.submitted_through] at sound
    rw [batches]
    exact sound
  acknowledged := by
    intro b member
    rw [step, Pipeline.step_transport] at member
    rcases List.mem_append.mp member with old | new
    · obtain ⟨u, listed, rfl, arrives⟩ := h.acknowledged b old
      exact ⟨u, List.mem_append_left _ listed, rfl, arrives⟩
    · obtain ⟨submitted, taken⟩ := Option.filter_eq_some_iff.mp (Option.mem_toList.mp new)
      refine ⟨⟨b, turn.fault⟩, List.mem_append_right _ ?_, rfl, ?_⟩
      · rw [upload, submitted]
        exact List.mem_singleton.mpr rfl
      · cases answer : (t.publish C b turn.fault d.objects).1 with
        | error e =>
          rw [answer] at taken
          cases taken
        | ok metadata => exact GcsTransport.acknowledged ⟨b, turn.fault⟩ d.objects metadata answer

/-- The uploads of a run are added to those before. -/
theorem run_archived (codes : X.CodesMessages) (turns : List Turn) (d : Deployment)
    (uploads : List Upload) (h : d.Archived X C t uploads)
    (orderly : Run.Along (step X compressPayload C t) (Orderly X) d turns) :
    ∃ later, (Run.run (step X compressPayload C t) d turns).Archived X C t (uploads ++ later) := by
  induction turns generalizing d uploads with
  | nil => exact ⟨[], by rw [List.append_nil]; exact h⟩
  | cons turn turns ih =>
    obtain ⟨later, archived⟩ :=
      ih _ _ (step_archived X compressPayload codes d turn uploads h orderly.1)
      orderly.2
    exact ⟨(d.upload X turn).toList ++ later, by rw [← List.append_assoc]; exact archived⟩

end Deployment

variable {C} {t}

/-- Of uploads with different ranges, the archive has those that arrived. -/
theorem recorded_eq_some (uploads : List Upload) (archive : Archive) (r : UInt64 × UInt64)
    (b : CborBatch) (distinct : uploads.Pairwise fun u v => range u.batch ≠ range v.batch)
    (fresh : ∀ u ∈ uploads, archive (range u.batch) = none) :
    uploads.foldl (Archive.record C) archive r = some b ↔
      archive r = some b ∨ ∃ u ∈ uploads, u.Arrives C ∧ u.batch = b ∧ range b = r := by
  induction uploads generalizing archive with
  | nil => simp
  | cons u rest ih =>
    obtain ⟨others, distinct⟩ := List.pairwise_cons.mp distinct
    have own :
        archive.record C u r = some b ↔ archive r = some b ∨ u.Arrives C ∧ u.batch = b ∧
          range b = r := by
      rw [Archive.record]
      split
      · next arrives =>
        by_cases same : r = range u.batch
        · rw [same, Function.update_self, Option.some.injEq, fresh u List.mem_cons_self]
          constructor
          · intro found
            exact .inr ⟨arrives, found, found ▸ rfl⟩
          · intro either
            rcases either with none | ⟨-, found, -⟩
            · cases none
            · exact found
        · rw [Function.update_of_ne same]
          refine ⟨.inl, fun either => ?_⟩
          rcases either with found | ⟨-, rfl, found⟩
          · exact found
          · exact absurd found.symm same
      · next lost =>
        refine ⟨.inl, fun either => ?_⟩
        rcases either with found | ⟨arrives, -⟩
        · exact found
        · exact absurd arrives lost
    have later : ∀ v ∈ rest, archive.record C u (range v.batch) = none := by
      intro v member
      have before := fresh v (List.mem_cons_of_mem u member)
      rw [Archive.record]
      split
      · rw [Function.update_of_ne (others v member).symm]
        exact before
      · exact before
    rw [List.foldl_cons, ih _ distinct later, own, or_assoc]
    refine or_congr_right ?_
    rw [List.exists_mem_cons_iff]

/-- The batches are in order, and a number is in the range of one of them at most. -/
structure Straight (archive : Archive) : Prop where
  ordered : ∀ r b, archive r = some b → range b = r ∧ InOrder X b
  apart : ∀ r b r' b' n, archive r = some b → archive r' = some b' → r.1 ≤ n → n ≤ r.2 →
    r'.1 ≤ n → n ≤ r'.2 → r = r'

variable {X}

theorem range_ordered (b : CborBatch) (h : InOrder X b) : b.startSequence ≤ b.endSequence :=
  UInt64.le_iff_toNat_le.mpr (h.least.2 h.greatest.1)

theorem number_eq_some (m : CborSignedMessage) (n : UInt64) :
    number X m = some n.toNat ↔ (m.sequence X).toOption = some n := by
  rw [number, Option.map_eq_some_iff]
  constructor
  · intro h
    obtain ⟨n', found, same⟩ := h
    rw [found, UInt64.toNat_inj.mp same]
  · intro found
    exact ⟨n, found, rfl⟩

/-- A message of a batch in order is found under its number, and nothing else is. -/
theorem messageOf_eq_some (b : CborBatch) (h : InOrder X b) (n : UInt64) (m : CborSignedMessage) :
    Local.messageOf X b n = some m ↔ m ∈ b.messages ∧ (m.sequence X).toOption = some n := by
  obtain ⟨first, numbers⟩ := h.consecutive
  have distinct : (b.messages.map (number X)).Nodup := by
    rw [numbers]
    exact List.Nodup.map (Option.some_injective _) List.nodup_range'
  constructor
  · intro found
    exact ⟨List.mem_of_find?_eq_some found, by simpa using List.find?_some found⟩
  · intro own
    obtain ⟨member, read⟩ := own
    obtain ⟨m', found⟩ : ∃ m', Local.messageOf X b n = some m' := by
      rw [← Option.isSome_iff_exists, Local.messageOf, List.find?_isSome]
      exact ⟨m, member, decide_eq_true read⟩
    have read' : (m'.sequence X).toOption = some n := by simpa using List.find?_some found
    rw [found, List.inj_on_of_nodup_map distinct (List.mem_of_find?_eq_some found) member]
    rw [(number_eq_some m' n).mpr read', (number_eq_some m n).mpr read]

namespace Straight

variable {archive : Archive} (straight : Straight X archive) {objects : Bucket Bytes}
  (serves : t.Serves X C archive objects)

include straight in
/-- A batch in order covers the numbers of its messages. -/
theorem covers (r : UInt64 × UInt64) (b : CborBatch) (kept : archive r = some b)
    (m : CborSignedMessage)
    (member : m ∈ b.messages) (n : UInt64) (read : (m.sequence X).toOption = some n) : r.1 ≤ n ∧
      n ≤ r.2 := by
  obtain ⟨rfl, ordered⟩ := straight.ordered r b kept
  have own := (number_eq_some m n).mpr read
  exact ⟨UInt64.le_iff_toNat_le.mpr (ordered.least.2 ⟨m, member, own⟩),
    UInt64.le_iff_toNat_le.mpr (ordered.greatest.2 ⟨m, member, own⟩)⟩

include straight serves in
/-- The batch under a start is the only one of the archive. -/
theorem fetch_iff (start : UInt64) (b : CborBatch) :
    t.fetch C .none start objects = .ok (some b) ↔ ∃ e, archive (start, e) = some b := by
  rcases serves.fetched start with ⟨missing, answer⟩ | ⟨e, b', kept, answer⟩
  · rw [answer]
    simp [missing]
  · rw [answer, Except.ok.injEq, Option.some.injEq]
    constructor
    · intro same
      exact ⟨e, same ▸ kept⟩
    · intro other
      obtain ⟨e', kept'⟩ := other
      obtain ⟨own, ordered⟩ := straight.ordered _ _ kept
      obtain ⟨own', ordered'⟩ := straight.ordered _ _ kept'
      have up : start ≤ e := (Prod.mk.inj own).1 ▸ (Prod.mk.inj own).2 ▸ range_ordered b' ordered
      have up' : start ≤ e' :=
        (Prod.mk.inj own').1 ▸ (Prod.mk.inj own').2 ▸ range_ordered b ordered'
      have same := straight.apart _ _ _ _ start kept kept' (UInt64.le_refl _) up
        (UInt64.le_refl _) up'
      rw [same, kept'] at kept
      exact (Option.some.inj kept).symm

include straight serves in
/-- The message under a number is the only one of the archive. -/
theorem getMessage_iff (n : UInt64) (m : CborSignedMessage) :
    t.getMessage X C .none n objects = .ok (some m) ↔
      ∃ r b, archive r = some b ∧ m ∈ b.messages ∧ (m.sequence X).toOption = some n := by
  rcases serves.found n with ⟨missing, answer⟩ | ⟨r, b, kept, low, high, answer⟩
  · rw [answer]
    constructor
    · intro found
      cases found
    · intro other
      obtain ⟨r, b, kept, member, read⟩ := other
      exact absurd (straight.covers r b kept m member n read) (missing r (by rw [kept]; rfl))
  · rw [answer, Except.ok.injEq, messageOf_eq_some b (straight.ordered r b kept).2]
    constructor
    · intro own
      exact ⟨r, b, kept, own⟩
    · intro other
      obtain ⟨r', b', kept', member, read⟩ := other
      obtain ⟨low', high'⟩ := straight.covers r' b' kept' m member n read
      obtain rfl := straight.apart r b r' b' n kept kept' low high low' high'
      obtain rfl := Option.some.inj (kept.symm.trans kept')
      exact ⟨member, read⟩

include straight serves in
/-- The listing shows ranges one after the other. -/
theorem files_apart : ∃ files, t.listBatchFiles .none objects = .ok files ∧
    files.Pairwise fun f g => f.endSequence < g.startSequence := by
  obtain ⟨files, listed, sorted, paths, member⟩ := serves.listed
  refine ⟨files, listed, (sorted.and (List.pairwise_map.mp paths)).imp_of_mem ?_⟩
  intro f g hf hg both
  obtain ⟨order, differs⟩ := both
  obtain ⟨pathF, keptF⟩ := (member f).mp hf
  obtain ⟨pathG, keptG⟩ := (member g).mp hg
  obtain ⟨b, keptF⟩ := Option.isSome_iff_exists.mp keptF
  obtain ⟨c, keptG⟩ := Option.isSome_iff_exists.mp keptG
  by_contra overlap
  obtain ⟨own, ordered⟩ := straight.ordered _ _ keptG
  have up : g.startSequence ≤ g.endSequence :=
    (Prod.mk.inj own).1 ▸ (Prod.mk.inj own).2 ▸ range_ordered c ordered
  have same := straight.apart _ _ _ _ g.startSequence keptF keptG order (UInt64.not_lt.mp overlap)
    (UInt64.le_refl _) up
  obtain ⟨starts, ends⟩ := Prod.mk.inj same
  rw [pathF, pathG, starts, ends] at differs
  exact differs rfl

end Straight

namespace Deployment

variable (d : Deployment) (uploads : List Upload) (h : d.Archived X C t uploads)

include h in
theorem archived_apart : uploads.Pairwise fun u v =>
    u.batch.endSequence < v.batch.startSequence ∨ v.batch.endSequence < u.batch.startSequence :=
  List.pairwise_map.mp (Pipeline.ranges_disjoint X _ h.sound)

include h in
theorem archived_ordered (u : Upload) (member : u ∈ uploads) : InOrder X u.batch :=
  h.sound.ordered u.batch (List.mem_map_of_mem member)

include h in
theorem archived_iff (r : UInt64 × UInt64) (b : CborBatch) :
    recorded C uploads r = some b ↔ ∃ u ∈ uploads, u.Arrives C ∧ u.batch = b ∧ range b = r := by
  have distinct : uploads.Pairwise fun u v => range u.batch ≠ range v.batch := by
    refine (archived_apart d uploads h).imp_of_mem ?_
    intro u v member _ apart same
    have up := UInt64.le_iff_toNat_le.mp
      (range_ordered u.batch (archived_ordered d uploads h u member))
    obtain ⟨starts, ends⟩ := Prod.mk.inj same
    rw [← starts, ← ends, or_self, UInt64.lt_iff_toNat_lt] at apart
    omega
  rw [recorded, recorded_eq_some uploads _ r b distinct fun _ _ => rfl]
  simp

include h in
theorem archived_straight : Straight X (recorded C uploads) where
  ordered := by
    intro r b kept
    obtain ⟨u, member, -, rfl, own⟩ := (archived_iff d uploads h r b).mp kept
    exact ⟨own, archived_ordered d uploads h u member⟩
  apart := by
    intro r b r' b' n kept kept' low high low' high'
    obtain ⟨u, member, -, rfl, rfl⟩ := (archived_iff d uploads h r b).mp kept
    obtain ⟨v, member', -, rfl, rfl⟩ := (archived_iff d uploads h r' b').mp kept'
    let Either (u v : Upload) : Prop := range u.batch = range v.batch ∨
      u.batch.endSequence < v.batch.startSequence ∨ v.batch.endSequence < u.batch.startSequence
    have apart : uploads.Pairwise Either := (archived_apart d uploads h).imp .inr
    have either : Either u v := apart.forall_of_forall_of_flip (fun _ _ => .inl rfl)
      (apart.imp fun related => related.imp Eq.symm Or.symm) member member'
    simp only [range, UInt64.le_iff_toNat_le] at low high low' high'
    simp only [Either, UInt64.lt_iff_toNat_lt] at either
    rcases either with same | before | after
    · exact same
    · omega
    · omega

end Deployment

variable (X)

/-- In an orderly run the bucket only grows. Whatever is read from it, with whatever failures, is in
order and stays there, and so does every batch that was acknowledged; the listing shows ranges one
after the other. -/
theorem bucket_append_only (codes : X.CodesMessages) (lossless : C.Lossless) (t : GcsTransport)
    (startSequence : UInt64) (config : BatchConfig) (keyManager : Bytes) (now : Nat)
    (turns later : List Turn)
    (orderly : Run.Along (Deployment.step X compressPayload C t) (Deployment.Orderly X)
      (.start startSequence config keyManager now) (turns ++ later)) :
    let d := Run.run (Deployment.step X compressPayload C t)
      (.start startSequence config keyManager now) turns
    let d' := Run.run (Deployment.step X compressPayload C t) d later
    (∃ files, t.listBatchFiles .none d.objects = .ok files ∧
      files.Pairwise fun f g => f.endSequence < g.startSequence) ∧
    (∀ b ∈ d.pipeline.task.batcher.transport, t.fetch C .none b.startSequence d'.objects =
      .ok (some b)) ∧
    (∀ faults start b, t.fetch C faults start d.objects = .ok (some b) →
      InOrder X b ∧ t.fetch C .none start d'.objects = .ok (some b) ∧
      ∀ m ∈ b.messages, ∀ n, m.sequence X = .ok n → t.getMessage X C .none n d'.objects =
        .ok (some m)) ∧
    ∀ faults n m, t.getMessage X C faults n d.objects = .ok (some m) →
      m.sequence X = .ok n ∧ t.getMessage X C .none n d'.objects = .ok (some m) := by
  intro d d'
  obtain ⟨before, after⟩ := (Run.along_append _ _ _ turns later).mp orderly
  obtain ⟨uploads, archived⟩ :=
    Deployment.run_archived (t := t) (C := C) X compressPayload codes turns _ []
    (Deployment.start_archived X startSequence config keyManager now) before
  obtain ⟨more, archived'⟩ :=
    Deployment.run_archived X compressPayload codes later d _ archived after
  rw [List.nil_append] at archived archived'
  have serves : t.Serves X C (recorded C uploads) d.objects := by
    rw [archived.objects]
    exact GcsTransport.mirrors_serves X
      (GcsTransport.published_mirrors uploads archived.typed) lossless
  have serves' : t.Serves X C (recorded C (uploads ++ more)) d'.objects := by
    rw [archived'.objects]
    exact GcsTransport.mirrors_serves X
      (GcsTransport.published_mirrors (uploads ++ more) archived'.typed)
      lossless
  have straight := Deployment.archived_straight d uploads archived
  have straight' := Deployment.archived_straight d' (uploads ++ more) archived'
  have kept (r : UInt64 × UInt64) (b : CborBatch) (found : recorded C uploads r = some b) :
      recorded C (uploads ++ more) r = some b := by
    obtain ⟨u, member, own⟩ := (Deployment.archived_iff d uploads archived r b).mp found
    exact (Deployment.archived_iff d' (uploads ++ more) archived' r b).mpr
      ⟨u, List.mem_append_left more member, own⟩
  refine ⟨straight.files_apart serves, ?_, ?_, ?_⟩
  · intro b member
    obtain ⟨u, listed, rfl, arrives⟩ := archived.acknowledged b member
    have found := (Deployment.archived_iff d uploads archived _ _).mpr
      ⟨u, listed, arrives, rfl, rfl⟩
    exact (straight'.fetch_iff serves' _ _).mpr ⟨_, kept _ _ found⟩
  · intro faults start b answered
    obtain ⟨e, found⟩ :=
      (straight.fetch_iff serves start b).mp ((serves.faulty faults).1 start b answered)
    refine ⟨(straight.ordered _ _ found).2,
      (straight'.fetch_iff serves' start b).mpr ⟨e, kept _ _ found⟩, ?_⟩
    intro m member n read
    exact (straight'.getMessage_iff serves' n m).mpr
      ⟨_, b, kept _ _ found, member, by rw [read]; rfl⟩
  · intro faults n m answered
    obtain ⟨r, b, found, member, read⟩ :=
      (straight.getMessage_iff serves n m).mp ((serves.faulty faults).2 n m answered)
    refine ⟨?_, (straight'.getMessage_iff serves' n m).mpr ⟨r, b, kept r b found, member, read⟩⟩
    cases own : m.sequence X with
    | ok k =>
      rw [own] at read
      exact congrArg Except.ok (Option.some.inj read)
    | error e =>
      rw [own] at read
      cases read

def sampleTurns : List Turn := (Pipeline.twoRequests 0 0).map fun move => ⟨move, none⟩

def sampleRun : Deployment :=
  Run.run (Deployment.step Sample.record.externals Pipeline.sampleCompress Sample.codec
    GcsTransport.sampleTransport)
    (.start 0 ⟨50, 1048576, 5000⟩ Sample.pubkey 0) sampleTurns

theorem bucket_append_only_two :
    GcsTransport.sampleTransport.fetch Sample.codec .none 0 sampleRun.objects =
      .ok (some Sample.builtBatch) := by
  have codes : Sample.record.externals.CodesMessages := Recorded.codesMessages _ (by decide +kernel)
  have orderly : Run.Along
      (Deployment.step Sample.record.externals Pipeline.sampleCompress Sample.codec
        GcsTransport.sampleTransport) (Deployment.Orderly Sample.record.externals)
      (.start 0 ⟨50, 1048576, 5000⟩ Sample.pubkey 0) (sampleTurns ++ []) := by
    decide +kernel
  obtain ⟨-, kept, -⟩ := bucket_append_only Sample.record.externals Pipeline.sampleCompress codes
    Sample.codec_lossless GcsTransport.sampleTransport 0 ⟨50, 1048576, 5000⟩ Sample.pubkey 0
      sampleTurns []
    orderly
  have taken : Sample.builtBatch ∈ sampleRun.pipeline.task.batcher.transport := by
    decide +kernel
  have first : Sample.builtBatch.startSequence = 0 := rfl
  rw [sampleRun] at taken ⊢
  have answered := kept Sample.builtBatch taken
  rw [first, Run.run] at answered
  exact answered

end Gcs

end SyndDB.Sequencer
