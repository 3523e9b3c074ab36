import SyndDB.Framework.Run
import SyndDB.Shared.Recorded

namespace SyndDB.Sequencer

open Octets Shared

inductive TransportError where
  | Storage (message : String)
  | Serialization (message : String)
  | Network (message : String)
  | NotFound (message : String)
  | Config (message : String)
  | SignatureVerification (message : String)
  deriving DecidableEq

inductive BatcherError where
  | Transport (e : TransportError)
  | Cbor (e : CborError)
  | ChannelClosed
  | Signing (message : String)
  deriving DecidableEq

structure PublishMetadata where
  reference : String
  contentHash : Bytes
  compressedBytes : Nat
  uncompressedBytes : Nat
  deriving DecidableEq

/-- Durations and instants are counted in milliseconds. -/
structure BatchConfig where
  maxMessages : Nat
  maxBatchBytes : Nat
  flushInterval : Nat
  deriving DecidableEq

structure BatchStats where
  batchesPublished : UInt64
  messagesPublished : UInt64
  bytesPublished : UInt64
  bytesUncompressed : UInt64
  pendingMessages : Nat
  pendingBytes : Nat
  lastFlushTimestamp : UInt64
  deriving DecidableEq

structure PendingMessage where
  message : CborSignedMessage
  size : Nat
  deriving DecidableEq

/-- The transport is represented by the batches it has accepted, the key manager by
its public key. -/
structure Batcher where
  config : BatchConfig
  transport : List CborBatch
  keyManager : Bytes
  pending : List PendingMessage
  pendingBytes : Nat
  stats : BatchStats
  lastFlush : Nat
  deriving DecidableEq

/-- What the world answers while one event is handled: the clocks, the key manager
and the transport. -/
structure Answers where
  now : Nat
  createdAt : UInt64
  flushedAt : Nat
  signRawSync : Bytes → Except String Bytes
  publish : CborBatch → Except TransportError PublishMetadata

inductive BatcherCommand where
  | AddMessage (message : CborSignedMessage)
  | Flush
  | GetStats
  | Shutdown
  deriving DecidableEq

inductive Response where
  | added (result : Except BatcherError Unit)
  | flushed (result : Except BatcherError (Option PublishMetadata))
  | stats (stats : BatchStats)
  | nothing

variable (X : Externals)

/-- Both signers of the sequencer: hash, sign the digest, check the 64 bytes. -/
def signHashed (signRawSync : Bytes → Except String Bytes) (data : Bytes) :
    Except CborError Bytes :=
  match signRawSync (X.keccak256 data) with
  | .error e => .error (.Signing e)
  | .ok bytes => signatureFromBytes X bytes

def signBatchData (answers : Answers) (data : Bytes) : Except CborError Bytes :=
  signHashed X answers.signRawSync data

namespace Batcher

def spawn (config : BatchConfig) (keyManager : Bytes) (now : Nat) : Batcher :=
  ⟨config, [], keyManager, [], 0, ⟨0, 0, 0, 0, 0, 0, 0⟩, now⟩

def messages (b : Batcher) : List CborSignedMessage := b.pending.map PendingMessage.message

/-- The queue is emptied before the batch is built and published. -/
def flushBatch (answers : Answers) (b : Batcher) :
    Except BatcherError (Option PublishMetadata) × Batcher :=
  if b.pending.isEmpty then (.ok none, b)
  else
    let drained := { b with pending := [], pendingBytes := 0 }
    match CborBatch.new X b.messages answers.createdAt b.keyManager (signBatchData X answers) with
    | .error e => (.error (.Cbor e), drained)
    | .ok batch =>
        match answers.publish batch with
        | .error e => (.error (.Transport e), drained)
        | .ok metadata =>
            (.ok (some metadata),
              { drained with
                transport := b.transport ++ [batch]
                stats := { b.stats with
                  batchesPublished := b.stats.batchesPublished + 1
                  messagesPublished := b.stats.messagesPublished + UInt64.ofNat b.pending.length
                  bytesPublished := b.stats.bytesPublished + UInt64.ofNat metadata.compressedBytes
                  bytesUncompressed :=
                    b.stats.bytesUncompressed + UInt64.ofNat metadata.uncompressedBytes
                  lastFlushTimestamp := answers.createdAt }
                lastFlush := answers.flushedAt })

def push (m : CborSignedMessage) (b : Batcher) : Batcher :=
  { b with pending := b.pending ++ [⟨m, m.size⟩], pendingBytes := b.pendingBytes + m.size }

def shouldFlush (b : Batcher) : Bool :=
  b.config.maxMessages ≤ b.pending.length || b.config.maxBatchBytes ≤ b.pendingBytes

def handleAddMessage (answers : Answers) (m : CborSignedMessage) (b : Batcher) :
    Except BatcherError Unit × Batcher :=
  let b := b.push m
  if b.shouldFlush then
    let (result, b) := b.flushBatch X answers
    (result.map fun _ => (), b)
  else (.ok (), b)

def getStats (b : Batcher) : Batcher :=
  { b with stats := { b.stats with pendingMessages := b.pending.length
                                   pendingBytes := b.pendingBytes } }

/-- The timer only flushes when the interval has passed since the last successful flush. -/
def onTick (answers : Answers) (b : Batcher) : Batcher :=
  if !b.pending.isEmpty && b.config.flushInterval ≤ answers.now - b.lastFlush then
    (b.flushBatch X answers).2
  else b

end Batcher

inductive Event where
  | command (c : BatcherCommand)
  | tick
  deriving DecidableEq

/-- The batcher task, with the messages it has taken up in the order it did. -/
structure Task where
  batcher : Batcher
  accepted : List CborSignedMessage
  running : Bool
  deriving DecidableEq

namespace Task

def start (config : BatchConfig) (keyManager : Bytes) (now : Nat) : Task :=
  ⟨Batcher.spawn config keyManager now, [], true⟩

/-- One turn of the event loop, with the response it sends. -/
def serve (t : Task) (event : Event) (answers : Answers) : Response × Task :=
  if !t.running then (.nothing, t)
  else match event with
    | .command (.AddMessage m) =>
        let (result, b) := t.batcher.handleAddMessage X answers m
        (.added result, { t with batcher := b, accepted := t.accepted ++ [m] })
    | .command .Flush =>
        let (result, b) := t.batcher.flushBatch X answers
        (.flushed result, { t with batcher := b })
    | .command .GetStats =>
        let b := t.batcher.getStats
        (.stats b.stats, { t with batcher := b })
    | .command .Shutdown =>
        let b := if t.batcher.pending.isEmpty then t.batcher
          else (t.batcher.flushBatch X answers).2
        (.nothing, { t with batcher := b, running := false })
    | .tick => (.nothing, { t with batcher := t.batcher.onTick X answers })

def step (t : Task) (e : Event × Answers) : Task := (t.serve X e.1 e.2).2

end Task

namespace Batcher

/-- The batch is built and signed and the transport takes it. -/
def publishes (answers : Answers) (b : Batcher) : Bool :=
  match CborBatch.new X b.messages answers.createdAt b.keyManager (signBatchData X answers) with
  | .error _ => false
  | .ok batch => (answers.publish batch).isOk

def published (b : Batcher) : List CborSignedMessage := b.transport.flatMap CborBatch.messages

/-- Everything taken up is in a published batch or still pending, in order. -/
def Conserves (b : Batcher) (accepted : List CborSignedMessage) : Prop :=
  b.published ++ b.messages = accepted

def Counts (b : Batcher) : Prop :=
  b.pendingBytes = (b.messages.map CborSignedMessage.size).sum

@[simp] theorem messages_push (m : CborSignedMessage) (b : Batcher) :
    (b.push m).messages = b.messages ++ [m] := by
  simp [messages, push]

@[simp] theorem published_push (m : CborSignedMessage) (b : Batcher) :
    (b.push m).published = b.published := rfl

@[simp] theorem pendingBytes_push (m : CborSignedMessage) (b : Batcher) :
    (b.push m).pendingBytes = b.pendingBytes + m.size := rfl

theorem messages_eq_nil (b : Batcher) : b.messages = [] ↔ b.pending = [] := by
  simp [messages]

/-- The three ways a flush goes: nothing to do, published, or lost. -/
theorem flushBatch_cases (answers : Answers) (b : Batcher) :
    (b.pending = [] ∧ b.flushBatch X answers = (.ok none, b)) ∨
    (b.pending ≠ [] ∧ b.publishes X answers ∧ ∃ batch,
      CborBatch.new X b.messages answers.createdAt b.keyManager (signBatchData X answers) =
        .ok batch ∧
      (b.flushBatch X answers).2.transport = b.transport ++ [batch] ∧
      (b.flushBatch X answers).2.pending = [] ∧ (b.flushBatch X answers).2.pendingBytes = 0) ∨
    (b.pending ≠ [] ∧ b.publishes X answers = false ∧
      (b.flushBatch X answers).2 = { b with pending := [], pendingBytes := 0 }) := by
  by_cases empty : b.pending = []
  · left
    exact ⟨empty, by simp [flushBatch, empty]⟩
  · right
    cases built : CborBatch.new X b.messages answers.createdAt b.keyManager
        (signBatchData X answers) with
    | error e =>
      right
      exact ⟨empty, by simp [publishes, built], by simp [flushBatch, empty, built]⟩
    | ok batch =>
      cases sent : answers.publish batch with
      | error e =>
        right
        exact ⟨empty, by simp [publishes, built, sent, Except.isOk, Except.toBool],
          by simp [flushBatch, empty, built, sent]⟩
      | ok metadata =>
        left
        have published : b.publishes X answers := by
          simp [publishes, built, sent, Except.isOk, Except.toBool]
        exact ⟨empty, published, batch, rfl, by simp [flushBatch, empty, built, sent],
          by simp [flushBatch, empty, built, sent], by simp [flushBatch, empty, built, sent]⟩

theorem flushBatch_counts (answers : Answers) (b : Batcher) (h : b.Counts) :
    (b.flushBatch X answers).2.Counts := by
  obtain ⟨-, same⟩ | ⟨-, -, batch, -, -, hp, hb⟩ | ⟨-, -, lost⟩ := b.flushBatch_cases X answers
  · rw [same]
    exact h
  · simp [Counts, messages, hp, hb]
  · simp [lost, Counts, messages]

/-- A flush keeps everything exactly if there was nothing to flush or the batch was published. -/
theorem flushBatch_conserves (answers : Answers) (b : Batcher) (accepted : List CborSignedMessage)
    (h : b.Conserves accepted) :
    (b.flushBatch X answers).2.Conserves accepted ↔ (b.pending ≠ [] → b.publishes X answers) := by
  obtain ⟨empty, same⟩ | ⟨-, sent, batch, built, ht, hp, -⟩ | ⟨full, unsent, lost⟩ :=
    b.flushBatch_cases X answers
  · rw [same]
    simp [h, empty]
  · have hm : batch.messages = b.messages := CborBatch.new_messages X _ _ _ _ _ built
    have : (b.flushBatch X answers).2.Conserves accepted := by
      rw [← h]
      simp [Conserves, published, messages, ht, hp, hm]
    simp [this, sent]
  · have hm : b.messages ≠ [] := fun hnil => full (b.messages_eq_nil.mp hnil)
    have shorter : ¬ b.published ++ [] = b.published ++ b.messages := by
      rw [List.append_right_inj]
      exact fun hnil => hm hnil.symm
    rw [lost, ← h]
    constructor
    · intro kept
      exact absurd kept shorter
    · intro sent
      rw [sent full] at unsent
      cases unsent

end Batcher

namespace Task

/-- The batcher a turn of the loop flushes, if it does. -/
def flushing (t : Task) (event : Event) (answers : Answers) : Option Batcher :=
  if !t.running then none
  else match event with
    | .command (.AddMessage m) =>
        if (t.batcher.push m).shouldFlush then some (t.batcher.push m) else none
    | .command .Flush | .command .Shutdown => some t.batcher
    | .command .GetStats => none
    | .tick =>
        if t.batcher.config.flushInterval ≤ answers.now - t.batcher.lastFlush then some t.batcher
        else none

/-- Whenever this turn flushes a queue that is not empty, signing and publishing succeed. -/
def FlushSucceeds (t : Task) (e : Event × Answers) : Prop :=
  ∀ b ∈ t.flushing e.1 e.2, b.pending ≠ [] → b.publishes X e.2

instance (t : Task) (e : Event × Answers) : Decidable (t.FlushSucceeds X e) :=
  match h : t.flushing e.1 e.2 with
  | none => isTrue (by simp [FlushSucceeds, h])
  | some b =>
      decidable_of_iff (b.pending ≠ [] → b.publishes X e.2) (by simp [FlushSucceeds, h])

def Conserves (t : Task) : Prop := t.batcher.Conserves t.accepted

instance (t : Task) : Decidable t.Conserves :=
  inferInstanceAs (Decidable (t.batcher.published ++ t.batcher.messages = t.accepted))

/-- The task once the message of an event is in the queue. -/
def intake (t : Task) (event : Event) : Task :=
  match event with
  | .command (.AddMessage m) =>
      if t.running then { t with batcher := t.batcher.push m, accepted := t.accepted ++ [m] } else t
  | _ => t

/-- A turn takes up the message of the event, and then flushes or leaves the queue alone. -/
theorem step_cases (t : Task) (e : Event × Answers) :
    (t.step X e).accepted = (t.intake e.1).accepted ∧
    ((t.flushing e.1 e.2 = some (t.intake e.1).batcher ∧
        (t.step X e).batcher = ((t.intake e.1).batcher.flushBatch X e.2).2) ∨
      (t.flushing e.1 e.2 = none ∧
        (t.step X e).batcher.transport = (t.intake e.1).batcher.transport ∧
        (t.step X e).batcher.pending = (t.intake e.1).batcher.pending ∧
        (t.step X e).batcher.pendingBytes = (t.intake e.1).batcher.pendingBytes)) := by
  obtain ⟨event, answers⟩ := e
  by_cases running : t.running
  · have idle (b : Batcher) (h : b.pending = []) : (b.flushBatch X answers).2 = b := by
      simp [Batcher.flushBatch, h]
    cases event with
    | tick =>
      by_cases empty : t.batcher.pending = []
      · by_cases due : t.batcher.config.flushInterval ≤ answers.now - t.batcher.lastFlush
        · simp [step, serve, intake, flushing, running, Batcher.onTick, empty, due, idle]
        · simp [step, serve, intake, flushing, running, Batcher.onTick, due]
      · by_cases due : t.batcher.config.flushInterval ≤ answers.now - t.batcher.lastFlush
        · simp [step, serve, intake, flushing, running, Batcher.onTick, empty, due]
        · simp [step, serve, intake, flushing, running, Batcher.onTick, due]
    | command c =>
      cases c with
      | AddMessage m =>
        by_cases full : (t.batcher.push m).shouldFlush
        · simp [step, serve, intake, flushing, running, Batcher.handleAddMessage, full]
        · simp [step, serve, intake, flushing, running, Batcher.handleAddMessage, full]
      | Flush => simp [step, serve, intake, flushing, running]
      | GetStats => simp [step, serve, intake, flushing, running, Batcher.getStats]
      | Shutdown =>
        by_cases empty : t.batcher.pending = []
        · simp [step, serve, intake, flushing, running, empty, idle]
        · simp [step, serve, intake, flushing, running, empty]
  · have stopped : t.intake event = t := by
      unfold intake
      split
      · simp [running]
      · rfl
    simp [step, serve, flushing, running, stopped]

theorem intake_conserves (t : Task) (event : Event) (h : t.Conserves) :
    (t.intake event).Conserves := by
  unfold intake
  split
  · split
    · simp only [Conserves, Batcher.Conserves, Batcher.published_push, Batcher.messages_push] at h ⊢
      rw [← h, List.append_assoc]
    · exact h
  · exact h

theorem intake_counts (t : Task) (event : Event) (h : t.batcher.Counts) :
    (t.intake event).batcher.Counts := by
  unfold intake
  split
  · split
    · simp only [Batcher.Counts] at h ⊢
      simp [h]
    · exact h
  · exact h

theorem step_counts (t : Task) (e : Event × Answers) (h : t.batcher.Counts) :
    (t.step X e).batcher.Counts := by
  have counted := t.intake_counts e.1 h
  obtain ⟨-, ⟨-, flushed⟩ | ⟨-, -, pending, bytes⟩⟩ := t.step_cases X e
  · rw [flushed]
    exact Batcher.flushBatch_counts X _ _ counted
  · rw [Batcher.Counts, Batcher.messages, pending, bytes]
    exact counted

theorem step_conserves (t : Task) (e : Event × Answers) (h : t.Conserves) :
    (t.step X e).Conserves ↔ t.FlushSucceeds X e := by
  have taken := t.intake_conserves e.1 h
  obtain ⟨accepted, ⟨flushes, flushed⟩ | ⟨none, transport, pending, -⟩⟩ := t.step_cases X e
  · rw [Conserves, accepted, flushed, Batcher.flushBatch_conserves X _ _ _ taken]
    simp [FlushSucceeds, flushes]
  · have kept : (t.step X e).Conserves := by
      rw [Conserves, Batcher.Conserves, Batcher.published, Batcher.messages, accepted, transport,
        pending]
      exact taken
    simp [FlushSucceeds, none, kept]

/-- In every run the byte count is right, and no message is lost up to any point exactly if every
flush of a queue that is not empty goes through. -/
theorem batcher_conserves_messages (config : BatchConfig) (keyManager : Bytes) (now : Nat)
    (es : List (Event × Answers)) :
    (∀ n, (Run.run (step X) (start config keyManager now) (es.take n)).batcher.Counts) ∧
    ((∀ n, (Run.run (step X) (start config keyManager now) (es.take n)).Conserves) ↔
      Run.Along (step X) (FlushSucceeds X) (start config keyManager now) es) := by
  constructor
  · intro n
    apply Run.run_invariant (step X) (J := fun t => t.batcher.Counts) (step_counts X)
    rfl
  · apply Run.always_iff_along (step X) (J := fun _ => True)
    · intro t e _
      trivial
    · intro t e _ h
      exact t.step_conserves X e h
    · trivial
    · rfl

/-- The default configuration and a key manager that signs. -/
def sampleStart : Task := start ⟨50, 1048576, 5000⟩ Sample.pubkey 0

def sampleAnswers (publish : CborBatch → Except TransportError PublishMetadata) : Answers :=
  ⟨0, Sample.timestamp, 0, Sample.record.signRawSync Sample.pubkey, publish⟩

def failing (_ : CborBatch) : Except TransportError PublishMetadata :=
  .error (.Network "connection reset")

/-- One message, then a flush during which the transport fails: the queue is empty and
nothing was published. -/
theorem failed_flush_loses_message :
    let events := [(Event.command (.AddMessage (Sample.message Sample.cose0)),
      sampleAnswers failing), (Event.command .Flush, sampleAnswers failing)]
    let t := Run.run (step Sample.record.externals) sampleStart events
    t.accepted = [Sample.message Sample.cose0] ∧ t.batcher.transport = [] ∧ t.batcher.pending = [] ∧
      ¬ t.Conserves := by
  decide +kernel

end Task

end SyndDB.Sequencer
