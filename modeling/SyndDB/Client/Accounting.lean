import SyndDB.Client.Senders
import SyndDB.Client.Retry
import SyndDB.Framework.Octets
import SyndDB.Framework.Run

namespace SyndDB.Client.Accounting

open Octets

structure Changeset where
  data : Bytes
  sequence : UInt64
  timestamp : UInt64
  deriving DecidableEq

/-- What is in memory is counted without overflow. An underflow shows as a negative number. -/
structure ReplicationStats where
  pendingChangesets : Int
  pushedChangesets : Nat
  failedPushes : Nat
  deriving DecidableEq

namespace ReplicationStats

def incrementPending (stats : ReplicationStats) : ReplicationStats :=
  { stats with pendingChangesets := stats.pendingChangesets + 1 }

def decrementPending (n : Nat) (stats : ReplicationStats) : ReplicationStats :=
  { stats with pendingChangesets := stats.pendingChangesets - n }

def recordPush (count : Nat) (stats : ReplicationStats) : ReplicationStats :=
  { stats with pushedChangesets := stats.pushedChangesets + count }.decrementPending count

def recordFailure (stats : ReplicationStats) : ReplicationStats :=
  { stats with failedPushes := stats.failedPushes + 1 }

end ReplicationStats

/-- Durations and instants are counted in milliseconds. -/
structure FlushConfig extends Config where
  pushInterval : Nat
  maxBatchSize : Nat

structure ChangesetSender where
  config : FlushConfig
  buffer : List Changeset
  bufferSize : Nat
  lastFlush : Nat
  /-- The recovery storage, where there is one. -/
  recovery : Option (List Changeset)
  stats : ReplicationStats

/-- What happens outside while a buffer is flushed. -/
structure Answers where
  sendBatch : (attempt : Nat) → Bool
  saveFailedChangeset : Changeset → Bool
  flushedAt : Nat

/-- Whether an attempt succeeds. Without any attempt the code panics. -/
def retryWithBackoff (maxRetries : Nat) (operation : Nat → Bool) : Option Bool :=
  if maxRetries = 0 then none else some ((List.range maxRetries).any operation)

/-- The counters depend on whether a call succeeds only, in a release build. -/
theorem retryWithBackoff_result {ε : Type} (maxRetries : Nat) (operation : Nat → Except ε Unit) :
    (Retry.retryWithBackoff false maxRetries operation).result.toOption.map Except.isOk =
      retryWithBackoff maxRetries fun attempt => (operation attempt).isOk := by
  have isOk_iff (answer : Except ε Unit) : answer.isOk = true ↔ answer = .ok () := by
    cases answer with
    | ok => exact iff_of_true rfl rfl
    | error e => exact iff_of_false Bool.false_ne_true nofun
  by_cases none : maxRetries = 0
  · subst none
    rfl
  obtain ⟨last, h⟩ := Retry.exists_last maxRetries operation none
  have any : (List.range maxRetries).any (fun attempt => (operation attempt).isOk) =
      (operation last).isOk := by
    rw [Bool.eq_iff_iff, List.any_eq_true]
    constructor
    · intro succeeds
      obtain ⟨attempt, member, success⟩ := succeeds
      rw [isOk_iff] at success ⊢
      rcases h.ends with here | final
      · exact here
      · have reached : ¬attempt < last := fun before => h.failed attempt before success
        have within := List.mem_range.mp member
        obtain rfl : attempt = last := by omega
        exact success
    · intro success
      exact ⟨last, List.mem_range.mpr h.within, success⟩
  rw [Retry.retryWithBackoff_last false maxRetries operation last h nofun, retryWithBackoff,
    if_neg none, any]
  rfl

namespace ChangesetSender

def new (config : FlushConfig) (recovery : Option (List Changeset)) (now : Nat) : ChangesetSender :=
  ⟨config, [], 0, now, recovery, ⟨0, 0, 0⟩⟩

def push (s : ChangesetSender) (changeset : Changeset) : ChangesetSender :=
  { s with
    stats := s.stats.incrementPending
    bufferSize := s.bufferSize + changeset.data.length
    buffer := s.buffer ++ [changeset] }

def sizeReached (s : ChangesetSender) : Bool := s.config.maxBatchSize ≤ s.bufferSize

def timeReached (now : Nat) (s : ChangesetSender) : Bool :=
  s.config.pushInterval ≤ now - s.lastFlush

def shouldFlush (now : Nat) (s : ChangesetSender) : Bool :=
  s.config.bufferSize ≤ s.buffer.length || s.sizeReached || s.timeReached now

/-- The counters after the batch was sent, was given up, or the code has panicked. -/
def afterSend (answers : Answers) (changesetsRaw : List Changeset) (s : ChangesetSender) :
    Option Bool → ChangesetSender × Bool
  | none => (s, false)
  | some true =>
      ({ s with
          stats := s.stats.recordPush changesetsRaw.length
          bufferSize := 0
          lastFlush := answers.flushedAt }, true)
  | some false =>
      ({ s with
          stats := s.stats.recordFailure.decrementPending changesetsRaw.length
          recovery := s.recovery.map
            (· ++ changesetsRaw.filter answers.saveFailedChangeset) }, true)

/-- The buffer is emptied before the batch is sent. The second value is whether the
thread goes on. -/
def flush (answers : Answers) (s : ChangesetSender) : ChangesetSender × Bool :=
  if s.buffer.isEmpty then (s, true)
  else
    afterSend answers s.buffer { s with buffer := [] }
      (retryWithBackoff s.config.maxRetries answers.sendBatch)

end ChangesetSender

/-- The loop of the sender, and whether it still runs. -/
structure SenderThread where
  sender : ChangesetSender
  running : Bool

inductive Event where
  | receive (changeset : Changeset) (now : Nat) (answers : Answers)
  /-- The shutdown signal, and what is left in the channel. -/
  | shutdown (remaining : List Changeset) (answers : Answers)
  | closed

namespace SenderThread

def start (config : FlushConfig) (recovery : Option (List Changeset)) (now : Nat) : SenderThread :=
  ⟨.new config recovery now, true⟩

def flushIfDue (now : Nat) (answers : Answers) (s : ChangesetSender) : SenderThread :=
  if s.shouldFlush now then ⟨(s.flush answers).1, (s.flush answers).2⟩ else ⟨s, true⟩

def step (t : SenderThread) : Event → SenderThread
  | .receive changeset now answers =>
      if t.running then flushIfDue now answers (t.sender.push changeset) else t
  | .shutdown remaining answers =>
      if t.running then ⟨((remaining.foldl ChangesetSender.push t.sender).flush answers).1, false⟩
        else t
  | .closed => { t with running := false }

end SenderThread

namespace ChangesetSender

def bytes (s : ChangesetSender) : Nat := (s.buffer.map fun changeset => changeset.data.length).sum

def Counted (s : ChangesetSender) : Prop := s.stats.pendingChangesets = s.buffer.length

structure Accounted (s : ChangesetSender) : Prop where
  size : s.bufferSize = s.bytes
  count : s.Counted

/-- The batch is acknowledged; or it is given up, but there is not a byte in it. -/
def FlushSucceeds (answers : Answers) (s : ChangesetSender) : Prop :=
  s.buffer ≠ [] →
    retryWithBackoff s.config.maxRetries answers.sendBatch = some true ∨
      retryWithBackoff s.config.maxRetries answers.sendBatch = some false ∧ s.bytes = 0

instance (answers : Answers) (s : ChangesetSender) : Decidable (s.FlushSucceeds answers) :=
  inferInstanceAs (Decidable (_ → _))

theorem push_counted (s : ChangesetSender) (changeset : Changeset) (h : s.Counted) :
    (s.push changeset).Counted := by
  rw [Counted] at h ⊢
  simp only [push, ReplicationStats.incrementPending, h, List.length_append, List.length_singleton,
    Nat.cast_add, Nat.cast_one]

theorem push_accounted (s : ChangesetSender) (changeset : Changeset) (h : s.Accounted) :
    (s.push changeset).Accounted := by
  refine ⟨?_, push_counted s changeset h.count⟩
  rw [bytes, push]
  simp only [List.map_append, List.sum_append, List.map_cons, List.map_nil, List.sum_singleton]
  rw [h.size, bytes]

/-- What every changeset keeps is kept while the channel is drained. -/
theorem foldl_push {p : ChangesetSender → Prop}
    (push_keeps : ∀ s changeset, p s → p (s.push changeset))
    (changesets : List Changeset) (s : ChangesetSender) (h : p s) : p (changesets.foldl push s) :=
  List.foldlRecOn changesets push h fun s kept changeset _ => push_keeps s changeset kept

/-- A batch of all that is pending leaves nothing. -/
theorem decremented (stats : ReplicationStats) (n : Nat) (h : stats.pendingChangesets = n) :
    (stats.decrementPending n).pendingChangesets = 0 :=
  Int.sub_eq_zero.mpr h

theorem flush_config (answers : Answers) (s : ChangesetSender) :
    (s.flush answers).1.config = s.config := by
  rw [flush]
  split_ifs
  · rfl
  · cases retryWithBackoff s.config.maxRetries answers.sendBatch with
    | none => rfl
    | some sent =>
      cases sent with
      | true => rfl
      | false => rfl

/-- Every flush that does not panic takes its changesets off the count. -/
theorem flush_counted (answers : Answers) (s : ChangesetSender) (retries : s.config.maxRetries ≠ 0)
    (h : s.Counted) : (s.flush answers).1.Counted := by
  rw [flush]
  split_ifs
  · exact h
  · rw [Counted] at h
    rw [retryWithBackoff, if_neg retries]
    cases (List.range s.config.maxRetries).any answers.sendBatch with
    | true => exact decremented { s.stats with pushedChangesets := _ } s.buffer.length h
    | false => exact decremented s.stats.recordFailure s.buffer.length h

/-- The size is reset by a flush that succeeds only. -/
theorem flush_accounted_iff (answers : Answers) (s : ChangesetSender) (h : s.Accounted) :
    (s.flush answers).1.Accounted ↔ s.FlushSucceeds answers := by
  rw [flush, FlushSucceeds]
  split_ifs with empty
  · exact iff_of_true h fun nonempty => absurd (List.isEmpty_iff.mp empty) nonempty
  · have nonempty : s.buffer ≠ [] := fun nil => empty (List.isEmpty_iff.mpr nil)
    have count := h.count
    rw [Counted] at count
    simp only [nonempty, ne_eq, not_false_eq_true, true_implies]
    cases retryWithBackoff s.config.maxRetries answers.sendBatch with
    | none =>
      refine iff_of_false ?_ (by simp)
      intro accounted
      have zero : (s.buffer.length : Int) = 0 := count.symm.trans accounted.count
      exact nonempty (List.length_eq_zero_iff.mp (Int.ofNat_eq_zero.mp zero))
    | some sent =>
      cases sent with
      | true =>
        refine iff_of_true ⟨rfl, ?_⟩ (Or.inl rfl)
        exact decremented { s.stats with pushedChangesets := _ } s.buffer.length count
      | false =>
        simp only [Option.some.injEq, Bool.false_eq_true, true_and, false_or]
        constructor
        · intro accounted
          exact h.size.symm.trans accounted.size
        · intro none
          exact ⟨h.size.trans none, decremented s.stats.recordFailure s.buffer.length count⟩

theorem sizeReached_iff (s : ChangesetSender) (h : s.Accounted) :
    s.sizeReached = true ↔ s.config.maxBatchSize ≤ s.bytes := by
  rw [sizeReached, decide_eq_true_eq, h.size]

end ChangesetSender

namespace SenderThread

open ChangesetSender (Accounted Counted FlushSucceeds)

/-- The flush that the event makes, if it makes one. -/
def FlushesSucceed (t : SenderThread) : Event → Prop
  | .receive changeset now answers => t.running = true →
      (t.sender.push changeset).shouldFlush now = true →
        (t.sender.push changeset).FlushSucceeds answers
  | .shutdown remaining answers => t.running = true →
      (remaining.foldl ChangesetSender.push t.sender).FlushSucceeds answers
  | .closed => True

instance (t : SenderThread) : (event : Event) → Decidable (t.FlushesSucceed event)
  | .receive _ _ _ => inferInstanceAs (Decidable (_ → _ → _))
  | .shutdown _ _ => inferInstanceAs (Decidable (_ → _))
  | .closed => inferInstanceAs (Decidable True)

theorem step_accounted_iff (t : SenderThread) (event : Event) (h : t.sender.Accounted) :
    (t.step event).sender.Accounted ↔ t.FlushesSucceed event := by
  cases event with
  | receive changeset now answers =>
    have pushed := ChangesetSender.push_accounted t.sender changeset h
    rw [step, FlushesSucceed]
    split_ifs with running
    · simp only [running, true_implies]
      rw [flushIfDue]
      split_ifs with due
      · simp only [due, true_implies]
        exact ChangesetSender.flush_accounted_iff answers _ pushed
      · exact iff_of_true pushed fun reached => absurd reached due
    · exact iff_of_true h fun runs => absurd runs running
  | shutdown remaining answers =>
    rw [step, FlushesSucceed]
    split_ifs with running
    · simp only [running, true_implies]
      exact ChangesetSender.flush_accounted_iff answers _
        (ChangesetSender.foldl_push ChangesetSender.push_accounted remaining t.sender h)
    · exact iff_of_true h fun runs => absurd runs running
  | closed => exact iff_of_true h trivial

theorem step_counted (t : SenderThread) (event : Event)
    (h : t.sender.config.maxRetries ≠ 0 ∧ t.sender.Counted) :
    (t.step event).sender.config.maxRetries ≠ 0 ∧ (t.step event).sender.Counted := by
  obtain ⟨retries, count⟩ := h
  cases event with
  | receive changeset now answers =>
    have pushed := ChangesetSender.push_counted t.sender changeset count
    rw [step]
    split_ifs
    · rw [flushIfDue]
      split_ifs
      · rw [ChangesetSender.flush_config]
        exact ⟨retries, ChangesetSender.flush_counted answers _ retries pushed⟩
      · exact ⟨retries, pushed⟩
    · exact ⟨retries, count⟩
  | shutdown remaining answers =>
    rw [step]
    split_ifs
    · have drained := ChangesetSender.foldl_push (p := fun s => s.config.maxRetries ≠ 0 ∧ s.Counted)
        (fun s changeset kept => ⟨kept.1, ChangesetSender.push_counted s changeset kept.2⟩)
        remaining
        t.sender ⟨retries, count⟩
      rw [ChangesetSender.flush_config]
      exact ⟨drained.1, ChangesetSender.flush_counted answers _ drained.1 drained.2⟩
    · exact ⟨retries, count⟩
  | closed => exact ⟨retries, count⟩

/-- The bytes of the buffer are known in all states of a run exactly if every flush succeeds; the
number of changesets is known in any case. -/
theorem sender_accounts_iff (config : FlushConfig) (recovery : Option (List Changeset)) (now : Nat)
    (events : List Event) :
    let state := Run.stateAt step (start config recovery now) events
    ((∀ n, (state n).sender.Accounted) ↔
      Run.Along step FlushesSucceed (start config recovery now) events) ∧
    (config.maxRetries ≠ 0 → ∀ n, (state n).sender.Counted) ∧
    ∀ n, (state n).sender.Accounted → ∀ changeset,
      (((state n).sender.push changeset).sizeReached = true ↔
        (state n).sender.config.maxBatchSize ≤ ((state n).sender.push changeset).bytes) := by
  intro state
  refine ⟨?_, ?_, ?_⟩
  · exact Run.always_iff_along step (J := fun _ => True) (fun _ _ _ => trivial)
      (fun t event _ h => step_accounted_iff t event h) _ events trivial ⟨rfl, rfl⟩
  · intro retries n
    have initial : (start config recovery now).sender.Counted := rfl
    exact (Run.run_invariant step step_counted _ (events.take n) ⟨retries, initial⟩).2
  · intro n accounted changeset
    exact ChangesetSender.sizeReached_iff _ (ChangesetSender.push_accounted _ changeset accounted)

namespace Sample

def config : FlushConfig where
  bufferSize := 100
  maxRetries := 2
  pushInterval := 1000
  maxBatchSize := 10

def changeset (size : Nat) (sequence : UInt64) : Changeset :=
  ⟨List.replicate size 0, sequence, 1700000000⟩

/-- The attempts from the given one on are acknowledged. -/
def answers (first : Nat) : Answers := ⟨fun attempt => first ≤ attempt, fun _ => true, 1⟩

/-- The second changeset fills a batch, which is acknowledged when it is sent again. -/
def events : List Event :=
  [.receive (changeset 6 1) 0 (answers 0), .receive (changeset 5 2) 0 (answers 1),
    .receive (changeset 3 3) 2 (answers 0), .shutdown [changeset 2 4] (answers 0)]

theorem sender_accounts :
    (∀ n, (Run.stateAt step (start config none 0) events n).sender.Accounted) ∧
      (∀ n, (Run.stateAt step (start config none 0) events n).sender.Counted) ∧
      (((Run.stateAt step (start config none 0) events 1).sender.push (changeset 5 2)).sizeReached =
        true ↔
        10 ≤ ((Run.stateAt step (start config none 0) events 1).sender.push
          (changeset 5 2)).bytes) := by
  have accounted := (sender_accounts_iff config none 0 events).1.mpr (by decide)
  exact ⟨accounted, (sender_accounts_iff config none 0 events).2.1 (by decide),
    (sender_accounts_iff config none 0 events).2.2 1 (accounted 1) (changeset 5 2)⟩

/-- A batch that is given up leaves its size behind, and the next byte is taken for a full batch. -/
theorem failed_flush_keeps_size :
    (¬∀ config recovery now events n, config.maxRetries ≠ 0 →
      (Run.stateAt step (start config recovery now) events n).sender.Accounted) ∧
    let s := (Run.stateAt step (start config none 0)
      [.receive (changeset 12 1) 0 (answers 2)] 1).sender
    (s.push (changeset 1 2)).sizeReached = true ∧ (s.push (changeset 1 2)).bytes = 1 := by
  refine ⟨?_, by decide⟩
  intro all
  have size := (all config none 0 [.receive (changeset 12 1) 0 (answers 2)] 1 (by decide)).size
  exact absurd size (by decide)

end Sample

end SenderThread

end SyndDB.Client.Accounting
