import SyndDB.Framework.Run
import Mathlib.Algebra.Group.Nat.Defs
import Mathlib.Data.List.TakeWhile
import Mathlib.Data.List.Nodup
import Mathlib.Data.List.Range

namespace SyndDB.Sequencer

structure MessageQueueConfig where
  maxSize : UInt64
  retentionSecs : UInt64
  deriving DecidableEq

structure InboundMessage where
  id : UInt64
  messageId : String
  messageType : String
  payload : String
  sender : String
  txHash : String
  blockNumber : UInt64
  confirmations : UInt64
  timestamp : UInt64
  acknowledged : Bool
  acknowledgedAt : Option UInt64
  deriving DecidableEq

/-- The arguments of `add_message`. -/
structure NewMessage where
  messageId : String
  messageType : String
  payload : String
  sender : String
  txHash : String
  blockNumber : UInt64
  confirmations : UInt64
  deriving DecidableEq

/-- A message as it is captured. -/
def NewMessage.captured (new : NewMessage) (id timestamp : UInt64) : InboundMessage where
  id := id
  messageId := new.messageId
  messageType := new.messageType
  payload := new.payload
  sender := new.sender
  txHash := new.txHash
  blockNumber := new.blockNumber
  confirmations := new.confirmations
  timestamp := timestamp
  acknowledged := false
  acknowledgedAt := none

structure MessageQueue where
  config : MessageQueueConfig
  messages : List InboundMessage
  nextId : UInt64
  deriving DecidableEq

/-- Pop from the front while there are too many. -/
def enforceMaxSize (maxSize : UInt64) : List InboundMessage → List InboundMessage
  | [] => []
  | m :: rest =>
      if maxSize.toNat < (m :: rest).length then enforceMaxSize maxSize rest else m :: rest

namespace MessageQueue

def withConfig (config : MessageQueueConfig) : MessageQueue := ⟨config, [], 1⟩

def isExpired (cutoff : UInt64) (m : InboundMessage) : Bool :=
  m.acknowledged && m.timestamp < cutoff

/-- Pop acknowledged messages from the front as long as they are too old. `now` is what
the clock reads. -/
def cleanupExpired (now : UInt64) (q : MessageQueue) : MessageQueue :=
  let cutoff := if q.config.retentionSecs ≤ now then now - q.config.retentionSecs else 0
  { q with messages := q.messages.dropWhile (isExpired cutoff) }

/-- Add a message with the next id. The clock is read twice. -/
def addMessage (new : NewMessage) (timestamp now : UInt64) (q : MessageQueue) :
    UInt64 × MessageQueue :=
  let id := q.nextId
  let messages := enforceMaxSize q.config.maxSize (q.messages ++ [new.captured id timestamp])
  (id, cleanupExpired now { q with messages, nextId := id + 1 })

/-- Mark the first message with the id, unless it is marked. -/
def acknowledgeFirst (id now : UInt64) : List InboundMessage → Bool × List InboundMessage
  | [] => (false, [])
  | m :: rest =>
      if m.id = id then
        if m.acknowledged then (false, m :: rest)
        else (true, { m with acknowledged := true, acknowledgedAt := some now } :: rest)
      else
        let (found, rest) := acknowledgeFirst id now rest
        (found, m :: rest)

def acknowledge (id now : UInt64) (q : MessageQueue) : Bool × MessageQueue :=
  let (found, messages) := acknowledgeFirst id now q.messages
  (found, { q with messages })

def getById (id : UInt64) (q : MessageQueue) : Option InboundMessage :=
  q.messages.find? fun m => m.id = id

def latestId (q : MessageQueue) : UInt64 := (q.messages.getLast?.map InboundMessage.id).getD 0

end MessageQueue

theorem enforceMaxSize_eq (maxSize : UInt64) (messages : List InboundMessage) :
    enforceMaxSize maxSize messages = messages.drop (messages.length - maxSize.toNat) := by
  induction messages with
  | nil => rw [enforceMaxSize, List.drop_nil]
  | cons m rest ih =>
    unfold enforceMaxSize
    by_cases full : maxSize.toNat < (m :: rest).length
    · have more : (m :: rest).length - maxSize.toNat = (rest.length - maxSize.toNat) + 1 := by
        rw [List.length_cons] at full ⊢
        omega
      rw [if_pos full, ih, more, List.drop_succ_cons]
    · have none : (m :: rest).length - maxSize.toNat = 0 := by omega
      rw [if_neg full, none, List.drop_zero]

theorem map_id_acknowledgeFirst (id now : UInt64) (messages : List InboundMessage) :
    (MessageQueue.acknowledgeFirst id now messages).2.map InboundMessage.id =
      messages.map InboundMessage.id := by
  induction messages with
  | nil => rfl
  | cons m rest ih =>
    unfold MessageQueue.acknowledgeFirst
    by_cases here : m.id = id
    · rw [if_pos here]
      by_cases done : m.acknowledged = true
      · rw [if_pos done]
      · rw [if_neg done]
        rfl
    · rw [if_neg here]
      exact congrArg (m.id :: ·) ih

/-- A queue, what has left it, oldest first, and the last id that was returned. -/
structure History where
  queue : MessageQueue
  dropped : List InboundMessage
  lastId : Option UInt64

/-- All messages that were added, in their order. Those that have left the queue are kept as
they were then. -/
def History.added (h : History) : List InboundMessage := h.dropped ++ h.queue.messages

inductive QueueCall where
  | addMessage (new : NewMessage) (timestamp now : UInt64)
  | acknowledge (id now : UInt64)

/-- A call on the queue. What it takes from the front is recorded. -/
def History.step (h : History) : QueueCall → History
  | .addMessage new timestamp now =>
      let pushed := h.queue.messages ++ [new.captured h.queue.nextId timestamp]
      let (id, queue) := h.queue.addMessage new timestamp now
      ⟨queue, h.dropped ++ pushed.take (pushed.length - queue.messages.length), some id⟩
  | .acknowledge id now => { h with queue := (h.queue.acknowledge id now).2 }

def History.start (config : MessageQueueConfig) : History :=
  ⟨MessageQueue.withConfig config, [], none⟩

/-- The queue and its history after some calls. -/
def History.after (config : MessageQueueConfig) (calls : List QueueCall) : History :=
  Run.run History.step (History.start config) calls

/-- The ids of `n` messages from the one after the `k`th on. -/
def idsFrom (k n : Nat) : List UInt64 := (List.range' (k + 1) n).map UInt64.ofNat

/-- The messages are numbered in the order in which they were added, the queue is not too long, and
only acknowledged messages have left it among the last ones. -/
structure History.Ordered (h : History) : Prop where
  ids : h.added.map InboundMessage.id = idsFrom 0 h.added.length
  next : h.queue.nextId = UInt64.ofNat (h.added.length + 1)
  last : h.lastId = h.added.getLast?.map InboundMessage.id
  size : h.queue.messages.length ≤ h.queue.config.maxSize.toNat
  kept : ∀ m ∈ h.dropped.drop (h.added.length - h.queue.config.maxSize.toNat), m.acknowledged = true

theorem take_drop_takeWhile {α : Type} (p : α → Bool) (xs : List α) :
    xs.take (xs.takeWhile p).length = xs.takeWhile p ∧
      xs.drop (xs.takeWhile p).length = xs.dropWhile p := by
  have split := List.takeWhile_append_dropWhile (p := p) (l := xs)
  generalize xs.takeWhile p = front at split ⊢
  generalize xs.dropWhile p = back at split ⊢
  rw [← split]
  exact ⟨List.take_left, List.drop_left⟩

/-- What `add_message` leaves of the messages: it pops some from the front, and only acknowledged
ones once the queue is not too long any more. -/
theorem addMessage_messages (q : MessageQueue) (new : NewMessage) (timestamp now : UInt64) :
    ∃ n, (q.addMessage new timestamp now).2.messages =
        (q.messages ++ [new.captured q.nextId timestamp]).drop n ∧
      n ≤ q.messages.length + 1 ∧ q.messages.length + 1 ≤ n + q.config.maxSize.toNat ∧
      ∀ m ∈ ((q.messages ++ [new.captured q.nextId timestamp]).take n).drop
        (q.messages.length + 1 - q.config.maxSize.toNat), m.acknowledged = true := by
  have length : (q.messages ++ [new.captured q.nextId timestamp]).length =
      q.messages.length + 1 := by
    rw [List.length_append, List.length_singleton]
  generalize hk : q.messages.length + 1 - q.config.maxSize.toNat = k
  generalize hcutoff : (if q.config.retentionSecs ≤ now then now - q.config.retentionSecs else 0) =
    cutoff
  have left : (q.addMessage new timestamp now).2.messages =
      ((q.messages ++ [new.captured q.nextId timestamp]).drop k).dropWhile
        (MessageQueue.isExpired cutoff) := by
    rw [← hcutoff, ← hk, ← length, ← enforceMaxSize_eq]
    rfl
  generalize hrest : (q.messages ++ [new.captured q.nextId timestamp]).drop k = rest at left
  obtain ⟨taken, dropped⟩ := take_drop_takeWhile (MessageQueue.isExpired cutoff) rest
  have rest_length : rest.length = q.messages.length + 1 - k := by
    rw [← hrest, List.length_drop, length]
  have prefix_length :=
    (List.takeWhile_prefix (MessageQueue.isExpired cutoff) (l := rest)).length_le
  refine ⟨k + (rest.takeWhile (MessageQueue.isExpired cutoff)).length, ?_, by omega, by omega, ?_⟩
  · rw [left, ← dropped, ← hrest, List.drop_drop]
  · intro m hm
    rw [List.drop_take, hrest, Nat.add_sub_cancel_left, taken] at hm
    have expired := List.mem_takeWhile_imp hm
    exact (Bool.and_eq_true_iff.mp expired).1

/-- The step that adds a message, with the messages that it pops. -/
theorem step_addMessage (h : History) (new : NewMessage) (timestamp now : UInt64) :
    ∃ n, (h.step (.addMessage new timestamp now)).queue.messages =
        (h.queue.messages ++ [new.captured h.queue.nextId timestamp]).drop n ∧
      (h.step (.addMessage new timestamp now)).dropped = h.dropped ++
        (h.queue.messages ++ [new.captured h.queue.nextId timestamp]).take n ∧
      h.queue.messages.length + 1 ≤ n + h.queue.config.maxSize.toNat ∧
      ∀ m ∈ ((h.queue.messages ++ [new.captured h.queue.nextId timestamp]).take n).drop
        (h.queue.messages.length + 1 - h.queue.config.maxSize.toNat), m.acknowledged = true := by
  obtain ⟨n, left, most, least, acknowledged⟩ := addMessage_messages h.queue new timestamp now
  refine ⟨n, left, ?_, least, acknowledged⟩
  have length : (h.queue.messages ++ [new.captured h.queue.nextId timestamp]).length =
      h.queue.messages.length + 1 := by
    rw [List.length_append, List.length_singleton]
  change h.dropped ++ List.take (_ - (h.queue.addMessage new timestamp now).2.messages.length) _ = _
  rw [left, List.length_drop, length, Nat.sub_sub_self most]

theorem step_added (h : History) (new : NewMessage) (timestamp now : UInt64) :
    (h.step (.addMessage new timestamp now)).added =
      h.added ++ [new.captured h.queue.nextId timestamp] := by
  obtain ⟨n, left, popped, -, -⟩ := step_addMessage h new timestamp now
  rw [History.added, left, popped, List.append_assoc, List.take_append_drop, History.added,
    List.append_assoc]

theorem idsFrom_succ (k n : Nat) : idsFrom k (n + 1) = idsFrom k n ++
    [UInt64.ofNat (k + n + 1)] := by
  have place : k + 1 + n = k + n + 1 := by omega
  rw [idsFrom, idsFrom, List.range'_1_concat, List.map_append, place]
  rfl

theorem ordered_addMessage (h : History) (new : NewMessage) (timestamp now : UInt64)
    (ordered : h.Ordered) : (h.step (.addMessage new timestamp now)).Ordered := by
  obtain ⟨n, left, popped, least, acknowledged⟩ := step_addMessage h new timestamp now
  have added := step_added h new timestamp now
  have config : (h.step (.addMessage new timestamp now)).queue.config = h.queue.config := rfl
  have total : h.added.length = h.dropped.length + h.queue.messages.length := List.length_append
  have more : (h.step (.addMessage new timestamp now)).added.length = h.added.length + 1 := by
    rw [added, List.length_append, List.length_singleton]
  constructor
  · rw [more, idsFrom_succ, added, List.map_append, ordered.ids, Nat.zero_add, ← ordered.next]
    rfl
  · rw [more, UInt64.ofNat_add, ← ordered.next]
    rfl
  · rw [added, List.getLast?_append, List.getLast?_singleton]
    rfl
  · rw [left, config, List.length_drop, List.length_append, List.length_singleton]
    omega
  · rw [config, more, popped, List.drop_append]
    intro m hm
    rcases List.mem_append.mp hm with before | here
    · apply ordered.kept m
      have further : h.added.length + 1 - h.queue.config.maxSize.toNat =
          (h.added.length - h.queue.config.maxSize.toNat) +
            (h.added.length + 1 - h.queue.config.maxSize.toNat -
              (h.added.length - h.queue.config.maxSize.toNat)) := by
        omega
      rw [further, ← List.drop_drop] at before
      exact List.mem_of_mem_drop before
    · apply acknowledged m
      have place : h.added.length + 1 - h.queue.config.maxSize.toNat - h.dropped.length =
          h.queue.messages.length + 1 - h.queue.config.maxSize.toNat := by
        omega
      rwa [place] at here

theorem ordered_acknowledge (h : History) (id now : UInt64) (ordered : h.Ordered) :
    (h.step (.acknowledge id now)).Ordered := by
  have messages : (h.step (.acknowledge id now)).queue.messages.map InboundMessage.id =
      h.queue.messages.map InboundMessage.id := map_id_acknowledgeFirst id now h.queue.messages
  have ids : (h.step (.acknowledge id now)).added.map InboundMessage.id =
      h.added.map InboundMessage.id := by
    rw [History.added, History.added, List.map_append, List.map_append, messages]
    rfl
  have length : (h.step (.acknowledge id now)).added.length = h.added.length := by
    rw [← List.length_map InboundMessage.id, ids, List.length_map]
  constructor
  · rw [ids, length]
    exact ordered.ids
  · rw [length]
    exact ordered.next
  · rw [← List.getLast?_map, ids, List.getLast?_map]
    exact ordered.last
  · rw [← List.length_map InboundMessage.id, messages, List.length_map]
    exact ordered.size
  · rw [length]
    exact ordered.kept

theorem ordered_step (h : History) (call : QueueCall) (ordered : h.Ordered) :
    (h.step call).Ordered := by
  cases call with
  | addMessage new timestamp now => exact ordered_addMessage h new timestamp now ordered
  | acknowledge id now => exact ordered_acknowledge h id now ordered

theorem ordered_start (config : MessageQueueConfig) : (History.start config).Ordered where
  ids := rfl
  next := rfl
  last := rfl
  size := Nat.zero_le _
  kept := by
    intro m hm
    simp [History.start] at hm

theorem ordered_after (config : MessageQueueConfig) (calls : List QueueCall) :
    (History.after config calls).Ordered :=
  Run.run_invariant History.step (fun h call ordered => ordered_step h call ordered) _ calls
    (ordered_start config)

theorem config_after (config : MessageQueueConfig) (calls : List QueueCall) :
    (History.after config calls).queue.config = config := by
  apply Run.run_invariant History.step (J := fun h => h.queue.config = config) ?_ _ calls rfl
  intro h call same
  cases call with
  | addMessage new timestamp now => exact same
  | acknowledge id now => exact same

/-- Each id is one more than the one before. -/
def ConsecutiveIds (messages : List InboundMessage) : Prop :=
  messages.IsChain fun m n => n.id = m.id + 1

theorem drop_idsFrom (k n : Nat) : (idsFrom 0 (k + n)).drop k = idsFrom k n := by
  have place : 0 + 1 + k * 1 = k + 1 := by omega
  rw [idsFrom, idsFrom, ← List.map_drop, List.drop_range', place, Nat.add_sub_cancel_left]

theorem messages_ids (h : History) (ordered : h.Ordered) :
    h.queue.messages.map InboundMessage.id = idsFrom h.dropped.length h.queue.messages.length := by
  have ids := ordered.ids
  rw [History.added, List.map_append, List.length_append] at ids
  calc h.queue.messages.map InboundMessage.id
      = (h.dropped.map InboundMessage.id ++ h.queue.messages.map InboundMessage.id).drop
          h.dropped.length := by
        have length : (h.dropped.map InboundMessage.id).length = h.dropped.length :=
          List.length_map _
        rw [← length, List.drop_left]
    _ = idsFrom h.dropped.length h.queue.messages.length := by rw [ids, drop_idsFrom]

theorem idsFrom_chain (k n : Nat) : (idsFrom k n).IsChain fun a b => b = a + 1 := by
  rw [idsFrom, List.isChain_map]
  apply (List.isChain_range' (k + 1) n 1).imp
  rintro a _ rfl
  exact UInt64.ofNat_add a 1

theorem nodup_idsFrom (k n : Nat) (h : n ≤ 2 ^ 64) : (idsFrom k n).Nodup := by
  rw [idsFrom]
  apply List.Nodup.map_on ?_ List.nodup_range'
  intro a ha b hb same
  rw [List.mem_range'_1] at ha hb
  have values := congrArg UInt64.toNat same
  rw [UInt64.toNat_ofNat', UInt64.toNat_ofNat'] at values
  omega

theorem nodup_ids (h : History) (ordered : h.Ordered) :
    (h.queue.messages.map InboundMessage.id).Nodup := by
  have bound := UInt64.toNat_lt h.queue.config.maxSize
  rw [messages_ids h ordered]
  exact nodup_idsFrom _ _ (Nat.le_of_lt (Nat.lt_of_le_of_lt ordered.size bound))

/-- A message of a queue whose ids are distinct is found under its id. -/
theorem getById_mem (q : MessageQueue) (distinct : (q.messages.map InboundMessage.id).Nodup)
    (m : InboundMessage) (hm : m ∈ q.messages) : q.getById m.id = some m := by
  unfold MessageQueue.getById
  generalize q.messages = messages at distinct hm
  induction messages with
  | nil => cases hm
  | cons first rest ih =>
    obtain ⟨other, distinct'⟩ := List.nodup_cons.mp distinct
    rcases List.mem_cons.mp hm with rfl | hm
    · rw [List.find?_cons_of_pos (by simp)]
    · have different : first.id ≠ m.id := by
        intro same
        exact other (same ▸ List.mem_map_of_mem hm)
      rw [List.find?_cons_of_neg (by simpa using different)]
      exact ih distinct' hm

/-- After any calls the ids in the queue are consecutive and end with the last one that was
returned, the queue is not too long, and each unacknowledged message among as many of the last ones
as the queue may hold is found in it. -/
theorem messageQueue_retains (config : MessageQueueConfig) (calls : List QueueCall) :
    ConsecutiveIds (History.after config calls).queue.messages ∧
    (∀ m ∈ (History.after config calls).queue.messages.getLast?,
      (History.after config calls).lastId = some m.id) ∧
    (History.after config calls).queue.messages.length ≤ config.maxSize.toNat ∧
    ∀ m ∈ (History.after config calls).added.drop
        ((History.after config calls).added.length - config.maxSize.toNat),
      m.acknowledged = false → m ∈ (History.after config calls).queue.messages ∧
        (History.after config calls).queue.getById m.id = some m := by
  have ordered := ordered_after config calls
  have same := config_after config calls
  generalize History.after config calls = h at ordered same
  subst same
  refine ⟨?_, ?_, ordered.size, ?_⟩
  · have chain := idsFrom_chain h.dropped.length h.queue.messages.length
    rw [← messages_ids h ordered, List.isChain_map] at chain
    exact chain
  · intro m hm
    rw [ordered.last, History.added, List.getLast?_append, Option.mem_def.mp hm]
    rfl
  · intro m hm pending
    have inside : m ∈ h.queue.messages := by
      rw [History.added, List.drop_append, List.mem_append] at hm
      rcases hm with before | here
      · have acknowledged := ordered.kept m before
        rw [pending] at acknowledged
        cases acknowledged
      · exact List.mem_of_mem_drop here
    exact ⟨inside, getById_mem h.queue (nodup_ids h ordered) m inside⟩

end SyndDB.Sequencer
