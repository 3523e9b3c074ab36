import Mathlib.Algebra.Order.Group.Multiset
import Mathlib.Order.Bounds.Basic
import Mathlib.Tactic.Abel
import SyndDB.Sequencer.Batcher

namespace SyndDB.Sequencer

open Octets Shared

inductive InboxError where
  | Signing (message : String)
  | Cbor (e : CborError)
  | InvalidPublicKey (e : CborError)
  deriving DecidableEq

structure SequenceReceipt where
  sequence : UInt64
  timestamp : UInt64
  messageHash : Hex
  signature : Hex
  signer : Hex
  deriving DecidableEq

/-- One request on its way into the inbox, with the answers of the clock and the key manager. -/
structure Submission where
  messageType : CborMessageType
  payload : Bytes
  timestamp : UInt64
  signRawSync : Bytes → Except String Bytes

variable (X : Externals) (compressPayload : Bytes → Bytes)

def signCose (submission : Submission) (data : Bytes) : Except CborError Bytes :=
  signHashed X submission.signRawSync data

/-- The message and receipt for a number that has been taken. -/
def signMessage (keyManager : Bytes) (sequence : UInt64) (submission : Submission) :
    Except InboxError (CborSignedMessage × SequenceReceipt) := do
  let compressed := compressPayload submission.payload
  let verifyingKey ← (verifyingKeyFromBytes X keyManager).mapError InboxError.InvalidPublicKey
  let message ← (CborSignedMessage.new X sequence submission.timestamp submission.messageType
    compressed verifyingKey (signCose X submission)).mapError InboxError.Cbor
  let parsed ← (parseCoseSign1 X message.coseBytes).mapError InboxError.Cbor
  return (message, ⟨sequence, submission.timestamp, hex0x (X.keccak256 compressed),
    hex0x parsed.signature, hex0x keyManager⟩)

/-- The counter moves on whether or not the message can be signed. -/
def sequenceMessage (keyManager : Bytes) (sequence : UInt64) (submission : Submission) :
    Except InboxError (CborSignedMessage × SequenceReceipt) × UInt64 :=
  (signMessage X compressPayload keyManager sequence submission, sequence + 1)

/-- Commands that reach the batcher from elsewhere than a sequencing handler. -/
inductive Control where
  | Flush
  | GetStats
  | Shutdown
  deriving DecidableEq

def Control.command : Control → BatcherCommand
  | .Flush => .Flush
  | .GetStats => .GetStats
  | .Shutdown => .Shutdown

/-- The sequencer: the counter of the inbox, the messages handlers hold between taking a number and
handing over, the channel and the batcher task. -/
structure Pipeline where
  sequence : UInt64
  inFlight : List CborSignedMessage
  channel : List BatcherCommand
  task : Task

inductive Move where
  /-- A handler takes a number and signs. -/
  | sequence (submission : Submission)
  /-- A handler gives up after its message was signed. -/
  | abandon (handler : Nat)
  /-- A handler puts its message into the channel. -/
  | add (handler : Nat)
  | control (c : Control)
  /-- The batcher takes the next command. -/
  | receive (answers : Answers)
  | tick (answers : Answers)

def channelCapacity : Nat := 1024

namespace Pipeline

def start (startSequence : UInt64) (config : BatchConfig) (keyManager : Bytes) (now : Nat) :
    Pipeline :=
  ⟨startSequence, [], [], Task.start config keyManager now⟩

/-- A command waits while the channel is full and is dropped once the batcher has stopped. -/
def send (p : Pipeline) (c : BatcherCommand) : Pipeline :=
  if p.task.running then { p with channel := p.channel ++ [c] } else p

def hasRoom (p : Pipeline) : Bool := !p.task.running || p.channel.length < channelCapacity

def step (p : Pipeline) : Move → Pipeline
  | .sequence submission =>
      match sequenceMessage X compressPayload p.task.batcher.keyManager p.sequence submission with
      | (.ok (message, _), next) => { p with sequence := next, inFlight := p.inFlight ++ [message] }
      | (.error _, next) => { p with sequence := next }
  | .abandon handler => { p with inFlight := p.inFlight.eraseIdx handler }
  | .add handler =>
      match p.inFlight[handler]? with
      | some message =>
          if p.hasRoom then
            { p with inFlight := p.inFlight.eraseIdx handler }.send (.AddMessage message)
          else p
      | none => p
  | .control c => if p.hasRoom then p.send c.command else p
  | .receive answers =>
      match p.channel with
      | c :: rest => { p with channel := rest, task := p.task.step X (.command c, answers) }
      | [] => p
  | .tick answers => { p with task := p.task.step X (.tick, answers) }

end Pipeline

def number (m : CborSignedMessage) : Option Nat := (m.sequence X).toOption.map UInt64.toNat

/-- The numbers of the messages follow each other without a gap. -/
def Consecutive (messages : List CborSignedMessage) : Prop :=
  ∃ first, messages.map (number X) = (List.range' first messages.length).map some

/-- The messages are in order and the range is theirs. -/
structure InOrder (batch : CborBatch) : Prop where
  consecutive : Consecutive X batch.messages
  least : IsLeast {n | ∃ m ∈ batch.messages, number X m = some n} batch.startSequence.toNat
  greatest : IsGreatest {n | ∃ m ∈ batch.messages, number X m = some n} batch.endSequence.toNat

/-- The number a message was built with is the number read from it. -/
theorem sequence_new (codes : X.CodesMessages) (sequence timestamp : UInt64)
    (messageType : CborMessageType) (payload signerPubkey : Bytes)
    (sign : Bytes → Except CborError Bytes) (m : CborSignedMessage)
    (h : CborSignedMessage.new X sequence timestamp messageType payload signerPubkey sign = .ok m) :
    m.sequence X = .ok sequence := by
  simp only [CborSignedMessage.new, buildCoseSign1, Outcome.bind_ok] at h
  obtain ⟨bytes, ⟨signature, -, coded⟩, hm⟩ := h
  cases hm
  obtain ⟨original, decoded⟩ := codes _ _ rfl coded
  have small : UInt64.ofNat ((sequence.toNat : Int) % 2 ^ 64).toNat = sequence := by
    have lt := sequence.toNat_lt
    have same : ((sequence.toNat : Int) % 2 ^ 64).toNat = sequence.toNat := by omega
    rw [same]
    exact UInt64.ofNat_toNat
  simp only [CborSignedMessage.sequence, extractSequence, decoded, requireHeader,
    extractU64FromHeader, List.findSome?_cons, if_true, Outcome.ok_bind, small]

theorem number_signed (codes : X.CodesMessages) (keyManager : Bytes) (sequence : UInt64)
    (submission : Submission) (m : CborSignedMessage) (receipt : SequenceReceipt)
    (h : signMessage X compressPayload keyManager sequence submission = .ok (m, receipt)) :
    number X m = some sequence.toNat := by
  have returned {ε δ α : Type} (f : ε → δ) (x : Except ε α) (a : α) (hx : x.mapError f = .ok a) :
      x = .ok a := by
    cases x with
    | error e => cases hx
    | ok b => exact congrArg Except.ok (Except.ok.inj hx)
  simp only [signMessage, Outcome.bind_ok] at h
  obtain ⟨key, -, message, built, parsed, -, hm⟩ := h
  cases hm
  have read := sequence_new X codes _ _ _ _ _ _ _ (returned _ _ _ built)
  simp [number, read, Except.toOption]

theorem consecutive_nil : Consecutive X [] := ⟨0, rfl⟩

/-- The next number may follow. -/
theorem consecutive_push (messages : List CborSignedMessage) (m : CborSignedMessage) (n : Nat)
    (hm : number X m = some n) (h : Consecutive X messages)
    (hlast : ∀ last ∈ messages.getLast?, ∃ k, number X last = some k ∧ number X m = some (k + 1)) :
    Consecutive X (messages ++ [m]) := by
  obtain ⟨first, hfirst⟩ := h
  by_cases empty : messages = []
  · subst empty
    exact ⟨n, by simp [hm]⟩
  · have some_last : messages.getLast? = some (messages.getLast empty) :=
      List.getLast?_eq_some_getLast empty
    obtain ⟨k, hk, hm⟩ := hlast _ some_last
    have positive := List.length_pos_iff.mpr empty
    have last_number : k + 1 = first + messages.length := by
      have h1 : (messages.map (number X)).getLast? = some (some k) := by
        rw [List.getLast?_map, some_last, Option.map_some, hk]
      rw [hfirst, List.getLast?_map, List.getLast?_range'] at h1
      have : messages.length ≠ 0 := by omega
      simp [this] at h1
      omega
    refine ⟨first, ?_⟩
    rw [List.map_append, hfirst, List.length_append, List.length_singleton, List.range'_concat,
      List.map_append]
    simp [hm, last_number]

theorem consecutive_numbers (messages : List CborSignedMessage) (first n : Nat)
    (h : messages.map (number X) = (List.range' first messages.length).map some) :
    (∃ m ∈ messages, number X m = some n) ↔ first ≤ n ∧ n < first + messages.length := by
  rw [← List.mem_map, h]
  simp [List.mem_range'_1]

/-- A batch built from consecutive messages is in order. -/
theorem inOrder_new (messages : List CborSignedMessage) (createdAt : UInt64) (signerPubkey : Bytes)
    (sign : Bytes → Except CborError Bytes) (batch : CborBatch) (h : Consecutive X messages)
    (built : CborBatch.new X messages createdAt signerPubkey sign = .ok batch) :
      InOrder X batch := by
  obtain ⟨head, last, s, e, signature, hhead, hlast, hs, he, -, rfl⟩ :=
    (CborBatch.new_ok X _ _ _ _ _).mp built
  obtain ⟨first, hfirst⟩ := h
  have positive : 0 < messages.length := by
    apply List.length_pos_of_mem
    exact List.mem_of_mem_head? hhead
  have head_number : s.toNat = first := by
    have h1 : (messages.map (number X)).head? = some (some s.toNat) := by
      rw [List.head?_map, hhead]
      simp [number, hs, Except.toOption]
    rw [hfirst, List.head?_map, List.head?_range'] at h1
    have : messages.length ≠ 0 := by omega
    simp [this] at h1
    omega
  have last_number : e.toNat + 1 = first + messages.length := by
    have h1 : (messages.map (number X)).getLast? = some (some e.toNat) := by
      rw [List.getLast?_map, hlast]
      simp [number, he, Except.toOption]
    rw [hfirst, List.getLast?_map, List.getLast?_range'] at h1
    have : messages.length ≠ 0 := by omega
    simp [this] at h1
    omega
  have numbers (n : Nat) := consecutive_numbers X messages first n hfirst
  constructor
  · exact ⟨first, hfirst⟩
  · constructor
    · apply (numbers _).mpr
      dsimp only
      omega
    · intro n hn
      have := (numbers n).mp hn
      dsimp only
      omega
  · constructor
    · apply (numbers _).mpr
      dsimp only
      omega
    · intro n hn
      have := (numbers n).mp hn
      dsimp only
      omega

/-- A batch in order has a message for every number of its range. -/
theorem inOrder_covers (batch : CborBatch) (h : InOrder X batch) (n : Nat)
    (lower : batch.startSequence.toNat ≤ n) (upper : n ≤ batch.endSequence.toNat) :
    ∃ m ∈ batch.messages, number X m = some n := by
  obtain ⟨first, hfirst⟩ := h.consecutive
  have numbers (k : Nat) := consecutive_numbers X batch.messages first k hfirst
  have hstart := (numbers _).mp h.least.1
  have hend := (numbers _).mp h.greatest.1
  apply (numbers n).mpr
  omega

/-- The messages a batcher holds or has published. -/
def Batcher.held (b : Batcher) : Multiset CborSignedMessage :=
  (b.messages : Multiset CborSignedMessage) + (b.published : Multiset CborSignedMessage)

theorem flushBatch_held (answers : Answers) (b : Batcher) :
    (b.flushBatch X answers).2.held ≤ b.held := by
  obtain ⟨-, same⟩ | ⟨-, -, batch, built, ht, hp, -⟩ | ⟨-, -, lost⟩ := b.flushBatch_cases X answers
  · rw [same]
  · have hm := CborBatch.new_messages X _ _ _ _ _ built
    have emptied : (b.flushBatch X answers).2.messages = [] := by rw [Batcher.messages, hp]; rfl
    have moved : (b.flushBatch X answers).2.published = b.published ++ b.messages := by
      simp [Batcher.published, ht, hm]
    rw [Batcher.held, Batcher.held, emptied, moved, ← Multiset.coe_add]
    apply le_of_eq
    rw [Multiset.coe_nil, zero_add, add_comm]
  · rw [lost]
    have emptied : ({ b with pending := [], pendingBytes := 0 } : Batcher).held = b.published := rfl
    rw [emptied, Batcher.held]
    exact Multiset.le_add_left _ _

theorem flushBatch_ordered (answers : Answers) (b : Batcher) (h : Consecutive X b.messages)
    (ordered : ∀ batch ∈ b.transport, InOrder X batch) :
    Consecutive X (b.flushBatch X answers).2.messages ∧
      ∀ batch ∈ (b.flushBatch X answers).2.transport, InOrder X batch := by
  obtain ⟨-, same⟩ | ⟨-, -, batch, built, ht, hp, -⟩ | ⟨-, -, lost⟩ := b.flushBatch_cases X answers
  · rw [same]
    exact ⟨h, ordered⟩
  · have new := inOrder_new X _ _ _ _ _ h built
    rw [Batcher.messages, hp, ht]
    refine ⟨consecutive_nil X, ?_⟩
    intro c hc
    rcases List.mem_append.mp hc with old | last
    · exact ordered c old
    · rw [List.mem_singleton.mp last]
      exact new
  · rw [lost]
    exact ⟨consecutive_nil X, ordered⟩

/-- A turn of the batcher, once the message is in the queue, only loses messages and only publishes
batches that are in order. -/
theorem turn_ordered (t : Task) (e : Event × Answers)
    (h : Consecutive X (t.intake e.1).batcher.messages)
    (ordered : ∀ batch ∈ (t.intake e.1).batcher.transport, InOrder X batch) :
    (t.step X e).batcher.held ≤ (t.intake e.1).batcher.held ∧
      Consecutive X (t.step X e).batcher.messages ∧
      ∀ batch ∈ (t.step X e).batcher.transport, InOrder X batch := by
  obtain ⟨-, ⟨-, flushed⟩ | ⟨-, transport, pending, -⟩⟩ := t.step_cases X e
  · rw [flushed]
    exact ⟨flushBatch_held X _ _, flushBatch_ordered X _ _ h ordered⟩
  · have messages : (t.step X e).batcher.messages = (t.intake e.1).batcher.messages := by
      rw [Batcher.messages, pending]
      rfl
    have held : (t.step X e).batcher.held = (t.intake e.1).batcher.held := by
      rw [Batcher.held, messages, Batcher.published, transport]
      rfl
    rw [held, messages, transport]
    exact ⟨le_refl _, h, ordered⟩

def BatcherCommand.added : BatcherCommand → Option CborSignedMessage
  | .AddMessage m => some m
  | .Flush | .GetStats | .Shutdown => none

theorem intake_held (t : Task) (c : BatcherCommand) :
    (t.intake (.command c)).batcher.held ≤ (c.added.toList : Multiset CborSignedMessage) +
      t.batcher.held := by
  cases c with
  | AddMessage m =>
    simp only [Task.intake]
    split
    · apply le_of_eq
      simp only [Batcher.held, Batcher.messages_push, Batcher.published_push, BatcherCommand.added,
        Option.toList_some, Multiset.coe_singleton, ← Multiset.coe_add]
      abel
    · exact Multiset.le_add_left _ _
  | _ => exact Multiset.le_add_left _ _

namespace Pipeline

def handedOver (p : Pipeline) : List CborSignedMessage := p.channel.filterMap BatcherCommand.added

/-- Every message that was signed and not yet lost. -/
def tracked (p : Pipeline) : Multiset CborSignedMessage :=
  (p.inFlight : Multiset CborSignedMessage) + (p.handedOver : Multiset CborSignedMessage) +
    p.task.batcher.held

/-- The message at the front of the channel is next in line behind the pending ones. -/
def InLine (p : Pipeline) : Prop :=
  ∀ m ∈ p.channel.head?.bind BatcherCommand.added, ∀ last ∈ p.task.batcher.messages.getLast?,
    number X m = (number X last).map (· + 1)

instance (p : Pipeline) : Decidable (p.InLine X) :=
  inferInstanceAs (Decidable (∀ m ∈ p.channel.head?.bind BatcherCommand.added,
    ∀ last ∈ p.task.batcher.messages.getLast?, number X m = (number X last).map (· + 1)))

/-- What a move must meet: the counter does not overflow, and the batcher takes up
messages in line. -/
def Orderly (p : Pipeline) : Move → Prop
  | .sequence _ => p.sequence.toNat + 1 < 2 ^ 64
  | .receive _ => p.InLine X
  | _ => True

instance (p : Pipeline) (move : Move) : Decidable (p.Orderly X move) :=
  match move with
  | .sequence _ => inferInstanceAs (Decidable (p.sequence.toNat + 1 < 2 ^ 64))
  | .receive _ => inferInstanceAs (Decidable (p.InLine X))
  | .abandon _ | .add _ | .control _ | .tick _ => isTrue trivial

structure Sound (p : Pipeline) : Prop where
  numbered : ∀ m ∈ p.tracked, ∃ n < p.sequence.toNat, number X m = some n
  distinct : (p.tracked.map (number X)).Nodup
  pending : Consecutive X p.task.batcher.messages
  ordered : ∀ b ∈ p.task.batcher.transport, InOrder X b

variable {X}

theorem Sound.mono {p q : Pipeline} (h : p.Sound X) (tracked : q.tracked ≤ p.tracked)
    (sequence : q.sequence = p.sequence) (pending : Consecutive X q.task.batcher.messages)
    (ordered : ∀ b ∈ q.task.batcher.transport, InOrder X b) : q.Sound X where
  numbered m hm := by
    rw [sequence]
    exact h.numbered m (Multiset.mem_of_le tracked hm)
  distinct := Multiset.nodup_of_le (Multiset.map_le_map tracked) h.distinct
  pending := pending
  ordered := ordered

variable (X)

theorem start_sound (startSequence : UInt64) (config : BatchConfig) (keyManager : Bytes)
    (now : Nat) :
    (start startSequence config keyManager now).Sound X where
  numbered := by
    intro m hm
    simp [start, tracked, handedOver, Batcher.held, Task.start, Batcher.spawn, Batcher.messages,
      Batcher.published] at hm
  distinct := by
    simp [start, tracked, handedOver, Batcher.held, Task.start, Batcher.spawn, Batcher.messages,
      Batcher.published]
  pending := consecutive_nil X
  ordered := by
    intro b hb
    simp [start, Task.start, Batcher.spawn] at hb

private theorem next_toNat (n : UInt64) (h : n.toNat + 1 < 2 ^ 64) : (n + 1).toNat =
    n.toNat + 1 := by
  rw [UInt64.toNat_add]
  exact Nat.mod_eq_of_lt h

theorem sequence_sound (codes : X.CodesMessages) (p : Pipeline) (submission : Submission)
    (h : p.Sound X) (room : p.sequence.toNat + 1 < 2 ^ 64) :
    (p.step X compressPayload (.sequence submission)).Sound X := by
  have next := next_toNat p.sequence room
  cases signed : signMessage X compressPayload p.task.batcher.keyManager p.sequence submission with
  | error e =>
    simp only [step, sequenceMessage, signed]
    constructor
    · intro m hm
      obtain ⟨n, hn, number⟩ := h.numbered m hm
      exact ⟨n, by dsimp only; omega, number⟩
    · exact h.distinct
    · exact h.pending
    · exact h.ordered
  | ok result =>
    obtain ⟨m, receipt⟩ := result
    have hm := number_signed X compressPayload codes _ _ _ _ _ signed
    simp only [step, sequenceMessage, signed]
    have more : tracked { p with sequence := p.sequence + 1, inFlight := p.inFlight ++ [m] } =
        m ::ₘ p.tracked := by
      simp only [tracked, handedOver, ← Multiset.coe_add, Multiset.coe_singleton]
      rw [← Multiset.singleton_add]
      abel
    have fresh : some p.sequence.toNat ∉ p.tracked.map (number X) := by
      intro found
      obtain ⟨other, hother, same⟩ := Multiset.mem_map.mp found
      obtain ⟨n, hn, number⟩ := h.numbered other hother
      rw [number, Option.some.injEq] at same
      omega
    constructor
    · rw [more]
      intro k hk
      rcases Multiset.mem_cons.mp hk with rfl | old
      · exact ⟨p.sequence.toNat, by dsimp only; omega, hm⟩
      · obtain ⟨n, hn, number⟩ := h.numbered k old
        exact ⟨n, by dsimp only; omega, number⟩
    · rw [more, Multiset.map_cons, Multiset.nodup_cons, hm]
      exact ⟨fresh, h.distinct⟩
    · exact h.pending
    · exact h.ordered

private theorem eraseIdx_tracked (p : Pipeline) (i : Nat) :
    { p with inFlight := p.inFlight.eraseIdx i }.tracked ≤ p.tracked := by
  have fewer : (p.inFlight.eraseIdx i : Multiset CborSignedMessage) ≤ p.inFlight :=
    Multiset.coe_le.mpr (p.inFlight.eraseIdx_sublist i).subperm
  simp only [tracked, handedOver]
  gcongr

private theorem add_tracked (p : Pipeline) (i : Nat) (m : CborSignedMessage)
    (h : p.inFlight[i]? = some m) :
    { p with
      inFlight := p.inFlight.eraseIdx i
      channel := p.channel ++ [BatcherCommand.AddMessage m] }.tracked = p.tracked := by
  have hi : i < p.inFlight.length := (List.getElem?_eq_some_iff.mp h).1
  have hm : p.inFlight[i] = m := (List.getElem?_eq_some_iff.mp h).2
  have split : (p.inFlight : Multiset CborSignedMessage) = {m} + (p.inFlight.eraseIdx i) := by
    rw [Multiset.singleton_add, Multiset.cons_coe, ← hm]
    exact (Multiset.coe_eq_coe.mpr (List.getElem_cons_eraseIdx_perm hi)).symm
  simp only [tracked, handedOver, List.filterMap_append, List.filterMap_cons, List.filterMap_nil,
    BatcherCommand.added, ← Multiset.coe_add, Multiset.coe_singleton]
  rw [split]
  abel

theorem send_tracked (p : Pipeline) (c : Control) : (p.send c.command).tracked = p.tracked := by
  unfold send
  split
  · cases c <;> simp [tracked, handedOver, Control.command, List.filterMap_cons,
      BatcherCommand.added]
  · rfl

theorem receive_sound (p : Pipeline) (answers : Answers) (h : p.Sound X)
    (orderly : p.Orderly X (.receive answers)) :
    (p.step X compressPayload (.receive answers)).Sound X := by
  cases queue : p.channel with
  | nil => simpa [step, queue] using h
  | cons c rest =>
    have taken : Consecutive X (p.task.intake (.command c)).batcher.messages := by
      cases c with
      | AddMessage m =>
        simp only [Task.intake]
        split
        · obtain ⟨n, -, hn⟩ := h.numbered m (by
            simp [tracked, handedOver, queue, BatcherCommand.added])
          rw [Batcher.messages_push]
          apply consecutive_push X _ m n hn h.pending
          intro last hlast
          have mem : last ∈ p.task.batcher.messages := List.mem_of_mem_getLast? hlast
          obtain ⟨k, -, hk⟩ := h.numbered last (by simp [tracked, Batcher.held, mem])
          have next : number X m = (number X last).map (· + 1) := by
            apply orderly m _ last hlast
            simp [queue, BatcherCommand.added]
          exact ⟨k, hk, by rw [next, hk]; rfl⟩
        · exact h.pending
      | _ => exact h.pending
    have ordered : ∀ b ∈ (p.task.intake (.command c)).batcher.transport, InOrder X b := by
      cases c with
      | AddMessage m =>
        simp only [Task.intake]
        split
        · exact h.ordered
        · exact h.ordered
      | _ => exact h.ordered
    obtain ⟨held, pending, ordered⟩ := turn_ordered X p.task (.command c, answers) taken ordered
    have fewer : (p.step X compressPayload (.receive answers)).tracked ≤ p.tracked := by
      have front : (p.handedOver : Multiset CborSignedMessage) =
          c.added.toList + (rest.filterMap BatcherCommand.added) := by
        rw [handedOver, queue]
        cases c <;> simp [List.filterMap_cons, BatcherCommand.added]
      have all := held.trans (intake_held p.task c)
      simp only [step, queue, tracked, front]
      rw [handedOver]
      calc (p.inFlight : Multiset CborSignedMessage) + rest.filterMap BatcherCommand.added +
            (p.task.step X (.command c, answers)).batcher.held
          ≤ p.inFlight + rest.filterMap BatcherCommand.added +
            (c.added.toList + p.task.batcher.held) := add_le_add_right all _
        _ = p.inFlight + (c.added.toList + rest.filterMap BatcherCommand.added) +
            p.task.batcher.held := by abel
    simp only [step, queue] at fewer ⊢
    exact h.mono fewer rfl pending ordered

/-- An orderly move keeps the numbers straight. -/
theorem step_sound (codes : X.CodesMessages) (p : Pipeline) (move : Move) (h : p.Sound X)
    (orderly : p.Orderly X move) : (p.step X compressPayload move).Sound X := by
  cases move with
  | sequence submission => exact sequence_sound X compressPayload codes p submission h orderly
  | abandon i => exact h.mono (eraseIdx_tracked p i) rfl h.pending h.ordered
  | add i =>
    cases found : p.inFlight[i]? with
    | none => simpa [step, found] using h
    | some m =>
      simp only [step, found]
      split
      · unfold send
        split
        · exact h.mono (add_tracked p i m found).le rfl h.pending h.ordered
        · exact h.mono (eraseIdx_tracked p i) rfl h.pending h.ordered
      · exact h
  | control c =>
    simp only [step]
    split
    · have same : (p.send c.command).task = p.task ∧ (p.send c.command).sequence = p.sequence := by
        unfold send
        split
        · exact ⟨rfl, rfl⟩
        · exact ⟨rfl, rfl⟩
      apply h.mono (send_tracked p c).le same.2
      · rw [same.1]
        exact h.pending
      · rw [same.1]
        exact h.ordered
    · exact h
  | receive answers => exact receive_sound X compressPayload p answers h orderly
  | tick answers =>
    obtain ⟨held, pending, ordered⟩ := turn_ordered X p.task (.tick, answers) h.pending h.ordered
    have fewer : (p.step X compressPayload (.tick answers)).tracked ≤ p.tracked :=
      add_le_add_right held _
    exact h.mono fewer rfl pending ordered

/-- Batches in order that share no message have disjoint ranges. -/
theorem ranges_disjoint (p : Pipeline) (h : p.Sound X) :
    p.task.batcher.transport.Pairwise fun b c =>
      b.endSequence < c.startSequence ∨ c.endSequence < b.startSequence := by
  have distinct : (p.task.batcher.published.map (number X)).Nodup := by
    have part : (p.task.batcher.published : Multiset CborSignedMessage) ≤ p.tracked := by
      rw [tracked, Batcher.held, ← add_assoc]
      exact Multiset.le_add_left _ _
    exact Multiset.coe_nodup.mp (Multiset.nodup_of_le (Multiset.map_le_map part) h.distinct)
  rw [Batcher.published, List.map_flatMap, List.nodup_flatMap] at distinct
  apply distinct.2.imp_of_mem
  intro b c hb hc apart
  by_contra overlap
  simp only [UInt64.lt_iff_toNat_lt, not_or, not_lt] at overlap
  have hbo := h.ordered b hb
  have hco := h.ordered c hc
  have shared (n : Nat) (hnb : ∃ m ∈ b.messages, number X m = some n)
      (hnc : ∃ m ∈ c.messages, number X m = some n) : False :=
    apart (List.mem_map.mpr hnb) (List.mem_map.mpr hnc)
  by_cases later : b.startSequence.toNat ≤ c.startSequence.toNat
  · exact shared c.startSequence.toNat (inOrder_covers X b hbo _ later overlap.1) hco.least.1
  · have earlier : c.startSequence.toNat ≤ b.startSequence.toNat := by omega
    exact shared b.startSequence.toNat hbo.least.1 (inOrder_covers X c hco _ earlier overlap.2)

/-- In an orderly run every published batch is in order and no two of them overlap. -/
theorem published_batches_in_order (codes : X.CodesMessages) (startSequence : UInt64)
    (config : BatchConfig) (keyManager : Bytes) (now : Nat) (moves : List Move)
    (orderly : Run.Along (step X compressPayload) (Orderly X)
      (start startSequence config keyManager now) moves) (n : Nat) :
    let p := Run.run (step X compressPayload) (start startSequence config keyManager now)
      (moves.take n)
    (∀ b ∈ p.task.batcher.transport, InOrder X b) ∧
      p.task.batcher.transport.Pairwise fun b c =>
        b.endSequence < c.startSequence ∨ c.endSequence < b.startSequence := by
  have sound : (Run.run (step X compressPayload) (start startSequence config keyManager now)
      (moves.take n)).Sound X := by
    apply Run.along_invariant (step X compressPayload) (step_sound X compressPayload codes)
    · exact start_sound X startSequence config keyManager now
    · exact Run.along_take _ _ _ _ n orderly
  exact ⟨sound.ordered, ranges_disjoint X _ sound⟩

def sampleSubmission : Submission :=
  ⟨.Changeset, Sample.request, Sample.timestamp, Sample.record.signRawSync Sample.pubkey⟩

def sampleCompress : Bytes → Bytes := tabulated [(Sample.request, Sample.payload)]

def accepting (batch : CborBatch) : Except TransportError PublishMetadata :=
  .ok ⟨"batch", batch.contentHash, 400, 500⟩

def sampleStart : Pipeline := start 0 ⟨50, 1048576, 5000⟩ Sample.pubkey 0

/-- Two requests take their numbers, hand over in the order given, and the batch is flushed. -/
def twoRequests (first second : Nat) : List Move :=
  let answers := Task.sampleAnswers accepting
  [.sequence sampleSubmission, .sequence sampleSubmission, .add first, .add second, .control .Flush,
   .receive answers, .receive answers, .receive answers]

def samplePublished (first second : Nat) : List CborBatch :=
  (Run.run (step Sample.record.externals sampleCompress) sampleStart
    (twoRequests first second)).task.batcher.transport

theorem published_batches_in_order_two :
    (samplePublished 0 0).length = 1 ∧
      (∀ b ∈ samplePublished 0 0, InOrder Sample.record.externals b) ∧
      (samplePublished 0 0).Pairwise fun b c =>
        b.endSequence < c.startSequence ∨ c.endSequence < b.startSequence := by
  have codes : Sample.record.externals.CodesMessages := Recorded.codesMessages _ (by decide +kernel)
  have orderly : Run.Along (step Sample.record.externals sampleCompress)
      (Orderly Sample.record.externals) sampleStart (twoRequests 0 0) := by
    decide +kernel
  have whole : (twoRequests 0 0).take 8 = twoRequests 0 0 := List.take_of_length_le (by decide)
  obtain ⟨ordered, disjoint⟩ := published_batches_in_order Sample.record.externals sampleCompress
    codes 0 ⟨50, 1048576, 5000⟩ Sample.pubkey 0 (twoRequests 0 0) orderly 8
  rw [whole] at ordered disjoint
  have published : (samplePublished 0 0).length = 1 := by decide +kernel
  unfold samplePublished sampleStart at published ⊢
  exact ⟨published, ordered, disjoint⟩

/-- The handler with number 1 hands over first: the batch runs from 1 to 0. -/
theorem swapped_requests_publish_backwards :
    ∃ b ∈ samplePublished 1 0, b.startSequence = 1 ∧ b.endSequence = 0 ∧
      ¬ InOrder Sample.record.externals b := by
  have published : (samplePublished 1 0).length = 1 := by decide +kernel
  have found : ∀ b ∈ samplePublished 1 0, b.startSequence = 1 ∧ b.endSequence = 0 ∧
      ∃ m ∈ b.messages, number Sample.record.externals m = some 0 := by
    decide +kernel
  obtain ⟨b, only⟩ := List.length_eq_one_iff.mp published
  have mem : b ∈ samplePublished 1 0 := by simp [only]
  obtain ⟨hs, he, zero⟩ := found b mem
  refine ⟨b, mem, hs, he, ?_⟩
  intro h
  have least := h.least.2 zero
  simp [hs] at least

end Pipeline

end SyndDB.Sequencer
