import Mathlib.Data.List.Sort
import SyndDB.Client.Session

namespace SyndDB.Client

open Changes

variable {σ τ κ ν : Type}

/-- The settings that the sender threads read. -/
structure Config where
  bufferSize : Nat
  maxRetries : Nat

def Emission.sequence : Emission σ κ ν → Nat
  | .snapshot _ sequence _ | .changeset sequence _ => sequence

def Emission.isChangeset : Emission σ κ ν → Bool
  | .changeset _ _ => true
  | .snapshot _ _ _ => false

/-- A snapshot or changeset, and the session of the client it comes from. -/
structure Item (σ κ ν : Type) where
  session : Nat
  emission : Emission σ κ ν

def Item.sequence (x : Item σ κ ν) : Nat := x.emission.sequence

/-- A request that is sent until it is acknowledged or given up. -/
structure Request (σ κ ν : Type) where
  items : List (Item σ κ ν)
  attempts : Nat
  /-- The row of the recovery database that is sent once more. -/
  row : Option Nat

/-- A sender thread. The snapshot sender has no use for the buffer. -/
structure Sender (σ κ ν : Type) where
  alive : Bool
  started : Bool
  /-- The rows of the recovery database that are still to be retried. -/
  failed : List (Nat × Item σ κ ν)
  buffer : List (Item σ κ ν)
  request : Option (Request σ κ ν)
  /-- The thread ends with the request. -/
  leaving : Bool

def Sender.new : Sender σ κ ν := ⟨true, false, [], [], none, false⟩

def Sender.gone : Sender σ κ ν := ⟨false, true, [], [], none, false⟩

/-- In the `select!` of its loop. -/
def Sender.waits (t : Sender σ κ ν) : Bool :=
  t.alive && t.started && t.failed.isEmpty && t.request.isNone

/-- A sender thread with its two channels and its table of the recovery database. -/
structure Lane (σ κ ν : Type) where
  channel : List (Item σ κ ν)
  /-- The sending end has been dropped. -/
  closed : Bool
  shutdownSignal : Bool
  sender : Sender σ κ ν
  table : List (Nat × Item σ κ ν)
  nextId : Nat

/-- One step of a sender thread. -/
inductive Move where
  /-- Read the rows of the recovery database. -/
  | start
  | retryNext
  /-- Take from the channel; `due` if the bytes or the time for a flush are reached. -/
  | receive (due : Bool)
  /-- Send the request: whether it is sequenced, whether the client learns of it, and whether its
  row can be removed then. -/
  | attempt (sequenced acknowledged removed : Bool)
  | seeClosed
  | seeShutdown
  deriving DecidableEq

namespace Lane

variable (config : Config)

/-- The thread ends, and what it and its channel hold is dropped. -/
def stop (l : Lane σ κ ν) : Lane σ κ ν := { l with channel := [], sender := .gone }

/-- `retry_with_backoff` with no attempt at all panics. -/
def send (items : List (Item σ κ ν)) (row : Option Nat) (l : Lane σ κ ν) : Lane σ κ ν :=
  if config.maxRetries = 0 then l.stop
  else { l with sender := { l.sender with request := some ⟨items, 0, row⟩ } }

/-- Rows get increasing ids. -/
def save (items : List (Item σ κ ν)) (l : Lane σ κ ν) : Lane σ κ ν :=
  { l with
    table := l.table ++ (items.zipIdx l.nextId).map fun entry => (entry.2, entry.1)
    nextId := l.nextId + items.length }

/-- The request is done with. -/
def finish (l : Lane σ κ ν) : Lane σ κ ν :=
  if l.sender.leaving then l.stop else { l with sender := { l.sender with request := none } }

/-- `retry_failed_changesets` and `retry_failed_snapshots` go through the rows by sequence. -/
def start (l : Lane σ κ ν) : Lane σ κ ν :=
  if l.sender.alive && !l.sender.started then
    { l with sender := { l.sender with
        started := true
        failed := l.table.insertionSort fun r q => r.2.sequence ≤ q.2.sequence } }
  else l

def retryNext (l : Lane σ κ ν) : Lane σ κ ν :=
  if l.sender.alive && l.sender.request.isNone then
    match l.sender.failed with
    | [] => l
    | row :: rest =>
        { l with sender := { l.sender with failed := rest } }.send config [row.2] (some row.1)
  else l

def attempt (sequenced acknowledged removed : Bool) (l : Lane σ κ ν) : Lane σ κ ν :=
  match l.sender.request with
  | none => l
  | some r =>
      if sequenced && acknowledged then
        match r.row with
        | none => l.finish
        | some id =>
            if removed then { l with table := l.table.filter fun row => row.1 ≠ id }.finish
            else l.finish
      else if r.attempts + 1 < config.maxRetries then
        { l with sender := { l.sender with request := some { r with attempts := r.attempts + 1 } } }
      else
        match r.row with
        | none => (l.save r.items).finish
        | some _ => l.finish

/-- A closed channel is only seen when it is empty. The buffer is not flushed. -/
def seeClosed (l : Lane σ κ ν) : Lane σ κ ν :=
  if l.sender.waits && l.closed && l.channel.isEmpty then l.stop else l

/-- What the changeset sender does with a changeset. -/
def receiveChangeset (due : Bool) (l : Lane σ κ ν) : Lane σ κ ν :=
  if l.sender.waits then
    match l.channel with
    | [] => l
    | x :: rest =>
        let buffer := l.sender.buffer ++ [x]
        if config.bufferSize ≤ buffer.length || due then
          { l with channel := rest, sender := { l.sender with buffer := [] } }.send config
            buffer none
        else { l with channel := rest, sender := { l.sender with buffer := buffer } }
  else l

/-- The changeset sender drains its channel and flushes before it ends. -/
def seeShutdownChangesets (l : Lane σ κ ν) : Lane σ κ ν :=
  if l.sender.waits && l.shutdownSignal then
    let buffer := l.sender.buffer ++ l.channel
    if buffer.isEmpty then l.stop
    else
      { l with channel := [], sender := { l.sender with buffer := [], leaving := true } }.send
        config buffer none
  else l

def receiveSnapshot (l : Lane σ κ ν) : Lane σ κ ν :=
  if l.sender.waits then
    match l.channel with
    | [] => l
    | x :: rest => { l with channel := rest }.send config [x] none
  else l

/-- The snapshot sender ends at once. -/
def seeShutdownSnapshots (l : Lane σ κ ν) : Lane σ κ ν :=
  if l.sender.waits && l.shutdownSignal then l.stop else l

end Lane

/-- The two sender threads. -/
inductive Kind where
  | changesets
  | snapshots
  deriving DecidableEq

def Lane.move (config : Config) (kind : Kind) (l : Lane σ κ ν) : Move → Lane σ κ ν
  | .start => l.start
  | .retryNext => l.retryNext config
  | .receive due =>
      match kind with
      | .changesets => l.receiveChangeset config due
      | .snapshots => l.receiveSnapshot config
  | .attempt sequenced acknowledged removed => l.attempt config sequenced acknowledged removed
  | .seeClosed => l.seeClosed
  | .seeShutdown =>
      match kind with
      | .changesets => l.seeShutdownChangesets config
      | .snapshots => l.seeShutdownSnapshots

/-- The messages a move brings to the sequencer. Every request that gets there is sequenced,
whether or not it was before: neither `receive_changesets` nor `sequence_message` looks for
its `batch_id`. -/
def Lane.arrivals (l : Lane σ κ ν) : Move → List (List (Item σ κ ν))
  | .attempt true _ _ => l.sender.request.toList.map Request.items
  | _ => []

/-- The items of a move that the client takes for delivered. -/
def Lane.acknowledgements (l : Lane σ κ ν) : Move → List (Item σ κ ν)
  | .attempt true true _ => l.sender.request.toList.flatMap Request.items
  | _ => []

namespace Lane

variable (config : Config)

/-- Why a thread ends without a request: it panics for want of an attempt, or leaves its loop. -/
inductive Ends (kind : Kind) (l : Lane σ κ ν) : Move → Prop where
  | panicked {m : Move} (never : config.maxRetries = 0) (silent : ∀ a b c, m ≠ .attempt a b c) :
      Ends kind l m
  | closed (waits : l.sender.waits = true) (closed : l.closed = true) (channel : l.channel = []) :
      Ends kind l .seeClosed
  | shut (waits : l.sender.waits = true) (signal : l.shutdownSignal = true)
      (empty : kind = .changesets → l.sender.buffer = [] ∧ l.channel = []) :
        Ends kind l .seeShutdown

theorem Ends.silent (kind : Kind) (l : Lane σ κ ν) (m : Move) (h : Ends config kind l m) :
    ∀ a b c, m ≠ .attempt a b c := by
  cases h with
  | panicked never silent => exact silent
  | closed waits closed channel => simp
  | shut waits signal empty => simp

/-- What a move comes down to. -/
inductive Next (kind : Kind) (l : Lane σ κ ν) : Move → Lane σ κ ν → Prop where
  | same {m : Move} (quiet : l.sender.request = none ∨ ∀ a b c, m ≠ .attempt a b c) :
      Next kind l m l
  | ended {m : Move} (reason : Ends config kind l m) : Next kind l m l.stop
  | loaded (unread : l.sender.started = false) :
      Next kind l .start { l with sender := { l.sender with
        started := true
        failed := l.table.insertionSort fun r q => r.2.sequence ≤ q.2.sequence } }
  | retrying (row : Nat × Item σ κ ν) (rest : List (Nat × Item σ κ ν))
      (request : l.sender.request = none) (failed : l.sender.failed = row :: rest) :
      Next kind l .retryNext { l with sender := { l.sender with
        failed := rest
        request := some ⟨[row.2], 0, some row.1⟩ } }
  | buffered {due : Bool} (x : Item σ κ ν) (rest : List (Item σ κ ν)) (own : kind = .changesets)
      (waits : l.sender.waits = true) (channel : l.channel = x :: rest) :
      Next kind l (.receive due) { l with
        channel := rest
        sender := { l.sender with buffer := l.sender.buffer ++ [x] } }
  | flushed {due : Bool} (x : Item σ κ ν) (rest : List (Item σ κ ν)) (own : kind = .changesets)
      (waits : l.sender.waits = true) (channel : l.channel = x :: rest) :
      Next kind l (.receive due) { l with
        channel := rest
        sender := { l.sender with
          buffer := []
          request := some ⟨l.sender.buffer ++ [x], 0, none⟩ } }
  | taken {due : Bool} (x : Item σ κ ν) (rest : List (Item σ κ ν)) (own : kind = .snapshots)
      (waits : l.sender.waits = true) (channel : l.channel = x :: rest) :
      Next kind l (.receive due) { l with
        channel := rest
        sender := { l.sender with request := some ⟨[x], 0, none⟩ } }
  | drained (own : kind = .changesets) (waits : l.sender.waits = true)
      (signal : l.shutdownSignal = true) :
      Next kind l .seeShutdown { l with
        channel := []
        sender := { l.sender with
          buffer := []
          leaving := true
          request := some ⟨l.sender.buffer ++ l.channel, 0, none⟩ } }
  | again {sequenced acknowledged removed : Bool} (r : Request σ κ ν)
      (unknown : (sequenced && acknowledged) = false) (request : l.sender.request = some r) :
      Next kind l (.attempt sequenced acknowledged removed)
        { l with sender := { l.sender with request := some { r with attempts := r.attempts + 1 } } }
  | delivered {removed : Bool} (r : Request σ κ ν) (request : l.sender.request = some r)
      (own : r.row = none) : Next kind l (.attempt true true removed) l.finish
  | recovered {removed : Bool} (r : Request σ κ ν) (id : Nat) (request : l.sender.request = some r)
      (row : r.row = some id) :
      Next kind l (.attempt true true removed)
        { l with table := if removed then l.table.filter fun row => row.1 ≠ id else l.table }.finish
  | saved {sequenced acknowledged removed : Bool} (r : Request σ κ ν)
      (unknown : (sequenced && acknowledged) = false) (request : l.sender.request = some r)
      (own : r.row = none) :
      Next kind l (.attempt sequenced acknowledged removed) (l.save r.items).finish
  | dropped {sequenced acknowledged removed : Bool} (r : Request σ κ ν) (id : Nat)
      (unknown : (sequenced && acknowledged) = false) (request : l.sender.request = some r)
      (row : r.row = some id) : Next kind l (.attempt sequenced acknowledged removed) l.finish

theorem start_next (kind : Kind) (l : Lane σ κ ν) : Next config kind l .start l.start := by
  rw [start]
  split
  · rename_i fresh
    exact .loaded (by simpa using (Bool.and_eq_true_iff.mp fresh).2)
  · exact .same (.inr (by simp))

theorem retryNext_next (kind : Kind) (l : Lane σ κ ν) :
    Next config kind l .retryNext (l.retryNext config) := by
  rw [retryNext]
  split
  · rename_i free
    have none : l.sender.request = none := by simpa using (Bool.and_eq_true_iff.mp free).2
    cases rows : l.sender.failed with
    | nil => exact .same (.inr (by simp))
    | cons row rest =>
      simp only [send]
      split
      · rename_i never
        exact .ended (.panicked never (by simp))
      · exact .retrying row rest none rows
  · exact .same (.inr (by simp))

theorem receiveChangeset_next (due : Bool) (l : Lane σ κ ν) :
    Next config .changesets l (.receive due) (l.receiveChangeset config due) := by
  rw [receiveChangeset]
  split
  · rename_i waits
    cases queue : l.channel with
    | nil => exact .same (.inr (by simp))
    | cons x rest =>
      simp only
      split
      · rw [send]
        split
        · rename_i never
          exact .ended (.panicked never (by simp))
        · exact .flushed x rest rfl waits queue
      · exact .buffered x rest rfl waits queue
  · exact .same (.inr (by simp))

theorem receiveSnapshot_next (due : Bool) (l : Lane σ κ ν) :
    Next config .snapshots l (.receive due) (l.receiveSnapshot config) := by
  rw [receiveSnapshot]
  split
  · rename_i waits
    cases queue : l.channel with
    | nil => exact .same (.inr (by simp))
    | cons x rest =>
      simp only [send]
      split
      · rename_i never
        exact .ended (.panicked never (by simp))
      · exact .taken x rest rfl waits queue
  · exact .same (.inr (by simp))

theorem seeShutdown_next (kind : Kind) (l : Lane σ κ ν) :
    Next config kind l .seeShutdown (l.move config kind .seeShutdown) := by
  cases kind with
  | changesets =>
    rw [move, seeShutdownChangesets]
    split
    · rename_i ready
      obtain ⟨waits, signal⟩ := Bool.and_eq_true_iff.mp ready
      simp only
      split
      · rename_i empty
        exact .ended (.shut waits signal fun _ => by simpa using empty)
      · rw [send]
        split
        · rename_i never
          exact .ended (.panicked never (by simp))
        · exact .drained rfl waits signal
    · exact .same (.inr (by simp))
  | snapshots =>
    rw [move, seeShutdownSnapshots]
    split
    · rename_i ready
      obtain ⟨waits, signal⟩ := Bool.and_eq_true_iff.mp ready
      exact .ended (.shut waits signal (by simp))
    · exact .same (.inr (by simp))

theorem attempt_next (kind : Kind) (sequenced acknowledged removed : Bool) (l : Lane σ κ ν) :
    Next config kind l (.attempt sequenced acknowledged removed)
      (l.attempt config sequenced acknowledged removed) := by
  rw [attempt]
  cases request : l.sender.request with
  | none => exact .same (.inl request)
  | some r =>
    simp only
    split
    · rename_i known
      obtain ⟨rfl, rfl⟩ := Bool.and_eq_true_iff.mp known
      cases row : r.row with
      | none => exact .delivered r request row
      | some id =>
        cases removed with
        | true => exact .recovered r id request row
        | false => exact .recovered r id request row
    · rename_i unknown
      have lost : (sequenced && acknowledged) = false := by simpa using unknown
      split
      · exact .again r lost request
      · cases row : r.row with
        | none => exact .saved r lost request row
        | some id => exact .dropped r id lost request row

theorem move_next (kind : Kind) (l : Lane σ κ ν) (m : Move) :
    Next config kind l m (l.move config kind m) := by
  cases m with
  | start => exact start_next config kind l
  | retryNext => exact retryNext_next config kind l
  | receive due =>
    cases kind with
    | changesets => exact receiveChangeset_next config due l
    | snapshots => exact receiveSnapshot_next config due l
  | attempt sequenced acknowledged removed => exact attempt_next config kind _ _ _ l
  | seeClosed =>
    rw [move, seeClosed]
    split
    · rename_i ready
      simp only [Bool.and_eq_true, List.isEmpty_iff] at ready
      exact .ended (.closed ready.1.1 ready.1.2 ready.2)
    · exact .same (.inr (by simp))
  | seeShutdown => exact seeShutdown_next config kind l

end Lane

namespace Lane

/-- The items of the request, unless it is for a row of the recovery database. -/
def requested (l : Lane σ κ ν) : List (Item σ κ ν) :=
  match l.sender.request with
  | some ⟨items, _, none⟩ => items
  | some ⟨_, _, some _⟩ | none => []

/-- What is only in memory, in the order in which it was queued. -/
def memory (l : Lane σ κ ν) : List (Item σ κ ν) := l.requested ++ l.sender.buffer ++ l.channel

/-- The row that is being retried. -/
def retried (l : Lane σ κ ν) : List (Nat × Item σ κ ν) :=
  match l.sender.request with
  | some ⟨items, _, some id⟩ => items.map fun x => (id, x)
  | some ⟨_, _, none⟩ | none => []

/-- The rows that are being or are still to be retried. -/
def loans (l : Lane σ κ ν) : List (Nat × Item σ κ ν) := l.retried ++ l.sender.failed

/-- The rows that are saved in place of a request. -/
def rows (l : Lane σ κ ν) (items : List (Item σ κ ν)) : List (Nat × Item σ κ ν) :=
  (items.zipIdx l.nextId).map fun entry => (entry.2, entry.1)

/-- What a move can do to what is held in memory, in the table and for the retries. -/
inductive Moved (config : Config) (kind : Kind) (l : Lane σ κ ν) : Move → Lane σ κ ν → Prop where
  /-- Nothing, or another step with the same items. -/
  | passed {m : Move} {l' : Lane σ κ ν} (memory : l'.memory = l.memory) (loans : l'.loans = l.loans)
      (table : l'.table = l.table) (next : l'.nextId = l.nextId)
      (quiet : l.sender.request = none ∨ ∀ removed, m ≠ .attempt true true removed) :
      Moved config kind l m l'
  | loaded {l' : Lane σ κ ν} (memory : l'.memory = l.memory)
      (loans : l'.loans.Perm (l.retried ++ l.table)) (table : l'.table = l.table)
      (next : l'.nextId = l.nextId) (fresh : l.sender.started = false) :
        Moved config kind l .start l'
  /-- A new request is acknowledged. -/
  | delivered {removed : Bool} {l' : Lane σ κ ν} (r : Request σ κ ν)
      (request : l.sender.request = some r) (own : r.row = none)
      (memory : l'.memory = if l.sender.leaving then [] else l.sender.buffer ++ l.channel)
      (loans : l'.loans = if l.sender.leaving then [] else l.loans)
      (table : l'.table = l.table) (next : l'.nextId = l.nextId) :
      Moved config kind l (.attempt true true removed) l'
  /-- A row that was retried is acknowledged. -/
  | recovered {removed : Bool} {l' : Lane σ κ ν} (r : Request σ κ ν) (id : Nat)
      (request : l.sender.request = some r) (row : r.row = some id)
      (memory : l'.memory = if l.sender.leaving then [] else l.memory)
      (loans : l'.loans = if l.sender.leaving then [] else l.sender.failed)
      (table : l'.table = if removed then l.table.filter fun row => row.1 ≠ id else l.table)
      (next : l'.nextId = l.nextId) : Moved config kind l (.attempt true true removed) l'
  /-- A new request is given up and saved. -/
  | saved {sequenced acknowledged removed : Bool} {l' : Lane σ κ ν} (r : Request σ κ ν)
      (unknown : (sequenced && acknowledged) = false) (request : l.sender.request = some r)
      (own : r.row = none)
      (memory : l'.memory = if l.sender.leaving then [] else l.sender.buffer ++ l.channel)
      (loans : l'.loans = if l.sender.leaving then [] else l.loans)
      (table : l'.table = l.table ++ l.rows r.items)
      (next : l'.nextId = l.nextId + r.items.length) :
      Moved config kind l (.attempt sequenced acknowledged removed) l'
  /-- The retry of a row is given up. -/
  | dropped {sequenced acknowledged removed : Bool} {l' : Lane σ κ ν} (r : Request σ κ ν) (id : Nat)
      (unknown : (sequenced && acknowledged) = false) (request : l.sender.request = some r)
      (row : r.row = some id) (memory : l'.memory = if l.sender.leaving then [] else l.memory)
      (loans : l'.loans = if l.sender.leaving then [] else l.sender.failed)
      (table : l'.table = l.table) (next : l'.nextId = l.nextId) :
      Moved config kind l (.attempt sequenced acknowledged removed) l'
  /-- The thread ends without a request. -/
  | stopped {m : Move} {l' : Lane σ κ ν} (memory : l'.memory = []) (loans : l'.loans = [])
      (table : l'.table = l.table) (next : l'.nextId = l.nextId)
      (reason : Ends config kind l m) : Moved config kind l m l'

variable (config : Config)

theorem waits_iff (l : Lane σ κ ν) : l.sender.waits = true ↔
    l.sender.alive = true ∧ l.sender.started = true ∧ l.sender.failed = [] ∧
      l.sender.request = none := by
  simp [Sender.waits, and_assoc]

/-- A sender that waits holds its buffer and its channel. -/
theorem memory_waits (l : Lane σ κ ν) (h : l.sender.waits = true) :
    l.memory = l.sender.buffer ++ l.channel ∧ l.loans = [] := by
  obtain ⟨-, -, failed, request⟩ := (waits_iff l).mp h
  simp [memory, requested, loans, retried, failed, request]

theorem memory_request (l : Lane σ κ ν) (r : Request σ κ ν) (request : l.sender.request = some r)
    (own : r.row = none) :
    l.memory = r.items ++ (l.sender.buffer ++ l.channel) ∧ l.loans = l.sender.failed := by
  obtain ⟨items, attempts, row⟩ := r
  cases own
  simp [memory, requested, loans, retried, request]

theorem loans_request (l : Lane σ κ ν) (r : Request σ κ ν) (id : Nat)
    (request : l.sender.request = some r) (row : r.row = some id) :
    l.memory = l.sender.buffer ++ l.channel ∧
      l.loans = (r.items.map fun x => (id, x)) ++ l.sender.failed := by
  obtain ⟨items, attempts, own⟩ := r
  cases row
  simp [memory, requested, loans, retried, request]

theorem finish_spec (l : Lane σ κ ν) :
    l.finish.memory = (if l.sender.leaving then [] else l.sender.buffer ++ l.channel) ∧
      l.finish.loans = (if l.sender.leaving then [] else l.sender.failed) ∧
      l.finish.table = l.table ∧ l.finish.nextId = l.nextId := by
  rw [finish]
  split
  · exact ⟨rfl, rfl, rfl, rfl⟩
  · exact ⟨rfl, rfl, rfl, rfl⟩

/-- What a move does, for a snapshot sender whose buffer is unused. -/
theorem move_cases (kind : Kind) (l : Lane σ κ ν) (m : Move)
    (unused : kind = .snapshots → l.sender.buffer = []) :
    Moved config kind l m (l.move config kind m) := by
  have next := move_next config kind l m
  generalize l.move config kind m = l' at next ⊢
  cases next with
  | same quiet =>
    refine .passed rfl rfl rfl rfl ?_
    rcases quiet with free | silent
    · exact .inl free
    · exact .inr (silent true true)
  | ended reason => exact .stopped rfl rfl rfl rfl reason
  | loaded unread =>
    exact .loaded rfl (List.Perm.append_left _ (List.perm_insertionSort _ _)) rfl rfl unread
  | retrying row rest request failed =>
    refine .passed ?_ ?_ rfl rfl (.inl request)
    · simp [memory, requested, request]
    · simp [loans, retried, request, failed]
  | buffered x rest own waits channel =>
    obtain ⟨-, -, failed, request⟩ := (waits_iff l).mp waits
    refine .passed ?_ ?_ rfl rfl (.inl request)
    · simp [memory, requested, request, channel]
    · simp [loans, retried, request]
  | flushed x rest own waits channel =>
    obtain ⟨-, -, failed, request⟩ := (waits_iff l).mp waits
    refine .passed ?_ ?_ rfl rfl (.inl request)
    · simp [memory, requested, request, channel]
    · simp [loans, retried, request]
  | taken x rest own waits channel =>
    obtain ⟨-, -, failed, request⟩ := (waits_iff l).mp waits
    refine .passed ?_ ?_ rfl rfl (.inl request)
    · simp [memory, requested, request, channel, unused own]
    · simp [loans, retried, request]
  | drained own waits signal =>
    obtain ⟨-, -, failed, request⟩ := (waits_iff l).mp waits
    refine .passed ?_ ?_ rfl rfl (.inl request)
    · simp [memory, requested, request]
    · simp [loans, retried, request]
  | @again sequenced acknowledged removed r unknown request =>
    obtain ⟨items, attempts, row⟩ := r
    refine .passed ?_ ?_ rfl rfl (.inr ?_)
    · cases row with
      | none => simp [memory, requested, request]
      | some id => simp [memory, requested, request]
    · cases row with
      | none => simp [loans, retried, request]
      | some id => simp [loans, retried, request]
    · intro gone same
      cases same
      cases unknown
  | delivered r request own =>
    obtain ⟨memory, loans, table, next⟩ := finish_spec l
    rw [← (memory_request l r request own).2] at loans
    exact .delivered r request own memory loans table next
  | @recovered removed r id request row =>
    obtain ⟨memory, loans, table, next⟩ := finish_spec
      { l with table := if removed then l.table.filter fun row => row.1 ≠ id else l.table }
    refine .recovered r id request row ?_ loans table next
    rw [(loans_request l r id request row).1]
    exact memory
  | saved r unknown request own =>
    obtain ⟨memory, loans, table, next⟩ := finish_spec (l.save r.items)
    refine .saved r unknown request own memory ?_ table next
    rw [(memory_request l r request own).2]
    exact loans
  | dropped r id unknown request row =>
    obtain ⟨memory, loans, table, next⟩ := finish_spec l
    rw [← (loans_request l r id request row).1] at memory
    exact .dropped r id unknown request row memory loans table next

/-- The items of the rows, in the table and in the list of rows to be retried. -/
def recorded (l : Lane σ κ ν) : List (Item σ κ ν) := l.table.map Prod.snd ++ l.loans.map Prod.snd

/-- Everything that a sender holds. -/
def stock (l : Lane σ κ ν) : List (Item σ κ ν) := l.memory ++ l.recorded

theorem mem_stock (l : Lane σ κ ν) (x : Item σ κ ν) :
    x ∈ l.stock ↔ x ∈ l.memory ∨ x ∈ l.table.map Prod.snd ∨ x ∈ l.loans.map Prod.snd := by
  rw [stock, recorded, List.mem_append, List.mem_append]

/-- What is left of the items of a thread that may end. -/
theorem left_sublist {α : Type} (leaving : Bool) (xs : List α) :
    (if leaving then [] else xs).Sublist xs := by
  split
  · exact List.nil_sublist _
  · exact List.Sublist.refl _

theorem rows_snd (l : Lane σ κ ν) (items : List (Item σ κ ν)) :
    (l.rows items).map Prod.snd = items := by
  simp [rows, Function.comp_def]

theorem stock_subset (l l' : Lane σ κ ν) (memory : l'.memory ⊆ l.memory)
    (table : l'.table ⊆ l.table) (loans : l'.loans ⊆ l.loans) : l'.stock ⊆ l.stock := by
  intro x member
  rw [mem_stock] at member ⊢
  rcases member with inMemory | inTable | inLoans
  · exact .inl (memory inMemory)
  · exact .inr (.inl (List.map_subset _ table inTable))
  · exact .inr (.inr (List.map_subset _ loans inLoans))

/-- What is queued stays in order. -/
theorem memory_move (kind : Kind) (l : Lane σ κ ν) (m : Move)
    (unused : kind = .snapshots → l.sender.buffer = []) :
    (l.move config kind m).memory.Sublist l.memory := by
  have moved := move_cases config kind l m unused
  generalize l.move config kind m = l' at moved ⊢
  cases moved with
  | passed memory loans table next quiet => rw [memory]
  | loaded memory loans table next unread => rw [memory]
  | delivered r request own memory loans table next =>
    rw [memory, (memory_request l r request own).1]
    exact (left_sublist _ _).trans (List.sublist_append_right _ _)
  | recovered r id request row memory loans table next =>
    rw [memory]
    exact left_sublist _ _
  | saved r unknown request own memory loans table next =>
    rw [memory, (memory_request l r request own).1]
    exact (left_sublist _ _).trans (List.sublist_append_right _ _)
  | dropped r id unknown request row memory loans table next =>
    rw [memory]
    exact left_sublist _ _
  | stopped memory loans table next reason =>
    rw [memory]
    exact List.nil_sublist _

/-- What a move can do to the rows, and to those that are being or still to be retried. -/
inductive RowsMoved (l l' : Lane σ κ ν) : Prop where
  | loaded (table : l'.table = l.table) (next : l'.nextId = l.nextId)
      (loans : l'.loans.Perm (l.retried ++ l.table)) (unread : l.sender.started = false)
  | added (r : Request σ κ ν) (request : l.sender.request = some r) (own : r.row = none)
      (table : l'.table = l.table ++ l.rows r.items) (next : l'.nextId = l.nextId + r.items.length)
      (loans : l'.loans.Sublist l.loans)
  | fewer (table : l'.table.Sublist l.table) (next : l'.nextId = l.nextId)
      (loans : l'.loans.Sublist l.loans)

theorem rows_move (kind : Kind) (l : Lane σ κ ν) (m : Move)
    (unused : kind = .snapshots → l.sender.buffer = []) : RowsMoved l (l.move config kind m) := by
  have moved := move_cases config kind l m unused
  generalize l.move config kind m = l' at moved ⊢
  have failed (r : Request σ κ ν) (id : Nat) (request : l.sender.request = some r)
      (row : r.row = some id) : l.sender.failed.Sublist l.loans := by
    rw [(loans_request l r id request row).2]
    exact List.sublist_append_right _ _
  cases moved with
  | passed memory loans table next quiet => exact .fewer (by rw [table]) next (by rw [loans])
  | loaded memory loans table next unread => exact .loaded table next loans unread
  | delivered r request own memory loans table next =>
    refine .fewer (by rw [table]) next ?_
    rw [loans]
    exact left_sublist _ _
  | recovered r id request row memory loans table next =>
    refine .fewer ?_ next ?_
    · rw [table]
      split
      · exact List.filter_sublist
      · exact List.Sublist.refl _
    · rw [loans]
      exact (left_sublist _ _).trans (failed r id request row)
  | saved r unknown request own memory loans table next =>
    refine .added r request own table next ?_
    rw [loans]
    exact left_sublist _ _
  | dropped r id unknown request row memory loans table next =>
    refine .fewer (by rw [table]) next ?_
    rw [loans]
    exact (left_sublist _ _).trans (failed r id request row)
  | stopped memory loans table next reason =>
    refine .fewer (by rw [table]) next ?_
    rw [loans]
    exact List.nil_sublist _

/-- A sender comes by nothing new. -/
theorem stock_move (kind : Kind) (l : Lane σ κ ν) (m : Move)
    (unused : kind = .snapshots → l.sender.buffer = []) :
      (l.move config kind m).stock ⊆ l.stock := by
  have memory := memory_move config kind l m unused
  have rows := rows_move config kind l m unused
  generalize l.move config kind m = l' at memory rows ⊢
  cases rows with
  | loaded table next loans unread =>
    intro x member
    rw [mem_stock, table] at member
    rw [mem_stock]
    rcases member with inMemory | inTable | inLoans
    · exact .inl (memory.subset inMemory)
    · exact .inr (.inl inTable)
    · have listed := (loans.map Prod.snd).subset inLoans
      rw [List.map_append, List.mem_append] at listed
      rcases listed with now | waiting
      · rw [Lane.loans, List.map_append, List.mem_append]
        exact .inr (.inr (.inl now))
      · exact .inr (.inl waiting)
  | added r request own table next loans =>
    intro x member
    rw [mem_stock, table, List.map_append, rows_snd, List.mem_append] at member
    rw [mem_stock]
    rcases member with inMemory | (old | new) | inLoans
    · exact .inl (memory.subset inMemory)
    · exact .inr (.inl old)
    · rw [(memory_request l r request own).1]
      exact .inl (List.mem_append_left _ new)
    · exact .inr (.inr (List.map_subset _ loans.subset inLoans))
  | fewer table next loans => exact stock_subset l l' memory.subset table.subset loans.subset

theorem request_stock (l : Lane σ κ ν) (r : Request σ κ ν) (request : l.sender.request = some r) :
    r.items ⊆ l.stock := by
  intro x member
  rw [mem_stock]
  cases row : r.row with
  | none =>
    rw [(memory_request l r request row).1]
    exact .inl (List.mem_append_left _ member)
  | some id =>
    rw [(loans_request l r id request row).2]
    refine .inr (.inr ?_)
    simp only [List.map_append, List.map_map, Function.comp_def, List.map_id', List.mem_append]
    exact .inl member

/-- A request arrives, or nothing does. -/
theorem arrivals_cases (l : Lane σ κ ν) (m : Move) :
    l.arrivals m = [] ∨ ∃ r acknowledged removed, l.sender.request = some r ∧
      m = .attempt true acknowledged removed ∧ l.arrivals m = [r.items] := by
  cases m with
  | attempt sequenced acknowledged removed =>
    cases sequenced with
    | false => exact .inl rfl
    | true =>
      cases request : l.sender.request with
      | none => exact .inl (by simp [arrivals, request])
      | some r => exact .inr ⟨r, _, _, rfl, rfl, by simp [arrivals, request]⟩
  | start => exact .inl rfl
  | retryNext => exact .inl rfl
  | receive due => exact .inl rfl
  | seeClosed => exact .inl rfl
  | seeShutdown => exact .inl rfl

/-- What arrives is what the sender holds. -/
theorem arrivals_stock (l : Lane σ κ ν) (m : Move) : (l.arrivals m).flatten ⊆ l.stock := by
  rcases arrivals_cases l m with nothing | ⟨r, acknowledged, removed, request, -, arrived⟩
  · simp [nothing]
  · rw [arrived, List.flatten_cons, List.flatten_nil, List.append_nil]
    exact request_stock l r request

theorem rows_fst (l : Lane σ κ ν) (items : List (Item σ κ ν)) :
    (l.rows items).map Prod.fst = List.range' l.nextId items.length := by
  rw [rows, List.map_map]
  exact List.zipIdx_map_snd l.nextId items

theorem mem_rows (l : Lane σ κ ν) (items : List (Item σ κ ν)) (row : Nat × Item σ κ ν)
    (h : row ∈ l.rows items) : l.nextId ≤ row.1 ∧ row.1 < l.nextId + items.length := by
  have member : row.1 ∈ (l.rows items).map Prod.fst := List.mem_map_of_mem h
  rw [rows_fst, List.mem_range'_1] at member
  exact member

/-- An id stands for one row, also after the row is gone. -/
structure Numbered (l : Lane σ κ ν) : Prop where
  ids : (l.table.map Prod.fst).Nodup
  bounded : ∀ row ∈ l.table ++ l.loans, row.1 < l.nextId
  agree : ∀ row ∈ l.table, ∀ loan ∈ l.loans, row.1 = loan.1 → row = loan

theorem Numbered.shrink (l l' : Lane σ κ ν) (h : l.Numbered) (table : l'.table.Sublist l.table)
    (loans : l'.loans ⊆ l.loans) (next : l'.nextId = l.nextId) : l'.Numbered := by
  refine ⟨(table.map Prod.fst).nodup h.ids, ?_, ?_⟩
  · intro row listed
    rw [next]
    apply h.bounded row
    rcases List.mem_append.mp listed with old | lent
    · exact List.mem_append_left _ (table.subset old)
    · exact List.mem_append_right _ (loans lent)
  · intro row listed loan lent
    exact h.agree row (table.subset listed) loan (loans lent)

theorem numbered_move (kind : Kind) (l : Lane σ κ ν) (m : Move)
    (unused : kind = .snapshots → l.sender.buffer = []) (h : l.Numbered) :
    (l.move config kind m).Numbered := by
  have moved := rows_move config kind l m unused
  generalize l.move config kind m = l' at moved ⊢
  cases moved with
  | loaded table next loans unread =>
    have lent (loan : Nat × Item σ κ ν) (listed : loan ∈ l'.loans) : loan ∈ l.table ++ l.loans := by
      rcases List.mem_append.mp (loans.subset listed) with now | waiting
      · exact List.mem_append_right _ (List.mem_append_left _ now)
      · exact List.mem_append_left _ waiting
    refine ⟨by rw [table]; exact h.ids, ?_, ?_⟩
    · intro row listed
      rw [next]
      apply h.bounded row
      rcases List.mem_append.mp listed with old | new
      · rw [table] at old
        exact List.mem_append_left _ old
      · exact lent row new
    · intro row listed loan new same
      rw [table] at listed
      rcases List.mem_append.mp (lent loan new) with old | now
      · exact List.inj_on_of_nodup_map h.ids listed old same
      · exact h.agree row listed loan now same
  | added r request own table next loans =>
    -- the new ids are above all others
    have before (row : Nat × Item σ κ ν) (listed : row ∈ l.table ++ l.loans) :
        row.1 < l.nextId := h.bounded row listed
    refine ⟨?_, ?_, ?_⟩
    · rw [table, List.map_append, rows_fst]
      refine List.Nodup.append h.ids List.nodup_range' ?_
      intro id old new
      obtain ⟨entry, listed, rfl⟩ := List.mem_map.mp old
      have bound := before entry (List.mem_append_left _ listed)
      have later := (List.mem_range'_1.mp new).1
      omega
    · rw [table, next]
      intro row listed
      simp only [List.mem_append] at listed
      rcases listed with (old | new) | lent
      · have bound := before row (List.mem_append_left _ old)
        omega
      · exact (mem_rows l r.items row new).2
      · have bound := before row (List.mem_append_right _ (loans.subset lent))
        omega
    · rw [table]
      intro row listed loan lent same
      rcases List.mem_append.mp listed with old | new
      · exact h.agree row old loan (loans.subset lent) same
      · have bound := before loan (List.mem_append_right _ (loans.subset lent))
        have later := (mem_rows l r.items row new).1
        omega
  | fewer table next loans => exact h.shrink l l' table loans.subset next

/-- Before the rows are read there is no request. -/
def Fresh (l : Lane σ κ ν) : Prop :=
  l.sender.started = false → l.sender.request = none ∧ l.sender.failed = []

theorem fresh_of_started (l : Lane σ κ ν) (h : l.sender.started = true) : l.Fresh := by
  intro fresh
  rw [h] at fresh
  cases fresh

theorem Fresh.started (l : Lane σ κ ν) (h : l.Fresh) (r : Request σ κ ν)
    (request : l.sender.request = some r) : l.sender.started = true := by
  by_contra unread
  rw [(h (by simpa using unread)).1] at request
  cases request

theorem fresh_finish (l : Lane σ κ ν) (h : l.sender.started = true) : l.finish.Fresh := by
  rw [finish]
  split
  · exact fresh_of_started _ rfl
  · exact fresh_of_started _ h

theorem fresh_move (kind : Kind) (l : Lane σ κ ν) (m : Move) (h : l.Fresh) :
    (l.move config kind m).Fresh := by
  have next := move_next config kind l m
  generalize l.move config kind m = l' at next ⊢
  have awake (waits : l.sender.waits = true) : l.sender.started = true :=
    ((waits_iff l).mp waits).2.1
  cases next with
  | same quiet => exact h
  | ended reason => exact fresh_of_started _ rfl
  | loaded unread => exact fresh_of_started _ rfl
  | retrying row rest request failed =>
    apply fresh_of_started
    by_contra unread
    rw [(h (by simpa using unread)).2] at failed
    cases failed
  | buffered x rest own waits channel => exact fresh_of_started _ (awake waits)
  | flushed x rest own waits channel => exact fresh_of_started _ (awake waits)
  | taken x rest own waits channel => exact fresh_of_started _ (awake waits)
  | drained own waits signal => exact fresh_of_started _ (awake waits)
  | again r unknown request => exact fresh_of_started _ (h.started l r request)
  | delivered r request own => exact fresh_finish _ (h.started l r request)
  | recovered r id request row => exact fresh_finish _ (h.started l r request)
  | saved r unknown request own => exact fresh_finish _ (h.started l r request)
  | dropped r id unknown request row => exact fresh_finish _ (h.started l r request)

/-- One row is retried at a time. -/
def Single (l : Lane σ κ ν) : Prop :=
  ∀ r, l.sender.request = some r → r.row.isSome → r.items.length = 1

theorem single_of_none (l : Lane σ κ ν) (h : l.sender.request = none) : l.Single := by
  intro r request
  rw [h] at request
  cases request

/-- A request for new items. -/
theorem single_of_own (l : Lane σ κ ν) (items : List (Item σ κ ν)) (attempts : Nat)
    (h : l.sender.request = some ⟨items, attempts, none⟩) : l.Single := by
  intro r request some
  rw [h] at request
  cases request
  cases some

theorem single_finish (l : Lane σ κ ν) : l.finish.Single := by
  rw [finish]
  split
  · exact single_of_none _ rfl
  · exact single_of_none _ rfl

theorem single_move (kind : Kind) (l : Lane σ κ ν) (m : Move) (h : l.Single) :
    (l.move config kind m).Single := by
  have next := move_next config kind l m
  generalize l.move config kind m = l' at next ⊢
  cases next with
  | same quiet => exact h
  | ended reason => exact single_of_none _ rfl
  | loaded unread => exact h
  | retrying row rest request failed =>
    intro r same some
    cases same
    rfl
  | buffered x rest own waits channel => exact h
  | flushed x rest own waits channel => exact single_of_own _ _ _ rfl
  | taken x rest own waits channel => exact single_of_own _ _ _ rfl
  | drained own waits signal => exact single_of_own _ _ _ rfl
  | again r unknown request =>
    intro r' same
    cases same
    exact h r request
  | delivered r request own => exact single_finish _
  | recovered r id request row => exact single_finish _
  | saved r unknown request own => exact single_finish _
  | dropped r id unknown request row => exact single_finish _

theorem buffer_finish (l : Lane σ κ ν) (h : l.sender.buffer = []) :
    l.finish.sender.buffer = [] := by
  rw [finish]
  split
  · rfl
  · exact h

/-- The snapshot sender never fills the buffer. -/
theorem buffer_move (l : Lane σ κ ν) (m : Move) (h : l.sender.buffer = []) :
    (l.move config .snapshots m).sender.buffer = [] := by
  have next := move_next config .snapshots l m
  generalize l.move config .snapshots m = l' at next ⊢
  cases next with
  | same quiet => exact h
  | ended reason => rfl
  | loaded unread => exact h
  | retrying row rest request failed => exact h
  | buffered x rest own waits channel => cases own
  | flushed x rest own waits channel => rfl
  | taken x rest own waits channel => exact h
  | drained own waits signal => rfl
  | again r unknown request => exact h
  | delivered r request own => exact buffer_finish _ h
  | recovered r id request row => exact buffer_finish _ h
  | saved r unknown request own => exact buffer_finish _ h
  | dropped r id unknown request row => exact buffer_finish _ h

end Lane

variable {Q : Sqlite σ τ κ} [DecidableEq κ] [DecidableEq ν]

namespace SessionState

/-- Whether a push gets as far as reading the session. -/
def reads (room : Room) (c : SessionState Q ν) : Bool :=
  c.hasChanges && c.transaction.isNone && room.extraction.isOk

/-- The snapshot of a changed schema. -/
def schemaSnapshots (room : Room) (c : SessionState Q ν) : List (Emission σ κ ν × Bool) :=
  if Q.computeSchemaHash c.db.schema = c.lastSchemaHash then []
  else [(.snapshot .channel c.sequence c.db.toImage, room.schemaSnapshot)]

/-- The changeset, and the snapshot that is due after it. -/
def changesetAndSnapshot (room : Room) (c : SessionState Q ν) : List (Emission σ κ ν × Bool) :=
  let data := changes c.session c.db.rows
  if data.isEmpty then []
  else (.changeset c.sequence data, room.changeset) ::
    if c.snapshotInterval ≤ c.changesetsSinceSnapshot + 1 then
      [(.snapshot .channel (c.sequence + 1) c.db.toImage, room.intervalSnapshot)]
    else []

/-- What a push creates, with whether the channels take it. -/
def created (room : Room) (c : SessionState Q ν) : List (Emission σ κ ν × Bool) :=
  if c.hasChanges && c.transaction.isNone then
    c.schemaSnapshots room ++
      if room.extraction.isOk then
        (c.detectSchemaChange room.schemaSnapshot).changesetAndSnapshot room
      else []
  else []

/-- The part that the channels take. -/
def taken (created : List (Emission σ κ ν × Bool)) : List (Emission σ κ ν) :=
  (created.filter Prod.snd).map Prod.fst

omit [DecidableEq κ] [DecidableEq ν] in
theorem taken_append (xs ys : List (Emission σ κ ν × Bool)) :
    taken (xs ++ ys) = taken xs ++ taken ys := by
  simp [taken]

omit [DecidableEq κ] [DecidableEq ν] in
theorem mem_taken (xs : List (Emission σ κ ν × Bool)) (e : Emission σ κ ν) :
    e ∈ taken xs ↔ (e, true) ∈ xs := by
  simp [taken]

omit [DecidableEq κ] [DecidableEq ν] in
theorem detectSchemaChange_emitted (room : Room) (c : SessionState Q ν) :
    (c.detectSchemaChange room.schemaSnapshot).emitted =
      c.emitted ++ taken (c.schemaSnapshots room) := by
  rw [detectSchemaChange, schemaSnapshots]
  by_cases same : Q.computeSchemaHash c.db.schema = c.lastSchemaHash
  · simp [same, taken]
  · cases sent : room.schemaSnapshot with
    | true => simp [same, taken, emitSnapshot, emit]
    | false => simp [same, taken]

omit [DecidableEq κ] [DecidableEq ν] in
theorem detectSchemaChange_sequence (room : Room) (c : SessionState Q ν) :
    c.sequence ≤ (c.detectSchemaChange room.schemaSnapshot).sequence := by
  rw [detectSchemaChange]
  split
  · exact Nat.le_refl _
  · split
    · exact Nat.le_succ _
    · exact Nat.le_refl _

/-- The part of a push behind the detection of schema changes. -/
def sendAll (room : Room) (c : SessionState Q ν) : SessionState Q ν :=
  ((c.sendChangeset room.changeset (changes c.session c.db.rows)).intervalSnapshot
    room.intervalSnapshot)

omit [DecidableEq κ] in
theorem sendAll_spec (room : Room) (c : SessionState Q ν)
    (some : changes c.session c.db.rows ≠ []) :
    (c.sendAll room).emitted = c.emitted ++ taken (c.changesetAndSnapshot room) ∧
      (c.sendAll room).sequence = c.sequence + 1 := by
  have nonempty : (changes c.session c.db.rows).isEmpty = false := by
    cases h : changes c.session c.db.rows with
    | nil => exact absurd h some
    | cons x xs => rfl
  rw [sendAll, sendChangeset, intervalSnapshot, changesetAndSnapshot]
  by_cases due : c.snapshotInterval ≤ c.changesetsSinceSnapshot + 1
  · cases room.changeset with
    | true =>
      cases room.intervalSnapshot with
      | true => simp [nonempty, due, emit, emitSnapshot, taken]
      | false => simp [nonempty, due, emit, taken]
    | false =>
      cases room.intervalSnapshot with
      | true => simp [nonempty, due, emit, emitSnapshot, taken]
      | false => simp [nonempty, due, taken]
  · cases room.changeset with
    | true => simp [nonempty, due, emit, taken]
    | false => simp [nonempty, due, taken]

omit [DecidableEq κ] [DecidableEq ν] in
theorem recreateSession_keeps (answer : Except String Unit) (c : SessionState Q ν) :
    (c.recreateSession answer).2.emitted = c.emitted ∧
      (c.recreateSession answer).2.sequence = c.sequence := by
  cases answer with
  | ok => exact ⟨rfl, rfl⟩
  | error e => exact ⟨rfl, rfl⟩

/-- What is handed over in a push is what the channels take of what it creates; the
numbers go up with it. -/
structure HandsOver (room : Room) (c d : SessionState Q ν) : Prop where
  emitted : d.emitted = c.emitted ++ taken (c.created room)
  numbers : ∀ e ∈ c.created room, c.sequence ≤ e.1.sequence ∧ e.1.sequence ≤ d.sequence
  ordered : (c.created room).Pairwise fun e f => e.1.sequence ≤ f.1.sequence
  changesets : ∀ e ∈ c.created room, e.1.isChangeset = true → e.1.sequence < d.sequence
  single : ((c.created room).filter fun e => e.1.isChangeset).length ≤ 1
  forward : c.sequence ≤ d.sequence

omit [DecidableEq κ] [DecidableEq ν] in
theorem schemaSnapshots_numbers (room : Room) (c : SessionState Q ν) :
    (∀ e ∈ c.schemaSnapshots room, e.1.sequence = c.sequence ∧ e.1.isChangeset = false) ∧
      (c.schemaSnapshots room).Pairwise fun e f => e.1.sequence ≤ f.1.sequence := by
  rw [schemaSnapshots]
  split
  · simp
  · simp [Emission.sequence, Emission.isChangeset]

omit [DecidableEq κ] in
theorem changesetAndSnapshot_numbers (room : Room) (c : SessionState Q ν) :
    (∀ e ∈ c.changesetAndSnapshot room,
      c.sequence ≤ e.1.sequence ∧ e.1.sequence ≤ c.sequence + 1 ∧
        (e.1.isChangeset = true → e.1.sequence = c.sequence)) ∧
      ((c.changesetAndSnapshot room).Pairwise fun e f => e.1.sequence ≤ f.1.sequence) ∧
      ((c.changesetAndSnapshot room).filter fun e => e.1.isChangeset).length ≤ 1 := by
  rw [changesetAndSnapshot]
  by_cases empty : (changes c.session c.db.rows).isEmpty = true
  · simp [empty]
  · by_cases due : c.snapshotInterval ≤ c.changesetsSinceSnapshot + 1
    · simp [empty, due, Emission.sequence, Emission.isChangeset]
    · simp [empty, due, Emission.sequence, Emission.isChangeset]

omit [DecidableEq κ] in
/-- The part of `created` behind a possible schema snapshot. -/
theorem created_numbers (room : Room) (c d : SessionState Q ν) (rest : List (Emission σ κ ν × Bool))
    (create : c.created room = c.schemaSnapshots room ++ rest)
    (numbers : ∀ e ∈ rest, c.sequence ≤ e.1.sequence ∧ e.1.sequence ≤ d.sequence ∧
      (e.1.isChangeset = true → e.1.sequence < d.sequence))
    (ordered : rest.Pairwise fun e f => e.1.sequence ≤ f.1.sequence)
    (single : (rest.filter fun e => e.1.isChangeset).length ≤ 1) (forward : c.sequence ≤ d.sequence)
    (emitted : d.emitted = c.emitted ++ taken (c.created room)) : HandsOver room c d := by
  obtain ⟨schema, sorted⟩ := schemaSnapshots_numbers room c
  refine ⟨emitted, ?_, ?_, ?_, ?_, forward⟩
  · intro e he
    rw [create, List.mem_append] at he
    rcases he with first | later
    · have number := (schema e first).1
      omega
    · exact ⟨(numbers e later).1, (numbers e later).2.1⟩
  · rw [create, List.pairwise_append]
    refine ⟨sorted, ordered, ?_⟩
    intro e first f later
    have number := (schema e first).1
    have bound := (numbers f later).1
    omega
  · intro e he changeset
    rw [create, List.mem_append] at he
    rcases he with first | later
    · rw [(schema e first).2] at changeset
      cases changeset
    · exact (numbers e later).2.2 changeset
  · have none : (c.schemaSnapshots room).filter (fun e => e.1.isChangeset) = [] := by
      apply List.filter_eq_nil_iff.mpr
      intro e he
      simp [(schema e he).2]
    rw [create, List.filter_append, none, List.nil_append]
    exact single

omit [DecidableEq κ] in
theorem push_spec (room : Room) (c : SessionState Q ν) :
    HandsOver room c (c.extractAndSendChangeset room).2 := by
  obtain ⟨session, db, -⟩ := detectSchemaChange_session room.schemaSnapshot c
  have schema := detectSchemaChange_emitted room c
  have forward := detectSchemaChange_sequence room c
  have pushed := push_cases room c
  generalize c.extractAndSendChangeset room = result at pushed ⊢
  cases pushed with
  | idle h =>
    have none : c.created room = [] := by
      rw [created, if_neg]
      rcases h with unflagged | inside
      · simp [unflagged]
      · simp [inside]
    refine ⟨by simp [none, taken], by simp [none], by simp [none], by simp [none], by simp [none],
      Nat.le_refl _⟩
  | unread flagged outside e read =>
    have create : c.created room = c.schemaSnapshots room ++ [] := by
      simp [created, flagged, outside, read, Except.isOk, Except.toBool]
    refine created_numbers room c _ [] create (by simp) (by simp) (by simp) forward ?_
    rw [create, List.append_nil]
    exact schema
  | nothing flagged outside read empty =>
    have none : (c.detectSchemaChange room.schemaSnapshot).changesetAndSnapshot room = [] := by
      simp [changesetAndSnapshot, session, db, empty]
    have create : c.created room = c.schemaSnapshots room ++ [] := by
      simp [created, flagged, outside, read, Except.isOk, Except.toBool, none]
    refine created_numbers room c _ [] create (by simp) (by simp) (by simp) forward ?_
    rw [create, List.append_nil]
    exact schema
  | sent flagged outside read some =>
    have create : c.created room = c.schemaSnapshots room ++
        (c.detectSchemaChange room.schemaSnapshot).changesetAndSnapshot room := by
      simp [created, flagged, outside, read, Except.isOk, Except.toBool]
    have nonempty : changes (c.detectSchemaChange room.schemaSnapshot).session
        (c.detectSchemaChange room.schemaSnapshot).db.rows ≠ [] := by
      rw [session, db]
      exact some
    -- the flag that is reset plays no part in what follows
    have unflagged : changes c.session c.db.rows =
        changes (c.detectSchemaChange room.schemaSnapshot).session
          (c.detectSchemaChange room.schemaSnapshot).db.rows := by
      rw [session, db]
    obtain ⟨emitted, sequence⟩ := sendAll_spec room
      ({ c.detectSchemaChange room.schemaSnapshot with hasChanges := false } : SessionState Q ν)
      nonempty
    obtain ⟨same, number⟩ := recreateSession_keeps room.recreation
      (({ c.detectSchemaChange room.schemaSnapshot with
        hasChanges := false } : SessionState Q ν).sendAll room)
    have numbers := changesetAndSnapshot_numbers room (c.detectSchemaChange room.schemaSnapshot)
    rw [unflagged]
    have last : (((({ c.detectSchemaChange room.schemaSnapshot with
        hasChanges := false } : SessionState Q ν).sendAll room).recreateSession
          room.recreation).2).sequence = (c.detectSchemaChange room.schemaSnapshot).sequence + 1 :=
      number.trans sequence
    refine created_numbers room c _ _ create ?_ numbers.2.1 numbers.2.2 ?_ ?_
    · intro e he
      have bounds := numbers.1 e he
      refine ⟨by omega, ?_, ?_⟩
      · exact bounds.2.1.trans (Nat.le_of_eq last.symm)
      · intro changeset
        have own := bounds.2.2 changeset
        exact Nat.lt_of_lt_of_eq (by omega) last.symm
    · exact Nat.le_trans (by omega) (Nat.le_of_eq last.symm)
    · have all : ((({ c.detectSchemaChange room.schemaSnapshot with
          hasChanges := false } : SessionState Q ν).sendAll room).recreateSession
            room.recreation).2.emitted =
          (c.emitted ++ taken (c.schemaSnapshots room)) ++
            taken ((c.detectSchemaChange room.schemaSnapshot).changesetAndSnapshot room) := by
        rw [same, emitted, ← schema]
        rfl
      rw [create, taken_append, ← List.append_assoc]
      exact all

end SessionState

end SyndDB.Client
