import SyndDB.Client.Replay
import SyndDB.Client.Senders
import SyndDB.Framework.Run

namespace SyndDB.Client

open Changes

variable {σ τ κ ν : Type}

namespace Lane

def signalled (l : Lane σ κ ν) : Lane σ κ ν := { l with shutdownSignal := true }

def close (l : Lane σ κ ν) : Lane σ κ ν := { l with closed := true }

def queue (items : List (Item σ κ ν)) (l : Lane σ κ ν) : Lane σ κ ν :=
  { l with channel := l.channel ++ items }

def clean (expired : Item σ κ ν → Bool) (l : Lane σ κ ν) : Lane σ κ ν :=
  { l with table := l.table.filter fun row => !expired row.2 }

/-- A new thread on the table that is left. -/
def restart (l : Lane σ κ ν) : Lane σ κ ν := ⟨[], false, false, .new, l.table, l.nextId⟩

@[simp] theorem queue_memory (items : List (Item σ κ ν)) (l : Lane σ κ ν) :
    (l.queue items).memory = l.memory ++ items := by
  simp [queue, memory, requested]

@[simp] theorem queue_loans (items : List (Item σ κ ν)) (l : Lane σ κ ν) :
    (l.queue items).loans = l.loans := rfl

theorem mem_queue_stock (items : List (Item σ κ ν)) (l : Lane σ κ ν) (x : Item σ κ ν)
    (h : x ∈ (l.queue items).stock) : x ∈ l.stock ∨ x ∈ items := by
  rw [mem_stock, queue_memory, queue_loans, List.mem_append] at h
  rw [mem_stock]
  rcases h with (inMemory | new) | saved
  · exact .inl (.inl inMemory)
  · exact .inr new
  · exact .inl (.inr saved)

theorem stop_stock (l : Lane σ κ ν) : l.stop.stock ⊆ l.stock :=
  stock_subset l l.stop (List.nil_subset _) (List.Subset.refl _) (List.nil_subset _)

theorem restart_stock (l : Lane σ κ ν) : l.restart.stock ⊆ l.stock :=
  stock_subset l l.restart (List.nil_subset _) (List.Subset.refl _) (List.nil_subset _)

theorem clean_stock (expired : Item σ κ ν → Bool) (l : Lane σ κ ν) :
    (l.clean expired).stock ⊆ l.stock :=
  stock_subset l (l.clean expired) (List.Subset.refl _) List.filter_sublist.subset
    (List.Subset.refl _)

theorem numbered_stop (l : Lane σ κ ν) (h : l.Numbered) : l.stop.Numbered :=
  h.shrink l l.stop (List.Sublist.refl _) (List.nil_subset _) rfl

theorem numbered_restart (l : Lane σ κ ν) (h : l.Numbered) : l.restart.Numbered :=
  h.shrink l l.restart (List.Sublist.refl _) (List.nil_subset _) rfl

theorem numbered_clean (expired : Item σ κ ν → Bool) (l : Lane σ κ ν) (h : l.Numbered) :
    (l.clean expired).Numbered :=
  h.shrink l (l.clean expired) List.filter_sublist (List.Subset.refl _) rfl

/-- A recovery database without rows. -/
theorem numbered_new : (⟨[], false, false, .new, [], 0⟩ : Lane σ κ ν).Numbered := by
  refine ⟨List.nodup_nil, ?_, ?_⟩
  · intro row listed
    cases listed
  · intro row listed
    cases listed

end Lane

variable {Q : Sqlite σ τ κ} [DecidableEq κ] [DecidableEq ν]

/-- How far the handle of the client has got. -/
inductive Stage where
  | running
  /-- In `shutdown`, waiting for the sender threads. -/
  | shuttingDown
  /-- In `drop`, with the monitor gone. -/
  | dropping
  | ended
  | crashed
  deriving DecidableEq

/-- A client with its sender threads and the sequencer it sends to, and a record of the session. -/
structure System (Q : Sqlite σ τ κ) (ν : Type) where
  session : Nat
  client : SessionState Q ν
  stage : Stage
  changesets : Lane σ κ ν
  snapshots : Lane σ κ ν
  /-- The sequenced messages, each with what it carries. -/
  log : List (List (Item σ κ ν))
  created : List (Item σ κ ν)
  acknowledged : List (Item σ κ ν)
  /-- The rows when the changes were last extracted. -/
  extracted : Rows κ ν

/-- What can happen next. -/
inductive Event (Q : Sqlite σ τ κ) (ν : Type) where
  | operate (op : SessionState.Operation Q ν)
  /-- A published snapshot is sequenced, but its response is lost. -/
  | strayed
  | move (kind : Kind) (m : Move)
  /-- Old rows are removed before the failed changesets are retried. -/
  | cleanup (expired : Item σ κ ν → Bool)
  | shutdown
  /-- The end of `shutdown`: the threads are joined, and the handle is dropped. -/
  | finish (room : SessionState.Room)
  | dropMonitor (room : SessionState.Room)
  | signal
  | join
  | crash
  | attach (empty db : Database Q ν) (snapshotInterval : Nat) (published : Bool)

namespace System

variable (config : Config)

def lane (s : System Q ν) : Kind → Lane σ κ ν
  | .changesets => s.changesets
  | .snapshots => s.snapshots

def setLane (s : System Q ν) (kind : Kind) (l : Lane σ κ ν) : System Q ν :=
  match kind with
  | .changesets => { s with changesets := l }
  | .snapshots => { s with snapshots := l }

def stopped (s : System Q ν) : Bool := !s.changesets.sender.alive && !s.snapshots.sender.alive

/-- A channel whose receiver is gone takes nothing. -/
def offered (s : System Q ν) (room : SessionState.Room) : SessionState.Room :=
  { room with
    schemaSnapshot := room.schemaSnapshot && s.snapshots.sender.alive
    changeset := room.changeset && s.changesets.sender.alive
    intervalSnapshot := room.intervalSnapshot && s.snapshots.sender.alive }

/-- What a push hands to the channels. -/
def queued (s : System Q ν) (room : SessionState.Room) : List (Item σ κ ν) :=
  (SessionState.taken (s.client.created (s.offered room))).map (Item.mk s.session)

/-- `extract_and_send_changeset` with the channels behind it. -/
def extract (room : SessionState.Room) (s : System Q ν) : System Q ν :=
  { s with
    client := (s.client.extractAndSendChangeset (s.offered room)).2
    changesets := s.changesets.queue ((s.queued room).filter fun x => x.emission.isChangeset)
    snapshots := s.snapshots.queue ((s.queued room).filter fun x => !x.emission.isChangeset)
    created := s.created ++
      (s.client.created (s.offered room)).map fun entry => ⟨s.session, entry.1⟩
    extracted := if s.client.reads (s.offered room) then s.client.db.rows else s.extracted }

/-- The snapshots that an operation publishes past the channels. -/
def published (s : System Q ν) (op : SessionState.Operation Q ν) : List (Item σ κ ν) :=
  ((s.client.step op).emitted.drop s.client.emitted.length).map (Item.mk s.session)

def operate (op : SessionState.Operation Q ν) (s : System Q ν) : System Q ν :=
  match op with
  | .push room => s.extract room
  | op => { s with client := s.client.step op, log := s.log ++ (s.published op).map fun x => [x] }

def move (kind : Kind) (m : Move) (s : System Q ν) : System Q ν :=
  { s.setLane kind ((s.lane kind).move config kind m) with
    log := s.log ++ (s.lane kind).arrivals m
    acknowledged := s.acknowledged ++ (s.lane kind).acknowledgements m }

def mapLanes (f : Lane σ κ ν → Lane σ κ ν) (s : System Q ν) : System Q ν :=
  { s with changesets := f s.changesets, snapshots := f s.snapshots }

/-- A client attaches, with a channel and a new thread for either kind. -/
def attach (empty db : Database Q ν) (snapshotInterval : Nat) (published : Bool) (s : System Q ν) :
    System Q ν :=
  let client := SessionState.attach empty db snapshotInterval published
  { session := s.session + 1
    client := client
    stage := .running
    changesets := s.changesets.restart
    snapshots := s.snapshots.restart
    log := s.log ++ client.emitted.map fun e => [⟨s.session + 1, e⟩]
    created := []
    acknowledged := []
    extracted := db.rows }

/-- An event that is not possible in a state changes nothing. -/
def step (s : System Q ν) : Event Q ν → System Q ν
  | .operate op => if s.stage = .running then s.operate op else s
  | .strayed =>
      if s.stage = .running ∧ s.client.transaction.isNone then
        { s with log := s.log ++
            [[⟨s.session, .snapshot .request s.client.sequence s.client.db.toImage⟩]] }
      else s
  | .move kind m => s.move config kind m
  | .cleanup expired =>
      if s.changesets.sender.alive ∧ ¬s.changesets.sender.started then
        s.mapLanes fun l => l.clean fun x => expired x && x.session < s.session
      else s
  | .shutdown =>
      if s.stage = .running then { s.mapLanes Lane.signalled with stage := .shuttingDown } else s
  | .finish room =>
      if s.stage = .shuttingDown ∧ s.stopped then
        { (s.extract room).mapLanes Lane.close with stage := .ended }
      else s
  | .dropMonitor room =>
      if s.stage = .running then { (s.extract room).mapLanes Lane.close with stage := .dropping }
      else s
  | .signal => if s.stage = .dropping then s.mapLanes Lane.signalled else s
  | .join => if s.stage = .dropping ∧ s.stopped then { s with stage := .ended } else s
  | .crash => { s.mapLanes Lane.stop with stage := .crashed }
  | .attach empty db snapshotInterval published =>
      if s.stage = .ended ∨ s.stage = .crashed then s.attach empty db snapshotInterval published
      else s

/-- The first client of a sequencer, with a new recovery database. -/
def first (empty db : Database Q ν) (snapshotInterval : Nat) (published : Bool) : System Q ν :=
  let client := SessionState.attach empty db snapshotInterval published
  let lane : Lane σ κ ν := ⟨[], false, false, .new, [], 0⟩
  ⟨0, client, .running, lane, lane, client.emitted.map fun e => [⟨0, e⟩], [], [], db.rows⟩

end System

/-- Changesets and snapshots go to different senders. -/
def Kind.carries (kind : Kind) (x : Item σ κ ν) : Bool :=
  match kind with
  | .changesets => x.emission.isChangeset
  | .snapshots => !x.emission.isChangeset

namespace SessionState

omit [DecidableEq ν] in
theorem execute_keeps (c : SessionState Q ν) (statement : Statement Q ν) :
    (c.execute statement).emitted = c.emitted ∧ (c.execute statement).sequence = c.sequence := by
  cases statement with
  | write key value =>
    rcases write_cases c key value with same | ⟨db, -, written⟩
    · rw [execute, same]
      exact ⟨rfl, rfl⟩
    · rw [execute, written]
      exact ⟨rfl, rfl⟩
  | alter effect => exact ⟨rfl, rfl⟩

omit [DecidableEq ν] in
theorem executeAll_keeps (c : SessionState Q ν) (batch : List (Statement Q ν)) :
    (batch.foldl execute c).emitted = c.emitted ∧ (batch.foldl execute c).sequence =
      c.sequence := by
  induction batch generalizing c with
  | nil => exact ⟨rfl, rfl⟩
  | cons statement batch ih =>
    obtain ⟨emitted, sequence⟩ := execute_keeps c statement
    obtain ⟨later, number⟩ := ih (c.execute statement)
    exact ⟨later.trans emitted, number.trans sequence⟩

/-- An operation that hands over no more than snapshots with the number of the next changeset,
past the channels. -/
def Publishes (c d : SessionState Q ν) : Prop :=
  d.sequence = c.sequence ∧ ∃ es, d.emitted = c.emitted ++ es ∧
    ∀ e ∈ es, e.sequence = c.sequence ∧ e.isChangeset = false

omit [DecidableEq κ] [DecidableEq ν] in
theorem publishes_nothing (c d : SessionState Q ν) (emitted : d.emitted = c.emitted)
    (sequence : d.sequence = c.sequence) : Publishes c d :=
  ⟨sequence, [], by rw [emitted, List.append_nil], by simp⟩

omit [DecidableEq κ] [DecidableEq ν] in
theorem snapshot_publishes (c : SessionState Q ν) (published : Bool) :
    Publishes c (c.snapshot published) := by
  rw [snapshot]
  split
  · exact publishes_nothing c c rfl rfl
  · split
    · exact ⟨rfl, _, rfl, by simp [Emission.sequence, Emission.isChangeset]⟩
    · exact publishes_nothing c c rfl rfl

theorem step_publishes (c : SessionState Q ν) (op : Operation Q ν)
    (other : ∀ room, op ≠ .push room) : Publishes c (c.step op) := by
  cases op with
  | write key value =>
    obtain ⟨emitted, sequence⟩ := execute_keeps c (.write key value)
    exact publishes_nothing c _ emitted sequence
  | alter effect => exact publishes_nothing c _ rfl rfl
  | executeDdl sql batch succeeds published =>
    obtain ⟨emitted, sequence⟩ := executeAll_keeps c batch
    rw [step, executeDdl]
    split
    · obtain ⟨number, es, more, snapshots⟩ := snapshot_publishes (batch.foldl execute c) published
      refine ⟨number.trans sequence, es, by rw [more, emitted], ?_⟩
      rw [sequence] at snapshots
      exact snapshots
    · exact publishes_nothing c _ emitted sequence
  | push room => exact absurd rfl (other room)
  | snapshot published => exact snapshot_publishes c published
  | begin =>
    rw [step]
    split
    · exact publishes_nothing c _ rfl rfl
    · exact publishes_nothing c _ rfl rfl
  | commit => exact publishes_nothing c _ rfl rfl
  | rollback =>
    rw [step]
    split
    · exact publishes_nothing c _ rfl rfl
    · exact publishes_nothing c _ rfl rfl

omit [DecidableEq κ] [DecidableEq ν] in
theorem attach_publishes (empty db : Database Q ν) (snapshotInterval : Nat) (published : Bool) :
    (attach empty db snapshotInterval published).sequence = 0 ∧
      ∀ e ∈ (attach empty db snapshotInterval published).emitted,
        e.sequence = 0 ∧ e.isChangeset = false := by
  rw [attach]
  split
  · obtain ⟨number, es, more, snapshots⟩ := snapshot_publishes
      (⟨db, none, [], 0, snapshotInterval, 0, false, Q.computeSchemaHash db.schema, db.schema, [],
        empty⟩ : SessionState Q ν) published
    refine ⟨number, ?_⟩
    rw [more]
    simpa using snapshots
  · exact ⟨rfl, by simp⟩

end SessionState

namespace System

omit [DecidableEq κ] [DecidableEq ν] in
theorem lane_mapLanes (f : Lane σ κ ν → Lane σ κ ν) (s : System Q ν) (kind : Kind) :
    (s.mapLanes f).lane kind = f (s.lane kind) := by
  cases kind with
  | changesets => rfl
  | snapshots => rfl

omit [DecidableEq κ] in
theorem lane_extract (room : SessionState.Room) (s : System Q ν) (kind : Kind) :
    (s.extract room).lane kind = (s.lane kind).queue ((s.queued room).filter kind.carries) := by
  cases kind with
  | changesets => rfl
  | snapshots => rfl

omit [DecidableEq κ] [DecidableEq ν] in
theorem lane_move (config : Config) (kind : Kind) (m : Move) (s : System Q ν) (other : Kind) :
    (s.move config kind m).lane other =
      if other = kind then (s.lane kind).move config kind m else s.lane other := by
  cases kind with
  | changesets =>
    cases other with
    | changesets => rfl
    | snapshots => rfl
  | snapshots =>
    cases other with
    | changesets => rfl
    | snapshots => rfl

omit [DecidableEq κ] [DecidableEq ν] in
/-- Neither the handle nor its record of the session takes part in a move. -/
theorem move_frame (config : Config) (kind : Kind) (m : Move) (s : System Q ν) :
    (s.move config kind m).session = s.session ∧ (s.move config kind m).client = s.client ∧
      (s.move config kind m).stage = s.stage ∧ (s.move config kind m).created = s.created ∧
      (s.move config kind m).extracted = s.extracted := by
  cases kind with
  | changesets => exact ⟨rfl, rfl, rfl, rfl, rfl⟩
  | snapshots => exact ⟨rfl, rfl, rfl, rfl, rfl⟩

/-- An operation that is no push leaves the channels alone. -/
theorem operate_other (s : System Q ν) (op : SessionState.Operation Q ν)
    (other : ∀ room, op ≠ .push room) : s.operate op =
      { s with client := s.client.step op, log := s.log ++ (s.published op).map fun x => [x] } := by
  cases op with
  | push room => exact absurd rfl (other room)
  | write key value => rfl
  | alter effect => rfl
  | executeDdl sql batch succeeds published => rfl
  | snapshot published => rfl
  | begin => rfl
  | commit => rfl
  | rollback => rfl

/-- What an operation publishes has the number of the next changeset. -/
theorem published_numbers (s : System Q ν) (op : SessionState.Operation Q ν)
    (other : ∀ room, op ≠ .push room) (x : Item σ κ ν) (h : x ∈ s.published op) :
    x.session = s.session ∧ x.sequence = s.client.sequence ∧ x.emission.isChangeset = false := by
  obtain ⟨-, es, more, snapshots⟩ := SessionState.step_publishes s.client op other
  rw [published, more, List.drop_left] at h
  obtain ⟨e, he, rfl⟩ := List.mem_map.mp h
  exact ⟨rfl, snapshots e he⟩

omit [DecidableEq κ] in
/-- What a push hands to the channels is created by it, in the order of the numbers. -/
theorem queued_numbers (room : SessionState.Room) (s : System Q ν) (x : Item σ κ ν)
    (h : x ∈ s.queued room) :
    x.session = s.session ∧ s.client.sequence ≤ x.sequence ∧
      x.sequence ≤ (s.extract room).client.sequence ∧
      (x.emission.isChangeset = true → x.sequence < (s.extract room).client.sequence) := by
  have pushed := SessionState.push_spec (s.offered room) s.client
  obtain ⟨e, taken, rfl⟩ := List.mem_map.mp h
  have created := (SessionState.mem_taken _ e).mp taken
  have bounds := pushed.numbers _ created
  exact ⟨rfl, bounds.1, bounds.2, pushed.changesets _ created⟩

omit [DecidableEq κ] in
/-- A push hands over one changeset at most. -/
theorem queued_single (room : SessionState.Room) (s : System Q ν) :
    ((s.queued room).filter fun x => x.emission.isChangeset).length ≤ 1 := by
  have pushed := SessionState.push_spec (s.offered room) s.client
  have fewer : (((s.client.created (s.offered room)).filter Prod.snd).filter
      fun e => e.1.isChangeset).Sublist
        ((s.client.created (s.offered room)).filter fun e => e.1.isChangeset) :=
    List.Sublist.filter _ List.filter_sublist
  rw [queued, SessionState.taken, List.map_map, List.filter_map, List.length_map]
  exact fewer.length_le.trans pushed.single

omit [DecidableEq κ] in
theorem queued_ordered (room : SessionState.Room) (s : System Q ν) :
    (s.queued room).Pairwise fun x y => x.session = y.session → x.sequence ≤ y.sequence := by
  have pushed := SessionState.push_spec (s.offered room) s.client
  have taken := pushed.ordered.sublist (List.filter_sublist (p := Prod.snd))
  rw [queued, SessionState.taken, List.map_map, List.pairwise_map]
  refine taken.imp ?_
  intro e f le _
  exact le

omit [DecidableEq κ] in
theorem extract_forward (room : SessionState.Room) (s : System Q ν) :
    s.client.sequence ≤ (s.extract room).client.sequence :=
  (SessionState.push_spec (s.offered room) s.client).forward

end System

namespace Sample

/-- Requests of a single changeset, sent twice at most. -/
def config : Config := ⟨1, 2⟩

/-- The process of a client with two accounts. -/
def process : System sqlite Nat := .first empty accounts 100 true

end Sample

end SyndDB.Client
