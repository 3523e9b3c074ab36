import SyndDB.Client.Process
import SyndDB.Client.SchemaOrder

namespace SyndDB.Client

open Changes Run

variable {σ τ κ ν : Type}

namespace Lane

variable (config : Config)

/-- A sender does not leave its loop with items in its buffer or in its channel. -/
def Drained (kind : Kind) (l : Lane σ κ ν) : Move → Prop
  | .seeClosed => l.sender.waits → l.closed → l.channel.isEmpty → l.sender.buffer.isEmpty
  | .seeShutdown => kind = .snapshots → l.sender.waits → l.shutdownSignal → l.channel.isEmpty
  | _ => True

/-- A sender that has ended holds nothing, and one that is about to end holds its last request. -/
structure Orderly (l : Lane σ κ ν) : Prop where
  dead : l.sender.alive = false → l.sender = .gone ∧ l.channel = []
  leaving : l.sender.leaving = true →
    l.shutdownSignal = true ∧ l.sender.buffer = [] ∧ l.channel = []

theorem orderly_stop (l : Lane σ κ ν) : l.stop.Orderly := by
  refine ⟨fun _ => ⟨rfl, rfl⟩, ?_⟩
  intro leaving
  cases leaving

theorem orderly_alive (l : Lane σ κ ν) (alive : l.sender.alive = true)
    (leaving : l.sender.leaving = true →
      l.shutdownSignal = true ∧ l.sender.buffer = [] ∧ l.channel = []) : l.Orderly := by
  refine ⟨?_, leaving⟩
  intro dead
  rw [alive] at dead
  cases dead

theorem orderly_finish (l : Lane σ κ ν) (alive : l.sender.alive = true) : l.finish.Orderly := by
  rw [finish]
  split
  · exact orderly_stop l
  · rename_i stays
    exact orderly_alive _ alive fun leaving => absurd leaving stays

theorem Orderly.alive (l : Lane σ κ ν) (h : l.Orderly)
    (busy : l.sender.started = false ∨ l.sender.failed ≠ [] ∨ l.sender.request ≠ none) :
    l.sender.alive = true := by
  by_contra ended
  obtain ⟨gone, -⟩ := h.dead (by simpa using ended)
  rw [gone] at busy
  simp [Sender.gone] at busy

theorem orderly_move (kind : Kind) (l : Lane σ κ ν) (m : Move) (h : l.Orderly) :
    (l.move config kind m).Orderly := by
  have next := move_next config kind l m
  generalize l.move config kind m = l' at next ⊢
  have awake (waits : l.sender.waits = true) : l.sender.alive = true := ((waits_iff l).mp waits).1
  have busy (r : Request σ κ ν) (request : l.sender.request = some r) : l.sender.alive = true :=
    h.alive l (.inr (.inr (by simp [request])))
  -- a sender that is leaving has no more to receive
  have stays (x : Item σ κ ν) (rest : List (Item σ κ ν)) (channel : l.channel = x :: rest)
      (leaving : l.sender.leaving = true) (goal : Prop) : goal := by
    rw [(h.leaving leaving).2.2] at channel
    cases channel
  cases next with
  | same quiet => exact h
  | ended reason => exact orderly_stop l
  | loaded unread => exact orderly_alive _ (h.alive l (.inl unread)) h.leaving
  | retrying row rest request failed =>
    exact orderly_alive _ (h.alive l (.inr (.inl (by simp [failed])))) h.leaving
  | buffered x rest own waits channel =>
    exact orderly_alive _ (awake waits) fun leaving => stays x rest channel leaving _
  | flushed x rest own waits channel =>
    exact orderly_alive _ (awake waits) fun leaving => stays x rest channel leaving _
  | taken x rest own waits channel =>
    exact orderly_alive _ (awake waits) fun leaving => stays x rest channel leaving _
  | drained own waits signal => exact orderly_alive _ (awake waits) fun _ => ⟨signal, rfl, rfl⟩
  | again r unknown request => exact orderly_alive _ (busy r request) h.leaving
  | delivered r request own => exact orderly_finish _ (busy r request)
  | recovered r id request row => exact orderly_finish _ (busy r request)
  | saved r unknown request own => exact orderly_finish _ (busy r request)
  | dropped r id unknown request row => exact orderly_finish _ (busy r request)

theorem signal_finish (l : Lane σ κ ν) : l.finish.shutdownSignal = l.shutdownSignal := by
  rw [finish]
  split
  · rfl
  · rfl

theorem signal_move (kind : Kind) (l : Lane σ κ ν) (m : Move) :
    (l.move config kind m).shutdownSignal = l.shutdownSignal := by
  have next := move_next config kind l m
  generalize l.move config kind m = l' at next ⊢
  cases next with
  | delivered r request own => exact signal_finish _
  | recovered r id request row => exact signal_finish _
  | saved r unknown request own => exact signal_finish _
  | dropped r id unknown request row => exact signal_finish _
  | _ => rfl

/-- A thread that has ended makes no move. -/
theorem gone_move (kind : Kind) (l : Lane σ κ ν) (m : Move) (gone : l.sender = .gone) :
    l.move config kind m = l := by
  have asleep : l.sender.waits = false := by simp [gone, Sender.gone, Sender.waits]
  cases m with
  | start => simp [move, start, gone, Sender.gone]
  | retryNext => simp [move, retryNext, gone, Sender.gone]
  | receive due =>
    cases kind with
    | changesets => simp [move, receiveChangeset, asleep]
    | snapshots => simp [move, receiveSnapshot, asleep]
  | attempt sequenced acknowledged removed => simp [move, attempt, gone, Sender.gone]
  | seeClosed => simp [move, seeClosed, asleep]
  | seeShutdown =>
    cases kind with
    | changesets => simp [move, seeShutdownChangesets, asleep]
    | snapshots => simp [move, seeShutdownSnapshots, asleep]

/-- A sender that ends without a request has nothing left. -/
theorem Ends.empty (kind : Kind) (l : Lane σ κ ν) (m : Move) (reason : Ends config kind l m)
    (unused : kind = .snapshots → l.sender.buffer = []) (retries : config.maxRetries ≠ 0)
    (drained : l.Drained kind m) : l.memory = [] := by
  cases reason with
  | panicked never silent => exact absurd never retries
  | closed waits closed channel =>
    have buffer := drained waits closed (by simp [channel])
    rw [(memory_waits l waits).1, channel, List.isEmpty_iff.mp buffer]
    rfl
  | shut waits signal empty =>
    rw [(memory_waits l waits).1]
    cases kind with
    | changesets =>
      obtain ⟨buffer, channel⟩ := empty rfl
      rw [buffer, channel]
      rfl
    | snapshots =>
      have channel := drained rfl waits signal
      rw [unused rfl, List.isEmpty_iff.mp channel]
      rfl

/-- What a sender holds or has saved it keeps, until it is acknowledged. -/
theorem keeps_move (kind : Kind) (l : Lane σ κ ν) (m : Move)
    (unused : kind = .snapshots → l.sender.buffer = []) (single : l.Single) (numbered : l.Numbered)
    (orderly : l.Orderly) (retries : config.maxRetries ≠ 0) (drained : l.Drained kind m)
    (x : Item σ κ ν) (kept : x ∈ l.memory ∨ x ∈ l.table.map Prod.snd) :
    x ∈ (l.move config kind m).memory ∨ x ∈ (l.move config kind m).table.map Prod.snd ∨
      x ∈ l.acknowledgements m := by
  have moved := move_cases config kind l m unused
  generalize l.move config kind m = l' at moved ⊢
  -- a sender that is leaving has nothing behind its request
  have behind (queued : x ∈ l.sender.buffer ++ l.channel) :
      x ∈ if l.sender.leaving then [] else l.sender.buffer ++ l.channel := by
    split
    · rename_i leaving
      obtain ⟨-, buffer, channel⟩ := orderly.leaving leaving
      rw [buffer, channel] at queued
      cases queued
    · exact queued
  have acknowledged (r : Request σ κ ν) (removed : Bool) (request : l.sender.request = some r) :
      l.acknowledgements (.attempt true true removed) = r.items := by
    simp [acknowledgements, request]
  cases moved with
  | passed memory loans table next quiet =>
    rw [memory, table]
    exact kept.imp_right .inl
  | loaded memory loans table next unread =>
    rw [memory, table]
    exact kept.imp_right .inl
  | delivered r request own memory loans table next =>
    rw [memory, table, acknowledged r _ request]
    rcases kept with held | saved
    · rw [(memory_request l r request own).1, List.mem_append] at held
      rcases held with sent | queued
      · exact .inr (.inr sent)
      · exact .inl (behind queued)
    · exact .inr (.inl saved)
  | @recovered removed l' r id request row memory loans table next =>
    obtain ⟨held, lent⟩ := loans_request l r id request row
    rw [memory, table, acknowledged r _ request, held]
    rcases kept with inMemory | inTable
    · rw [held] at inMemory
      exact .inl (behind inMemory)
    · obtain ⟨entry, listed, rfl⟩ := List.mem_map.mp inTable
      by_cases same : entry.1 = id
      · obtain ⟨y, items⟩ := List.length_eq_one_iff.mp (single r request (by simp [row]))
        have loan : (id, y) ∈ l.loans := by simp [lent, items]
        rw [numbered.agree entry listed (id, y) loan same, items]
        exact .inr (.inr (List.mem_singleton_self y))
      · refine .inr (.inl (List.mem_map_of_mem ?_))
        split
        · simp [listed, same]
        · exact listed
  | saved r unknown request own memory loans table next =>
    rw [memory, table, List.map_append, rows_snd, List.mem_append]
    rcases kept with held | saved
    · rw [(memory_request l r request own).1, List.mem_append] at held
      rcases held with sent | queued
      · exact .inr (.inl (.inr sent))
      · exact .inl (behind queued)
    · exact .inr (.inl (.inl saved))
  | dropped r id unknown request row memory loans table next =>
    obtain ⟨held, -⟩ := loans_request l r id request row
    rw [memory, table, held]
    rcases kept with inMemory | inTable
    · rw [held] at inMemory
      exact .inl (behind inMemory)
    · exact .inr (.inl inTable)
  | stopped memory loans table next reason =>
    rw [reason.empty config kind l m unused retries drained] at kept
    rw [table]
    rcases kept with held | saved
    · cases held
    · exact .inr (.inl saved)

theorem orderly_queue (items : List (Item σ κ ν)) (l : Lane σ κ ν) (h : l.Orderly)
    (free : items ≠ [] → l.sender.alive = true ∧ l.sender.leaving = false) :
      (l.queue items).Orderly := by
  by_cases none : items = []
  · have same : l.queue items = l := by simp [queue, none]
    rw [same]
    exact h
  · obtain ⟨alive, stays⟩ := free none
    apply orderly_alive (l.queue items) alive
    intro leaving
    rw [show l.sender.leaving = true from leaving] at stays
    cases stays

theorem orderly_signalled (l : Lane σ κ ν) (h : l.Orderly) : l.signalled.Orderly :=
  ⟨h.dead, fun leaving => ⟨rfl, (h.leaving leaving).2⟩⟩

theorem orderly_close (l : Lane σ κ ν) (h : l.Orderly) : l.close.Orderly := ⟨h.dead, h.leaving⟩

theorem orderly_clean (expired : Item σ κ ν → Bool) (l : Lane σ κ ν) (h : l.Orderly) :
    (l.clean expired).Orderly := ⟨h.dead, h.leaving⟩

theorem orderly_restart (l : Lane σ κ ν) : l.restart.Orderly := by
  apply orderly_alive _ rfl
  intro leaving
  cases leaving

/-- A sender that has ended has nothing in memory. -/
theorem Orderly.memory_nil (l : Lane σ κ ν) (h : l.Orderly) (dead : l.sender.alive = false) :
    l.memory = [] := by
  obtain ⟨gone, channel⟩ := h.dead dead
  simp [memory, requested, gone, channel, Sender.gone]

end Lane

variable {Q : Sqlite σ τ κ}

/-- The rows outside of the open transaction. -/
def SessionState.committed (c : SessionState Q ν) : Rows κ ν := (c.transaction.getD c.db).rows

variable [DecidableEq κ] [DecidableEq ν]

namespace SessionState

omit [DecidableEq κ] in
/-- What the channels take went to a channel with room. -/
theorem created_room (room : Room) (c : SessionState Q ν) (e : Emission σ κ ν)
    (h : (e, true) ∈ c.created room) :
    (e.isChangeset = true → room.changeset = true) ∧
      (e.isChangeset = false → room.schemaSnapshot = true ∨ room.intervalSnapshot = true) := by
  have schema (member : (e, true) ∈ c.schemaSnapshots room) :
      e.isChangeset = false ∧ room.schemaSnapshot = true := by
    rw [schemaSnapshots] at member
    split at member
    · cases member
    · obtain ⟨rfl, flag⟩ := Prod.mk.inj (List.mem_singleton.mp member)
      exact ⟨rfl, flag.symm⟩
  have rest (d : SessionState Q ν) (member : (e, true) ∈ d.changesetAndSnapshot room) :
      e.isChangeset = true ∧ room.changeset = true ∨
        e.isChangeset = false ∧ room.intervalSnapshot = true := by
    rw [changesetAndSnapshot] at member
    by_cases empty : (changes d.session d.db.rows).isEmpty = true
    · simp [empty] at member
    · by_cases due : d.snapshotInterval ≤ d.changesetsSinceSnapshot + 1
      · simp only [empty, due, if_true, Bool.false_eq_true, if_false, List.mem_cons, Prod.mk.injEq,
          List.not_mem_nil, or_false] at member
        rcases member with ⟨rfl, flag⟩ | ⟨rfl, flag⟩
        · exact .inl ⟨rfl, flag.symm⟩
        · exact .inr ⟨rfl, flag.symm⟩
      · simp only [empty, due, Bool.false_eq_true, if_false, List.mem_cons, Prod.mk.injEq,
          List.not_mem_nil, or_false] at member
        exact .inl ⟨by rw [member.1]; rfl, member.2.symm⟩
  have found : (e, true) ∈ c.schemaSnapshots room ∨
      (e, true) ∈ (c.detectSchemaChange room.schemaSnapshot).changesetAndSnapshot room := by
    rw [created] at h
    split at h
    · rcases List.mem_append.mp h with first | later
      · exact .inl first
      · split at later
        · exact .inr later
        · cases later
    · cases h
  rcases found with first | later
  · obtain ⟨snapshot, flag⟩ := schema first
    simp [snapshot, flag]
  · rcases rest _ later with ⟨changeset, flag⟩ | ⟨snapshot, flag⟩
    · simp [changeset, flag]
    · simp [snapshot, flag]

end SessionState

namespace System

omit [DecidableEq κ] in
/-- A channel takes nothing once its receiver is gone. -/
theorem queued_alive (room : SessionState.Room) (s : System Q ν) (kind : Kind) (x : Item σ κ ν)
    (h : x ∈ s.queued room) (own : kind.carries x = true) : (s.lane kind).sender.alive = true := by
  obtain ⟨e, taken, rfl⟩ := List.mem_map.mp h
  obtain ⟨changeset, snapshot⟩ := SessionState.created_room (s.offered room) s.client e
    ((SessionState.mem_taken _ e).mp taken)
  cases kind with
  | changesets =>
    have flag := changeset own
    simp only [offered, Bool.and_eq_true] at flag
    exact flag.2
  | snapshots =>
    have flag := snapshot (by simpa [Kind.carries] using own)
    simp only [offered, Bool.and_eq_true] at flag
    rcases flag with schema | interval
    · exact schema.2
    · exact interval.2

/-- Every item that an extraction creates is taken by its channel. -/
def Accepts (s : System Q ν) (room : SessionState.Room) : Prop :=
  ∀ e ∈ s.client.created (s.offered room), e.2 = true

/-- After an extraction nothing is left that was committed and not extracted. -/
def Extracts (s : System Q ν) (room : SessionState.Room) : Prop :=
  s.client.reads (s.offered room) = true ∨ s.extracted = s.client.committed

/-- Nothing is lost in the next step: extracted items find room and a receiver, the last extraction
reaches the last commit, and no sender leaves its loop with items in its buffer or channel. -/
def Careful (s : System Q ν) : Event Q ν → Prop
  | .operate (.push room) => s.stage = .running → s.Accepts room
  | .move kind m => (s.lane kind).Drained kind m
  | .finish room => s.stage = .shuttingDown → s.stopped → s.Accepts room ∧ s.Extracts room
  | .dropMonitor room => s.stage = .running → s.Accepts room ∧ s.Extracts room
  | _ => True

instance decidableDrained (kind : Kind) (l : Lane σ κ ν) (m : Move) :
    Decidable (l.Drained kind m) :=
  match m with
  | .seeClosed => inferInstanceAs (Decidable
      (l.sender.waits → l.closed → l.channel.isEmpty → l.sender.buffer.isEmpty))
  | .seeShutdown => inferInstanceAs (Decidable
      (kind = .snapshots → l.sender.waits → l.shutdownSignal → l.channel.isEmpty))
  | .start => isTrue trivial
  | .retryNext => isTrue trivial
  | .receive _ => isTrue trivial
  | .attempt _ _ _ => isTrue trivial

instance decidableAccepts (s : System Q ν) (room : SessionState.Room) :
    Decidable (s.Accepts room) :=
  inferInstanceAs (Decidable (∀ e ∈ s.client.created (s.offered room), e.2 = true))

instance decidableExtracts [DecidableEq (Rows κ ν)] (s : System Q ν) (room : SessionState.Room) :
    Decidable (s.Extracts room) :=
  inferInstanceAs (Decidable
    (s.client.reads (s.offered room) = true ∨ s.extracted = s.client.committed))

instance decidableCareful [DecidableEq (Rows κ ν)] (s : System Q ν) (e : Event Q ν) :
    Decidable (s.Careful e) :=
  match e with
  | .operate (.push room) => inferInstanceAs (Decidable (s.stage = .running → s.Accepts room))
  | .operate (.write _ _) => isTrue trivial
  | .operate (.alter _) => isTrue trivial
  | .operate (.executeDdl _ _ _ _) => isTrue trivial
  | .operate (.snapshot _) => isTrue trivial
  | .operate .begin => isTrue trivial
  | .operate .commit => isTrue trivial
  | .operate .rollback => isTrue trivial
  | .move kind m => decidableDrained kind (s.lane kind) m
  | .finish room => inferInstanceAs (Decidable
      (s.stage = .shuttingDown → s.stopped → s.Accepts room ∧ s.Extracts room))
  | .dropMonitor room => inferInstanceAs (Decidable
      (s.stage = .running → s.Accepts room ∧ s.Extracts room))
  | .strayed => isTrue trivial
  | .cleanup _ => isTrue trivial
  | .shutdown => isTrue trivial
  | .signal => isTrue trivial
  | .join => isTrue trivial
  | .crash => isTrue trivial
  | .attach _ _ _ _ => isTrue trivial

/-- The items in the recovery database. -/
def saved (s : System Q ν) : List (Item σ κ ν) :=
  s.changesets.table.map Prod.snd ++ s.snapshots.table.map Prod.snd

/-- Everything committed is extracted, and everything extracted is acknowledged or saved. -/
def Lossless (s : System Q ν) : Prop :=
  s.extracted = s.client.committed ∧ ∀ x ∈ s.created, x ∈ s.acknowledged ∨ x ∈ s.saved

/-- What is extracted is acknowledged or saved, or a sender still holds it. -/
structure Accounted (s : System Q ν) : Prop where
  unused : s.snapshots.sender.buffer = []
  single : ∀ kind, (s.lane kind).Single
  numbered : ∀ kind, (s.lane kind).Numbered
  orderly : ∀ kind, (s.lane kind).Orderly
  unsignalled : s.stage = .running → ∀ kind, (s.lane kind).shutdownSignal = false
  own : ∀ x ∈ s.created, x.session = s.session
  kept : s.stage ≠ .crashed → ∀ x ∈ s.created, x ∈ s.acknowledged ∨
    ∃ kind, x ∈ (s.lane kind).memory ∨ x ∈ (s.lane kind).table.map Prod.snd
  extracted : s.stage = .dropping ∨ s.stage = .ended → s.extracted = s.client.committed
  stopped : s.stage = .ended → ∀ kind, (s.lane kind).sender.alive = false

omit [DecidableEq κ] [DecidableEq ν] in
/-- A sender that has not been told to end goes on. -/
theorem Accounted.stays (s : System Q ν) (h : s.Accounted) (running : s.stage = .running)
    (kind : Kind) :
    (s.lane kind).sender.leaving = false := by
  by_contra leaving
  have signal := ((h.orderly kind).leaving (by simpa using leaving)).1
  rw [h.unsignalled running kind] at signal
  cases signal

omit [DecidableEq κ] in
theorem accounted_extract (room : SessionState.Room) (s : System Q ν) (h : s.Accounted)
    (accepts : s.Accepts room) (going : s.stage = .running ∨ s.stage = .shuttingDown)
    (stays : ∀ kind, (s.lane kind).sender.alive = true → (s.lane kind).sender.leaving = false) :
    (s.extract room).Accounted := by
  have unended : (s.extract room).stage ≠ .dropping ∧ (s.extract room).stage ≠ .ended := by
    rcases going with running | shutting
    · exact ⟨by simp [extract, running], by simp [extract, running]⟩
    · exact ⟨by simp [extract, shutting], by simp [extract, shutting]⟩
  refine ⟨h.unused, ?_, ?_, ?_, ?_, ?_, ?_, ?_, ?_⟩
  · intro kind
    rw [lane_extract]
    exact h.single kind
  · intro kind
    rw [lane_extract]
    exact ⟨(h.numbered kind).ids, (h.numbered kind).bounded, (h.numbered kind).agree⟩
  · intro kind
    rw [lane_extract]
    apply Lane.orderly_queue _ _ (h.orderly kind)
    intro some
    obtain ⟨x, member⟩ := List.exists_mem_of_ne_nil _ some
    obtain ⟨queued, own⟩ := List.mem_filter.mp member
    have alive := queued_alive room s kind x queued own
    exact ⟨alive, stays kind alive⟩
  · intro running kind
    rw [lane_extract]
    exact h.unsignalled running kind
  · intro x member
    rcases List.mem_append.mp member with old | new
    · exact h.own x old
    · obtain ⟨entry, -, rfl⟩ := List.mem_map.mp new
      rfl
  · intro alive x member
    rcases List.mem_append.mp member with old | new
    · rcases h.kept alive x old with known | ⟨kind, held⟩
      · exact .inl known
      · refine .inr ⟨kind, ?_⟩
        rw [lane_extract, Lane.queue_memory, List.mem_append]
        exact held.imp_left .inl
    · -- a new item is in the channel of its kind
      obtain ⟨⟨e, flag⟩, created, rfl⟩ := List.mem_map.mp new
      obtain rfl : flag = true := accepts _ created
      have queued : (⟨s.session, e⟩ : Item σ κ ν) ∈ s.queued room :=
        List.mem_map_of_mem ((SessionState.mem_taken _ e).mpr created)
      have carried : ∃ kind : Kind, kind.carries (⟨s.session, e⟩ : Item σ κ ν) = true := by
        cases changeset : e.isChangeset with
        | true => exact ⟨.changesets, changeset⟩
        | false => exact ⟨.snapshots, by simp [Kind.carries, changeset]⟩
      obtain ⟨kind, own⟩ := carried
      refine .inr ⟨kind, .inl ?_⟩
      rw [lane_extract, Lane.queue_memory]
      exact List.mem_append_right _ (List.mem_filter.mpr ⟨queued, own⟩)
  · intro closing
    rcases closing with dropping | ended
    · exact absurd dropping unended.1
    · exact absurd ended unended.2
  · intro ended
    exact absurd ended unended.2

omit [DecidableEq κ] in
/-- The last extraction reaches the last commit. -/
theorem extract_committed (room : SessionState.Room) (s : System Q ν) (extracts : s.Extracts room) :
    (s.extract room).extracted = (s.extract room).client.committed := by
  obtain ⟨db, transaction⟩ := SessionState.push_keeps (s.offered room) s.client
  have committed : (s.extract room).client.committed = s.client.committed := by
    change SessionState.committed (s.client.extractAndSendChangeset (s.offered room)).2 = _
    rw [SessionState.committed, db, transaction, SessionState.committed]
  rw [committed]
  change (if s.client.reads (s.offered room) then s.client.db.rows else s.extracted) = _
  by_cases reads : s.client.reads (s.offered room) = true
  · have outside : s.client.transaction = none := by
      simp only [SessionState.reads, Bool.and_eq_true] at reads
      simpa using reads.1.2
    rw [if_pos reads, SessionState.committed, outside]
    rfl
  · rw [if_neg reads]
    exact extracts.resolve_left reads

omit [DecidableEq κ] [DecidableEq ν] in
/-- Both senders are treated alike, and keep the items of this session unless the process ends. -/
theorem accounted_mapLanes (f : Lane σ κ ν → Lane σ κ ν) (stage : Stage) (s : System Q ν)
    (h : s.Accounted) (unused : (f s.snapshots).sender.buffer = [])
    (single : ∀ l, l.Single → (f l).Single) (numbered : ∀ l, l.Numbered → (f l).Numbered)
    (orderly : ∀ l, l.Orderly → (f l).Orderly)
    (unsignalled : stage = .running → ∀ kind, (f (s.lane kind)).shutdownSignal = false)
    (keeps : stage ≠ .crashed → s.stage ≠ .crashed ∧ ∀ l x, x.session = s.session →
      x ∈ l.memory ∨ x ∈ l.table.map Prod.snd → x ∈ (f l).memory ∨ x ∈ (f l).table.map Prod.snd)
    (extracted : stage = .dropping ∨ stage = .ended → s.extracted = s.client.committed)
    (stopped : stage = .ended → ∀ kind, (f (s.lane kind)).sender.alive = false) :
    ({ s.mapLanes f with stage := stage }).Accounted := by
  have lanes (kind : Kind) :
      ({ s.mapLanes f with stage := stage } : System Q ν).lane kind = f (s.lane kind) :=
    lane_mapLanes f s kind
  refine ⟨unused, ?_, ?_, ?_, ?_, h.own, ?_, extracted, ?_⟩
  · intro kind
    rw [lanes]
    exact single _ (h.single kind)
  · intro kind
    rw [lanes]
    exact numbered _ (h.numbered kind)
  · intro kind
    rw [lanes]
    exact orderly _ (h.orderly kind)
  · intro running kind
    rw [lanes]
    exact unsignalled running kind
  · intro alive x member
    obtain ⟨before, kept⟩ := keeps alive
    rcases h.kept before x member with known | ⟨kind, held⟩
    · exact .inl known
    · refine .inr ⟨kind, ?_⟩
      rw [lanes]
      exact kept _ x (h.own x member) held
  · intro ended kind
    rw [lanes]
    exact stopped ended kind

variable (config : Config)

omit [DecidableEq κ] [DecidableEq ν] in
theorem accounted_move (kind : Kind) (m : Move) (s : System Q ν) (h : s.Accounted)
    (retries : config.maxRetries ≠ 0) (drained : (s.lane kind).Drained kind m) :
    (s.move config kind m).Accounted := by
  have lanes := lane_move config kind m s
  have unused : kind = .snapshots → (s.lane kind).sender.buffer = [] := by
    intro snapshots
    rw [snapshots]
    exact h.unused
  have orderly := Lane.orderly_move config kind (s.lane kind) m (h.orderly kind)
  obtain ⟨session, client, stage, created, extracted⟩ := move_frame config kind m s
  refine ⟨?_, ?_, ?_, ?_, ?_, ?_, ?_, ?_, ?_⟩
  · cases kind with
    | changesets => exact h.unused
    | snapshots => exact Lane.buffer_move config s.snapshots m h.unused
  · intro other
    rw [lanes]
    split
    · exact Lane.single_move config kind _ m (h.single kind)
    · exact h.single other
  · intro other
    rw [lanes]
    split
    · exact Lane.numbered_move config kind _ m unused (h.numbered kind)
    · exact h.numbered other
  · intro other
    rw [lanes]
    split
    · exact orderly
    · exact h.orderly other
  · rw [stage]
    intro running other
    rw [lanes]
    split
    · rw [Lane.signal_move]
      exact h.unsignalled running kind
    · exact h.unsignalled running other
  · rw [created, session]
    exact h.own
  · rw [stage, created]
    intro alive x member
    rcases h.kept alive x member with known | ⟨other, held⟩
    · exact .inl (List.mem_append_left _ known)
    · by_cases moved : other = kind
      · rw [moved] at held
        have kept := Lane.keeps_move config kind (s.lane kind) m unused (h.single kind)
          (h.numbered kind) (h.orderly kind) retries drained x held
        rcases kept with inMemory | inTable | acknowledged
        · exact .inr ⟨kind, by rw [lanes, if_pos rfl]; exact .inl inMemory⟩
        · exact .inr ⟨kind, by rw [lanes, if_pos rfl]; exact .inr inTable⟩
        · exact .inl (List.mem_append_right _ acknowledged)
      · exact .inr ⟨other, by rw [lanes, if_neg moved]; exact held⟩
  · rw [stage, extracted, client]
    exact h.extracted
  · rw [stage]
    intro ended other
    rw [lanes]
    split
    · have dead := h.stopped ended kind
      rw [Lane.gone_move config kind _ m ((h.orderly kind).dead dead).1]
      exact dead
    · exact h.stopped ended other

omit [DecidableEq κ] [DecidableEq ν] in
theorem stopped_iff (s : System Q ν) :
    s.stopped = true ↔ ∀ kind, (s.lane kind).sender.alive = false := by
  constructor
  · intro both kind
    simp only [stopped, Bool.and_eq_true, Bool.not_eq_true'] at both
    cases kind with
    | changesets => exact both.1
    | snapshots => exact both.2
  · intro each
    simp only [stopped, Bool.and_eq_true, Bool.not_eq_true']
    exact ⟨each .changesets, each .snapshots⟩

theorem accounted_operate (op : SessionState.Operation Q ν) (s : System Q ν) (h : s.Accounted)
    (running : s.stage = .running) (careful : s.Careful (.operate op)) :
      (s.operate op).Accounted := by
  by_cases push : ∃ room, op = .push room
  · obtain ⟨room, rfl⟩ := push
    exact accounted_extract room s h (careful running) (.inl running)
      fun kind _ => h.stays s running kind
  · have other : ∀ room, op ≠ .push room := by simpa using push
    rw [operate_other s op other]
    refine ⟨h.unused, h.single, h.numbered, h.orderly, h.unsignalled, h.own, h.kept, ?_, ?_⟩
    · intro closing
      rw [show s.stage = .running from running] at closing
      simp at closing
    · intro ended
      rw [show s.stage = .running from running] at ended
      cases ended

omit [DecidableEq κ] [DecidableEq ν] in
/-- A client that has just attached, with new threads on the tables that are left. -/
theorem accounted_started (s : System Q ν) (running : s.stage = .running) (none : s.created = [])
    (lanes : ∀ kind, ∃ l : Lane σ κ ν, l.Numbered ∧ s.lane kind = l.restart) : s.Accounted := by
  refine ⟨?_, ?_, ?_, ?_, ?_, ?_, ?_, ?_, ?_⟩
  · obtain ⟨l, -, same⟩ := lanes .snapshots
    rw [show s.snapshots = l.restart from same]
    rfl
  · intro kind
    obtain ⟨l, -, same⟩ := lanes kind
    rw [same]
    exact Lane.single_of_none _ rfl
  · intro kind
    obtain ⟨l, numbered, same⟩ := lanes kind
    rw [same]
    exact Lane.numbered_restart l numbered
  · intro kind
    obtain ⟨l, -, same⟩ := lanes kind
    rw [same]
    exact Lane.orderly_restart l
  · intro _ kind
    obtain ⟨l, -, same⟩ := lanes kind
    rw [same]
    rfl
  · simp [none]
  · simp [none]
  · simp [running]
  · simp [running]

omit [DecidableEq κ] [DecidableEq ν] in
theorem accounted_attach (empty db : Database Q ν) (snapshotInterval : Nat) (published : Bool)
    (s : System Q ν) (h : s.Accounted) :
      (s.attach empty db snapshotInterval published).Accounted := by
  apply accounted_started _ rfl rfl
  intro kind
  cases kind with
  | changesets => exact ⟨s.changesets, h.numbered .changesets, rfl⟩
  | snapshots => exact ⟨s.snapshots, h.numbered .snapshots, rfl⟩

omit [DecidableEq κ] [DecidableEq ν] in
theorem accounted_first (empty db : Database Q ν) (snapshotInterval : Nat) (published : Bool) :
    (first empty db snapshotInterval published).Accounted := by
  apply accounted_started _ rfl rfl
  intro kind
  refine ⟨⟨[], false, false, .new, [], 0⟩, Lane.numbered_new, ?_⟩
  cases kind with
  | changesets => rfl
  | snapshots => rfl

omit [DecidableEq κ] [DecidableEq ν] in
/-- Both senders are told to end. -/
theorem accounted_signalled (stage : Stage) (s : System Q ν) (h : s.Accounted)
    (closing : stage = .shuttingDown ∨ stage = .dropping ∧ s.stage = .dropping)
    (alive : s.stage ≠ .crashed) :
      ({ s.mapLanes Lane.signalled with stage := stage }).Accounted := by
  have going : stage ≠ .running ∧ stage ≠ .ended ∧ (stage = .dropping → s.stage = .dropping) := by
    rcases closing with shutting | ⟨dropping, before⟩
    · simp [shutting]
    · simp [dropping, before]
  apply accounted_mapLanes Lane.signalled stage s h h.unused
  · intro l single
    exact single
  · intro l numbered
    exact ⟨numbered.ids, numbered.bounded, numbered.agree⟩
  · intro l orderly
    exact Lane.orderly_signalled l orderly
  · intro running
    exact absurd running going.1
  · intro _
    exact ⟨alive, fun l x _ held => held⟩
  · intro last
    rcases last with dropping | ended
    · exact h.extracted (.inl (going.2.2 dropping))
    · exact absurd ended going.2.1
  · intro ended
    exact absurd ended going.2.1

omit [DecidableEq κ] in
/-- The monitor extracts for the last time and goes. -/
theorem accounted_closed (room : SessionState.Room) (stage : Stage) (s : System Q ν)
    (h : s.Accounted) (accepts : s.Accepts room) (extracts : s.Extracts room)
    (going : s.stage = .running ∧ stage = .dropping ∨
      s.stage = .shuttingDown ∧ stage = .ended ∧ s.stopped = true) :
    ({ (s.extract room).mapLanes Lane.close with stage := stage }).Accounted := by
  have before : s.stage = .running ∨ s.stage = .shuttingDown := by
    rcases going with ⟨running, -⟩ | ⟨shutting, -, -⟩
    · exact .inl running
    · exact .inr shutting
  have alive : s.stage ≠ .crashed := by
    rcases before with running | shutting
    · simp [running]
    · simp [shutting]
  have stays :
      ∀ kind, (s.lane kind).sender.alive = true → (s.lane kind).sender.leaving = false := by
    intro kind awake
    rcases going with ⟨running, -⟩ | ⟨-, -, stopped⟩
    · exact h.stays s running kind
    · rw [(stopped_iff s).mp stopped kind] at awake
      cases awake
  have extracted := accounted_extract room s h accepts before stays
  apply accounted_mapLanes Lane.close stage (s.extract room) extracted extracted.unused
  · intro l single
    exact single
  · intro l numbered
    exact ⟨numbered.ids, numbered.bounded, numbered.agree⟩
  · intro l orderly
    exact Lane.orderly_close l orderly
  · intro running
    rcases going with ⟨-, dropping⟩ | ⟨-, ended, -⟩
    · rw [dropping] at running
      cases running
    · rw [ended] at running
      cases running
  · intro _
    exact ⟨alive, fun l x _ held => held⟩
  · intro _
    exact extract_committed room s extracts
  · intro ended kind
    rw [lane_extract]
    rcases going with ⟨-, dropping⟩ | ⟨-, -, stopped⟩
    · rw [dropping] at ended
      cases ended
    · exact (stopped_iff s).mp stopped kind

omit [DecidableEq κ] [DecidableEq ν] in
/-- The rows that are removed are of earlier sessions. -/
theorem accounted_clean (expired : Item σ κ ν → Bool) (s : System Q ν) (h : s.Accounted) :
    (s.mapLanes fun l => l.clean fun x => expired x && x.session < s.session).Accounted := by
  apply accounted_mapLanes (fun l => l.clean fun x => expired x && x.session < s.session)
    s.stage s h h.unused
  · intro l single
    exact single
  · intro l numbered
    exact Lane.numbered_clean _ l numbered
  · intro l orderly
    exact Lane.orderly_clean _ l orderly
  · exact h.unsignalled
  · intro alive
    refine ⟨alive, ?_⟩
    intro l x own held
    rcases held with inMemory | inTable
    · exact .inl inMemory
    · obtain ⟨row, listed, rfl⟩ := List.mem_map.mp inTable
      refine .inr (List.mem_map_of_mem (List.mem_filter.mpr ⟨listed, ?_⟩))
      simp [own]
  · exact h.extracted
  · exact h.stopped

omit [DecidableEq κ] [DecidableEq ν] in
theorem accounted_joined (s : System Q ν) (h : s.Accounted) (dropping : s.stage = .dropping)
    (stopped : s.stopped = true) : ({ s with stage := .ended }).Accounted := by
  apply accounted_mapLanes id .ended s h h.unused
  · intro l single
    exact single
  · intro l numbered
    exact numbered
  · intro l orderly
    exact orderly
  · intro running
    cases running
  · intro _
    exact ⟨by simp [dropping], fun l x _ held => held⟩
  · intro _
    exact h.extracted (.inl dropping)
  · intro _
    exact (stopped_iff s).mp stopped

omit [DecidableEq κ] [DecidableEq ν] in
theorem accounted_crashed (s : System Q ν) (h : s.Accounted) :
    ({ s.mapLanes Lane.stop with stage := .crashed }).Accounted := by
  apply accounted_mapLanes Lane.stop .crashed s h rfl
  · intro l _
    exact Lane.single_of_none _ rfl
  · intro l numbered
    exact Lane.numbered_stop l numbered
  · intro l _
    exact Lane.orderly_stop l
  · intro running
    cases running
  · intro alive
    exact absurd rfl alive
  · intro closing
    rcases closing with dropping | ended
    · cases dropping
    · cases ended
  · intro ended
    cases ended

theorem accounted_step (retries : config.maxRetries ≠ 0) (s : System Q ν) (e : Event Q ν)
    (h : s.Accounted) (careful : s.Careful e) : (s.step config e).Accounted := by
  cases e with
  | operate op =>
    rw [step]
    split
    · rename_i running
      exact accounted_operate op s h running careful
    · exact h
  | strayed =>
    rw [step]
    split
    · exact ⟨h.unused, h.single, h.numbered, h.orderly, h.unsignalled, h.own, h.kept, h.extracted,
        h.stopped⟩
    · exact h
  | move kind m => exact accounted_move config kind m s h retries careful
  | cleanup expired =>
    rw [step]
    split
    · exact accounted_clean expired s h
    · exact h
  | shutdown =>
    rw [step]
    split
    · rename_i running
      exact accounted_signalled _ s h (.inl rfl) (by simp [running])
    · exact h
  | finish room =>
    rw [step]
    split
    · rename_i last
      obtain ⟨accepts, extracts⟩ := careful last.1 last.2
      exact accounted_closed room _ s h accepts extracts (.inr ⟨last.1, rfl, last.2⟩)
    · exact h
  | dropMonitor room =>
    rw [step]
    split
    · rename_i running
      obtain ⟨accepts, extracts⟩ := careful running
      exact accounted_closed room _ s h accepts extracts (.inl ⟨running, rfl⟩)
    · exact h
  | signal =>
    rw [step]
    split
    · rename_i dropping
      exact accounted_signalled s.stage s h (.inr ⟨dropping, dropping⟩) (by simp [dropping])
    · exact h
  | join =>
    rw [step]
    split
    · rename_i last
      exact accounted_joined s h last.1 last.2
    · exact h
  | crash => exact accounted_crashed s h
  | attach empty db snapshotInterval published =>
    rw [step]
    split
    · exact accounted_attach empty db snapshotInterval published s h
    · exact h

omit [DecidableEq κ] [DecidableEq ν] in
/-- With the senders gone, what they held is acknowledged or saved. -/
theorem Accounted.lossless (s : System Q ν) (h : s.Accounted) (ended : s.stage = .ended) :
    s.Lossless := by
  refine ⟨h.extracted (.inr ended), ?_⟩
  intro x member
  rcases h.kept (by simp [ended]) x member with known | ⟨kind, inMemory | inTable⟩
  · exact .inl known
  · rw [(h.orderly kind).memory_nil _ (h.stopped ended kind)] at inMemory
    cases inMemory
  · cases kind with
    | changesets => exact .inr (List.mem_append_left _ inTable)
    | snapshots => exact .inr (List.mem_append_right _ inTable)

/-- When `shutdown` or `drop` has ended, nothing that was committed, extracted or queued is lost, if
no step lost it. -/
theorem shutdown_lossless (retries : config.maxRetries ≠ 0) (empty db : Database Q ν)
    (snapshotInterval : Nat) (published : Bool) (es : List (Event Q ν))
    (careful : Along (step config) Careful (first empty db snapshotInterval published) es) (n : Nat)
    (ended : (stateAt (step config) (first empty db snapshotInterval published) es n).stage =
      .ended) :
    (stateAt (step config) (first empty db snapshotInterval published) es n).Lossless := by
  have accounted := along_invariant (step config) (fun s e => accounted_step config retries s e) _ _
    (accounted_first empty db snapshotInterval published) (along_take _ _ _ _ n careful)
  exact accounted.lossless _ ended

end System

namespace ShutdownSample

open Sample

/-- Requests of two changesets, sent twice at most. -/
def config : Config := ⟨2, 2⟩

def after (es : List (Event sqlite Nat)) : System sqlite Nat :=
  stateAt (System.step config) process es es.length

def payment : List (Event sqlite Nat) :=
  [.move .changesets .start, .move .snapshots .start, .operate (.write payer (some [0, 20]))]

/-- The payment is extracted, and shutdown flushes it. -/
def flushed : List (Event sqlite Nat) :=
  payment ++ [.operate (.push clear), .move .changesets (.receive false), .shutdown,
    .move .changesets .seeShutdown, .move .changesets (.attempt true true true),
    .move .snapshots .seeShutdown, .finish clear]

theorem shutdown_lossless_flushed :
    Along (System.step config) System.Careful process flushed ∧ (after flushed).stage = .ended ∧
      (after flushed).created.length = 1 ∧ (after flushed).Lossless :=
  ⟨by decide, by decide, by decide,
    System.shutdown_lossless config (by decide) empty accounts 100 true flushed (by decide) 10
      (by decide)⟩

/-- A payment that is not extracted before shutdown. -/
def unextracted : List (Event sqlite Nat) :=
  payment ++ [.shutdown, .move .changesets .seeShutdown, .move .snapshots .seeShutdown,
    .finish clear]

/-- A snapshot of a new schema that is in its channel at shutdown. -/
def queuedSnapshot : List (Event sqlite Nat) :=
  payment ++ [.operate (.alter createIndex), .operate (.push clear), .shutdown,
    .move .changesets .seeShutdown, .move .changesets (.attempt true true true),
    .move .snapshots .seeShutdown, .finish clear]

/-- A changeset that is in the buffer when the closed channel is seen before the signal. -/
def buffered : List (Event sqlite Nat) :=
  payment ++ [.operate (.push clear), .move .changesets (.receive false), .dropMonitor clear,
    .move .changesets .seeClosed, .move .snapshots .seeClosed, .signal, .join]

def label (x : Item Nat (Fin 2) Nat) : Bool × Nat := (x.emission.isChangeset, x.sequence)

/-- The labels of what is created, and of what is acknowledged or saved. -/
def labels (s : System sqlite Nat) : List (Bool × Nat) × List (Bool × Nat) :=
  (s.created.map label, (s.acknowledged ++ s.saved).map label)

theorem lossless_labels (s : System sqlite Nat) (h : s.Lossless) : (labels s).1 ⊆ (labels s).2 := by
  apply List.map_subset
  intro x member
  exact List.mem_append.mpr (h.2 x member)

theorem shutdown_loses :
    ((after unextracted).stage = .ended ∧ labels (after unextracted) = ([(true, 0)], []) ∧
      ¬(after unextracted).Lossless) ∧
    ((after queuedSnapshot).stage = .ended ∧
      labels (after queuedSnapshot) = ([(false, 0), (true, 1)], [(true, 1)]) ∧
      ¬(after queuedSnapshot).Lossless) ∧
    ((after buffered).stage = .ended ∧ labels (after buffered) = ([(true, 0)], []) ∧
      ¬(after buffered).Lossless) := by
  have lost (es : List (Event sqlite Nat)) (found : List (Bool × Nat) × List (Bool × Nat))
      (are : labels (after es) = found) (missing : ¬found.1 ⊆ found.2) : ¬(after es).Lossless := by
    rw [← are] at missing
    exact fun h => missing (lossless_labels _ h)
  refine ⟨⟨by decide, by decide, ?_⟩, ⟨by decide, by decide, ?_⟩,
    by decide, by decide, ?_⟩
  · exact lost unextracted ([(true, 0)], []) (by decide) (by decide)
  · exact lost queuedSnapshot ([(false, 0), (true, 1)], [(true, 1)]) (by decide) (by decide)
  · exact lost buffered ([(true, 0)], []) (by decide) (by decide)

end ShutdownSample

end SyndDB.Client
