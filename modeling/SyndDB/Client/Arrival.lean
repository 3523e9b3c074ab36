import SyndDB.Client.Process
import SyndDB.Client.SchemaOrder

namespace SyndDB.Client

open Changes Run

variable {σ τ κ ν : Type}

/-- The order in which the items of one session were taken. -/
def Item.Precedes (x y : Item σ κ ν) : Prop := x.session = y.session → x.sequence ≤ y.sequence

instance decidablePrecedes (x y : Item σ κ ν) : Decidable (x.Precedes y) :=
  inferInstanceAs (Decidable (x.session = y.session → x.sequence ≤ y.sequence))

theorem Item.precedes_earlier (x y : Item σ κ ν) (h : x.session < y.session) : x.Precedes y := by
  intro same
  omega

namespace Lane

variable (config : Config)

theorem started_finish (l : Lane σ κ ν) (h : l.sender.started = true) :
    l.finish.sender.started = true := by
  rw [finish]
  split
  · rfl
  · exact h

/-- The rows are read once. -/
theorem started_move (kind : Kind) (l : Lane σ κ ν) (m : Move) (h : l.sender.started = true) :
    (l.move config kind m).sender.started = true := by
  have next := move_next config kind l m
  generalize l.move config kind m = l' at next ⊢
  cases next with
  | same quiet => exact h
  | ended reason => rfl
  | loaded unread => rfl
  | retrying row rest request failed => exact h
  | buffered x rest own waits channel => exact h
  | flushed x rest own waits channel => exact h
  | taken x rest own waits channel => exact h
  | drained own waits signal => exact h
  | again r unknown request => exact h
  | delivered r request own => exact started_finish _ h
  | recovered r id request row => exact started_finish _ h
  | saved r unknown request own => exact started_finish _ h
  | dropped r id unknown request row => exact started_finish _ h

/-- The memory is of this session and in order; the rows that are retried are of earlier ones. -/
structure Current (session : Nat) (l : Lane σ κ ν) : Prop where
  fresh : l.Fresh
  single : l.Single
  ordered : l.memory.Pairwise Item.Precedes
  own : ∀ x ∈ l.memory, x.session = session
  earlier : ∀ row ∈ l.loans, row.2.session < session
  unread : l.sender.started = false → ∀ row ∈ l.table, row.2.session < session

theorem current_move (kind : Kind) (session : Nat) (l : Lane σ κ ν) (m : Move)
    (unused : kind = .snapshots → l.sender.buffer = []) (current : l.Current session) :
    (l.move config kind m).Current session := by
  have fresh := fresh_move config kind l m current.fresh
  have single := single_move config kind l m current.single
  have started := started_move config kind l m
  have memory := memory_move config kind l m unused
  have rows := rows_move config kind l m unused
  generalize l.move config kind m = l' at fresh single started memory rows ⊢
  have before (unread : l'.sender.started = false) : l.sender.started = false := by
    by_contra read
    rw [started (by simpa using read)] at unread
    cases unread
  have ordered := current.ordered.sublist memory
  have own : ∀ x ∈ l'.memory, x.session = session := by
    intro x member
    exact current.own x (memory.subset member)
  have earlier (loans : l'.loans.Sublist l.loans) : ∀ row ∈ l'.loans, row.2.session < session := by
    intro row listed
    exact current.earlier row (loans.subset listed)
  cases rows with
  | loaded table next loans unread =>
    have none : l.retried = [] := by simp [retried, (current.fresh unread).1]
    rw [none, List.nil_append] at loans
    refine ⟨fresh, single, ordered, own, ?_, ?_⟩
    · intro row listed
      exact current.unread unread row (loans.subset listed)
    · intro _ row listed
      rw [table] at listed
      exact current.unread unread row listed
  | added r request new table next loans =>
    refine ⟨fresh, single, ordered, own, earlier loans, ?_⟩
    -- with a request the rows have been read
    intro unread
    rw [started (current.fresh.started l r request)] at unread
    cases unread
  | fewer table next loans =>
    refine ⟨fresh, single, ordered, own, earlier loans, ?_⟩
    intro unread row listed
    exact current.unread (before unread) row (table.subset listed)

/-- The items of a request are in order, and before those that are queued behind it. -/
theorem Current.request (session : Nat) (l : Lane σ κ ν) (current : l.Current session)
    (r : Request σ κ ν) (request : l.sender.request = some r) :
    r.items.Pairwise Item.Precedes ∧
      ∀ x ∈ r.items, ∀ y ∈ l.sender.buffer ++ l.channel, x.Precedes y := by
  cases row : r.row with
  | none =>
    have ordered := current.ordered
    rw [(memory_request l r request row).1, List.pairwise_append] at ordered
    exact ⟨ordered.1, ordered.2.2⟩
  | some id =>
    obtain ⟨memory, loans⟩ := loans_request l r id request row
    obtain ⟨x, items⟩ := List.length_eq_one_iff.mp (current.single r request (by simp [row]))
    refine ⟨by simp [items], ?_⟩
    intro x member y queued
    apply Item.precedes_earlier
    have old : x.session < session := by
      apply current.earlier (id, x)
      rw [loans]
      exact List.mem_append_left _ (List.mem_map_of_mem member)
    have new : y.session = session := by
      apply current.own
      rw [memory]
      exact queued
    omega

/-- An acknowledged request is gone, and nothing is added to what was behind it. -/
theorem acknowledged_move (kind : Kind) (l : Lane σ κ ν) (removed : Bool) (r : Request σ κ ν)
    (unused : kind = .snapshots → l.sender.buffer = []) (request : l.sender.request = some r) :
    (l.move config kind (.attempt true true removed)).memory.Sublist
      (l.sender.buffer ++ l.channel) ∧
      (l.move config kind (.attempt true true removed)).table.Sublist l.table ∧
      (l.move config kind (.attempt true true removed)).loans.Sublist l.loans := by
  have moved := move_cases config kind l (.attempt true true removed) unused
  generalize l.move config kind (.attempt true true removed) = l' at moved ⊢
  cases moved with
  | passed memory loans table next quiet =>
    rcases quiet with free | other
    · rw [free] at request
      cases request
    · exact absurd rfl (other removed)
  | delivered r' request' own memory loans table next =>
    rw [memory, table, loans]
    exact ⟨left_sublist _ _, List.Sublist.refl _, left_sublist _ _⟩
  | recovered r' id request' row memory loans table next =>
    obtain ⟨queued, lent⟩ := loans_request l r' id request' row
    rw [memory, table, loans, queued, lent]
    refine ⟨left_sublist _ _, ?_, (left_sublist _ _).trans (List.sublist_append_right _ _)⟩
    split
    · exact List.filter_sublist
    · exact List.Sublist.refl _
  | saved r' unknown request' own memory loans table next => cases unknown
  | dropped r' id unknown request' row memory loans table next => cases unknown
  | stopped memory loans table next reason =>
    exact absurd rfl (reason.silent config kind l _ true true removed)

/-- A request that arrives is before everything the sender still holds, if it is before the rows and
stays with the sender only when all its numbers are the same. -/
theorem Current.arrival (kind : Kind) (session : Nat) (l : Lane σ κ ν) (current : l.Current session)
    (unused : kind = .snapshots → l.sender.buffer = []) (r : Request σ κ ν)
    (request : l.sender.request = some r) (acknowledged removed : Bool) (x : Item σ κ ν)
    (member : x ∈ r.items) (rows : ∀ y ∈ l.recorded, x.Precedes y)
    (lost : acknowledged = false → ∀ y ∈ r.items, x.Precedes y) :
    ∀ y ∈ (l.move config kind (.attempt true acknowledged removed)).stock, x.Precedes y := by
  have behind := (current.request session l r request).2 x member
  intro y held
  cases acknowledged with
  | false =>
    have before := stock_move config kind l _ unused held
    rw [stock, List.mem_append] at before
    rcases before with inMemory | inRows
    · cases row : r.row with
      | none =>
        rw [(memory_request l r request row).1, List.mem_append] at inMemory
        rcases inMemory with again | queued
        · exact lost rfl y again
        · exact behind y queued
      | some id =>
        rw [(loans_request l r id request row).1] at inMemory
        exact behind y inMemory
    · exact rows y inRows
  | true =>
    obtain ⟨memory, table, loans⟩ := acknowledged_move config kind l removed r unused request
    rw [mem_stock] at held
    rcases held with inMemory | inTable | inLoans
    · exact behind y (memory.subset inMemory)
    · exact rows y (List.mem_append_left _ (List.map_subset _ table.subset inTable))
    · exact rows y (List.mem_append_right _ (List.map_subset _ loans.subset inLoans))

theorem Current.queue (session : Nat) (l : Lane σ κ ν) (current : l.Current session)
    (items : List (Item σ κ ν)) (own : ∀ x ∈ items, x.session = session)
    (ordered : items.Pairwise Item.Precedes)
    (later : ∀ x ∈ l.memory, ∀ y ∈ items, x.Precedes y) : (l.queue items).Current session := by
  refine ⟨current.fresh, current.single, ?_, ?_, current.earlier, current.unread⟩
  · rw [queue_memory, List.pairwise_append]
    exact ⟨current.ordered, ordered, later⟩
  · rw [queue_memory]
    intro x member
    rcases List.mem_append.mp member with old | new
    · exact current.own x old
    · exact own x new

theorem Current.signalled (session : Nat) (l : Lane σ κ ν) (current : l.Current session) :
    l.signalled.Current session :=
  ⟨current.fresh, current.single, current.ordered, current.own, current.earlier, current.unread⟩

theorem Current.close (session : Nat) (l : Lane σ κ ν) (current : l.Current session) :
    l.close.Current session :=
  ⟨current.fresh, current.single, current.ordered, current.own, current.earlier, current.unread⟩

theorem Current.clean (session : Nat) (l : Lane σ κ ν) (current : l.Current session)
    (expired : Item σ κ ν → Bool) : (l.clean expired).Current session := by
  refine ⟨current.fresh, current.single, current.ordered, current.own, current.earlier, ?_⟩
  intro unread row listed
  exact current.unread unread row (List.filter_sublist.subset listed)

theorem current_stop (session : Nat) (l : Lane σ κ ν) : l.stop.Current session := by
  refine ⟨fresh_of_started _ rfl, single_of_none _ rfl, List.Pairwise.nil, ?_, ?_, ?_⟩
  · intro x member
    cases member
  · intro row listed
    cases listed
  · intro unread
    cases unread

/-- In the next session every row is an earlier one. -/
theorem current_restart (session : Nat) (l : Lane σ κ ν)
    (rows : ∀ row ∈ l.table, row.2.session < session) :
    l.restart.Current session := by
  refine ⟨?_, single_of_none _ rfl, List.Pairwise.nil, ?_, ?_, ?_⟩
  · intro _
    exact ⟨rfl, rfl⟩
  · intro x member
    cases member
  · intro row listed
    cases listed
  · intro _
    exact rows

end Lane

def Kind.other : Kind → Kind
  | .changesets => .snapshots
  | .snapshots => .changesets

def SessionState.Operation.isPush {Q : Sqlite σ τ κ} : SessionState.Operation Q ν → Bool
  | .push _ => true
  | _ => false

variable {Q : Sqlite σ τ κ} [DecidableEq κ] [DecidableEq ν]

namespace System

/-- What the two senders hold. -/
def held (s : System Q ν) : List (Item σ κ ν) := s.changesets.stock ++ s.snapshots.stock

/-- Nothing that was taken before is left with a sender. -/
def CaughtUp (s : System Q ν) : Prop :=
  ∀ y ∈ s.held, y.session = s.session → s.client.sequence ≤ y.sequence

/-- A request may arrive: nothing before it is with the other sender or in a row of its own, and if
the response is lost, it has one number only. -/
def MayArrive (s : System Q ν) (kind : Kind) (acknowledged : Bool) (r : Request σ κ ν) : Prop :=
  ∀ x ∈ r.items, (∀ y ∈ (s.lane kind.other).stock ++ (s.lane kind).recorded, x.Precedes y) ∧
    (acknowledged = false → ∀ y ∈ r.items, x.Precedes y)

/-- Nothing arrives before what it has to follow. -/
def Timely (s : System Q ν) : Event Q ν → Prop
  | .operate op =>
      s.stage = .running → op.isPush = false → (s.published op).isEmpty = false → s.CaughtUp
  | .strayed => s.stage = .running → s.client.transaction.isNone → s.CaughtUp
  | .move kind (.attempt true acknowledged _) =>
      ∀ r ∈ (s.lane kind).sender.request, s.MayArrive kind acknowledged r
  | _ => True

instance decidableCaughtUp (s : System Q ν) : Decidable s.CaughtUp :=
  inferInstanceAs (Decidable (∀ y ∈ s.held, y.session = s.session → s.client.sequence ≤ y.sequence))

instance decidableMayArrive (s : System Q ν) (kind : Kind) (acknowledged : Bool)
    (r : Request σ κ ν) :
    Decidable (s.MayArrive kind acknowledged r) :=
  inferInstanceAs (Decidable (∀ x ∈ r.items,
    (∀ y ∈ (s.lane kind.other).stock ++ (s.lane kind).recorded, x.Precedes y) ∧
      (acknowledged = false → ∀ y ∈ r.items, x.Precedes y)))

instance decidableTimely (s : System Q ν) (e : Event Q ν) : Decidable (s.Timely e) :=
  match e with
  | .operate op => inferInstanceAs (Decidable
      (s.stage = .running → op.isPush = false → (s.published op).isEmpty = false → s.CaughtUp))
  | .strayed => inferInstanceAs (Decidable
      (s.stage = .running → s.client.transaction.isNone → s.CaughtUp))
  | .move kind (.attempt true acknowledged _) => inferInstanceAs (Decidable
      (∀ r ∈ (s.lane kind).sender.request, s.MayArrive kind acknowledged r))
  | .move _ (.attempt false _ _) => isTrue trivial
  | .move _ .start => isTrue trivial
  | .move _ .retryNext => isTrue trivial
  | .move _ (.receive _) => isTrue trivial
  | .move _ .seeClosed => isTrue trivial
  | .move _ .seeShutdown => isTrue trivial
  | .cleanup _ => isTrue trivial
  | .shutdown => isTrue trivial
  | .finish _ => isTrue trivial
  | .dropMonitor _ => isTrue trivial
  | .signal => isTrue trivial
  | .join => isTrue trivial
  | .crash => isTrue trivial
  | .attach _ _ _ _ => isTrue trivial

/-- An item of an earlier session, or one of this session with a number that has been given. -/
def Known (s : System Q ν) (x : Item σ κ ν) : Prop :=
  x.session < s.session ∨ x.session = s.session ∧ x.sequence ≤ s.client.sequence

/-- What has arrived is in order, and before everything that the senders hold. -/
structure InOrder (s : System Q ν) : Prop where
  changesets : s.changesets.Current s.session
  snapshots : s.snapshots.Current s.session
  unused : s.snapshots.sender.buffer = []
  arrived : s.log.flatten.Pairwise Item.Precedes
  waiting : ∀ x ∈ s.log.flatten, ∀ y ∈ s.held, x.Precedes y
  known : ∀ x ∈ s.log.flatten ++ s.held, s.Known x

omit [DecidableEq κ] [DecidableEq ν] in
/-- Nothing arrives, and nothing new is held. -/
theorem inOrder_of_held (s s' : System Q ν) (h : s.InOrder)
    (changesets : s'.changesets.Current s'.session) (snapshots : s'.snapshots.Current s'.session)
    (unused : s'.snapshots.sender.buffer = []) (log : s'.log = s.log) (held : s'.held ⊆ s.held)
    (known : ∀ x, s.Known x → s'.Known x) : s'.InOrder := by
  refine ⟨changesets, snapshots, unused, ?_, ?_, ?_⟩
  · rw [log]
    exact h.arrived
  · rw [log]
    intro x arrived y member
    exact h.waiting x arrived y (held member)
  · rw [log]
    intro x member
    apply known x (h.known x _)
    rcases List.mem_append.mp member with arrived | member
    · exact List.mem_append_left _ arrived
    · exact List.mem_append_right _ (held member)

omit [DecidableEq κ] [DecidableEq ν] in
/-- Snapshots of the present state are published past the channels. -/
theorem inOrder_published (s s' : System Q ν) (h : s.InOrder) (more : List (List (Item σ κ ν)))
    (log : s'.log = s.log ++ more)
    (items : ∀ x ∈ more.flatten, x.session = s.session ∧ x.sequence = s.client.sequence)
    (caughtUp : more.flatten ≠ [] → s.CaughtUp) (changesets : s'.changesets = s.changesets)
    (snapshots : s'.snapshots = s.snapshots) (session : s'.session = s.session)
    (sequence : s'.client.sequence = s.client.sequence) : s'.InOrder := by
  have held : s'.held = s.held := by rw [held, changesets, snapshots, held]
  have before (x : Item σ κ ν) (known : s.Known x) (y : Item σ κ ν) (new : y ∈ more.flatten) :
      x.Precedes y := by
    obtain ⟨own, number⟩ := items y new
    intro same
    rcases known with earlier | ⟨-, number'⟩
    · omega
    · omega
  have known (x : Item σ κ ν) (new : x ∈ more.flatten) : s.Known x := by
    obtain ⟨own, number⟩ := items x new
    exact .inr ⟨own, Nat.le_of_eq number⟩
  refine ⟨?_, ?_, ?_, ?_, ?_, ?_⟩
  · rw [changesets, session]
    exact h.changesets
  · rw [snapshots, session]
    exact h.snapshots
  · rw [snapshots]
    exact h.unused
  · rw [log, List.flatten_append, List.pairwise_append]
    refine ⟨h.arrived, ?_, ?_⟩
    · apply List.pairwise_of_forall_mem_list
      intro x new y new'
      exact before x (known x new) y new'
    · intro x arrived y new
      exact before x (h.known x (List.mem_append_left _ arrived)) y new
  · rw [log, held, List.flatten_append]
    intro x member y waiting
    rcases List.mem_append.mp member with arrived | new
    · exact h.waiting x arrived y waiting
    · obtain ⟨own, number⟩ := items x new
      have ready := caughtUp (List.ne_nil_of_mem new) y waiting
      intro same
      have later := ready (by omega)
      omega
  · rw [log, held, List.flatten_append]
    intro x member
    rw [Known, session, sequence]
    simp only [List.mem_append] at member
    rcases member with (arrived | new) | waiting
    · exact h.known x (List.mem_append_left _ arrived)
    · exact known x new
    · exact h.known x (List.mem_append_right _ waiting)

omit [DecidableEq κ] in
theorem inOrder_extract (room : SessionState.Room) (s : System Q ν) (h : s.InOrder) :
    (s.extract room).InOrder := by
  have numbers := queued_numbers room s
  have forward := extract_forward room s
  have ordered := queued_ordered room s
  have later (x : Item σ κ ν) (known : s.Known x) (y : Item σ κ ν) (new : y ∈ s.queued room) :
      x.Precedes y := by
    have bounds := numbers y new
    intro same
    rcases known with earlier | ⟨-, number⟩
    · omega
    · omega
  have old (x : Item σ κ ν) (known : s.Known x) : (s.extract room).Known x := by
    rcases known with earlier | ⟨own, number⟩
    · exact .inl earlier
    · exact .inr ⟨own, by omega⟩
  have queue (p : Item σ κ ν → Bool) (l : Lane σ κ ν) (current : l.Current s.session)
      (part : l.stock ⊆ s.held) : (l.queue ((s.queued room).filter p)).Current s.session := by
    apply current.queue
    · intro x member
      exact (numbers x (List.mem_of_mem_filter member)).1
    · exact ordered.sublist List.filter_sublist
    · intro x member y new
      apply later x (h.known x (List.mem_append_right _ (part _))) y (List.mem_of_mem_filter new)
      exact (Lane.mem_stock l x).mpr (.inl member)
  have held (x : Item σ κ ν) (member : x ∈ (s.extract room).held) :
      x ∈ s.held ∨ x ∈ s.queued room := by
    rcases List.mem_append.mp member with first | second
    · rcases Lane.mem_queue_stock _ _ x first with before | new
      · exact .inl (List.mem_append_left _ before)
      · exact .inr (List.mem_of_mem_filter new)
    · rcases Lane.mem_queue_stock _ _ x second with before | new
      · exact .inl (List.mem_append_right _ before)
      · exact .inr (List.mem_of_mem_filter new)
  refine ⟨queue _ _ h.changesets (List.subset_append_left _ _),
    queue _ _ h.snapshots (List.subset_append_right _ _), h.unused, h.arrived, ?_, ?_⟩
  · intro x arrived y member
    rcases held y member with before | new
    · exact h.waiting x arrived y before
    · exact later x (h.known x (List.mem_append_left _ arrived)) y new
  · intro x member
    rcases List.mem_append.mp member with arrived | member
    · exact old x (h.known x (List.mem_append_left _ arrived))
    · rcases held x member with before | new
      · exact old x (h.known x (List.mem_append_right _ before))
      · have bounds := numbers x new
        exact .inr ⟨bounds.1, bounds.2.2.1⟩

variable (config : Config)

omit [DecidableEq κ] [DecidableEq ν] in
theorem InOrder.lane (s : System Q ν) (h : s.InOrder) (kind : Kind) :
    (s.lane kind).Current s.session ∧ (kind = .snapshots → (s.lane kind).sender.buffer = []) := by
  cases kind with
  | changesets => exact ⟨h.changesets, by simp⟩
  | snapshots => exact ⟨h.snapshots, fun _ => h.unused⟩

omit [DecidableEq κ] [DecidableEq ν] in
theorem mem_held (s : System Q ν) (kind : Kind) (x : Item σ κ ν) :
    x ∈ s.held ↔ x ∈ (s.lane kind).stock ∨ x ∈ (s.lane kind.other).stock := by
  rw [held, List.mem_append]
  cases kind with
  | changesets => exact Iff.rfl
  | snapshots => exact or_comm

omit [DecidableEq κ] [DecidableEq ν] in
theorem mem_held_move (kind : Kind) (m : Move) (s : System Q ν) (x : Item σ κ ν) :
    x ∈ (s.move config kind m).held ↔
      x ∈ ((s.lane kind).move config kind m).stock ∨ x ∈ (s.lane kind.other).stock := by
  rw [mem_held _ kind]
  cases kind with
  | changesets => exact Iff.rfl
  | snapshots => exact Iff.rfl

theorem inOrder_move (kind : Kind) (m : Move) (s : System Q ν) (h : s.InOrder)
    (timely : s.Timely (.move kind m)) : (s.move config kind m).InOrder := by
  obtain ⟨current, unused⟩ := h.lane s kind
  have moved := Lane.current_move config kind s.session (s.lane kind) m unused current
  have fewer := Lane.stock_move config kind (s.lane kind) m unused
  have held : (s.move config kind m).held ⊆ s.held := by
    intro x member
    rw [mem_held_move] at member
    rw [mem_held s kind]
    rcases member with own | other
    · exact .inl (fewer own)
    · exact .inr other
  -- what arrives was held, and what is held still comes after it
  have arrival : ((s.lane kind).arrivals m).flatten.Pairwise Item.Precedes ∧
      ((s.lane kind).arrivals m).flatten ⊆ s.held ∧
      ∀ x ∈ ((s.lane kind).arrivals m).flatten, ∀ y ∈ (s.move config kind m).held,
      x.Precedes y := by
    rcases Lane.arrivals_cases (s.lane kind) m with
      nothing | ⟨r, acknowledged, removed, request, rfl, arrived⟩
    · simp [nothing]
    · have allowed := timely r request
      rw [arrived, List.flatten_cons, List.flatten_nil, List.append_nil]
      refine ⟨(current.request s.session _ r request).1, ?_, ?_⟩
      · intro x member
        rw [mem_held s kind]
        exact .inl (Lane.request_stock _ r request member)
      · intro x member y waiting
        obtain ⟨others, lost⟩ := allowed x member
        rw [mem_held_move] at waiting
        rcases waiting with own | other
        · exact current.arrival config kind s.session _ unused r request acknowledged
            removed x member (fun y rows => others y (List.mem_append_right _ rows)) lost y own
        · exact others y (List.mem_append_left _ other)
  have log : (s.move config kind m).log.flatten =
      s.log.flatten ++ ((s.lane kind).arrivals m).flatten := List.flatten_append
  obtain ⟨sorted, before, behind⟩ := arrival
  have changesets : (s.move config kind m).changesets.Current s.session := by
    cases kind with
    | changesets => exact moved
    | snapshots => exact h.changesets
  have snapshots : (s.move config kind m).snapshots.Current s.session := by
    cases kind with
    | changesets => exact h.snapshots
    | snapshots => exact moved
  have empty : (s.move config kind m).snapshots.sender.buffer = [] := by
    cases kind with
    | changesets => exact h.unused
    | snapshots => exact Lane.buffer_move config s.snapshots m h.unused
  obtain ⟨session, client, -⟩ := move_frame config kind m s
  refine ⟨by rw [session]; exact changesets, by rw [session]; exact snapshots, empty, ?_, ?_, ?_⟩
  · rw [log, List.pairwise_append]
    refine ⟨h.arrived, sorted, ?_⟩
    intro x old y new
    exact h.waiting x old y (before new)
  · rw [log]
    intro x member y waiting
    rcases List.mem_append.mp member with old | new
    · exact h.waiting x old y (held waiting)
    · exact behind x new y waiting
  · rw [log]
    intro x member
    rw [Known, session, client]
    simp only [List.mem_append] at member
    rcases member with (old | new) | waiting
    · exact h.known x (List.mem_append_left _ old)
    · exact h.known x (List.mem_append_right _ (before new))
    · exact h.known x (List.mem_append_right _ (held waiting))

theorem inOrder_operate (op : SessionState.Operation Q ν) (s : System Q ν) (h : s.InOrder)
    (caughtUp : op.isPush = false → (s.published op).isEmpty = false → s.CaughtUp) :
    (s.operate op).InOrder := by
  by_cases push : ∃ room, op = .push room
  · obtain ⟨room, rfl⟩ := push
    exact inOrder_extract room s h
  · have other : ∀ room, op ≠ .push room := by simpa using push
    have unpushed : op.isPush = false := by
      rw [SessionState.Operation.isPush]
      exact other
    have flat : ((s.published op).map fun x => [x]).flatten = s.published op := by
      simp [← List.flatMap_def]
    rw [operate_other s op other]
    refine inOrder_published s _ h ((s.published op).map fun x => [x]) rfl ?_ ?_ rfl rfl rfl
      (SessionState.step_publishes s.client op other).1
    · rw [flat]
      intro x member
      have numbers := published_numbers s op other x member
      exact ⟨numbers.1, numbers.2.1⟩
    · rw [flat]
      intro some
      exact caughtUp unpushed (by simpa using some)

omit [DecidableEq κ] [DecidableEq ν] in
theorem inOrder_attach (empty db : Database Q ν) (snapshotInterval : Nat) (published : Bool)
    (s : System Q ν) (h : s.InOrder) : (s.attach empty db snapshotInterval published).InOrder := by
  obtain ⟨zero, snapshots⟩ := SessionState.attach_publishes empty db snapshotInterval published
  -- the client is there and has published nothing yet
  let attached : System Q ν := { s.attach empty db snapshotInterval published with log := s.log }
  have past (x : Item σ κ ν) (known : s.Known x) : x.session < s.session + 1 := by
    rcases known with earlier | ⟨own, -⟩
    · omega
    · omega
  have rows (l : Lane σ κ ν) (part : l.stock ⊆ s.held) (row : Nat × Item σ κ ν)
      (listed : row ∈ l.table) :
      row.2.session < s.session + 1 := by
    apply past row.2 (h.known row.2 (List.mem_append_right _ (part _)))
    exact (Lane.mem_stock l row.2).mpr (.inr (.inl (List.mem_map_of_mem listed)))
  have fewer : attached.held ⊆ s.held := by
    intro x member
    rcases List.mem_append.mp member with first | second
    · exact List.mem_append_left _ (Lane.restart_stock _ first)
    · exact List.mem_append_right _ (Lane.restart_stock _ second)
  have before : attached.InOrder := by
    apply inOrder_of_held s attached h
    · exact Lane.current_restart _ _ (rows _ (List.subset_append_left _ _))
    · exact Lane.current_restart _ _ (rows _ (List.subset_append_right _ _))
    · rfl
    · rfl
    · exact fewer
    · intro x known
      exact .inl (past x known)
  refine inOrder_published attached _ before
    ((SessionState.attach empty db snapshotInterval published).emitted.map
      fun e => [⟨s.session + 1, e⟩]) rfl ?_ ?_ rfl rfl rfl rfl
  · intro x member
    obtain ⟨message, sent, member⟩ := List.mem_flatten.mp member
    obtain ⟨e, emitted, rfl⟩ := List.mem_map.mp sent
    rw [List.mem_singleton.mp member]
    exact ⟨rfl, (snapshots e emitted).1.trans zero.symm⟩
  · intro _ y waiting own
    have old := past y (h.known y (List.mem_append_right _ (fewer waiting)))
    have new : y.session = s.session + 1 := own
    omega

theorem inOrder_step (s : System Q ν) (e : Event Q ν) (h : s.InOrder) (timely : s.Timely e) :
    (s.step config e).InOrder := by
  have signalled : (s.mapLanes Lane.signalled).InOrder :=
    ⟨h.changesets.signalled, h.snapshots.signalled, h.unused, h.arrived, h.waiting, h.known⟩
  have closed (room : SessionState.Room) : ((s.extract room).mapLanes Lane.close).InOrder := by
    have extracted := inOrder_extract room s h
    exact ⟨extracted.changesets.close, extracted.snapshots.close, extracted.unused,
      extracted.arrived, extracted.waiting, extracted.known⟩
  have staged (s : System Q ν) (stage : Stage) (h : s.InOrder) :
    ({ s with stage := stage }).InOrder :=
    ⟨h.changesets, h.snapshots, h.unused, h.arrived, h.waiting, h.known⟩
  have fewer (f : Lane σ κ ν → Lane σ κ ν) (less : ∀ l, (f l).stock ⊆ l.stock) :
      (s.mapLanes f).held ⊆ s.held := by
    intro x member
    rcases List.mem_append.mp member with first | second
    · exact List.mem_append_left _ (less _ first)
    · exact List.mem_append_right _ (less _ second)
  cases e with
  | operate op =>
    rw [step]
    split
    · rename_i running
      exact inOrder_operate op s h (timely running)
    · exact h
  | strayed =>
    rw [step]
    split
    · rename_i possible
      exact inOrder_published s _ h
        [[⟨s.session, .snapshot .request s.client.sequence s.client.db.toImage⟩]] rfl
        (by simp [Item.sequence, Emission.sequence]) (fun _ => timely possible.1 possible.2)
        rfl rfl rfl rfl
    · exact h
  | move kind m => exact inOrder_move config kind m s h timely
  | cleanup expired =>
    rw [step]
    split
    · refine inOrder_of_held s _ h ?_ ?_ h.unused rfl ?_ (fun x known => known)
      · exact h.changesets.clean _ _ fun x => expired x && decide (x.session < s.session)
      · exact h.snapshots.clean _ _ fun x => expired x && decide (x.session < s.session)
      · exact fewer _ (Lane.clean_stock _)
    · exact h
  | shutdown =>
    rw [step]
    split
    · exact staged _ _ signalled
    · exact h
  | finish room =>
    rw [step]
    split
    · exact staged _ _ (closed room)
    · exact h
  | dropMonitor room =>
    rw [step]
    split
    · exact staged _ _ (closed room)
    · exact h
  | signal =>
    rw [step]
    split
    · exact signalled
    · exact h
  | join =>
    rw [step]
    split
    · exact staged _ _ h
    · exact h
  | crash =>
    exact inOrder_of_held s _ h (Lane.current_stop _ _) (Lane.current_stop _ _) rfl rfl
      (fewer _ Lane.stop_stock) (fun x known => known)
  | attach empty db snapshotInterval published =>
    rw [step]
    split
    · exact inOrder_attach empty db snapshotInterval published s h
    · exact h

omit [DecidableEq κ] [DecidableEq ν] in
theorem inOrder_first (empty db : Database Q ν) (snapshotInterval : Nat) (published : Bool) :
    (first empty db snapshotInterval published).InOrder := by
  obtain ⟨zero, snapshots⟩ := SessionState.attach_publishes empty db snapshotInterval published
  let attached : System Q ν := { first empty db snapshotInterval published with log := [] }
  have restarted : (⟨[], false, false, .new, [], 0⟩ : Lane σ κ ν).Current 0 :=
    Lane.current_restart 0 ⟨[], false, false, .new, [], 0⟩ (by simp)
  have before : attached.InOrder := by
    refine ⟨restarted, restarted, rfl, List.Pairwise.nil, ?_, ?_⟩
    · intro x arrived
      cases arrived
    · intro x member
      cases member
  refine inOrder_published attached _ before
    ((SessionState.attach empty db snapshotInterval published).emitted.map
      fun e => [⟨0, e⟩]) rfl ?_ ?_ rfl rfl rfl rfl
  · intro x member
    obtain ⟨message, sent, member⟩ := List.mem_flatten.mp member
    obtain ⟨e, emitted, rfl⟩ := List.mem_map.mp sent
    rw [List.mem_singleton.mp member]
    exact ⟨rfl, (snapshots e emitted).1.trans zero.symm⟩
  · intro _ y waiting
    cases waiting

/-- While nothing arrives before what it has to follow, the items of every session arrive in the
order of their numbers. -/
theorem arrivals_ordered (empty db : Database Q ν) (snapshotInterval : Nat) (published : Bool)
    (es : List (Event Q ν))
    (timely : Along (step config) Timely (first empty db snapshotInterval published) es) (n : Nat) :
    (stateAt (step config) (first empty db snapshotInterval published) es n).log.flatten.Pairwise
      Item.Precedes := by
  have ordered := along_invariant (step config) (fun s e => inOrder_step config s e) _ _
    (inOrder_first empty db snapshotInterval published) (along_take _ _ _ _ n timely)
  exact ordered.arrived

end System

namespace OrderSample

open Sample

/-- An index is created and a payment made; the push takes a snapshot and a changeset. -/
def indexed : List (Event sqlite Nat) :=
  [.operate (.alter createIndex), .operate (.write payer (some [0, 20])), .operate (.push clear)]

/-- A sender takes its first item and sends it. -/
def sends (kind : Kind) : List (Event sqlite Nat) :=
  [.move kind .start, .move kind (.receive false), .move kind (.attempt true true true)]

/-- The items of the log: whether they are changesets, and their numbers. -/
def arrivals (s : System sqlite Nat) : List (Bool × Nat) :=
  s.log.flatten.map fun x => (x.emission.isChangeset, x.sequence)

theorem arrivals_ordered_snapshot_first :
    Along (System.step config) System.Timely process
      (indexed ++ sends .snapshots ++ sends .changesets) ∧
      arrivals (stateAt (System.step config) process
        (indexed ++ sends .snapshots ++ sends .changesets) 9) =
          [(false, 0), (false, 0), (true, 1)] ∧
      (stateAt (System.step config) process
        (indexed ++ sends .snapshots ++ sends .changesets) 9).log.flatten.Pairwise Item.Precedes :=
  ⟨by decide, by decide, System.arrivals_ordered config empty accounts 100 true
    (indexed ++ sends .snapshots ++ sends .changesets) (by decide) 9⟩

/-- The changeset for the new schema arrives before the snapshot of that schema. -/
theorem changeset_overtakes_snapshot :
    arrivals (stateAt (System.step config) process
        (indexed ++ sends .changesets ++ sends .snapshots) 9) =
        [(false, 0), (true, 1), (false, 0)] ∧
      ¬(stateAt (System.step config) process
        (indexed ++ sends .changesets ++ sends .snapshots) 9).log.flatten.Pairwise
          Item.Precedes := by
  decide

end OrderSample

end SyndDB.Client
