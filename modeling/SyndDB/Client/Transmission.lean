import SyndDB.Client.Arrival
import SyndDB.Client.Duplicates
import SyndDB.Framework.Queues

namespace SyndDB.Client

open Changes Run Queues

variable {σ τ κ ν : Type} {Q : Sqlite σ τ κ} [DecidableEq κ] [DecidableEq ν]

namespace SessionState

variable (A : ChangesetApply σ κ ν) (empty : Database Q ν) (H : Database Q ν → Prop)

/-- However much of what was handed over is replayed, the result is a database of the client. -/
structure Traced (c : SessionState Q ν) : Prop where
  consistent : c.Consistent A empty
  past : ∀ es, es <+: c.emitted → es ≠ [] →
    ∃ d, H d ∧ ∃ start, replay Q A (empty.toImage, 0) es = .ok (d.toImage, start)

variable {A empty H} {c d : SessionState Q ν}

theorem Traced.mono {H' : Database Q ν → Prop} (h : c.Traced A empty H)
    (more : ∀ db, H db → H' db) :
    c.Traced A empty H' := by
  refine ⟨h.consistent, ?_⟩
  intro es before some
  obtain ⟨db, then', replayed⟩ := h.past es before some
  exact ⟨db, more db then', replayed⟩

theorem Traced.silent (h : c.Traced A empty H) (consistent : d.Consistent A empty)
    (emitted : d.emitted = c.emitted) : d.Traced A empty H := by
  refine ⟨consistent, ?_⟩
  rw [emitted]
  exact h.past

/-- Nothing is handed over. -/
theorem Traced.quiet (h : c.Traced A empty H) (nodup : (d.session.map Prod.fst).Nodup)
    (sequence : c.sequence ≤ d.sequence) (emitted : d.emitted = c.emitted)
    (lastEmitted : d.lastEmitted = c.lastEmitted) : d.Traced A empty H :=
  h.silent (consistent_silent empty c d h.consistent nodup sequence emitted lastEmitted) emitted

theorem Traced.emit {e : Emission σ κ ν} (h : c.Traced A empty H)
    (consistent : d.Consistent A empty)
    (emitted : d.emitted = c.emitted ++ [e]) (now : H d.lastEmitted) : d.Traced A empty H := by
  refine ⟨consistent, ?_⟩
  intro es before some
  rw [emitted, List.prefix_concat_iff] at before
  rcases before with whole | earlier
  · obtain ⟨start, -, replayed⟩ := consistent.reproduced
    rw [emitted, ← whole] at replayed
    exact ⟨d.lastEmitted, now, start, replayed⟩
  · exact h.past es earlier some

theorem Traced.emitSnapshot (h : c.Traced A empty H) (route : Route) (now : H c.db) :
    (c.emitSnapshot route).Traced A empty H :=
  h.emit (consistent_emitSnapshot empty c route h.consistent) rfl now

theorem Traced.detectSchemaChange (h : c.Traced A empty H) (sent : Bool) (now : H c.db) :
    (c.detectSchemaChange sent).Traced A empty H := by
  rw [SessionState.detectSchemaChange]
  split
  · exact h
  · split
    · exact (h.emitSnapshot .channel now).quiet h.consistent.nodup (Nat.le_succ _) rfl rfl
    · exact h.quiet h.consistent.nodup (Nat.le_refl _) rfl rfl

theorem Traced.sendChangeset (h : c.Traced A empty H) (sent : Bool) (now : H c.db)
    (reproduces : sent = true → c.Reproduces A c.lastEmitted) :
    (c.sendChangeset sent (changes c.session c.db.rows)).Traced A empty H := by
  have consistent := consistent_sendChangeset empty c sent h.consistent reproduces
  cases sent with
  | false => exact h.silent consistent rfl
  | true => exact h.emit consistent rfl now

theorem Traced.intervalSnapshot (h : c.Traced A empty H) (sent : Bool) (now : H c.db) :
    (c.intervalSnapshot sent).Traced A empty H := by
  rw [SessionState.intervalSnapshot]
  split
  · split
    · exact (h.emitSnapshot .channel now).quiet h.consistent.nodup (Nat.le_refl _) rfl rfl
    · exact h
  · exact h

theorem Traced.recreateSession (h : c.Traced A empty H) (answer : Except String Unit) :
    (c.recreateSession answer).2.Traced A empty H := by
  cases answer with
  | ok => exact h.quiet List.nodup_nil (Nat.le_refl _) rfl rfl
  | error e => exact h

theorem Traced.push (h : c.Traced A empty H) (room : Room) (now : H c.db)
    (reproduces : c.Pushes room → c.Reproduces A (c.base room)) :
    (c.extractAndSendChangeset room).2.Traced A empty H := by
  have detected := h.detectSchemaChange room.schemaSnapshot now
  obtain ⟨session, db, -⟩ := detectSchemaChange_session room.schemaSnapshot c
  have extracted : ({ c.detectSchemaChange room.schemaSnapshot with
      hasChanges := false } : SessionState Q ν).Traced A empty H :=
    detected.quiet detected.consistent.nodup (Nat.le_refl _) rfl rfl
  have pushed := push_cases room c
  generalize c.extractAndSendChangeset room = result at pushed ⊢
  cases pushed with
  | idle => exact h
  | unread => exact detected
  | nothing => exact extracted
  | sent flagged outside read some =>
    have sent := extracted.sendChangeset room.changeset (by rw [db]; exact now) (by
      intro handed
      have met := reproduces ⟨flagged, outside, some, by rw [read]; rfl, handed⟩
      simpa only [Reproduces, Agrees, detectSchemaChange_lastEmitted, session, db] using met)
    simp only [session, db] at sent ⊢
    refine (sent.intervalSnapshot room.intervalSnapshot ?_).recreateSession room.recreation
    rw [SessionState.sendChangeset]
    split
    · rw [SessionState.emit]
      exact now
    · exact now

theorem Traced.snapshot (h : c.Traced A empty H) (published : Bool) (now : H c.db) :
    (c.snapshot published).Traced A empty H := by
  rw [SessionState.snapshot]
  split
  · exact h
  · split
    · exact h.emitSnapshot .request now
    · exact h

omit [DecidableEq κ] [DecidableEq ν] in
theorem snapshot_db (c : SessionState Q ν) (published : Bool) :
    (c.snapshot published).db = c.db := by
  rw [SessionState.snapshot]
  split
  · rfl
  · split
    · rfl
    · rfl

/-- The history goes up to the database after the operation. -/
theorem Traced.step (h : c.Traced A empty H) (op : Operation Q ν)
    (reproducible : c.Reproducible A op)
    (now : H (c.step op).db) : (c.step op).Traced A empty H := by
  have consistent := consistent_step empty c op h.consistent reproducible
  cases op with
  | write key value => exact h.silent consistent (execute_keeps c (.write key value)).1
  | alter effect => exact h.silent consistent rfl
  | executeDdl sql batch succeeds published =>
    have emitted := (executeAll_keeps c batch).1
    have executed : (batch.foldl execute c).Consistent A empty :=
      List.foldlRecOn batch execute h.consistent fun c kept statement _ =>
        consistent_execute empty c statement kept
    have before : (batch.foldl execute c).Traced A empty H := h.silent executed emitted
    rw [SessionState.step, executeDdl] at now ⊢
    by_cases due : (succeeds && isDdl sql) = true
    · rw [if_pos due, snapshot_db] at now
      rw [if_pos due]
      exact before.snapshot published now
    · rw [if_neg due]
      exact before
  | push room =>
    refine h.push room ?_ reproducible
    rw [← push_db room c]
    exact now
  | snapshot published =>
    refine h.snapshot published ?_
    rw [← snapshot_db c published]
    exact now
  | begin =>
    refine h.silent consistent ?_
    rw [SessionState.step]
    split
    · rfl
    · rfl
  | commit => exact h.silent consistent rfl
  | rollback =>
    refine h.silent consistent ?_
    rw [SessionState.step]
    split
    · rfl
    · rfl

omit [DecidableEq κ] [DecidableEq ν] in
theorem attach_db (empty db : Database Q ν) (snapshotInterval : Nat) (published : Bool) :
    (attach empty db snapshotInterval published).db = db := by
  rw [attach]
  split
  · exact snapshot_db _ published
  · rfl

theorem traced_attach (db : Database Q ν) (snapshotInterval : Nat) (published : Bool) (now : H db) :
    (attach empty db snapshotInterval published).Traced A empty H := by
  let c : SessionState Q ν :=
    ⟨db, none, [], 0, snapshotInterval, 0, false, Q.computeSchemaHash db.schema, db.schema,
      [], empty⟩
  have fresh : c.Traced A empty H := by
    refine ⟨⟨List.nodup_nil, .nil, by simp [c], 0, Nat.le_refl _, rfl⟩, ?_⟩
    intro es before some
    exact absurd (List.prefix_nil.mp before) some
  rw [attach]
  split
  · exact fresh.snapshot published now
  · exact fresh

omit [DecidableEq κ] in
/-- A push that hands a changeset over leaves nothing of its database behind. -/
theorem pushes_lastEmitted (c : SessionState Q ν) (room : Room) (h : c.Pushes room) :
    (c.extractAndSendChangeset room).2.lastEmitted = c.db := by
  obtain ⟨flagged, outside, some, read, handed⟩ := h
  obtain ⟨-, db, -⟩ := detectSchemaChange_session room.schemaSnapshot c
  have recreated (d : SessionState Q ν) :
      (d.recreateSession room.recreation).2.lastEmitted = d.lastEmitted := by
    cases room.recreation with
    | ok => rfl
    | error e => rfl
  have snapped (d : SessionState Q ν) (own : d.lastEmitted = d.db) :
      (d.intervalSnapshot room.intervalSnapshot).lastEmitted = d.db := by
    rw [SessionState.intervalSnapshot]
    split
    · split
      · rfl
      · exact own
    · exact own
  have pushed := push_cases room c
  generalize c.extractAndSendChangeset room = result at pushed ⊢
  cases pushed with
  | idle idle =>
    rcases idle with unflagged | inside
    · rw [unflagged] at flagged
      cases flagged
    · exact absurd outside inside
  | unread flagged outside e failed =>
    rw [failed] at read
    cases read
  | nothing flagged outside read empty => exact absurd empty some
  | sent =>
    rw [recreated, snapped]
    · rw [SessionState.sendChangeset, if_pos handed]
      exact db
    · rw [SessionState.sendChangeset, if_pos handed]
      rfl

end SessionState

namespace Lane

variable (config : Config)

/-- No response is lost, and what leaves the memory arrives. -/
def Keeps (kind : Kind) (l : Lane σ κ ν) (m : Move) : Prop :=
  l.Answered m ∧ (l.arrivals m).flatten.length + (l.move config kind m).memory.length =
    l.memory.length

instance decidableKeeps (kind : Kind) (l : Lane σ κ ν) (m : Move) :
    Decidable (l.Keeps config kind m) :=
  inferInstanceAs (Decidable (_ ∧ _))

/-- There is nothing of another session. -/
structure Blank (l : Lane σ κ ν) : Prop where
  table : l.table = []
  loans : l.loans = []

omit [DecidableEq κ] [DecidableEq ν]

theorem left_whole {α : Type} (leaving : Bool) (xs : List α)
    (h : (if leaving then [] else xs).length = xs.length) : (if leaving then [] else xs) = xs :=
  (left_sublist leaving xs).eq_of_length h

theorem Keeps.move {kind : Kind} {l : Lane σ κ ν} {m : Move} (keeps : l.Keeps config kind m)
    (unused : kind = .snapshots → l.sender.buffer = []) (blank : l.Blank) :
    (l.move config kind m).Blank ∧
      (l.arrivals m).flatten ++ (l.move config kind m).memory = l.memory := by
  obtain ⟨answered, length⟩ := keeps
  have moved := move_cases config kind l m unused
  generalize l.move config kind m = l' at moved length ⊢
  cases moved with
  | passed memory loans table next quiet =>
    rw [arrivals_quiet l m quiet answered]
    exact ⟨⟨table.trans blank.table, loans.trans blank.loans⟩, memory⟩
  | loaded memory loans table next fresh =>
    have none := blank.loans
    rw [Lane.loans, List.append_eq_nil_iff] at none
    rw [none.1, blank.table] at loans
    rw [arrivals_silent l _ (by simp)]
    exact ⟨⟨table.trans blank.table, List.perm_nil.mp loans⟩, memory⟩
  | @delivered removed l' r request own memory loans table next =>
    obtain ⟨held, -⟩ := memory_request l r request own
    rw [arrivals_known l r removed request] at length ⊢
    rw [held, memory, List.length_append] at length
    rw [held, memory, left_whole _ _ (Nat.add_left_cancel length)]
    exact ⟨⟨table.trans blank.table, by rw [loans, blank.loans, ite_self]⟩, rfl⟩
  | @recovered removed l' r id request row memory loans table next =>
    have none := blank.loans
    rw [(loans_request l r id request row).2, List.append_eq_nil_iff, List.map_eq_nil_iff] at none
    rw [arrivals_known l r removed request, none.1] at length ⊢
    rw [memory, List.length_nil, Nat.zero_add] at length
    rw [memory, left_whole _ _ length]
    exact ⟨⟨by rw [table, blank.table, List.filter_nil, ite_self], by rw [loans, none.2, ite_self]⟩,
      rfl⟩
  | @saved sequenced acknowledged removed l' r unknown request own memory loans table next =>
    obtain ⟨held, -⟩ := memory_request l r request own
    have fewer := (left_sublist l.sender.leaving (l.sender.buffer ++ l.channel)).length_le
    rw [arrivals_unknown l _ _ _ unknown answered] at length ⊢
    rw [held, memory, List.length_append, List.flatten_nil, List.length_nil] at length
    have empty : r.items = [] := List.length_eq_zero_iff.mp (by omega)
    rw [held, memory, left_whole _ _ (by omega), empty]
    refine ⟨⟨?_, by rw [loans, blank.loans, ite_self]⟩, rfl⟩
    rw [table, blank.table, empty]
    rfl
  | @dropped sequenced acknowledged removed l' r id unknown request row memory loans table next =>
    have none := blank.loans
    rw [(loans_request l r id request row).2, List.append_eq_nil_iff] at none
    rw [arrivals_unknown l _ _ _ unknown answered] at length ⊢
    rw [memory, List.flatten_nil, List.length_nil, Nat.zero_add] at length
    rw [memory, left_whole _ _ length]
    exact ⟨⟨table.trans blank.table, by rw [loans, none.2, ite_self]⟩, rfl⟩
  | stopped memory loans table next reason =>
    rw [arrivals_silent l m (reason.silent config kind l m)] at length ⊢
    rw [memory, List.flatten_nil, List.length_nil, Nat.zero_add] at length
    have empty : l.memory = [] := List.length_eq_zero_iff.mp length.symm
    exact ⟨⟨table.trans blank.table, loans⟩, by rw [memory, empty]; rfl⟩

end Lane

namespace System

/-- What the sequencer has, in its order. -/
def received (s : System Q ν) : List (Emission σ κ ν) := s.log.flatten.map Item.emission

/-- Nothing is on the way. -/
def idle (s : System Q ν) : Bool := s.changesets.memory.isEmpty && s.snapshots.memory.isEmpty

/-- The operation with the room that the channels have. -/
def offeredTo (s : System Q ν) : SessionState.Operation Q ν → SessionState.Operation Q ν
  | .push room => .push (s.offered room)
  | op => op

variable (config : Config)

/-- Nothing that arrives overtakes what the other sender still holds. -/
def Ahead (kind : Kind) (s : System Q ν) (m : Move) : Prop :=
  ∀ x ∈ ((s.lane kind).arrivals m).flatten, ∀ y ∈ (s.lane kind.other).memory, x.emission.rank <
    y.emission.rank

/-- The client goes on, every changeset meets the database handed over last, and what it hands over
arrives once and in its order. -/
def Relayed (A : ChangesetApply σ κ ν) (s : System Q ν) : Event Q ν → Prop
  | .operate op => s.stage = .running → s.client.Reproducible A (s.offeredTo op) ∧
      (op.isPush = false → (s.published op).isEmpty = false → s.idle = true)
  | .strayed => s.stage = .running → s.client.transaction.isNone = false
  | .move kind m => (s.lane kind).Keeps config kind m ∧ s.Ahead kind m
  | .finish room => s.stage = .shuttingDown → s.stopped = true →
      s.client.Reproducible A (.push (s.offered room))
  | .dropMonitor room => s.stage = .running → s.client.Reproducible A (.push (s.offered room))
  | .crash => s.idle = true
  | .attach _ _ _ _ => s.stage ≠ .ended ∧ s.stage ≠ .crashed
  | .cleanup _ | .shutdown | .signal | .join => True

instance decidableAhead (kind : Kind) (s : System Q ν) (m : Move) : Decidable (s.Ahead kind m) :=
  inferInstanceAs (Decidable (∀ x ∈ _, ∀ y ∈ _, _))

instance decidableRelayed [Fintype κ] [DecidableEq σ] (s : System Q ν) (e : Event Q ν) :
    Decidable (s.Relayed config A e) :=
  match e with
  | .operate _ => inferInstanceAs (Decidable (_ → _ ∧ (_ → _ → _)))
  | .strayed => inferInstanceAs (Decidable (_ → _))
  | .move _ _ => inferInstanceAs (Decidable (_ ∧ _))
  | .finish _ => inferInstanceAs (Decidable (_ → _ → _))
  | .dropMonitor _ => inferInstanceAs (Decidable (_ → _))
  | .crash => inferInstanceAs (Decidable (_ = _))
  | .attach _ _ _ _ => inferInstanceAs (Decidable (_ ∧ _))
  | .cleanup _ | .shutdown | .signal | .join => isTrue trivial

/-- What the client has handed over is with the sequencer, or in the memory of its sender. -/
structure Relays (A : ChangesetApply σ κ ν) (empty : Database Q ν) (H : Database Q ν → Prop)
    (s : System Q ν) : Prop where
  traced : s.client.Traced A empty H
  unused : s.snapshots.sender.buffer = []
  changesets : s.changesets.Blank
  snapshots : s.snapshots.Blank
  pending : ∃ pending, s.client.emitted = s.received ++ pending ∧
    Split Emission.isChangeset pending (s.changesets.memory.map Item.emission)
      (s.snapshots.memory.map Item.emission)

variable {empty : Database Q ν} {H : Database Q ν → Prop} {s : System Q ν}

omit [DecidableEq κ] [DecidableEq ν] in
theorem idle_iff : s.idle = true ↔ s.changesets.memory = [] ∧ s.snapshots.memory = [] := by
  rw [idle, Bool.and_eq_true, List.isEmpty_iff, List.isEmpty_iff]

theorem Relays.mono {H' : Database Q ν → Prop} (h : s.Relays A empty H)
    (more : ∀ db, H db → H' db) :
    s.Relays A empty H' :=
  ⟨h.traced.mono more, h.unused, h.changesets, h.snapshots, h.pending⟩

theorem Relays.complete (h : s.Relays A empty H) (idle : s.idle = true) : s.received =
    s.client.emitted := by
  obtain ⟨pending, emitted, split⟩ := h.pending
  obtain ⟨changesets, snapshots⟩ := idle_iff.mp idle
  rw [changesets, snapshots] at split
  rw [emitted, split.empty, List.append_nil]

omit [DecidableEq κ] [DecidableEq ν] in
theorem emissions_singletons (session : Nat) (es : List (Emission σ κ ν)) :
    (es.map fun e => [Item.mk session e]).flatten.map Item.emission = es := by
  induction es with
  | nil => rfl
  | cons e es ih => exact congrArg (e :: ·) ih

/-- What is published past the channels is with the sequencer at once. -/
theorem Relays.published {s' : System Q ν} (h : s.Relays A empty H)
    (traced : s'.client.Traced A empty H)
    (es : List (Emission σ κ ν)) (emitted : s'.client.emitted = s.client.emitted ++ es)
    (received : s'.received = s.received ++ es) (idle : es ≠ [] → s.idle = true)
    (changesets : s'.changesets = s.changesets) (snapshots : s'.snapshots = s.snapshots) :
    s'.Relays A empty H := by
  refine ⟨traced, ?_, ?_, ?_, ?_⟩
  · rw [snapshots]
    exact h.unused
  · rw [changesets]
    exact h.changesets
  · rw [snapshots]
    exact h.snapshots
  · rw [changesets, snapshots, emitted, received]
    by_cases none : es = []
    · obtain ⟨pending, before, split⟩ := h.pending
      exact ⟨pending, by rw [none, List.append_nil, List.append_nil, before], split⟩
    · obtain ⟨noChangesets, noSnapshots⟩ := idle_iff.mp (idle none)
      rw [noChangesets, noSnapshots, h.complete (idle none)]
      exact ⟨[], (List.append_nil _).symm, split_nil⟩

omit [DecidableEq κ] in
theorem queued_emissions (room : SessionState.Room) (s : System Q ν) (p : Emission σ κ ν → Bool) :
    ((s.queued room).filter fun x => p x.emission).map Item.emission =
      (SessionState.taken (s.client.created (s.offered room))).filter p := by
  rw [queued, List.filter_map, List.map_map]
  exact List.map_id _

theorem Relays.extract (h : s.Relays A empty H) (room : SessionState.Room) (now : H s.client.db)
    (reproducible : s.client.Reproducible A (.push (s.offered room))) :
      (s.extract room).Relays A empty H := by
  obtain ⟨pending, emitted, split⟩ := h.pending
  refine ⟨h.traced.push _ now reproducible, h.unused, ⟨h.changesets.table, h.changesets.loans⟩,
    ⟨h.snapshots.table, h.snapshots.loans⟩, ?_⟩
  have handed := (SessionState.push_spec (s.offered room) s.client).emitted
  have longer := split.append (SessionState.taken (s.client.created (s.offered room)))
  rw [← queued_emissions room s, ← queued_emissions room s, ← List.map_append, ← List.map_append,
    ← Lane.queue_memory, ← Lane.queue_memory] at longer
  refine ⟨_, ?_, longer⟩
  rw [show (s.extract room).received = s.received from rfl, ← List.append_assoc, ← emitted]
  exact handed

theorem Relays.move (h : s.Relays A empty H) (kind : Kind) (m : Move)
    (keeps : (s.lane kind).Keeps config kind m) (ahead : s.Ahead kind m) :
    (s.move config kind m).Relays A empty H := by
  obtain ⟨pending, emitted, split⟩ := h.pending
  have sorted : pending.Pairwise fun e f => e.rank ≤ f.rank := by
    have ordered := h.traced.consistent.ordered
    rw [emitted, List.pairwise_append] at ordered
    exact ordered.2.1
  have received : (s.move config kind m).received =
      s.received ++ (((s.lane kind).arrivals m).flatten).map Item.emission := by
    rw [System.received, System.received, ← List.map_append, ← List.flatten_append]
    rfl
  have first (taken other : List (Item σ κ ν))
      (before : ∀ x ∈ taken, ∀ y ∈ other, x.emission.rank < y.emission.rank) :
      ∀ e ∈ taken.map Item.emission, ∀ f ∈ other.map Item.emission, ¬f.rank ≤ e.rank := by
    intro e arrived f waits
    obtain ⟨x, member, rfl⟩ := List.mem_map.mp arrived
    obtain ⟨y, behind, rfl⟩ := List.mem_map.mp waits
    exact Nat.not_le.mpr (before x member y behind)
  cases kind with
  | changesets =>
    obtain ⟨blank, memory⟩ := keeps.move config (by simp) h.changesets
    rw [show s.changesets = s.lane .changesets from rfl, ← memory, List.map_append] at split
    obtain ⟨left, rfl, rest⟩ := split.take sorted (first _ _ ahead)
    refine ⟨h.traced, h.unused, blank, h.snapshots, left, ?_, rest⟩
    rw [received, List.append_assoc]
    exact emitted
  | snapshots =>
    obtain ⟨blank, memory⟩ := keeps.move config (fun _ => h.unused) h.snapshots
    rw [show s.snapshots = s.lane .snapshots from rfl, ← memory, List.map_append] at split
    obtain ⟨left, rfl, rest⟩ := split.swap.take sorted (first _ _ ahead)
    have swapped := rest.swap
    simp only [Bool.not_not] at swapped
    refine ⟨h.traced, Lane.buffer_move config s.snapshots m h.unused, h.changesets, blank, left,
      ?_, swapped⟩
    rw [received, List.append_assoc]
    exact emitted

theorem Relays.operate (h : s.Relays A empty H) (op : SessionState.Operation Q ν)
    (now : H (s.operate op).client.db) (reproducible : s.client.Reproducible A (s.offeredTo op))
    (caughtUp : op.isPush = false → (s.published op).isEmpty = false → s.idle = true) :
    (s.operate op).Relays A empty H := by
  by_cases push : ∃ room, op = .push room
  · obtain ⟨room, rfl⟩ := push
    refine h.extract room ?_ reproducible
    rw [← SessionState.push_db (s.offered room) s.client]
    exact now
  · have other : ∀ room, op ≠ .push room := by simpa using push
    have unpushed : op.isPush = false := by
      rw [SessionState.Operation.isPush]
      exact other
    have same : s.offeredTo op = op := by
      rw [offeredTo]
      exact other
    rw [same] at reproducible
    obtain ⟨-, es, emitted, -⟩ := SessionState.step_publishes s.client op other
    have published : s.published op = es.map (Item.mk s.session) := by
      rw [System.published, emitted, List.drop_left]
    rw [operate_other s op other] at now ⊢
    refine h.published (h.traced.step op reproducible now) es emitted ?_ ?_ rfl rfl
    · rw [received, received, List.flatten_append, List.map_append, published, List.map_map]
      exact congrArg _ (emissions_singletons s.session es)
    · intro some
      refine caughtUp unpushed ?_
      rw [published, List.isEmpty_eq_false_iff]
      exact fun none => some (List.map_eq_nil_iff.mp none)

/-- Nothing but the stage of the client and its signals changes. -/
theorem Relays.signal {s' : System Q ν} (h : s.Relays A empty H) (client : s'.client = s.client)
    (log : s'.log = s.log) (unused : s'.snapshots.sender.buffer = [])
    (changesets : s'.changesets.Blank) (snapshots : s'.snapshots.Blank)
    (memory : s'.changesets.memory = s.changesets.memory)
    (memory' : s'.snapshots.memory = s.snapshots.memory) : s'.Relays A empty H := by
  refine ⟨by rw [client]; exact h.traced, unused, changesets, snapshots, ?_⟩
  rw [client, received, log, memory, memory']
  exact h.pending

theorem Relays.step (h : s.Relays A empty H) (e : Event Q ν) (relayed : s.Relayed config A e)
    (now : H (s.step config e).client.db) : (s.step config e).Relays A empty H := by
  obtain ⟨blank, loans⟩ := h.changesets
  obtain ⟨blank', loans'⟩ := h.snapshots
  have extracted (room : SessionState.Room) (now : H (s.extract room).client.db)
      (reproducible : s.client.Reproducible A (.push (s.offered room))) :
        (s.extract room).Relays A empty H := by
    refine h.extract room ?_ reproducible
    rw [← SessionState.push_db (s.offered room) s.client]
    exact now
  have closed (room : SessionState.Room) (stage : Stage)
      (relays : (s.extract room).Relays A empty H) :
      ({ (s.extract room).mapLanes Lane.close with stage := stage } : System Q ν).Relays A
        empty H :=
    relays.signal rfl rfl relays.unused ⟨relays.changesets.table, relays.changesets.loans⟩
      ⟨relays.snapshots.table, relays.snapshots.loans⟩ rfl rfl
  cases e with
  | operate op =>
    rw [System.step] at now ⊢
    by_cases running : s.stage = .running
    · rw [if_pos running] at now ⊢
      exact h.operate op now (relayed running).1 (relayed running).2
    · rw [if_neg running]
      exact h
  | strayed =>
    rw [System.step, if_neg]
    · exact h
    · intro possible
      have inside := relayed possible.1
      rw [possible.2] at inside
      cases inside
  | move kind m => exact h.move config kind m relayed.1 relayed.2
  | cleanup expired =>
    rw [System.step]
    split
    · refine h.signal rfl rfl h.unused ⟨?_, loans⟩ ⟨?_, loans'⟩ rfl rfl
      · exact congrArg _ blank
      · exact congrArg _ blank'
    · exact h
  | shutdown =>
    rw [System.step]
    split
    · exact h.signal rfl rfl h.unused ⟨blank, loans⟩ ⟨blank', loans'⟩ rfl rfl
    · exact h
  | finish room =>
    rw [System.step] at now ⊢
    by_cases possible : s.stage = .shuttingDown ∧ s.stopped = true
    · rw [if_pos possible] at now ⊢
      exact closed room .ended (extracted room now (relayed possible.1 possible.2))
    · rw [if_neg possible]
      exact h
  | dropMonitor room =>
    rw [System.step] at now ⊢
    by_cases running : s.stage = .running
    · rw [if_pos running] at now ⊢
      exact closed room .dropping (extracted room now (relayed running))
    · rw [if_neg running]
      exact h
  | signal =>
    rw [System.step]
    split
    · exact h.signal rfl rfl h.unused ⟨blank, loans⟩ ⟨blank', loans'⟩ rfl rfl
    · exact h
  | join =>
    rw [System.step]
    split
    · exact h.signal rfl rfl h.unused ⟨blank, loans⟩ ⟨blank', loans'⟩ rfl rfl
    · exact h
  | crash =>
    obtain ⟨noChangesets, noSnapshots⟩ := idle_iff.mp relayed
    exact h.signal rfl rfl rfl ⟨blank, rfl⟩ ⟨blank', rfl⟩ noChangesets.symm noSnapshots.symm
  | attach empty' db snapshotInterval published =>
    rw [System.step, if_neg]
    · exact h
    · intro ended
      exact ended.elim relayed.1 relayed.2

theorem relays_first (db : Database Q ν) (snapshotInterval : Nat) (published : Bool) (now : H db) :
    (first empty db snapshotInterval published).Relays A empty H := by
  have received : (first empty db snapshotInterval published).received =
      (SessionState.attach empty db snapshotInterval published).emitted :=
    emissions_singletons 0 _
  refine ⟨SessionState.traced_attach db snapshotInterval published now, rfl, ⟨rfl, rfl⟩,
    ⟨rfl, rfl⟩, [], ?_, split_nil⟩
  rw [received, List.append_nil]
  rfl

/-- The state of the client is that of an earlier moment, if there were only moves of
the senders since. -/
theorem client_moves (s : System Q ν) (es : List (Event Q ν)) (early late : Nat) (le : early ≤ late)
    (within : late ≤ es.length)
    (moves : ∀ k e, early ≤ k → k < late → es[k]? = some e → ∃ kind m, e = .move kind m) :
    (stateAt (System.step config) s es late).client =
      (stateAt (System.step config) s es early).client := by
  induction late, le using Nat.le_induction with
  | base => rfl
  | succ late le ih =>
    have found : es[late]? = some es[late] := List.getElem?_eq_getElem within
    obtain ⟨kind, m, same⟩ := moves late _ le (Nat.lt_succ_self late) found
    rw [stateAt_succ _ s es late _ found, same, System.step]
    exact (move_frame config kind m _).2.1.trans (ih (Nat.le_of_succ_le within)
      fun k e after before => moves k e after (Nat.lt_succ_of_lt before))

section Run

variable (empty db : Database Q ν) (snapshotInterval : Nat) (published : Bool)
  (es : List (Event Q ν))

/-- The first client and its sequencer after some events. -/
def moment (n : Nat) : System Q ν :=
  stateAt (System.step config) (first empty db snapshotInterval published) es n

/-- A database that the client has had. -/
def Had (n : Nat) (d : Database Q ν) : Prop :=
  ∃ m ≤ n, d = (moment config empty db snapshotInterval published es m).client.db

/-- The last thing the client did is a push that handed its changes over. -/
structure Pushed (n : Nat) : Prop where
  push : ∃ m room, m < n ∧ es[m]? = some (.operate (.push room)) ∧
    (moment config empty db snapshotInterval published es m).stage = .running ∧
    (moment config empty db snapshotInterval published es m).client.Pushes
      ((moment config empty db snapshotInterval published es m).offered room) ∧
    ∀ k e, m < k → k < n → es[k]? = some e → ∃ kind move, e = .move kind move

theorem relays_run (relayed : Along (System.step config) (Relayed config A)
    (first empty db snapshotInterval published) es) (n : Nat) (within : n ≤ es.length) :
    (moment config empty db snapshotInterval published es n).Relays A empty
      (Had config empty db snapshotInterval published es n) := by
  refine timed_invariant (System.step config)
    (I := fun t s => s.Relays A empty (Had config empty db snapshotInterval published es t))
    _ es ?_ ?_
    relayed n within
  · intro t e found relays met
    have later (d : Database Q ν) (past : Had config empty db snapshotInterval published es t d) :
        Had config empty db snapshotInterval published es (t + 1) d := by
      obtain ⟨m, le, same⟩ := past
      exact ⟨m, Nat.le_succ_of_le le, same⟩
    refine (relays.mono later).step config e met ⟨t + 1, Nat.le_refl _, ?_⟩
    exact congrArg (fun s : System Q ν => s.client.db) (stateAt_succ _ _ es t e found).symm
  · refine relays_first db snapshotInterval published ⟨0, Nat.le_refl _, ?_⟩
    exact (SessionState.attach_db empty db snapshotInterval published).symm

variable {config empty db snapshotInterval published es}

theorem Pushed.lastEmitted {n : Nat}
    (pushed : Pushed config empty db snapshotInterval published es n) (within : n ≤ es.length) :
    (moment config empty db snapshotInterval published es n).client.lastEmitted =
      (moment config empty db snapshotInterval published es n).client.db := by
  obtain ⟨m, room, before, push, running, pushes, moves⟩ := pushed.push
  have client : (moment config empty db snapshotInterval published es n).client =
      (moment config empty db snapshotInterval published es (m + 1)).client :=
    client_moves config _ es (m + 1) n before within moves
  have next : (moment config empty db snapshotInterval published es (m + 1)).client =
      ((moment config empty db snapshotInterval published es m).client.extractAndSendChangeset
        ((moment config empty db snapshotInterval published es m).offered room)).2 := by
    rw [moment, stateAt_succ _ _ es m _ push, System.step]
    exact congrArg System.client (if_pos running)
  rw [client, next, SessionState.pushes_lastEmitted _ _ pushes, SessionState.push_db]

variable (config empty db snapshotInterval published es)

/-- In every run in which all arrives once and in its order, the log of the sequencer replays to a
database the client had; once a push has handed its changes over and the senders are done, to the
database it has. -/
theorem log_replays_to_client (relayed : Along (System.step config) (Relayed config A)
    (first empty db snapshotInterval published) es) (n : Nat) (within : n ≤ es.length) :
    let s := moment config empty db snapshotInterval published es n
    s.received <+: s.client.emitted ∧
    (∀ log, log <+: s.received → log ≠ [] → ∃ d,
      Had config empty db snapshotInterval published es n d ∧
      ∃ start, replay Q A (empty.toImage, 0) log = .ok (d.toImage, start)) ∧
    (Pushed config empty db snapshotInterval published es n → s.idle = true →
      ∃ start, replay Q A (empty.toImage, 0) s.received = .ok (s.client.db.toImage, start)) := by
  intro s
  have relays := relays_run config empty db snapshotInterval published es relayed n within
  obtain ⟨pending, emitted, -⟩ := relays.pending
  have part : s.received <+: s.client.emitted := ⟨pending, emitted.symm⟩
  refine ⟨part, ?_, ?_⟩
  · intro log arrived some
    exact relays.traced.past log (arrived.trans part) some
  · intro pushed idle
    obtain ⟨start, -, replayed⟩ := relays.traced.consistent.reproduced
    rw [pushed.lastEmitted within] at replayed
    rw [relays.complete idle]
    exact ⟨start, replayed⟩

end Run

end System

namespace TransmissionSample

open Sample

/-- Two pushes with a snapshot between them. The first changeset has to be sent twice. -/
def events : List (Event sqlite Nat) :=
  [.operate (.write payer (some [0, 20])), .operate (.push clear), .move .changesets .start,
    .move .changesets (.receive false), .move .changesets (.attempt false false false),
    .move .changesets (.attempt true true true), .operate (.snapshot true),
    .operate (.write payee none),
    .operate (.push clear), .move .changesets (.receive false),
    .move .changesets (.attempt true true true)]

theorem log_replays_to_client_twice :
    ∃ start, replay sqlite .onRows (empty.toImage, 0)
      (System.moment config empty accounts 100 true events 11).received =
      .ok ((System.moment config empty accounts 100 true events 11).client.db.toImage, start) := by
  have relayed :
      Along (System.step config) (System.Relayed config .onRows) (.first empty accounts 100 true)
        events := by
    decide
  obtain ⟨-, -, caughtUp⟩ :=
    System.log_replays_to_client config empty accounts 100 true events relayed 11
    (by decide)
  refine caughtUp ⟨8, clear, by decide, rfl, by decide, by decide, ?_⟩ (by decide)
  intro k e after before found
  obtain rfl | rfl : k = 9 ∨ k = 10 := by omega
  · cases found
    exact ⟨_, _, rfl⟩
  · cases found
    exact ⟨_, _, rfl⟩

end TransmissionSample

end SyndDB.Client
