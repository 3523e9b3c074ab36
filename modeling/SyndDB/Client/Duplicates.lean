import SyndDB.Client.Process
import SyndDB.Client.Replay

namespace SyndDB.Client

open Changes Run

variable {σ τ κ ν : Type}

/-- A changeset is identified by its session and its number. -/
def Item.key (x : Item σ κ ν) : Nat × Nat := (x.session, x.sequence)

namespace Lane

/-- What a sender holds, in memory and in its table. -/
def holds (l : Lane σ κ ν) : List (Item σ κ ν) := l.memory ++ l.table.map Prod.snd

/-- No row is retried twice, or after it is gone. -/
structure Tidy (l : Lane σ κ ν) : Prop where
  fresh : l.Fresh
  single : l.Single
  numbered : l.Numbered
  distinct : (l.loans.map Prod.fst).Nodup
  borrowed : ∀ row ∈ l.loans, row ∈ l.table

/-- A request whose response is lost was not sequenced, and a row that is acknowledged
can be removed. -/
def Answered (l : Lane σ κ ν) : Move → Prop
  | .attempt sequenced acknowledged removed =>
      ∀ r ∈ l.sender.request, (sequenced → acknowledged) ∧ (acknowledged → r.row.isSome → removed)
  | _ => True

instance decidableAnswered (l : Lane σ κ ν) (m : Move) : Decidable (l.Answered m) :=
  match m with
  | .attempt sequenced acknowledged removed =>
      inferInstanceAs (Decidable (∀ r ∈ l.sender.request,
        (sequenced → acknowledged) ∧ (acknowledged → r.row.isSome → removed)))
  | .start => isTrue trivial
  | .retryNext => isTrue trivial
  | .receive _ => isTrue trivial
  | .seeClosed => isTrue trivial
  | .seeShutdown => isTrue trivial

/-- Nothing arrives that is not acknowledged. -/
theorem arrivals_quiet (l : Lane σ κ ν) (m : Move)
    (quiet : l.sender.request = none ∨ ∀ removed, m ≠ .attempt true true removed)
    (answered : l.Answered m) : l.arrivals m = [] := by
  rcases arrivals_cases l m with nothing | ⟨r, acknowledged, removed, request, rfl, -⟩
  · exact nothing
  · have known : acknowledged = true := (answered r request).1 rfl
    rcases quiet with free | other
    · rw [free] at request
      cases request
    · exact absurd (by rw [known]) (other removed)

theorem arrivals_unknown (l : Lane σ κ ν) (sequenced acknowledged removed : Bool)
    (unknown : (sequenced && acknowledged) = false)
    (answered : l.Answered (.attempt sequenced acknowledged removed)) :
    l.arrivals (.attempt sequenced acknowledged removed) = [] := by
  apply arrivals_quiet l _ (.inr _) answered
  intro gone same
  cases same
  cases unknown

theorem arrivals_silent (l : Lane σ κ ν) (m : Move) (silent : ∀ a b c, m ≠ .attempt a b c) :
    l.arrivals m = [] := by
  rcases arrivals_cases l m with nothing | ⟨r, acknowledged, removed, -, rfl, -⟩
  · exact nothing
  · exact absurd rfl (silent true acknowledged removed)

/-- A request that is acknowledged arrives. -/
theorem arrivals_known (l : Lane σ κ ν) (r : Request σ κ ν) (removed : Bool)
    (request : l.sender.request = some r) :
    (l.arrivals (.attempt true true removed)).flatten = r.items := by
  simp [arrivals, request]

/-- The rows that are removed hold what was retried. -/
theorem Tidy.removed (l : Lane σ κ ν) (tidy : l.Tidy) (r : Request σ κ ν) (id : Nat)
    (request : l.sender.request = some r) (row : r.row = some id) :
    ((l.table.filter fun row => row.1 ≠ id).map Prod.snd ++ r.items).Subperm
      (l.table.map Prod.snd) := by
  have loans := (loans_request l r id request row).2
  have nodup : (r.items.map fun x => (id, x)).Nodup := by
    have distinct := tidy.distinct
    rw [loans, List.map_append] at distinct
    exact List.Nodup.of_map _ (List.Nodup.of_append_left distinct)
  have subset : (r.items.map fun x => (id, x)) ⊆ l.table.filter
      fun row => !decide (row.1 ≠ id) := by
    intro entry member
    have listed : entry ∈ l.table := by
      apply tidy.borrowed
      rw [loans]
      exact List.mem_append_left _ member
    obtain ⟨x, -, rfl⟩ := List.mem_map.mp member
    simp [listed]
  have small := List.subperm_of_subset nodup subset
  have split := List.filter_append_perm (fun row : Nat × Item σ κ ν => decide (row.1 ≠ id)) l.table
  have all := ((List.subperm_append_left _).mpr small).trans split.subperm
  have items : (r.items.map fun x => (id, x)).map Prod.snd = r.items := by
    simp [Function.comp_def]
  obtain ⟨entries, perm, sublist⟩ := all
  refine ⟨entries.map Prod.snd, ?_, sublist.map Prod.snd⟩
  have mapped := perm.map Prod.snd
  rw [List.map_append, items] at mapped
  exact mapped

variable (config : Config)

theorem holds_move (kind : Kind) (l : Lane σ κ ν) (m : Move)
    (unused : kind = .snapshots → l.sender.buffer = []) (tidy : l.Tidy) (answered : l.Answered m) :
    ((l.move config kind m).holds ++ (l.arrivals m).flatten).Subperm l.holds := by
  have moved := move_cases config kind l m unused
  generalize l.move config kind m = l' at moved ⊢
  cases moved with
  | passed memory loans table next quiet =>
    rw [arrivals_quiet l m quiet answered, holds, memory, table, List.flatten_nil, List.append_nil]
    exact List.Subperm.refl _
  | loaded memory loans table next fresh =>
    rw [arrivals_silent l _ (by simp), holds, memory, table, List.flatten_nil, List.append_nil]
    exact List.Subperm.refl _
  | @delivered removed l' r request own memory loans table next =>
    rw [arrivals_known l r _ request, holds, holds, (memory_request l r request own).1,
      memory, table]
    apply (List.perm_append_comm).subperm.trans
    rw [List.append_assoc]
    exact (List.subperm_append_left _).mpr
      ((List.subperm_append_right _).mpr (left_sublist l.sender.leaving _).subperm)
  | @recovered removed l' r id request row memory loans table next =>
    have gone : removed = true := (answered r request).2 rfl (by simp [row])
    rw [gone] at table
    rw [arrivals_known l r _ request, holds, holds, memory, table, List.append_assoc]
    exact (left_sublist l.sender.leaving _).subperm.append (tidy.removed l r id request row)
  | @saved sequenced acknowledged removed l' r unknown request own memory loans table next =>
    rw [arrivals_unknown l _ _ _ unknown answered, holds, holds, (memory_request l r request own).1,
      memory, table, List.map_append, rows_snd, List.flatten_nil, List.append_nil,
      ← List.append_assoc]
    -- the items of the request move from the head of the memory to the end of the table
    apply (List.perm_append_comm).subperm.trans
    rw [List.append_assoc]
    exact (List.subperm_append_left _).mpr
      ((List.subperm_append_right _).mpr (left_sublist l.sender.leaving _).subperm)
  | @dropped sequenced acknowledged removed l' r id unknown request row memory loans table next =>
    rw [arrivals_unknown l _ _ _ unknown answered, holds, holds, memory, table, List.flatten_nil,
      List.append_nil]
    exact (List.subperm_append_right _).mpr (left_sublist l.sender.leaving _).subperm
  | stopped memory loans table next reason =>
    rw [arrivals_silent l m (reason.silent config kind l m), holds, holds, memory, table,
      List.flatten_nil, List.append_nil]
    exact (List.subperm_append_right _).mpr List.nil_subperm

/-- A row that is retried is not still to be retried. -/
theorem Tidy.apart (l : Lane σ κ ν) (tidy : l.Tidy) (r : Request σ κ ν) (id : Nat)
    (request : l.sender.request = some r) (row : r.row = some id) (entry : Nat × Item σ κ ν)
    (later : entry ∈ l.sender.failed) : entry.1 ≠ id := by
  obtain ⟨x, items⟩ := List.length_eq_one_iff.mp (tidy.single r request (by simp [row]))
  have distinct := tidy.distinct
  rw [(loans_request l r id request row).2, items] at distinct
  simp only [List.map_cons, List.map_nil, List.cons_append, List.nil_append,
    List.nodup_cons] at distinct
  intro same
  apply distinct.1
  rw [← same]
  exact List.mem_map_of_mem later

theorem tidy_move (kind : Kind) (l : Lane σ κ ν) (m : Move)
    (unused : kind = .snapshots → l.sender.buffer = []) (tidy : l.Tidy) :
    (l.move config kind m).Tidy := by
  have fresh := fresh_move config kind l m tidy.fresh
  have single := single_move config kind l m tidy.single
  have numbered := numbered_move config kind l m unused tidy.numbered
  have moved := move_cases config kind l m unused
  generalize l.move config kind m = l' at moved fresh single numbered ⊢
  have shrink (loans : l'.loans.Sublist l.loans)
      (rows : ∀ row ∈ l'.loans, row ∈ l.table → row ∈ l'.table) : l'.Tidy := by
    refine ⟨fresh, single, numbered, (loans.map Prod.fst).nodup tidy.distinct, ?_⟩
    intro row listed
    exact rows row listed (tidy.borrowed row (loans.subset listed))
  have same (loans : l'.loans.Sublist l.loans) (table : l'.table = l.table) : l'.Tidy := by
    apply shrink loans
    simp [table]
  cases moved with
  | passed memory loans table next quiet => exact same (by rw [loans]) table
  | loaded memory loans table next unread =>
    have none : l.retried = [] := by simp [retried, (tidy.fresh unread).1]
    rw [none, List.nil_append] at loans
    refine ⟨fresh, single, numbered, (loans.map Prod.fst).nodup_iff.mpr tidy.numbered.ids, ?_⟩
    intro row listed
    rw [table]
    exact loans.subset listed
  | delivered r request own memory loans table next =>
    apply same _ table
    rw [loans]
    exact left_sublist _ _
  | @recovered removed l' r id request row memory loans table next =>
    have rest : l'.loans.Sublist l.sender.failed := by
      rw [loans]
      exact left_sublist _ _
    apply shrink
    · rw [(loans_request l r id request row).2]
      exact rest.trans (List.sublist_append_right _ _)
    · intro entry listed before
      have other := tidy.apart l r id request row entry (rest.subset listed)
      rw [table]
      split
      · simp [before, other]
      · exact before
  | saved r unknown request own memory loans table next =>
    apply shrink
    · rw [loans]
      exact left_sublist _ _
    · intro entry listed before
      rw [table]
      exact List.mem_append_left _ before
  | dropped r id unknown request row memory loans table next =>
    apply same _ table
    rw [loans, (loans_request l r id request row).2]
    exact (left_sublist _ _).trans (List.sublist_append_right _ _)
  | stopped memory loans table next reason =>
    apply same _ table
    rw [loans]
    exact List.nil_sublist _

theorem tidy_queue (items : List (Item σ κ ν)) (l : Lane σ κ ν) (tidy : l.Tidy) :
    (l.queue items).Tidy :=
  ⟨tidy.fresh, tidy.single,
    ⟨tidy.numbered.ids, tidy.numbered.bounded, tidy.numbered.agree⟩, tidy.distinct, tidy.borrowed⟩

theorem tidy_signalled (l : Lane σ κ ν) (tidy : l.Tidy) : l.signalled.Tidy :=
  ⟨tidy.fresh, tidy.single,
    ⟨tidy.numbered.ids, tidy.numbered.bounded, tidy.numbered.agree⟩, tidy.distinct, tidy.borrowed⟩

theorem tidy_close (l : Lane σ κ ν) (tidy : l.Tidy) : l.close.Tidy :=
  ⟨tidy.fresh, tidy.single,
    ⟨tidy.numbered.ids, tidy.numbered.bounded, tidy.numbered.agree⟩, tidy.distinct, tidy.borrowed⟩

theorem tidy_restart (l : Lane σ κ ν) (numbered : l.Numbered) : l.restart.Tidy := by
  refine ⟨?_, single_of_none _ rfl, numbered_restart l numbered, List.nodup_nil, ?_⟩
  · intro _
    exact ⟨rfl, rfl⟩
  · intro row listed
    cases listed

theorem tidy_stop (l : Lane σ κ ν) (tidy : l.Tidy) : l.stop.Tidy := by
  refine ⟨fresh_of_started _ rfl, single_of_none _ rfl, numbered_stop l tidy.numbered,
    List.nodup_nil, ?_⟩
  intro row listed
  cases listed

/-- Rows are only removed while none is lent. -/
theorem tidy_clean (expired : Item σ κ ν → Bool) (l : Lane σ κ ν) (tidy : l.Tidy)
    (unread : l.sender.started = false) : (l.clean expired).Tidy := by
  have none : (l.clean expired).loans = [] := by
    obtain ⟨request, failed⟩ := tidy.fresh unread
    simp [clean, loans, retried, request, failed]
  refine ⟨tidy.fresh, tidy.single, numbered_clean expired l tidy.numbered, ?_, ?_⟩
  · rw [none]
    exact List.nodup_nil
  · rw [none]
    intro row listed
    cases listed

end Lane

variable {Q : Sqlite σ τ κ} [DecidableEq κ] [DecidableEq ν]

namespace System

/-- The changesets of the sequenced messages. -/
def sequenced (s : System Q ν) : List (Item σ κ ν) :=
  s.log.flatten.filter fun x => x.emission.isChangeset

/-- No response to the changeset sender is lost. -/
def Answered (s : System Q ν) : Event Q ν → Prop
  | .move .changesets m => s.changesets.Answered m
  | _ => True

instance decidableAnswered (s : System Q ν) (e : Event Q ν) : Decidable (s.Answered e) :=
  match e with
  | .move .changesets m => Lane.decidableAnswered s.changesets m
  | .move .snapshots _ => isTrue trivial
  | .operate _ => isTrue trivial
  | .strayed => isTrue trivial
  | .cleanup _ => isTrue trivial
  | .shutdown => isTrue trivial
  | .finish _ => isTrue trivial
  | .dropMonitor _ => isTrue trivial
  | .signal => isTrue trivial
  | .join => isTrue trivial
  | .crash => isTrue trivial
  | .attach _ _ _ _ => isTrue trivial

/-- An item of an earlier session, or an earlier one of this session. -/
def Past (s : System Q ν) (x : Item σ κ ν) : Prop :=
  x.session < s.session ∨ x.session = s.session ∧ x.sequence < s.client.sequence

/-- A changeset is in one place only: with its sender, or with the sequencer. -/
structure Once (s : System Q ν) : Prop where
  tidy : s.changesets.Tidy
  unused : s.snapshots.sender.buffer = []
  nodup : ((s.changesets.holds ++ s.sequenced).map Item.key).Nodup
  past : ∀ x ∈ s.changesets.holds ++ s.sequenced, s.Past x
  snapshots : ∀ x ∈ s.snapshots.stock, x.emission.isChangeset = false

omit [DecidableEq κ] [DecidableEq ν] in
/-- Nothing new is held or sequenced. -/
theorem once_of_subperm (s s' : System Q ν) (once : s.Once) (tidy : s'.changesets.Tidy)
    (unused : s'.snapshots.sender.buffer = [])
    (fewer : (s'.changesets.holds ++ s'.sequenced).Subperm (s.changesets.holds ++ s.sequenced))
    (snapshots : s'.snapshots.stock ⊆ s.snapshots.stock) (past : ∀ x, s.Past x → s'.Past x) :
    s'.Once := by
  refine ⟨tidy, unused, ?_, ?_, ?_⟩
  · obtain ⟨items, perm, sublist⟩ := fewer
    have distinct := (sublist.map Item.key).nodup once.nodup
    exact (perm.map Item.key).nodup_iff.mp distinct
  · intro x member
    exact past x (once.past x (fewer.subset member))
  · intro x member
    exact once.snapshots x (snapshots member)

omit [DecidableEq κ] [DecidableEq ν] in
/-- Messages without changesets are sequenced. -/
theorem sequenced_append (s s' : System Q ν) (more : List (List (Item σ κ ν)))
    (h : s'.log = s.log ++ more) (none : ∀ x ∈ more.flatten, x.emission.isChangeset = false) :
    s'.sequenced = s.sequenced := by
  have empty : more.flatten.filter (fun x => x.emission.isChangeset) = [] := by
    apply List.filter_eq_nil_iff.mpr
    intro x member
    simp [none x member]
  rw [sequenced, h, List.flatten_append, List.filter_append, empty, List.append_nil]
  rfl

omit [DecidableEq κ] [DecidableEq ν] in
/-- A snapshot is sequenced past the channels. -/
theorem once_published (s s' : System Q ν) (once : s.Once) (more : List (List (Item σ κ ν)))
    (log : s'.log = s.log ++ more) (none : ∀ x ∈ more.flatten, x.emission.isChangeset = false)
    (changesets : s'.changesets = s.changesets) (snapshots : s'.snapshots = s.snapshots)
    (session : s'.session = s.session) (sequence : s'.client.sequence = s.client.sequence) :
    s'.Once := by
  have sequenced := sequenced_append s s' more log none
  refine ⟨?_, ?_, ?_, ?_, ?_⟩
  · rw [changesets]
    exact once.tidy
  · rw [snapshots]
    exact once.unused
  · rw [changesets, sequenced]
    exact once.nodup
  · rw [changesets, sequenced]
    intro x member
    rw [Past, session, sequence]
    exact once.past x member
  · rw [snapshots]
    exact once.snapshots

omit [DecidableEq κ] in
theorem once_extract (room : SessionState.Room) (s : System Q ν) (once : s.Once) :
    (s.extract room).Once := by
  have numbers := queued_numbers room s
  have forward := extract_forward room s
  have single := queued_single room s
  refine ⟨Lane.tidy_queue _ _ once.tidy, once.unused, ?_, ?_, ?_⟩
  · -- the new changeset has a number that no other has
    generalize items : (s.queued room).filter (fun x => x.emission.isChangeset) = new at single
    have perm : ((s.extract room).changesets.holds ++ (s.extract room).sequenced).Perm
        (new ++ (s.changesets.holds ++ s.sequenced)) := by
      change (((s.changesets.queue _).memory ++ s.changesets.table.map Prod.snd) ++
        s.sequenced).Perm _
      rw [Lane.queue_memory, items, Lane.holds, List.append_assoc, List.append_assoc,
        List.append_assoc]
      exact List.perm_append_comm_assoc _ _ _
    rw [(perm.map Item.key).nodup_iff, List.map_append]
    refine List.Nodup.append ?_ once.nodup ?_
    · cases new with
      | nil => exact List.nodup_nil
      | cons x rest =>
        cases rest with
        | nil => exact List.nodup_singleton _
        | cons y rest => simp at single
    · intro key ofNew ofOld
      obtain ⟨x, isNew, rfl⟩ := List.mem_map.mp ofNew
      obtain ⟨y, isOld, same⟩ := List.mem_map.mp ofOld
      rw [← items, List.mem_filter] at isNew
      have bounds := numbers x isNew.1
      have sessions : y.session = x.session := congrArg Prod.fst same
      have sequences : y.sequence = x.sequence := congrArg Prod.snd same
      rcases once.past y isOld with earlier | ⟨-, earlier⟩
      · omega
      · omega
  · intro x member
    change x ∈ ((s.changesets.queue _).memory ++ s.changesets.table.map Prod.snd) ++ s.sequenced
      at member
    rw [Lane.queue_memory] at member
    have old (h : x ∈ s.changesets.holds ++ s.sequenced) : (s.extract room).Past x := by
      rcases once.past x h with earlier | ⟨own, earlier⟩
      · exact .inl earlier
      · exact .inr ⟨own, by omega⟩
    simp only [List.mem_append] at member
    rcases member with ((inMemory | new) | inTable) | inLog
    · exact old (by simp [Lane.holds, inMemory])
    · rw [List.mem_filter] at new
      have bounds := numbers x new.1
      exact .inr ⟨bounds.1, bounds.2.2.2 new.2⟩
    · exact old (List.mem_append_left _ (List.mem_append_right _ inTable))
    · exact old (List.mem_append_right _ inLog)
  · intro x member
    rcases Lane.mem_queue_stock _ _ x member with held | new
    · exact once.snapshots x held
    · simpa using (List.mem_filter.mp new).2

variable (config : Config)

omit [DecidableEq κ] [DecidableEq ν] in
theorem once_move (kind : Kind) (m : Move) (s : System Q ν) (once : s.Once)
    (answered : s.Answered (.move kind m)) : (s.move config kind m).Once := by
  cases kind with
  | changesets =>
    have moved := Lane.holds_move config .changesets s.changesets m (by simp) once.tidy answered
    apply once_of_subperm s _ once
    · exact Lane.tidy_move config .changesets s.changesets m (by simp) once.tidy
    · exact once.unused
    · have log : (s.move config .changesets m).sequenced = s.sequenced ++
          (s.changesets.arrivals m).flatten.filter fun x => x.emission.isChangeset := by
        simp [sequenced, move, lane]
      have fewer : ((s.changesets.move config .changesets m).holds ++
          (s.changesets.arrivals m).flatten.filter fun x => x.emission.isChangeset).Subperm
            s.changesets.holds :=
        ((List.subperm_append_left _).mpr List.filter_sublist.subperm).trans moved
      rw [log]
      change ((s.changesets.move config .changesets m).holds ++ _).Subperm _
      apply (List.perm_append_comm_assoc _ _ _).subperm.trans
      apply List.Subperm.trans _ (List.perm_append_comm).subperm
      exact (List.subperm_append_left _).mpr fewer
    · exact List.Subset.refl _
    · intro x past
      exact past
  | snapshots =>
    apply once_of_subperm s _ once
    · exact once.tidy
    · exact Lane.buffer_move config s.snapshots m once.unused
    · have log : (s.move config .snapshots m).sequenced = s.sequenced := by
        apply sequenced_append s _ (s.snapshots.arrivals m) rfl
        intro x arrived
        exact once.snapshots x (Lane.arrivals_stock s.snapshots m arrived)
      rw [log]
      exact List.Subperm.refl _
    · exact Lane.stock_move config .snapshots s.snapshots m fun _ => once.unused
    · intro x past
      exact past

theorem once_operate (op : SessionState.Operation Q ν) (s : System Q ν) (once : s.Once) :
    (s.operate op).Once := by
  by_cases push : ∃ room, op = .push room
  · obtain ⟨room, rfl⟩ := push
    exact once_extract room s once
  · have other : ∀ room, op ≠ .push room := by simpa using push
    rw [operate_other s op other]
    refine once_published s _ once ((s.published op).map fun x => [x]) rfl ?_ rfl rfl rfl
      (SessionState.step_publishes s.client op other).1
    intro x member
    have published : x ∈ s.published op := by simpa using member
    exact (published_numbers s op other x published).2.2

omit [DecidableEq κ] [DecidableEq ν] in
theorem attached_snapshots (session : Nat) (empty db : Database Q ν) (snapshotInterval : Nat)
    (published : Bool) (x : Item σ κ ν)
    (h : x ∈ ((SessionState.attach empty db snapshotInterval published).emitted.map
      fun e => [(⟨session, e⟩ : Item σ κ ν)]).flatten) : x.emission.isChangeset = false := by
  obtain ⟨-, snapshots⟩ := SessionState.attach_publishes empty db snapshotInterval published
  obtain ⟨message, sent, member⟩ := List.mem_flatten.mp h
  obtain ⟨e, emitted, rfl⟩ := List.mem_map.mp sent
  rw [List.mem_singleton.mp member]
  exact (snapshots e emitted).2

omit [DecidableEq κ] [DecidableEq ν] in
theorem once_attach (empty db : Database Q ν) (snapshotInterval : Nat) (published : Bool)
    (s : System Q ν) (once : s.Once) : (s.attach empty db snapshotInterval published).Once := by
  apply once_of_subperm s _ once
  · exact Lane.tidy_restart _ once.tidy.numbered
  · rfl
  · have log := sequenced_append s (s.attach empty db snapshotInterval published) _ rfl
      (attached_snapshots (s.session + 1) empty db snapshotInterval published)
    rw [log]
    exact (List.subperm_append_right _).mpr
      ((List.subperm_append_right _).mpr List.nil_subperm)
  · exact Lane.restart_stock s.snapshots
  · intro x past
    refine .inl ?_
    change x.session < s.session + 1
    rcases past with earlier | ⟨own, -⟩
    · omega
    · omega

theorem once_step (s : System Q ν) (e : Event Q ν) (once : s.Once) (answered : s.Answered e) :
    (s.step config e).Once := by
  have signalled : (s.mapLanes Lane.signalled).Once :=
    ⟨Lane.tidy_signalled _ once.tidy, once.unused, once.nodup, once.past, once.snapshots⟩
  have closed (room : SessionState.Room) : ((s.extract room).mapLanes Lane.close).Once := by
    have extracted := once_extract room s once
    exact ⟨Lane.tidy_close _ extracted.tidy, extracted.unused, extracted.nodup, extracted.past,
      extracted.snapshots⟩
  have staged (s : System Q ν) (stage : Stage) (h : s.Once) : ({ s with stage := stage }).Once :=
    ⟨h.tidy, h.unused, h.nodup, h.past, h.snapshots⟩
  cases e with
  | operate op =>
    rw [step]
    split
    · exact once_operate op s once
    · exact once
  | strayed =>
    rw [step]
    split
    · exact once_published s _ once
        [[⟨s.session, .snapshot .request s.client.sequence s.client.db.toImage⟩]] rfl
        (by simp [Emission.isChangeset]) rfl rfl rfl rfl
    · exact once
  | move kind m => exact once_move config kind m s once answered
  | cleanup expired =>
    rw [step]
    split
    · rename_i unread
      apply once_of_subperm s _ once
      · exact Lane.tidy_clean (fun x => expired x && decide (x.session < s.session)) s.changesets
          once.tidy (by simpa using unread.2)
      · exact once.unused
      · apply (List.subperm_append_right _).mpr
        exact (List.subperm_append_left _).mpr (List.filter_sublist.map Prod.snd).subperm
      · exact Lane.clean_stock _ s.snapshots
      · intro x past
        exact past
    · exact once
  | shutdown =>
    rw [step]
    split
    · exact staged _ _ signalled
    · exact once
  | finish room =>
    rw [step]
    split
    · exact staged _ _ (closed room)
    · exact once
  | dropMonitor room =>
    rw [step]
    split
    · exact staged _ _ (closed room)
    · exact once
  | signal =>
    rw [step]
    split
    · exact signalled
    · exact once
  | join =>
    rw [step]
    split
    · exact staged _ _ once
    · exact once
  | crash =>
    apply once_of_subperm s _ once
    · exact Lane.tidy_stop _ once.tidy
    · rfl
    · exact (List.subperm_append_right _).mpr
        ((List.subperm_append_right _).mpr List.nil_subperm)
    · exact Lane.stop_stock s.snapshots
    · intro x past
      exact past
  | attach empty db snapshotInterval published =>
    rw [step]
    split
    · exact once_attach empty db snapshotInterval published s once
    · exact once

omit [DecidableEq κ] [DecidableEq ν] in
theorem once_first (empty db : Database Q ν) (snapshotInterval : Nat) (published : Bool) :
    (first empty db snapshotInterval published).Once := by
  have log : (first empty db snapshotInterval published).sequenced = [] := by
    apply List.filter_eq_nil_iff.mpr
    intro x member
    simp [attached_snapshots 0 empty db snapshotInterval published x member]
  refine ⟨Lane.tidy_restart ⟨[], false, false, .new, [], 0⟩ Lane.numbered_new, rfl, ?_, ?_, ?_⟩
  · rw [log]
    exact List.nodup_nil
  · rw [log]
    intro x member
    cases member
  · intro x member
    cases member

/-- While no response is lost, every changeset is sequenced once at most. -/
theorem changesets_once (empty db : Database Q ν) (snapshotInterval : Nat) (published : Bool)
    (es : List (Event Q ν))
    (answered : Along (step config) Answered (first empty db snapshotInterval published) es)
    (n : Nat) :
    ((stateAt (step config) (first empty db snapshotInterval published) es n).sequenced.map
      Item.key).Nodup := by
  have once := along_invariant (step config) (fun s e => once_step config s e) _ _
    (once_first empty db snapshotInterval published) (along_take _ _ _ _ n answered)
  have all := once.nodup
  rw [List.map_append] at all
  exact List.Nodup.of_append_right all

end System

namespace LossSample

open Sample

/-- A payment is extracted and its request begins. -/
def payment : List (Event sqlite Nat) :=
  [.operate (.write payer (some [0, 20])), .operate (.push clear), .move .changesets .start,
    .move .changesets (.receive false)]

/-- The client stops, and a new one retries what it left. -/
def restarted : List (Event sqlite Nat) :=
  [.crash, .attach empty accounts 100 true, .move .changesets .start, .move .changesets .retryNext,
    .move .changesets (.attempt true true true)]

/-- The requests are not sequenced before the retry. -/
def failedBefore : List (Event sqlite Nat) :=
  payment ++ .move .changesets (.attempt false false true) ::
    .move .changesets (.attempt false false true) :: restarted

theorem changesets_once_failed_before :
    Along (System.step config) System.Answered process failedBefore ∧
      (stateAt (System.step config) process failedBefore 11).sequenced.map Item.key = [(0, 0)] ∧
      ((stateAt (System.step config) process failedBefore 11).sequenced.map Item.key).Nodup :=
  ⟨by decide, by decide,
    System.changesets_once config empty accounts 100 true failedBefore (by decide) 11⟩

/-- The response to the first request is lost. -/
def lostOnce : List (Event sqlite Nat) :=
  payment ++ [.move .changesets (.attempt true false true),
    .move .changesets (.attempt true true true)]

/-- Two responses are lost, and the changeset is saved and sent by the next client. -/
def lostTwice : List (Event sqlite Nat) :=
  payment ++ .move .changesets (.attempt true false true) ::
    .move .changesets (.attempt true false true) :: restarted

theorem changeset_sequenced_again :
    (stateAt (System.step config) process lostOnce 6).sequenced.map Item.key = [(0, 0), (0, 0)] ∧
      ¬((stateAt (System.step config) process lostOnce 6).sequenced.map Item.key).Nodup ∧
      (stateAt (System.step config) process lostTwice 11).sequenced.map Item.key =
        [(0, 0), (0, 0), (0, 0)] := by
  decide

end LossSample

end SyndDB.Client
