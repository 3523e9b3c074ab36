import SyndDB.Framework.Rewind
import SyndDB.Replication.Audit

namespace SyndDB.Replication

open Octets Rewind Shared

variable {δ : Type}

namespace SessionFunctions

variable (S : SessionFunctions δ)

/-- The loop over the sorted changesets. Those left when one fails are found in the sorted list, by
the number of inversions applied so far. -/
def chainLoop (sorted : List (UInt64 × Bytes)) : List (UInt64 × Bytes) → Walk δ → Walk δ
  | [], w => w
  | (sequence, data) :: rest, w =>
      match S.invertChangeset data with
      | .error e =>
          w.broken sequence ("Failed to invert: " ++ e)
            (sorted.drop (w.appliedInversions.length + 1))
      | .ok inverted =>
          match S.applyStrm w.conn inverted with
          | .error e =>
              w.broken sequence ("Inverted changeset failed to apply: " ++ e)
                (sorted.drop (w.appliedInversions.length + 1))
          | .ok conn =>
              chainLoop sorted rest ⟨w.verified ++ [sequence], w.failed,
                w.appliedInversions ++ [(sequence, data)], conn⟩

/-- `verify_changeset_chain` as its loop runs. -/
def verifyChangesetChainByIndex (conn : δ) (pending : List (UInt64 × Bytes)) : AuditResult × δ :=
  if pending.isEmpty then (⟨[], []⟩, conn)
  else
    let sorted := newestFirst pending
    let w := S.chainLoop sorted sorted ⟨[], [], [], conn⟩
    (⟨w.verified, w.failed⟩, S.replayForward w.appliedInversions.reverse w.conn)

/-- As many inversions have been applied as the loop has passed changesets, so the index finds the
rest of the loop. -/
theorem chainLoop_eq (sorted rest : List (UInt64 × Bytes)) (w : Walk δ)
    (place : sorted.drop w.appliedInversions.length = rest) :
    S.chainLoop sorted rest w = S.walkBack rest w := by
  induction rest generalizing w with
  | nil => rfl
  | cons p rest ih =>
    obtain ⟨sequence, data⟩ := p
    have remaining : sorted.drop (w.appliedInversions.length + 1) = rest := by
      rw [← List.drop_drop, place, List.drop_one, List.tail_cons]
    rw [chainLoop, walkBack, remaining]
    cases S.invertChangeset data with
    | error e => rfl
    | ok inverted =>
      cases applied : S.applyStrm w.conn inverted with
      | error e => simp only [applied]
      | ok conn =>
        simp only [applied]
        apply ih
        show sorted.drop (w.appliedInversions ++ [(sequence, data)]).length = rest
        rw [List.length_append, List.length_singleton, remaining]

theorem verifyChangesetChainByIndex_eq (conn : δ) (pending : List (UInt64 × Bytes)) :
    S.verifyChangesetChainByIndex conn pending = S.verifyChangesetChain conn pending := by
  have loop := S.chainLoop_eq (newestFirst pending) (newestFirst pending) ⟨[], [], [], conn⟩ rfl
  simp only [verifyChangesetChainByIndex, verifyChangesetChain, loop]

def undo (conn : δ) (p : UInt64 × Bytes) : Option δ :=
  match S.invertChangeset p.2 with
  | .error _ => none
  | .ok inverted => (S.applyStrm conn inverted).toOption

def redo (conn : δ) (p : UInt64 × Bytes) : Option δ := (S.applyStrm conn p.2).toOption

/-- A changeset applied again after its inverse applied restores the state. -/
def Restores : Prop :=
  ∀ conn data inverted after, S.invertStrm data = .ok inverted →
    S.applyStrm conn inverted = .ok after → S.applyStrm after data = .ok conn

theorem redo_undo (restores : S.Restores) (conn : δ) (p : UInt64 × Bytes) (after : δ)
    (undone : S.undo conn p = some after) : S.redo after p = some conn := by
  rw [undo, invertChangeset] at undone
  cases inverts : S.invertStrm p.2 with
  | error e =>
    rw [inverts] at undone
    cases undone
  | ok inverted =>
    rw [inverts] at undone
    cases applied : S.applyStrm conn inverted with
    | error e =>
      have failed : (S.applyStrm conn inverted).toOption = some after := undone
      rw [applied] at failed
      cases failed
    | ok state =>
      have reached : (S.applyStrm conn inverted).toOption = some after := undone
      rw [applied] at reached
      obtain rfl : state = after := Option.some.inj reached
      rw [redo, restores conn p.2 inverted state inverts applied]
      rfl

theorem replayForward_eq (cs : List (UInt64 × Bytes)) (conn : δ) :
    S.replayForward cs conn = replay S.redo cs conn := by
  induction cs generalizing conn with
  | nil => rfl
  | cons c cs ih =>
    rw [replayForward, replay, redo]
    cases S.applyStrm conn c.2 with
    | error e => exact ih conn
    | ok next => exact ih next

/-- The lists that the walk fills are those of what is undone and of what is left. -/
structure Walk.Follows (w : Walk δ) (before : Walk δ) (parts : List (UInt64 × Bytes) ×
    List (UInt64 × Bytes) × δ) : Prop where
  verified : w.verified = before.verified ++ parts.1.map Prod.fst
  failed : w.failed.map AuditFailure.sequence =
    before.failed.map AuditFailure.sequence ++ parts.2.1.map Prod.fst
  appliedInversions : w.appliedInversions = before.appliedInversions ++ parts.1
  conn : w.conn = parts.2.2

theorem broken_follows (w : Walk δ) (sequence : UInt64) (data : Bytes) (reason : String)
    (remaining : List (UInt64 × Bytes)) :
    (w.broken sequence reason remaining).Follows w ([], (sequence, data) :: remaining, w.conn) := by
  refine ⟨by simp [Walk.broken], ?_, by simp [Walk.broken], rfl⟩
  simp [Walk.broken]

theorem walkBack_follows (cs : List (UInt64 × Bytes)) (w : Walk δ) :
    (S.walkBack cs w).Follows w (rewind S.undo w.conn cs) := by
  induction cs generalizing w with
  | nil =>
    exact ⟨by simp [walkBack, rewind], by simp [walkBack, rewind], by simp [walkBack, rewind], rfl⟩
  | cons p rest ih =>
    obtain ⟨sequence, data⟩ := p
    rw [walkBack, rewind, undo]
    cases S.invertChangeset data with
    | error e => exact broken_follows w sequence data _ rest
    | ok inverted =>
      cases applied : S.applyStrm w.conn inverted with
      | error e =>
        simp only [applied]
        exact broken_follows w sequence data _ rest
      | ok conn =>
        simp only [applied]
        have next := ih ⟨w.verified ++ [sequence], w.failed,
          w.appliedInversions ++ [(sequence, data)], conn⟩
        refine ⟨?_, next.failed, ?_, next.conn⟩
        · rw [next.verified]
          simp [Except.toOption]
        · rw [next.appliedInversions]
          simp [Except.toOption]

/-- What the audit reports: the newest changesets as far as they can be undone, and the others. -/
theorem verifyChangesetChain_rewind (conn : δ) (pending : List (UInt64 × Bytes)) :
    let parts := rewind S.undo conn (newestFirst pending)
    let audit := S.verifyChangesetChain conn pending
    audit.1.verified = parts.1.map Prod.fst ∧
      audit.1.failed.map AuditFailure.sequence = parts.2.1.map Prod.fst ∧
      audit.2 = replay S.redo parts.1.reverse parts.2.2 := by
  rw [verifyChangesetChain]
  by_cases empty : pending.isEmpty = true
  · rw [if_pos empty, List.isEmpty_iff.mp empty]
    exact ⟨rfl, rfl, rfl⟩
  · rw [if_neg empty]
    have walk := S.walkBack_follows (newestFirst pending) ⟨[], [], [], conn⟩
    refine ⟨walk.verified, walk.failed, ?_⟩
    show S.replayForward
      (S.walkBack (newestFirst pending) ⟨[], [], [], conn⟩).appliedInversions.reverse
      (S.walkBack (newestFirst pending) ⟨[], [], [], conn⟩).conn = _
    rw [replayForward_eq, walk.appliedInversions, walk.conn]
    rfl

theorem newestFirst_decreasing (pending : List (UInt64 × Bytes))
    (distinct : (pending.map Prod.fst).Nodup) :
    (newestFirst pending).Pairwise fun p q => q.1 < p.1 := by
  have sorted : (newestFirst pending).Pairwise fun p q => q.1 ≤ p.1 := by
    refine List.pairwise_insertionSort (fun p q : UInt64 × Bytes => q.1 ≤ p.1) pending
  have apart : (newestFirst pending).Pairwise fun p q => p.1 ≠ q.1 := by
    rw [← List.pairwise_map (R := (· ≠ ·))]
    exact (((newestFirst_perm pending).map Prod.fst).nodup_iff).mpr distinct
  refine (sorted.and apart).imp ?_
  intro p q both
  exact UInt64.lt_of_le_of_ne both.1 fun same => both.2 same.symm

/-- Each pending changeset is reported once, verified from the highest sequence down to the first
that cannot be undone, and the database is left as it was. -/
theorem verifyChangesetChain_exhaustive (restores : S.Restores) (conn : δ)
    (pending : List (UInt64 × Bytes)) (distinct : (pending.map Prod.fst).Nodup) :
    let audit := S.verifyChangesetChainByIndex conn pending
    let reported := audit.1.verified ++ audit.1.failed.map AuditFailure.sequence
    (reported.Perm (pending.map Prod.fst) ∧ reported.Nodup) ∧
      (∃ undone rest back, (undone ++ rest).Perm pending ∧
        (undone ++ rest).Pairwise (fun p q => q.1 < p.1) ∧
        Undoes S.undo conn undone back ∧ Stuck S.undo back rest ∧
        audit.1.verified = undone.map Prod.fst ∧
        audit.1.failed.map AuditFailure.sequence = rest.map Prod.fst) ∧
      audit.2 = conn := by
  intro audit reported
  have source : audit = S.verifyChangesetChain conn pending :=
    S.verifyChangesetChainByIndex_eq conn pending
  have all : reported.Perm (pending.map Prod.fst) := by
    show (audit.1.verified ++ audit.1.failed.map AuditFailure.sequence).Perm _
    rw [source]
    exact S.reported_verifyChangesetChain conn pending
  obtain ⟨verified, failed, final⟩ := S.verifyChangesetChain_rewind conn pending
  have parts := rewind_append S.undo conn (newestFirst pending)
  have back := rewind_undoes S.undo conn (newestFirst pending)
  refine ⟨⟨all, all.nodup_iff.mpr distinct⟩,
    ⟨_, _, _, ?_, ?_, back, rewind_stuck _ _ _, ?_, ?_⟩, ?_⟩
  · rw [parts]
    exact newestFirst_perm pending
  · rw [parts]
    exact newestFirst_decreasing pending distinct
  · rw [source]
    exact verified
  · rw [source]
    exact failed
  · rw [source, final]
    exact replay_undone S.undo S.redo (S.redo_undo restores) conn _ _ back

end SessionFunctions

namespace AuditSample

theorem session_restores : session.Restores := by
  intro conn data inverted after inverts applied
  simp only [session] at inverts applied ⊢
  cases read : readChange data with
  | none =>
    rw [read] at inverts
    cases inverts
  | some entry =>
    obtain ⟨insert, record⟩ := entry
    rw [read] at inverts
    cases inverts
    rw [readChange_change] at applied
    cases conn with
    | none =>
      cases applied
      cases insert with
      | true => rfl
      | false => rfl
    | some state =>
      cases state with
      | none =>
        cases insert with
        | true => cases applied
        | false =>
          cases applied
          simp
      | some row =>
        cases insert with
        | false => cases applied
        | true =>
          by_cases same : record = row
          · simp only [Bool.not_true, same, if_true] at applied
            cases applied
            rw [same]
          · simp only [Bool.not_true, same, if_false] at applied
            cases applied

/-- The same insert, deferred twice. -/
def twoInserts : List (UInt64 × Bytes) := [(0, change true row), (1, change true row)]

theorem verifyChangesetChain_exhaustive_inserts :
    let audit := session.verifyChangesetChainByIndex inserted twoInserts
    audit.1.verified = [1] ∧ audit.1.failed.map AuditFailure.sequence = [0] ∧
      (audit.1.verified ++ audit.1.failed.map AuditFailure.sequence).Nodup ∧
      audit.2 = inserted := by
  obtain ⟨⟨-, once⟩, -, unchanged⟩ :=
    session.verifyChangesetChain_exhaustive session_restores inserted
    twoInserts (by decide)
  exact ⟨by decide, by decide, once, unchanged⟩

end AuditSample

namespace PendingStore

/-- The sequence is the key of the table. -/
def Ordered (s : PendingStore) : Prop := s.Pairwise fun p q => p.sequence < q.sequence

theorem insertOrReplace_ordered (s : PendingStore) (p : PendingChangeset) (h : Ordered s) :
    Ordered (insertOrReplace p s) := by
  induction s with
  | nil => exact List.pairwise_singleton _ _
  | cons q rest ih =>
    obtain ⟨first, later⟩ := List.pairwise_cons.mp h
    rw [insertOrReplace]
    by_cases before : p.sequence < q.sequence
    · rw [if_pos before]
      refine List.pairwise_cons.mpr ⟨?_, h⟩
      intro r hr
      rcases List.mem_cons.mp hr with rfl | among
      · exact before
      · exact UInt64.lt_trans before (first r among)
    · rw [if_neg before]
      by_cases same : p.sequence = q.sequence
      · rw [if_pos same]
        refine List.pairwise_cons.mpr ⟨?_, later⟩
        intro r hr
        rw [same]
        exact first r hr
      · rw [if_neg same]
        refine List.pairwise_cons.mpr ⟨?_, ih later⟩
        intro r hr
        rcases mem_insertOrReplace rest p r hr with rfl | among
        · exact UInt64.lt_of_le_of_ne (UInt64.not_lt.mp before) fun equal => same equal.symm
        · exact first r among

theorem clearUpTo_ordered (s cleared : PendingStore) (sequence : UInt64) (h : Ordered s)
    (clears : s.clearUpTo sequence = .ok cleared) : Ordered cleared := by
  rw [clearUpTo] at clears
  by_cases fits : bindable sequence = true
  · rw [if_pos fits] at clears
    obtain rfl := Except.ok.inj clears
    exact h.filter _
  · rw [if_neg fits] at clears
    cases clears

theorem relevant_nodup (s : PendingStore) (h : Ordered s) (snapshotSequence : UInt64) :
    ((s.relevant snapshotSequence).map Prod.fst).Nodup := by
  have numbers : (s.relevant snapshotSequence).map Prod.fst =
      (s.filter fun p => p.sequence < snapshotSequence).map PendingChangeset.sequence := by
    rw [relevant, List.map_map]
    rfl
  have distinct : (s.filter fun p => p.sequence < snapshotSequence).Pairwise
      fun p q => p.sequence ≠ q.sequence := by
    apply (h.filter _).imp
    intro p q lt
    exact UInt64.ne_of_lt lt
  rw [numbers]
  exact List.pairwise_map.mpr distinct

theorem mem_relevant (s : PendingStore) (snapshotSequence sequence : UInt64) :
    sequence ∈ (s.relevant snapshotSequence).map Prod.fst ↔
      ∃ p ∈ s, p.sequence < snapshotSequence ∧ p.sequence = sequence := by
  simp [relevant, and_assoc]

end PendingStore

/-- A message keeps the key of the store. -/
theorem applyMessageWithAudit_ordered (E : Engine δ) (m : SignedMessage) (d : Databases δ)
    (h : d.pendingStore.Ordered) : (applyMessageWithAudit E m d).2.pendingStore.Ordered := by
  have cleared : ∀ d : Databases δ, d.pendingStore.Ordered →
      (verifyPendingChangesetsAfterSnapshot E m.sequence d).2.pendingStore.Ordered := by
    intro d ordered
    rw [verifyPendingChangesetsAfterSnapshot]
    by_cases empty : d.pendingStore.isEmpty = true
    · rw [if_pos empty]
      exact ordered
    · rw [if_neg empty]
      by_cases none : (d.pendingStore.filter fun p => p.sequence < m.sequence).isEmpty = true
      · simp only [none, if_true]
        exact ordered
      · simp only [none, Bool.false_eq_true, if_false]
        cases clears : d.pendingStore.clearUpTo m.sequence with
        | error e => exact ordered
        | ok pending => exact PendingStore.clearUpTo_ordered _ pending m.sequence ordered clears
  rw [applyMessageWithAudit]
  cases applyMessageWithRules E m d.replica with
  | ok replica =>
    by_cases snapshot : m.messageType = .Snapshot
    · simp only [snapshot, if_true]
      have after := cleared { d with replica := replica } h
      cases audited : verifyPendingChangesetsAfterSnapshot E m.sequence
        { d with replica := replica } with
      | mk result databases =>
        rw [audited] at after
        cases result with
        | error e => exact after
        | ok done => exact after
    · simp only [snapshot, if_false]
      exact h
  | error errorMsg =>
    by_cases mismatch : (isSchemaMismatch errorMsg && decide (m.messageType = .Changeset)) = true
    · simp only [mismatch, if_true]
      cases stores : d.pendingStore.store ⟨m.sequence, m.payload, deferralReason errorMsg⟩ with
      | error e => exact h
      | ok pending =>
        rw [PendingStore.store] at stores
        split at stores
        · obtain rfl := Except.ok.inj stores
          exact PendingStore.insertOrReplace_ordered _ _ h
        · cases stores
    · simp only [mismatch]
      exact h

/-- The changesets that an audit is called with have distinct sequences, whatever was handled. -/
theorem relevant_distinct (E : Engine δ) (replica : δ) (messages : List SignedMessage)
    (snapshotSequence : UInt64) :
    (((Run.run (fun d m => (applyMessageWithAudit E m d).2) ⟨replica, []⟩
      messages).pendingStore.relevant snapshotSequence).map Prod.fst).Nodup := by
  apply PendingStore.relevant_nodup
  apply Run.run_invariant (J := fun d : Databases δ => d.pendingStore.Ordered)
  · intro d m ordered
    exact applyMessageWithAudit_ordered E m d ordered
  · exact List.Pairwise.nil

/-- What an audit leaves of the store: nothing is removed when no changeset is relevant or the
sequence cannot be bound, and else everything up to the snapshot is. -/
theorem verifyPending_store (E : Engine δ) (snapshotSequence : UInt64) (d : Databases δ) :
    (verifyPendingChangesetsAfterSnapshot E snapshotSequence d).2.pendingStore =
      if (d.pendingStore.relevant snapshotSequence).isEmpty || !PendingStore.bindable
        snapshotSequence
      then d.pendingStore else d.pendingStore.filter fun p => snapshotSequence < p.sequence := by
  have relevant : (d.pendingStore.relevant snapshotSequence).isEmpty =
      (d.pendingStore.filter fun p => p.sequence < snapshotSequence).isEmpty := by
    rw [PendingStore.relevant, List.isEmpty_map]
  rw [verifyPendingChangesetsAfterSnapshot, relevant]
  by_cases empty : d.pendingStore.isEmpty = true
  · rw [if_pos empty, List.isEmpty_iff.mp empty]
    rfl
  · rw [if_neg empty]
    by_cases none : (d.pendingStore.filter fun p => p.sequence < snapshotSequence).isEmpty = true
    · simp only [none, Bool.true_or, if_true]
    · simp only [none, Bool.false_eq_true, if_false, Bool.false_or, PendingStore.clearUpTo]
      cases PendingStore.bindable snapshotSequence with
      | true => rfl
      | false => rfl

/-- Exactly the changesets that were verified are removed. -/
structure ClearsVerified (report : AuditResult) (snapshotSequence : UInt64)
    (before after : PendingStore) : Prop where
  source : ∀ p ∈ after, p ∈ before
  removed : ∀ p ∈ before, p ∉ after ↔ p.sequence ∈ report.verified
  failed : ∀ p ∈ before, p.sequence ∈ report.failed.map AuditFailure.sequence → p ∈ after
  later : ∀ p ∈ before, snapshotSequence ≤ p.sequence → p ∈ after

/-- Nothing is older than the snapshot; or the store can be cleared, everything older can be undone
and nothing has the sequence of the snapshot itself; or the store cannot be cleared and not even the
newest of what is older can be undone. -/
def AuditClears (S : SessionFunctions δ) (snapshotSequence : UInt64) (d : Databases δ) : Prop :=
  let newest := SessionFunctions.newestFirst (d.pendingStore.relevant snapshotSequence)
  (∀ p ∈ d.pendingStore, snapshotSequence ≤ p.sequence) ∨
    (PendingStore.bindable snapshotSequence = true ∧
      (∃ before, Undoes S.undo d.replica newest before) ∧
      ∀ p ∈ d.pendingStore, p.sequence ≠ snapshotSequence) ∨
    (PendingStore.bindable snapshotSequence = false ∧ Stuck S.undo d.replica newest)

section Clearing

variable (S : SessionFunctions δ) (snapshotSequence : UInt64) (d : Databases δ)

theorem relevant_empty_iff : (d.pendingStore.relevant snapshotSequence).isEmpty = true ↔
    ∀ p ∈ d.pendingStore, snapshotSequence ≤ p.sequence := by
  simp [PendingStore.relevant, List.isEmpty_iff]

/-- The sequences that the audit reports are those of the relevant changesets. -/
theorem reported_relevant (sequence : UInt64)
    (h : sequence ∈ (auditReport S snapshotSequence d).verified ∨
      sequence ∈ (auditReport S snapshotSequence d).failed.map AuditFailure.sequence) :
    ∃ p ∈ d.pendingStore, p.sequence < snapshotSequence ∧ p.sequence = sequence := by
  have reported := S.reported_verifyChangesetChain d.replica
    (d.pendingStore.relevant snapshotSequence)
  have among : sequence ∈ (d.pendingStore.relevant snapshotSequence).map Prod.fst :=
    reported.mem_iff.mp (List.mem_append.mpr h)
  exact (PendingStore.mem_relevant d.pendingStore snapshotSequence sequence).mp among

/-- A store that is left as it was is right when nothing was verified. -/
theorem clearsVerified_untouched :
    ClearsVerified (auditReport S snapshotSequence d) snapshotSequence d.pendingStore
      d.pendingStore ↔
      (auditReport S snapshotSequence d).verified = [] := by
  constructor
  · intro clears
    apply List.eq_nil_iff_forall_not_mem.mpr
    intro sequence hs
    obtain ⟨p, hp, -, rfl⟩ := reported_relevant S snapshotSequence d sequence (.inl hs)
    exact (clears.removed p hp).mpr hs hp
  · intro none
    refine ⟨fun p hp => hp, ?_, fun p hp _ => hp, fun p hp _ => hp⟩
    intro p hp
    rw [none]
    simp [hp]

/-- A store that lost everything up to the snapshot is right when nothing failed, and nothing has
the sequence of the snapshot. -/
theorem clearsVerified_cleared :
    ClearsVerified (auditReport S snapshotSequence d) snapshotSequence d.pendingStore
        (d.pendingStore.filter fun p => snapshotSequence < p.sequence) ↔
      (auditReport S snapshotSequence d).failed = [] ∧
        ∀ p ∈ d.pendingStore, p.sequence ≠ snapshotSequence := by
  have kept (p : PendingChangeset) (hp : p ∈ d.pendingStore) :
      p ∈ d.pendingStore.filter (fun p => snapshotSequence < p.sequence) ↔
        snapshotSequence < p.sequence := by
    simp [hp]
  constructor
  · intro clears
    constructor
    · apply List.map_eq_nil_iff.mp
      apply List.eq_nil_iff_forall_not_mem.mpr
      intro sequence hs
      obtain ⟨p, hp, earlier, rfl⟩ := reported_relevant S snapshotSequence d sequence (.inr hs)
      have later := (kept p hp).mp (clears.failed p hp hs)
      exact absurd later (UInt64.not_lt.mpr (UInt64.le_of_lt earlier))
    · intro p hp same
      have later := (kept p hp).mp (clears.later p hp (same ▸ UInt64.le_refl _))
      exact absurd same (UInt64.ne_of_lt later).symm
  · intro ⟨nothing, apart⟩
    have reported := S.reported_verifyChangesetChain d.replica
      (d.pendingStore.relevant snapshotSequence)
    have failed : (S.verifyChangesetChain d.replica
        (d.pendingStore.relevant snapshotSequence)).1.failed = [] := nothing
    rw [failed, List.map_nil, List.append_nil] at reported
    refine ⟨fun p hp => List.mem_of_mem_filter hp, ?_, ?_, ?_⟩
    · intro p hp
      rw [kept p hp]
      constructor
      · intro early
        have before : p.sequence < snapshotSequence :=
          UInt64.lt_of_le_of_ne (UInt64.not_lt.mp early) (apart p hp)
        apply reported.mem_iff.mpr
        exact (PendingStore.mem_relevant _ _ _).mpr ⟨p, hp, before, rfl⟩
      · intro verified
        obtain ⟨q, -, earlier, same⟩ :=
          reported_relevant S snapshotSequence d p.sequence (.inl verified)
        rw [same] at earlier
        exact UInt64.not_lt.mpr (UInt64.le_of_lt earlier)
    · intro p hp hf
      rw [nothing] at hf
      cases hf
    · intro p hp later
      apply (kept p hp).mpr
      exact UInt64.lt_of_le_of_ne later (apart p hp).symm

/-- Nothing is left of the relevant changesets exactly if all of them can be undone. -/
theorem failed_eq_nil_iff : (auditReport S snapshotSequence d).failed = [] ↔
    ∃ before, Undoes S.undo d.replica
      (SessionFunctions.newestFirst (d.pendingStore.relevant snapshotSequence)) before := by
  obtain ⟨-, failed, -⟩ := S.verifyChangesetChain_rewind d.replica
    (d.pendingStore.relevant snapshotSequence)
  rw [← rewind_all_iff, ← List.map_eq_nil_iff (f := AuditFailure.sequence), auditReport, failed,
    List.map_eq_nil_iff]

theorem verified_eq_nil_iff : (auditReport S snapshotSequence d).verified = [] ↔
    Stuck S.undo d.replica
      (SessionFunctions.newestFirst (d.pendingStore.relevant snapshotSequence)) := by
  obtain ⟨verified, -, -⟩ := S.verifyChangesetChain_rewind d.replica
    (d.pendingStore.relevant snapshotSequence)
  rw [← rewind_none_iff, auditReport, verified, List.map_eq_nil_iff]

/-- The audit removes what it verified, and keeps the rest, exactly under these conditions. -/
theorem clearsVerified_iff (E : Engine δ) :
    ClearsVerified (auditReport S snapshotSequence d) snapshotSequence d.pendingStore
        (verifyPendingChangesetsAfterSnapshot (E.auditedBy S) snapshotSequence d).2.pendingStore ↔
      AuditClears S snapshotSequence d := by
  rw [verifyPending_store, AuditClears, ← relevant_empty_iff snapshotSequence d]
  by_cases none : (d.pendingStore.relevant snapshotSequence).isEmpty = true
  · simp only [none, Bool.true_or, if_true, true_or, iff_true]
    rw [clearsVerified_untouched, auditReport, List.isEmpty_iff.mp none]
    rfl
  · cases fits : PendingStore.bindable snapshotSequence with
    | true =>
      simp only [none, Bool.not_true, Bool.or_self, Bool.false_eq_true, if_false,
        false_or, true_and, Bool.true_eq_false, false_and, or_false]
      rw [clearsVerified_cleared, failed_eq_nil_iff]
    | false =>
      simp only [none, Bool.not_false, Bool.or_true, if_true, Bool.false_eq_true,
        false_and, false_or, true_and]
      rw [clearsVerified_untouched, verified_eq_nil_iff]

end Clearing

namespace AuditSample

/-- The changeset that a message of the sequencer left fails its audit and is removed. -/
theorem audit_removes_failed :
    let E := auditEngine.auditedBy session
    let d := (deferredBy E none [deferredMessage]).restored inserted
    (auditReport session 1 d).failed.map AuditFailure.sequence = [0] ∧
      (verifyPendingChangesetsAfterSnapshot E 1 d).2.pendingStore = [] ∧
      ¬ClearsVerified (auditReport session 1 d) 1 d.pendingStore
        (verifyPendingChangesetsAfterSnapshot E 1 d).2.pendingStore := by
  intro E d
  have evaluated : (auditReport session 1 d).failed.map AuditFailure.sequence = [0] ∧
      (verifyPendingChangesetsAfterSnapshot E 1 d).2.pendingStore = [] ∧
      d.pendingStore.map PendingChangeset.sequence = [0] := by
    decide +kernel
  obtain ⟨failed, removed, held⟩ := evaluated
  refine ⟨failed, removed, ?_⟩
  intro clears
  have member : (0 : UInt64) ∈ d.pendingStore.map PendingChangeset.sequence := by simp [held]
  obtain ⟨p, hp, number⟩ := List.mem_map.mp member
  have kept := clears.failed p hp (by simp [failed, number])
  rw [removed] at kept
  cases kept

end AuditSample

end SyndDB.Replication
