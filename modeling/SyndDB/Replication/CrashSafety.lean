import SyndDB.Client.Replay
import SyndDB.Replication.Audit
import SyndDB.Replication.Replay

namespace SyndDB.Replication

open Octets Run Shared

/-- The replica and the pending changesets, and the progress, which is kept in a
database of its own. -/
structure Durable (δ : Type) where
  databases : Databases δ
  lastSequence : Option UInt64

variable {δ : Type} (X : Externals) (E : Engine δ) (config : ValidatorConfig) (f : Fetcher)

def Validator.durable (v : Validator δ) : Durable δ := ⟨v.databases, v.lastSequence⟩

/-- The message that `sync_one` gets as far as applying. -/
def acceptedMessage (sequence : UInt64) : Option SignedMessage :=
  match f.get sequence with
  | .error _ | .ok none => none
  | .ok (some message) =>
      if message.sequence ≠ sequence then none
      else match SignatureVerifier.verify X config message, extractWithdrawal E message with
        | .ok (), .ok _ => some message
        | .ok (), .error _ | .error _, _ => none

/-- Where a crash can come while a message is applied. Every access to a database is atomic. -/
inductive CrashPoint (δ : Type) where
  | beforeCommit
  /-- Behind the restored snapshot, where the audit moves the replica back and forth. -/
  | auditing (replica : δ)
  | beforeRecord

/-- The databases that a crash leaves behind. -/
def CrashPoint.interrupted (message : SignedMessage) (point : CrashPoint δ) (d : Databases δ) :
    Databases δ :=
  match point with
  | .beforeCommit => d
  | .auditing replica =>
      if message.messageType = .Snapshot ∧ (applySnapshotMessage E message).isOk then
        { d with replica := replica }
      else d
  | .beforeRecord => (applyMessageWithAudit E message d).2

namespace Durable

def nextSequence (s : Durable δ) : UInt64 :=
  match s.lastSequence with
  | none => 0
  | some sequence => sequence + 1

/-- Apply a message, then record it. -/
def applyAndRecord (message : SignedMessage) (s : Durable δ) : Durable δ :=
  match applyMessageWithAudit E message s.databases with
  | (.error _, d) => { s with databases := d }
  | (.ok _, d) => ⟨d, some message.sequence⟩

/-- `sync_one` for the next sequence. -/
def sync (s : Durable δ) : Durable δ :=
  match acceptedMessage X E config f s.nextSequence with
  | none => s
  | some message => s.applyAndRecord E message

/-- The same with a crash on the way, and a restart. -/
def crash (point : CrashPoint δ) (s : Durable δ) : Durable δ :=
  match acceptedMessage X E config f s.nextSequence with
  | none => s
  | some message => { s with databases := point.interrupted E message s.databases }

/-- A turn is a call of `sync_one`, with or without a crash. -/
def turn (s : Durable δ) (point : Option (CrashPoint δ)) : Durable δ :=
  attempt (sync X E config f) (crash X E config f) s point

end Durable

/-- What is kept depends only on what was kept. -/
theorem syncOne_durable (v : Validator δ) :
    (SingleLoop.syncOne X E config f v.nextSequence v).2.durable =
      v.durable.sync X E config f := by
  have next : v.durable.nextSequence = v.nextSequence := rfl
  rw [SingleLoop.syncOne, Durable.sync, next, acceptedMessage]
  cases f.get v.nextSequence with
  | error e => rfl
  | ok found =>
    cases found with
    | none => rfl
    | some message =>
      by_cases other : message.sequence ≠ v.nextSequence
      · simp only [if_pos other]
      · simp only [if_neg other, Validator.syncMessage]
        cases SignatureVerifier.verify X config message with
        | error e => rfl
        | ok =>
          cases extractWithdrawal E message with
          | error e => rfl
          | ok w =>
            simp only [Validator.applyAndRecord, Durable.applyAndRecord, Validator.onWithdrawal,
              Validator.durable]
            cases applied : applyMessageWithAudit E message v.databases with
            | mk result d =>
              cases result with
              | error e => rfl
              | ok r => rfl

theorem insertOrReplace_again (s : PendingStore) (p : PendingChangeset) :
    PendingStore.insertOrReplace p (s.insertOrReplace p) = s.insertOrReplace p := by
  induction s with
  | nil => simp [PendingStore.insertOrReplace, UInt64.lt_irrefl]
  | cons q rest ih =>
    by_cases before : p.sequence < q.sequence
    · simp [PendingStore.insertOrReplace, before, UInt64.lt_irrefl]
    · by_cases same : p.sequence = q.sequence
      · simp [PendingStore.insertOrReplace, same, UInt64.lt_irrefl]
      · simp [PendingStore.insertOrReplace, before, same, ih]

/-- A deferred message is deferred again, and kept once. -/
theorem deferred_again (m : SignedMessage) (d d' : Databases δ)
    (h : applyMessageWithAudit E m d = (.ok .StoredAsPending, d')) :
    applyMessageWithAudit E m d' = (.ok .StoredAsPending, d') := by
  cases failed : applyMessageWithRules E m d.replica with
  | ok replica =>
    rw [applyMessageWithAudit, failed] at h
    simp only at h
    split at h
    · split at h
      · cases h
      · cases h
    · cases h
  | error errorMsg =>
    by_cases mismatch : (isSchemaMismatch errorMsg && decide (m.messageType = .Changeset)) = true
    · rw [applyMessageWithAudit, failed] at h
      simp only [mismatch, if_true] at h
      by_cases bound : PendingStore.bindable m.sequence = true
      · simp only [PendingStore.store, bound, if_true] at h
        cases h
        rw [applyMessageWithAudit, failed]
        simp [mismatch, PendingStore.store, bound, insertOrReplace_again]
      · simp [PendingStore.store, bound] at h
    · rw [applyMessageWithAudit, failed] at h
      simp [mismatch] at h

/-- After an audit the changesets before the snapshot are gone. -/
theorem relevant_cleared (s s' : PendingStore) (sequence : UInt64)
    (h : s.clearUpTo sequence = .ok s') : s'.filter (fun p => p.sequence < sequence) = [] := by
  rw [PendingStore.clearUpTo] at h
  split at h
  · cases h
    apply List.filter_eq_nil_iff.mpr
    intro p hp
    have after : sequence < p.sequence := by simpa using (List.mem_filter.mp hp).2
    have order : ¬p.sequence < sequence := UInt64.not_lt.mpr (UInt64.le_of_lt after)
    simp [order]
  · cases h

theorem verifyPending_again (sequence : UInt64) (d d' : Databases δ)
    (h : verifyPendingChangesetsAfterSnapshot E sequence d = (.ok (), d'))
    (restores : E.verifyChangesetChain d.replica (d.pendingStore.relevant sequence) = d.replica) :
    verifyPendingChangesetsAfterSnapshot E sequence { d' with replica := d.replica } =
      (.ok (), d') := by
  rw [verifyPendingChangesetsAfterSnapshot] at h
  by_cases empty : d.pendingStore.isEmpty = true
  · rw [if_pos empty] at h
    cases h
    rw [verifyPendingChangesetsAfterSnapshot, if_pos empty]
  · rw [if_neg empty] at h
    by_cases nothing : (d.pendingStore.filter fun p => p.sequence < sequence).isEmpty = true
    · simp only [nothing, if_true] at h
      cases h
      rw [verifyPendingChangesetsAfterSnapshot, if_neg empty]
      simp only [nothing, if_true]
    · simp only [nothing, Bool.false_eq_true, if_false] at h
      cases cleared : d.pendingStore.clearUpTo sequence with
      | error e =>
        rw [cleared] at h
        cases h
      | ok pending =>
        rw [cleared] at h
        cases h
        have gone := relevant_cleared d.pendingStore pending sequence cleared
        rw [PendingStore.relevant] at restores
        simp only [verifyPendingChangesetsAfterSnapshot, gone, restores, List.isEmpty_nil, if_true,
          ite_self]

/-- The result of a snapshot message is the result of its audit. -/
def snapshotResult : Except String Unit × Databases δ → Except String ApplyResult × Databases δ
  | (.error e, d) => (.error e, d)
  | (.ok (), d) => (.ok .Applied, d)

/-- A restored snapshot does not depend on the replica it replaces. -/
theorem snapshot_restored (m : SignedMessage) (d : Databases δ) (snapshot : δ)
    (type : m.messageType = .Snapshot) (h : applySnapshotMessage E m = .ok snapshot) :
    applyMessageWithAudit E m d = snapshotResult
      (verifyPendingChangesetsAfterSnapshot E m.sequence { d with replica := snapshot }) := by
  simp only [applyMessageWithAudit, applyMessageWithRules, type, h, if_true]
  cases verifyPendingChangesetsAfterSnapshot E m.sequence { d with replica := snapshot } with
  | mk result d =>
    cases result with
    | error e => rfl
    | ok => rfl

/-- After a crash before `record_sync` the message applies again without effect: a changeset message
on the replica it has led to, a snapshot message on the replica its audit has restored. -/
def AppliesAgain (m : SignedMessage) (d : Databases δ) : Prop :=
  match m.messageType with
  | .Withdrawal => True
  | .Snapshot => ∀ snapshot, applySnapshotMessage E m = .ok snapshot →
      E.verifyChangesetChain snapshot (d.pendingStore.relevant m.sequence) = snapshot
  | .Changeset => ∀ replica, applyChangesetMessageWithRules E m d.replica = .ok replica →
      applyChangesetMessageWithRules E m replica = .ok replica

theorem snapshot_again (m : SignedMessage) (d d' : Databases δ) (r : ApplyResult)
    (type : m.messageType = .Snapshot) (again : AppliesAgain E m d)
    (h : applyMessageWithAudit E m d = (.ok r, d')) :
    applyMessageWithAudit E m d' = (.ok r, d') := by
  cases restored : applySnapshotMessage E m with
  | error e => simp [applyMessageWithAudit, applyMessageWithRules, type, restored] at h
  | ok snapshot =>
    rw [AppliesAgain, type] at again
    have restores := again snapshot restored
    rw [snapshot_restored E m d snapshot type restored] at h
    rw [snapshot_restored E m d' snapshot type restored]
    cases verified : verifyPendingChangesetsAfterSnapshot E m.sequence
        { d with replica := snapshot } with
    | mk result d'' =>
      cases result with
      | error e =>
        rw [verified] at h
        cases h
      | ok =>
        rw [verified] at h
        cases h
        rw [verifyPending_again E m.sequence { d with replica := snapshot } d' verified restores]
        rfl

theorem changeset_again (m : SignedMessage) (d d' : Databases δ) (r : ApplyResult)
    (type : m.messageType = .Changeset) (again : AppliesAgain E m d)
    (h : applyMessageWithAudit E m d = (.ok r, d')) :
    applyMessageWithAudit E m d' = (.ok r, d') := by
  rw [AppliesAgain, type] at again
  cases applied : applyChangesetMessageWithRules E m d.replica with
  | ok replica =>
    have twice := again replica applied
    simp only [applyMessageWithAudit, applyMessageWithRules, type, applied, reduceCtorEq,
      if_false] at h
    cases h
    simp only [applyMessageWithAudit, applyMessageWithRules, type, twice, reduceCtorEq, if_false]
  | error e =>
    -- a message that is not applied but accepted has been deferred
    cases r with
    | StoredAsPending => exact deferred_again E m d d' h
    | Applied =>
      simp only [applyMessageWithAudit, applyMessageWithRules, type, applied] at h
      split at h
      · split at h
        · cases h
        · cases h
      · cases h

/-- Applying a message again after it has been applied. -/
theorem audit_again (m : SignedMessage) (d : Databases δ) (again : AppliesAgain E m d) :
    applyMessageWithAudit E m (applyMessageWithAudit E m d).2 = applyMessageWithAudit E m d := by
  cases applied : applyMessageWithAudit E m d with
  | mk result d' =>
    cases result with
    | error e => exact audit_error_again E m d d' e applied
    | ok r =>
      cases type : m.messageType with
      | Withdrawal =>
        rw [audit_withdrawal E m d type] at applied
        cases applied
        exact audit_withdrawal E m d type
      | Snapshot => exact snapshot_again E m d d' r type again applied
      | Changeset => exact changeset_again E m d d' r type again applied

/-- The crashes that the databases recover from. -/
def CrashPoint.Recovers (m : SignedMessage) (d : Databases δ) : CrashPoint δ → Prop
  | .beforeCommit | .auditing _ => True
  | .beforeRecord => AppliesAgain E m d

theorem interrupted_again (m : SignedMessage) (point : CrashPoint δ) (d : Databases δ)
    (recovers : point.Recovers E m d) :
    applyMessageWithAudit E m (point.interrupted E m d) = applyMessageWithAudit E m d := by
  cases point with
  | beforeCommit => rfl
  | beforeRecord => exact audit_again E m d recovers
  | auditing replica =>
    rw [CrashPoint.interrupted]
    split
    · rename_i restored
      cases snapshot : applySnapshotMessage E m with
      | error e => simp [snapshot, Except.isOk, Except.toBool] at restored
      | ok s =>
        rw [snapshot_restored E m _ s restored.1 snapshot,
          snapshot_restored E m d s restored.1 snapshot]
    · rfl

namespace Durable

/-- The crash of a turn, if there is one, is one that the databases recover from. -/
def Recovers (s : Durable δ) : Option (CrashPoint δ) → Prop
  | none => True
  | some point => ∀ m, acceptedMessage X E config f s.nextSequence = some m →
      point.Recovers E m s.databases

theorem crash_redoable (s : Durable δ) (point : Option (CrashPoint δ))
    (recovers : s.Recovers X E config f point) :
    Redoable (sync X E config f) (crash X E config f) s point := by
  cases point with
  | none => trivial
  | some point =>
    rw [Redoable]
    cases accepted : acceptedMessage X E config f s.nextSequence with
    | none => simp only [crash, accepted]
    | some m =>
      have next : (s.crash X E config f point).nextSequence = s.nextSequence := by
        simp only [crash, accepted]
        rfl
      have again := interrupted_again E m point s.databases (recovers m accepted)
      have crashed : (s.crash X E config f point).databases =
          point.interrupted E m s.databases := by
        simp only [crash, accepted]
      have progress : (s.crash X E config f point).lastSequence = s.lastSequence := by
        simp only [crash, accepted]
      simp only [sync, next, accepted, applyAndRecord, crashed, again, progress]

end Durable

section Rows

open Changes Client

variable {σ τ κ ν : Type} [DecidableEq κ] [DecidableEq ν] (Q : Sqlite σ τ κ)
  (readChangeset : Bytes → Except String (List (Change κ ν)))

/-- The engine that reads a changeset as a list of changes and applies them to the rows
of the replica. -/
def Engine.onRows (E : Engine (Image σ κ ν)) : Engine (Image σ κ ν) :=
  { E with applySingleChangeset := fun _ replica data =>
      match readChangeset data with
      | .error e => .error ("Failed to read changeset item: " ++ e)
      | .ok changes => Client.applySingleChangeset Q .onRows replica changes }

/-- All changes of a batch, in their order. -/
def batchChanges : List ChangesetData → Except String (List (Change κ ν))
  | [] => .ok []
  | changeset :: rest =>
      if changeset.data.isEmpty then batchChanges rest
      else match readChangeset changeset.data with
        | .error e => .error e
        | .ok changes =>
            match batchChanges rest with
            | .error e => .error e
            | .ok more => .ok (changes ++ more)

/-- A batch is applied like the list of all its changes. -/
theorem applyChangesets_ok (E : Engine (Image σ κ ν)) (m : SignedMessage) (batchId : String)
    (i : Nat) (replica result : Image σ κ ν) (changesets : List ChangesetData) :
    applyChangesets (E.onRows Q readChangeset) m batchId i replica changesets = .ok result ↔
      ∃ changes, batchChanges readChangeset changesets = .ok changes ∧
        validateChangesetSchema Q replica.schema changes = true ∧
        result.schema = replica.schema ∧
        Changes.applyAll skipInserts replica.rows changes = .ok result.rows := by
  induction changesets generalizing i replica with
  | nil =>
    rw [applyChangesets, batchChanges]
    constructor
    · intro same
      cases same
      exact ⟨[], rfl, rfl, rfl, rfl⟩
    · intro made
      obtain ⟨changes, read, -, schema, rows⟩ := made
      cases read
      have same : replica.rows = result.rows := Except.ok.inj rows
      obtain ⟨_, _⟩ := replica
      obtain ⟨_, _⟩ := result
      rw [Except.ok.injEq, Image.mk.injEq]
      exact ⟨schema.symm, same⟩
  | cons changeset rest ih =>
    rw [applyChangesets, batchChanges]
    by_cases empty : changeset.data.isEmpty = true
    · simp only [empty, if_true]
      exact ih (i + 1) replica
    · simp only [empty, Bool.false_eq_true, if_false]
      cases read : readChangeset changeset.data with
      | error e => simp [Engine.onRows, read]
      | ok changes =>
        have one : (E.onRows Q readChangeset).applySingleChangeset m.sequence replica
            changeset.data = Client.applySingleChangeset Q .onRows replica changes := by
          simp only [Engine.onRows, read]
        rw [one]
        constructor
        · intro applied
          cases first : Client.applySingleChangeset Q .onRows replica changes with
          | error e =>
            rw [first] at applied
            cases applied
          | ok next =>
            rw [first] at applied
            obtain ⟨valid, schema, rows⟩ :=
              (applySingleChangeset_onRows replica next changes).mp first
            obtain ⟨more, read_more, valid_more, schema_more, rows_more⟩ :=
              (ih (i + 1) next).mp applied
            rw [schema] at valid_more schema_more
            refine ⟨changes ++ more, by simp only [read_more], ?_, schema_more, ?_⟩
            · rw [validate_append, valid, valid_more]
              rfl
            · exact (applyAll_append _ _ _ _ _).mpr ⟨next.rows, rows, rows_more⟩
        · intro made
          obtain ⟨all, read_all, valid, schema, rows⟩ := made
          cases read_more : batchChanges readChangeset rest with
          | error e =>
            rw [read_more] at read_all
            cases read_all
          | ok more =>
            rw [read_more] at read_all
            cases read_all
            rw [validate_append, Bool.and_eq_true] at valid
            obtain ⟨between, rows_first, rows_more⟩ := (applyAll_append _ _ _ _ _).mp rows
            have first : Client.applySingleChangeset Q .onRows replica changes =
                .ok ⟨replica.schema, between⟩ :=
              (applySingleChangeset_onRows _ _ _).mpr ⟨valid.1, rfl, rows_first⟩
            simp only [first]
            exact (ih (i + 1) ⟨replica.schema, between⟩).mpr
              ⟨more, read_more, valid.2, schema, rows_more⟩

/-- The changes that a changeset message carries. -/
def messageChanges (E : Engine (Image σ κ ν)) (m : SignedMessage) :
    Except String (List (Change κ ν)) := do
  let batch ← decompressAndParse E E.parseChangesets m "changeset batch"
  batchChanges readChangeset batch.changesets

theorem applyChangesetMessage_ok (E : Engine (Image σ κ ν)) (m : SignedMessage)
    (replica result : Image σ κ ν) :
    applyChangesetMessageWithRules (E.onRows Q readChangeset) m replica = .ok result ↔
      ∃ changes, messageChanges readChangeset E m = .ok changes ∧
        validateChangesetSchema Q replica.schema changes = true ∧
        result.schema = replica.schema ∧
        Changes.applyAll skipInserts replica.rows changes = .ok result.rows ∧
        E.validateAll result m.sequence = .ok () := by
  have parsed : decompressAndParse (E.onRows Q readChangeset)
      (E.onRows Q readChangeset).parseChangesets m "changeset batch" =
        decompressAndParse E E.parseChangesets m "changeset batch" := rfl
  rw [applyChangesetMessageWithRules, parsed, messageChanges]
  cases decompressAndParse E E.parseChangesets m "changeset batch" with
  | error e => simp
  | ok batch =>
    simp only [Outcome.ok_bind]
    constructor
    · intro h
      obtain ⟨applied, changesets, h⟩ := (Outcome.bind_ok _ _ _).mp h
      obtain ⟨_, rules, h⟩ := (Outcome.bind_ok _ _ _).mp h
      cases h
      obtain ⟨changes, read, valid, schema, rows⟩ :=
        (applyChangesets_ok Q readChangeset E m _ _ _ _ _).mp changesets
      exact ⟨changes, read, valid, schema, rows, rules⟩
    · intro h
      obtain ⟨changes, read, valid, schema, rows, rules⟩ := h
      have changesets := (applyChangesets_ok Q readChangeset E m batch.batchId 0 replica result
        batch.changesets).mpr ⟨changes, read, valid, schema, rows⟩
      rw [changesets]
      have passed : (E.onRows Q readChangeset).validateAll result m.sequence = .ok () := rules
      simp [passed]

/-- The changes to each row lead from the row back to itself. -/
def RowsReturn (rows : Rows κ ν) (changes : List (Change κ ν)) : Prop :=
  ∀ key, applyRow skipInserts (rows key) (changesTo key changes) = .ok (rows key)

/-- A changeset message that has been applied applies again without effect exactly if its changes to
each row lead back to the row. -/
theorem changeset_message_again_iff (E : Engine (Image σ κ ν)) (m : SignedMessage)
    (replica result : Image σ κ ν) (changes : List (Change κ ν))
    (carries : messageChanges readChangeset E m = .ok changes)
    (h : applyChangesetMessageWithRules (E.onRows Q readChangeset) m replica = .ok result) :
    applyChangesetMessageWithRules (E.onRows Q readChangeset) m result = .ok result ↔
      RowsReturn result.rows changes := by
  obtain ⟨same, read, valid, schema, rows, rules⟩ :=
    (applyChangesetMessage_ok Q readChangeset E m replica result).mp h
  obtain rfl : changes = same := by
    rw [carries] at read
    exact Except.ok.inj read
  rw [applyChangesetMessage_ok, RowsReturn, ← applyAll_ok_iff]
  constructor
  · intro again
    obtain ⟨others, read_again, -, -, rows_again, -⟩ := again
    rw [carries] at read_again
    cases read_again
    exact rows_again
  · intro again
    exact ⟨changes, carries, by rw [schema]; exact valid, rfl, again, rules⟩

/-- One changeset: its changes lead back to the rows exactly if it only inserts. -/
theorem rowsReturn_iff_repeats (rows result : Rows κ ν) (changes : List (Change κ ν))
    (nodup : (changes.map Change.key).Nodup)
    (h : Changes.applyAll skipInserts rows changes = .ok result) :
    RowsReturn result changes ↔ ∀ change ∈ changes, change.Repeats := by
  rw [RowsReturn, ← applyAll_ok_iff]
  exact applyAll_again_iff rows result changes nodup h

variable (E : Engine (Image σ κ ν))

/-- Nothing is lost by a crash before `record_sync` if the audit has left a restored snapshot as it
was, or the changes of the message lead from each committed row back to it. -/
def CrashPoint.Survives (m : SignedMessage) (d : Databases (Image σ κ ν)) :
    CrashPoint (Image σ κ ν) → Prop
  | .beforeCommit | .auditing _ => True
  | .beforeRecord =>
      match m.messageType with
      | .Withdrawal => True
      | .Snapshot => ∀ snapshot, applySnapshotMessage E m = .ok snapshot →
          E.verifyChangesetChain snapshot (d.pendingStore.relevant m.sequence) = snapshot
      | .Changeset => ∀ replica changes,
          applyChangesetMessageWithRules (E.onRows Q readChangeset) m d.replica = .ok replica →
            messageChanges readChangeset E m = .ok changes → RowsReturn replica.rows changes

/-- Where the pending changesets are compressed payloads, a snapshot always survives. -/
theorem snapshot_survives (S : SessionFunctions (Image σ κ ν)) (reads : S.ReadsRecords)
    (m : SignedMessage) (d : Databases (Image σ κ ν)) (type : m.messageType = .Snapshot)
    (magic : ∀ p ∈ d.pendingStore, zstdMagic <+: p.data) :
    CrashPoint.beforeRecord.Survives Q readChangeset (E.auditedBy S) m d := by
  rw [CrashPoint.Survives, type]
  intro snapshot _
  apply (verifyChangesetChain_zstd S reads snapshot _ _).2
  intro p hp
  obtain ⟨q, hq, rfl⟩ := List.mem_map.mp hp
  exact magic q (List.mem_of_mem_filter hq)

theorem survives_recovers (m : SignedMessage) (d : Databases (Image σ κ ν))
    (point : CrashPoint (Image σ κ ν)) (h : point.Survives Q readChangeset E m d) :
    point.Recovers (E.onRows Q readChangeset) m d := by
  cases point with
  | beforeCommit => trivial
  | auditing replica => trivial
  | beforeRecord =>
    rw [CrashPoint.Survives] at h
    rw [CrashPoint.Recovers, AppliesAgain]
    cases type : m.messageType with
    | Withdrawal => trivial
    | Snapshot =>
      rw [type] at h
      exact h
    | Changeset =>
      rw [type] at h
      intro replica applied
      obtain ⟨changes, carries, -⟩ :=
        (applyChangesetMessage_ok Q readChangeset E m d.replica replica).mp applied
      exact (changeset_message_again_iff Q readChangeset E m d.replica replica changes carries
        applied).mpr (h replica changes applied carries)

/-- The crash of a turn, if there is one, loses nothing. -/
def Durable.Survives (s : Durable (Image σ κ ν)) : Option (CrashPoint (Image σ κ ν)) → Prop
  | none => True
  | some point => ∀ m, acceptedMessage X E config f s.nextSequence = some m →
      point.Survives Q readChangeset E m s.databases

/-- In a run whose crashes lose nothing, one turn without a crash leads at any time where a run
without crashes leads, and a message that was applied before a crash is recorded then. -/
theorem crashes_recovered (s : Durable (Image σ κ ν))
    (turns : List (Option (CrashPoint (Image σ κ ν))))
    (h : Along (Durable.turn X (E.onRows Q readChangeset) config f)
      (Durable.Survives X config f Q readChangeset E) s turns) (n : Nat) :
    let step := Durable.turn X (E.onRows Q readChangeset) config f
    run step s (turns.take n ++ [none]) =
        run step s (List.replicate ((turns.take n).countP Option.isNone + 1) none) ∧
      ∀ point m r, turns[n]? = some (some point) →
        acceptedMessage X E config f (stateAt step s turns n).nextSequence = some m →
        (applyMessageWithAudit (E.onRows Q readChangeset) m
          (stateAt step s turns n).databases).1 = .ok r →
        (run step s (turns.take (n + 1) ++ [none])).lastSequence = some m.sequence := by
  intro step
  have redoable : Along step (Redoable (Durable.sync X (E.onRows Q readChangeset) config f)
      (Durable.crash X (E.onRows Q readChangeset) config f)) s turns := by
    refine along_weaken step ?_ s turns h
    intro t turn survives
    apply Durable.crash_redoable
    cases turn with
    | none => trivial
    | some point =>
      intro m accepted
      exact survives_recovers Q readChangeset E m t.databases point (survives m accepted)
  constructor
  · have completed := run_redoable _ _ s (turns.take n) (along_take step _ s turns n redoable)
    rw [run_append]
    exact completed.trans (run_completed _ _ s _).symm
  · intro point m r crashed accepted applied
    have redone := along_getElem step _ s turns n (some point) redoable crashed
    rw [run_append]
    have last : run step s (turns.take (n + 1)) =
        Durable.crash X (E.onRows Q readChangeset) config f point (stateAt step s turns n) :=
      stateAt_succ step s turns n (some point) crashed
    rw [last]
    have same : run step (Durable.crash X (E.onRows Q readChangeset) config f point
        (stateAt step s turns n)) [none] =
          Durable.sync X (E.onRows Q readChangeset) config f (stateAt step s turns n) := redone
    rw [same]
    have accepted' : acceptedMessage X (E.onRows Q readChangeset) config f
        (stateAt step s turns n).nextSequence = some m := accepted
    cases result : applyMessageWithAudit (E.onRows Q readChangeset) m
        (stateAt step s turns n).databases with
    | mk outcome d =>
      rw [result] at applied
      simp only at applied
      rw [applied] at result
      simp only [Durable.sync, accepted', Durable.applyAndRecord, result]

end Rows

namespace CrashSample

open Shared.Sample AuditSample Changes Client

/-- One table of two columns, keyed by the first. -/
def table : Sqlite Bool Unit Nat where
  table _ := ()
  columns schema _ := if schema then some 2 else none
  hasExistingTables schema := schema
  computeSchemaHash _ := 0
  updateHook _ := true

def values (record : Bytes) : List Nat :=
  [fromBigEndian ((record.drop 2).take 8), fromBigEndian ((record.drop 11).take 8)]

def readTableChange (data : Bytes) : Except String (List (Change Nat Nat)) :=
  match readChange data with
  | none => .error "database disk image is malformed"
  | some (true, record) => .ok [.insert ((values record).headD 0) (values record)]
  | some (false, record) => .ok [.delete ((values record).headD 0) (values record)]

def deleteRequest : Bytes :=
  cborHead 5 2 ++ cborText "batch_id" ++ cborText "b" ++ cborText "changesets" ++ cborHead 4 1 ++
    cborHead 5 3 ++ cborText "data" ++ cborBytes (change false row) ++ cborText "sequence" ++
    cborHead 0 1 ++ cborText "timestamp" ++ cborHead 0 timestamp.toNat

def deleteCose : CoseSign1 :=
  { cose 1 (bigEndian 64
      0xa2686d3d6e7c4d8d010b8f7de94b38620bf5d2e4a90143851d08784e02805b124e3e73e7fb6926edbd34385e8f131817349b227b0b5ba4b878c6bd64e95f35d5)
    with payload := some (zstdRawFrame deleteRequest) }

def deleteDigest : Bytes :=
  bigEndian 32 0x6f69c4b649fa540908cda90f1b31167bddb0fddaced723946aaecc6ea2102b68

def tableRecord : Recorded where
  messages := [deferredCose, deleteCose]
  keccak256 := (tbs deleteCose, deleteDigest) :: (zstdRawFrame deleteRequest,
    bigEndian 32 0xed468fbff97ad99af34b6aed6d5cd512e31386c81b7775d414d5f40922d92998) ::
      auditRecord.keccak256
  sha256 := []
  signatures := (pubkey, deleteDigest, deleteCose.signature) :: auditRecord.signatures

def deleteMessage : SignedMessage where
  sequence := 1
  timestamp := timestamp
  messageType := .Changeset
  payload := zstdRawFrame deleteRequest
  messageHash := hex0x (tableRecord.externals.keccak256 (zstdRawFrame deleteRequest))
  signature := hex0x deleteCose.signature
  signer := hex0x pubkey
  coseProtectedHeader := deleteCose.protectedHeader.encode

def tableEngine : Engine (Image Bool Nat Nat) where
  decompress := auditEngine.decompress
  parseChangesets bytes :=
    if bytes = changesetRequest then .ok ⟨"a", [⟨change true row, 0, timestamp⟩], none⟩
    else if bytes = deleteRequest then .ok ⟨"b", [⟨change false row, 1, timestamp⟩], none⟩
    else .error "not recorded"
  parseSnapshot _ := .error "not recorded"
  parseWithdrawal _ := .error "not recorded"
  applySingleChangeset _ _ _ := .error "not recorded"
  validateAll _ _ := .ok ()
  restoreSnapshot _ := .error "not recorded"
  verifyChangesetChain replica _ := replica

/-- A log of two messages: the insert of a row and its delete. -/
def tableFetcher : Fetcher where
  listBatches := .ok []
  getBatchByPath _ := .ok none
  get sequence := .ok ([deferredMessage, deleteMessage].find? fun m => m.sequence = sequence)
  getLatestSequence := .ok (some 1)

/-- A new validator whose replica has the table. -/
def newTable : Durable (Image Bool Nat Nat) := ⟨⟨⟨true, fun _ => none⟩, []⟩, none⟩

def tableTurn : Durable (Image Bool Nat Nat) → Option (CrashPoint (Image Bool Nat Nat)) →
    Durable (Image Bool Nat Nat) :=
  Durable.turn tableRecord.externals (tableEngine.onRows table readTableChange)
    Sample.validatorConfig tableFetcher

def refuses (s : Durable (Image Bool Nat Nat)) (m : SignedMessage) : Bool :=
  !(applyMessageWithAudit (tableEngine.onRows table readTableChange) m s.databases).1.isOk

theorem delete_lasts (s : Durable (Image Bool Nat Nat)) (next : s.nextSequence = 1)
    (fails : refuses s deleteMessage = true) (n : Nat) :
    run tableTurn s (List.replicate n none) = s := by
  have accepted : acceptedMessage tableRecord.externals (tableEngine.onRows table readTableChange)
      Sample.validatorConfig tableFetcher 1 = some deleteMessage := by decide +kernel
  have stays : tableTurn s none = s := by
    show Durable.sync _ _ _ _ s = s
    rw [Durable.sync, next]
    simp only [accepted, Durable.applyAndRecord]
    cases applied : applyMessageWithAudit (tableEngine.onRows table readTableChange) deleteMessage
        s.databases with
    | mk result d =>
      cases result with
      | ok r => simp [refuses, applied, Except.isOk, Except.toBool] at fails
      | error e =>
        have unchanged := audit_changeset_error _ deleteMessage s.databases d e rfl applied
        rw [unchanged]
  induction n with
  | zero => rfl
  | succ n ih =>
    show run tableTurn (tableTurn s none) (List.replicate n none) = s
    rw [stays]
    exact ih

/-- A crash between the commit of the delete and `record_sync`: the row is gone, so the delete
conflicts for ever. -/
theorem delete_stuck_after_crash :
    (run tableTurn newTable [none, none]).lastSequence = some 1 ∧
      ∀ n, (run tableTurn newTable
        ([none, some .beforeRecord] ++ List.replicate n none)).lastSequence
        = some 0 := by
  refine ⟨by decide +kernel, ?_⟩
  intro n
  rw [run_append, delete_lasts _ (by decide +kernel) (by decide +kernel)]
  decide +kernel

/-- An insert is skipped the second time. -/
theorem insert_survives :
    Along tableTurn (Durable.Survives tableRecord.externals Sample.validatorConfig
      tableFetcher table readTableChange tableEngine) newTable [some .beforeRecord, none] := by
  refine ⟨?_, trivial, trivial⟩
  intro m accepted
  have first : acceptedMessage tableRecord.externals tableEngine Sample.validatorConfig tableFetcher
      newTable.nextSequence = some deferredMessage := by decide +kernel
  obtain rfl : deferredMessage = m := Option.some.inj (first.symm.trans accepted)
  intro replica changes applied carries
  have read : messageChanges readTableChange tableEngine deferredMessage =
      .ok [.insert 1 [1, 10]] := by decide
  obtain ⟨same, read_same, -, -, rows, -⟩ :=
    (applyChangesetMessage_ok table readTableChange tableEngine _ _ _).mp applied
  rw [read] at read_same carries
  cases read_same
  cases carries
  apply (rowsReturn_iff_repeats _ _ _ (by decide) rows).mpr
  simp [Change.Repeats]

theorem crashes_recovered_insert :
    Along tableTurn (Durable.Survives tableRecord.externals Sample.validatorConfig
        tableFetcher table readTableChange tableEngine) newTable [some .beforeRecord, none] ∧
      run tableTurn newTable [some .beforeRecord, none, none] =
        run tableTurn newTable [none, none] :=
  ⟨insert_survives, (crashes_recovered tableRecord.externals Sample.validatorConfig
    tableFetcher table
    readTableChange tableEngine newTable [some .beforeRecord, none] insert_survives 2).1⟩

end CrashSample

end SyndDB.Replication
