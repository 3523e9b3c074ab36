import SyndDB.Framework.Transaction
import SyndDB.Replication.Applier

namespace SyndDB.Replication

open Octets Shared Transaction

inductive ValidationResult where
  | Pass
  | Fail (reason : String)
  | NotApplicable
  deriving DecidableEq

/-- A rule reads the database and does not write to it. -/
structure ValidationRule (δ : Type) where
  name : String
  isEnabled : Bool
  validate : δ → UInt64 → Except String ValidationResult

/-- Rules in the order of their registration. -/
abbrev RuleRegistry (δ : Type) := List (ValidationRule δ)

variable {δ : Type}

def validationRuleFailed (rule : String) (sequence : UInt64) (reason : String) : String :=
  "Validation rule '" ++ rule ++ "' failed at sequence " ++ toString sequence ++ ": " ++ reason

def RuleRegistry.validateAll (replica : δ) (sequence : UInt64) : RuleRegistry δ → Except String Unit
  | [] => .ok ()
  | rule :: rest =>
      if !rule.isEnabled then validateAll replica sequence rest
      else match rule.validate replica sequence with
        | .ok .Pass => validateAll replica sequence rest
        | .ok (.Fail reason) => .error (validationRuleFailed rule.name sequence reason)
        | .ok .NotApplicable => validateAll replica sequence rest
        | .error e => .error (validationRuleFailed rule.name sequence ("Rule error: " ++ e))

/-- A rule lets a database pass: it is switched off, is satisfied or does not apply. -/
def ValidationRule.Passes (rule : ValidationRule δ) (replica : δ) (sequence : UInt64) : Prop :=
  rule.isEnabled = true →
    rule.validate replica sequence = .ok .Pass ∨ rule.validate replica sequence = .ok .NotApplicable

theorem RuleRegistry.validateAll_ok (replica : δ) (sequence : UInt64) (rules : RuleRegistry δ) :
    rules.validateAll replica sequence = .ok () ↔ ∀ rule ∈ rules, rule.Passes replica sequence := by
  induction rules with
  | nil => simp [validateAll]
  | cons rule rest ih =>
    rw [List.forall_mem_cons, ← ih, validateAll]
    cases enabled : rule.isEnabled with
    | false => simp [ValidationRule.Passes, enabled]
    | true =>
      cases outcome : rule.validate replica sequence with
      | error e => simp [ValidationRule.Passes, enabled, outcome]
      | ok result =>
        cases result with
        | Pass => simp [ValidationRule.Passes, enabled, outcome]
        | Fail reason => simp [ValidationRule.Passes, enabled, outcome]
        | NotApplicable => simp [ValidationRule.Passes, enabled, outcome]

def validateWith (rules : Option (RuleRegistry δ)) (replica : δ) (sequence : UInt64) :
    Except String Unit :=
  match rules with
  | none => .ok ()
  | some registry => registry.validateAll replica sequence

/-- The engine of a validator with these rules. -/
def Engine.withRules (E : Engine δ) (rules : Option (RuleRegistry δ)) : Engine δ :=
  { E with validateAll := validateWith rules }

/-- What may go wrong in SQLite itself: beginning and committing a transaction, and how much of an
open transaction is left after a changeset failed to apply. -/
structure Faults (δ : Type) where
  onBegin : Option String
  onCommit : Option String
  remains : δ → Bytes → Option δ

def Faults.none : Faults δ := ⟨.none, .none, fun replica _ => some replica⟩

structure ChangesetApplier (δ : Type) where
  engine : Engine δ
  faults : Faults δ

namespace ChangesetApplier

variable (a : ChangesetApplier δ)

/-- `Connection::transaction` -/
def transaction : Work δ String Unit :=
  Work.start
    "Database error: Failed to begin transaction: cannot start a transaction within a transaction"
    (a.faults.onBegin.map ("Database error: Failed to begin transaction: " ++ ·))

/-- `Transaction::commit` -/
def commit : Work δ String Unit :=
  Work.commit
    "Database error: Failed to commit transaction: cannot commit - no transaction is active"
    (a.faults.onCommit.map ("Database error: Failed to commit transaction: " ++ ·))

def applySingleChangeset (message : SignedMessage) (batchId : String) (i : Nat) (data : Bytes) :
    Work δ String Unit :=
  Work.statement
    (fun replica => (a.engine.applySingleChangeset message.sequence replica data).mapError fun e =>
      "Changeset application failed at sequence " ++ toString message.sequence ++ ": Changeset " ++
        toString i ++ " in batch " ++ batchId ++ ": " ++ e)
    (a.faults.remains · data)

def applyChangesets (message : SignedMessage) (batchId : String) :
    Nat → List ChangesetData → Work δ String Unit
  | _, [] => pure ()
  | i, changeset :: rest =>
      if changeset.data.isEmpty then applyChangesets message batchId (i + 1) rest
      else do
        a.applySingleChangeset message batchId i changeset.data
        applyChangesets message batchId (i + 1) rest

/-- The changesets of a batch, and the rules over what all of them made of the database. -/
def applyBatch (message : SignedMessage) (rules : Option (RuleRegistry δ))
    (batch : ChangesetBatchRequest) : Work δ String Unit := do
  a.applyChangesets message batch.batchId 0 batch.changesets
  Work.query fun replica => validateWith rules replica message.sequence

def applyChangesetMessageWithRules (message : SignedMessage) (rules : Option (RuleRegistry δ)) :
    Work δ String Unit := do
  let batch ← Work.query fun _ =>
    decompressAndParse a.engine a.engine.parseChangesets message "changeset batch"
  Work.scope a.transaction (a.applyBatch message rules batch) a.commit

/-- The backup interface copies a snapshot over the database, unless a transaction is open on it. -/
def applySnapshotMessage (message : SignedMessage) : Work δ String Unit := fun c =>
  match Replication.applySnapshotMessage a.engine message, c.pending with
  | .error e, _ => (.error e, c)
  | .ok _, some _ => (.error "Failed to create backup handle", c)
  | .ok replica, none => (.ok (), ⟨replica, none⟩)

def applyMessageWithRules (message : SignedMessage) (rules : Option (RuleRegistry δ)) :
    Work δ String Unit :=
  match message.messageType with
  | .Changeset => a.applyChangesetMessageWithRules message rules
  | .Snapshot => a.applySnapshotMessage message
  | .Withdrawal => pure ()

variable (message : SignedMessage)

theorem contained_applyChangesets (batchId : String) (i : Nat) (changesets : List ChangesetData) :
    Work.Contained (a.applyChangesets message batchId i changesets) := by
  induction changesets generalizing i with
  | nil => exact Work.contained_pure ()
  | cons changeset rest ih =>
    rw [applyChangesets]
    split
    · exact ih (i + 1)
    · apply Work.contained_bind
      · exact Work.contained_statement _ _
      · intro _
        exact ih (i + 1)

/-- Within a transaction the changesets of a batch do to it what they do to a replica. -/
theorem applyChangesets_run (batchId : String) (i : Nat) (changesets : List ChangesetData)
    (base d : δ) :
    match Replication.applyChangesets a.engine message batchId i d changesets with
    | .ok final =>
        a.applyChangesets message batchId i changesets ⟨base, some d⟩ = (.ok (), ⟨base, some final⟩)
    | .error e => ∃ after,
        a.applyChangesets message batchId i changesets ⟨base, some d⟩ =
          (.error e, ⟨base, after⟩) := by
  induction changesets generalizing i d with
  | nil => rfl
  | cons changeset rest ih =>
    rw [applyChangesets, Replication.applyChangesets]
    cases empty : changeset.data.isEmpty with
    | true => exact ih (i + 1) d
    | false =>
      simp only [Bool.false_eq_true, if_false]
      cases applied : a.engine.applySingleChangeset message.sequence d changeset.data with
      | error e =>
        refine ⟨a.faults.remains d changeset.data, ?_⟩
        apply Work.bind_error
        simp [applySingleChangeset, Work.statement, Connection.visible, applied, Except.mapError]
      | ok d' =>
        have statement : a.applySingleChangeset message batchId i changeset.data ⟨base, some d⟩ =
            (.ok (), ⟨base, some d'⟩) := by
          simp [applySingleChangeset, Work.statement, Connection.visible, applied, Except.mapError]
        simp only [Work.bind_ok _ _ _ _ _ statement]
        exact ih (i + 1) d'

theorem contained_applyBatch (rules : Option (RuleRegistry δ)) (batch : ChangesetBatchRequest) :
    Work.Contained (a.applyBatch message rules batch) := by
  apply Work.contained_bind
  · exact a.contained_applyChangesets message batch.batchId 0 batch.changesets
  · intro _
    exact Work.contained_query _

/-- The transaction makes of the database what the message makes of a replica. -/
theorem applyBatch_run (rules : Option (RuleRegistry δ)) (batch : ChangesetBatchRequest)
    (base d : δ) :
    match (do
      let applied ←
        Replication.applyChangesets a.engine message batch.batchId 0 d batch.changesets
      validateWith rules applied message.sequence
      return applied : Except String δ) with
    | .ok final => a.applyBatch message rules batch ⟨base, some d⟩ = (.ok (), ⟨base, some final⟩)
    | .error e => ∃ after,
        a.applyBatch message rules batch ⟨base, some d⟩ = (.error e, ⟨base, after⟩) := by
  have run := a.applyChangesets_run message batch.batchId 0 batch.changesets base d
  rw [applyBatch]
  cases applied : Replication.applyChangesets a.engine message batch.batchId 0 d
    batch.changesets with
  | error e =>
    rw [applied] at run
    obtain ⟨after, left⟩ := run
    exact ⟨after, Work.bind_error _ _ _ _ e left⟩
  | ok d' =>
    rw [applied] at run
    rw [Outcome.ok_bind, Work.bind_ok _ _ _ _ () run]
    cases verdict : validateWith rules d' message.sequence with
    | error e =>
      refine ⟨some d', ?_⟩
      simp only [Work.query, Connection.visible, Option.getD_some, verdict]
    | ok u =>
      simp only [Outcome.ok_bind, Work.query, Connection.visible, Option.getD_some, verdict]
      rfl

end ChangesetApplier

/-- The changesets of a batch that hold anything, in its order. -/
def ChangesetBatchRequest.nonEmpty (batch : ChangesetBatchRequest) : List Bytes :=
  (batch.changesets.map ChangesetData.data).filter fun data => !data.isEmpty

theorem applyChangesets_foldlM (E : Engine δ) (message : SignedMessage) (batchId : String) (i : Nat)
    (changesets : List ChangesetData) (replica final : δ) :
    applyChangesets E message batchId i replica changesets = .ok final ↔
      ((changesets.map ChangesetData.data).filter fun data => !data.isEmpty).foldlM
        (E.applySingleChangeset message.sequence) replica = .ok final := by
  induction changesets generalizing i replica with
  | nil => rfl
  | cons changeset rest ih =>
    rw [applyChangesets, List.map_cons, List.filter_cons]
    cases empty : changeset.data.isEmpty with
    | true => simpa using ih (i + 1) replica
    | false =>
      simp only [Bool.false_eq_true, if_false, Bool.not_false, if_true, List.foldlM_cons]
      cases applied : E.applySingleChangeset message.sequence replica changeset.data with
      | error e => simp
      | ok replica' => exact ih (i + 1) replica'

theorem validateWith_ok (rules : Option (RuleRegistry δ)) (replica : δ) (sequence : UInt64) :
    validateWith rules replica sequence = .ok () ↔
      ∀ registry, rules = some registry → ∀ rule ∈ registry, rule.Passes replica sequence := by
  cases rules with
  | none => simp [validateWith]
  | some registry => simp [validateWith, RuleRegistry.validateAll_ok]

theorem ChangesetApplier.applyBatch_ok (a : ChangesetApplier δ) (message : SignedMessage)
    (rules : Option (RuleRegistry δ)) (batch : ChangesetBatchRequest) (base d final : δ)
    (h : a.applyBatch message rules batch ⟨base, some d⟩ = (.ok (), ⟨base, some final⟩)) :
    batch.nonEmpty.foldlM (a.engine.applySingleChangeset message.sequence) d = .ok final ∧
      validateWith rules final message.sequence = .ok () := by
  have run := a.applyBatch_run message rules batch base d
  rw [h] at run
  split at run
  · rename_i final' outcome
    obtain ⟨applied, changes, judged⟩ := (Outcome.bind_ok _ _ _).mp outcome
    obtain ⟨u, passed, same⟩ := (Outcome.bind_ok _ _ _).mp judged
    have hfinal : final = final' := by simpa using run
    have happlied : applied = final' := Except.ok.inj same
    rw [happlied] at changes passed
    rw [hfinal]
    exact ⟨(applyChangesets_foldlM _ message batch.batchId 0 _ d final').mp changes, passed⟩
  · obtain ⟨after, failed⟩ := run
    simp at failed

/-- A changeset message is applied as a whole, under every enabled rule, or not at all. -/
theorem changeset_message_atomic (a : ChangesetApplier δ) (message : SignedMessage)
    (rules : Option (RuleRegistry δ)) (conn : Connection δ)
    (changeset : message.messageType = .Changeset) :
    match a.applyMessageWithRules message rules conn with
    | (.ok (), after) => ∃ batch final,
        decompressAndParse a.engine a.engine.parseChangesets message "changeset batch" = .ok batch ∧
        batch.nonEmpty.foldlM (a.engine.applySingleChangeset message.sequence) conn.committed =
          .ok final ∧
        (∀ registry, rules = some registry → ∀ rule ∈ registry,
          rule.Passes final message.sequence) ∧
        after = ⟨final, none⟩
    | (.error _, after) => after = conn := by
  rw [ChangesetApplier.applyMessageWithRules, changeset]
  simp only [ChangesetApplier.applyChangesetMessageWithRules]
  cases parsed : decompressAndParse a.engine a.engine.parseChangesets message "changeset batch" with
  | error e => rw [Work.bind_error (Work.query _) _ conn conn e rfl]
  | ok batch =>
    rw [Work.bind_ok (Work.query _) _ conn conn batch rfl]
    obtain ⟨success, failure⟩ := Work.scope_atomic _ _ _ _ (a.applyBatch message rules batch)
      (a.contained_applyBatch message rules batch) conn
    cases outcome : Work.scope a.transaction (a.applyBatch message rules batch) a.commit conn with
    | mk result after =>
      cases result with
      | error e => exact failure e after outcome
      | ok u =>
        obtain ⟨-, final, ran, state⟩ := success u after outcome
        obtain ⟨changes, passed⟩ := a.applyBatch_ok message rules batch _ _ final ran
        exact ⟨batch, final, rfl, changes, (validateWith_ok rules final message.sequence).mp passed,
          state⟩

/-- The rules have no part in applying changesets. -/
theorem applyChangesets_withRules (E : Engine δ) (rules : Option (RuleRegistry δ))
    (message : SignedMessage) (batchId : String) (i : Nat) (replica : δ)
    (changesets : List ChangesetData) :
    applyChangesets (E.withRules rules) message batchId i replica changesets =
      applyChangesets E message batchId i replica changesets := by
  induction changesets generalizing i replica with
  | nil => rfl
  | cons changeset rest ih =>
    have same : (E.withRules rules).applySingleChangeset = E.applySingleChangeset := rfl
    simp only [applyChangesets, same, ih]

namespace Sample

/-- The replica is a log of the changesets applied, and a payload is the request with the changesets
`[1]`, the empty one and `[2]`. -/
def batchEngine : Engine (List Bytes) where
  decompress bytes := .ok bytes
  parseChangesets _ := .ok ⟨"b", [⟨[1], 0, 0⟩, ⟨[], 1, 0⟩, ⟨[2], 2, 0⟩], none⟩
  parseSnapshot _ := .error "not a snapshot"
  parseWithdrawal _ := .error "not a withdrawal"
  applySingleChangeset _ replica data := .ok (replica ++ [data])
  validateAll _ _ := .ok ()
  restoreSnapshot _ := .error "not a snapshot"
  verifyChangesetChain replica _ := replica

/-- At most so many changesets. -/
def maxChangesets (bound : Nat) : ValidationRule (List Bytes) where
  name := "max_changesets"
  isEnabled := true
  validate replica _ :=
    .ok (if replica.length ≤ bound then .Pass else .Fail "too many changesets")

def batchApplier : ChangesetApplier (List Bytes) := ⟨batchEngine, Faults.none⟩

def batchMessage : SignedMessage := ⟨7, 0, .Changeset, [], [], [], [], []⟩

end Sample

/-- The whole batch under a rule for two changesets, and nothing of it under a rule for one. -/
theorem changeset_message_atomic_two :
    Sample.batchApplier.applyMessageWithRules Sample.batchMessage (some [Sample.maxChangesets 2])
        ⟨[], none⟩ = (.ok (), ⟨[[1], [2]], none⟩) ∧
    Sample.batchApplier.applyMessageWithRules Sample.batchMessage (some [Sample.maxChangesets 1])
        ⟨[], none⟩ =
      (.error "Validation rule 'max_changesets' failed at sequence 7: too many changesets",
        ⟨[], none⟩) ∧
    match Sample.batchApplier.applyMessageWithRules Sample.batchMessage
        (some [Sample.maxChangesets 2]) ⟨[], none⟩ with
    | (.ok (), after) => ∃ batch final,
        decompressAndParse Sample.batchEngine Sample.batchEngine.parseChangesets Sample.batchMessage
          "changeset batch" = .ok batch ∧
        batch.nonEmpty.foldlM (Sample.batchEngine.applySingleChangeset 7) [] = .ok final ∧
        (∀ registry, some [Sample.maxChangesets 2] = some registry → ∀ rule ∈ registry,
          rule.Passes final 7) ∧
        after = ⟨final, none⟩
    | (.error _, after) => after = ⟨[], none⟩ :=
  ⟨by decide, by decide,
    changeset_message_atomic Sample.batchApplier Sample.batchMessage
      (some [Sample.maxChangesets 2]) ⟨[], none⟩ rfl⟩

/-- Where nothing goes wrong in SQLite itself, a connection follows the replica of
the other modules. -/
theorem applyMessageWithRules_refines (E : Engine δ) (message : SignedMessage)
    (rules : Option (RuleRegistry δ)) (replica : δ) :
    (ChangesetApplier.mk E Faults.none).applyMessageWithRules message rules ⟨replica, none⟩ =
      match applyMessageWithRules (E.withRules rules) message replica with
      | .ok final => (.ok (), ⟨final, none⟩)
      | .error e => (.error e, ⟨replica, none⟩) := by
  rw [ChangesetApplier.applyMessageWithRules, applyMessageWithRules]
  cases message.messageType with
  | Withdrawal => rfl
  | Snapshot =>
    simp only [ChangesetApplier.applySnapshotMessage]
    have same : applySnapshotMessage (E.withRules rules) message = applySnapshotMessage E message :=
      rfl
    rw [same]
    cases applySnapshotMessage E message with
    | error e => rfl
    | ok final => rfl
  | Changeset =>
    simp only [ChangesetApplier.applyChangesetMessageWithRules, applyChangesetMessageWithRules]
    have same : decompressAndParse (E.withRules rules) (E.withRules rules).parseChangesets message
        "changeset batch" = decompressAndParse E E.parseChangesets message "changeset batch" := rfl
    rw [same]
    cases parsed : decompressAndParse E E.parseChangesets message "changeset batch" with
    | error e => rw [Work.bind_error (Work.query _) _ ⟨replica, none⟩ ⟨replica, none⟩ e rfl]; rfl
    | ok batch =>
      rw [Work.bind_ok (Work.query _) _ ⟨replica, none⟩ ⟨replica, none⟩ batch rfl, Outcome.ok_bind]
      have run := (ChangesetApplier.mk E Faults.none).applyBatch_run message rules batch
        replica replica
      rw [applyChangesets_withRules]
      dsimp only [Engine.withRules] at run ⊢
      cases outcome : (do
        let applied ← applyChangesets E message batch.batchId 0 replica batch.changesets
        validateWith rules applied message.sequence
        return applied : Except String δ) with
      | ok final =>
        rw [outcome] at run
        exact Work.scope_ok _ _ none _ replica final () run
      | error e =>
        rw [outcome] at run
        obtain ⟨after, failed⟩ := run
        exact Work.scope_error _ _ none _ replica after e failed

end SyndDB.Replication
