import SyndDB.Framework.Occurrence
import SyndDB.Replication.Atomicity
import SyndDB.Replication.ChainAudit
import SyndDB.Replication.ChangesetApply

namespace SyndDB.Replication

open Occurrence Octets Shared Transaction
open Text (contains)

/-- What `apply_single_changeset` fails with. -/
inductive ChangesetFailure where
  | startIterator (e : String)
  | getOperation (e : String)
  | readItem (e : String)
  | missingTables (tables : List String)
  | columnMismatches (mismatches : List String)
  | applyChangeset (e : String)
  deriving DecidableEq

namespace ChangesetFailure

def message : ChangesetFailure → String
  | .startIterator e => "Failed to start changeset iterator: " ++ e
  | .getOperation e => "Failed to get changeset operation: " ++ e
  | .readItem e => "Failed to read changeset item: " ++ e
  | .missingTables tables =>
      "Changeset references tables that don't exist: " ++ (", ".intercalate tables ++
        ". A snapshot is required to sync schema first.")
  | .columnMismatches mismatches =>
      "Schema mismatch - column counts don't match: " ++ ("; ".intercalate mismatches ++
        ". A snapshot is required to sync schema first.")
  | .applyChangeset e => "Failed to apply changeset: " ++ e

/-- A missing table, or another number of columns. -/
def isSchema : ChangesetFailure → Bool
  | .missingTables _ => true
  | .columnMismatches _ => true
  | _ => false

/-- The texts within the message that other code makes. -/
def embedded : ChangesetFailure → List String
  | .startIterator e => [e]
  | .getOperation e => [e]
  | .readItem e => [e]
  | .missingTables tables => tables
  | .columnMismatches mismatches => mismatches
  | .applyChangeset e => [e]

end ChangesetFailure

/-- What `apply_changeset_message_with_rules` fails with. -/
inductive Failure where
  | decompression (e : String)
  | parse (e : String)
  | beginTransaction (e : String)
  | changeset (index : Nat) (batchId : String) (failure : ChangesetFailure)
  | validationRule (rule reason : String)
  | commitTransaction (e : String)
  deriving DecidableEq

namespace Failure

def message (sequence : UInt64) : Failure → String
  | .decompression e => "Decompression error: Failed to decompress " ++ "changeset batch" ++
      " at sequence " ++ toString sequence ++ ": " ++ e
  | .parse e => "Parse error: Failed to parse " ++ "changeset batch" ++ " at sequence " ++
      toString sequence ++ ": " ++ e
  | .beginTransaction e => "Database error: Failed to begin transaction: " ++ e
  | .changeset index batchId failure => "Changeset application failed at sequence " ++
      toString sequence ++ ": Changeset " ++ toString index ++ " in batch " ++ batchId ++ ": " ++
      failure.message
  | .validationRule rule reason => validationRuleFailed rule sequence reason
  | .commitTransaction e => "Database error: Failed to commit transaction: " ++ e

def isSchema : Failure → Bool
  | .changeset _ _ failure => failure.isSchema
  | _ => false

def embedded : Failure → List String
  | .decompression e => [e]
  | .parse e => [e]
  | .beginTransaction e => [e]
  | .changeset _ batchId failure => batchId :: failure.embedded
  | .validationRule rule reason => [rule, reason]
  | .commitTransaction e => [e]

end Failure

/-- The parts of a message that tell of a schema mismatch. -/
def markers : List String := ["Schema mismatch", "don't exist", "column"]

def Occurs (marker text : String) : Prop := marker.toList <:+: text.toList

theorem contains_eq_true_iff (text part : String) : contains text part = true ↔
    Occurs part text := by
  rw [contains, Occurs, List.any_eq_true]
  constructor
  · intro ⟨rest, suffix, begins⟩
    have start : part.toList <+: rest := List.isPrefixOf_iff_prefix.mp begins
    exact start.isInfix.trans ((List.mem_tails _ _).mp suffix).isInfix
  · intro occurs
    obtain ⟨start, suffix⟩ := List.infix_iff_prefix_suffix.mp occurs
    exact ⟨start, (List.mem_tails _ _).mpr suffix.2, List.isPrefixOf_iff_prefix.mpr suffix.1⟩

theorem isSchemaMismatch_iff (text : String) :
    isSchemaMismatch text = true ↔ ∃ marker ∈ markers, Occurs marker text := by
  simp [isSchemaMismatch, markers, contains_eq_true_iff, or_assoc]

/-- No marker begins within the part. -/
def Plain (part : String) : Prop := ∀ marker ∈ markers, BeginsOutside marker.toList part.toList

/-- No marker reaches into the part. -/
def Closing (part : String) : Prop := ∀ marker ∈ markers, EndsOutside marker.toList part.toList

instance (part : String) : Decidable (Plain part) :=
  inferInstanceAs (Decidable (∀ marker ∈ markers, _))

instance (part : String) : Decidable (Closing part) :=
  inferInstanceAs (Decidable (∀ marker ∈ markers, _))

theorem occurs_plain {part : String} (h : Plain part) {marker : String} (hm : marker ∈ markers)
    (after : String) : Occurs marker (part ++ after) ↔ Occurs marker after := by
  rw [Occurs, Occurs, String.toList_append]
  exact infix_append_begins (h marker hm) after.toList

theorem occurs_closing {part : String} (h : Closing part) {marker : String} (hm : marker ∈ markers)
    (before after : String) : Occurs marker (before ++ (part ++ after)) ↔
      Occurs marker before ∨ Occurs marker (part ++ after) := by
  rw [Occurs, Occurs, Occurs, String.toList_append, String.toList_append]
  exact infix_append_ends (h marker hm) before.toList after.toList

theorem plain_nat (n : Nat) : Plain (toString n) := by
  intro marker hm
  have letter : ∀ marker ∈ markers, marker.toList.head?.any Char.isDigit = false := by decide
  have nonempty : ∀ marker ∈ markers, marker.toList ≠ [] := by decide
  apply beginsOutside_of_head _ _ (nonempty marker hm)
  intro c hc begins
  have digit : c.isDigit = true := by
    rw [Nat.toString_eq_repr, Nat.toList_repr] at hc
    exact Nat.isDigit_of_mem_toDigits (by decide) (by decide) hc
  have first := letter marker hm
  rw [begins, Option.any_some, digit] at first
  cases first

theorem plain_sequence (sequence : UInt64) : Plain (toString sequence) := plain_nat sequence.toNat

/-- Besides schema mismatches, a marker in a failure of a changeset comes from another text. -/
theorem ChangesetFailure.occurs_message (f : ChangesetFailure) (other : f.isSchema = false)
    {marker : String} (hm : marker ∈ markers) :
    Occurs marker f.message ↔ ∃ text ∈ f.embedded, Occurs marker text := by
  have single (part e : String) (h : Plain part) :
      Occurs marker (part ++ e) ↔ ∃ text ∈ [e], Occurs marker text := by
    rw [occurs_plain h hm]
    simp
  cases f with
  | startIterator e => exact single _ e (by decide)
  | getOperation e => exact single _ e (by decide)
  | readItem e => exact single _ e (by decide)
  | missingTables tables => cases other
  | columnMismatches mismatches => cases other
  | applyChangeset e => exact single _ e (by decide)

theorem Failure.message_decompression (e : String) (sequence : UInt64) :
    (Failure.decompression e).message sequence =
      "Decompression error: Failed to decompress " ++ ("changeset batch" ++ (" at sequence " ++
        (toString sequence ++ (": " ++ e)))) := by
  change "Decompression error: Failed to decompress " ++ "changeset batch" ++
    " at sequence " ++ toString sequence ++ ": " ++ e = _
  simp only [String.append_assoc, -String.reduceAppend]

theorem Failure.message_parse (e : String) (sequence : UInt64) :
    (Failure.parse e).message sequence =
      "Parse error: Failed to parse " ++ ("changeset batch" ++ (" at sequence " ++
        (toString sequence ++ (": " ++ e)))) := by
  change "Parse error: Failed to parse " ++ "changeset batch" ++
    " at sequence " ++ toString sequence ++ ": " ++ e = _
  simp only [String.append_assoc, -String.reduceAppend]

theorem Failure.message_changeset (index : Nat) (batchId : String) (failure : ChangesetFailure)
    (sequence : UInt64) : (Failure.changeset index batchId failure).message sequence =
      "Changeset application failed at sequence " ++ (toString sequence ++ (": Changeset " ++
        (toString index ++ (" in batch " ++ (batchId ++ (": " ++ failure.message)))))) := by
  change "Changeset application failed at sequence " ++ toString sequence ++
    ": Changeset " ++ toString index ++ " in batch " ++ batchId ++ ": " ++ failure.message = _
  simp only [String.append_assoc, -String.reduceAppend]

theorem Failure.message_validationRule (rule reason : String) (sequence : UInt64) :
    (Failure.validationRule rule reason).message sequence =
      "Validation rule '" ++ (rule ++ ("' failed at sequence " ++ (toString sequence ++
        (": " ++ reason)))) := by
  change "Validation rule '" ++ rule ++ "' failed at sequence " ++
    toString sequence ++ ": " ++ reason = _
  simp only [String.append_assoc, -String.reduceAppend]

theorem Failure.occurs_message (f : Failure) (other : f.isSchema = false) (sequence : UInt64)
    {marker : String} (hm : marker ∈ markers) :
    Occurs marker (f.message sequence) ↔ ∃ text ∈ f.embedded, Occurs marker text := by
  have plain {part : String} (h : Plain part) (after : String) :
      Occurs marker (part ++ after) ↔ Occurs marker after := occurs_plain h hm after
  have colon : Plain ": " := by decide
  have atSequence : Plain " at sequence " := by decide
  have batch : Plain "changeset batch" := by decide
  have number : Plain (toString sequence) := plain_sequence sequence
  have single (e : String) : Occurs marker e ↔ ∃ text ∈ [e], Occurs marker text := by simp
  cases f with
  | decompression e =>
    have start : Plain "Decompression error: Failed to decompress " := by decide
    rw [message_decompression, plain start, plain batch, plain atSequence, plain number,
      plain colon]
    exact single e
  | parse e =>
    have start : Plain "Parse error: Failed to parse " := by decide
    rw [message_parse, plain start, plain batch, plain atSequence, plain number, plain colon]
    exact single e
  | beginTransaction e =>
    have start : Plain "Database error: Failed to begin transaction: " := by decide
    exact (plain start e).trans (single e)
  | changeset index batchId failure =>
    have start : Plain "Changeset application failed at sequence " := by decide
    have item : Plain ": Changeset " := by decide
    have inBatch : Plain " in batch " := by decide
    have closing : Closing ": " := by decide
    rw [message_changeset, plain start, plain number, plain item, plain (plain_nat index),
      plain inBatch, occurs_closing closing hm, plain colon, failure.occurs_message other hm]
    simp [embedded]
  | validationRule rule reason =>
    have start : Plain "Validation rule '" := by decide
    have failed : Plain "' failed at sequence " := by decide
    have closing : Closing "' failed at sequence " := by decide
    rw [message_validationRule, plain start, occurs_closing closing hm, plain failed, plain number,
      plain colon]
    simp [embedded]
  | commitTransaction e =>
    have start : Plain "Database error: Failed to commit transaction: " := by decide
    exact (plain start e).trans (single e)

theorem isSchemaMismatch_append (before text : String) (h : isSchemaMismatch text = true) :
    isSchemaMismatch (before ++ text) = true := by
  obtain ⟨marker, hm, occurs⟩ := (isSchemaMismatch_iff text).mp h
  refine (isSchemaMismatch_iff _).mpr ⟨marker, hm, ?_⟩
  rw [Occurs, String.toList_append]
  exact List.infix_append_of_infix_right occurs

/-- A message that tells of a schema mismatch by its own words. -/
theorem ChangesetFailure.isSchemaMismatch_message (f : ChangesetFailure)
    (schema : f.isSchema = true) :
    isSchemaMismatch f.message = true := by
  have head {marker part : String} (after : String) (h : Occurs marker part) :
      Occurs marker (part ++ after) := by
    rw [Occurs, String.toList_append]
    exact List.infix_append_of_infix_left h
  rw [isSchemaMismatch_iff]
  cases f with
  | missingTables tables =>
    refine ⟨"don't exist", by decide, head _ ?_⟩
    rw [← contains_eq_true_iff]
    decide
  | columnMismatches mismatches =>
    refine ⟨"Schema mismatch", by decide, head _ ?_⟩
    rw [← contains_eq_true_iff]
    decide
  | startIterator e => cases schema
  | getOperation e => cases schema
  | readItem e => cases schema
  | applyChangeset e => cases schema

theorem Failure.isSchemaMismatch_message (f : Failure) (schema : f.isSchema = true)
    (sequence : UInt64) : isSchemaMismatch (f.message sequence) = true := by
  cases f with
  | changeset index batchId failure =>
    exact isSchemaMismatch_append _ _ (failure.isSchemaMismatch_message schema)
  | decompression e => cases schema
  | parse e => cases schema
  | beginTransaction e => cases schema
  | validationRule rule reason => cases schema
  | commitTransaction e => cases schema

/-- The text of a failure is taken for a schema mismatch exactly if it is one, or a text within
it has a marker. -/
theorem Failure.isSchemaMismatch_iff (f : Failure) (other : f.isSchema = false)
    (sequence : UInt64) :
    isSchemaMismatch (f.message sequence) = true ↔
      ∃ text ∈ f.embedded, isSchemaMismatch text = true := by
  simp only [Replication.isSchemaMismatch_iff]
  constructor
  · intro ⟨marker, hm, occurs⟩
    obtain ⟨text, ht, inside⟩ := (f.occurs_message other sequence hm).mp occurs
    exact ⟨text, ht, marker, hm, inside⟩
  · intro ⟨text, ht, marker, hm, inside⟩
    exact ⟨marker, hm, (f.occurs_message other sequence hm).mpr ⟨text, ht, inside⟩⟩

/-- What the applier takes from the session extension and from SQLite's table info, with the order
in which a hash map gives its entries back. -/
structure ChangesetLibrary (δ : Type) where
  /-- The items of a changeset, each with its table and number of columns, and what ends them. -/
  iterate : Bytes → Except String (List (Except String (String × Nat)) × Option String)
  hashOrder : List (String × Nat) → List (String × Nat)
  hashOrder_perm : ∀ entries, (hashOrder entries).Perm entries
  /-- `SELECT COUNT(*) FROM pragma_table_info(?)`, unless the query fails. -/
  tableInfo : δ → String → Option Nat
  applyStrm : δ → Bytes → Except String δ

variable {δ : Type}

namespace ChangesetLibrary

/-- The loop over the items. -/
def recordItems (ending : Option String) :
    List (Except String (String × Nat)) → List (String × Nat) →
      Except ChangesetFailure (List (String × Nat))
  | [], entries =>
      match ending with
      | none => .ok entries
      | some e => .error (.readItem e)
  | .error e :: _, _ => .error (.getOperation e)
  | .ok (table, count) :: rest, entries =>
      recordItems ending rest (recordColumns table count entries)

variable (L : ChangesetLibrary δ) (replica : δ)

def isMissing (entry : String × Nat) : Bool :=
  match L.tableInfo replica entry.1 with
  | none => true
  | some actual => actual = 0

def mismatch (entry : String × Nat) : Option String :=
  match L.tableInfo replica entry.1 with
  | none => none
  | some actual =>
      if actual ≠ 0 ∧ actual ≠ entry.2 then
        some (entry.1 ++ " (changeset has " ++ toString entry.2 ++ " columns, target has " ++
          toString actual ++ ")")
      else none

def checkEntries (entries : List (String × Nat)) : Except ChangesetFailure Unit :=
  let missingTables := (entries.filter (L.isMissing replica)).map Prod.fst
  let columnMismatches := entries.filterMap (L.mismatch replica)
  if !missingTables.isEmpty then .error (.missingTables missingTables)
  else if !columnMismatches.isEmpty then .error (.columnMismatches columnMismatches)
  else .ok ()

def validateChangesetSchema (data : Bytes) : Except ChangesetFailure Unit :=
  match L.iterate data with
  | .error e => .error (.startIterator e)
  | .ok (items, ending) =>
      match recordItems ending items [] with
      | .error f => .error f
      | .ok entries => L.checkEntries replica (L.hashOrder entries)

def applySingleChangeset (data : Bytes) : Except ChangesetFailure δ :=
  match L.validateChangesetSchema replica data with
  | .error f => .error f
  | .ok () =>
      match L.applyStrm replica data with
      | .error e => .error (.applyChangeset e)
      | .ok replica => .ok replica

/-- The items can all be read, and one is for a table that is missing or has another
number of columns. -/
def Mismatched (data : Bytes) : Prop :=
  ∃ items entries, L.iterate data = .ok (items, none) ∧ recordItems none items [] = .ok entries ∧
    ∃ entry ∈ entries, L.tableInfo replica entry.1 = none ∨
      ∃ actual, L.tableInfo replica entry.1 = some actual ∧ (actual = 0 ∨ actual ≠ entry.2)

theorem recordItems_not_schema (ending : Option String)
    (items : List (Except String (String × Nat)))
    (entries : List (String × Nat)) (f : ChangesetFailure)
    (h : recordItems ending items entries = .error f) : f.isSchema = false := by
  induction items generalizing entries with
  | nil =>
    cases ending with
    | none => cases h
    | some e =>
      cases h
      rfl
  | cons item rest ih =>
    cases item with
    | error e =>
      cases h
      rfl
    | ok entry => exact ih _ h

theorem recordItems_ending (ending : Option String) (items : List (Except String (String × Nat)))
    (entries recorded : List (String × Nat)) (h : recordItems ending items entries = .ok recorded) :
    ending = none := by
  induction items generalizing entries with
  | nil =>
    cases ending with
    | none => rfl
    | some e => cases h
  | cons item rest ih =>
    cases item with
    | error e => cases h
    | ok entry => exact ih _ h

/-- A check of the tables fails, and then for the schema, exactly if some table does not fit. -/
theorem checkEntries_error_iff (entries : List (String × Nat)) :
    (∃ f, L.checkEntries replica entries = .error f ∧ f.isSchema = true) ↔
      ∃ entry ∈ entries, L.tableInfo replica entry.1 = none ∨
        ∃ actual, L.tableInfo replica entry.1 = some actual ∧ (actual = 0 ∨ actual ≠ entry.2) := by
  have unfit (entry : String × Nat) : (L.tableInfo replica entry.1 = none ∨
      ∃ actual, L.tableInfo replica entry.1 = some actual ∧ (actual = 0 ∨ actual ≠ entry.2)) ↔
      L.isMissing replica entry = true ∨ (L.mismatch replica entry).isSome = true := by
    rw [isMissing, mismatch]
    cases L.tableInfo replica entry.1 with
    | none => simp
    | some actual =>
      by_cases zero : actual = 0
      · simp [zero]
      · by_cases same : actual = entry.2
        · simp [same]
        · simp [zero, same]
  simp only [unfit]
  rw [checkEntries]
  by_cases missing : (entries.filter (L.isMissing replica)).map Prod.fst = []
  · have present : ∀ entry ∈ entries, L.isMissing replica entry = false := by
      simpa [List.filter_eq_nil_iff] using missing
    by_cases fits : entries.filterMap (L.mismatch replica) = []
    · have none : ∀ entry ∈ entries, L.mismatch replica entry = none :=
        List.filterMap_eq_nil_iff.mp fits
      simp only [missing, fits, List.isEmpty_nil, Bool.not_true, Bool.false_eq_true, if_false]
      refine iff_of_false (by simp) ?_
      rintro ⟨entry, he, absent | other⟩
      · rw [present entry he] at absent
        cases absent
      · rw [none entry he] at other
        cases other
    · have some : ∃ entry ∈ entries, (L.mismatch replica entry).isSome = true := by
        by_contra all
        apply fits
        apply List.filterMap_eq_nil_iff.mpr
        intro entry he
        by_contra other
        exact all ⟨entry, he, Option.isSome_iff_ne_none.mpr other⟩
      obtain ⟨entry, he, other⟩ := some
      refine iff_of_true ?_ ⟨entry, he, Or.inr other⟩
      simp only [missing, List.isEmpty_nil, Bool.not_true, Bool.false_eq_true, if_false]
      rw [if_pos (by simpa using fits)]
      exact ⟨_, rfl, rfl⟩
  · have some : ∃ entry ∈ entries, L.isMissing replica entry = true := by
      simpa [List.filter_eq_nil_iff] using missing
    obtain ⟨entry, he, absent⟩ := some
    refine iff_of_true ?_ ⟨entry, he, Or.inl absent⟩
    rw [if_pos (by simpa using missing)]
    exact ⟨_, rfl, rfl⟩

/-- A failure for the schema: of the tables that the changeset names one is missing or has another
number of columns. -/
theorem applySingleChangeset_schema_iff (data : Bytes) :
    (∃ f, L.applySingleChangeset replica data = .error f ∧ f.isSchema = true) ↔
      L.Mismatched replica data := by
  have validated : (∃ f, L.validateChangesetSchema replica data = .error f ∧ f.isSchema = true) ↔
      L.Mismatched replica data := by
    rw [validateChangesetSchema, Mismatched]
    cases iterated : L.iterate data with
    | error e => simp [ChangesetFailure.isSchema]
    | ok read =>
      obtain ⟨items, ending⟩ := read
      cases recorded : recordItems ending items [] with
      | error f =>
        have other := recordItems_not_schema ending items [] f recorded
        simp only [recorded]
        constructor
        · rintro ⟨g, same, schema⟩
          cases same
          rw [other] at schema
          cases schema
        · rintro ⟨items', entries, same, recorded', -⟩
          cases same
          rw [recorded] at recorded'
          cases recorded'
      | ok entries =>
        obtain rfl := recordItems_ending ending items [] entries recorded
        simp only [recorded]
        rw [checkEntries_error_iff]
        constructor
        · rintro ⟨entry, he, unfit⟩
          exact ⟨items, entries, rfl, recorded, entry,
            (L.hashOrder_perm entries).mem_iff.mp he, unfit⟩
        · rintro ⟨items', entries', same, recorded', entry, he, unfit⟩
          cases same
          rw [recorded] at recorded'
          cases recorded'
          exact ⟨entry, (L.hashOrder_perm entries).mem_iff.mpr he, unfit⟩
  rw [← validated, applySingleChangeset]
  cases valid : L.validateChangesetSchema replica data with
  | error f => simp
  | ok u =>
    cases applied : L.applyStrm replica data with
    | error e => simp [ChangesetFailure.isSchema]
    | ok after => simp

end ChangesetLibrary

/-- The changesets of a batch as `applyChangesets` applies them, with the failure itself. -/
def ChangesetLibrary.applyChangesets (L : ChangesetLibrary δ) (batchId : String) :
    Nat → δ → List ChangesetData → Except Failure δ
  | _, replica, [] => .ok replica
  | i, replica, changeset :: rest =>
      if changeset.data.isEmpty then L.applyChangesets batchId (i + 1) replica rest
      else match L.applySingleChangeset replica changeset.data with
        | .error f => .error (.changeset i batchId f)
        | .ok replica => L.applyChangesets batchId (i + 1) replica rest

/-- `validate_all`, with the failure itself. -/
def RuleRegistry.judge (replica : δ) (sequence : UInt64) : RuleRegistry δ → Except Failure Unit
  | [] => .ok ()
  | rule :: rest =>
      if !rule.isEnabled then judge replica sequence rest
      else match rule.validate replica sequence with
        | .ok .Pass => judge replica sequence rest
        | .ok (.Fail reason) => .error (.validationRule rule.name reason)
        | .ok .NotApplicable => judge replica sequence rest
        | .error e => .error (.validationRule rule.name ("Rule error: " ++ e))

def judgeWith (rules : Option (RuleRegistry δ)) (replica : δ) (sequence : UInt64) :
    Except Failure Unit :=
  match rules with
  | none => .ok ()
  | some registry => registry.judge replica sequence

/-- The engine that applies changesets with the library. -/
def Engine.withLibrary (E : Engine δ) (L : ChangesetLibrary δ) : Engine δ :=
  { E with
    applySingleChangeset := fun _ replica data =>
      (L.applySingleChangeset replica data).mapError ChangesetFailure.message }

/-- The batch in its transaction. -/
def batchOutcome (L : ChangesetLibrary δ) (faults : Faults δ) (message : SignedMessage)
    (rules : Option (RuleRegistry δ)) (base : δ) (batch : ChangesetBatchRequest) :
      Except Failure δ :=
  match L.applyChangesets batch.batchId 0 base batch.changesets with
  | .error f => .error f
  | .ok applied =>
      match judgeWith rules applied message.sequence with
      | .error f => .error f
      | .ok () =>
          match faults.onCommit with
          | some e => .error (.commitTransaction e)
          | none => .ok applied

/-- What a changeset message makes of the database, or how it fails. -/
def outcome (E : Engine δ) (L : ChangesetLibrary δ) (faults : Faults δ) (message : SignedMessage)
    (rules : Option (RuleRegistry δ)) (conn : Connection δ) : Except Failure δ :=
  match E.decompress message.payload with
  | .error e => .error (.decompression e)
  | .ok decompressed =>
      match E.parseChangesets decompressed with
      | .error e => .error (.parse e)
      | .ok batch =>
          match conn.pending, faults.onBegin with
          | some _, _ =>
              .error (.beginTransaction "cannot start a transaction within a transaction")
          | none, some e => .error (.beginTransaction e)
          | none, none => batchOutcome L faults message rules conn.committed batch

section Outcomes

variable (E : Engine δ) (L : ChangesetLibrary δ) (faults : Faults δ) (message : SignedMessage)

theorem applyChangesets_library (batchId : String) (i : Nat) (replica : δ)
    (changesets : List ChangesetData) :
    applyChangesets (E.withLibrary L) message batchId i replica changesets =
      (L.applyChangesets batchId i replica changesets).mapError
        (Failure.message message.sequence) := by
  induction changesets generalizing i replica with
  | nil => rfl
  | cons changeset rest ih =>
    rw [applyChangesets, ChangesetLibrary.applyChangesets]
    cases empty : changeset.data.isEmpty with
    | true => exact ih (i + 1) replica
    | false =>
      have single : (E.withLibrary L).applySingleChangeset message.sequence replica changeset.data =
        (L.applySingleChangeset replica changeset.data).mapError ChangesetFailure.message := rfl
      simp only [Bool.false_eq_true, if_false, single]
      cases L.applySingleChangeset replica changeset.data with
      | error f => rfl
      | ok after => exact ih (i + 1) after

theorem validateAll_judge (registry : RuleRegistry δ) (replica : δ) (sequence : UInt64) :
    registry.validateAll replica sequence =
      (registry.judge replica sequence).mapError (Failure.message sequence) := by
  induction registry with
  | nil => rfl
  | cons rule rest ih =>
    rw [RuleRegistry.validateAll, RuleRegistry.judge]
    cases rule.isEnabled with
    | false => exact ih
    | true =>
      simp only [Bool.not_true, Bool.false_eq_true, if_false]
      cases rule.validate replica sequence with
      | error e => rfl
      | ok result =>
        cases result with
        | Pass => exact ih
        | Fail reason => rfl
        | NotApplicable => exact ih

theorem validateWith_judge (rules : Option (RuleRegistry δ)) (replica : δ) (sequence : UInt64) :
    validateWith rules replica sequence =
      (judgeWith rules replica sequence).mapError (Failure.message sequence) := by
  cases rules with
  | none => rfl
  | some registry => exact validateAll_judge registry replica sequence

theorem decompressAndParse_library : decompressAndParse (E.withLibrary L) E.parseChangesets message
      "changeset batch" =
    (match E.decompress message.payload with
      | .error e => Except.error (Failure.decompression e)
      | .ok decompressed => (E.parseChangesets decompressed).mapError Failure.parse).mapError
        (Failure.message message.sequence) := by
  have same : (E.withLibrary L).decompress = E.decompress := rfl
  rw [decompressAndParse, same]
  cases E.decompress message.payload with
  | error e => rfl
  | ok decompressed =>
    cases parsed : E.parseChangesets decompressed with
    | error e =>
      simp only [parsed]
      rfl
    | ok batch =>
      simp only [parsed]
      rfl

/-- The transaction of a batch makes of the connection what the batch makes of the database. -/
theorem scope_batchOutcome (rules : Option (RuleRegistry δ)) (base : δ)
    (batch : ChangesetBatchRequest) (begins : faults.onBegin = none) :
    let a : ChangesetApplier δ := ⟨E.withLibrary L, faults⟩
    Work.scope a.transaction (a.applyBatch message rules batch) a.commit ⟨base, none⟩ =
      match batchOutcome L faults message rules base batch with
      | .ok applied => (.ok (), ⟨applied, none⟩)
      | .error f => (.error (f.message message.sequence), ⟨base, none⟩) := by
  intro a
  have run := a.applyBatch_run message rules batch base base
  have changesets : applyChangesets a.engine message batch.batchId 0 base batch.changesets =
      (L.applyChangesets batch.batchId 0 base batch.changesets).mapError
        (Failure.message message.sequence) :=
    applyChangesets_library E L message batch.batchId 0 base batch.changesets
  rw [changesets] at run
  rw [ChangesetApplier.transaction, ChangesetApplier.commit, batchOutcome]
  simp only [a, begins, Option.map_none]
  cases applied : L.applyChangesets batch.batchId 0 base batch.changesets with
  | error f =>
    rw [applied] at run
    obtain ⟨after, failed⟩ := run
    exact Work.scope_error _ _ _ _ base after _ failed
  | ok changed =>
    rw [applied] at run
    have judged := validateWith_judge rules changed message.sequence
    cases verdict : judgeWith rules changed message.sequence with
    | error f =>
      rw [verdict] at judged
      simp only [Except.mapError, Outcome.ok_bind, judged, Outcome.error_bind] at run
      obtain ⟨after, failed⟩ := run
      simp only [verdict]
      exact Work.scope_error _ _ _ _ base after _ failed
    | ok u =>
      rw [verdict] at judged
      simp only [Except.mapError, Outcome.ok_bind, judged] at run
      rw [Work.scope_ok _ _ _ _ base changed () run]
      cases commits : faults.onCommit with
      | none => simp only [verdict, Option.map_none]
      | some e =>
        simp only [verdict, Option.map_some]
        rfl

/-- The applier fails with the text of the failure, and then leaves the connection as it was. -/
theorem applyMessageWithRules_outcome (rules : Option (RuleRegistry δ)) (conn : Connection δ)
    (changeset : message.messageType = .Changeset) :
    (⟨E.withLibrary L, faults⟩ : ChangesetApplier δ).applyMessageWithRules message rules conn =
      match outcome E L faults message rules conn with
      | .ok applied => (.ok (), ⟨applied, none⟩)
      | .error f => (.error (f.message message.sequence), conn) := by
  let a : ChangesetApplier δ := ⟨E.withLibrary L, faults⟩
  have parsed :
      decompressAndParse a.engine a.engine.parseChangesets message "changeset batch" = _ :=
    decompressAndParse_library E L message
  rw [ChangesetApplier.applyMessageWithRules, changeset]
  show a.applyChangesetMessageWithRules message rules conn = _
  rw [ChangesetApplier.applyChangesetMessageWithRules, outcome]
  cases decompressed : E.decompress message.payload with
  | error e =>
    rw [decompressed] at parsed
    exact Work.bind_error (Work.query _) _ conn conn _ (congrArg (·, conn) parsed)
  | ok bytes =>
    rw [decompressed] at parsed
    cases read : E.parseChangesets bytes with
    | error e =>
      simp only [read] at parsed ⊢
      exact Work.bind_error (Work.query _) _ conn conn _ (congrArg (·, conn) parsed)
    | ok batch =>
      simp only [read] at parsed ⊢
      rw [Work.bind_ok (Work.query _) _ conn conn batch (congrArg (·, conn) parsed)]
      obtain ⟨base, pending⟩ := conn
      cases pending with
      | some d =>
        have nested : a.transaction ⟨base, some d⟩ = (.error ((Failure.beginTransaction
            "cannot start a transaction within a transaction").message message.sequence),
              ⟨base, some d⟩) := by
          rfl
        exact Work.bind_error _ _ _ _ _ nested
      | none =>
        cases begins : faults.onBegin with
        | some e =>
          have refused : a.transaction ⟨base, none⟩ =
              (.error ((Failure.beginTransaction e).message message.sequence), ⟨base, none⟩) := by
            rw [ChangesetApplier.transaction]
            show Work.start _ (faults.onBegin.map _) _ = _
            rw [begins]
            rfl
          exact Work.bind_error _ _ _ _ _ refused
        | none => exact scope_batchOutcome E L faults message rules base batch begins

end Outcomes

/-- `apply_message_with_audit`: the result, and what becomes of the connection and of
the pending store. -/
def ChangesetApplier.applyMessageWithAudit (a : ChangesetApplier δ) (message : SignedMessage)
    (rules : Option (RuleRegistry δ)) (conn : Connection δ) (pendingStore : PendingStore) :
    Except String ApplyResult × Connection δ × PendingStore :=
  match a.applyMessageWithRules message rules conn with
  | (.ok (), conn) =>
      if message.messageType = .Snapshot then
        match verifyPendingChangesetsAfterSnapshot a.engine message.sequence
            ⟨conn.committed, pendingStore⟩ with
        | (.error e, d) => (.error e, ⟨d.replica, conn.pending⟩, d.pendingStore)
        | (.ok (), d) => (.ok .Applied, ⟨d.replica, conn.pending⟩, d.pendingStore)
      else (.ok .Applied, conn, pendingStore)
  | (.error errorMsg, conn) =>
      if isSchemaMismatch errorMsg && message.messageType = .Changeset then
        match pendingStore.store ⟨message.sequence, message.payload, deferralReason errorMsg⟩ with
        | .error e => (.error e, conn, pendingStore)
        | .ok pendingStore => (.ok .StoredAsPending, conn, pendingStore)
      else (.error errorMsg, conn, pendingStore)

/-- A message is stored for later exactly if it failed for the schema, and any other failure is
returned and leaves the store alone. -/
structure Classified (message : SignedMessage) (failed : Except Failure δ) (before : PendingStore)
    (result : Except String ApplyResult) (after : PendingStore) : Prop where
  deferred : result = .ok .StoredAsPending ↔ ∃ f, failed = .error f ∧ f.isSchema = true
  stored : result = .ok .StoredAsPending → ∃ reason,
    after = before.insertOrReplace ⟨message.sequence, message.payload, reason⟩
  returned : ∀ f, failed = .error f → f.isSchema = false →
    result = .error (f.message message.sequence) ∧ after = before

/-- After a failure for the schema the sequence can be bound to a statement, and after any other one
no text that it embeds reads like a schema mismatch. -/
def ClassifiedByText (message : SignedMessage) (failed : Except Failure δ) : Prop :=
  ∀ f, failed = .error f →
    if f.isSchema then PendingStore.bindable message.sequence = true
    else ∀ text ∈ f.embedded, isSchemaMismatch text = false

/-- No failure of the applier reads like one of the pending store. -/
theorem Failure.message_ne_store (f : Failure) (sequence : UInt64) :
    f.message sequence ≠ "Failed to store pending changeset" := by
  have head {part after : String} (c : Char) (begins : part.toList.head? = some c)
      (other : c ≠ 'F') :
      part ++ after ≠ "Failed to store pending changeset" := by
    intro same
    have text := congrArg (fun s : String => s.toList.head?) same
    simp only [String.toList_append, List.head?_append, begins, Option.some_or] at text
    exact other (Option.some.inj text)
  cases f with
  | decompression e =>
    rw [message_decompression]
    exact head 'D' (by decide) (by decide)
  | parse e =>
    rw [message_parse]
    exact head 'P' (by decide) (by decide)
  | beginTransaction e => exact head 'D' (by decide) (by decide)
  | changeset index batchId failure =>
    rw [message_changeset]
    exact head 'C' (by decide) (by decide)
  | validationRule rule reason =>
    rw [message_validationRule]
    exact head 'V' (by decide) (by decide)
  | commitTransaction e => exact head 'D' (by decide) (by decide)

section Deferral

variable (E : Engine δ) (L : ChangesetLibrary δ) (faults : Faults δ) (message : SignedMessage)
  (rules : Option (RuleRegistry δ)) (conn : Connection δ) (pendingStore : PendingStore)

/-- What happens to a changeset message, by its outcome. -/
theorem applyMessageWithAudit_outcome (changeset : message.messageType = .Changeset) :
    (⟨E.withLibrary L, faults⟩ : ChangesetApplier δ).applyMessageWithAudit message rules conn
        pendingStore =
      match outcome E L faults message rules conn with
      | .ok applied => (.ok .Applied, ⟨applied, none⟩, pendingStore)
      | .error f =>
          if isSchemaMismatch (f.message message.sequence) then
            if PendingStore.bindable message.sequence then
              (.ok .StoredAsPending, conn, pendingStore.insertOrReplace
                ⟨message.sequence, message.payload, deferralReason (f.message message.sequence)⟩)
            else (.error "Failed to store pending changeset", conn, pendingStore)
          else (.error (f.message message.sequence), conn, pendingStore) := by
  have applied := applyMessageWithRules_outcome E L faults message rules conn changeset
  rw [ChangesetApplier.applyMessageWithAudit, applied]
  cases outcome E L faults message rules conn with
  | ok after => simp [changeset]
  | error f =>
    simp only [changeset, decide_true, Bool.and_true]
    by_cases mismatch : isSchemaMismatch (f.message message.sequence) = true
    · rw [if_pos mismatch, if_pos mismatch, PendingStore.store]
      by_cases fits : PendingStore.bindable message.sequence = true
      · rw [if_pos fits, if_pos fits]
      · rw [if_neg fits, if_neg fits]
    · rw [if_neg mismatch, if_neg mismatch]

/-- Messages are classified as they should be exactly if the texts of their failures allow it. -/
theorem deferral_classified_iff (changeset : message.messageType = .Changeset) :
    let result := (⟨E.withLibrary L, faults⟩ : ChangesetApplier δ).applyMessageWithAudit
      message rules conn pendingStore
    Classified message (outcome E L faults message rules conn) pendingStore result.1 result.2.2 ↔
      ClassifiedByText message (outcome E L faults message rules conn) := by
  intro result
  have found : result = _ :=
    applyMessageWithAudit_outcome E L faults message rules conn pendingStore changeset
  rw [found]
  cases outcome E L faults message rules conn with
  | ok applied =>
    refine iff_of_true ⟨?_, ?_, ?_⟩ ?_
    · simp
    · simp
    · intro f failed
      cases failed
    · intro f failed
      cases failed
  | error f =>
    cases schema : f.isSchema with
    | true =>
      have mismatch := f.isSchemaMismatch_message schema message.sequence
      simp only [mismatch, if_true]
      by_cases fits : PendingStore.bindable message.sequence = true
      · simp only [fits, if_true]
        refine iff_of_true ⟨?_, ?_, ?_⟩ ?_
        · exact iff_of_true rfl ⟨f, rfl, schema⟩
        · intro _
          exact ⟨_, rfl⟩
        · intro g failed other
          cases failed
          rw [schema] at other
          cases other
        · intro g failed
          cases failed
          rw [schema, if_pos rfl]
          exact fits
      · simp only [fits]
        refine iff_of_false ?_ ?_
        · intro classified
          cases classified.deferred.mpr ⟨f, rfl, schema⟩
        · intro byText
          have needed := byText f rfl
          rw [schema, if_pos rfl] at needed
          exact fits needed
    | false =>
      by_cases mismatch : isSchemaMismatch (f.message message.sequence) = true
      · obtain ⟨text, embedded, reads⟩ :=
          (f.isSchemaMismatch_iff schema message.sequence).mp mismatch
        refine iff_of_false ?_ ?_
        · intro classified
          have returned := (classified.returned f rfl schema).1
          simp only [mismatch, if_true] at returned
          split at returned
          · cases returned
          · exact f.message_ne_store message.sequence (Except.error.inj returned).symm
        · intro byText
          have silent := byText f rfl
          rw [schema, if_neg Bool.false_ne_true] at silent
          rw [silent text embedded] at reads
          cases reads
      · simp only [mismatch]
        refine iff_of_true ⟨?_, ?_, ?_⟩ ?_
        · refine iff_of_false (by simp) ?_
          rintro ⟨g, failed, asSchema⟩
          cases failed
          rw [schema] at asSchema
          cases asSchema
        · intro stored
          cases stored
        · intro g failed _
          cases failed
          exact ⟨rfl, rfl⟩
        · intro g failed
          cases failed
          rw [schema, if_neg Bool.false_ne_true]
          intro text embedded
          by_contra reads
          exact mismatch ((f.isSchemaMismatch_iff schema message.sequence).mpr
            ⟨text, embedded, by simpa using reads⟩)

end Deferral

namespace DeferralSample

open AuditSample Shared.Sample

/-- The changesets are those of one insert or delete in `t`. An INSERT that meets a
row is left out. -/
def library : ChangesetLibrary Table where
  iterate data :=
    match readChange data with
    | none => .ok ([], some "database disk image is malformed")
    | some _ => .ok ([.ok ("t", 2)], none)
  hashOrder entries := entries
  hashOrder_perm entries := List.Perm.refl entries
  tableInfo replica table := if replica.isSome && table = "t" then some 2 else some 0
  applyStrm replica data :=
    match session.applyStrm replica data, readChange data with
    | .ok after, _ => .ok after
    | .error _, some (true, _) => .ok replica
    | .error e, _ => .error e

/-- A batch that deletes the row. -/
def deleteRequest : Bytes :=
  cborHead 5 2 ++ cborText "batch_id" ++ cborText "column-7" ++ cborText "changesets" ++
    cborHead 4 1 ++
    cborHead 5 3 ++ cborText "data" ++ cborBytes (change false row) ++ cborText "sequence" ++
    cborHead 0 0 ++ cborText "timestamp" ++ cborHead 0 timestamp.toNat

def engine : Engine Table :=
  { auditEngine with
    parseChangesets := fun bytes =>
      if bytes = deleteRequest then .ok ⟨"column-7", [⟨change false row, 0, timestamp⟩], none⟩
      else auditEngine.parseChangesets bytes }

def deleteMessage : SignedMessage := { deferredMessage with payload := zstdRawFrame deleteRequest }

/-- The row is not there to be deleted, but the name of the batch has the word column in it. -/
theorem conflict_deferred :
    let result := (⟨engine.withLibrary library, Faults.none⟩ : ChangesetApplier Table)
      |>.applyMessageWithAudit deleteMessage none ⟨some none, none⟩ []
    result.1 = .ok .StoredAsPending ∧
      ¬Classified deleteMessage
        (outcome engine library Faults.none deleteMessage none ⟨some none, none⟩)
        [] result.1 result.2.2 := by
  intro result
  have stored : result.1 = .ok .StoredAsPending := by decide +kernel
  have failed : outcome engine library Faults.none deleteMessage none ⟨some none, none⟩ =
      .error (.changeset 0 "column-7" (.applyChangeset "query aborted")) := by decide
  refine ⟨stored, ?_⟩
  intro classified
  obtain ⟨f, same, schema⟩ := classified.deferred.mp stored
  rw [failed] at same
  cases same
  cases schema

/-- Without the table the insert is stored. -/
theorem deferral_classified_iff_insert :
    let result := (⟨engine.withLibrary library, Faults.none⟩ : ChangesetApplier Table)
      |>.applyMessageWithAudit deferredMessage none ⟨none, none⟩ []
    Classified deferredMessage
      (outcome engine library Faults.none deferredMessage none ⟨none, none⟩) []
      result.1 result.2.2 := by
  have failed : outcome engine library Faults.none deferredMessage none ⟨none, none⟩ =
      .error (.changeset 0 "a" (.missingTables ["t"])) := by decide
  apply (deferral_classified_iff engine library Faults.none deferredMessage none ⟨none, none⟩
    [] rfl).mpr
  intro f same
  rw [failed] at same
  cases same
  decide

end DeferralSample

end SyndDB.Replication
