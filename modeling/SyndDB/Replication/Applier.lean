import SyndDB.Framework.Outcome
import SyndDB.Framework.Text
import SyndDB.Shared.Message

namespace SyndDB.Replication

open Octets Shared
open Text (contains trim)

structure ChangesetData where
  data : Bytes
  sequence : UInt64
  timestamp : UInt64
  deriving DecidableEq

structure ChangesetBatchRequest where
  batchId : String
  changesets : List ChangesetData
  attestationToken : Option String
  deriving DecidableEq

structure WithdrawalRequest where
  requestId : String
  recipient : String
  amount : String
  data : Bytes
  deriving DecidableEq

structure SnapshotData where
  data : Bytes
  timestamp : UInt64
  sequence : UInt64
  deriving DecidableEq

structure SnapshotRequest where
  snapshot : SnapshotData
  messageId : String
  attestationToken : Option String
  deriving DecidableEq

inductive DeferralReason where
  | MissingTable (table : String)
  | ColumnMismatch (table : String) (expected actual : Int)
  deriving DecidableEq

structure PendingChangeset where
  sequence : UInt64
  data : Bytes
  reason : DeferralReason
  deriving DecidableEq

/-- Rows of the store, by increasing sequence. -/
abbrev PendingStore := List PendingChangeset

namespace PendingStore

/-- Integers of the database are signed, so larger sequences cannot be bound to a statement. -/
def bindable (sequence : UInt64) : Bool := sequence.toNat < 2 ^ 63

/-- `INSERT OR REPLACE`, keyed by the sequence. -/
def insertOrReplace (p : PendingChangeset) : PendingStore → PendingStore
  | [] => [p]
  | q :: rest =>
      if p.sequence < q.sequence then p :: q :: rest
      else if p.sequence = q.sequence then p :: rest
      else q :: insertOrReplace p rest

def store (s : PendingStore) (p : PendingChangeset) : Except String PendingStore :=
  if bindable p.sequence then .ok (insertOrReplace p s)
  else .error "Failed to store pending changeset"

def clearUpTo (s : PendingStore) (sequence : UInt64) : Except String PendingStore :=
  if bindable sequence then .ok (s.filter fun p => sequence < p.sequence)
  else .error "Failed to clear pending changesets"

end PendingStore

/-- What stands after the last colon, without surrounding blanks. -/
def afterLastColon (text : String) : String :=
  String.ofList (trim ((text.toList.reverse.takeWhile (· ≠ ':')).reverse))

/-- What the applier takes from zstd, the CBOR reader, SQLite and the registered rules. The replica
database is `δ`. A changeset that fails to apply, and a snapshot that fails to restore, leave the
replica as it was. Changesets are applied for the message with the given number: the schema check
goes through a hash map, whose order may be another one each time. -/
structure Engine (δ : Type) where
  decompress : Bytes → Except String Bytes
  parseChangesets : Bytes → Except String ChangesetBatchRequest
  parseSnapshot : Bytes → Except String SnapshotRequest
  parseWithdrawal : Bytes → Except String WithdrawalRequest
  applySingleChangeset : UInt64 → δ → Bytes → Except String δ
  validateAll : δ → UInt64 → Except String Unit
  restoreSnapshot : Bytes → Except String δ
  /-- The replica after the chain of pending changesets was walked back and replayed. -/
  verifyChangesetChain : δ → List (UInt64 × Bytes) → δ

variable {δ : Type} (E : Engine δ)

def decompressAndParse {α : Type} (parse : Bytes → Except String α) (message : SignedMessage)
    (typeName : String) : Except String α :=
  match E.decompress message.payload with
  | .error e => .error
      ("Decompression error: Failed to decompress " ++ typeName ++ " at sequence " ++
        toString message.sequence ++ ": " ++ e)
  | .ok decompressed =>
      match parse decompressed with
      | .error e => .error ("Parse error: Failed to parse " ++ typeName ++ " at sequence " ++
          toString message.sequence ++ ": " ++ e)
      | .ok value => .ok value

/-- The changesets of one batch, within one transaction. Empty ones are skipped. -/
def applyChangesets (message : SignedMessage) (batchId : String) :
    Nat → δ → List ChangesetData → Except String δ
  | _, replica, [] => .ok replica
  | i, replica, changeset :: rest =>
      if changeset.data.isEmpty then applyChangesets message batchId (i + 1) replica rest
      else match E.applySingleChangeset message.sequence replica changeset.data with
        | .error e => .error ("Changeset application failed at sequence " ++
            toString message.sequence ++ ": Changeset " ++ toString i ++ " in batch " ++ batchId ++
            ": " ++ e)
        | .ok replica => applyChangesets message batchId (i + 1) replica rest

def applyChangesetMessageWithRules (message : SignedMessage) (replica : δ) : Except String δ := do
  let batch ← decompressAndParse E E.parseChangesets message "changeset batch"
  let applied ← applyChangesets E message batch.batchId 0 replica batch.changesets
  E.validateAll applied message.sequence
  return applied

def applySnapshotMessage (message : SignedMessage) : Except String δ := do
  let request ← decompressAndParse E E.parseSnapshot message "snapshot"
  E.restoreSnapshot request.snapshot.data

/-- A withdrawal does not change the replica. -/
def applyMessageWithRules (message : SignedMessage) (replica : δ) : Except String δ :=
  match message.messageType with
  | .Changeset => applyChangesetMessageWithRules E message replica
  | .Snapshot => applySnapshotMessage E message
  | .Withdrawal => .ok replica

def extractWithdrawal (message : SignedMessage) : Except String (Option WithdrawalRequest) :=
  if message.messageType ≠ .Withdrawal then .ok none
  else do
    let decompressed ← E.decompress message.payload
    match E.parseWithdrawal decompressed with
    | .error _ => .error "Failed to parse withdrawal request"
    | .ok request => .ok (some request)

inductive ApplyResult where
  | Applied
  | StoredAsPending
  deriving DecidableEq

/-- The replica and the changesets kept for a later audit. -/
structure Databases (δ : Type) where
  replica : δ
  pendingStore : PendingStore
  deriving DecidableEq

def verifyPendingChangesetsAfterSnapshot (snapshotSequence : UInt64) (d : Databases δ) :
    Except String Unit × Databases δ :=
  if d.pendingStore.isEmpty then (.ok (), d)
  else
    let relevant := d.pendingStore.filter fun p => p.sequence < snapshotSequence
    if relevant.isEmpty then (.ok (), d)
    else
      let replica := E.verifyChangesetChain d.replica (relevant.map fun p => (p.sequence, p.data))
      match d.pendingStore.clearUpTo snapshotSequence with
      | .error e => (.error e, { d with replica := replica })
      | .ok pending => (.ok (), ⟨replica, pending⟩)

def isSchemaMismatch (errorMsg : String) : Bool :=
  contains errorMsg "Schema mismatch" || contains errorMsg "don't exist" || contains
    errorMsg "column"

def deferralReason (errorMsg : String) : DeferralReason :=
  if contains errorMsg "don't exist" then .MissingTable (afterLastColon errorMsg)
  else .ColumnMismatch "unknown" 0 0

def applyMessageWithAudit (message : SignedMessage) (d : Databases δ) :
    Except String ApplyResult × Databases δ :=
  match applyMessageWithRules E message d.replica with
  | .ok replica =>
      let d := { d with replica := replica }
      if message.messageType = .Snapshot then
        match verifyPendingChangesetsAfterSnapshot E message.sequence d with
        | (.error e, d) => (.error e, d)
        | (.ok (), d) => (.ok .Applied, d)
      else (.ok .Applied, d)
  | .error errorMsg =>
      if isSchemaMismatch errorMsg && message.messageType = .Changeset then
        match d.pendingStore.store ⟨message.sequence, message.payload, deferralReason errorMsg⟩ with
        | .error e => (.error e, d)
        | .ok pending => (.ok .StoredAsPending, { d with pendingStore := pending })
      else (.error errorMsg, d)

end SyndDB.Replication
