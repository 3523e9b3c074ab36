import SyndDB.Replication.Applier
import SyndDB.Shared.Recorded

namespace SyndDB.Replication

open Octets Shared

structure BatchInfo where
  startSequence : UInt64
  endSequence : UInt64
  path : String
  deriving DecidableEq

def BatchInfo.contains (b : BatchInfo) (sequence : UInt64) : Bool :=
  b.startSequence ≤ sequence && sequence ≤ b.endSequence

/-- Fetchers list batches by start sequence, so the partition point is where the
predicate first fails. -/
def partitionPoint (p : BatchInfo → Bool) (batches : List BatchInfo) : Nat :=
  (batches.takeWhile p).length

def findBatchContaining (batches : List BatchInfo) (sequence : UInt64) : Option BatchInfo :=
  match partitionPoint (fun b => b.startSequence ≤ sequence) batches with
  | 0 => none
  | i + 1 => batches[i]?.filter fun b => b.contains sequence

def findFirstBatchStartingAtOrAfter (batches : List BatchInfo) (sequence : UInt64) :
    Option BatchInfo :=
  batches[partitionPoint (fun b => b.startSequence < sequence) batches]?

/-- The batches an iterator positioned at a sequence still goes through. -/
def startingAt (sequence : UInt64) : List BatchInfo → List BatchInfo
  | [] => []
  | b :: rest =>
      if b.contains sequence || sequence < b.startSequence then b :: rest
      else startingAt sequence rest

inductive ValidatorError where
  | SignatureVerification (e : VerificationError)
  | InvalidSignature (message : String)
  | SignerMismatch (expected actual : Hex)
  | SequenceGap (expected actual : UInt64)
  | Fetch (message : String)
  | Apply (message : String)
  deriving DecidableEq

structure ValidatorConfig where
  sequencerPubkey : Bytes
  gapRetryCount : Nat
  gapSkipOnFailure : Bool

/-- The databases of a validator, and a record of the messages it has processed and the withdrawals
it has reported. The state database is assumed to accept writes. -/
structure Validator (δ : Type) where
  databases : Databases δ
  lastSequence : Option UInt64
  gaps : List (UInt64 × UInt64)
  processed : List UInt64
  withdrawals : List WithdrawalRequest
  deriving DecidableEq

/-- What a fetcher answers. -/
structure Fetcher where
  listBatches : Except String (List BatchInfo)
  getBatchByPath : String → Except String (Option SignedBatch)
  get : UInt64 → Except String (Option SignedMessage)
  getLatestSequence : Except String (Option UInt64)

def Fetcher.has (f : Fetcher) (sequence : UInt64) : Bool :=
  match f.get sequence with
  | .ok (some _) => true
  | .ok none | .error _ => false

variable {δ : Type} (X : Externals) (E : Engine δ) (config : ValidatorConfig)

/-- The signature of a message is checked first, then its signer against the configured key. -/
def SignatureVerifier.verify (message : SignedMessage) : Except ValidatorError Unit := do
  match message.verifySignature X with
  | .error e => throw (.SignatureVerification e)
  | .ok () =>
      let hexStr := stripHexPrefix message.signer
      if hexStr.length ≠ 128 then throw (.InvalidSignature "Invalid signer public key length")
      match hexBytes hexStr with
      | none => throw (.InvalidSignature "Invalid signer public key hex")
      | some claimed =>
          if claimed ≠ config.sequencerPubkey then
            throw (.SignerMismatch (hex0x config.sequencerPubkey) (hex0x claimed))

namespace Validator

def nextSequence (v : Validator δ) : UInt64 :=
  match v.lastSequence with
  | none => 0
  | some sequence => sequence + 1

theorem nextSequence_some (v : Validator δ) (sequence : UInt64)
    (h : v.lastSequence = some sequence) :
    v.nextSequence = sequence + 1 := by
  rw [nextSequence, h]

theorem nextSequence_congr (v w : Validator δ) (h : w.lastSequence = v.lastSequence) :
    w.nextSequence = v.nextSequence := by
  rw [nextSequence, nextSequence, h]

def recordSync (v : Validator δ) (sequence : UInt64) : Validator δ :=
  { v with lastSequence := some sequence }

/-- Report a withdrawal to the callback, if there is one. -/
def onWithdrawal (v : Validator δ) (w : Option WithdrawalRequest) : Validator δ :=
  { v with withdrawals := v.withdrawals ++ w.toList }

/-- Apply a message and record it as synced. The log of processed messages follows the applier. -/
def applyAndRecord (message : SignedMessage) (v : Validator δ) :
    Except ValidatorError Unit × Validator δ :=
  match applyMessageWithAudit E message v.databases with
  | (.error e, d) => (.error (.Apply e), { v with databases := d })
  | (.ok _, d) =>
      (.ok (), { v with databases := d, processed := v.processed ++ [message.sequence] }.recordSync
        message.sequence)

/-- Verify, report and apply one message the way `sync_one` and `sync_batch` do: an undecodable
withdrawal is an error. -/
def syncMessage (message : SignedMessage) (v : Validator δ) :
    Except ValidatorError Unit × Validator δ :=
  match SignatureVerifier.verify X config message with
  | .error e => (.error e, v)
  | .ok () =>
      match extractWithdrawal E message with
      | .error e => (.error (.Apply e), v)
      | .ok w => (v.onWithdrawal w).applyAndRecord E message

/-- The same in `run_batched`: an undecodable withdrawal is passed over. -/
def runMessage (message : SignedMessage) (v : Validator δ) :
    Except ValidatorError Unit × Validator δ :=
  match SignatureVerifier.verify X config message with
  | .error e => (.error e, v)
  | .ok () =>
      let w := match extractWithdrawal E message with
        | .ok w => w
        | .error _ => none
      (v.onWithdrawal w).applyAndRecord E message

/-- The messages of a batch in `sync_batch`: the threshold is fixed. -/
def syncMessages (nextSequence : UInt64) :
    Validator δ → List SignedMessage → Except ValidatorError Unit × Validator δ
  | v, [] => (.ok (), v)
  | v, message :: rest =>
      if message.sequence < nextSequence then syncMessages nextSequence v rest
      else match v.syncMessage X E config message with
        | (.error e, v) => (.error e, v)
        | (.ok (), v) => syncMessages nextSequence v rest

def syncBatch (batch : SignedBatch) (v : Validator δ) : Except ValidatorError Unit × Validator δ :=
  match batch.verifyBatchSignature X with
  | .error e => (.error (.SignatureVerification e), v)
  | .ok () => syncMessages X E config v.nextSequence v batch.messages

/-- The loop of `sync_to_head_batched`: a batch that is not found is passed over. -/
def syncBatches (f : Fetcher) :
    Validator δ → List BatchInfo → Except ValidatorError Unit × Validator δ
  | v, [] => (.ok (), v)
  | v, info :: rest =>
      match f.getBatchByPath info.path with
      | .error e => (.error (.Fetch e), v)
      | .ok none => syncBatches f v rest
      | .ok (some batch) =>
          match v.syncBatch X E config batch with
          | (.error e, v) => (.error e, v)
          | (.ok (), v) => syncBatches f v rest

def syncToHeadBatched (f : Fetcher) (v : Validator δ) : Except ValidatorError Unit × Validator δ :=
  match f.listBatches with
  | .error e => (.error (.Fetch e), v)
  | .ok batches => v.syncBatches X E config f (startingAt v.nextSequence batches)

/-- The messages of a batch in `run_batched`: the threshold moves with them. -/
def runMessages :
    UInt64 → Validator δ → List SignedMessage → Except ValidatorError Unit × UInt64 × Validator δ
  | nextSequence, v, [] => (.ok (), nextSequence, v)
  | nextSequence, v, message :: rest =>
      if message.sequence < nextSequence then runMessages nextSequence v rest
      else match v.runMessage X E config message with
        | (.error e, v) => (.error e, nextSequence, v)
        | (.ok (), v) => runMessages (message.sequence + 1) v rest

end Validator

/-- How a loop ended, if it did. -/
abbrev Status := Option (Except ValidatorError Unit)

/-- The variables of `run_batched` across iterations. -/
structure BatchLoop (δ : Type) where
  validator : Validator δ
  index : List BatchInfo
  nextSequence : UInt64
  caughtUp : Bool
  status : Status

/-- What one iteration finds: the shutdown flag, the clock, the fetcher. -/
structure Turn where
  shutdown : Bool
  refreshDue : Bool
  fetcher : Fetcher

namespace BatchLoop

/-- The state in which `run_batched` enters its loop. -/
def enter (v : Validator δ) (index : List BatchInfo) : BatchLoop δ :=
  ⟨v, index, v.nextSequence, false, none⟩

def refresh (t : Turn) (l : BatchLoop δ) : BatchLoop δ :=
  if t.refreshDue || l.caughtUp then
    match t.fetcher.listBatches with
    | .error _ => l
    | .ok batches =>
        { l with index := batches, caughtUp := l.caughtUp && batches.length ≤ l.index.length }
  else l

/-- A fetched batch is verified as a whole, then message by message. -/
def processBatch (batch : SignedBatch) (l : BatchLoop δ) : BatchLoop δ :=
  match batch.verifyBatchSignature X with
  | .error e => { l with status := some (.error (.SignatureVerification e)) }
  | .ok () =>
      match l.validator.runMessages X E config l.nextSequence batch.messages with
      | (.error e, next, v) =>
          { l with validator := v, nextSequence := next, status := some (.error e) }
      | (.ok (), next, v) => { l with validator := v, nextSequence := next }

/-- No batch covers the next sequence but a later one starts at `gapEnd`. -/
def onGap (gapEnd : UInt64) (l : BatchLoop δ) : BatchLoop δ :=
  if !config.gapSkipOnFailure then
    { l with status := some (.error (.SequenceGap l.nextSequence gapEnd)) }
  else if PendingStore.bindable l.nextSequence && PendingStore.bindable gapEnd then
    { l with validator :=
             { l.validator with gaps := l.validator.gaps ++ [(l.nextSequence, gapEnd)] }
             nextSequence := gapEnd }
  else { l with status := some (.error (.Apply "Failed to record gap")) }

/-- One iteration of `run_batched`. -/
def step (l : BatchLoop δ) (t : Turn) : BatchLoop δ :=
  if l.status.isSome then l
  else if t.shutdown then { l with status := some (.ok ()) }
  else
    let l := l.refresh t
    match findBatchContaining l.index l.nextSequence with
    | some info =>
        match t.fetcher.getBatchByPath info.path with
        | .ok (some batch) => l.processBatch X E config batch
        | .ok none | .error _ => l
    | none =>
        match findFirstBatchStartingAtOrAfter l.index l.nextSequence with
        | some later => l.onGap config later.startSequence
        | none => { l with caughtUp := true }

/-- The batch a turn works on, if it gets as far as that. -/
def fetched (l : BatchLoop δ) (t : Turn) : Option SignedBatch :=
  if l.status.isSome || t.shutdown then none
  else do
    let info ← findBatchContaining (l.refresh t).index l.nextSequence
    match t.fetcher.getBatchByPath info.path with
    | .ok batch => batch
    | .error _ => none

@[simp] theorem refresh_validator (l : BatchLoop δ) (t : Turn) :
    (l.refresh t).validator = l.validator := by
  unfold refresh
  split
  · split
    · rfl
    · rfl
  · rfl

@[simp] theorem refresh_nextSequence (l : BatchLoop δ) (t : Turn) :
    (l.refresh t).nextSequence = l.nextSequence := by
  unfold refresh
  split
  · split
    · rfl
    · rfl
  · rfl

theorem step_fetched (l : BatchLoop δ) (t : Turn) (batch : SignedBatch)
    (h : l.fetched t = some batch) :
    l.step X E config t = (l.refresh t).processBatch X E config batch := by
  by_cases halted : l.status.isSome || t.shutdown
  · simp [fetched, halted] at h
  · have running : l.status.isSome = false ∧ t.shutdown = false := by simpa using halted
    rw [fetched, if_neg halted] at h
    cases found : findBatchContaining (l.refresh t).index l.nextSequence with
    | none => simp [found] at h
    | some info =>
      cases answer : t.fetcher.getBatchByPath info.path with
      | error e => simp [found, answer] at h
      | ok result =>
        have hb : result = some batch := by simpa [found, answer] using h
        simp [step, running, found, answer, hb]

/-- A turn without a batch changes nothing but the loop variables and the recorded gaps. -/
theorem step_idle (l : BatchLoop δ) (t : Turn) (h : l.fetched t = none) :
    ∃ gaps, (l.step X E config t).validator = { l.validator with gaps := gaps } := by
  by_cases halted : l.status.isSome || t.shutdown
  · refine ⟨l.validator.gaps, ?_⟩
    by_cases ended : l.status.isSome
    · simp [step, ended]
    · have down : t.shutdown = true := by simpa [ended] using halted
      simp [step, ended, down]
  · have running : l.status.isSome = false ∧ t.shutdown = false := by simpa using halted
    rw [fetched, if_neg halted] at h
    cases found : findBatchContaining (l.refresh t).index l.nextSequence with
    | some info =>
      refine ⟨l.validator.gaps, ?_⟩
      cases answer : t.fetcher.getBatchByPath info.path with
      | error e => simp [step, running, found, answer]
      | ok result =>
        have hb : result = none := by simpa [found, answer] using h
        simp [step, running, found, answer, hb]
    | none =>
      cases later : findFirstBatchStartingAtOrAfter (l.refresh t).index l.nextSequence with
      | none => exact ⟨l.validator.gaps, by simp [step, running, found, later]⟩
      | some info =>
        have gap : l.step X E config t = (l.refresh t).onGap config info.startSequence := by
          simp [step, running, found, later]
        rw [gap, onGap, refresh_validator]
        split
        · exact ⟨l.validator.gaps, rfl⟩
        · split
          · exact ⟨_, rfl⟩
          · exact ⟨l.validator.gaps, rfl⟩

end BatchLoop

/-- The variables of `run_with_callbacks` across iterations. -/
structure SingleLoop (δ : Type) where
  validator : Validator δ
  nextSequence : UInt64
  notFoundCount : Nat
  status : Status

namespace SingleLoop

def enter (v : Validator δ) : SingleLoop δ := ⟨v, v.nextSequence, 0, none⟩

/-- The next ten sequences are tried, then the latest one the fetcher knows. -/
def detectGap (f : Fetcher) (expected : UInt64) : Option UInt64 :=
  match ((List.range' 1 10).map fun offset => expected + UInt64.ofNat offset).find? f.has with
  | some available => some available
  | none =>
      match f.getLatestSequence with
      | .ok (some latest) => if expected < latest then some (expected + 1) else none
      | _ => none

/-- `Ok(true)` when a message was synced, `Ok(false)` when there is none yet. -/
def syncOne (f : Fetcher) (sequence : UInt64) (v : Validator δ) :
    Except ValidatorError Bool × Validator δ :=
  match f.get sequence with
  | .error e => (.error (.Fetch e), v)
  | .ok none => (.ok false, v)
  | .ok (some message) =>
      if message.sequence ≠ sequence then (.error (.SequenceGap sequence message.sequence), v)
      else match v.syncMessage X E config message with
        | (.error e, v) => (.error e, v)
        | (.ok (), v) => (.ok true, v)

/-- A skipped gap is recorded if the state database takes it. -/
def skipGap (available : UInt64) (l : SingleLoop δ) : SingleLoop δ :=
  let gaps := if PendingStore.bindable l.nextSequence && PendingStore.bindable available then
      l.validator.gaps ++ [(l.nextSequence, available)] else l.validator.gaps
  { l with validator := { l.validator with gaps := gaps }, nextSequence := available
           notFoundCount := 0 }

/-- One iteration of `run_with_callbacks`: errors are logged and the sequence is tried again. -/
def step (l : SingleLoop δ) (t : Turn) : SingleLoop δ :=
  if l.status.isSome then l
  else if t.shutdown then { l with status := some (.ok ()) }
  else match syncOne X E config t.fetcher l.nextSequence l.validator with
    | (.ok true, v) =>
        { l with validator := v, nextSequence := l.nextSequence + 1, notFoundCount := 0 }
    | (.ok false, v) =>
        let l := { l with validator := v, notFoundCount := l.notFoundCount + 1 }
        if config.gapRetryCount ≤ l.notFoundCount then
          match detectGap t.fetcher l.nextSequence with
          | some available =>
              if !config.gapSkipOnFailure then
                { l with status := some (.error (.SequenceGap l.nextSequence available)) }
              else l.skipGap available
          | none => { l with notFoundCount := 0 }
        else l
    | (.error _, v) => { l with validator := v }

/-- One iteration of `sync_to_head`: it stops where there is no message and at any error. -/
def headStep (l : SingleLoop δ) (f : Fetcher) : SingleLoop δ :=
  if l.status.isSome then l
  else match syncOne X E config f l.nextSequence l.validator with
    | (.ok true, v) => { l with validator := v, nextSequence := l.nextSequence + 1 }
    | (.ok false, v) | (.error _, v) => { l with validator := v, status := some (.ok ()) }

end SingleLoop

namespace Sample

open Shared.Sample

/-- Two messages in one batch, as the sequencer publishes them. -/
def cborBatch02 : CborBatch :=
  ⟨BATCH_VERSION, 0, 2, timestamp, contentHash02, [message cose0, message cose2], batchSignature02,
    pubkey⟩

def cborBatch01 : CborBatch :=
  ⟨BATCH_VERSION, 0, 1, timestamp, contentHash01, [message cose0, message cose1], batchSignature01,
    pubkey⟩

/-- The empty changeset request is known; the replica is a log of the changesets applied. -/
def engine : Engine (List Bytes) where
  decompress bytes := if bytes = payload then .ok request else .error "not recorded"
  parseChangesets bytes := if bytes = request then .ok ⟨"a", [], none⟩ else .error "not recorded"
  parseSnapshot _ := .error "not recorded"
  parseWithdrawal _ := .error "not recorded"
  applySingleChangeset _ replica data := .ok (replica ++ [data])
  validateAll _ _ := .ok ()
  restoreSnapshot _ := .error "not recorded"
  verifyChangesetChain replica _ := replica

def validatorConfig : ValidatorConfig := ⟨pubkey, 3, false⟩

def freshValidator : Validator (List Bytes) := ⟨⟨[], []⟩, none, [], [], []⟩

/-- A storage with a single batch. -/
def fetcher (info : BatchInfo) (batch : CborBatch) : Fetcher where
  listBatches := .ok [info]
  getBatchByPath path :=
    if path = info.path then .ok (batch.toSignedBatch record.externals).toOption else .ok none
  get sequence := .ok ((batch.toSignedBatch record.externals).toOption.bind fun b =>
    b.messages.find? fun m => m.sequence = sequence)
  getLatestSequence := .ok (some info.endSequence)

def info02 : BatchInfo := ⟨0, 2, "batches/000000000000_000000000002.cbor.zst"⟩

def info01 : BatchInfo := ⟨0, 1, "batches/000000000000_000000000001.cbor.zst"⟩

def turn01 : Turn := ⟨false, false, fetcher info01 cborBatch01⟩

end Sample

end SyndDB.Replication
