import Mathlib.Data.List.Induction
import Mathlib.Data.List.Sort
import SyndDB.Framework.Run
import SyndDB.Replication.Applier
import SyndDB.Shared.Recorded

namespace SyndDB.Replication

open Octets Run Shared

variable {δ : Type}

structure AuditFailure where
  sequence : UInt64
  reason : String
  deriving DecidableEq

structure AuditResult where
  verified : List UInt64
  failed : List AuditFailure
  deriving DecidableEq

/-- The session functions of SQLite that the audit calls. Every conflict aborts, and an aborted
changeset leaves the database as it was. -/
structure SessionFunctions (δ : Type) where
  invertStrm : Bytes → Except String Bytes
  applyStrm : δ → Bytes → Except String δ

namespace SessionFunctions

variable (S : SessionFunctions δ)

def invertChangeset (changeset : Bytes) : Except String Bytes :=
  (S.invertStrm changeset).mapError fun e => "Failed to invert: " ++ e

/-- The lists that `verify_changeset_chain` fills, and the database it works on. -/
structure Walk (δ : Type) where
  verified : List UInt64
  failed : List AuditFailure
  appliedInversions : List (UInt64 × Bytes)
  conn : δ

/-- The failure of a changeset breaks the chain for those left. -/
def Walk.broken (w : Walk δ) (sequence : UInt64) (reason : String)
    (remaining : List (UInt64 × Bytes)) : Walk δ :=
  { w with failed := w.failed ++ ⟨sequence, reason⟩ ::
      remaining.map fun p => ⟨p.1, "Chain broken by earlier failure"⟩ }

/-- Undo the changesets one after the other, until one fails. -/
def walkBack : List (UInt64 × Bytes) → Walk δ → Walk δ
  | [], w => w
  | (sequence, data) :: remaining, w =>
      match S.invertChangeset data with
      | .error e => w.broken sequence ("Failed to invert: " ++ e) remaining
      | .ok inverted =>
          match S.applyStrm w.conn inverted with
          | .error e => w.broken sequence ("Inverted changeset failed to apply: " ++ e) remaining
          | .ok conn =>
              walkBack remaining ⟨w.verified ++ [sequence], w.failed,
                w.appliedInversions ++ [(sequence, data)], conn⟩

/-- Apply the changesets again; one that fails is only logged. -/
def replayForward : List (UInt64 × Bytes) → δ → δ
  | [], conn => conn
  | (_, data) :: rest, conn =>
      match S.applyStrm conn data with
      | .error _ => replayForward rest conn
      | .ok conn => replayForward rest conn

/-- By decreasing sequence. -/
def newestFirst (pending : List (UInt64 × Bytes)) : List (UInt64 × Bytes) :=
  pending.insertionSort fun p q => q.1 ≤ p.1

def verifyChangesetChain (conn : δ) (pending : List (UInt64 × Bytes)) : AuditResult × δ :=
  if pending.isEmpty then (⟨[], []⟩, conn)
  else
    let w := S.walkBack (newestFirst pending) ⟨[], [], [], conn⟩
    (⟨w.verified, w.failed⟩, S.replayForward w.appliedInversions.reverse w.conn)

end SessionFunctions

/-- The engine whose audits are made with these functions. -/
def Engine.auditedBy (E : Engine δ) (S : SessionFunctions δ) : Engine δ :=
  { E with verifyChangesetChain := fun conn pending => (S.verifyChangesetChain conn pending).2 }

/-- The changesets that a snapshot audits. -/
def PendingStore.relevant (store : PendingStore) (snapshotSequence : UInt64) :
    List (UInt64 × Bytes) :=
  (store.filter fun p => p.sequence < snapshotSequence).map fun p => (p.sequence, p.data)

/-- What `verify_pending_changesets_after_snapshot` logs. -/
def auditReport (S : SessionFunctions δ) (snapshotSequence : UInt64) (d : Databases δ) :
    AuditResult :=
  (S.verifyChangesetChain d.replica (d.pendingStore.relevant snapshotSequence)).1

/-- The replica after a snapshot is the one its audit leaves behind. -/
theorem verifyPendingChangesetsAfterSnapshot_replica (E : Engine δ) (S : SessionFunctions δ)
    (snapshotSequence : UInt64) (d : Databases δ) :
    (verifyPendingChangesetsAfterSnapshot (E.auditedBy S) snapshotSequence d).2.replica =
      (S.verifyChangesetChain d.replica (d.pendingStore.relevant snapshotSequence)).2 := by
  have nothing : S.verifyChangesetChain d.replica [] = (⟨[], []⟩, d.replica) := rfl
  rw [verifyPendingChangesetsAfterSnapshot, PendingStore.relevant]
  by_cases empty : d.pendingStore.isEmpty = true
  · rw [if_pos empty, List.isEmpty_iff.mp empty, List.filter_nil, List.map_nil, nothing]
  · rw [if_neg empty]
    by_cases none : (d.pendingStore.filter fun p => p.sequence < snapshotSequence).isEmpty = true
    · rw [List.isEmpty_iff.mp none, List.map_nil, nothing]
      rfl
    · simp only [none, Bool.false_eq_true, if_false]
      cases d.pendingStore.clearUpTo snapshotSequence with
      | error e => rfl
      | ok pending => rfl

namespace SessionFunctions

variable (S : SessionFunctions δ)

theorem newestFirst_perm (pending : List (UInt64 × Bytes)) : (newestFirst pending).Perm pending :=
  List.perm_insertionSort _ pending

/-- The changesets reported, verified ones first. -/
def Walk.reported (w : Walk δ) : List UInt64 := w.verified ++ w.failed.map AuditFailure.sequence

theorem reported_broken (w : Walk δ) (sequence : UInt64) (reason : String)
    (remaining : List (UInt64 × Bytes)) :
    (w.broken sequence reason remaining).reported = w.reported ++
      sequence :: remaining.map Prod.fst := by
  simp [Walk.reported, Walk.broken]

theorem reported_walkBack (pending : List (UInt64 × Bytes)) (w : Walk δ) (h : w.failed = []) :
    (S.walkBack pending w).reported = w.reported ++ pending.map Prod.fst := by
  induction pending generalizing w with
  | nil => simp [walkBack]
  | cons p remaining ih =>
    obtain ⟨sequence, data⟩ := p
    rw [walkBack, List.map_cons]
    cases S.invertChangeset data with
    | error e => exact reported_broken _ _ _ _
    | ok inverted =>
      cases applied : S.applyStrm w.conn inverted with
      | error e =>
        simp only [applied]
        exact reported_broken _ _ _ _
      | ok conn =>
        simp only [applied]
        have next := ih ⟨w.verified ++ [sequence], w.failed,
          w.appliedInversions ++ [(sequence, data)], conn⟩ h
        rw [next]
        simp [Walk.reported, h]

theorem reported_verifyChangesetChain (conn : δ) (pending : List (UInt64 × Bytes)) :
    ((S.verifyChangesetChain conn pending).1.verified ++
      (S.verifyChangesetChain conn pending).1.failed.map AuditFailure.sequence).Perm
        (pending.map Prod.fst) := by
  rw [verifyChangesetChain]
  by_cases empty : pending.isEmpty = true
  · rw [if_pos empty, List.isEmpty_iff.mp empty]
    rfl
  · rw [if_neg empty]
    have all := S.reported_walkBack (newestFirst pending) ⟨[], [], [], conn⟩ rfl
    exact (List.Perm.of_eq all).trans ((newestFirst_perm pending).map Prod.fst)

/-- What the session extension promises of a changeset that applies. -/
def Correct : Prop :=
  ∀ before changeset after, S.applyStrm before changeset = .ok after →
    ∃ inverted, S.invertStrm changeset = .ok inverted ∧ S.applyStrm after inverted = .ok before

/-- The changesets lead from one state to the other. -/
def Leads : δ → List (UInt64 × Bytes) → δ → Prop
  | before, [], after => before = after
  | before, p :: rest, after => ∃ next, S.applyStrm before p.2 = .ok next ∧ Leads next rest after

theorem leads_concat (before after : δ) (cs : List (UInt64 × Bytes)) (c : UInt64 × Bytes)
    (h : S.Leads before (cs ++ [c]) after) :
    ∃ last, S.Leads before cs last ∧ S.applyStrm last c.2 = .ok after := by
  induction cs generalizing before with
  | nil =>
    obtain ⟨next, applied, rfl⟩ := h
    exact ⟨before, rfl, applied⟩
  | cons d cs ih =>
    obtain ⟨next, applied, rest⟩ := h
    obtain ⟨last, front, final⟩ := ih next rest
    exact ⟨last, ⟨next, applied, front⟩, final⟩

theorem walkBack_leads (correct : S.Correct) (before : δ) (cs : List (UInt64 × Bytes)) (w : Walk δ)
    (h : S.Leads before cs w.conn) :
    S.walkBack cs.reverse w =
      ⟨w.verified ++ cs.reverse.map Prod.fst, w.failed, w.appliedInversions ++ cs.reverse,
        before⟩ := by
  -- from the end of the chain, which is the head of the walk
  induction cs using List.reverseRecOn generalizing w with
  | nil =>
    obtain rfl : before = w.conn := h
    simp [walkBack]
  | append_singleton cs c ih =>
    obtain ⟨last, front, applied⟩ := S.leads_concat before w.conn cs c h
    obtain ⟨inverted, inverts, undone⟩ := correct _ _ _ applied
    have inverse : S.invertChangeset c.2 = .ok inverted := by rw [invertChangeset, inverts]; rfl
    rw [List.reverse_append, List.reverse_singleton, List.singleton_append, walkBack, inverse]
    simp only [undone]
    rw [ih _ front]
    simp

theorem replayForward_leads (before after : δ) (cs : List (UInt64 × Bytes))
    (h : S.Leads before cs after) : S.replayForward cs before = after := by
  induction cs generalizing before with
  | nil => exact h
  | cons c cs ih =>
    obtain ⟨next, applied, rest⟩ := h
    rw [replayForward, applied]
    exact ih next rest

theorem newestFirst_sorted (cs : List (UInt64 × Bytes))
    (h : cs.Pairwise fun p q => p.1 < q.1) : newestFirst cs = cs.reverse := by
  induction cs with
  | nil => rfl
  | cons c cs ih =>
    rw [List.pairwise_cons] at h
    rw [newestFirst, List.insertionSort_cons, ← newestFirst, ih h.2, List.reverse_cons]
    have last : ∀ ds : List (UInt64 × Bytes), (∀ d ∈ ds, c.1 < d.1) →
        ds.orderedInsert (fun p q => q.1 ≤ p.1) c = ds ++ [c] := by
      intro ds hds
      induction ds with
      | nil => rfl
      | cons d ds ihd =>
        have later : ¬d.1 ≤ c.1 := UInt64.not_le.mpr (hds d List.mem_cons_self)
        rw [List.orderedInsert_cons, if_neg later,
          ihd fun e he => hds e (List.mem_cons_of_mem _ he)]
        rfl
    apply last
    intro d hd
    exact h.1 d (List.mem_reverse.mp hd)

/-- Raw changesets that lead to the state are all verified, and the state is restored. -/
theorem verifyChangesetChain_leads (correct : S.Correct) (before after : δ)
    (cs : List (UInt64 × Bytes)) (sorted : cs.Pairwise fun p q => p.1 < q.1)
    (h : S.Leads before cs after) :
    S.verifyChangesetChain after cs = (⟨(cs.map Prod.fst).reverse, []⟩, after) := by
  rw [verifyChangesetChain]
  by_cases empty : cs.isEmpty = true
  · rw [if_pos empty, List.isEmpty_iff.mp empty]
    rfl
  · rw [if_neg empty, newestFirst_sorted cs sorted,
      S.walkBack_leads correct before cs ⟨[], [], [], after⟩ h]
    simp only [List.nil_append, List.reverse_reverse, List.map_reverse]
    rw [S.replayForward_leads before after cs h]

end SessionFunctions

namespace PendingStore

theorem mem_insertOrReplace (s : PendingStore) (p q : PendingChangeset)
    (h : q ∈ insertOrReplace p s) : q = p ∨ q ∈ s := by
  induction s with
  | nil => simpa [insertOrReplace] using h
  | cons r rest ih =>
    rw [insertOrReplace] at h
    by_cases before : p.sequence < r.sequence
    · rw [if_pos before] at h
      exact List.mem_cons.mp h
    · rw [if_neg before] at h
      by_cases same : p.sequence = r.sequence
      · rw [if_pos same] at h
        rcases List.mem_cons.mp h with rfl | later
        · exact .inl rfl
        · exact .inr (List.mem_cons_of_mem _ later)
      · rw [if_neg same] at h
        rcases List.mem_cons.mp h with rfl | later
        · exact .inr List.mem_cons_self
        · rcases ih later with rfl | kept
          · exact .inl rfl
          · exact .inr (List.mem_cons_of_mem _ kept)

/-- A sequence in the store stays there, maybe with other data. -/
theorem insertOrReplace_keeps (s : PendingStore) (p q : PendingChangeset) (h : q ∈ p :: s) :
    ∃ r ∈ insertOrReplace p s, r.sequence = q.sequence := by
  induction s with
  | nil => exact ⟨q, by simpa [insertOrReplace] using h, rfl⟩
  | cons t rest ih =>
    rw [insertOrReplace]
    by_cases before : p.sequence < t.sequence
    · rw [if_pos before]
      exact ⟨q, h, rfl⟩
    · rw [if_neg before]
      by_cases same : p.sequence = t.sequence
      · rw [if_pos same]
        rcases List.mem_cons.mp h with rfl | old
        · exact ⟨q, List.mem_cons_self, rfl⟩
        · rcases List.mem_cons.mp old with rfl | later
          · exact ⟨p, List.mem_cons_self, same⟩
          · exact ⟨q, List.mem_cons_of_mem _ later, rfl⟩
      · rw [if_neg same]
        by_cases here : q = t
        · exact ⟨t, List.mem_cons_self, by rw [here]⟩
        · have among : q ∈ p :: rest := by simpa [here] using h
          obtain ⟨r, hr, number⟩ := ih among
          exact ⟨r, List.mem_cons_of_mem _ hr, number⟩

end PendingStore

def ApplyResult.isDeferred : Except String ApplyResult → Bool
  | .ok .StoredAsPending => true
  | .ok .Applied => false
  | .error _ => false

/-- The databases, and the messages deferred so far. -/
structure Handled (δ : Type) where
  databases : Databases δ
  deferred : List SignedMessage

def Handled.handle (E : Engine δ) (h : Handled δ) (m : SignedMessage) : Handled δ :=
  let applied := applyMessageWithAudit E m h.databases
  ⟨applied.2, if ApplyResult.isDeferred applied.1 then h.deferred ++ [m] else h.deferred⟩

/-- Between snapshots a message is stored with its payload, or the store stays as it is. -/
theorem handle_cases (E : Engine δ) (h : Handled δ) (m : SignedMessage)
    (kind : m.messageType ≠ .Snapshot) :
    ((h.handle E m).deferred = h.deferred ∧
      (h.handle E m).databases.pendingStore = h.databases.pendingStore) ∨
    ((h.handle E m).deferred = h.deferred ++ [m] ∧ ∃ reason,
      (h.handle E m).databases.pendingStore =
        h.databases.pendingStore.insertOrReplace ⟨m.sequence, m.payload, reason⟩) := by
  rw [Handled.handle, applyMessageWithAudit]
  cases applyMessageWithRules E m h.databases.replica with
  | ok replica => simp [kind, ApplyResult.isDeferred]
  | error errorMsg =>
    by_cases mismatch : (isSchemaMismatch errorMsg && decide (m.messageType = .Changeset)) = true
    · simp only [mismatch, if_true]
      cases stored : h.databases.pendingStore.store
          ⟨m.sequence, m.payload, deferralReason errorMsg⟩ with
      | error e => exact .inl ⟨rfl, rfl⟩
      | ok pending =>
        refine .inr ⟨rfl, deferralReason errorMsg, ?_⟩
        rw [PendingStore.store] at stored
        split at stored
        · exact (Except.ok.inj stored).symm
        · cases stored
    · simp [mismatch, ApplyResult.isDeferred]

/-- The store holds the payloads of the deferred messages, under their numbers. -/
structure Handled.Stores (h : Handled δ) : Prop where
  source : ∀ p ∈ h.databases.pendingStore, ∃ m ∈ h.deferred,
    p.sequence = m.sequence ∧ p.data = m.payload
  held : ∀ m ∈ h.deferred, ∃ p ∈ h.databases.pendingStore, p.sequence = m.sequence

theorem handle_stores (E : Engine δ) (h : Handled δ) (m : SignedMessage) (stores : h.Stores)
    (kind : m.messageType ≠ .Snapshot) : (h.handle E m).Stores := by
  rcases handle_cases E h m kind with ⟨same, store⟩ | ⟨more, reason, store⟩
  · exact ⟨by rw [same, store]; exact stores.source, by rw [same, store]; exact stores.held⟩
  · constructor
    · intro p hp
      rw [store] at hp
      rw [more]
      rcases PendingStore.mem_insertOrReplace _ _ p hp with rfl | old
      · exact ⟨m, by simp, rfl, rfl⟩
      · obtain ⟨n, hn, fields⟩ := stores.source p old
        exact ⟨n, by simp [hn], fields⟩
    · intro n hn
      rw [more] at hn
      rw [store]
      rcases List.mem_append.mp hn with old | new
      · obtain ⟨p, hp, number⟩ := stores.held n old
        obtain ⟨r, hr, kept⟩ := PendingStore.insertOrReplace_keeps h.databases.pendingStore
          ⟨m.sequence, m.payload, reason⟩ p (List.mem_cons_of_mem _ hp)
        exact ⟨r, hr, kept.trans number⟩
      · obtain rfl : n = m := by simpa using new
        exact PendingStore.insertOrReplace_keeps h.databases.pendingStore
          ⟨n.sequence, n.payload, reason⟩ _ List.mem_cons_self

theorem handle_deferred (E : Engine δ) (h : Handled δ) (m n : SignedMessage)
    (kind : m.messageType ≠ .Snapshot) (hn : n ∈ (h.handle E m).deferred) :
    n ∈ h.deferred ∨ n = m := by
  rcases handle_cases E h m kind with ⟨same, -⟩ | ⟨more, -⟩
  · exact .inl (same ▸ hn)
  · rw [more] at hn
    simpa using hn

/-- Messages taken one after the other, from an empty store on. -/
def deferredBy (E : Engine δ) (replica : δ) (messages : List SignedMessage) : Handled δ :=
  run (Handled.handle E) ⟨⟨replica, []⟩, []⟩ messages

theorem deferredBy_stores (E : Engine δ) (replica : δ) (messages : List SignedMessage)
    (kinds : ∀ m ∈ messages, m.messageType ≠ .Snapshot) :
    (deferredBy E replica messages).Stores ∧
      ∀ m ∈ (deferredBy E replica messages).deferred, m ∈ messages := by
  apply run_invariant_on (Handled.handle E)
    (I := fun h : Handled δ => h.Stores ∧ ∀ m ∈ h.deferred, m ∈ messages)
    (A := fun m => m ∈ messages)
  · intro h m invariant member
    refine ⟨handle_stores E h m invariant.1 (kinds m member), ?_⟩
    intro n hn
    rcases handle_deferred E h m n (kinds m member) hn with old | rfl
    · exact invariant.2 n old
    · exact member
  · exact ⟨⟨by simp, by simp⟩, by simp⟩
  · intro m member
    exact member

/-- The databases when the snapshot has been restored and the audit begins. -/
def Handled.restored (h : Handled δ) (snapshot : δ) : Databases δ :=
  { h.databases with replica := snapshot }

/-- Every message is verified, and no failure is reported. -/
def AuditResult.Complete (r : AuditResult) (messages : List SignedMessage) : Prop :=
  (∀ m ∈ messages, m.sequence ∈ r.verified) ∧ r.failed = []

instance (r : AuditResult) (messages : List SignedMessage) : Decidable (r.Complete messages) :=
  inferInstanceAs (Decidable (_ ∧ _))

/-- `28 B5 2F FD`, the first bytes of a zstd frame. -/
def zstdMagic : Bytes := [0x28, 0xb5, 0x2f, 0xfd]

/-- The bytes that records of a changeset or patchset start with: a table header, an insert, an
update, a delete. -/
def recordTypes : List UInt8 := [0x54, 0x50, 0x12, 0x17, 0x09]

/-- Data that starts with no record is malformed. -/
def SessionFunctions.ReadsRecords (S : SessionFunctions δ) : Prop :=
  ∀ byte rest inverted, S.invertStrm (byte :: rest) = .ok inverted → byte ∈ recordTypes

theorem invertChangeset_zstd (S : SessionFunctions δ) (reads : S.ReadsRecords) (data : Bytes)
    (magic : zstdMagic <+: data) : ∃ e, S.invertChangeset data = .error e := by
  obtain ⟨rest, rfl⟩ := magic
  cases inverted : S.invertStrm (zstdMagic ++ rest) with
  | error e => exact ⟨_, by rw [SessionFunctions.invertChangeset, inverted]; rfl⟩
  | ok changeset =>
    have wrong := reads _ _ _ inverted
    exact absurd wrong (by decide)

/-- Compressed data is never verified: the walk ends where it begins, and the database stays. -/
theorem verifyChangesetChain_zstd (S : SessionFunctions δ) (reads : S.ReadsRecords) (conn : δ)
    (pending : List (UInt64 × Bytes)) (magic : ∀ p ∈ pending, zstdMagic <+: p.2) :
    (S.verifyChangesetChain conn pending).1.verified = [] ∧
      (S.verifyChangesetChain conn pending).2 = conn := by
  rw [SessionFunctions.verifyChangesetChain]
  by_cases empty : pending.isEmpty = true
  · rw [if_pos empty]
    exact ⟨rfl, rfl⟩
  · rw [if_neg empty]
    cases order : SessionFunctions.newestFirst pending with
    | nil => exact ⟨rfl, rfl⟩
    | cons p remaining =>
      have member : p ∈ pending := by
        rw [← (SessionFunctions.newestFirst_perm pending).mem_iff, order]
        exact List.mem_cons_self
      obtain ⟨e, refused⟩ := invertChangeset_zstd S reads p.2 (magic p member)
      simp only [SessionFunctions.walkBack, refused]
      exact ⟨rfl, rfl⟩

variable (E : Engine δ) (S : SessionFunctions δ) (compressPayload : Bytes → Bytes)

/-- Of the deferred messages the audit verifies none and fails every one. -/
theorem deferred_fail (zstd : ∀ data, zstdMagic <+: compressPayload data) (reads : S.ReadsRecords)
    (replica snapshot : δ) (messages : List SignedMessage) (snapshotSequence : UInt64)
    (kinds : ∀ m ∈ messages, m.messageType ≠ .Snapshot)
    (written : ∀ m ∈ messages, ∃ data, m.payload = compressPayload data)
    (earlier : ∀ m ∈ messages, m.sequence < snapshotSequence) :
    let h := deferredBy E replica messages
    let report := auditReport S snapshotSequence (h.restored snapshot)
    report.verified = [] ∧ ∀ m ∈ h.deferred,
    m.sequence ∈ report.failed.map AuditFailure.sequence := by
  obtain ⟨stores, among⟩ := deferredBy_stores E replica messages kinds
  generalize deferredBy E replica messages = h at stores among
  have compressed : ∀ p ∈ h.databases.pendingStore.relevant snapshotSequence,
      zstdMagic <+: p.2 := by
    intro p hp
    obtain ⟨q, hq, rfl⟩ := List.mem_map.mp hp
    obtain ⟨m, hm, -, payload⟩ := stores.source q (List.mem_of_mem_filter hq)
    obtain ⟨data, same⟩ := written m (among m hm)
    show zstdMagic <+: q.data
    rw [payload, same]
    exact zstd data
  have none := (verifyChangesetChain_zstd S reads snapshot _ compressed).1
  refine ⟨none, ?_⟩
  intro m hm
  obtain ⟨p, hp, number⟩ := stores.held m hm
  have relevant :
      m.sequence ∈ (h.databases.pendingStore.relevant snapshotSequence).map Prod.fst := by
    have early := earlier m (among m hm)
    simp only [PendingStore.relevant, List.map_map, List.mem_map, List.mem_filter,
      Function.comp_apply]
    exact ⟨p, ⟨hp, by rw [number]; simpa using early⟩, number⟩
  have reported := (S.reported_verifyChangesetChain snapshot
    (h.databases.pendingStore.relevant snapshotSequence)).mem_iff.mpr relevant
  rw [none, List.nil_append] at reported
  exact reported

/-- Whatever the snapshot holds, its audit verifies everything that was deferred exactly
if nothing was. -/
theorem audit_complete_iff (zstd : ∀ data, zstdMagic <+: compressPayload data)
    (reads : S.ReadsRecords) (replica snapshot : δ) (messages : List SignedMessage)
    (snapshotSequence : UInt64) (kinds : ∀ m ∈ messages, m.messageType ≠ .Snapshot)
    (written : ∀ m ∈ messages, ∃ data, m.payload = compressPayload data)
    (earlier : ∀ m ∈ messages, m.sequence < snapshotSequence) :
    (auditReport S snapshotSequence ((deferredBy E replica messages).restored snapshot)).Complete
        (deferredBy E replica messages).deferred ↔
      (deferredBy E replica messages).deferred = [] := by
  obtain ⟨none, fails⟩ := deferred_fail E S compressPayload zstd reads replica snapshot messages
    snapshotSequence kinds written earlier
  obtain ⟨stores, -⟩ := deferredBy_stores E replica messages kinds
  generalize deferredBy E replica messages = h at none fails stores
  constructor
  · intro complete
    apply List.eq_nil_iff_forall_not_mem.mpr
    intro m hm
    have reported := fails m hm
    rw [complete.2] at reported
    cases reported
  · intro nothing
    have empty : h.databases.pendingStore = [] := by
      apply List.eq_nil_iff_forall_not_mem.mpr
      intro p hp
      obtain ⟨m, hm, -⟩ := stores.source p hp
      rw [nothing] at hm
      cases hm
    rw [auditReport, Handled.restored, empty, nothing]
    exact ⟨by simp, rfl⟩

/-- The changesets of some messages, applied one message after the other. -/
def applyInOrder : List SignedMessage → δ → Except String δ
  | [], state => .ok state
  | m :: rest, state =>
      match applyChangesetMessageWithRules E m state with
      | .error e => .error e
      | .ok state => applyInOrder rest state

namespace AuditSample

open Shared.Sample

/-- No table `t`, or the table with at most one row. -/
abbrev Table := Option (Option Bytes)

/-- The header of `t`, with two columns of which the first is the key. -/
def tableHeader : Bytes := [0x54, 0x02, 0x01, 0x00, 0x74, 0x00]

/-- The changeset of one insert or delete. -/
def change (insert : Bool) (record : Bytes) : Bytes :=
  tableHeader ++ (if insert then 0x12 else 0x09) :: record

def readChange (data : Bytes) : Option (Bool × Bytes) :=
  if data.take 6 ≠ tableHeader then none
  else match data.drop 6 with
    | [] => none
    | op :: record => if op = 0x12 then some (true, record)
        else if op = 0x09 then some (false, record) else none

theorem readChange_change (insert : Bool) (record : Bytes) :
    readChange (change insert record) = some (insert, record) := by
  cases insert with
  | false => rfl
  | true => rfl

def session : SessionFunctions Table where
  invertStrm data :=
    match readChange data with
    | none => .error "database disk image is malformed"
    | some (insert, record) => .ok (change (!insert) record)
  applyStrm conn data :=
    match readChange data, conn with
    | none, _ => .error "database disk image is malformed"
    | some _, none => .ok none
    | some (true, record), some none => .ok (some (some record))
    | some (true, _), some (some _) => .error "query aborted"
    | some (false, _), some none => .error "query aborted"
    | some (false, record), some (some row) =>
        if record = row then .ok (some none) else .error "query aborted"

theorem session_correct : session.Correct := by
  intro before changeset after applied
  simp only [session] at applied ⊢
  cases read : readChange changeset with
  | none =>
    rw [read] at applied
    cases applied
  | some entry =>
    obtain ⟨insert, record⟩ := entry
    rw [read] at applied
    refine ⟨_, rfl, ?_⟩
    rw [readChange_change]
    match insert, before with
    | true, none => cases applied; rfl
    | false, none => cases applied; rfl
    | true, some none => cases applied; simp
    | true, some (some _) => cases applied
    | false, some none => cases applied
    | false, some (some row) =>
      by_cases same : record = row
      · simp only [same, if_true] at applied
        cases applied
        rw [same]
        rfl
      · simp only [same, if_false] at applied
        cases applied

theorem session_reads : session.ReadsRecords := by
  intro byte rest inverted h
  simp only [session, readChange] at h
  by_cases header : (byte :: rest).take 6 = tableHeader
  · have first : byte = 0x54 := by
      rw [List.take_succ_cons, tableHeader] at header
      exact (List.cons.inj header).1
    rw [first]
    decide
  · rw [if_pos header] at h
    cases h

/-- The row `(1, 10)`. -/
def row : Bytes := [0x00] ++ 0x01 :: bigEndian 8 1 ++ 0x01 :: bigEndian 8 10

def changesetRequest : Bytes :=
  cborHead 5 2 ++ cborText "batch_id" ++ cborText "a" ++ cborText "changesets" ++ cborHead 4 1 ++
    cborHead 5 3 ++ cborText "data" ++ cborBytes (change true row) ++ cborText "sequence" ++
    cborHead 0 0 ++ cborText "timestamp" ++ cborHead 0 timestamp.toNat

def deferredCose : CoseSign1 :=
  { cose 0 (bigEndian 64
      0xad33a6e50ea08b87f3ffe5bd9cfa25359f0f9dd017a515600460f396b2d6238a6e3a54b110d538d3826793c3db8851843a33702c167b963c5ae839b6b5fbd211)
    with payload := some (zstdRawFrame changesetRequest) }

def deferredDigest : Bytes :=
  bigEndian 32 0xf80c6cb9b403f8e9f7a39bc0bb61cbfae68f4458d5740cecdf99a6fac5d4f23b

def auditRecord : Recorded where
  messages := [deferredCose]
  keccak256 := [(tbs deferredCose, deferredDigest), (zstdRawFrame changesetRequest,
    bigEndian 32 0x978ddcc04f3347aaa5e12e88b2bebfa5fa7992f06dabd780763ff1a519274a7e)]
  sha256 := []
  signatures := [(pubkey, deferredDigest, deferredCose.signature)]

/-- One insert, signed by the sequencer. -/
def deferredMessage : SignedMessage where
  sequence := 0
  timestamp := timestamp
  messageType := .Changeset
  payload := zstdRawFrame changesetRequest
  messageHash := hex0x (auditRecord.externals.keccak256 (zstdRawFrame changesetRequest))
  signature := hex0x deferredCose.signature
  signer := hex0x pubkey
  coseProtectedHeader := deferredCose.protectedHeader.encode

/-- The replica with the row. -/
def inserted : Table := some (some row)

def auditEngine : Engine Table where
  decompress bytes :=
    if zstdMagic <+: bytes then .ok (bytes.drop 9) else .error "Unknown frame descriptor"
  parseChangesets bytes :=
    if bytes = changesetRequest then .ok ⟨"a", [⟨change true row, 0, timestamp⟩], none⟩
    else .error "not recorded"
  parseSnapshot _ := .error "not recorded"
  parseWithdrawal _ := .error "not recorded"
  applySingleChangeset _ replica data :=
    if replica = none then
      .error ("Changeset references tables that don't exist: t. " ++
        "A snapshot is required to sync schema first.")
    else session.applyStrm replica data
  validateAll _ _ := .ok ()
  restoreSnapshot _ := .error "not recorded"
  verifyChangesetChain replica _ := replica

/-- The snapshot has the row that the deferred changeset inserts, and the audit fails it. -/
theorem deferred_insert_fails :
    let E := auditEngine.auditedBy session
    let h := deferredBy E none [deferredMessage]
    deferredMessage.verifySignature auditRecord.externals = .ok () ∧ session.Correct ∧
      h.deferred = [deferredMessage] ∧ applyInOrder E h.deferred (some none) = .ok inserted ∧
      ¬(auditReport session 1 (h.restored inserted)).Complete h.deferred := by
  -- the handled message is evaluated once for all three
  have found : (deferredBy (auditEngine.auditedBy session) none [deferredMessage]).deferred =
      [deferredMessage] ∧
      applyInOrder (auditEngine.auditedBy session)
        (deferredBy (auditEngine.auditedBy session) none [deferredMessage]).deferred (some none) =
          .ok inserted ∧
      ¬(auditReport session 1
        ((deferredBy (auditEngine.auditedBy session) none [deferredMessage]).restored
          inserted)).Complete
          (deferredBy (auditEngine.auditedBy session) none [deferredMessage]).deferred := by
    decide +kernel
  exact ⟨by decide +kernel, session_correct, found⟩

theorem audit_complete_iff_insert :
    (∀ data, zstdMagic <+: zstdRawFrame data) ∧ session.ReadsRecords ∧
      ((auditReport session 1
        ((deferredBy auditEngine none [deferredMessage]).restored inserted)).Complete
          (deferredBy auditEngine none [deferredMessage]).deferred ↔
        (deferredBy auditEngine none [deferredMessage]).deferred = []) := by
  have zstd : ∀ data, zstdMagic <+: zstdRawFrame data := by
    intro data
    exact ⟨_, rfl⟩
  refine ⟨zstd, session_reads, ?_⟩
  apply audit_complete_iff auditEngine session zstdRawFrame zstd session_reads
  · decide
  · intro m hm
    obtain rfl : m = deferredMessage := by simpa using hm
    exact ⟨changesetRequest, rfl⟩
  · decide

end AuditSample

end SyndDB.Replication
