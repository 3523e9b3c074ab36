import SyndDB.Replication.Deferral
import SyndDB.Replication.Replay

namespace SyndDB.Replication

open Octets Shared

variable {δ : Type}

/-- The order in which a hash map gives its entries back. -/
structure HashOrder where
  order : List (String × Nat) → List (String × Nat)
  perm : ∀ entries, (order entries).Perm entries

def ChangesetLibrary.ordered (L : ChangesetLibrary δ) (o : HashOrder) : ChangesetLibrary δ :=
  { L with hashOrder := o.order, hashOrder_perm := o.perm }

/-- The engine with another way to apply changesets. -/
def Engine.applying (E : Engine δ) (apply : UInt64 → δ → Bytes → Except String δ) : Engine δ :=
  { E with applySingleChangeset := apply }

/-- The engine that applies changesets with the library. For the message with each number the hash
map of the schema check has the given order. -/
def Engine.hashed (E : Engine δ) (L : ChangesetLibrary δ) (orders : UInt64 → HashOrder) :
    Engine δ :=
  E.applying fun sequence replica data =>
    ((L.ordered (orders sequence)).applySingleChangeset replica data).mapError
      ChangesetFailure.message

/-- Two results that differ in nothing but the text of a schema mismatch. -/
inductive Retold {α : Type} : Except String α → Except String α → Prop where
  | same (result : Except String α) : Retold result result
  | mismatch (e e' : String) (first : isSchemaMismatch e = true)
      (second : isSchemaMismatch e' = true) : Retold (.error e) (.error e')

/-- The second engine differs from the first in nothing but the texts of schema mismatches. -/
def Engine.Retells (E E' : Engine δ) : Prop :=
  ∃ apply, E' = E.applying apply ∧
    ∀ sequence replica data,
      Retold (E.applySingleChangeset sequence replica data) (apply sequence replica data)

namespace ChangesetLibrary

variable (L : ChangesetLibrary δ) (replica : δ)

theorem checkEntries_error (entries : List (String × Nat)) (f : ChangesetFailure)
    (h : L.checkEntries replica entries = .error f) : f.isSchema = true := by
  rw [checkEntries] at h
  split at h
  · cases h
    rfl
  · split at h
    · cases h
      rfl
    · cases h

/-- The order of the hash map makes a difference only to the lists in a failure for the schema. -/
theorem applySingleChangeset_ordered (o o' : HashOrder) (data : Bytes) :
    (L.ordered o).applySingleChangeset replica data =
        (L.ordered o').applySingleChangeset replica data ∨
      ∃ f f', (L.ordered o).applySingleChangeset replica data = .error f ∧ f.isSchema = true ∧
        (L.ordered o').applySingleChangeset replica data = .error f' ∧ f'.isSchema = true := by
  by_cases mismatched : L.Mismatched replica data
  · obtain ⟨f, failed, schema⟩ := ((L.ordered o).applySingleChangeset_schema_iff replica data).mpr
      mismatched
    obtain ⟨f', failed', schema'⟩ :=
      ((L.ordered o').applySingleChangeset_schema_iff replica data).mpr
      mismatched
    exact .inr ⟨f, f', failed, schema, failed', schema'⟩
  · left
    have checked (o : HashOrder) (items : List (Except String (String × Nat)))
        (ending : Option String) (entries : List (String × Nat))
        (iterated : L.iterate data = .ok (items, ending))
        (recorded : recordItems ending items [] = .ok entries) :
        (L.ordered o).checkEntries replica (o.order entries) = .ok () := by
      cases failed : (L.ordered o).checkEntries replica (o.order entries) with
      | ok u => rfl
      | error f =>
        obtain rfl := recordItems_ending ending items [] entries recorded
        have schema := checkEntries_error _ _ _ f failed
        obtain ⟨entry, he, unfit⟩ := ((L.ordered o).checkEntries_error_iff replica _).mp
          ⟨f, failed, schema⟩
        exact absurd ⟨items, entries, iterated, recorded, entry,
          (o.perm entries).mem_iff.mp he, unfit⟩ mismatched
    have valid : (L.ordered o).validateChangesetSchema replica data =
        (L.ordered o').validateChangesetSchema replica data := by
      have iterate (o : HashOrder) : (L.ordered o).iterate data = L.iterate data := rfl
      have order (o : HashOrder) : (L.ordered o).hashOrder = o.order := rfl
      rw [validateChangesetSchema, validateChangesetSchema, iterate, iterate]
      cases iterated : L.iterate data with
      | error e => rfl
      | ok read =>
        obtain ⟨items, ending⟩ := read
        cases recorded : recordItems ending items [] with
        | error f => simp only [recorded]
        | ok entries =>
          simp only [recorded, order]
          rw [checked o items ending entries iterated recorded,
            checked o' items ending entries iterated recorded]
    have apply (o : HashOrder) : (L.ordered o).applyStrm = L.applyStrm := rfl
    rw [applySingleChangeset, applySingleChangeset, valid, apply, apply]

end ChangesetLibrary

theorem Engine.hashed_retells (E : Engine δ) (L : ChangesetLibrary δ) (ob os : UInt64 → HashOrder) :
    (E.hashed L ob).Retells (E.hashed L os) := by
  refine ⟨_, rfl, ?_⟩
  intro sequence replica data
  show Retold (((L.ordered (ob sequence)).applySingleChangeset replica data).mapError _)
    (((L.ordered (os sequence)).applySingleChangeset replica data).mapError _)
  obtain same | ⟨f, f', failed, schema, failed', schema'⟩ :=
    L.applySingleChangeset_ordered replica (ob sequence) (os sequence) data
  · rw [same]
    exact .same _
  · rw [failed, failed']
    exact .mismatch _ _ (f.isSchemaMismatch_message schema) (f'.isSchemaMismatch_message schema')

section Retelling

variable (E : Engine δ) (apply : UInt64 → δ → Bytes → Except String δ)

theorem applyChangesets_retold (m : SignedMessage) (batchId : String) (i : Nat) (replica : δ)
    (changesets : List ChangesetData)
    (retold : ∀ replica data, Retold (E.applySingleChangeset m.sequence replica data)
      (apply m.sequence replica data)) :
    Retold (applyChangesets E m batchId i replica changesets)
      (applyChangesets (E.applying apply) m batchId i replica changesets) := by
  induction changesets generalizing i replica with
  | nil => exact .same _
  | cons changeset rest ih =>
    have other : (E.applying apply).applySingleChangeset = apply := rfl
    rw [applyChangesets, applyChangesets, other]
    cases changeset.data.isEmpty with
    | true => exact ih (i + 1) replica
    | false =>
      simp only [Bool.false_eq_true, if_false]
      have first := retold replica changeset.data
      cases applied : E.applySingleChangeset m.sequence replica changeset.data with
      | ok next =>
        rw [applied] at first
        generalize apply m.sequence replica changeset.data = result at first
        cases first with
        | same => exact ih (i + 1) next
      | error e =>
        rw [applied] at first
        generalize apply m.sequence replica changeset.data = result at first
        cases first with
        | same => exact .same _
        | mismatch e e' mismatch mismatch' =>
          exact .mismatch _ _ (isSchemaMismatch_append _ _ mismatch)
            (isSchemaMismatch_append _ _ mismatch')

/-- Only changesets are applied in another way. -/
theorem applyMessageWithRules_other (m : SignedMessage) (replica : δ)
    (other : m.messageType ≠ .Changeset) :
    applyMessageWithRules (E.applying apply) m replica = applyMessageWithRules E m replica := by
  cases type : m.messageType with
  | Changeset => exact absurd type other
  | Withdrawal => simp only [applyMessageWithRules, type]
  | Snapshot =>
    simp only [applyMessageWithRules, type]
    rfl

theorem applyMessageWithRules_retold (m : SignedMessage) (replica : δ)
    (retold : ∀ replica data, Retold (E.applySingleChangeset m.sequence replica data)
      (apply m.sequence replica data)) :
    Retold (applyMessageWithRules E m replica)
      (applyMessageWithRules (E.applying apply) m replica) := by
  by_cases changeset : m.messageType = .Changeset
  · simp only [applyMessageWithRules, changeset, applyChangesetMessageWithRules]
    have parsed : decompressAndParse (E.applying apply) (E.applying apply).parseChangesets m
        "changeset batch" = decompressAndParse E E.parseChangesets m "changeset batch" := rfl
    rw [parsed]
    cases decompressAndParse E E.parseChangesets m "changeset batch" with
    | error e => exact .same _
    | ok batch =>
      have applied := applyChangesets_retold E apply m batch.batchId 0 replica
        batch.changesets retold
      simp only [Outcome.ok_bind]
      generalize applyChangesets E m batch.batchId 0 replica batch.changesets = first at applied
      generalize applyChangesets (E.applying apply) m batch.batchId 0 replica batch.changesets =
        second at applied
      cases applied with
      | same => exact .same _
      | mismatch e e' mismatch mismatch' => exact .mismatch e e' mismatch mismatch'
  · rw [applyMessageWithRules_other E apply m replica changeset]
    exact .same _

end Retelling

/-- Rows for one changeset, with the same reason unless the sequence is below `n`. -/
structure AlikeRow (n : Nat) (p q : PendingChangeset) : Prop where
  sequence : q.sequence = p.sequence
  data : q.data = p.data
  reason : n ≤ p.sequence.toNat → q.reason = p.reason

/-- Databases that differ at most in the reasons of rows below `n`. -/
structure AlikeBelow (n : Nat) (d d' : Databases δ) : Prop where
  replica : d'.replica = d.replica
  rows : List.Forall₂ (AlikeRow n) d.pendingStore d'.pendingStore

theorem alikeBelow_refl (n : Nat) (d : Databases δ) : AlikeBelow n d d := by
  refine ⟨rfl, ?_⟩
  rw [List.forall₂_same]
  exact fun p _ => ⟨rfl, rfl, fun _ => rfl⟩

theorem alikeBelow_mono (n k : Nat) (d d' : Databases δ) (le : n ≤ k) (h : AlikeBelow n d d') :
    AlikeBelow k d d' :=
  ⟨h.replica, h.rows.imp
    fun _ _ row => ⟨row.sequence, row.data, fun hk => row.reason (le.trans hk)⟩⟩

/-- Without a row below `n` there is no difference. -/
theorem alikeBelow_eq (n : Nat) (d d' : Databases δ) (h : AlikeBelow n d d')
    (above : ∀ p ∈ d.pendingStore, n ≤ p.sequence.toNat) : d' = d := by
  obtain ⟨replica, rows⟩ := h
  have same (ps qs : List PendingChangeset) (rows : List.Forall₂ (AlikeRow n) ps qs)
      (above : ∀ p ∈ ps, n ≤ p.sequence.toNat) : qs = ps := by
    induction rows with
    | nil => rfl
    | cons row _ ih =>
      rename_i p q ps qs _
      have here : q = p := by
        obtain ⟨_, _, _⟩ := p
        obtain ⟨_, _, _⟩ := q
        have reason := row.reason (above _ List.mem_cons_self)
        obtain ⟨sequence, data, -⟩ := row
        rw [PendingChangeset.mk.injEq]
        exact ⟨sequence, data, reason⟩
      rw [here, ih fun p hp => above p (List.mem_cons_of_mem _ hp)]
  obtain ⟨_, _⟩ := d
  obtain ⟨_, _⟩ := d'
  rw [Databases.mk.injEq]
  exact ⟨replica, same _ _ rows above⟩

theorem insertOrReplace_alike (n : Nat) (p q : PendingChangeset) (s s' : PendingStore)
    (row : AlikeRow n p q) (rows : List.Forall₂ (AlikeRow n) s s') :
    List.Forall₂ (AlikeRow n) (PendingStore.insertOrReplace p s)
      (PendingStore.insertOrReplace q s') := by
  induction rows with
  | nil => exact .cons row .nil
  | cons head tail ih =>
    rw [PendingStore.insertOrReplace, PendingStore.insertOrReplace, row.sequence, head.sequence]
    split
    · exact .cons row (.cons head tail)
    · split
      · exact .cons row tail
      · exact .cons head ih

theorem filter_alike (n : Nat) (keep : UInt64 → Bool) (s s' : List PendingChangeset)
    (rows : List.Forall₂ (AlikeRow n) s s') :
    List.Forall₂ (AlikeRow n) (s.filter fun p => keep p.sequence)
      (s'.filter fun p => keep p.sequence) := by
  refine List.rel_filter ?_ rows
  intro p q row
  simp only [row.sequence]

theorem chain_alike (n : Nat) (s s' : List PendingChangeset)
    (rows : List.Forall₂ (AlikeRow n) s s') :
    (s'.map fun p => (p.sequence, p.data)) = s.map fun p => (p.sequence, p.data) := by
  induction rows with
  | nil => rfl
  | cons row _ ih => rw [List.map_cons, List.map_cons, row.sequence, row.data, ih]

theorem isEmpty_alike (n : Nat) (s s' : List PendingChangeset)
    (rows : List.Forall₂ (AlikeRow n) s s') : s'.isEmpty = s.isEmpty := by
  cases rows with
  | nil => rfl
  | cons _ _ => rfl

section Audit

variable (E : Engine δ) (apply : UInt64 → δ → Bytes → Except String δ)

theorem verifyPending_alike (n : Nat) (sequence : UInt64) (d d' : Databases δ)
    (h : AlikeBelow n d d') :
    (verifyPendingChangesetsAfterSnapshot (E.applying apply) sequence d').1 =
        (verifyPendingChangesetsAfterSnapshot E sequence d).1 ∧
      AlikeBelow n (verifyPendingChangesetsAfterSnapshot E sequence d).2
        (verifyPendingChangesetsAfterSnapshot (E.applying apply) sequence d').2 := by
  have relevant := filter_alike n (fun s => s < sequence) _ _ h.rows
  have walked : (E.applying apply).verifyChangesetChain = E.verifyChangesetChain := rfl
  simp only [verifyPendingChangesetsAfterSnapshot, isEmpty_alike n _ _ h.rows,
    isEmpty_alike n _ _ relevant, chain_alike n _ _ relevant, h.replica, walked]
  split
  · exact ⟨rfl, h⟩
  · split
    · exact ⟨rfl, h⟩
    · by_cases fits : PendingStore.bindable sequence = true
      · simp only [PendingStore.clearUpTo, fits, if_true]
        exact ⟨trivial, rfl, filter_alike n (fun s => sequence < s) _ _ h.rows⟩
      · simp only [PendingStore.clearUpTo, fits, Bool.false_eq_true, if_false]
        exact ⟨trivial, rfl, h.rows⟩

/-- Nothing below a snapshot is left. -/
theorem verifyPending_above (sequence : UInt64) (d : Databases δ)
    (cleared : (verifyPendingChangesetsAfterSnapshot E sequence d).1 = .ok ()) :
    ∀ p ∈ (verifyPendingChangesetsAfterSnapshot E sequence d).2.pendingStore,
      sequence.toNat ≤ p.sequence.toNat := by
  simp only [verifyPendingChangesetsAfterSnapshot] at cleared ⊢
  split
  · next empty => simp [List.isEmpty_iff.mp empty]
  · split
    · next none =>
      intro p hp
      have outside := List.filter_eq_nil_iff.mp (List.isEmpty_iff.mp none) p hp
      rw [decide_eq_true_eq, UInt64.not_lt, UInt64.le_iff_toNat_le] at outside
      exact outside
    · next some_row some_relevant =>
      rw [if_neg some_row, if_neg some_relevant] at cleared
      by_cases fits : PendingStore.bindable sequence = true
      · simp only [PendingStore.clearUpTo, fits, if_true]
        intro p hp
        have later := of_decide_eq_true (List.mem_filter.mp hp).2
        rw [UInt64.lt_iff_toNat_lt] at later
        exact later.le
      · simp [PendingStore.clearUpTo, fits] at cleared

/-- The reason with which a message is stored, if it is deferred. -/
def Engine.deferral (E : Engine δ) (m : SignedMessage) (replica : δ) : Option DeferralReason :=
  match applyMessageWithRules E m replica with
  | .ok _ => none
  | .error e =>
      if isSchemaMismatch e && m.messageType = .Changeset then some (deferralReason e) else none

/-- What two engines make of one message on databases that are alike. -/
inductive SameStep (n : Nat) (m : SignedMessage) (E E' : Engine δ) (d d' : Databases δ) : Prop where
  | failed (e e' : String) (after after' : Databases δ)
      (first : applyMessageWithAudit E m d = (.error e, after))
      (second : applyMessageWithAudit E' m d' = (.error e', after'))
      (alike : AlikeBelow n after after')
  | applied (result : ApplyResult) (after after' : Databases δ)
      (first : applyMessageWithAudit E m d = (.ok result, after))
      (second : applyMessageWithAudit E' m d' = (.ok result, after'))
      (alike : AlikeBelow (max n (m.sequence.toNat + 1)) after after')
      (told : E'.deferral m d.replica = E.deferral m d.replica → AlikeBelow n after after')
      (cleared : m.messageType = .Snapshot → n ≤ m.sequence.toNat → after' = after)

/-- Outside of deferrals nothing new is different. -/
theorem sameStep_alike (n : Nat) (m : SignedMessage) (E E' : Engine δ)
    (d d' after after' : Databases δ) (result : ApplyResult)
    (first : applyMessageWithAudit E m d = (.ok result, after))
    (second : applyMessageWithAudit E' m d' = (.ok result, after'))
    (alike : AlikeBelow n after after')
    (cleared : m.messageType = .Snapshot → n ≤ m.sequence.toNat → after' = after) :
    SameStep n m E E' d d' :=
  .applied result after after' first second (alikeBelow_mono _ _ _ _ (le_max_left _ _) alike)
    (fun _ => alike) cleared

theorem audit_snapshot (m : SignedMessage) (d : Databases δ) (replica : δ)
    (snapshot : m.messageType = .Snapshot)
    (restored : applyMessageWithRules E m d.replica = .ok replica) :
    applyMessageWithAudit E m d =
      ((verifyPendingChangesetsAfterSnapshot E m.sequence { d with replica := replica }).1.map
        fun _ => .Applied,
        (verifyPendingChangesetsAfterSnapshot E m.sequence { d with replica := replica }).2) := by
  simp only [applyMessageWithAudit, restored, snapshot, if_true]
  cases verifyPendingChangesetsAfterSnapshot E m.sequence { d with replica := replica } with
  | mk result after => cases result <;> rfl

theorem sameStep_snapshot (n : Nat) (m : SignedMessage) (d d' : Databases δ)
    (h : AlikeBelow n d d') (snapshot : m.messageType = .Snapshot) :
    SameStep n m E (E.applying apply) d d' := by
  have other : m.messageType ≠ .Changeset := by
    rw [snapshot]
    decide
  have rules (replica : δ) := applyMessageWithRules_other E apply m replica other
  have from_anything : applyMessageWithRules E m d'.replica =
      applyMessageWithRules E m d.replica := by
    rw [h.replica]
  cases restored : applyMessageWithRules E m d.replica with
  | error e =>
    refine .failed e e d d' ?_ ?_ h
    · simp [applyMessageWithAudit, restored, snapshot]
    · simp [applyMessageWithAudit, rules, from_anything, restored, snapshot]
  | ok replica =>
    have start : AlikeBelow n { d with replica := replica } { d' with replica := replica } :=
      ⟨rfl, h.rows⟩
    obtain ⟨same, alike⟩ := verifyPending_alike E apply n m.sequence _ _ start
    have first := audit_snapshot E m d replica snapshot restored
    have second := audit_snapshot (E.applying apply) m d' replica snapshot
      ((rules d'.replica).trans (from_anything.trans restored))
    rw [same] at second
    cases outcome : (verifyPendingChangesetsAfterSnapshot E m.sequence
        { d with replica := replica }).1 with
    | error e =>
      rw [outcome] at first second
      exact .failed e e _ _ first second alike
    | ok =>
      have above := verifyPending_above E m.sequence _ outcome
      rw [outcome] at first second
      refine sameStep_alike n m _ _ d d' _ _ .Applied first second alike ?_
      intro _ small
      exact alikeBelow_eq n _ _ alike fun p hp => small.trans (above p hp)

theorem sameStep_changeset (n : Nat) (m : SignedMessage) (d d' : Databases δ)
    (h : AlikeBelow n d d') (changeset : m.messageType = .Changeset)
    (retold : ∀ replica data, Retold (E.applySingleChangeset m.sequence replica data)
      (apply m.sequence replica data)) :
    SameStep n m E (E.applying apply) d d' := by
  have rules := applyMessageWithRules_retold E apply m d.replica retold
  have no_snapshot : m.messageType ≠ .Snapshot := by
    rw [changeset]
    decide
  have same_replica : applyMessageWithRules (E.applying apply) m d'.replica =
      applyMessageWithRules (E.applying apply) m d.replica := by
    rw [h.replica]
  cases first : applyMessageWithRules E m d.replica with
  | ok replica =>
    rw [first] at rules
    generalize second : applyMessageWithRules (E.applying apply) m d.replica = result at rules
    cases rules
    refine sameStep_alike n m _ _ d d' ⟨replica, d.pendingStore⟩ ⟨replica, d'.pendingStore⟩ .Applied
      ?_ ?_ ⟨rfl, h.rows⟩ fun snapshot => absurd snapshot no_snapshot
    · simp [applyMessageWithAudit, first, changeset]
    · simp [applyMessageWithAudit, same_replica, second, changeset]
  | error e =>
    rw [first] at rules
    obtain ⟨e', second, mismatches, told⟩ : ∃ e',
        applyMessageWithRules (E.applying apply) m d.replica =
        .error e' ∧ isSchemaMismatch e' = isSchemaMismatch e ∧
          (isSchemaMismatch e = false → e' = e) := by
      generalize applyMessageWithRules (E.applying apply) m d.replica = result at rules
      cases rules with
      | same => exact ⟨e, rfl, rfl, fun _ => rfl⟩
      | mismatch e e' mismatch mismatch' =>
        refine ⟨e', rfl, mismatch'.trans mismatch.symm, ?_⟩
        intro none
        rw [mismatch] at none
        cases none
    cases mismatch : isSchemaMismatch e with
    | false =>
      rw [mismatch] at mismatches
      refine .failed e e' d d' ?_ ?_ h
      · simp [applyMessageWithAudit, first, mismatch]
      · simp [applyMessageWithAudit, same_replica, second, mismatches]
    | true =>
      rw [mismatch] at mismatches
      by_cases fits : PendingStore.bindable m.sequence = true
      · have stored (k : Nat) (le : n ≤ k)
            (row : AlikeRow k ⟨m.sequence, m.payload, deferralReason e⟩
              ⟨m.sequence, m.payload, deferralReason e'⟩) :
            AlikeBelow k
              ⟨d.replica, PendingStore.insertOrReplace
                ⟨m.sequence, m.payload, deferralReason e⟩ d.pendingStore⟩
              ⟨d'.replica, PendingStore.insertOrReplace
                ⟨m.sequence, m.payload, deferralReason e'⟩ d'.pendingStore⟩ :=
          ⟨h.replica, insertOrReplace_alike k _ _ _ _ row (alikeBelow_mono n k d d' le h).rows⟩
        refine .applied .StoredAsPending _ _ ?_ ?_ (stored _ (le_max_left _ _) ?_) ?_
          fun snapshot => absurd snapshot no_snapshot
        · simp [applyMessageWithAudit, first, mismatch, changeset, PendingStore.store, fits]
        · simp [applyMessageWithAudit, same_replica, second, mismatches, changeset,
            PendingStore.store, fits]
        · refine ⟨rfl, rfl, ?_⟩
          intro above
          have below : m.sequence.toNat + 1 ≤ m.sequence.toNat := (le_max_right _ _).trans above
          omega
        · intro told
          refine stored n (Nat.le_refl n) ⟨rfl, rfl, fun _ => ?_⟩
          simpa [Engine.deferral, first, second, mismatch, mismatches, changeset] using told
      · refine .failed "Failed to store pending changeset" "Failed to store pending changeset" d d'
          ?_ ?_ h
        · simp [applyMessageWithAudit, first, mismatch, changeset, PendingStore.store, fits]
        · simp [applyMessageWithAudit, same_replica, second, mismatches, changeset,
            PendingStore.store, fits]

theorem sameStep (n : Nat) (m : SignedMessage) (E' : Engine δ) (alike : E.Retells E')
    (d d' : Databases δ) (h : AlikeBelow n d d') : SameStep n m E E' d d' := by
  obtain ⟨apply, rfl, retold⟩ := alike
  cases type : m.messageType with
  | Changeset => exact sameStep_changeset E apply n m d d' h type (retold m.sequence)
  | Snapshot => exact sameStep_snapshot E apply n m d d' h type
  | Withdrawal =>
    refine sameStep_alike n m _ _ d d' d d' .Applied (audit_withdrawal E m d type)
      (audit_withdrawal _ m d' type) h ?_
    intro snapshot
    rw [type] at snapshot
    cases snapshot

end Audit

/-- A snapshot is applied among the messages. -/
def SnapshotApplied (E : Engine δ) : Databases δ → List SignedMessage → Prop
  | _, [] => False
  | d, m :: rest =>
      match applyMessageWithAudit E m d with
      | (.error _, _) => False
      | (.ok _, d) => m.messageType = .Snapshot ∨ SnapshotApplied E d rest

/-- Up to the first message that fails to apply, both engines have the same reason to defer a
message, unless a later snapshot is applied and the row of the message cleared. -/
def SameReasons (E E' : Engine δ) : Databases δ → List SignedMessage → Prop
  | _, [] => True
  | d, m :: rest =>
      match applyMessageWithAudit E m d with
      | (.error _, _) => True
      | (.ok _, after) =>
          (E'.deferral m d.replica = E.deferral m d.replica ∨ SnapshotApplied E after rest) ∧
            SameReasons E E' after rest

/-- What a message that does not fail leaves in the store. -/
theorem audit_deferral (E : Engine δ) (m : SignedMessage) (d after : Databases δ)
    (result : ApplyResult) (h : applyMessageWithAudit E m d = (.ok result, after))
    (other : m.messageType ≠ .Snapshot) :
    (E.deferral m d.replica = none ∧ result = .Applied ∧ after.pendingStore = d.pendingStore) ∨
      ∃ reason, E.deferral m d.replica = some reason ∧ result = .StoredAsPending ∧
        after.pendingStore =
          PendingStore.insertOrReplace ⟨m.sequence, m.payload, reason⟩ d.pendingStore := by
  cases applied : applyMessageWithRules E m d.replica with
  | ok replica =>
    simp only [applyMessageWithAudit, applied, other, if_false] at h
    cases h
    exact .inl ⟨by simp [Engine.deferral, applied], rfl, rfl⟩
  | error e =>
    by_cases deferred : (isSchemaMismatch e && m.messageType = .Changeset) = true
    · simp only [applyMessageWithAudit, applied, deferred, if_true, PendingStore.store] at h
      by_cases fits : PendingStore.bindable m.sequence = true
      · simp only [fits, if_true] at h
        cases h
        refine .inr ⟨deferralReason e, ?_, rfl, rfl⟩
        simp only [Engine.deferral, applied, deferred, if_true]
      · simp [fits] at h
    · simp [applyMessageWithAudit, applied, deferred] at h

/-- The row of a sequence. -/
def PendingStore.row (s : PendingStore) (sequence : UInt64) : Option PendingChangeset :=
  s.find? fun p => p.sequence = sequence

theorem row_insertOrReplace (p : PendingChangeset) (s : PendingStore) (sequence : UInt64) :
    PendingStore.row (PendingStore.insertOrReplace p s) sequence =
      if p.sequence = sequence then some p else PendingStore.row s sequence := by
  induction s with
  | nil =>
    by_cases here : p.sequence = sequence <;>
      simp [PendingStore.insertOrReplace, PendingStore.row, here]
  | cons q rest ih =>
    rw [PendingStore.insertOrReplace]
    by_cases before : p.sequence < q.sequence
    · rw [if_pos before]
      by_cases here : p.sequence = sequence <;> simp [PendingStore.row, here]
    · rw [if_neg before]
      by_cases same : p.sequence = q.sequence
      · rw [if_pos same]
        by_cases here : p.sequence = sequence
        · simp [PendingStore.row, here]
        · have other : ¬ q.sequence = sequence := same ▸ here
          simp [PendingStore.row, here, other]
      · rw [if_neg same]
        simp only [PendingStore.row, List.find?_cons] at ih ⊢
        by_cases there : q.sequence = sequence
        · have other : ¬ p.sequence = sequence := by
            rw [← there]
            exact same
          simp [there, other]
        · simp only [there, decide_false]
          exact ih

/-- Validators that differ at most in the reasons of rows below `n`, besides their own records. -/
structure AlikeValidators (n : Nat) (v v' : Validator δ) : Prop where
  databases : AlikeBelow n v.databases v'.databases
  lastSequence : v'.lastSequence = v.lastSequence
  withdrawals : v'.withdrawals = v.withdrawals

theorem alikeValidators_refl (n : Nat) (v : Validator δ) : AlikeValidators n v v :=
  ⟨alikeBelow_refl n v.databases, rfl, rfl⟩

theorem standing_eq (next : UInt64) (v v' : Validator δ) (h : AlikeValidators 0 v v') :
    v'.standing next = v.standing next := by
  have same := alikeBelow_eq 0 _ _ h.databases fun _ _ => Nat.zero_le _
  rw [Validator.standing, Validator.standing, same, h.lastSequence, h.withdrawals]

/-- What two engines make of one message for validators that are alike. -/
inductive SameHandling (X : Externals) (config : ValidatorConfig) (n : Nat) (m : SignedMessage)
    (E E' : Engine δ) (v v' : Validator δ) : Prop where
  | failed (e e' : ValidatorError) (w w' : Validator δ) (f : String) (after : Databases δ)
      (first : v.runMessage X E config m = (.error e, w))
      (second : v'.runMessage X E' config m = (.error e', w')) (alike : AlikeValidators n w w')
      (audit : applyMessageWithAudit E m v.databases = (.error f, after))
  | handled (result : ApplyResult) (w w' : Validator δ)
      (first : v.runMessage X E config m = (.ok (), w))
      (second : v'.runMessage X E' config m = (.ok (), w'))
      (alike : AlikeValidators (max n (m.sequence.toNat + 1)) w w')
      (told : E'.deferral m v.databases.replica = E.deferral m v.databases.replica →
        AlikeValidators n w w')
      (cleared : m.messageType = .Snapshot → n ≤ m.sequence.toNat → w'.databases = w.databases)
      (audit : applyMessageWithAudit E m v.databases = (.ok result, w.databases))
      (audit' : applyMessageWithAudit E' m v'.databases = (.ok result, w'.databases))

/-- No number is past the last one. -/
theorem max_next (sequence : UInt64) : max (2 ^ 64) (sequence.toNat + 1) = 2 ^ 64 := by
  have bound := sequence.toNat_lt
  omega

section Messages

variable (X : Externals) (config : ValidatorConfig) (E E' : Engine δ) (alike : E.Retells E')

include alike

theorem sameHandling (n : Nat) (m : SignedMessage) (v v' : Validator δ)
    (verified : SignatureVerifier.verify X config m = .ok ()) (h : AlikeValidators n v v') :
    SameHandling X config n m E E' v v' := by
  have extracted : extractWithdrawal E' m = extractWithdrawal E m := by
    obtain ⟨apply, rfl, -⟩ := alike
    rfl
  obtain ⟨reported, handled, handled'⟩ : ∃ reported,
      v.runMessage X E config m = (v.onWithdrawal reported).applyAndRecord E m ∧
      v'.runMessage X E' config m = (v'.onWithdrawal reported).applyAndRecord E' m := by
    simp only [Validator.runMessage, verified, extracted]
    exact ⟨_, rfl, rfl⟩
  have withdrawals : (v'.onWithdrawal reported).withdrawals =
      (v.onWithdrawal reported).withdrawals := by
    simp only [Validator.onWithdrawal, h.withdrawals]
  have start : (v.onWithdrawal reported).databases = v.databases := rfl
  have start' : (v'.onWithdrawal reported).databases = v'.databases := rfl
  rw [Validator.applyAndRecord, start] at handled
  rw [Validator.applyAndRecord, start'] at handled'
  cases sameStep E n m E' alike v.databases v'.databases h.databases with
  | failed e e' after after' first second below =>
    rw [first] at handled
    rw [second] at handled'
    exact .failed _ _ _ _ e after handled handled' ⟨below, h.lastSequence, withdrawals⟩ first
  | applied result after after' first second below told cleared =>
    rw [first] at handled
    rw [second] at handled'
    exact .handled result _ _ handled handled' ⟨below, rfl, withdrawals⟩
      (fun same => ⟨told same, rfl, withdrawals⟩) cleared first second

/-- The engines get through the same messages. -/
theorem replay_alike (next : UInt64) (v v' : Validator δ) (ms : List SignedMessage)
    (verified : ∀ m ∈ ms, SignatureVerifier.verify X config m = .ok ())
    (h : AlikeValidators (2 ^ 64) v v') :
    ((replay (Validator.runMessage X E' config) next v' ms).1 = .ok () ↔
      (replay (Validator.runMessage X E config) next v ms).1 = .ok ()) ∧
    (reaches (Validator.runMessage X E' config) next v' ms).nextSequence =
      (reaches (Validator.runMessage X E config) next v ms).nextSequence := by
  induction ms generalizing next v v' with
  | nil => exact ⟨Iff.rfl, rfl⟩
  | cons m rest ih =>
    cases sameHandling X config E E' alike (2 ^ 64) m v v' (verified m (by simp)) h with
    | failed e e' w w' f after first second =>
      simp [reaches, replay, first, second, Validator.standing]
    | handled result w w' first second below =>
      rw [max_next] at below
      simp only [reaches, replay, first, second]
      exact ih (m.sequence + 1) w w' (fun m' hm' => verified m' (by simp [hm'])) below

theorem snapshotApplied_alike (d d' : Databases δ) (ms : List SignedMessage)
    (h : AlikeBelow (2 ^ 64) d d') : SnapshotApplied E' d' ms ↔ SnapshotApplied E d ms := by
  induction ms generalizing d d' with
  | nil => exact Iff.rfl
  | cons m rest ih =>
    cases sameStep E (2 ^ 64) m E' alike d d' h with
    | failed e e' after after' first second below =>
      simp only [SnapshotApplied, first, second]
    | applied result after after' first second below told cleared =>
      rw [max_next] at below
      simp only [SnapshotApplied, first, second]
      exact or_congr_right (ih after after' below)

/-- Differences in reasons that are cleared later make no difference in the end. -/
theorem reaches_same (n : Nat) (next : UInt64) (v v' : Validator δ) (ms : List SignedMessage)
    (numbered : Numbered n ms)
    (verified : ∀ m ∈ ms, SignatureVerifier.verify X config m = .ok ())
    (h : AlikeValidators 0 v v' ∨ AlikeValidators n v v' ∧ SnapshotApplied E v.databases ms)
    (reasons : SameReasons E E' v.databases ms) :
    reaches (Validator.runMessage X E' config) next v' ms =
      reaches (Validator.runMessage X E config) next v ms := by
  induction ms generalizing n next v v' with
  | nil =>
    rcases h with same | ⟨-, never⟩
    · exact standing_eq next v v' same
    · exact never.elim
  | cons m rest ih =>
    obtain ⟨number, tail⟩ := (numbered_cons n m rest).mp numbered
    have own := verified m (by simp)
    have others : ∀ m' ∈ rest, SignatureVerifier.verify X config m' = .ok () := by
      intro m' hm'
      exact verified m' (by simp [hm'])
    rcases h with same | ⟨below, later⟩
    · cases sameHandling X config E E' alike 0 m v v' own same with
      | failed e e' w w' f after first second same' audit =>
        simp only [reaches, replay, first, second]
        exact standing_eq m.sequence w w' same'
      | handled result w w' first second below told cleared audit audit' =>
        rw [number, Nat.zero_max] at below
        simp only [SameReasons, audit] at reasons
        simp only [reaches, replay, first, second]
        refine ih (n + 1) (m.sequence + 1) w w' tail others ?_ reasons.2
        rcases reasons.1 with equal | later
        · exact .inl (told equal)
        · exact .inr ⟨below, later⟩
    · cases sameHandling X config E E' alike n m v v' own below with
      | failed e e' w w' f after first second below' audit =>
        simp only [SnapshotApplied, audit] at later
      | handled result w w' first second below' told cleared audit audit' =>
        rw [number, max_eq_right (Nat.le_succ n)] at below'
        simp only [SameReasons, audit] at reasons
        simp only [SnapshotApplied, audit] at later
        simp only [reaches, replay, first, second]
        refine ih (n + 1) (m.sequence + 1) w w' tail others ?_ reasons.2
        rcases later with snapshot | later
        · left
          refine ⟨?_, below'.lastSequence, below'.withdrawals⟩
          rw [cleared snapshot number.ge]
          exact alikeBelow_refl 0 _
        · exact .inr ⟨below', later⟩

/-- A deferral that the engines tell in different ways leaves different rows. -/
theorem rows_apart (m : SignedMessage) (d d' after after' : Databases δ) (result : ApplyResult)
    (replica : d'.replica = d.replica)
    (audit : applyMessageWithAudit E m d = (.ok result, after))
    (audit' : applyMessageWithAudit E' m d' = (.ok result, after'))
    (other : E'.deferral m d.replica ≠ E.deferral m d.replica) :
    after'.pendingStore.row m.sequence ≠ after.pendingStore.row m.sequence := by
  have changeset : m.messageType = .Changeset := by
    by_contra none
    have same (E : Engine δ) (replica : δ) (apply : UInt64 → δ → Bytes → Except String δ) :
        (E.applying apply).deferral m replica = E.deferral m replica := by
      simp only [Engine.deferral, applyMessageWithRules_other E apply m replica none]
    obtain ⟨apply, rfl, -⟩ := alike
    exact other (same E d.replica apply)
  have no_snapshot : m.messageType ≠ .Snapshot := by
    rw [changeset]
    decide
  have stored := audit_deferral E m d after result audit no_snapshot
  have stored' := audit_deferral E' m d' after' result audit' no_snapshot
  rw [replica] at stored'
  rcases stored with ⟨none, rfl, -⟩ | ⟨reason, told, rfl, store⟩
  · rcases stored' with ⟨none', -, -⟩ | ⟨reason', -, kept, -⟩
    · exact absurd (none'.trans none.symm) other
    · cases kept
  · rcases stored' with ⟨-, applied, -⟩ | ⟨reason', told', -, store'⟩
    · cases applied
    · rw [store, store', row_insertOrReplace, row_insertOrReplace, if_pos rfl, if_pos rfl]
      intro same
      apply other
      rw [told, told']
      have rows := Option.some.inj same
      exact congrArg some (PendingChangeset.mk.inj rows).2.2

omit alike in
/-- Without a snapshot that is applied, later messages leave a row as it is. -/
theorem row_reaches (next : UInt64) (v : Validator δ) (ms : List SignedMessage)
    (sequence : UInt64) (verified : ∀ m ∈ ms, SignatureVerifier.verify X config m = .ok ())
    (others : ∀ m ∈ ms, m.sequence ≠ sequence) (kept : ¬ SnapshotApplied E v.databases ms) :
    (reaches (Validator.runMessage X E config) next v ms).databases.pendingStore.row sequence =
      v.databases.pendingStore.row sequence := by
  induction ms generalizing next v with
  | nil => rfl
  | cons m rest ih =>
    obtain ⟨e, w, f, failed, audit⟩ | ⟨w, result, handled, audit⟩ :=
      runMessage_cases X E config m v (verified m (by simp))
    · simp only [reaches, replay, failed]
      exact congrArg (PendingStore.row · sequence) (audit_error_store E m _ _ f audit)
    · simp only [SnapshotApplied, audit, not_or] at kept
      simp only [reaches, replay, handled]
      refine (ih (m.sequence + 1) w (fun m' hm' => verified m' (by simp [hm']))
        (fun m' hm' => others m' (by simp [hm'])) kept.2).trans ?_
      rcases audit_deferral E m _ _ result audit kept.1 with ⟨-, -, store⟩ | ⟨reason, -, -, store⟩
      · rw [store]
      · rw [store, row_insertOrReplace, if_neg (others m (by simp))]

/-- A difference in reasons that no snapshot clears is there in the end. -/
theorem reaches_apart (n : Nat) (next : UInt64) (v v' : Validator δ) (ms : List SignedMessage)
    (numbered : Numbered n ms)
    (verified : ∀ m ∈ ms, SignatureVerifier.verify X config m = .ok ())
    (h : AlikeValidators (2 ^ 64) v v') (other : ¬ SameReasons E E' v.databases ms) :
    (reaches (Validator.runMessage X E' config) next v' ms).databases ≠
      (reaches (Validator.runMessage X E config) next v ms).databases := by
  induction ms generalizing n next v v' with
  | nil => exact absurd trivial other
  | cons m rest ih =>
    obtain ⟨number, tail⟩ := (numbered_cons n m rest).mp numbered
    have others : ∀ m' ∈ rest, SignatureVerifier.verify X config m' = .ok () := by
      intro m' hm'
      exact verified m' (by simp [hm'])
    cases sameHandling X config E E' alike (2 ^ 64) m v v' (verified m (by simp)) h with
    | failed e e' w w' f after first second below audit =>
      simp [SameReasons, audit] at other
    | handled result w w' first second below told cleared audit audit' =>
      rw [max_next] at below
      simp only [SameReasons, audit, not_and_or, not_or] at other
      simp only [reaches, replay, first, second]
      rcases other with ⟨different, kept⟩ | later
      · have later_numbers : ∀ m' ∈ rest, m'.sequence ≠ m.sequence := by
          intro m' hm' same
          have bounds := numbered_mem (n + 1) rest m' tail hm'
          rw [same, number] at bounds
          omega
        have kept' : ¬ SnapshotApplied E' w'.databases rest := by
          rw [snapshotApplied_alike E E' alike _ _ rest below.databases]
          exact kept
        have row := row_reaches X config E (m.sequence + 1) w rest m.sequence others
          later_numbers kept
        have row' := row_reaches X config E' (m.sequence + 1) w' rest m.sequence others
          later_numbers kept'
        have apart := rows_apart E E' alike m _ _ _ _ result h.databases.replica audit
          audit' different
        intro same
        apply apart
        rw [← row, ← row']
        exact congrArg (fun d : Databases δ => d.pendingStore.row m.sequence) same
      · exact ih (n + 1) (m.sequence + 1) w w' tail others below later

/-- The two ways to handle messages, each with its own engine, lead to the same standing exactly if
every withdrawal that is reached can be read and the same reasons are left in the store. -/
theorem reaches_eq_iff (n : Nat) (next : UInt64) (v : Validator δ) (ms : List SignedMessage)
    (numbered : Numbered n ms)
    (verified : ∀ m ∈ ms, SignatureVerifier.verify X config m = .ok ())
    (fits : ms.length < 2 ^ 63) :
    reaches (Validator.runMessage X E config) next v ms =
        reaches (Validator.syncMessage X E' config) next v ms ↔
      Decodes E' v.databases ms ∧ SameReasons E E' v.databases ms := by
  have start (k : Nat) : AlikeValidators k v v := alikeValidators_refl k v
  by_cases decodes : Decodes E' v.databases ms
  · rw [← reaches_decoded X E' config next v ms verified decodes, and_iff_right decodes]
    constructor
    · intro same
      by_contra other
      have apart := reaches_apart X config E E' alike n next v v ms numbered verified
        (start _) other
      exact apart (congrArg Standing.databases same.symm)
    · intro reasons
      exact (reaches_same X config E E' alike n next v v ms numbered verified (.inl (start 0))
        reasons).symm
  · refine iff_of_false ?_ fun given => decodes given.1
    intro same
    apply reaches_undecoded X E' config n next v ms numbered verified fits decodes
    rw [(replay_alike X config E E' alike next v v ms verified (start _)).2, same]

end Messages

end SyndDB.Replication
