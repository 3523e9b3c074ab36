import SyndDB.Replication.Storage

namespace SyndDB.Replication

open Octets Shared

variable {δ : Type}

/-- What a validator has reached: the number it waits for, the databases, the last sequence it
recorded and the withdrawals it has reported. -/
structure Standing (δ : Type) where
  nextSequence : UInt64
  databases : Databases δ
  lastSequence : Option UInt64
  withdrawals : List WithdrawalRequest
  deriving DecidableEq

def Validator.standing (v : Validator δ) (nextSequence : UInt64) : Standing δ :=
  ⟨nextSequence, v.databases, v.lastSequence, v.withdrawals⟩

abbrev Handler (δ : Type) := SignedMessage → Validator δ → Except ValidatorError Unit × Validator δ

/-- Handle messages in order, up to the first that fails. -/
def replay (handle : Handler δ) :
    UInt64 → Validator δ → List SignedMessage → Except ValidatorError Unit × UInt64 × Validator δ
  | next, v, [] => (.ok (), next, v)
  | _, v, m :: rest =>
      match handle m v with
      | (.error e, v) => (.error e, m.sequence, v)
      | (.ok (), v) => replay handle (m.sequence + 1) v rest

/-- Where a replay leads. -/
def reaches (handle : Handler δ) (next : UInt64) (v : Validator δ) (ms : List SignedMessage) :
    Standing δ :=
  let r := replay handle next v ms
  r.2.2.standing r.2.1

section Replay

variable (handle : Handler δ)

theorem replay_append (next : UInt64) (v : Validator δ) (xs ys : List SignedMessage) :
    replay handle next v (xs ++ ys) =
      match replay handle next v xs with
      | (.error e, n, w) => (.error e, n, w)
      | (.ok (), n, w) => replay handle n w ys := by
  induction xs generalizing next v with
  | nil => rfl
  | cons x xs ih =>
    rw [List.cons_append, replay, replay]
    cases handled : handle x v with
    | mk result w =>
      cases result with
      | error e => rfl
      | ok => exact ih _ w

/-- The number reached is at most as many further as there are messages. -/
theorem replay_next (n : Nat) (next : UInt64) (v : Validator δ) (ms : List SignedMessage)
    (numbered : Numbered n ms) (start : next.toNat = n % 2 ^ 64) :
    ∃ k, k ≤ ms.length ∧ (replay handle next v ms).2.1.toNat = (n + k) % 2 ^ 64 := by
  induction ms generalizing n next v with
  | nil => exact ⟨0, Nat.le_refl _, start⟩
  | cons m rest ih =>
    obtain ⟨number, tail⟩ := (numbered_cons n m rest).mp numbered
    have bound := m.sequence.toNat_lt
    rw [replay]
    cases handled : handle m v with
    | mk result w =>
      cases result with
      | error e =>
        exact ⟨0, Nat.zero_le _, by rw [number, Nat.add_zero, Nat.mod_eq_of_lt (by omega)]⟩
      | ok =>
        have after : (m.sequence + 1).toNat = (n + 1) % 2 ^ 64 := by
          rw [UInt64.toNat_add, UInt64.toNat_one, number]
        obtain ⟨k, hk, reached⟩ := ih (n + 1) (m.sequence + 1) w tail after
        refine ⟨k + 1, Nat.succ_le_succ hk, ?_⟩
        rw [reached, Nat.add_assoc, Nat.add_comm 1 k]

/-- After all messages the next number is the one after the last. -/
theorem replay_complete (n : Nat) (next : UInt64) (v : Validator δ) (ms : List SignedMessage)
    (numbered : Numbered n ms) (start : next.toNat = n % 2 ^ 64)
    (complete : (replay handle next v ms).1 = .ok ()) :
    (replay handle next v ms).2.1.toNat = (n + ms.length) % 2 ^ 64 := by
  induction ms generalizing n next v with
  | nil => exact start
  | cons m rest ih =>
    obtain ⟨number, tail⟩ := (numbered_cons n m rest).mp numbered
    rw [replay] at complete ⊢
    cases handled : handle m v with
    | mk result w =>
      rw [handled] at complete
      cases result with
      | error e => cases complete
      | ok =>
        have after : (m.sequence + 1).toNat = (n + 1) % 2 ^ 64 := by
          rw [UInt64.toNat_add, UInt64.toNat_one, number]
        have reached := ih (n + 1) (m.sequence + 1) w tail after complete
        rw [List.length_cons, Nat.add_comm rest.length 1, ← Nat.add_assoc]
        exact reached

/-- Recorded gaps play no part. -/
def IgnoresGaps : Prop :=
  ∀ m (v : Validator δ) gaps,
    handle m { v with gaps := gaps } = ((handle m v).1, { (handle m v).2 with gaps := gaps })

theorem replay_gaps (h : IgnoresGaps handle) (next : UInt64) (v : Validator δ)
    (ms : List SignedMessage) (gaps : List (UInt64 × UInt64)) :
    reaches handle next { v with gaps := gaps } ms = reaches handle next v ms := by
  induction ms generalizing next v with
  | nil => rfl
  | cons m rest ih =>
    rw [reaches, reaches, replay, replay, h]
    cases handled : handle m v with
    | mk result w =>
      cases result with
      | error e => rfl
      | ok => exact ih _ w

end Replay

variable (X : Externals) (E : Engine δ) (config : ValidatorConfig)

theorem applyAndRecord_gaps (m : SignedMessage) (v : Validator δ) (gaps : List (UInt64 × UInt64)) :
    { v with gaps := gaps }.applyAndRecord E m =
      ((v.applyAndRecord E m).1, { (v.applyAndRecord E m).2 with gaps := gaps }) := by
  simp only [Validator.applyAndRecord]
  cases applied : applyMessageWithAudit E m v.databases with
  | mk result d =>
    cases result with
    | error e => rfl
    | ok r => rfl

theorem syncMessage_gaps : IgnoresGaps (Validator.syncMessage X E config) := by
  intro m v gaps
  simp only [Validator.syncMessage]
  cases SignatureVerifier.verify X config m with
  | error e => rfl
  | ok =>
    cases extractWithdrawal E m with
    | error e => rfl
    | ok w => exact applyAndRecord_gaps E m (v.onWithdrawal w) gaps

theorem runMessage_gaps : IgnoresGaps (Validator.runMessage X E config) := by
  intro m v gaps
  simp only [Validator.runMessage]
  cases SignatureVerifier.verify X config m with
  | error e => rfl
  | ok => exact applyAndRecord_gaps E m (v.onWithdrawal _) gaps

/-- A withdrawal always applies. -/
theorem audit_withdrawal (m : SignedMessage) (d : Databases δ) (h : m.messageType = .Withdrawal) :
    applyMessageWithAudit E m d = (.ok .Applied, d) := by
  simp [applyMessageWithAudit, applyMessageWithRules, h]

/-- Changesets that cannot be cleared after a snapshot are kept. -/
theorem verifyPending_error (sequence : UInt64) (d d' : Databases δ) (e : String)
    (h : verifyPendingChangesetsAfterSnapshot E sequence d = (.error e, d')) :
    d'.pendingStore = d.pendingStore := by
  unfold verifyPendingChangesetsAfterSnapshot at h
  split at h
  · cases h
  · simp only at h
    split at h
    · cases h
    · split at h
      · cases h
        rfl
      · cases h

/-- A changeset that fails to apply leaves the databases as they were. -/
theorem audit_changeset_error (m : SignedMessage) (d d' : Databases δ) (e : String)
    (type : m.messageType = .Changeset) (h : applyMessageWithAudit E m d = (.error e, d')) :
    d' = d := by
  unfold applyMessageWithAudit at h
  split at h
  · simp [type] at h
  · split at h
    · split at h
      · cases h
        rfl
      · cases h
    · cases h
      rfl

/-- A message that fails to apply leaves the pending changesets as they were. -/
theorem audit_error_store (m : SignedMessage) (d d' : Databases δ) (e : String)
    (h : applyMessageWithAudit E m d = (.error e, d')) : d'.pendingStore = d.pendingStore := by
  cases type : m.messageType with
  | Withdrawal =>
    rw [audit_withdrawal E m d type] at h
    cases h
  | Changeset => rw [audit_changeset_error E m d d' e type h]
  | Snapshot =>
    unfold applyMessageWithAudit at h
    split at h
    · simp only [type, if_true] at h
      split at h
      · rename_i failed
        cases h
        have kept := verifyPending_error E m.sequence _ _ _ failed
        exact kept
      · cases h
    · simp only [type, reduceCtorEq, decide_false, Bool.and_false, Bool.false_eq_true,
        if_false] at h
      cases h
      rfl

/-- A snapshot is restored without regard to what was there, so a message that fails to apply fails
again and changes nothing more. -/
theorem audit_error_again (m : SignedMessage) (d d' : Databases δ) (e : String)
    (h : applyMessageWithAudit E m d = (.error e, d')) :
    applyMessageWithAudit E m d' = (.error e, d') := by
  cases type : m.messageType with
  | Withdrawal =>
    rw [audit_withdrawal E m d type] at h
    cases h
  | Changeset =>
    have unchanged := audit_changeset_error E m d d' e type h
    rw [unchanged] at h ⊢
    exact h
  | Snapshot =>
    have stored := audit_error_store E m d d' e h
    have same : applyMessageWithRules E m d'.replica = applyMessageWithRules E m d.replica := by
      simp only [applyMessageWithRules, type]
    cases restored : applyMessageWithRules E m d.replica with
    | error e' =>
      simp only [applyMessageWithAudit, same, restored, type, reduceCtorEq, decide_false,
        Bool.and_false, Bool.false_eq_true, if_false, Prod.mk.injEq, and_true] at h ⊢
      exact h.1
    | ok replica =>
      have again : applyMessageWithAudit E m d' = applyMessageWithAudit E m d := by
        simp only [applyMessageWithAudit, same, restored, stored]
      rw [again, h]

theorem audit_error_type (m : SignedMessage) (d d' : Databases δ) (e : String)
    (h : applyMessageWithAudit E m d = (.error e, d')) : m.messageType ≠ .Withdrawal := by
  intro type
  rw [audit_withdrawal E m d type] at h
  cases h

/-- Messages that are not withdrawals decode to nothing. -/
theorem extractWithdrawal_other (m : SignedMessage) (h : m.messageType ≠ .Withdrawal) :
    extractWithdrawal E m = .ok none := by
  simp [extractWithdrawal, h]

theorem onWithdrawal_none (v : Validator δ) : v.onWithdrawal none = v := by
  simp [Validator.onWithdrawal]

/-- A message that fails in the single-message loop fails the same way when it is tried again. -/
theorem syncMessage_again (m : SignedMessage) (v v' : Validator δ) (e : ValidatorError)
    (h : v.syncMessage X E config m = (.error e, v')) :
    v'.syncMessage X E config m = (.error e, v') := by
  unfold Validator.syncMessage at h
  cases verified : SignatureVerifier.verify X config m with
  | error e' =>
    simp only [verified] at h
    cases h
    simp only [Validator.syncMessage, verified]
  | ok =>
    cases extracted : extractWithdrawal E m with
    | error e' =>
      simp only [verified, extracted] at h
      cases h
      simp only [Validator.syncMessage, verified, extracted]
    | ok w =>
      simp only [verified, extracted, Validator.applyAndRecord] at h
      split at h
      · rename_i failure d applied
        have other := extractWithdrawal_other E m (audit_error_type E m _ d failure applied)
        obtain rfl : w = none := by
          rw [other] at extracted
          exact (Except.ok.inj extracted).symm
        rw [onWithdrawal_none] at h applied
        cases h
        simp only [Validator.syncMessage, verified, other, onWithdrawal_none,
          Validator.applyAndRecord, audit_error_again E m _ d failure applied]
      · cases h

/-- The databases after messages that all apply. -/
def applyAll : Databases δ → List SignedMessage → Option (Databases δ)
  | d, [] => some d
  | d, m :: rest =>
      match applyMessageWithAudit E m d with
      | (.error _, _) => none
      | (.ok _, d) => applyAll d rest

/-- Every withdrawal can be read, up to the first message that fails to apply. -/
def Decodes (d : Databases δ) (ms : List SignedMessage) : Prop :=
  ∀ pre m post, ms = pre ++ m :: post → (applyAll E d pre).isSome = true →
    (extractWithdrawal E m).isOk = true

theorem decodes_cons (d : Databases δ) (m : SignedMessage) (rest : List SignedMessage) :
    Decodes E d (m :: rest) ↔ (extractWithdrawal E m).isOk = true ∧
      ∀ result d', applyMessageWithAudit E m d = (.ok result, d') → Decodes E d' rest := by
  constructor
  · intro h
    refine ⟨h [] m rest rfl rfl, ?_⟩
    intro result d' applied pre m' post split reached
    apply h (m :: pre) m' post
    · rw [split, List.cons_append]
    · simpa only [applyAll, applied] using reached
  · rintro ⟨head, tail⟩ pre m' post split reached
    cases pre with
    | nil =>
      cases split
      exact head
    | cons x pre =>
      cases split
      rw [applyAll] at reached
      split at reached
      · cases reached
      · rename_i result d' applied
        exact tail result d' applied pre m' post rfl reached

theorem syncMessage_decoded (m : SignedMessage) (v : Validator δ)
    (h : (extractWithdrawal E m).isOk = true) :
    v.syncMessage X E config m = v.runMessage X E config m := by
  unfold Validator.syncMessage Validator.runMessage
  cases extracted : extractWithdrawal E m with
  | error e => simp [extracted, Except.isOk, Except.toBool] at h
  | ok w => rfl

/-- A message is handled exactly if it applies. -/
theorem runMessage_cases (m : SignedMessage) (v : Validator δ)
    (verified : SignatureVerifier.verify X config m = .ok ()) :
    (∃ e v' e', v.runMessage X E config m = (.error e, v') ∧
      applyMessageWithAudit E m v.databases = (.error e', v'.databases)) ∨
    ∃ v' result, v.runMessage X E config m = (.ok (), v') ∧
      applyMessageWithAudit E m v.databases = (.ok result, v'.databases) := by
  obtain ⟨w, handled⟩ : ∃ w, v.runMessage X E config m = (v.onWithdrawal w).applyAndRecord E m := by
    simp only [Validator.runMessage, verified]
    exact ⟨_, rfl⟩
  have start : (v.onWithdrawal w).databases = v.databases := rfl
  rw [handled, Validator.applyAndRecord, start]
  cases applied : applyMessageWithAudit E m v.databases with
  | mk result d =>
    cases result with
    | error e => exact .inl ⟨_, _, e, rfl, rfl⟩
    | ok r => exact .inr ⟨_, r, rfl, rfl⟩

theorem undecoded_withdrawal (m : SignedMessage) (h : ¬ (extractWithdrawal E m).isOk = true) :
    m.messageType = .Withdrawal := by
  by_contra other
  simp [extractWithdrawal_other E m other, Except.isOk, Except.toBool] at h

theorem syncMessage_undecoded (m : SignedMessage) (v : Validator δ)
    (verified : SignatureVerifier.verify X config m = .ok ())
    (h : ¬ (extractWithdrawal E m).isOk = true) :
    ∃ e, v.syncMessage X E config m = (.error e, v) := by
  cases extracted : extractWithdrawal E m with
  | error e => exact ⟨.Apply e, by simp only [Validator.syncMessage, verified, extracted]⟩
  | ok w => simp [extracted, Except.isOk, Except.toBool] at h

theorem runMessage_undecoded (m : SignedMessage) (v : Validator δ)
    (verified : SignatureVerifier.verify X config m = .ok ())
    (h : ¬ (extractWithdrawal E m).isOk = true) :
    ∃ v', v.runMessage X E config m = (.ok (), v') := by
  obtain ⟨e, v', e', -, audit⟩ | ⟨v', result, handled, -⟩ :=
    runMessage_cases X E config m v verified
  · rw [audit_withdrawal E m v.databases (undecoded_withdrawal E m h)] at audit
    cases audit
  · exact ⟨v', handled⟩

/-- Both ways lead to the same standing if every withdrawal that is reached can be read. -/
theorem reaches_decoded (next : UInt64) (v : Validator δ) (ms : List SignedMessage)
    (verified : ∀ m ∈ ms, SignatureVerifier.verify X config m = .ok ())
    (decodes : Decodes E v.databases ms) :
    reaches (Validator.runMessage X E config) next v ms =
      reaches (Validator.syncMessage X E config) next v ms := by
  induction ms generalizing next v with
  | nil => rfl
  | cons m rest ih =>
    have others : ∀ m' ∈ rest, SignatureVerifier.verify X config m' = .ok () := by
      intro m' hm'
      exact verified m' (by simp [hm'])
    obtain ⟨decoded, later⟩ := (decodes_cons E v.databases m rest).mp decodes
    simp only [reaches, replay, syncMessage_decoded X E config m v decoded]
    obtain ⟨e, v', e', failed, audit⟩ | ⟨v', result, handled, audit⟩ :=
      runMessage_cases X E config m v (verified m (by simp))
    · simp [failed]
    · simp only [handled]
      exact ih (m.sequence + 1) v' others (later result v'.databases audit)

/-- Otherwise the one stays at the message, and the other goes past it and never gets back. -/
theorem reaches_undecoded (n : Nat) (next : UInt64) (v : Validator δ) (ms : List SignedMessage)
    (numbered : Numbered n ms)
    (verified : ∀ m ∈ ms, SignatureVerifier.verify X config m = .ok ())
    (fits : ms.length < 2 ^ 63) (undecoded : ¬ Decodes E v.databases ms) :
    (reaches (Validator.runMessage X E config) next v ms).nextSequence ≠
      (reaches (Validator.syncMessage X E config) next v ms).nextSequence := by
  induction ms generalizing n next v with
  | nil => simp [Decodes] at undecoded
  | cons m rest ih =>
    obtain ⟨number, tail⟩ := (numbered_cons n m rest).mp numbered
    have bound := m.sequence.toNat_lt
    have short : rest.length < 2 ^ 63 := by
      rw [List.length_cons] at fits
      omega
    have own := verified m (by simp)
    have others : ∀ m' ∈ rest, SignatureVerifier.verify X config m' = .ok () := by
      intro m' hm'
      exact verified m' (by simp [hm'])
    have after : (m.sequence + 1).toNat = (n + 1) % 2 ^ 64 := by
      rw [UInt64.toNat_add, UInt64.toNat_one, number]
    rw [decodes_cons] at undecoded
    by_cases decoded : (extractWithdrawal E m).isOk = true
    · simp only [reaches, replay, syncMessage_decoded X E config m v decoded]
      obtain ⟨e, v', e', failed, audit⟩ | ⟨v', result, handled, audit⟩ :=
        runMessage_cases X E config m v own
      · refine absurd ⟨decoded, ?_⟩ undecoded
        intro result d'' applied
        rw [audit] at applied
        cases applied
      · simp only [handled]
        apply ih (n + 1) (m.sequence + 1) v' tail others short
        intro decodes
        refine undecoded ⟨decoded, ?_⟩
        intro result' d' applied
        rw [audit] at applied
        cases applied
        exact decodes
    · obtain ⟨e, stays⟩ := syncMessage_undecoded X E config m v own decoded
      obtain ⟨v', passes⟩ := runMessage_undecoded X E config m v own decoded
      intro same
      have numbers := congrArg UInt64.toNat same
      simp only [reaches, replay, stays, passes, Validator.standing] at numbers
      obtain ⟨k, hk, reached⟩ :=
        replay_next (Validator.runMessage X E config) (n + 1) (m.sequence + 1) v' rest tail after
      rw [reached, number] at numbers
      by_cases wraps : n + 1 + k < 2 ^ 64
      · rw [Nat.mod_eq_of_lt wraps] at numbers
        omega
      · rw [Nat.mod_eq_sub_mod (by omega), Nat.mod_eq_of_lt (by omega)] at numbers
        omega

/-- The single-message loop gets through exactly if all messages apply and decode. -/
theorem replay_sync_complete (next : UInt64) (v : Validator δ) (ms : List SignedMessage)
    (verified : ∀ m ∈ ms, SignatureVerifier.verify X config m = .ok ())
    (decodes : Decodes E v.databases ms) :
    (replay (Validator.syncMessage X E config) next v ms).1 = .ok () ↔
      applyAll E v.databases ms ≠ none := by
  induction ms generalizing next v with
  | nil => simp [replay, applyAll]
  | cons m rest ih =>
    have others : ∀ m' ∈ rest, SignatureVerifier.verify X config m' = .ok () := by
      intro m' hm'
      exact verified m' (by simp [hm'])
    obtain ⟨decoded, later⟩ := (decodes_cons E v.databases m rest).mp decodes
    simp only [replay, syncMessage_decoded X E config m v decoded, applyAll]
    obtain ⟨e, v', e', failed, audit⟩ | ⟨v', result, handled, audit⟩ :=
      runMessage_cases X E config m v (verified m (by simp))
    · simp [failed, audit]
    · simp only [handled, audit]
      exact ih (m.sequence + 1) v' others (later result v'.databases audit)

/-- What the single-message loop gets through, the batch loop gets through in the same way. -/
theorem replay_run_of_sync (next : UInt64) (v : Validator δ) (ms : List SignedMessage)
    (verified : ∀ m ∈ ms, SignatureVerifier.verify X config m = .ok ())
    (complete : (replay (Validator.syncMessage X E config) next v ms).1 = .ok ()) :
    replay (Validator.runMessage X E config) next v ms =
      replay (Validator.syncMessage X E config) next v ms := by
  induction ms generalizing next v with
  | nil => rfl
  | cons m rest ih =>
    have others : ∀ m' ∈ rest, SignatureVerifier.verify X config m' = .ok () := by
      intro m' hm'
      exact verified m' (by simp [hm'])
    have decoded : (extractWithdrawal E m).isOk = true := by
      by_contra undecoded
      obtain ⟨e, stays⟩ := syncMessage_undecoded X E config m v (verified m (by simp)) undecoded
      rw [replay, stays] at complete
      cases complete
    rw [replay, syncMessage_decoded X E config m v decoded] at complete
    rw [replay, replay, syncMessage_decoded X E config m v decoded]
    cases handled : v.runMessage X E config m with
    | mk outcome w =>
      rw [handled] at complete
      cases outcome with
      | error e => rfl
      | ok => exact ih (m.sequence + 1) w others complete

end SyndDB.Replication
