import SyndDB.Framework.Run
import SyndDB.Replication.Sync

namespace SyndDB.Replication

open Octets Shared

variable {δ : Type} (X : Externals) (E : Engine δ) (config : ValidatorConfig)

namespace Validator

/-- The number after the last persisted one, without overflow. -/
def expected (v : Validator δ) : Nat :=
  match v.lastSequence with
  | none => 0
  | some sequence => sequence.toNat + 1

theorem expected_some (v : Validator δ) (sequence : UInt64) (h : v.lastSequence = some sequence) :
    v.expected = sequence.toNat + 1 := by
  rw [expected, h]

/-- From `v` to `w` the messages processed are the next expected ones, in order, and the persisted
sequence is the last of them. -/
def Continues (v w : Validator δ) : Prop :=
  ∃ k, w.processed.map UInt64.toNat = v.processed.map UInt64.toNat ++ List.range' v.expected k ∧
    w.expected = v.expected + k

theorem continues_refl (v : Validator δ) : v.Continues v := ⟨0, by simp, rfl⟩

theorem continues_trans (u v w : Validator δ) (h : u.Continues v) (h' : v.Continues w) :
    u.Continues w := by
  obtain ⟨k, hk, ek⟩ := h
  obtain ⟨j, hj, ej⟩ := h'
  refine ⟨k + j, ?_, ?_⟩
  · rw [hj, hk, ek, List.append_assoc, List.range'_append_1]
  · omega

theorem continues_same (v w : Validator δ) (processed : w.processed = v.processed)
    (last : w.lastSequence = v.lastSequence) : v.Continues w := by
  refine ⟨0, ?_, ?_⟩
  · rw [processed]
    simp
  · simp [expected, last]

/-- One message, processed as a whole or not at all. -/
def Handles (message : SignedMessage) (v : Validator δ)
    (r : Except ValidatorError Unit × Validator δ) : Prop :=
  (r.1 = .ok () → r.2.processed = v.processed ++ [message.sequence] ∧
    r.2.lastSequence = some message.sequence) ∧
  (∀ e, r.1 = .error e → r.2.processed = v.processed ∧ r.2.lastSequence = v.lastSequence)

theorem failed_handles (message : SignedMessage) (v : Validator δ) (e : ValidatorError) :
    Handles message v (.error e, v) := by
  constructor
  · intro h
    cases h
  · intro _ _
    exact ⟨rfl, rfl⟩

theorem applyAndRecord_handles (message : SignedMessage) (v : Validator δ) :
    Handles message v (v.applyAndRecord E message) := by
  simp only [applyAndRecord]
  split
  · constructor
    · intro h
      cases h
    · intro e _
      exact ⟨rfl, rfl⟩
  · constructor
    · intro _
      exact ⟨rfl, rfl⟩
    · intro e h
      cases h

theorem syncMessage_handles (message : SignedMessage) (v : Validator δ) :
    Handles message v (v.syncMessage X E config message) := by
  simp only [syncMessage]
  split
  · exact failed_handles message v _
  · split
    · exact failed_handles message v _
    · exact applyAndRecord_handles E message (v.onWithdrawal _)

theorem runMessage_handles (message : SignedMessage) (v : Validator δ) :
    Handles message v (v.runMessage X E config message) := by
  simp only [runMessage]
  split
  · exact failed_handles message v _
  · exact applyAndRecord_handles E message (v.onWithdrawal _)

theorem handles_continues (message : SignedMessage) (v : Validator δ)
    (r : Except ValidatorError Unit × Validator δ) (h : Handles message v r)
    (next : message.sequence.toNat = v.expected) : v.Continues r.2 := by
  cases outcome : r.1 with
  | error e =>
    obtain ⟨processed, last⟩ := h.2 e outcome
    exact continues_same v r.2 processed last
  | ok u =>
    obtain ⟨processed, last⟩ := h.1 outcome
    refine ⟨1, ?_, ?_⟩
    · simp [processed, next]
    · rw [expected_some r.2 _ last, next]

/-- The messages of a batch that `sync_batch` does not skip carry on from the expected number. -/
def Follows (v : Validator δ) (batch : SignedBatch) : Prop :=
  let numbers := (batch.messages.map SignedMessage.sequence).filter fun s => ¬ s < v.nextSequence
  numbers.map UInt64.toNat = List.range' v.expected numbers.length

instance (v : Validator δ) (batch : SignedBatch) : Decidable (v.Follows batch) :=
  inferInstanceAs (Decidable ((_ : List Nat) = _))

/-- The messages that `run_batched` does not skip carry on from the expected number. -/
def NoJump : UInt64 → Nat → List SignedMessage → Prop
  | _, _, [] => True
  | next, n, message :: rest =>
      if message.sequence < next then NoJump next n rest
      else message.sequence.toNat = n ∧ NoJump (message.sequence + 1) (n + 1) rest

instance decidableNoJump (next : UInt64) (n : Nat) (messages : List SignedMessage) :
    Decidable (NoJump next n messages) :=
  match messages with
  | [] => isTrue trivial
  | message :: rest =>
      have := decidableNoJump next n rest
      have := decidableNoJump (message.sequence + 1) (n + 1) rest
      inferInstanceAs (Decidable (if message.sequence < next then NoJump next n rest
        else message.sequence.toNat = n ∧ NoJump (message.sequence + 1) (n + 1) rest))

theorem syncMessages_continues (next : UInt64) (v : Validator δ) (messages : List SignedMessage)
    (h : ((messages.map SignedMessage.sequence).filter fun s => ¬ s < next).map UInt64.toNat =
      List.range' v.expected
        ((messages.map SignedMessage.sequence).filter fun s => ¬ s < next).length) :
    v.Continues (syncMessages X E config next v messages).2 := by
  induction messages generalizing v with
  | nil => exact continues_refl v
  | cons message rest ih =>
    by_cases skipped : message.sequence < next
    · simp only [syncMessages, if_pos skipped]
      apply ih
      simpa [skipped] using h
    · simp only [syncMessages, if_neg skipped]
      simp only [List.map_cons, List.filter_cons, skipped, not_false_eq_true, decide_true, if_true,
        List.length_cons, List.range'_succ, List.cons.injEq] at h
      have one := handles_continues message v _ (syncMessage_handles X E config message v) h.1
      split
      · rename_i e w failed
        rw [failed] at one
        exact one
      · rename_i w synced
        rw [synced] at one
        have last := ((syncMessage_handles X E config message v).1 (by rw [synced])).2
        rw [synced] at last
        apply continues_trans v w _ one
        apply ih
        have more : w.expected = v.expected + 1 := by rw [expected_some w _ last, h.1]
        rw [more]
        exact h.2

theorem syncBatch_continues (batch : SignedBatch) (v : Validator δ) (h : v.Follows batch) :
    v.Continues (v.syncBatch X E config batch).2 := by
  simp only [syncBatch]
  split
  · exact continues_refl v
  · exact syncMessages_continues X E config v.nextSequence v batch.messages h

/-- Every batch found on the way follows the state it finds. -/
def FollowsAll (f : Fetcher) : Validator δ → List BatchInfo → Prop
  | _, [] => True
  | v, info :: rest =>
      match f.getBatchByPath info.path with
      | .ok (some batch) =>
          v.Follows batch ∧ FollowsAll f (v.syncBatch X E config batch).2 rest
      | .ok none => FollowsAll f v rest
      | .error _ => True

instance decidableFollowsAll (f : Fetcher) (v : Validator δ) (infos : List BatchInfo) :
    Decidable (FollowsAll X E config f v infos) :=
  match infos with
  | [] => isTrue trivial
  | info :: rest =>
      match h : f.getBatchByPath info.path with
      | .ok (some batch) =>
          have := decidableFollowsAll f (v.syncBatch X E config batch).2 rest
          decidable_of_iff (v.Follows batch ∧
            FollowsAll X E config f (v.syncBatch X E config batch).2 rest)
              (by simp only [FollowsAll, h])
      | .ok none =>
          have := decidableFollowsAll f v rest
          decidable_of_iff (FollowsAll X E config f v rest) (by simp only [FollowsAll, h])
      | .error _ => isTrue (by simp only [FollowsAll, h])

theorem syncBatches_continues (f : Fetcher) (v : Validator δ) (infos : List BatchInfo)
    (h : FollowsAll X E config f v infos) : v.Continues (v.syncBatches X E config f infos).2 := by
  induction infos generalizing v with
  | nil => exact continues_refl v
  | cons info rest ih =>
    simp only [syncBatches]
    simp only [FollowsAll] at h
    split at h
    · rename_i batch found
      have one := syncBatch_continues X E config batch v h.1
      simp only [found]
      split
      · rename_i e w failed
        rw [failed] at one
        exact one
      · rename_i w synced
        rw [synced] at one h
        exact continues_trans v w _ one (ih w h.2)
    · rename_i missing
      simp only [missing]
      exact ih v h
    · rename_i e failed
      simp only [failed]
      exact continues_refl v

theorem runMessages_continues (next : UInt64) (v : Validator δ) (messages : List SignedMessage)
    (h : NoJump next v.expected messages) :
    v.Continues (runMessages X E config next v messages).2.2 := by
  induction messages generalizing next v with
  | nil => exact continues_refl v
  | cons message rest ih =>
    by_cases skipped : message.sequence < next
    · simp only [runMessages, if_pos skipped]
      rw [NoJump, if_pos skipped] at h
      exact ih next v h
    · simp only [runMessages, if_neg skipped]
      rw [NoJump, if_neg skipped] at h
      have handled := runMessage_handles X E config message v
      have one := handles_continues message v _ handled h.1
      split
      · rename_i e w failed
        rw [failed] at one
        exact one
      · rename_i w synced
        rw [synced] at one handled
        have last : w.lastSequence = some message.sequence := (handled.1 rfl).2
        apply continues_trans v w _ one
        apply ih
        rw [expected_some w _ last, h.1]
        exact h.2

end Validator

namespace BatchLoop

/-- The batch of a turn goes on from where the validator is. -/
def Orderly (l : BatchLoop δ) (t : Turn) : Prop :=
  ∀ batch ∈ l.fetched t, Validator.NoJump l.nextSequence l.validator.expected batch.messages

instance (l : BatchLoop δ) (t : Turn) : Decidable (l.Orderly t) :=
  inferInstanceAs (Decidable (∀ batch ∈ l.fetched t,
    Validator.NoJump l.nextSequence l.validator.expected batch.messages))

theorem step_continues (l : BatchLoop δ) (t : Turn) (h : l.Orderly t) :
    l.validator.Continues (l.step X E config t).validator := by
  cases hb : l.fetched t with
  | none =>
    obtain ⟨gaps, same⟩ := l.step_idle X E config t hb
    rw [same]
    exact Validator.continues_same _ _ rfl rfl
  | some batch =>
    have ran := Validator.runMessages_continues X E config _ _ _ (h batch hb)
    rw [l.step_fetched X E config t batch hb, processBatch, refresh_validator, refresh_nextSequence]
    split
    · exact Validator.continues_refl _
    · split
      · rename_i failed
        rw [failed] at ran
        exact ran
      · rename_i ok
        rw [ok] at ran
        exact ran

end BatchLoop

namespace SingleLoop

/-- The last persisted sequence has a successor. -/
def InRange (l : SingleLoop δ) : Prop := l.validator.expected < 2 ^ 64

instance (l : SingleLoop δ) : Decidable l.InRange :=
  inferInstanceAs (Decidable (l.validator.expected < 2 ^ 64))

theorem nextSequence_toNat (v : Validator δ) (h : v.expected < 2 ^ 64) :
    v.nextSequence.toNat = v.expected := by
  cases last : v.lastSequence with
  | none => simp [Validator.nextSequence, Validator.expected, last]
  | some s =>
    rw [Validator.expected_some v s last] at h
    rw [Validator.nextSequence, last, Validator.expected_some v s last, UInt64.toNat_add]
    exact Nat.mod_eq_of_lt h

/-- What a loop over single messages keeps: it goes on from `v` and is in step with the
persisted sequence. -/
def InStep (v : Validator δ) (l : SingleLoop δ) : Prop :=
  v.Continues l.validator ∧ (l.status.isSome ∨ l.nextSequence = l.validator.nextSequence)

/-- A sync either processes the message asked for, or leaves the log as it is. -/
theorem syncOne_cases (f : Fetcher) (sequence : UInt64) (v : Validator δ) :
    ((syncOne X E config f sequence v).1 = .ok true ∧
      (syncOne X E config f sequence v).2.processed = v.processed ++ [sequence] ∧
      (syncOne X E config f sequence v).2.lastSequence = some sequence) ∨
    ((syncOne X E config f sequence v).1 ≠ .ok true ∧
      (syncOne X E config f sequence v).2.processed = v.processed ∧
      (syncOne X E config f sequence v).2.lastSequence = v.lastSequence) := by
  simp only [syncOne]
  split
  · exact .inr ⟨by simp, rfl, rfl⟩
  · exact .inr ⟨by simp, rfl, rfl⟩
  · rename_i message _
    split
    · exact .inr ⟨by simp, rfl, rfl⟩
    · rename_i same
      have hs : message.sequence = sequence := by simpa using same
      have handled := Validator.syncMessage_handles X E config message v
      split
      · rename_i e w failed
        rw [failed] at handled
        obtain ⟨processed, last⟩ := handled.2 e rfl
        exact .inr ⟨by simp, processed, last⟩
      · rename_i w synced
        rw [synced] at handled
        obtain ⟨processed, last⟩ := handled.1 rfl
        exact .inl ⟨rfl, hs ▸ processed, hs ▸ last⟩

theorem syncOne_continues (f : Fetcher) (v w : Validator δ) (h : v.Continues w)
    (range : w.expected < 2 ^ 64) :
    v.Continues (syncOne X E config f w.nextSequence w).2 ∧
      ((syncOne X E config f w.nextSequence w).1 = .ok true →
        w.nextSequence + 1 = (syncOne X E config f w.nextSequence w).2.nextSequence) ∧
      ((syncOne X E config f w.nextSequence w).1 ≠ .ok true →
        w.nextSequence = (syncOne X E config f w.nextSequence w).2.nextSequence) := by
  obtain ⟨ok, processed, last⟩ | ⟨notOk, processed, last⟩ :=
    syncOne_cases X E config f w.nextSequence w
  · refine ⟨?_, ?_, fun notOk => absurd ok notOk⟩
    · apply Validator.continues_trans v w _ h
      refine ⟨1, ?_, ?_⟩
      · simp [processed, nextSequence_toNat w range]
      · rw [Validator.expected_some _ _ last, nextSequence_toNat w range]
    · intro _
      exact (Validator.nextSequence_some _ _ last).symm
  · refine ⟨?_, fun ok => absurd ok notOk, ?_⟩
    · exact Validator.continues_trans v w _ h (Validator.continues_same w _ processed last)
    · intro _
      exact (Validator.nextSequence_congr w _ last).symm

theorem step_inStep (strict : config.gapSkipOnFailure = false) (v : Validator δ) (l : SingleLoop δ)
    (t : Turn) (h : InStep v l) (range : l.InRange) : InStep v (l.step X E config t) := by
  obtain ⟨continues, next⟩ := h
  unfold step
  split
  · exact ⟨continues, next⟩
  · rename_i running
    have hn : l.nextSequence = l.validator.nextSequence := by simpa [running] using next
    have one := syncOne_continues X E config t.fetcher v l.validator continues range
    rw [← hn] at one
    split
    · exact ⟨continues, .inl rfl⟩
    · split
      · rename_i w synced
        rw [synced] at one
        exact ⟨one.1, .inr (one.2.1 rfl)⟩
      · rename_i w waiting
        rw [waiting] at one
        have same := one.2.2 (by simp)
        dsimp only
        split
        · split
          · rw [strict, if_pos (by simp)]
            exact ⟨one.1, .inl rfl⟩
          · exact ⟨one.1, .inr same⟩
        · exact ⟨one.1, .inr same⟩
      · rename_i e w failed
        rw [failed] at one
        exact ⟨one.1, .inr (one.2.2 (by simp))⟩

theorem headStep_inStep (v : Validator δ) (l : SingleLoop δ) (f : Fetcher) (h : InStep v l)
    (range : l.InRange) : InStep v (l.headStep X E config f) := by
  obtain ⟨continues, next⟩ := h
  unfold headStep
  split
  · exact ⟨continues, next⟩
  · rename_i running
    have hn : l.nextSequence = l.validator.nextSequence := by simpa [running] using next
    have one := syncOne_continues X E config f v l.validator continues range
    rw [← hn] at one
    split
    · rename_i w synced
      rw [synced] at one
      exact ⟨one.1, .inr (one.2.1 rfl)⟩
    · rename_i w waiting
      rw [waiting] at one
      exact ⟨one.1, .inl rfl⟩
    · rename_i e w failed
      rw [failed] at one
      exact ⟨one.1, .inl rfl⟩

end SingleLoop

/-- The batched entry points, each with the fallback it takes when the fetcher has no batches. As
long as every batch goes on from the expected number, so does what is processed in every run. -/
theorem processed_messages_contiguous (strict : config.gapSkipOnFailure = false) (v : Validator δ) :
    (∀ index turns, Run.Along (BatchLoop.step X E config) BatchLoop.Orderly
        (BatchLoop.enter v index) turns →
      v.Continues (Run.run (BatchLoop.step X E config) (BatchLoop.enter v index) turns).validator) ∧
    (∀ turns, Run.Along (SingleLoop.step X E config) (fun l _ => l.InRange)
        (SingleLoop.enter v) turns →
      v.Continues (Run.run (SingleLoop.step X E config) (SingleLoop.enter v) turns).validator) ∧
    (∀ batch, v.Follows batch → v.Continues (v.syncBatch X E config batch).2) ∧
    (∀ f batches, f.listBatches = .ok batches →
      Validator.FollowsAll X E config f v (startingAt v.nextSequence batches) →
      v.Continues (v.syncToHeadBatched X E config f).2) ∧
    (∀ fetchers, Run.Along (SingleLoop.headStep X E config) (fun l _ => l.InRange)
        (SingleLoop.enter v) fetchers →
      v.Continues (Run.run (SingleLoop.headStep X E config) (SingleLoop.enter v)
        fetchers).validator) := by
  have started : SingleLoop.InStep v (SingleLoop.enter v) :=
    ⟨Validator.continues_refl v, .inr rfl⟩
  refine ⟨?_, ?_, ?_, ?_, ?_⟩
  · intro index turns along
    apply Run.along_invariant (BatchLoop.step X E config)
      (I := fun l => v.Continues l.validator) (A := BatchLoop.Orderly)
    · intro l t h orderly
      exact Validator.continues_trans v _ _ h (BatchLoop.step_continues X E config l t orderly)
    · exact Validator.continues_refl v
    · exact along
  · intro turns along
    have kept : SingleLoop.InStep v (Run.run (SingleLoop.step X E config) (SingleLoop.enter v)
        turns) := by
      apply Run.along_invariant (SingleLoop.step X E config) (I := SingleLoop.InStep v)
        (A := fun l _ => l.InRange)
      · intro l t h range
        exact SingleLoop.step_inStep X E config strict v l t h range
      · exact started
      · exact along
    exact kept.1
  · intro batch follows
    exact Validator.syncBatch_continues X E config batch v follows
  · intro f batches listed follows
    rw [Validator.syncToHeadBatched, listed]
    exact Validator.syncBatches_continues X E config f v _ follows
  · intro fetchers along
    have kept : SingleLoop.InStep v (Run.run (SingleLoop.headStep X E config) (SingleLoop.enter v)
        fetchers) := by
      apply Run.along_invariant (SingleLoop.headStep X E config) (I := SingleLoop.InStep v)
        (A := fun l _ => l.InRange)
      · intro l f h range
        exact SingleLoop.headStep_inStep X E config v l f h range
      · exact started
      · exact along
    exact kept.1

namespace Sample

open Shared.Sample

def turn (info : BatchInfo) (batch : CborBatch) : Turn := ⟨false, false, fetcher info batch⟩

def ran (info : BatchInfo) (batch : CborBatch) : BatchLoop (List Bytes) :=
  Run.run (BatchLoop.step record.externals engine validatorConfig)
    (BatchLoop.enter freshValidator [info]) [turn info batch]

/-- The batch with messages 0 and 1, through each of the entry points. -/
theorem processed_messages_contiguous_two :
    (ran info01 cborBatch01).validator.processed = [0, 1] ∧
    freshValidator.Continues (ran info01 cborBatch01).validator ∧
    freshValidator.Continues (Run.run (SingleLoop.step record.externals engine validatorConfig)
      (SingleLoop.enter freshValidator) [turn info01 cborBatch01]).validator ∧
    (∀ batch, cborBatch01.toSignedBatch record.externals = .ok batch →
      freshValidator.Continues
        (freshValidator.syncBatch record.externals engine validatorConfig batch).2) ∧
    freshValidator.Continues
      (freshValidator.syncToHeadBatched record.externals engine validatorConfig
      (fetcher info01 cborBatch01)).2 ∧
    freshValidator.Continues (Run.run (SingleLoop.headStep record.externals engine validatorConfig)
      (SingleLoop.enter freshValidator) [fetcher info01 cborBatch01]).validator := by
  obtain ⟨batched, single, sync, toHead, head⟩ :=
    processed_messages_contiguous record.externals engine validatorConfig rfl freshValidator
  have orderly : Run.Along (BatchLoop.step record.externals engine validatorConfig)
      BatchLoop.Orderly (BatchLoop.enter freshValidator [info01]) [turn info01 cborBatch01] := by
    decide +kernel
  have follows : ∀ batch ∈ (cborBatch01.toSignedBatch record.externals).toOption,
      freshValidator.Follows batch := by
    decide +kernel
  refine ⟨by decide +kernel, ?_, ?_, ?_, ?_, ?_⟩
  · exact batched [info01] [turn info01 cborBatch01] orderly
  · exact single [turn info01 cborBatch01] (by decide)
  · intro batch converted
    have mem : batch ∈ (cborBatch01.toSignedBatch record.externals).toOption := by
      rw [converted]
      exact rfl
    exact sync batch (follows batch mem)
  · have reached := toHead (fetcher info01 cborBatch01) [info01] rfl
    apply reached
    decide +kernel
  · exact head [fetcher info01 cborBatch01] (by decide)

/-- A batch with messages 0 and 2 that the sequencer signed: `run_batched` processes 2 after 0. -/
theorem batch_with_hole_is_processed :
    (ran info02 cborBatch02).validator.processed = [0, 2] ∧
      (ran info02 cborBatch02).validator.lastSequence = some 2 ∧
      ¬ freshValidator.Continues (ran info02 cborBatch02).validator := by
  have processed : (ran info02 cborBatch02).validator.processed = [0, 2] := by decide +kernel
  have last : (ran info02 cborBatch02).validator.lastSequence = some 2 := by decide +kernel
  refine ⟨processed, last, ?_⟩
  intro h
  obtain ⟨k, numbers, expected⟩ := h
  rw [Validator.expected_some _ _ last] at expected
  have three : k = 3 := by
    have start : freshValidator.expected = 0 := rfl
    rw [start] at expected
    simpa using expected.symm
  rw [processed, three] at numbers
  revert numbers
  decide

end Sample

end SyndDB.Replication
