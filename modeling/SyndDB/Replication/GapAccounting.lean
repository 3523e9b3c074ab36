import SyndDB.Replication.Progress
import SyndDB.Replication.Contiguity
import SyndDB.Replication.Replay

namespace SyndDB.Replication

open Octets Shared

variable {δ : Type} (X : Externals) (E : Engine δ) (config : ValidatorConfig)

namespace Validator

/-- The number lies in a recorded gap, which ends before its second bound. -/
def Recorded (v : Validator δ) (n : Nat) : Prop := ∃ g ∈ v.gaps, g.1.toNat ≤ n ∧ n < g.2.toNat

instance (v : Validator δ) (n : Nat) : Decidable (v.Recorded n) :=
  inferInstanceAs (Decidable (∃ g ∈ v.gaps, _))

/-- A message with the number was applied or stored as pending. -/
def Processed (v : Validator δ) (n : Nat) : Prop := n ∈ v.processed.map UInt64.toNat

instance (v : Validator δ) (n : Nat) : Decidable (v.Processed n) :=
  inferInstanceAs (Decidable (n ∈ v.processed.map UInt64.toNat))

/-- The message may be processed next: its number has a successor and is not accounted for as
missing, and the numbers it leaves out are. -/
def TakesNext (v : Validator δ) (next sequence : UInt64) : Prop :=
  sequence ≠ u64Max ∧ ¬v.Recorded sequence.toNat ∧
    ∀ n < sequence.toNat, next.toNat ≤ n → v.Recorded n

instance (v : Validator δ) (next sequence : UInt64) : Decidable (v.TakesNext next sequence) :=
  inferInstanceAs (Decidable (_ ∧ _ ∧ _))

/-- What holds of the validator after a message that did not fail. -/
def OnSuccess (P : Validator δ → Prop) : Except ValidatorError Unit × Validator δ → Prop
  | (.ok (), w) => P w
  | (.error _, _) => True

instance (P : Validator δ → Prop) [∀ w, Decidable (P w)]
    (r : Except ValidatorError Unit × Validator δ) : Decidable (OnSuccess P r) :=
  match r with
  | (.ok (), w) => inferInstanceAs (Decidable (P w))
  | (.error _, _) => inferInstanceAs (Decidable True)

/-- Every message of a batch that `run_batched` processes may be processed next. -/
def Fits : UInt64 → Validator δ → List SignedMessage → Prop
  | _, _, [] => True
  | next, v, message :: rest =>
      if message.sequence < next then Fits next v rest
      else OnSuccess (fun w => v.TakesNext next message.sequence ∧
        Fits (message.sequence + 1) w rest) (v.runMessage X E config message)

instance decidableFits (next : UInt64) (v : Validator δ) (messages : List SignedMessage) :
    Decidable (v.Fits X E config next messages) :=
  match messages with
  | [] => inferInstanceAs (Decidable True)
  | message :: rest =>
      have := decidableFits next v rest
      have := fun w : Validator δ => decidableFits (message.sequence + 1) w rest
      inferInstanceAs (Decidable (if message.sequence < next then v.Fits X E config next rest
        else OnSuccess (fun w => v.TakesNext next message.sequence ∧
            w.Fits X E config (message.sequence + 1) rest)
          (v.runMessage X E config message)))

/-- Every number below `next` is accounted for once, and the progress on record is not beyond. -/
structure Accounts (v : Validator δ) (next : UInt64) : Prop where
  covered : ∀ n < next.toNat, v.Processed n ∨ v.Recorded n
  apart : ∀ n, v.Processed n → ¬v.Recorded n
  behind : ∀ n, v.Processed n → n < v.expected
  reached : v.expected ≤ next.toNat

theorem recorded_congr (v w : Validator δ) (n : Nat) (gaps : w.gaps = v.gaps) :
    w.Recorded n ↔ v.Recorded n := by
  rw [Recorded, Recorded, gaps]

theorem accounts_same (v w : Validator δ) (next : UInt64) (h : v.Accounts next)
    (processed : w.processed = v.processed) (gaps : w.gaps = v.gaps)
    (last : w.lastSequence = v.lastSequence) : w.Accounts next := by
  have done (n : Nat) : w.Processed n ↔ v.Processed n := by rw [Processed, Processed, processed]
  have missing (n : Nat) := recorded_congr v w n gaps
  have expected : w.expected = v.expected := by rw [Validator.expected, Validator.expected, last]
  constructor
  · intro n hn
    rw [done, missing]
    exact h.covered n hn
  · intro n hp
    rw [missing]
    exact h.apart n ((done n).mp hp)
  · intro n hp
    rw [expected]
    exact h.behind n ((done n).mp hp)
  · rw [expected]
    exact h.reached

/-- A message that may be processed next has been. -/
theorem accounts_message (v w : Validator δ) (next sequence : UInt64) (h : v.Accounts next)
    (takes : v.TakesNext next sequence) (skipped : ¬sequence < next)
    (processed : w.processed = v.processed ++ [sequence]) (gaps : w.gaps = v.gaps)
    (last : w.lastSequence = some sequence) : w.Accounts (sequence + 1) := by
  obtain ⟨bounded, fresh, between⟩ := takes
  have bump := succ_toNat sequence bounded
  have reached : next.toNat ≤ sequence.toNat := by
    rw [UInt64.lt_iff_toNat_lt] at skipped
    omega
  have done (n : Nat) : w.Processed n ↔ v.Processed n ∨ n = sequence.toNat := by
    simp [Processed, processed]
  have missing (n : Nat) := recorded_congr v w n gaps
  have expected := expected_some w sequence last
  constructor
  · intro n hn
    rw [done, missing]
    by_cases before : n < next.toNat
    · rcases h.covered n before with hp | hr
      · exact .inl (.inl hp)
      · exact .inr hr
    · by_cases this : n = sequence.toNat
      · exact .inl (.inr this)
      · exact .inr (between n (by omega) (by omega))
  · intro n hp
    rw [missing]
    rcases (done n).mp hp with hp | rfl
    · exact h.apart n hp
    · exact fresh
  · intro n hp
    rw [expected]
    rcases (done n).mp hp with hp | rfl
    · have old := h.behind n hp
      have progress := h.reached
      omega
    · omega
  · omega

/-- A gap has been recorded and skipped. -/
theorem accounts_gap (v : Validator δ) (next gapEnd : UInt64) (h : v.Accounts next)
    (forward : next ≤ gapEnd) :
    { v with gaps := v.gaps ++ [(next, gapEnd)] }.Accounts gapEnd := by
  rw [UInt64.le_iff_toNat_le] at forward
  have missing (n : Nat) : { v with gaps := v.gaps ++ [(next, gapEnd)] }.Recorded n ↔
      v.Recorded n ∨ (next.toNat ≤ n ∧ n < gapEnd.toNat) := by
    simp [Recorded, or_and_right, exists_or]
  constructor
  · intro n hn
    rw [missing]
    by_cases before : n < next.toNat
    · rcases h.covered n before with hp | hr
      · exact .inl hp
      · exact .inr (.inl hr)
    · exact .inr (.inr ⟨by omega, hn⟩)
  · intro n hp
    rw [missing]
    intro recorded
    rcases recorded with old | new
    · exact h.apart n hp old
    · have done := h.behind n hp
      have progress := h.reached
      omega
  · exact h.behind
  · exact Nat.le_trans h.reached forward

/-- A restart goes back to the persisted sequence. -/
theorem accounts_restart (v : Validator δ) (next : UInt64) (h : v.Accounts next) :
    v.Accounts v.nextSequence := by
  have limit := next.toNat_lt
  have progress := h.reached
  have resumed := SingleLoop.nextSequence_toNat v (by omega)
  constructor
  · intro n hn
    exact h.covered n (by omega)
  · exact h.apart
  · exact h.behind
  · omega

theorem ignoresGaps_gaps
    {f : SignedMessage → Validator δ → Except ValidatorError Unit × Validator δ}
    (h : IgnoresGaps f) (m : SignedMessage) (v : Validator δ) : (f m v).2.gaps = v.gaps := by
  have same := h m v v.gaps
  exact congrArg (fun r => r.2.gaps) same

theorem runMessages_accounts (next : UInt64) (v : Validator δ) (messages : List SignedMessage)
    (h : v.Accounts next) (fits : v.Fits X E config next messages) :
    (v.runMessages X E config next messages).2.2.Accounts
      (v.runMessages X E config next messages).2.1 := by
  induction messages generalizing next v with
  | nil => exact h
  | cons message rest ih =>
    by_cases skipped : message.sequence < next
    · simp only [runMessages, if_pos skipped]
      rw [Fits, if_pos skipped] at fits
      exact ih next v h fits
    · simp only [runMessages, if_neg skipped]
      rw [Fits, if_neg skipped] at fits
      have handled := runMessage_handles X E config message v
      have gaps := ignoresGaps_gaps (runMessage_gaps X E config) message v
      split
      · rename_i e w failed
        rw [failed] at handled gaps
        obtain ⟨processed, last⟩ := handled.2 e rfl
        exact accounts_same v w next h processed gaps last
      · rename_i w ran
        rw [ran] at handled gaps fits
        obtain ⟨processed, last⟩ := handled.1 rfl
        exact ih _ w (accounts_message v w next message.sequence h fits.1 skipped processed
          gaps last) fits.2

end Validator

namespace BatchLoop

/-- A batch with a valid signature fits in. -/
def Careful (l : BatchLoop δ) (t : Turn) : Prop :=
  ∀ batch ∈ l.fetched t, batch.verifyBatchSignature X = .ok () →
    l.validator.Fits X E config l.nextSequence batch.messages

instance (l : BatchLoop δ) (t : Turn) : Decidable (l.Careful X E config t) :=
  inferInstanceAs (Decidable (∀ batch ∈ l.fetched t, batch.verifyBatchSignature X = .ok () →
    l.validator.Fits X E config l.nextSequence batch.messages))

/-- A turn that finds neither a batch nor a gap goes nowhere. -/
theorem step_rests (l : BatchLoop δ) (t : Turn) (hb : l.fetched t = none) (ha : l.ahead t = none) :
    (l.step X E config t).validator = l.validator ∧
      (l.step X E config t).nextSequence = l.nextSequence := by
  by_cases ended : l.status.isSome
  · simp [step, ended]
  · by_cases down : t.shutdown
    · simp [step, ended, down]
    · cases found : findBatchContaining (l.refresh t).index l.nextSequence with
      | some info =>
        cases answer : t.fetcher.getBatchByPath info.path with
        | error e => simp [step, ended, down, found, answer]
        | ok result =>
          have missing : result = none := by simpa [fetched, ended, down, found, answer] using hb
          simp [step, ended, down, found, answer, missing]
      | none =>
        have nothing :
            findFirstBatchStartingAtOrAfter (l.refresh t).index l.nextSequence = none := by
          simpa [ahead, ended, down, found] using ha
        simp [step, ended, down, found, nothing]

theorem step_accounts (l : BatchLoop δ) (t : Turn) (h : l.validator.Accounts l.nextSequence)
    (careful : l.Careful X E config t) :
    (l.step X E config t).validator.Accounts (l.step X E config t).nextSequence := by
  cases hb : l.fetched t with
  | some batch =>
    rw [l.step_fetched X E config t batch hb, processBatch, refresh_validator, refresh_nextSequence]
    split
    · exact h
    · rename_i signed
      have ran := Validator.runMessages_accounts X E config l.nextSequence l.validator
        batch.messages h (careful batch hb signed)
      split
      · rename_i stopped
        rw [stopped] at ran
        exact ran
      · rename_i passed
        rw [passed] at ran
        exact ran
  | none =>
    cases ha : l.ahead t with
    | none =>
      obtain ⟨validator, next⟩ := l.step_rests X E config t hb ha
      rw [validator, next]
      exact h
    | some later =>
      have forward := l.ahead_start t later ha
      rw [l.step_ahead X E config t later ha, onGap, refresh_validator, refresh_nextSequence]
      split
      · exact h
      · split
        · exact Validator.accounts_gap l.validator l.nextSequence later.startSequence h forward
        · exact h

end BatchLoop

namespace SingleLoop

/-- The message that is synced may be processed next, and the bounds of a gap that is skipped
can be recorded. -/
def Careful (l : SingleLoop δ) (t : Turn) : Prop :=
  l.status.isSome = false → t.shutdown = false →
    ((syncOne X E config t.fetcher l.nextSequence l.validator).1 = .ok true →
      l.validator.TakesNext l.nextSequence l.nextSequence) ∧
    ((syncOne X E config t.fetcher l.nextSequence l.validator).1 = .ok false →
      config.gapSkipOnFailure = true → config.gapRetryCount ≤ l.notFoundCount + 1 →
      ∀ available ∈ detectGap t.fetcher l.nextSequence,
        PendingStore.bindable l.nextSequence = true ∧ PendingStore.bindable available = true)

theorem syncOne_gaps (f : Fetcher) (sequence : UInt64) (v : Validator δ) :
    (syncOne X E config f sequence v).2.gaps = v.gaps := by
  simp only [syncOne]
  split
  · rfl
  · rfl
  · rename_i message _
    have gaps := Validator.ignoresGaps_gaps (syncMessage_gaps X E config) message v
    split
    · rfl
    · split
      · rename_i failed
        rw [failed] at gaps
        exact gaps
      · rename_i synced
        rw [synced] at gaps
        exact gaps

/-- A gap below `2 ^ 63` is skipped forwards. -/
theorem detectGap_forward (f : Fetcher) (next available : UInt64)
    (bound : PendingStore.bindable next = true) (h : detectGap f next = some available) :
    next ≤ available := by
  have low : next.toNat < 2 ^ 63 := by simpa [PendingStore.bindable] using bound
  rw [UInt64.le_iff_toNat_le]
  unfold detectGap at h
  split at h
  · rename_i found near
    cases h
    obtain ⟨offset, hoffset, same⟩ := List.mem_map.mp (List.mem_of_find?_eq_some near)
    have upper := (List.mem_range'_1.mp hoffset).2
    rw [← same, Storage.offset_toNat next offset (by omega)]
    omega
  · split at h
    · split at h
      · cases h
        rw [UInt64.toNat_add]
        have one : (1 : UInt64).toNat = 1 := rfl
        omega
      · cases h
    · cases h

theorem skipGap_accounts (l : SingleLoop δ) (available : UInt64)
    (h : l.validator.Accounts l.nextSequence) (forward : l.nextSequence ≤ available)
    (bound : (PendingStore.bindable l.nextSequence && PendingStore.bindable available) = true) :
    (l.skipGap available).validator.Accounts (l.skipGap available).nextSequence := by
  rw [skipGap]
  simp only [bound, if_true]
  exact Validator.accounts_gap l.validator l.nextSequence available h forward

theorem step_accounts (l : SingleLoop δ) (t : Turn) (h : l.validator.Accounts l.nextSequence)
    (careful : l.Careful X E config t) :
    (l.step X E config t).validator.Accounts (l.step X E config t).nextSequence := by
  by_cases ended : l.status.isSome
  · rw [step, if_pos ended]
    exact h
  · by_cases down : t.shutdown
    · rw [step, if_neg ended, if_pos down]
      exact h
    · obtain ⟨syncs, skips⟩ := careful (by simpa using ended) (by simpa using down)
      have gaps := syncOne_gaps X E config t.fetcher l.nextSequence l.validator
      have outcome := syncOne_cases X E config t.fetcher l.nextSequence l.validator
      rw [step, if_neg ended, if_neg down]
      cases result : syncOne X E config t.fetcher l.nextSequence l.validator with
      | mk answer w =>
        rw [result] at gaps outcome syncs skips
        rcases outcome with ⟨synced, processed, last⟩ | ⟨unsynced, processed, last⟩
        · cases synced
          exact Validator.accounts_message l.validator w l.nextSequence l.nextSequence h (syncs rfl)
            (UInt64.lt_irrefl _) processed gaps last
        · have same := Validator.accounts_same l.validator w l.nextSequence h processed gaps last
          cases answer with
          | error e => exact same
          | ok found =>
            cases found with
            | true => exact absurd rfl unsynced
            | false =>
              dsimp only
              split
              · rename_i patient
                split
                · rename_i available detected
                  split
                  · exact same
                  · rename_i skipping
                    obtain ⟨here, there⟩ := skips rfl (by simpa using skipping) patient available
                      detected
                    exact skipGap_accounts _ available same
                      (detectGap_forward t.fetcher _ available here detected)
                      (by simp [here, there])
                · exact same
              · exact same

end SingleLoop

/-- A validator runs one of the two loops. -/
inductive SyncLoop (δ : Type) where
  | batched (l : BatchLoop δ)
  | single (l : SingleLoop δ)

/-- An iteration, or a stop between two iterations and a start in one of the two modes. -/
inductive Happening where
  | turn (t : Turn)
  | startBatched (index : List BatchInfo)
  | startSingle

namespace SyncLoop

def validator : SyncLoop δ → Validator δ
  | .batched l => l.validator
  | .single l => l.validator

def nextSequence : SyncLoop δ → UInt64
  | .batched l => l.nextSequence
  | .single l => l.nextSequence

/-- A new state database, next to replica databases of any content. -/
def fresh (databases : Databases δ) : SyncLoop δ := .single (.enter ⟨databases, none, [], [], []⟩)

def step (l : SyncLoop δ) : Happening → SyncLoop δ
  | .turn t =>
      match l with
      | .batched l => .batched (l.step X E config t)
      | .single l => .single (l.step X E config t)
  | .startBatched index => .batched (.enter l.validator index)
  | .startSingle => .single (.enter l.validator)

def Careful (l : SyncLoop δ) : Happening → Prop
  | .turn t =>
      match l with
      | .batched l => l.Careful X E config t
      | .single l => l.Careful X E config t
  | .startBatched _ | .startSingle => True

theorem step_accounts (l : SyncLoop δ) (e : Happening) (h : l.validator.Accounts l.nextSequence)
    (careful : l.Careful X E config e) :
    (l.step X E config e).validator.Accounts (l.step X E config e).nextSequence := by
  cases e with
  | turn t =>
    cases l with
    | batched l => exact l.step_accounts X E config t h careful
    | single l => exact l.step_accounts X E config t h careful
  | startBatched index => exact Validator.accounts_restart l.validator l.nextSequence h
  | startSingle => exact Validator.accounts_restart l.validator l.nextSequence h

theorem fresh_accounts (databases : Databases δ) :
    (fresh databases).validator.Accounts (fresh databases).nextSequence := by
  constructor
  · intro n hn
    simp [fresh, nextSequence, SingleLoop.enter, Validator.nextSequence] at hn
  · intro n hp
    simp [fresh, validator, SingleLoop.enter, Validator.Processed] at hp
  · intro n hp
    simp [fresh, validator, SingleLoop.enter, Validator.Processed] at hp
  · simp [fresh, validator, SingleLoop.enter, Validator.expected]

/-- While every message processed fits in and every gap skipped is recorded, each number below the
next sequence was processed or lies in a recorded gap, and no number is both: in each of the two
loops and across restarts, on any storage. -/
theorem sequence_numbers_accounted (X : Externals) (E : Engine δ) (config : ValidatorConfig)
    (databases : Databases δ) (es : List Happening)
    (along : Run.Along (step X E config) (fun l e => l.Careful X E config e) (fresh databases) es) :
    let l := Run.run (step X E config) (fresh databases) es
    (∀ n < l.nextSequence.toNat, l.validator.Processed n ∨ l.validator.Recorded n) ∧
      ∀ n, ¬(l.validator.Processed n ∧ l.validator.Recorded n) := by
  intro l
  have accounts : l.validator.Accounts l.nextSequence :=
    Run.along_invariant (step X E config)
      (I := fun l => l.validator.Accounts l.nextSequence)
      (fun l e h careful => l.step_accounts X E config e h careful) (fresh databases) es
      (fresh_accounts databases) along
  exact ⟨accounts.covered, fun n both => accounts.apart n both.1 both.2⟩

end SyncLoop

namespace Sample

open Shared.Sample

/-- Gaps are skipped. -/
def skippingConfig : ValidatorConfig := { validatorConfig with gapSkipOnFailure := true }

/-- The index of a storage whose batch for 2 is missing. -/
def index : List BatchInfo := [info01, ⟨3, 5, "batches/000000000003_000000000005.cbor.zst"⟩]

/-- A fresh validator works on the batch with messages 0 and 1, and skips 2. -/
theorem sequence_numbers_accounted_gap :
    let l := Run.run (SyncLoop.step record.externals engine skippingConfig)
      (SyncLoop.fresh ⟨[], []⟩) [.startBatched index, .turn turn01, .turn turn01]
    (l.validator.Processed 1 ∧ l.validator.Recorded 2) ∧
      (∀ n < l.nextSequence.toNat, l.validator.Processed n ∨ l.validator.Recorded n) ∧
      ∀ n, ¬(l.validator.Processed n ∧ l.validator.Recorded n) := by
  have fits : (BatchLoop.enter freshValidator index).Careful record.externals engine skippingConfig
      turn01 := by
    decide +kernel
  have skips : ((BatchLoop.enter freshValidator index).step record.externals engine skippingConfig
      turn01).Careful record.externals engine skippingConfig turn01 := by
    decide +kernel
  refine ⟨by decide +kernel, ?_⟩
  exact SyncLoop.sequence_numbers_accounted record.externals engine skippingConfig ⟨[], []⟩ _
    ⟨trivial, fits, skips, trivial⟩

/-- The signed batch for 0 to 2 holds messages 0 and 2 only: after it 1 is neither processed nor
in a recorded gap. -/
theorem hole_is_not_recorded :
    let l := Run.run (SyncLoop.step record.externals engine skippingConfig)
      (SyncLoop.fresh ⟨[], []⟩)
      [.startBatched [info02], .turn ⟨false, false, fetcher info02 cborBatch02⟩]
    1 < l.nextSequence.toNat ∧ ¬l.validator.Processed 1 ∧ ¬l.validator.Recorded 1 := by
  decide +kernel

end Sample

end SyndDB.Replication
