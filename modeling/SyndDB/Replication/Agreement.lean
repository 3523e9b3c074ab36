import SyndDB.Framework.Run
import SyndDB.Replication.HashOrder

namespace SyndDB.Replication

open Octets Shared

variable {δ : Type}

def BatchLoop.standing (l : BatchLoop δ) : Standing δ := l.validator.standing l.nextSequence

def SingleLoop.standing (l : SingleLoop δ) : Standing δ := l.validator.standing l.nextSequence

namespace Storage

variable {X : Externals} {config : ValidatorConfig} (S : Storage X config) (E : Engine δ)

def index : List BatchInfo := S.batches.map Stored.info

/-- Turns in which the loop is not shut down and finds the storage. -/
def Serves (t : Turn) : Prop := t.shutdown = false ∧ t.fetcher = S.fetcher

abbrev BatchSettles (n : Nat) (l : BatchLoop δ) (d : Standing δ) : Prop :=
  Run.Settles (BatchLoop.step X E config) S.Serves BatchLoop.standing n l d

abbrev SingleSettles (n : Nat) (l : SingleLoop δ) (d : Standing δ) : Prop :=
  Run.Settles (SingleLoop.step X E config) S.Serves SingleLoop.standing n l d

/-- Both loops, each with its own engine and run until they make no more progress, stop at
the same standing. -/
def Agree (E E' : Engine δ) (v : Validator δ) : Prop :=
  ∃ d n m, S.BatchSettles E n (BatchLoop.enter v S.index) d ∧
    S.SingleSettles E' m (SingleLoop.enter v) d

theorem refresh_serves (l : BatchLoop δ) (t : Turn) (ht : S.Serves t) (h : l.index = S.index) :
    ∃ caughtUp, l.refresh t = { l with caughtUp := caughtUp } := by
  have listed : t.fetcher.listBatches = .ok S.index := by
    rw [ht.2]
    rfl
  unfold BatchLoop.refresh
  split
  · simp only [listed, ← h]
    exact ⟨_, rfl⟩
  · exact ⟨l.caughtUp, rfl⟩

theorem batch_stopped (l : BatchLoop δ) (h : l.status.isSome = true) :
    S.BatchSettles E 0 l l.standing := by
  apply Run.settles_of_invariant _ _ _ (fun l' => l' = l)
  · rintro l' t rfl _
    simp [BatchLoop.step, h]
  · rintro l' rfl
    rfl
  · rfl

/-- There is no batch to work on and no gap that may be skipped. -/
def BatchRests (next : UInt64) : Prop :=
  findBatchContaining S.index next = none ∧
    ∀ later, findFirstBatchStartingAtOrAfter S.index next = some later →
      config.gapSkipOnFailure = true →
      ¬ (PendingStore.bindable next && PendingStore.bindable later.startSequence) = true

theorem batch_rests (l : BatchLoop δ) (hindex : l.index = S.index)
    (h : S.BatchRests l.nextSequence) : S.BatchSettles E 0 l l.standing := by
  apply Run.settles_of_invariant _ _ _ (fun l' => l'.index = S.index ∧
    l'.nextSequence = l.nextSequence ∧ l'.validator = l.validator)
  · rintro l' t ⟨hindex', hnext, hvalidator⟩ ht
    by_cases ended : l'.status.isSome
    · simpa [BatchLoop.step, ended] using ⟨hindex', hnext, hvalidator⟩
    · obtain ⟨caughtUp, refreshed⟩ := S.refresh_serves l' t ht hindex'
      have absent : findBatchContaining S.index l'.nextSequence = none := by rw [hnext]; exact h.1
      simp only [BatchLoop.step, ended, ht.1, refreshed, hindex', absent, Bool.false_eq_true,
        if_false]
      cases later : findFirstBatchStartingAtOrAfter S.index l'.nextSequence with
      | none => exact ⟨rfl, hnext, hvalidator⟩
      | some info =>
        rw [hnext] at later
        have closed := h.2 info later
        simp only [BatchLoop.onGap, hnext]
        by_cases skip : config.gapSkipOnFailure = true
        · simp [skip, closed skip, hvalidator]
        · simp [skip, hvalidator]
  · rintro l' ⟨-, hnext, hvalidator⟩
    rw [BatchLoop.standing, BatchLoop.standing, hnext, hvalidator]
  · exact ⟨hindex, rfl, rfl⟩

/-- Past the last message, or ahead of the first without leave to skip, the loop rests. -/
theorem batchRests_past (next : UInt64) (h : S.stop ≤ next.toNat) : S.BatchRests next := by
  refine ⟨findBatchContaining_outside S.first S.batches S.chained next (.inr h), ?_⟩
  intro later found
  rw [index, findFirst_past S.first S.batches S.chained next h] at found
  cases found

theorem batchRests_before (next : UInt64) (before : next.toNat < S.first)
    (h : config.gapSkipOnFailure = true → 2 ^ 63 ≤ S.first) : S.BatchRests next := by
  refine ⟨findBatchContaining_outside S.first S.batches S.chained next (.inl before), ?_⟩
  intro later found skip
  have large := h skip
  cases hb : S.batches with
  | nil => simp [index, hb, findFirstBatchStartingAtOrAfter] at found
  | cons s rest =>
    have chained := S.chained
    rw [index, hb, findFirst_before S.first s rest (hb ▸ chained) next before] at found
    cases found
    have start : s.batch.startSequence.toNat = S.first := by
      rw [hb] at chained
      exact chained.2.2.1
    have unbindable : PendingStore.bindable s.info.startSequence = false := by
      have same : s.info.startSequence = s.batch.startSequence := rfl
      simp only [PendingStore.bindable, same, start, decide_eq_false_iff_not]
      omega
    simp [unbindable]

/-- Where all messages have been handled the loop rests, also if the number has wrapped around. -/
theorem batchRests_stop (nonempty : S.batches ≠ []) (next : UInt64)
    (h : next.toNat = S.stop % 2 ^ 64) : S.BatchRests next := by
  have fits := S.fits
  by_cases small : S.stop < 2 ^ 64
  · rw [Nat.mod_eq_of_lt small] at h
    exact S.batchRests_past next (by omega)
  · have exact_stop : S.stop = 2 ^ 64 := by
      have := S.stop_le nonempty
      omega
    rw [exact_stop, Nat.mod_self] at h
    rw [stop] at exact_stop
    apply S.batchRests_before next
    · omega
    · intro _
      omega

theorem runMessages_skip (next : UInt64) (v : Validator δ) (skipped ms : List SignedMessage)
    (h : ∀ m ∈ skipped, m.sequence < next) :
    v.runMessages X E config next (skipped ++ ms) = v.runMessages X E config next ms := by
  induction skipped with
  | nil => rfl
  | cons m rest ih =>
    rw [List.cons_append, Validator.runMessages, if_pos (h m (by simp))]
    exact ih fun m' hm' => h m' (by simp [hm'])

theorem runMessages_eq_replay (n : Nat) (next : UInt64) (v : Validator δ) (ms : List SignedMessage)
    (numbered : Numbered n ms) (start : ms ≠ [] → next.toNat = n) :
    v.runMessages X E config next ms = replay (Validator.runMessage X E config) next v ms := by
  induction ms generalizing n next v with
  | nil => rfl
  | cons m rest ih =>
    obtain ⟨number, tail⟩ := (numbered_cons n m rest).mp numbered
    have here : next = m.sequence := by
      rw [← UInt64.toNat_inj, number]
      exact start (by simp)
    have not_before : ¬ m.sequence < next := by
      rw [here]
      exact UInt64.lt_irrefl _
    rw [Validator.runMessages, if_neg not_before, replay]
    cases handled : v.runMessage X E config m with
    | mk result w =>
      cases result with
      | error e => simp only [here]
      | ok =>
        apply ih (n + 1) (m.sequence + 1) w tail
        intro more
        obtain ⟨m', rest', rfl⟩ := List.exists_cons_of_ne_nil more
        have number' := ((numbered_cons (n + 1) m' rest').mp tail).1
        have bound := m'.sequence.toNat_lt
        rw [UInt64.toNat_add, UInt64.toNat_one, number, Nat.mod_eq_of_lt (by omega)]

/-- A turn that finds the batch works through the messages left in it. -/
theorem batch_step (pre : List Stored) (s : Stored) (post : List Stored)
    (split : S.batches = pre ++ s :: post) (skipped ms : List SignedMessage)
    (own : s.batch.messages = skipped ++ ms) (more : ms ≠ []) (l : BatchLoop δ)
    (hindex : l.index = S.index) (running : l.status = none)
    (here : l.nextSequence.toNat = S.first + (messages pre).length + skipped.length) (t : Turn)
    (ht : S.Serves t) :
    ∃ l', l.step X E config t = l' ∧ l'.index = S.index ∧
      match replay (Validator.runMessage X E config) l.nextSequence l.validator ms with
      | (.error e, next, v) => l'.status = some (.error e) ∧ l'.nextSequence = next ∧
          l'.validator = v
      | (.ok (), next, v) => l'.status = none ∧ l'.nextSequence = next ∧ l'.validator = v := by
  have chained := S.chained
  have paths := S.paths
  rw [split] at chained paths
  obtain ⟨-, numbered, start, finish⟩ := chained_at S.first pre s post chained
  have length : s.batch.messages.length = skipped.length + ms.length := by
    rw [own, List.length_append]
  have positive := List.length_pos_iff.mpr more
  rw [own, numbered_append] at numbered
  obtain ⟨caughtUp, refreshed⟩ := S.refresh_serves l t ht hindex
  have found : findBatchContaining S.index l.nextSequence = some s.info := by
    rw [index, split]
    exact findBatchContaining_at S.first pre s post chained l.nextSequence (by omega) (by omega)
  have answer : t.fetcher.getBatchByPath s.info.path = .ok (some s.batch) := by
    rw [ht.2, fetcher, split]
    exact getBatchByPath_eq pre s post paths
  have signed : s.batch.verifyBatchSignature X = .ok () := S.signedBatches s (by simp [split])
  have earlier : ∀ m ∈ skipped, m.sequence < l.nextSequence := by
    intro m hm
    have bounds := numbered_mem _ skipped m numbered.1 hm
    rw [UInt64.lt_iff_toNat_lt]
    omega
  have handled : l.validator.runMessages X E config l.nextSequence s.batch.messages =
      replay (Validator.runMessage X E config) l.nextSequence l.validator ms := by
    rw [own, runMessages_skip E _ _ _ _ earlier]
    exact runMessages_eq_replay E _ _ _ ms numbered.2 fun _ => here
  refine ⟨_, rfl, ?_⟩
  simp only [BatchLoop.step, running, ht.1, refreshed, hindex, found, answer, Option.isSome_none,
    Bool.false_eq_true, if_false, BatchLoop.processBatch, signed, handled]
  cases replay (Validator.runMessage X E config) l.nextSequence l.validator ms with
  | mk result rest =>
    cases result with
    | error e => exact ⟨rfl, rfl, rfl, rfl⟩
    | ok => exact ⟨rfl, rfl, rfl, rfl⟩

/-- One batch: the loop either ends in it or goes on behind it. -/
theorem batch_settles_step (pre : List Stored) (s : Stored) (post : List Stored)
    (split : S.batches = pre ++ s :: post) (skipped ms : List SignedMessage)
    (own : s.batch.messages = skipped ++ ms) (more : ms ≠ []) (l : BatchLoop δ)
    (hindex : l.index = S.index) (running : l.status = none)
    (here : l.nextSequence.toNat = S.first + (messages pre).length + skipped.length) (n : Nat)
    (after : ∀ l' : BatchLoop δ, l'.index = S.index → l'.status = none →
      l'.nextSequence.toNat = (S.first + (messages (pre ++ [s])).length) % 2 ^ 64 →
      S.BatchSettles E n l' (reaches (Validator.runMessage X E config) l'.nextSequence l'.validator
        (messages post))) :
    S.BatchSettles E (n + 1) l
      (reaches (Validator.runMessage X E config) l.nextSequence l.validator
        (ms ++ messages post)) := by
  apply Run.settles_step
  intro t ht
  obtain ⟨l', hl', hindex', result⟩ :=
    S.batch_step E pre s post split skipped ms own more l hindex running here t ht
  rw [hl', reaches, replay_append]
  cases handled : replay (Validator.runMessage X E config) l.nextSequence l.validator ms with
  | mk outcome rest =>
    obtain ⟨next, v⟩ := rest
    rw [handled] at result
    cases outcome with
    | error e =>
      obtain ⟨ended, rfl, rfl⟩ := result
      apply Run.settles_mono _ _ _ 0 _ _ _ (Nat.zero_le _)
      exact S.batch_stopped E l' (by simp [ended])
    | ok =>
      obtain ⟨running', rfl, rfl⟩ := result
      apply after l' hindex' running'
      have numbered := (chained_at S.first pre s post (split ▸ S.chained)).2.1
      rw [own, numbered_append] at numbered
      have bound := l.nextSequence.toNat_lt
      have complete := replay_complete (Validator.runMessage X E config) _ l.nextSequence
        l.validator ms numbered.2 (by rw [here, Nat.mod_eq_of_lt (by omega)]) (by rw [handled])
      rw [handled] at complete
      have length : (messages (pre ++ [s])).length =
          (messages pre).length + (skipped.length + ms.length) := by
        simp [messages, own]
      rw [complete, length]
      simp only [Nat.add_assoc]

/-- From a stored number on, the batch loop settles where the messages lead. -/
theorem batch_settles (post : List Stored) (pre : List Stored) (s : Stored)
    (split : S.batches = pre ++ s :: post) (skipped ms : List SignedMessage)
    (own : s.batch.messages = skipped ++ ms) (more : ms ≠ []) (l : BatchLoop δ)
    (hindex : l.index = S.index) (running : l.status = none)
    (here : l.nextSequence.toNat = S.first + (messages pre).length + skipped.length) :
    S.BatchSettles E (post.length + 1) l
      (reaches (Validator.runMessage X E config) l.nextSequence l.validator
        (ms ++ messages post)) := by
  induction post generalizing pre s skipped ms l with
  | nil =>
    apply S.batch_settles_step E pre s [] split skipped ms own more l hindex running here
    intro l' hindex' _ here'
    apply S.batch_rests E l' hindex'
    apply S.batchRests_stop (by simp [split])
    rw [here', stop, split]
  | cons s' post ih =>
    apply S.batch_settles_step E pre s (s' :: post) split skipped ms own more l hindex running here
    intro l' hindex' running' here'
    have split' : S.batches = (pre ++ [s]) ++ s' :: post := by simp [split]
    obtain ⟨more', -, start, -⟩ := chained_at S.first (pre ++ [s]) s' post (split' ▸ S.chained)
    have bound := s'.batch.startSequence.toNat_lt
    apply ih (pre ++ [s]) s' split' [] s'.batch.messages rfl more' l' hindex' running'
    rw [here', Nat.mod_eq_of_lt (by omega)]
    rfl

/-- A message that fails is tried again and again. -/
theorem single_stuck (l : SingleLoop δ) (running : l.status = none) (m : SignedMessage)
    (e : ValidatorError) (answer : S.fetcher.get l.nextSequence = .ok (some m))
    (here : m.sequence = l.nextSequence)
    (fails : l.validator.syncMessage X E config m = (.error e, l.validator)) :
    S.SingleSettles E 0 l l.standing := by
  apply Run.settles_of_invariant _ _ _ (fun l' => l'.status = none ∧
    l'.nextSequence = l.nextSequence ∧ l'.validator = l.validator)
  · rintro l' t ⟨running', hnext, hvalidator⟩ ht
    simp [SingleLoop.step, SingleLoop.syncOne, running', ht.1, ht.2, hnext, hvalidator,
      answer, here, fails]
  · rintro l' ⟨-, hnext, hvalidator⟩
    rw [SingleLoop.standing, SingleLoop.standing, hnext, hvalidator]
  · exact ⟨running, rfl, rfl⟩

/-- There is no message and no gap that may be skipped. -/
theorem single_rests (l : SingleLoop δ) (absent : S.fetcher.get l.nextSequence = .ok none)
    (h : config.gapSkipOnFailure = true → SingleLoop.detectGap S.fetcher l.nextSequence = none) :
    S.SingleSettles E 0 l l.standing := by
  apply Run.settles_of_invariant _ _ _ (fun l' =>
    l'.nextSequence = l.nextSequence ∧ l'.validator = l.validator)
  · rintro l' t ⟨hnext, hvalidator⟩ ht
    by_cases ended : l'.status.isSome = true
    · simpa [SingleLoop.step, ended] using ⟨hnext, hvalidator⟩
    · simp only [SingleLoop.step, SingleLoop.syncOne, ended, ht.1, ht.2, hnext, absent,
        Bool.false_eq_true, if_false]
      split
      · cases gap : SingleLoop.detectGap S.fetcher l.nextSequence with
        | none => exact ⟨rfl, hvalidator⟩
        | some available =>
          have keeps : config.gapSkipOnFailure = false := by
            by_contra skip
            rw [Bool.not_eq_false] at skip
            rw [h skip] at gap
            cases gap
          simp [keeps, hvalidator]
      · exact ⟨rfl, hvalidator⟩
  · rintro l' ⟨hnext, hvalidator⟩
    rw [SingleLoop.standing, SingleLoop.standing, hnext, hvalidator]
  · exact ⟨rfl, rfl⟩

/-- Where all messages have been handled. -/
theorem single_rests_stop (nonempty : S.batches ≠ []) (l : SingleLoop δ)
    (here : l.nextSequence.toNat = S.stop % 2 ^ 64)
    (h : config.gapSkipOnFailure = true → S.stop < 2 ^ 64) : S.SingleSettles E 0 l l.standing := by
  have fits := S.fits
  have most := S.stop_le nonempty
  have length : S.stop = S.first + (messages S.batches).length := rfl
  by_cases small : S.stop < 2 ^ 64
  · rw [Nat.mod_eq_of_lt small] at here
    apply S.single_rests E l (S.get_outside _ (.inr (by omega)))
    intro _
    exact S.detectGap_past nonempty _ (by omega) (by omega)
  · rw [show S.stop = 2 ^ 64 by omega, Nat.mod_self] at here
    apply S.single_rests E l (S.get_outside _ (.inl (by omega)))
    intro skip
    exact absurd (h skip) small

/-- From a stored number on, the single-message loop settles where the messages lead. -/
theorem single_settles (nonempty : S.batches ≠ []) (ms before : List SignedMessage)
    (split : messages S.batches = before ++ ms) (l : SingleLoop δ) (running : l.status = none)
    (here : l.nextSequence.toNat = (S.first + before.length) % 2 ^ 64)
    (ends : (replay (Validator.syncMessage X E config) l.nextSequence l.validator ms).1 = .ok () →
      config.gapSkipOnFailure = true → S.stop < 2 ^ 64) :
    S.SingleSettles E ms.length l
      (reaches (Validator.syncMessage X E config) l.nextSequence l.validator ms) := by
  induction ms generalizing before l with
  | nil =>
    apply S.single_rests_stop E nonempty l
    · rw [here, stop, split, List.append_nil]
    · exact ends rfl
  | cons m rest ih =>
    have answer := S.get_message before m rest split
    have numbered := S.numbered
    rw [split, numbered_append, numbered_cons] at numbered
    have number := numbered.2.1
    have bound := m.sequence.toNat_lt
    have same : m.sequence = l.nextSequence := by
      rw [← UInt64.toNat_inj, here, number, Nat.mod_eq_of_lt (by omega)]
    rw [same] at answer
    apply Run.settles_step
    intro t ht
    rw [replay] at ends
    rw [reaches, replay]
    cases handled : l.validator.syncMessage X E config m with
    | mk outcome v =>
      cases outcome with
      | error e =>
        have next : l.step X E config t = { l with validator := v } := by
          simp [SingleLoop.step, SingleLoop.syncOne, running, ht.1, ht.2, answer, same, handled]
        rw [next]
        apply Run.settles_mono _ _ _ 0 _ _ _ (Nat.zero_le _)
        have stuck := S.single_stuck E { l with validator := v } running m e answer same
          (syncMessage_again X E config m l.validator v e handled)
        simpa only [SingleLoop.standing, same] using stuck
      | ok =>
        have next : l.step X E config t =
            { l with validator := v, nextSequence := l.nextSequence + 1, notFoundCount := 0 } := by
          simp [SingleLoop.step, SingleLoop.syncOne, running, ht.1, ht.2, answer, same, handled]
        rw [next, same]
        rw [handled, same] at ends
        apply ih (before ++ [m]) (by simp [split])
          { l with validator := v, nextSequence := l.nextSequence + 1, notFoundCount := 0 } running
        · show (l.nextSequence + 1).toNat = _
          rw [UInt64.toNat_add, UInt64.toNat_one, ← same, number, List.length_append,
            List.length_singleton, Nat.add_assoc]
        · exact ends

theorem start_toNat (nonempty : S.batches ≠ []) : (UInt64.ofNat S.first).toNat = S.first := by
  have bound := S.first_lt_stop nonempty
  have most := S.stop_le nonempty
  rw [UInt64.toNat_ofNat_of_lt' (show S.first < 2 ^ 64 by omega)]

theorem batch_skips (nonempty : S.batches ≠ []) (skip : config.gapSkipOnFailure = true)
    (small : S.first < 2 ^ 63) (l : BatchLoop δ) (hindex : l.index = S.index)
    (running : l.status = none) (before : l.nextSequence.toNat < S.first) :
    S.BatchSettles E (S.batches.length + 1) l
      (reaches (Validator.runMessage X E config) (UInt64.ofNat S.first) l.validator
        (messages S.batches)) := by
  obtain ⟨s, rest, hb⟩ := List.exists_cons_of_ne_nil nonempty
  have chained := S.chained
  rw [hb] at chained
  obtain ⟨more, -, start, -, -⟩ := chained
  have number : s.info.startSequence = UInt64.ofNat S.first := by
    rw [← UInt64.toNat_inj, S.start_toNat nonempty]
    exact start
  apply Run.settles_step
  intro t ht
  obtain ⟨caughtUp, refreshed⟩ := S.refresh_serves l t ht hindex
  have absent := findBatchContaining_outside S.first S.batches S.chained l.nextSequence
    (.inl before)
  have later := findFirst_before S.first s rest (hb ▸ S.chained) l.nextSequence before
  rw [← hb] at later
  have bindable : PendingStore.bindable l.nextSequence = true ∧
      PendingStore.bindable (UInt64.ofNat S.first) = true := by
    simp only [PendingStore.bindable, S.start_toNat nonempty, decide_eq_true_eq]
    omega
  have next : l.step X E config t = { l with
      caughtUp := caughtUp, nextSequence := UInt64.ofNat S.first
      validator := { l.validator with
        gaps := l.validator.gaps ++ [(l.nextSequence, UInt64.ofNat S.first)] } } := by
    simp [BatchLoop.step, BatchLoop.onGap, running, ht.1, refreshed, hindex, index, absent, later,
      number, skip, bindable]
  rw [next, ← replay_gaps _ (runMessage_gaps X E config) _ l.validator _
    (l.validator.gaps ++ [(l.nextSequence, UInt64.ofNat S.first)]), hb, List.length_cons]
  apply S.batch_settles E rest [] s hb [] s.batch.messages rfl more
  · exact hindex
  · exact running
  · exact S.start_toNat nonempty

/-- The loop stays at a number, counting its tries, until it skips to the next one. -/
theorem single_retries (skip : config.gapSkipOnFailure = true) (next available : UInt64)
    (absent : S.fetcher.get next = .ok none)
    (gap : SingleLoop.detectGap S.fetcher next = some available) (l : SingleLoop δ)
    (running : l.status = none) (here : l.nextSequence = next) (t : Turn) (ht : S.Serves t) :
    (l.notFoundCount + 1 < config.gapRetryCount ∧
      l.step X E config t = { l with notFoundCount := l.notFoundCount + 1 }) ∨
    ∃ gaps, l.step X E config t = { l with
      validator := { l.validator with gaps := gaps }, nextSequence := available
      notFoundCount := 0 } := by
  by_cases enough : config.gapRetryCount ≤ l.notFoundCount + 1
  · have skipped : l.step X E config t =
        { l with notFoundCount := l.notFoundCount + 1 }.skipGap available := by
      simp [SingleLoop.step, SingleLoop.syncOne, running, ht.1, ht.2, here, absent, enough,
        gap, skip]
    exact .inr ⟨_, skipped⟩
  · refine .inl ⟨by omega, ?_⟩
    simp [SingleLoop.step, SingleLoop.syncOne, running, ht.1, ht.2, here, absent, enough]

theorem single_skips_one (skip : config.gapSkipOnFailure = true) (next available : UInt64)
    (absent : S.fetcher.get next = .ok none)
    (gap : SingleLoop.detectGap S.fetcher next = some available) (n : Nat) (d : Standing δ)
    (k : Nat) (l : SingleLoop δ) (running : l.status = none) (here : l.nextSequence = next)
    (tries : config.gapRetryCount ≤ l.notFoundCount + 1 + k)
    (after : ∀ gaps,
      S.SingleSettles E n ⟨{ l.validator with gaps := gaps }, available, 0, none⟩ d) :
    S.SingleSettles E (n + k + 1) l d := by
  induction k generalizing l with
  | zero =>
    apply Run.settles_step
    intro t ht
    obtain ⟨few, -⟩ | ⟨gaps, skipped⟩ :=
      S.single_retries E skip next available absent gap l running here t ht
    · omega
    · rw [skipped, running]
      exact after gaps
  | succ k ih =>
    apply Run.settles_step
    intro t ht
    obtain ⟨few, retried⟩ | ⟨gaps, skipped⟩ :=
      S.single_retries E skip next available absent gap l running here t ht
    · rw [retried]
      exact ih { l with notFoundCount := l.notFoundCount + 1 } running here
        (by show _ ≤ l.notFoundCount + 1 + 1 + k; omega) after
    · rw [skipped, running]
      exact Run.settles_mono _ _ _ n _ _ _ (by omega) (after gaps)

/-- Ahead of the first message the loop goes on to it, skip by skip. -/
theorem single_skips (nonempty : S.batches ≠ []) (skip : config.gapSkipOnFailure = true)
    (d : Standing δ) (n distance : Nat) (l : SingleLoop δ) (running : l.status = none)
    (far : l.nextSequence.toNat + distance = S.first)
    (after : ∀ gaps count, S.SingleSettles E n
      ⟨{ l.validator with gaps := gaps }, UInt64.ofNat S.first, count, none⟩ d) :
    S.SingleSettles E (n + distance * (config.gapRetryCount + 1)) l d := by
  induction distance using Nat.strongRecOn generalizing l with
  | ind distance ih =>
    by_cases arrived : distance = 0
    · have here : l.nextSequence = UInt64.ofNat S.first := by
        rw [← UInt64.toNat_inj, S.start_toNat nonempty]
        omega
      have settled := after l.validator.gaps l.notFoundCount
      rw [← here, ← running] at settled
      exact Run.settles_mono _ _ _ n _ _ _ (by omega) settled
    · obtain ⟨available, gap, further, inside⟩ :=
        S.detectGap_before nonempty l.nextSequence (by omega)
      have absent := S.get_outside l.nextSequence (.inl (by omega))
      have settled := S.single_skips_one E skip l.nextSequence available absent gap _ d
        config.gapRetryCount l running rfl (by omega) fun gaps =>
          ih (S.first - available.toNat) (by omega)
            ⟨{ l.validator with gaps := gaps }, available, 0, none⟩ rfl
            (by show available.toNat + _ = _; omega) after
      apply Run.settles_mono _ _ _ _ _ _ _ ?_ settled
      have fewer : (S.first - available.toNat + 1) * (config.gapRetryCount + 1) ≤
          distance * (config.gapRetryCount + 1) := Nat.mul_le_mul_right _ (by omega)
      rw [Nat.succ_mul] at fewer
      omega

theorem single_running (skip : config.gapSkipOnFailure = true) (l : SingleLoop δ)
    (running : l.status = none) (t : Turn) (ht : S.Serves t) :
    (l.step X E config t).status = none := by
  simp only [SingleLoop.step, running, ht.1, Option.isSome_none, Bool.false_eq_true, if_false]
  split
  · rfl
  · simp only [skip, Bool.not_true, Bool.false_eq_true, if_false]
    split
    · split
      · rfl
      · rfl
    · rfl
  · rfl

theorem single_leaves (skip : config.gapSkipOnFailure = true) (next available : UInt64)
    (absent : S.fetcher.get next = .ok none)
    (gap : SingleLoop.detectGap S.fetcher next = some available) (other : available ≠ next)
    (d : Standing δ) (k : Nat) (l : SingleLoop δ) (running : l.status = none)
    (tries : config.gapRetryCount ≤ l.notFoundCount + 1 + k) (settled : S.SingleSettles E 0 l d) :
    d.nextSequence ≠ next := by
  have turn : S.Serves ⟨false, false, S.fetcher⟩ := ⟨rfl, rfl⟩
  intro same
  induction k generalizing l with
  | zero =>
    have here : l.nextSequence = next := by
      rw [← same, ← Run.settles_now _ _ _ l d settled]
      rfl
    have still := Run.settles_after _ _ _ l d _ turn settled
    obtain ⟨few, -⟩ | ⟨gaps, skipped⟩ :=
      S.single_retries E skip next available absent gap l running here _ turn
    · omega
    · apply other
      rw [← same, ← Run.settles_now _ _ _ _ d still, skipped]
      rfl
  | succ k ih =>
    have here : l.nextSequence = next := by
      rw [← same, ← Run.settles_now _ _ _ l d settled]
      rfl
    have still := Run.settles_after _ _ _ l d _ turn settled
    obtain ⟨few, retried⟩ | ⟨gaps, skipped⟩ :=
      S.single_retries E skip next available absent gap l running here _ turn
    · rw [retried] at still
      apply ih { l with notFoundCount := l.notFoundCount + 1 } running ?_ still
      show _ ≤ l.notFoundCount + 1 + 1 + k
      omega
    · apply other
      rw [← same, ← Run.settles_now _ _ _ _ d still, skipped]
      rfl

/-- With leave to skip, the loop does not settle at a number from which a gap is seen. -/
theorem single_not_settled (skip : config.gapSkipOnFailure = true) (next available : UInt64)
    (absent : S.fetcher.get next = .ok none)
    (gap : SingleLoop.detectGap S.fetcher next = some available) (other : available ≠ next)
    (v : Validator δ) (d : Standing δ) (n : Nat)
    (settled : S.SingleSettles E n (SingleLoop.enter v) d) : d.nextSequence ≠ next := by
  have turns : ∀ t ∈ List.replicate n ⟨false, false, S.fetcher⟩, S.Serves t := by
    intro t ht
    rw [List.eq_of_mem_replicate ht]
    exact ⟨rfl, rfl⟩
  have later := Run.settles_run _ _ _ n _ d _ turns (by simp) settled
  apply S.single_leaves E skip next available absent gap other d config.gapRetryCount _ ?_
    (by omega) later
  exact Run.run_invariant_on _ (fun l t running ht => S.single_running E skip l running t ht) _ _
    rfl
    turns

/-- The messages the loops get to: none if they may not skip a gap ahead of the first one. -/
def reached (next : UInt64) : List SignedMessage :=
  if next.toNat < S.first ∧ config.gapSkipOnFailure = false then []
  else (messages S.batches).filter fun m => next ≤ m.sequence

/-- No gap is skipped whose end the state database cannot record, and no number wraps around
to a stored one. -/
structure KeepsNumbers (v : Validator δ) : Prop where
  gap : v.nextSequence.toNat < S.first → S.first < 2 ^ 63
  past : S.stop ≤ v.nextSequence.toNat → v.nextSequence.toNat + 10 < 2 ^ 64 + S.first
  wrap : S.stop = 2 ^ 64 → applyAll E v.databases (S.reached v.nextSequence) = none

section Engines

variable (E E' : Engine δ)

theorem agree_iff_same (v : Validator δ) (d e : Standing δ) (n m : Nat)
    (hd : S.BatchSettles E n (BatchLoop.enter v S.index) d)
    (he : S.SingleSettles E' m (SingleLoop.enter v) e) : S.Agree E E' v ↔ d = e := by
  have turn : S.Serves ⟨false, false, S.fetcher⟩ := ⟨rfl, rfl⟩
  constructor
  · intro h
    obtain ⟨both, n', m', batched, single⟩ := h
    rw [Run.settles_unique _ _ _ n n' _ d both _ turn hd batched]
    exact Run.settles_unique _ _ _ m' m _ both e _ turn single he
  · rintro rfl
    exact ⟨d, n, m, hd, he⟩

theorem not_agree (skip : config.gapSkipOnFailure = true) (v : Validator δ)
    (d : Standing δ) (n : Nat)
    (hd : S.BatchSettles E n (BatchLoop.enter v S.index) d) (available : UInt64)
    (absent : S.fetcher.get d.nextSequence = .ok none)
    (gap : SingleLoop.detectGap S.fetcher d.nextSequence = some available)
    (other : available ≠ d.nextSequence) : ¬ S.Agree E E' v := by
  intro h
  obtain ⟨both, n', m', batched, single⟩ := h
  have turn : S.Serves ⟨false, false, S.fetcher⟩ := ⟨rfl, rfl⟩
  obtain rfl := Run.settles_unique _ _ _ n n' _ d both _ turn hd batched
  exact S.single_not_settled E' skip _ available absent gap other v d m' single rfl

theorem not_agree_before (nonempty : S.batches ≠ []) (skip : config.gapSkipOnFailure = true)
    (v : Validator δ) (d : Standing δ) (n : Nat)
    (hd : S.BatchSettles E n (BatchLoop.enter v S.index) d)
    (before : d.nextSequence.toNat < S.first) : ¬ S.Agree E E' v := by
  obtain ⟨available, gap, further, -⟩ := S.detectGap_before nonempty _ before
  apply S.not_agree E E' skip v d n hd available (S.get_outside _ (.inl before)) gap
  rintro rfl
  omega

theorem filter_numbered (n : Nat) (before ms : List SignedMessage)
    (numbered : Numbered n (before ++ ms)) (next : UInt64)
    (lower : ∀ m ∈ before, m.sequence.toNat < next.toNat)
    (upper : next.toNat ≤ n + before.length) :
    ((before ++ ms).filter fun m => next ≤ m.sequence) = ms := by
  rw [numbered_append] at numbered
  have none_before : before.filter (fun m => next ≤ m.sequence) = [] := by
    rw [List.filter_eq_nil_iff]
    intro m hm
    have earlier := lower m hm
    rw [decide_eq_true_eq, UInt64.le_iff_toNat_le]
    omega
  have all_after : ms.filter (fun m => next ≤ m.sequence) = ms := by
    rw [List.filter_eq_self]
    intro m hm
    have bounds := numbered_mem _ ms m numbered.2 hm
    rw [decide_eq_true_eq, UInt64.le_iff_toNat_le]
    omega
  rw [List.filter_append, none_before, all_after, List.nil_append]

theorem reached_before (next : UInt64) (h : next.toNat < S.first)
    (skip : config.gapSkipOnFailure = true) : S.reached next = messages S.batches := by
  rw [reached, if_neg (by simp [skip])]
  exact filter_numbered S.first [] _ S.numbered next (by simp) (by simp; omega)

theorem reached_inside (next : UInt64) (before ms : List SignedMessage)
    (split : messages S.batches = before ++ ms) (here : next.toNat = S.first + before.length) :
    S.reached next = ms := by
  have numbered := S.numbered
  rw [split] at numbered
  rw [reached, if_neg (by omega), split]
  apply filter_numbered S.first before ms numbered next
  · intro m hm
    have bounds := numbered_mem S.first before m ((numbered_append _ _ _).mp numbered).1 hm
    omega
  · omega

theorem reached_past (next : UInt64) (h : S.stop ≤ next.toNat) : S.reached next = [] := by
  have length : S.stop = S.first + (messages S.batches).length := rfl
  have numbered := S.numbered
  rw [reached, if_neg (by omega), List.filter_eq_nil_iff]
  intro m hm
  have bounds := numbered_mem S.first _ m numbered hm
  rw [decide_eq_true_eq, UInt64.le_iff_toNat_le]
  omega

theorem decodes_nil (d : Databases δ) : Decodes E d [] := by
  intro pre m post split
  simp at split

/-- The condition of agreement. -/
def Agreeable (v : Validator δ) : Prop :=
  (Decodes E' v.databases (S.reached v.nextSequence) ∧
      SameReasons E E' v.databases (S.reached v.nextSequence)) ∧
    (config.gapSkipOnFailure = true → S.batches ≠ [] → S.KeepsNumbers E' v)

theorem reached_nothing (d : Databases δ) : Decodes E' d [] ∧ SameReasons E E' d [] :=
  ⟨decodes_nil E' d, trivial⟩

variable (alike : E.Retells E')

theorem agree_resting (v : Validator δ) (batched : S.BatchRests v.nextSequence)
    (absent : S.fetcher.get v.nextSequence = .ok none)
    (h : config.gapSkipOnFailure = true → SingleLoop.detectGap S.fetcher v.nextSequence = none) :
    S.Agree E E' v :=
  ⟨v.standing v.nextSequence, 0, 0, S.batch_rests E (BatchLoop.enter v S.index) rfl batched,
    S.single_rests E' (SingleLoop.enter v) absent h⟩

theorem agree_empty (empty : S.batches = []) (v : Validator δ) : S.Agree E E' v := by
  have absent : S.index = [] := by simp [index, empty]
  have nothing : S.stop = S.first := by simp [stop, empty, messages]
  apply S.agree_resting E E' v
  · constructor
    · rw [absent]
      rfl
    · intro later found
      rw [absent] at found
      cases found
  · exact S.get_outside _ (by omega)
  · intro _
    exact S.detectGap_empty empty _

include alike

/-- Ahead of the first message. -/
theorem agree_before (nonempty : S.batches ≠ []) (v : Validator δ)
    (before : v.nextSequence.toNat < S.first) : S.Agree E E' v ↔ S.Agreeable E E' v := by
  have absent := S.get_outside v.nextSequence (.inl before)
  have inside := S.first_lt_stop nonempty
  by_cases skip : config.gapSkipOnFailure = true
  · have all := S.reached_before v.nextSequence before skip
    by_cases small : S.first < 2 ^ 63
    · have fits := S.fits
      have length : S.stop = S.first + (messages S.batches).length := rfl
      have batched := S.batch_skips E nonempty skip small (BatchLoop.enter v S.index) rfl rfl before
      have single := S.single_skips E' nonempty skip
        (reaches (Validator.syncMessage X E' config) (UInt64.ofNat S.first) v (messages S.batches))
        (messages S.batches).length (S.first - v.nextSequence.toNat) (SingleLoop.enter v) rfl
        (by show v.nextSequence.toNat + _ = _; omega) (by
          intro gaps count
          rw [← replay_gaps _ (syncMessage_gaps X E' config) _ v _ gaps]
          apply S.single_settles E' nonempty (messages S.batches) [] rfl _ rfl
          · show (UInt64.ofNat S.first).toNat = _
            rw [S.start_toNat nonempty, List.length_nil, Nat.add_zero, Nat.mod_eq_of_lt (by omega)]
          · intro _ _
            omega)
      rw [S.agree_iff_same E E' v _ _ _ _ batched single, Agreeable, all]
      rw [← reaches_eq_iff X config E E' alike S.first (UInt64.ofNat S.first) v _ S.numbered
        S.signedMessages S.fits]
      have keeps : S.KeepsNumbers E' v := ⟨fun _ => small, by omega, by omega⟩
      simp only [keeps, implies_true, and_true]
      rfl
    · have batched := S.batch_rests E (BatchLoop.enter v S.index) rfl
        (S.batchRests_before v.nextSequence before fun _ => by omega)
      have disagree := S.not_agree_before E E' nonempty skip v _ 0 batched before
      simp only [disagree, false_iff]
      intro agreeable
      exact small ((agreeable.2 skip nonempty).gap before)
  · have none_reached : S.reached v.nextSequence = [] := by
      rw [reached, if_pos ⟨before, by simpa using skip⟩]
    have agree := S.agree_resting E E' v
      (S.batchRests_before v.nextSequence before fun h => absurd h skip) absent
      fun h => absurd h skip
    simp only [agree, true_iff, Agreeable, none_reached, skip]
    exact ⟨reached_nothing E E' _, fun h => absurd h (by simp)⟩

omit alike in
/-- Past the last message. -/
theorem agree_past (nonempty : S.batches ≠ []) (v : Validator δ)
    (past : S.stop ≤ v.nextSequence.toNat) : S.Agree E E' v ↔ S.Agreeable E E' v := by
  have absent := S.get_outside v.nextSequence (.inr past)
  have inside := S.first_lt_stop nonempty
  have bound := v.nextSequence.toNat_lt
  have nothing : Decodes E' v.databases (S.reached v.nextSequence) ∧
      SameReasons E E' v.databases (S.reached v.nextSequence) := by
    rw [S.reached_past _ past]
    exact reached_nothing E E' _
  by_cases room : config.gapSkipOnFailure = true → v.nextSequence.toNat + 10 < 2 ^ 64 + S.first
  · have agree := S.agree_resting E E' v (S.batchRests_past _ past) absent
      fun skip => S.detectGap_past nonempty _ past (room skip)
    simp only [agree, true_iff]
    exact ⟨nothing, fun skip _ => ⟨by omega, fun _ => room skip, by omega⟩⟩
  · obtain ⟨skip, wraps⟩ : config.gapSkipOnFailure = true ∧
        ¬ v.nextSequence.toNat + 10 < 2 ^ 64 + S.first := by simpa using room
    obtain ⟨available, gap, other⟩ := S.detectGap_wraps nonempty v.nextSequence past (by omega)
    have batched := S.batch_rests E (BatchLoop.enter v S.index) rfl (S.batchRests_past _ past)
    have disagree := S.not_agree E E' skip v _ 0 batched available absent gap other
    simp only [disagree, false_iff]
    intro agreeable
    exact wraps ((agreeable.2 skip nonempty).past past)

/-- From a stored message on. The single-message loop settles too, unless it gets through all
messages and may then start again from the number 0. -/
theorem agree_inside (v : Validator δ) (lower : S.first ≤ v.nextSequence.toNat)
    (upper : v.nextSequence.toNat < S.stop) : S.Agree E E' v ↔ S.Agreeable E E' v := by
  obtain ⟨pre, s, post, skipped, ms, split, own, more, here⟩ :=
    chained_split S.first S.batches S.chained v.nextSequence.toNat lower upper
  have nonempty : S.batches ≠ [] := by simp [split]
  have all : messages S.batches = (messages pre ++ skipped) ++ (ms ++ messages post) := by
    simp [split, messages, own]
  have place : v.nextSequence.toNat = S.first + (messages pre ++ skipped).length := by
    rw [List.length_append]
    omega
  have rest := S.reached_inside v.nextSequence _ _ all place
  have numbered := S.numbered
  have signed := S.signedMessages
  have fits := S.fits
  have bound := v.nextSequence.toNat_lt
  have most := S.stop_le nonempty
  have length : S.stop = S.first + (messages S.batches).length := rfl
  rw [all, numbered_append] at numbered
  have verified : ∀ m ∈ ms ++ messages post, SignatureVerifier.verify X config m = .ok () := by
    intro m hm
    apply signed m
    rw [all]
    exact List.mem_append_right _ hm
  have short : (ms ++ messages post).length < 2 ^ 63 := by
    rw [all, List.length_append] at fits
    omega
  have same := reaches_eq_iff X config E E' alike _ v.nextSequence v _ numbered.2 verified short
  have batched := S.batch_settles E post pre s split skipped ms own more (BatchLoop.enter v S.index)
    rfl rfl here
  by_cases ends : (replay (Validator.syncMessage X E' config) v.nextSequence v
      (ms ++ messages post)).1 = .ok () → config.gapSkipOnFailure = true → S.stop < 2 ^ 64
  · have single := S.single_settles E' nonempty _ _ all (SingleLoop.enter v) rfl
      (by show v.nextSequence.toNat = _; rw [← place, Nat.mod_eq_of_lt bound]) ends
    rw [S.agree_iff_same E E' v _ _ _ _ batched single, Agreeable, rest]
    show reaches _ v.nextSequence v _ = reaches _ v.nextSequence v _ ↔ _
    rw [same]
    constructor
    · intro given
      refine ⟨given, fun skip _ => ⟨by omega, by omega, ?_⟩⟩
      intro full
      rw [rest]
      by_contra complete
      have := ends ((replay_sync_complete X E' config _ v _ verified given.1).mpr complete) skip
      omega
    · exact fun h => h.1
  · obtain ⟨complete, skip, large⟩ : (replay (Validator.syncMessage X E' config) v.nextSequence v
        (ms ++ messages post)).1 = .ok () ∧ config.gapSkipOnFailure = true ∧ 2 ^ 64 ≤ S.stop := by
      simpa using ends
    have full : S.stop = 2 ^ 64 := by omega
    have disagree : ¬ S.Agree E E' v := by
      have finish := replay_complete (Validator.syncMessage X E' config) _ v.nextSequence v _
        numbered.2 (by rw [← place, Nat.mod_eq_of_lt bound]) complete
      rw [Nat.add_assoc, ← List.length_append, ← all, ← length, full, Nat.mod_self,
        ← replay_run_of_sync X E' config v.nextSequence v _ verified complete] at finish
      have numbers := (replay_alike X config E E' alike v.nextSequence v v _ verified
        (alikeValidators_refl _ v)).2
      have before : (reaches (Validator.runMessage X E config) v.nextSequence v
          (ms ++ messages post)).nextSequence.toNat < S.first := by
        have positive : 0 < S.first := by omega
        rw [← numbers]
        exact finish.trans_lt positive
      exact S.not_agree_before E E' nonempty skip v _ _ batched before
    simp only [disagree, false_iff]
    intro agreeable
    have decodes := agreeable.1.1
    have stuck := (agreeable.2 skip nonempty).wrap full
    rw [rest] at decodes stuck
    exact (replay_sync_complete X E' config _ v _ verified decodes).mp complete stuck

theorem agree_iff (v : Validator δ) : S.Agree E E' v ↔ S.Agreeable E E' v := by
  by_cases empty : S.batches = []
  · have none_reached : S.reached v.nextSequence = [] := by simp [reached, empty, messages]
    simp only [S.agree_empty E E' empty v, true_iff, Agreeable, none_reached, empty]
    exact ⟨reached_nothing E E' _, fun _ h => absurd rfl h⟩
  · by_cases before : v.nextSequence.toNat < S.first
    · exact S.agree_before E E' alike empty v before
    · by_cases past : S.stop ≤ v.nextSequence.toNat
      · exact S.agree_past E E' empty v past
      · exact S.agree_inside E E' alike v (by omega) (by omega)

end Engines

/-- Whatever order the hash maps of the schema check have at each message of the one loop and of the
other, the two loops agree exactly if every withdrawal that is reached can be read, the changesets
left in the store have the same reasons and no number is lost. -/
theorem batched_and_single_agree (L : ChangesetLibrary δ) (ob os : UInt64 → HashOrder)
    (v : Validator δ) :
    S.Agree (E.hashed L ob) (E.hashed L os) v ↔ S.Agreeable (E.hashed L ob) (E.hashed L os) v :=
  S.agree_iff _ _ (E.hashed_retells L ob os) v

end Storage

namespace Sample

open Shared.Sample

/-- A withdrawal message that carries a changeset request. -/
def coseWithdrawal : CoseSign1 :=
  ⟨⟨none, ⟨some (.int ES256K), [],
      [(.int HEADER_SEQUENCE, .integer 0), (.int HEADER_TIMESTAMP, .integer timestamp.toNat),
       (.int HEADER_MSG_TYPE, .integer 1)]⟩⟩,
    ⟨none, [], [(.text "pubkey", .bytes pubkey)]⟩, some payload, bigEndian 64
      0xa661fb0194dc5e15550f00aeec4f50c663804052983ec16efd4f1677ac27f9a639a6a4fa73d204b999a220ec48da4a3df13881acea3eafc08a470123a4166342⟩

def withdrawalBatch : CborBatch :=
  ⟨BATCH_VERSION, 0, 0, timestamp,
    bigEndian 32 0xc92ad7ba4825c7b12e9c3ecce0a5480149ca6d13cffe8b9874cd87be9535f951,
    [message coseWithdrawal], bigEndian 64
      0xdbc5c861f17d67b53ba873ba8af13d054a85dcee0bf83e37e9c37dbe79ef21d23fbce27342d08fb292a77187ae43aa3b22f3bfb4364e157a6011fef0a760e619,
    pubkey⟩

def withdrawalRecord : Recorded :=
  let digest := bigEndian 32 0x9bcd4b95bced1bee5d79e1b4ab5e3bc390bd121b4d56a288c2d5f2adbef55477
  let batchPayload := bigEndian 32
    0x9fe945e82c72aa0b44bd136109c762592bac88b96780e29449dc8dce83d03f40
  let batchDigest := bigEndian 32 0x6c86fa61246d5875b4d24f88a893cc4e95e5834964fe699b8685e677163c3f8b
  { messages := [coseWithdrawal]
    keccak256 := [(tbs coseWithdrawal, digest),
      (batchSigningData 0 0 withdrawalBatch.contentHash, batchPayload), (batchPayload, batchDigest)]
    sha256 := [(CborBatch.contentBytes [message coseWithdrawal], withdrawalBatch.contentHash)]
    signatures := [(pubkey, digest, coseWithdrawal.signature),
      (pubkey, batchDigest, withdrawalBatch.batchSignature)] }

def withdrawalStorage : Storage withdrawalRecord.externals validatorConfig where
  batches := (withdrawalBatch.toSignedBatch withdrawalRecord.externals).toOption.toList.map
    (Stored.mk "batches/000000000000_000000000000.cbor.zst")
  first := 0
  chained := by decide +kernel
  paths := by decide +kernel
  signedBatches := by decide +kernel
  signedMessages := by decide +kernel
  fits := by decide +kernel

/-- No changeset has any items. -/
def library : ChangesetLibrary (List Bytes) where
  iterate _ := .ok ([], none)
  hashOrder := List.reverse
  hashOrder_perm := List.reverse_perm
  tableInfo _ _ := none
  applyStrm replica data := .ok (replica ++ [data])

/-- The batch loop passes the message over, the single-message loop does not get past it, whatever
the orders of the hash maps are. -/
theorem undecodable_withdrawal_splits_loops :
    ¬∃ ob os : UInt64 → HashOrder,
      withdrawalStorage.Agree (engine.hashed library ob) (engine.hashed library os)
        freshValidator := by
  intro agreeing
  obtain ⟨ob, os, agree⟩ := agreeing
  have given := (withdrawalStorage.agree_inside _ _ (engine.hashed_retells library ob os)
    freshValidator (by decide +kernel) (by decide +kernel)).mp agree
  obtain ⟨⟨decodes, -⟩, -⟩ := given
  cases h : withdrawalStorage.reached freshValidator.nextSequence with
  | nil => exact absurd h (by decide +kernel)
  | cons m rest =>
    have undecodable : ∀ m ∈ withdrawalStorage.reached freshValidator.nextSequence,
        ¬ (extractWithdrawal engine m).isOk = true := by decide +kernel
    have read : extractWithdrawal (engine.hashed library os) m = extractWithdrawal engine m := rfl
    have decoded := decodes [] m rest h rfl
    rw [read] at decoded
    exact undecodable m (by simp [h]) decoded

end Sample

end SyndDB.Replication
