import SyndDB.Framework.Run
import SyndDB.Replication.Sync
import Mathlib.Data.List.DropRight

namespace SyndDB.Replication

open Octets Shared

/-- `u64::MAX`, the one number whose successor wraps around. -/
def u64Max : UInt64 := 18446744073709551615

/-- How the threshold of `run_batched` moves with the numbers of a batch. -/
def advance : UInt64 → List UInt64 → UInt64
  | next, [] => next
  | next, sequence :: rest =>
      if sequence < next then advance next rest else advance (sequence + 1) rest

theorem succ_toNat (s : UInt64) (h : s ≠ u64Max) : (s + 1).toNat = s.toNat + 1 := by
  have bound := s.toNat_lt
  have different : s.toNat ≠ 2 ^ 64 - 1 := by
    intro same
    exact h (UInt64.toNat_inj.mp same)
  rw [UInt64.toNat_add]
  apply Nat.mod_eq_of_lt
  have one : (1 : UInt64).toNat = 1 := rfl
  omega

/-- The threshold ends where it was or after one of the numbers. -/
theorem advance_cases (next : UInt64) (ss : List UInt64) :
    advance next ss = next ∨ ∃ s ∈ ss, advance next ss = s + 1 := by
  induction ss generalizing next with
  | nil => exact .inl rfl
  | cons s ss ih =>
    by_cases skipped : s < next
    · rw [advance, if_pos skipped]
      rcases ih next with same | ⟨t, ht, after⟩
      · exact .inl same
      · exact .inr ⟨t, List.mem_cons_of_mem _ ht, after⟩
    · rw [advance, if_neg skipped]
      rcases ih (s + 1) with same | ⟨t, ht, after⟩
      · exact .inr ⟨s, List.mem_cons_self, same⟩
      · exact .inr ⟨t, List.mem_cons_of_mem _ ht, after⟩

/-- Without a wrap the threshold never falls, and passes every number. -/
theorem advance_passes (next : UInt64) (ss : List UInt64) (h : ∀ s ∈ ss, s ≠ u64Max) :
    next ≤ advance next ss ∧ ∀ s ∈ ss, s < advance next ss := by
  induction ss generalizing next with
  | nil => exact ⟨UInt64.le_refl next, by simp⟩
  | cons s ss ih =>
    have rest : ∀ t ∈ ss, t ≠ u64Max := fun t ht => h t (List.mem_cons_of_mem _ ht)
    have bump := succ_toNat s (h s List.mem_cons_self)
    by_cases skipped : s < next
    · rw [advance, if_pos skipped]
      obtain ⟨above, passed⟩ := ih next rest
      refine ⟨above, ?_⟩
      intro t ht
      rcases List.mem_cons.mp ht with rfl | ht
      · exact UInt64.lt_of_lt_of_le skipped above
      · exact passed t ht
    · rw [advance, if_neg skipped]
      obtain ⟨above, passed⟩ := ih (s + 1) rest
      have reached : next ≤ s := UInt64.not_lt.mp skipped
      have stepped : s < advance (s + 1) ss := by
        rw [UInt64.le_iff_toNat_le, bump] at above
        rw [UInt64.lt_iff_toNat_lt]
        omega
      refine ⟨UInt64.le_of_lt (UInt64.lt_of_le_of_lt reached stepped), ?_⟩
      intro t ht
      rcases List.mem_cons.mp ht with rfl | ht
      · exact stepped
      · exact passed t ht

/-- Without a wrap the threshold passes `next` exactly if one of the numbers reaches it. -/
theorem advance_past (start next : UInt64) (ss : List UInt64) (h : ∀ s ∈ ss, s ≠ u64Max)
    (hstart : start ≤ next) : next < advance start ss ↔ ∃ s ∈ ss, next ≤ s := by
  constructor
  · intro past
    rcases advance_cases start ss with same | ⟨s, hs, after⟩
    · rw [same] at past
      exact absurd past (UInt64.not_lt.mpr hstart)
    · refine ⟨s, hs, ?_⟩
      rw [after, UInt64.lt_iff_toNat_lt, succ_toNat s (h s hs)] at past
      rw [UInt64.le_iff_toNat_le]
      omega
  · intro reached
    obtain ⟨s, hs, hn⟩ := reached
    exact UInt64.lt_of_le_of_lt hn ((advance_passes start ss h).2 s hs)

theorem advance_append (next : UInt64) (ss ts : List UInt64) :
    advance next (ss ++ ts) = advance (advance next ss) ts := by
  induction ss generalizing next with
  | nil => rfl
  | cons s ss ih =>
    by_cases skipped : s < next
    · simp only [List.cons_append, advance, if_pos skipped, ih]
    · simp only [List.cons_append, advance, if_neg skipped, ih]

/-- The largest number is never skipped, and after it the threshold starts again from zero. -/
theorem advance_max (next : UInt64) (ss : List UInt64) : advance next (u64Max :: ss) =
    advance 0 ss := by
  have taken : ¬u64Max < next := by
    rw [UInt64.lt_iff_toNat_lt]
    have bound := next.toNat_lt
    have max : u64Max.toNat = 2 ^ 64 - 1 := rfl
    omega
  rw [advance, if_neg taken]
  rfl

/-- The numbers after the last one that makes the threshold wrap around. -/
def afterWrap (ss : List UInt64) : List UInt64 := ss.rtakeWhile fun s => s ≠ u64Max

theorem afterWrap_bounded (ss : List UInt64) : ∀ s ∈ afterWrap ss, s ≠ u64Max := by
  intro s hs
  simpa using List.mem_rtakeWhile_imp hs

/-- A batch moves the threshold forward exactly if it holds a number at or past it,
after the last wrap. -/
theorem advance_iff (next : UInt64) (ss : List UInt64) :
    next < advance next ss ↔ ∃ s ∈ afterWrap ss, next ≤ s := by
  have bounded := afterWrap_bounded ss
  have parts : ss.rdropWhile (fun s => s ≠ u64Max) ++ afterWrap ss = ss :=
    List.rdropWhile_append_rtakeWhile
  by_cases wraps : ss.rdropWhile (fun s => s ≠ u64Max) = []
  · rw [wraps, List.nil_append] at parts
    rw [parts] at bounded ⊢
    exact advance_past next next ss bounded (UInt64.le_refl next)
  · have last := List.rdropWhile_last_not _ ss wraps
    have max : (ss.rdropWhile fun s => s ≠ u64Max).getLast wraps = u64Max := by simpa using last
    have fresh : advance next ss = advance 0 (afterWrap ss) := by
      conv => lhs; rw [← parts, ← List.dropLast_append_getLast wraps, max]
      rw [advance_append, advance_append, advance_max]
      rfl
    rw [fresh]
    exact advance_past 0 next (afterWrap ss) bounded UInt64.zero_le

variable {δ : Type} (X : Externals) (E : Engine δ) (config : ValidatorConfig)

theorem runMessages_advance (next : UInt64) (v : Validator δ) (messages : List SignedMessage)
    (h : (v.runMessages X E config next messages).1 = .ok ()) :
    (v.runMessages X E config next messages).2.1 =
      advance next (messages.map SignedMessage.sequence) := by
  induction messages generalizing next v with
  | nil => rfl
  | cons message rest ih =>
    rw [List.map_cons, advance]
    by_cases skipped : message.sequence < next
    · simp only [Validator.runMessages, if_pos skipped] at h ⊢
      exact ih next v h
    · simp only [Validator.runMessages, if_neg skipped] at h ⊢
      split
      · rename_i e w failed
        rw [failed] at h
        cases h
      · rename_i w ran
        rw [ran] at h
        exact ih (message.sequence + 1) w h

namespace BatchLoop

/-- The batch behind a gap, if the turn finds one ahead and no batch for the next sequence. -/
def ahead (l : BatchLoop δ) (t : Turn) : Option BatchInfo :=
  if l.status.isSome || t.shutdown then none
  else if (findBatchContaining (l.refresh t).index l.nextSequence).isSome then none
  else findFirstBatchStartingAtOrAfter (l.refresh t).index l.nextSequence

/-- The iteration reaches one of the two `continue`s: it does not wait, return or shut down. -/
def repeats (l : BatchLoop δ) (t : Turn) : Bool :=
  (l.step X E config t).status.isNone && ((l.fetched t).isSome || (l.ahead t).isSome)

/-- The fetched batch holds a message at or past the next sequence (after the last message number
that wraps around), and the batch behind a gap does not start at the next sequence itself. -/
def Advances (l : BatchLoop δ) (t : Turn) : Prop :=
  (∀ batch ∈ l.fetched t,
    ∃ s ∈ afterWrap (batch.messages.map SignedMessage.sequence), l.nextSequence ≤ s) ∧
  ∀ later ∈ l.ahead t, later.startSequence ≠ l.nextSequence

/-- The first batch at or after a sequence starts there or later. -/
theorem findFirst_start (batches : List BatchInfo) (sequence : UInt64) (later : BatchInfo)
    (h : findFirstBatchStartingAtOrAfter batches sequence = some later) :
    sequence ≤ later.startSequence := by
  induction batches with
  | nil => simp [findFirstBatchStartingAtOrAfter] at h
  | cons b batches ih =>
    by_cases before : b.startSequence < sequence
    · apply ih
      simpa [findFirstBatchStartingAtOrAfter, partitionPoint, before] using h
    · have found : b = later := by
        simpa [findFirstBatchStartingAtOrAfter, partitionPoint, before] using h
      rw [← found]
      exact UInt64.not_lt.mp before

theorem step_batch_next (l : BatchLoop δ) (t : Turn) (batch : SignedBatch)
    (hb : l.fetched t = some batch) (running : (l.step X E config t).status = none) :
    (l.step X E config t).nextSequence =
      advance l.nextSequence (batch.messages.map SignedMessage.sequence) := by
  rw [l.step_fetched X E config t batch hb, processBatch] at running ⊢
  split at running
  · cases running
  · rename_i signed
    split at running
    · cases running
    · rename_i next v ran
      have ok : ((l.refresh t).validator.runMessages X E config (l.refresh t).nextSequence
          batch.messages).1 = .ok () := by rw [ran]
      have moved := runMessages_advance X E config _ _ batch.messages ok
      rw [ran, refresh_nextSequence] at moved
      exact moved

theorem step_ahead (l : BatchLoop δ) (t : Turn) (later : BatchInfo)
    (ha : l.ahead t = some later) :
    l.step X E config t = (l.refresh t).onGap config later.startSequence := by
  by_cases halted : l.status.isSome || t.shutdown
  · simp [ahead, halted] at ha
  · have awake : l.status.isSome = false ∧ t.shutdown = false := by simpa using halted
    rw [ahead, if_neg halted] at ha
    cases found : findBatchContaining (l.refresh t).index l.nextSequence with
    | some info => simp [found] at ha
    | none =>
      have next : findFirstBatchStartingAtOrAfter (l.refresh t).index l.nextSequence =
          some later := by simpa [found] using ha
      simp [step, awake, found, next]

/-- The loop after a gap that was recorded. -/
def skipTo (gapEnd : UInt64) (l : BatchLoop δ) : BatchLoop δ :=
  { l with
    validator := { l.validator with gaps := l.validator.gaps ++ [(l.nextSequence, gapEnd)] }
    nextSequence := gapEnd }

/-- A gap that does not end the loop is skipped. -/
theorem onGap_running (l : BatchLoop δ) (gapEnd : UInt64)
    (running : (l.onGap config gapEnd).status = none) :
    l.onGap config gapEnd = l.skipTo gapEnd ∧ config.gapSkipOnFailure = true ∧
      (PendingStore.bindable l.nextSequence && PendingStore.bindable gapEnd) = true := by
  by_cases stop : (!config.gapSkipOnFailure) = true
  · rw [onGap, if_pos stop] at running
    cases running
  · by_cases bound : (PendingStore.bindable l.nextSequence && PendingStore.bindable gapEnd) = true
    · rw [onGap, if_neg stop, if_pos bound]
      exact ⟨rfl, by simpa using stop, bound⟩
    · rw [onGap, if_neg stop, if_neg bound] at running
      cases running

theorem step_gap_next (l : BatchLoop δ) (t : Turn) (later : BatchInfo)
    (ha : l.ahead t = some later) (running : (l.step X E config t).status = none) :
    (l.step X E config t).nextSequence = later.startSequence := by
  rw [l.step_ahead X E config t later ha] at running ⊢
  rw [(onGap_running config _ _ running).1]
  rfl

theorem fetched_ahead (l : BatchLoop δ) (t : Turn) (later : BatchInfo)
    (ha : l.ahead t = some later) : l.fetched t = none := by
  by_cases halted : l.status.isSome || t.shutdown
  · simp [fetched, halted]
  · rw [ahead, if_neg halted] at ha
    cases found : findBatchContaining (l.refresh t).index l.nextSequence with
    | some info => simp [found] at ha
    | none => simp [fetched, found]

theorem ahead_start (l : BatchLoop δ) (t : Turn) (later : BatchInfo)
    (ha : l.ahead t = some later) : l.nextSequence ≤ later.startSequence := by
  unfold ahead at ha
  split at ha
  · cases ha
  · split at ha
    · cases ha
    · exact findFirst_start _ _ later ha

/-- An iteration that repeats without waiting makes progress exactly if it advances. -/
theorem repeats_progress (l : BatchLoop δ) (t : Turn) (h : l.repeats X E config t = true) :
    l.nextSequence < (l.step X E config t).nextSequence ↔ l.Advances t := by
  obtain ⟨running, found⟩ := Bool.and_eq_true_iff.mp h
  have running : (l.step X E config t).status = none := Option.isNone_iff_eq_none.mp running
  cases hb : l.fetched t with
  | some batch =>
    have nothing : l.ahead t = none := by
      cases ha : l.ahead t with
      | none => rfl
      | some later =>
        rw [l.fetched_ahead t later ha] at hb
        cases hb
    rw [l.step_batch_next X E config t batch hb running, advance_iff]
    simp [Advances, hb, nothing]
  | none =>
    cases ha : l.ahead t with
    | none => simp [hb, ha] at found
    | some later =>
      have start := l.ahead_start t later ha
      rw [l.step_gap_next X E config t later ha running]
      simp only [Advances, hb, ha, Option.mem_def, reduceCtorEq, false_implies, implies_true,
        Option.some.injEq, forall_eq', true_and]
      constructor
      · intro past same
        rw [same] at past
        exact UInt64.lt_irrefl _ past
      · intro different
        exact UInt64.lt_of_le_of_ne start fun same => different same.symm

/-- As long as all iterations repeat and advance, there is room for as many as there
are numbers left. -/
theorem repeats_bounded (l : BatchLoop δ) (ts : List Turn)
    (along : Run.Along (step X E config)
      (fun l t => l.repeats X E config t = true ∧ l.Advances t) l ts) :
    l.nextSequence.toNat + ts.length ≤ (Run.run (step X E config) l ts).nextSequence.toNat := by
  induction ts generalizing l with
  | nil => exact Nat.le_refl _
  | cons t ts ih =>
    obtain ⟨⟨repeats, advances⟩, rest⟩ := along
    have moved := (l.repeats_progress X E config t repeats).mpr advances
    have tail := ih (l.step X E config t) rest
    rw [UInt64.lt_iff_toNat_lt] at moved
    rw [List.length_cons, Run.run]
    omega

/-- A refresh that finds the same batches again. -/
theorem refresh_again (l l' : BatchLoop δ) (t : Turn) (index : l'.index = (l.refresh t).index)
    (caughtUp : l'.caughtUp = (l.refresh t).caughtUp) :
    (l'.refresh t).index = (l.refresh t).index := by
  cases listed : t.fetcher.listBatches with
  | error e => simp [refresh, listed, index]
  | ok batches =>
    by_cases due : t.refreshDue || l.caughtUp
    · have refreshed : (l.refresh t).index = batches := by simp only [refresh, due, if_true, listed]
      by_cases again : t.refreshDue || l'.caughtUp
      · rw [refreshed]
        simp only [refresh, again, if_true, listed]
      · simp only [refresh, again, if_false, index, Bool.false_eq_true]
    · have resting : t.refreshDue = false ∧ l'.caughtUp = false := by
        have both : t.refreshDue = false ∧ l.caughtUp = false := by simpa using due
        simpa [refresh, both.1, both.2] using caughtUp
      simp [refresh, resting, index]

@[simp] theorem refresh_status (l : BatchLoop δ) (t : Turn) : (l.refresh t).status = l.status := by
  unfold refresh
  split
  · split
    · rfl
    · rfl
  · rfl

/-- What a turn finds depends on the index, the next sequence and the status only. -/
theorem found_congr (l l' : BatchLoop δ) (t : Turn)
    (index : (l'.refresh t).index = (l.refresh t).index)
    (next : l'.nextSequence = l.nextSequence) (status : l'.status = l.status) :
    l'.fetched t = l.fetched t ∧ l'.ahead t = l.ahead t := by
  refine ⟨?_, ?_⟩
  · rw [fetched, fetched, index, next, status]
  · rw [ahead, ahead, index, next, status]

/-- The iteration repeats where it is, and not because the numbers wrapped around. -/
def Stalls (l : BatchLoop δ) (t : Turn) : Prop :=
  l.repeats X E config t = true ∧ (l.step X E config t).nextSequence = l.nextSequence ∧
    ∀ batch ∈ l.fetched t, ∀ m ∈ batch.messages, m.sequence ≠ u64Max

theorem runMessages_skipped (next : UInt64) (v : Validator δ) (messages : List SignedMessage)
    (h : ∀ m ∈ messages, m.sequence < next) :
    v.runMessages X E config next messages = (.ok (), next, v) := by
  induction messages with
  | nil => rfl
  | cons message rest ih =>
    rw [Validator.runMessages, if_pos (h message List.mem_cons_self)]
    exact ih fun m hm => h m (List.mem_cons_of_mem _ hm)

/-- A batch that moves nothing leaves everything as it was. -/
theorem stalled_batch (l : BatchLoop δ) (t : Turn) (batch : SignedBatch)
    (hb : l.fetched t = some batch) (h : l.Stalls X E config t) :
    batch.verifyBatchSignature X = .ok () ∧ ∀ m ∈ batch.messages, m.sequence < l.nextSequence := by
  obtain ⟨repeats, same, bounded⟩ := h
  have running : (l.step X E config t).status = none :=
    Option.isNone_iff_eq_none.mp (Bool.and_eq_true_iff.mp repeats).1
  refine ⟨?_, ?_⟩
  · rw [l.step_fetched X E config t batch hb, processBatch] at running
    split at running
    · cases running
    · assumption
  · intro m hm
    rw [l.step_batch_next X E config t batch hb running] at same
    have unwrapped : ∀ s ∈ batch.messages.map SignedMessage.sequence, s ≠ u64Max := by
      intro s hs
      obtain ⟨m, hm, rfl⟩ := List.mem_map.mp hs
      exact bounded batch hb m hm
    have passed := (advance_passes l.nextSequence _ unwrapped).2 m.sequence
      (List.mem_map_of_mem hm)
    rw [same] at passed
    exact passed

theorem stalls_again (l : BatchLoop δ) (t : Turn) (h : l.Stalls X E config t) :
    (l.step X E config t).Stalls X E config t := by
  obtain ⟨running, found⟩ := Bool.and_eq_true_iff.mp h.1
  have running : (l.step X E config t).status = none := Option.isNone_iff_eq_none.mp running
  cases hb : l.fetched t with
  | some batch =>
    obtain ⟨signed, skipped⟩ := l.stalled_batch X E config t batch hb h
    have resting (k : BatchLoop δ) (hk : k.nextSequence = l.nextSequence) :
        k.processBatch X E config batch = k := by
      have none_taken := runMessages_skipped X E config k.nextSequence k.validator batch.messages
        (by rw [hk]; exact skipped)
      simp only [processBatch, signed, none_taken]
    have once : l.step X E config t = l.refresh t := by
      rw [l.step_fetched X E config t batch hb]
      exact resting _ (l.refresh_nextSequence t)
    rw [once]
    rw [once, refresh_status] at running
    have same := found_congr l (l.refresh t) t (refresh_again l _ t rfl rfl)
      (l.refresh_nextSequence t) (l.refresh_status t)
    have again : (l.refresh t).fetched t = some batch := same.1.trans hb
    have twice : (l.refresh t).step X E config t = (l.refresh t).refresh t := by
      rw [(l.refresh t).step_fetched X E config t batch again]
      exact resting _ (by rw [refresh_nextSequence, refresh_nextSequence])
    refine ⟨?_, ?_, ?_⟩
    · simp [repeats, twice, again, running]
    · rw [twice, refresh_nextSequence]
    · rw [same.1]
      exact h.2.2
  | none =>
    cases ha : l.ahead t with
    | none => simp [hb, ha] at found
    | some later =>
      have gap := l.step_ahead X E config t later ha
      have same := h.2.1
      rw [gap] at running same ⊢
      obtain ⟨skipped, skips, bound⟩ := onGap_running config _ _ running
      rw [skipped] at running same ⊢
      have status : ((l.refresh t).skipTo later.startSequence).status = l.status :=
        l.refresh_status t
      obtain ⟨fetches, aims⟩ := found_congr l ((l.refresh t).skipTo later.startSequence) t
        (refresh_again l _ t rfl rfl) same status
      have bindable : PendingStore.bindable later.startSequence = true :=
        (Bool.and_eq_true_iff.mp bound).2
      have again := step_ahead X E config ((l.refresh t).skipTo later.startSequence) t later
        (aims.trans ha)
      have next : (((l.refresh t).skipTo later.startSequence).refresh t).nextSequence =
          later.startSequence := refresh_nextSequence _ t
      have twice : ((l.refresh t).skipTo later.startSequence).step X E config t =
          (((l.refresh t).skipTo later.startSequence).refresh t).skipTo later.startSequence := by
        rw [again, onGap, next, bindable]
        simp [skips, skipTo]
      refine ⟨?_, ?_, ?_⟩
      · have still : ((((l.refresh t).skipTo later.startSequence).refresh t).skipTo
            later.startSequence).status = none := by
          rw [skipTo, refresh_status]
          exact running
        rw [repeats, twice, still, aims, ha]
        simp
      · rw [twice]
        rfl
      · rw [fetches, hb]
        simp

/-- On a storage that stays as it is, an iteration that repeats where it is does so for ever. -/
theorem stalls_forever (l : BatchLoop δ) (t : Turn) (h : l.Stalls X E config t) (n : Nat) :
    Run.Along (step X E config) (fun l t => l.Stalls X E config t) l (List.replicate n t) := by
  induction n generalizing l with
  | zero => trivial
  | succ n ih => exact ⟨h, ih _ (l.stalls_again X E config t h)⟩

/-- Short of a wrap, an iteration that repeats and does not advance stays where it is. -/
theorem stalls_of_not_advances (l : BatchLoop δ) (t : Turn) (h : l.repeats X E config t = true)
    (stuck : ¬l.Advances t)
    (unwrapped : ∀ batch ∈ l.fetched t, ∀ m ∈ batch.messages, m.sequence ≠ u64Max) :
    l.Stalls X E config t := by
  have not_past : ¬l.nextSequence < (l.step X E config t).nextSequence := by
    intro past
    exact stuck ((l.repeats_progress X E config t h).mp past)
  obtain ⟨running, found⟩ := Bool.and_eq_true_iff.mp h
  have running : (l.step X E config t).status = none := Option.isNone_iff_eq_none.mp running
  have not_before : l.nextSequence ≤ (l.step X E config t).nextSequence := by
    cases hb : l.fetched t with
    | some batch =>
      rw [l.step_batch_next X E config t batch hb running]
      refine (advance_passes _ _ ?_).1
      intro s hs
      obtain ⟨m, hm, rfl⟩ := List.mem_map.mp hs
      exact unwrapped batch hb m hm
    | none =>
      cases ha : l.ahead t with
      | none => simp [hb, ha] at found
      | some later =>
        rw [l.step_gap_next X E config t later ha running]
        exact l.ahead_start t later ha
  exact ⟨h, UInt64.le_antisymm (UInt64.not_lt.mp not_past) not_before, unwrapped⟩

/-- An iteration of `run_batched` that does not wait, return or shut down increases the next
sequence exactly if it advances. A run of iterations that do ends before the numbers do; one that
does not (and does not wrap around) is repeated for ever on a storage that stays as it is. -/
theorem run_batched_progress (X : Externals) (E : Engine δ) (config : ValidatorConfig)
    (l : BatchLoop δ) :
    (∀ t, l.repeats X E config t = true →
      (l.nextSequence < (l.step X E config t).nextSequence ↔ l.Advances t)) ∧
    (∀ ts, Run.Along (step X E config)
        (fun l t => l.repeats X E config t = true ∧ l.Advances t) l ts →
      l.nextSequence.toNat + ts.length < 2 ^ 64) ∧
    ∀ t n, l.repeats X E config t = true → ¬l.Advances t →
      (∀ batch ∈ l.fetched t, ∀ m ∈ batch.messages, m.sequence ≠ u64Max) →
      Run.Along (step X E config) (fun l t => l.Stalls X E config t) l (List.replicate n t) := by
  refine ⟨fun t h => l.repeats_progress X E config t h, ?_, ?_⟩
  · intro ts along
    have bounded := l.repeats_bounded X E config ts along
    have limit := (Run.run (step X E config) l ts).nextSequence.toNat_lt
    omega
  · intro t n h stuck unwrapped
    exact l.stalls_forever X E config t (l.stalls_of_not_advances X E config t h stuck unwrapped) n

end BatchLoop

namespace Sample

open Shared.Sample

def info35 : BatchInfo := ⟨3, 5, "batches/000000000003_000000000005.cbor.zst"⟩

/-- The second object of the storage is a copy of the first. -/
def copyingFetcher : Fetcher :=
  { fetcher info02 cborBatch02 with
    listBatches := .ok [info02, info35]
    getBatchByPath := fun _ => .ok (cborBatch02.toSignedBatch record.externals).toOption }

def copyingTurn : Turn := ⟨false, false, copyingFetcher⟩

/-- The loop after the first batch. -/
def afterFirst : BatchLoop (List Bytes) :=
  (BatchLoop.enter freshValidator [info02, info35]).step record.externals engine validatorConfig
    copyingTurn

/-- The first batch is worked on and advances. -/
theorem run_batched_progress_first :
    (BatchLoop.enter freshValidator [info02, info35]).repeats record.externals engine
        validatorConfig copyingTurn = true ∧
    ((BatchLoop.enter freshValidator [info02, info35]).nextSequence < afterFirst.nextSequence ↔
      (BatchLoop.enter freshValidator [info02, info35]).Advances copyingTurn) := by
  have repeating : (BatchLoop.enter freshValidator [info02, info35]).repeats record.externals engine
      validatorConfig copyingTurn = true := by
    decide +kernel
  exact ⟨repeating, (BatchLoop.run_batched_progress record.externals engine validatorConfig
    (BatchLoop.enter freshValidator [info02, info35])).1 copyingTurn repeating⟩

/-- The copy holds messages 0 and 2 and covers 3 by its name only: the loop fetches it again and
again without a wait. -/
theorem old_batch_spins :
    afterFirst.repeats record.externals engine validatorConfig copyingTurn = true ∧
    ¬afterFirst.nextSequence <
      (afterFirst.step record.externals engine validatorConfig copyingTurn).nextSequence ∧
    ∀ n, Run.Along (BatchLoop.step record.externals engine validatorConfig)
      (fun l t => l.Stalls record.externals engine validatorConfig t) afterFirst
      (List.replicate n copyingTurn) := by
  have repeating : afterFirst.repeats record.externals engine validatorConfig copyingTurn =
      true := by
    decide +kernel
  have same : (afterFirst.step record.externals engine validatorConfig copyingTurn).nextSequence =
      afterFirst.nextSequence := by
    decide +kernel
  have bounded : ∀ batch ∈ afterFirst.fetched copyingTurn,
      ∀ m ∈ batch.messages, m.sequence ≠ u64Max := by
    decide +kernel
  refine ⟨repeating, ?_, ?_⟩
  · rw [same]
    exact UInt64.lt_irrefl _
  · exact BatchLoop.stalls_forever record.externals engine validatorConfig afterFirst copyingTurn
      ⟨repeating, same, bounded⟩

end Sample

end SyndDB.Replication
