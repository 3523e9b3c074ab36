import Mathlib.Data.List.TakeWhile
import SyndDB.Replication.Sync

namespace SyndDB.Replication

open Octets Shared

structure Stored where
  path : String
  batch : SignedBatch

def Stored.info (s : Stored) : BatchInfo := ⟨s.batch.startSequence, s.batch.endSequence, s.path⟩

def messages (storage : List Stored) : List SignedMessage :=
  storage.flatMap fun s => s.batch.messages

/-- The fetcher of a bucket. A single message is looked up in the first batch that covers it. -/
def bucketFetcher (storage : List Stored) : Fetcher where
  listBatches := .ok (storage.map Stored.info)
  getBatchByPath path := .ok ((storage.find? fun s => s.path = path).map Stored.batch)
  get sequence :=
    match storage.find? fun s => s.info.contains sequence with
    | none => .ok none
    | some found => .ok ((storage.find? fun s => s.path = found.path).bind fun s =>
        s.batch.messages.find? fun m => m.sequence = sequence)
  getLatestSequence := .ok (storage.map fun s => s.batch.endSequence).max?

/-- Messages numbered from `n` on. -/
def Numbered (n : Nat) (ms : List SignedMessage) : Prop :=
  ms.map (fun m => m.sequence.toNat) = List.range' n ms.length

/-- Batches that carry the messages from `n` on, each with its range. -/
def Chained : Nat → List Stored → Prop
  | _, [] => True
  | n, s :: rest =>
      s.batch.messages ≠ [] ∧ Numbered n s.batch.messages ∧ s.batch.startSequence.toNat = n ∧
        s.batch.endSequence.toNat + 1 = n + s.batch.messages.length ∧
        Chained (n + s.batch.messages.length) rest

instance decidableChained (n : Nat) (storage : List Stored) : Decidable (Chained n storage) :=
  match storage with
  | [] => isTrue trivial
  | s :: rest =>
      have := decidableChained (n + s.batch.messages.length) rest
      inferInstanceAs (Decidable (_ ∧ _ = _ ∧ _ ∧ _ ∧ _))

theorem numbered_cons (n : Nat) (m : SignedMessage) (ms : List SignedMessage) :
    Numbered n (m :: ms) ↔ m.sequence.toNat = n ∧ Numbered (n + 1) ms := by
  simp [Numbered, List.range'_succ]

theorem numbered_append (n : Nat) (xs ys : List SignedMessage) :
    Numbered n (xs ++ ys) ↔ Numbered n xs ∧ Numbered (n + xs.length) ys := by
  induction xs generalizing n with
  | nil => simp [Numbered]
  | cons x xs ih =>
    have hlen : n + (x :: xs).length = n + 1 + xs.length := by simp; omega
    rw [List.cons_append, numbered_cons, numbered_cons, ih, hlen, and_assoc]

theorem numbered_mem (n : Nat) (ms : List SignedMessage) (m : SignedMessage) (h : Numbered n ms)
    (hm : m ∈ ms) : n ≤ m.sequence.toNat ∧ m.sequence.toNat < n + ms.length := by
  have member : m.sequence.toNat ∈ List.range' n ms.length := by
    rw [← h]
    exact List.mem_map.mpr ⟨m, hm, rfl⟩
  simpa [List.mem_range'_1] using member

theorem chained_numbered (n : Nat) (storage : List Stored) (h : Chained n storage) :
    Numbered n (messages storage) := by
  induction storage generalizing n with
  | nil => rfl
  | cons s rest ih =>
    obtain ⟨-, own, -, -, tail⟩ := h
    have split : messages (s :: rest) = s.batch.messages ++ messages rest := rfl
    rw [split, numbered_append]
    exact ⟨own, ih _ tail⟩

theorem chained_append (n : Nat) (pre post : List Stored) (h : Chained n (pre ++ post)) :
    Chained (n + (messages pre).length) post := by
  induction pre generalizing n with
  | nil => simpa [messages] using h
  | cons s rest ih =>
    have split : messages (s :: rest) = s.batch.messages ++ messages rest := rfl
    have next := ih _ h.2.2.2.2
    rw [split, List.length_append, ← Nat.add_assoc]
    exact next

/-- No batch of a chain starts before it or ends at or after its end. -/
theorem chained_bounds (n : Nat) (storage : List Stored) (h : Chained n storage) (s : Stored)
    (hs : s ∈ storage) : n ≤ s.batch.startSequence.toNat ∧
      s.batch.startSequence.toNat ≤ s.batch.endSequence.toNat ∧
      s.batch.endSequence.toNat < n + (messages storage).length := by
  induction storage generalizing n with
  | nil => cases hs
  | cons t rest ih =>
    obtain ⟨nonempty, -, start, finish, tail⟩ := h
    have positive := List.length_pos_iff.mpr nonempty
    have split : (messages (t :: rest)).length =
        t.batch.messages.length + (messages rest).length := by
      simp [messages]
    rcases List.mem_cons.mp hs with rfl | later
    · omega
    · have bounds := ih _ tail later
      omega

/-- A number of the chain lies in one of its batches. -/
theorem chained_split (n : Nat) (storage : List Stored) (h : Chained n storage) (k : Nat)
    (lower : n ≤ k) (upper : k < n + (messages storage).length) :
    ∃ pre s post skipped ms, storage = pre ++ s :: post ∧ s.batch.messages = skipped ++ ms ∧
      ms ≠ [] ∧ k = n + (messages pre).length + skipped.length := by
  induction storage generalizing n with
  | nil =>
    simp only [messages, List.flatMap_nil, List.length_nil] at upper
    omega
  | cons s rest ih =>
    obtain ⟨-, -, -, -, tail⟩ := h
    have length : (messages (s :: rest)).length =
        s.batch.messages.length + (messages rest).length := by
      simp [messages]
    by_cases own : k < n + s.batch.messages.length
    · refine ⟨[], s, rest, s.batch.messages.take (k - n), s.batch.messages.drop (k - n), rfl,
        (List.take_append_drop _ _).symm, ?_, ?_⟩
      · rw [← List.length_pos_iff, List.length_drop]
        omega
      · rw [List.length_take, Nat.min_eq_left (by omega)]
        simp only [messages, List.flatMap_nil, List.length_nil]
        omega
    · obtain ⟨pre, s', post, skipped, ms, rfl, split, more, place⟩ :=
        ih _ tail (by omega) (by omega)
      refine ⟨s :: pre, s', post, skipped, ms, rfl, split, more, ?_⟩
      have front : (messages (s :: pre)).length =
          s.batch.messages.length + (messages pre).length := by simp [messages]
      omega

theorem contains_iff (s : Stored) (sequence : UInt64) :
    s.info.contains sequence = true ↔ s.batch.startSequence.toNat ≤ sequence.toNat ∧
      sequence.toNat ≤ s.batch.endSequence.toNat := by
  simp [Stored.info, BatchInfo.contains, UInt64.le_iff_toNat_le]

section Lookup

variable (n : Nat) (pre : List Stored) (s : Stored) (post : List Stored)

theorem chained_front (h : Chained n (pre ++ post)) : Chained n pre := by
  induction pre generalizing n with
  | nil => trivial
  | cons t rest ih =>
    obtain ⟨nonempty, own, start, finish, tail⟩ := h
    exact ⟨nonempty, own, start, finish, ih _ tail⟩

/-- Where a batch stands in a chain. -/
theorem chained_at (h : Chained n (pre ++ s :: post)) :
    s.batch.messages ≠ [] ∧ Numbered (n + (messages pre).length) s.batch.messages ∧
      s.batch.startSequence.toNat = n + (messages pre).length ∧
      s.batch.endSequence.toNat + 1 = n + (messages pre).length + s.batch.messages.length := by
  obtain ⟨nonempty, own, start, finish, -⟩ := chained_append n pre (s :: post) h
  exact ⟨nonempty, own, start, finish⟩

theorem before_chained (h : Chained n (pre ++ s :: post)) (t : Stored) (ht : t ∈ pre) :
    t.batch.endSequence.toNat < s.batch.startSequence.toNat := by
  have bounds := chained_bounds n pre (chained_front n pre (s :: post) h) t ht
  have at_s := chained_at n pre s post h
  omega

theorem find_containing (h : Chained n (pre ++ s :: post)) (sequence : UInt64)
    (lower : s.batch.startSequence.toNat ≤ sequence.toNat)
    (upper : sequence.toNat ≤ s.batch.endSequence.toNat) :
    (pre ++ s :: post).find? (fun t => t.info.contains sequence) = some s := by
  rw [List.find?_eq_some_iff_append]
  refine ⟨(contains_iff s sequence).mpr ⟨lower, upper⟩, pre, post, rfl, ?_⟩
  intro t ht
  have before := before_chained n pre s post h t ht
  have apart : ¬ t.info.contains sequence = true := by
    rw [contains_iff]
    omega
  simpa using apart

theorem find_path (paths : ((pre ++ s :: post).map Stored.path).Nodup) :
    (pre ++ s :: post).find? (fun t => t.path = s.path) = some s := by
  rw [List.find?_eq_some_iff_append]
  refine ⟨by simp, pre, post, rfl, ?_⟩
  intro t ht
  rw [List.map_append, List.map_cons, List.nodup_append] at paths
  have different := paths.2.2 t.path (List.mem_map.mpr ⟨t, ht, rfl⟩) s.path (by simp)
  simpa using different

/-- A message with a number in the range of a batch of the chain is found in that batch. -/
theorem find_message (h : Chained n (pre ++ s :: post)) (sequence : UInt64)
    (lower : s.batch.startSequence.toNat ≤ sequence.toNat)
    (upper : sequence.toNat ≤ s.batch.endSequence.toNat) :
    s.batch.messages.find? (fun m => m.sequence = sequence) =
      (messages (pre ++ s :: post)).find? fun m => m.sequence = sequence := by
  obtain ⟨-, own, start, finish⟩ := chained_at n pre s post h
  have split : messages (pre ++ s :: post) = messages pre ++
      (s.batch.messages ++ messages post) := by
    simp [messages]
  have none_before : (messages pre).find? (fun m => m.sequence = sequence) = none := by
    rw [List.find?_eq_none]
    intro m hm
    have front := chained_numbered n pre (chained_front n pre (s :: post) h)
    have bounds := numbered_mem n (messages pre) m front hm
    simp only [decide_eq_true_eq]
    intro same
    rw [same] at bounds
    omega
  have found : ∃ m ∈ s.batch.messages, m.sequence = sequence := by
    have member : sequence.toNat ∈ s.batch.messages.map fun m => m.sequence.toNat := by
      rw [own, List.mem_range'_1]
      omega
    obtain ⟨m, hm, same⟩ := List.mem_map.mp member
    exact ⟨m, hm, UInt64.toNat_inj.mp same⟩
  obtain ⟨m, hm⟩ : ∃ m, s.batch.messages.find? (fun m => m.sequence = sequence) = some m := by
    rw [← Option.isSome_iff_exists, List.find?_isSome]
    obtain ⟨m, mem, same⟩ := found
    exact ⟨m, mem, by simpa using same⟩
  rw [split, List.find?_append, none_before, List.find?_append, hm]
  rfl

end Lookup

theorem get_eq (n : Nat) (storage : List Stored) (h : Chained n storage)
    (paths : (storage.map Stored.path).Nodup) (sequence : UInt64) :
    (bucketFetcher storage).get sequence =
      .ok ((messages storage).find? fun m => m.sequence = sequence) := by
  by_cases covered : ∃ s ∈ storage, s.info.contains sequence = true
  · obtain ⟨s, hs, contains⟩ := covered
    obtain ⟨pre, post, rfl⟩ := List.append_of_mem hs
    obtain ⟨lower, upper⟩ := (contains_iff s sequence).mp contains
    simp only [bucketFetcher, find_containing n pre s post h sequence lower upper,
      find_path pre s post paths, Option.bind_some,
      find_message n pre s post h sequence lower upper]
  · have uncovered : storage.find? (fun s => s.info.contains sequence) = none := by
      rw [List.find?_eq_none]
      intro s hs contains
      exact covered ⟨s, hs, contains⟩
    have absent : (messages storage).find? (fun m => m.sequence = sequence) = none := by
      rw [List.find?_eq_none]
      intro m hm same
      obtain ⟨s, hs, hms⟩ := List.mem_flatMap.mp hm
      obtain ⟨pre, post, rfl⟩ := List.append_of_mem hs
      obtain ⟨-, own, start, finish⟩ := chained_at n pre s post h
      have bounds := numbered_mem _ _ m own hms
      have hseq : m.sequence = sequence := by simpa using same
      apply covered
      refine ⟨s, hs, (contains_iff s sequence).mpr ?_⟩
      rw [← hseq]
      omega
    simp only [bucketFetcher, uncovered, absent]

theorem getBatchByPath_eq (pre : List Stored) (s : Stored) (post : List Stored)
    (paths : ((pre ++ s :: post).map Stored.path).Nodup) :
    (bucketFetcher (pre ++ s :: post)).getBatchByPath s.path = .ok (some s.batch) := by
  simp only [bucketFetcher, find_path pre s post paths, Option.map_some]

theorem findBatchContaining_some (batches : List BatchInfo) (sequence : UInt64) (b : BatchInfo)
    (h : findBatchContaining batches sequence = some b) :
    b ∈ batches ∧ b.contains sequence = true := by
  unfold findBatchContaining at h
  split at h
  · cases h
  · rename_i i _
    obtain ⟨found, contains⟩ := Option.filter_eq_some_iff.mp h
    exact ⟨List.mem_of_getElem? found, contains⟩

theorem findBatchContaining_at (n : Nat) (pre : List Stored) (s : Stored) (post : List Stored)
    (h : Chained n (pre ++ s :: post)) (sequence : UInt64)
    (lower : s.batch.startSequence.toNat ≤ sequence.toNat)
    (upper : sequence.toNat ≤ s.batch.endSequence.toNat) :
    findBatchContaining ((pre ++ s :: post).map Stored.info) sequence = some s.info := by
  have front : ∀ b ∈ (pre ++ [s]).map Stored.info, decide (b.startSequence ≤ sequence) = true := by
    intro b hb
    obtain ⟨t, ht, rfl⟩ := List.mem_map.mp hb
    rw [decide_eq_true_eq, UInt64.le_iff_toNat_le]
    show t.batch.startSequence.toNat ≤ sequence.toNat
    rcases List.mem_append.mp ht with earlier | own
    · have before := before_chained n pre s post h t earlier
      have bounds := chained_bounds n pre (chained_front n pre (s :: post) h) t earlier
      omega
    · rw [List.mem_singleton.mp own]
      exact lower
  have back :
      (post.map Stored.info).takeWhile (fun b => decide (b.startSequence ≤ sequence)) = [] := by
    cases post with
    | nil => rfl
    | cons t rest =>
      have at_s := chained_at n pre s (t :: rest) h
      have at_t : t.batch.startSequence.toNat = s.batch.endSequence.toNat + 1 := by
        have tail := chained_append n pre (s :: t :: rest) h
        have start := tail.2.2.2.2.2.2.1
        omega
      have later : ¬ t.info.startSequence ≤ sequence := by
        rw [UInt64.le_iff_toNat_le]
        show ¬ t.batch.startSequence.toNat ≤ sequence.toNat
        omega
      rw [List.map_cons, List.takeWhile_cons_of_neg (by simpa using later)]
  have split : (pre ++ s :: post).map Stored.info =
      (pre ++ [s]).map Stored.info ++ post.map Stored.info := by simp
  have point : partitionPoint (fun b => b.startSequence ≤ sequence)
      ((pre ++ s :: post).map Stored.info) = pre.length + 1 := by
    rw [partitionPoint, split, List.takeWhile_append_of_pos front, back]
    simp
  have here : ((pre ++ s :: post).map Stored.info)[pre.length]? = some s.info := by simp
  have contains := (contains_iff s sequence).mpr ⟨lower, upper⟩
  simp only [findBatchContaining, point, here, Option.filter_some, contains, if_true]

theorem findBatchContaining_outside (n : Nat) (storage : List Stored) (h : Chained n storage)
    (sequence : UInt64)
    (outside : sequence.toNat < n ∨ n + (messages storage).length ≤ sequence.toNat) :
    findBatchContaining (storage.map Stored.info) sequence = none := by
  cases found : findBatchContaining (storage.map Stored.info) sequence with
  | none => rfl
  | some b =>
    obtain ⟨hb, contains⟩ := findBatchContaining_some _ sequence b found
    obtain ⟨s, hs, rfl⟩ := List.mem_map.mp hb
    have range := (contains_iff s sequence).mp contains
    have bounds := chained_bounds n storage h s hs
    omega

theorem findFirst_before (n : Nat) (s : Stored) (rest : List Stored) (h : Chained n (s :: rest))
    (sequence : UInt64) (before : sequence.toNat < n) :
    findFirstBatchStartingAtOrAfter ((s :: rest).map Stored.info) sequence = some s.info := by
  have start : ¬ s.info.startSequence < sequence := by
    rw [UInt64.lt_iff_toNat_lt]
    show ¬ s.batch.startSequence.toNat < sequence.toNat
    have start := h.2.2.1
    omega
  have point : partitionPoint (fun b => b.startSequence < sequence) ((s :: rest).map Stored.info) =
      0 := by
    rw [partitionPoint, List.map_cons, List.takeWhile_cons_of_neg (by simpa using start)]
    rfl
  rw [findFirstBatchStartingAtOrAfter, point]
  rfl

theorem findFirst_past (n : Nat) (storage : List Stored) (h : Chained n storage) (sequence : UInt64)
    (past : n + (messages storage).length ≤ sequence.toNat) :
    findFirstBatchStartingAtOrAfter (storage.map Stored.info) sequence = none := by
  have all : ∀ b ∈ storage.map Stored.info, decide (b.startSequence < sequence) = true := by
    intro b hb
    obtain ⟨s, hs, rfl⟩ := List.mem_map.mp hb
    rw [decide_eq_true_eq, UInt64.lt_iff_toNat_lt]
    show s.batch.startSequence.toNat < sequence.toNat
    have bounds := chained_bounds n storage h s hs
    omega
  have point : partitionPoint (fun b => b.startSequence < sequence) (storage.map Stored.info) =
      (storage.map Stored.info).length := by
    rw [partitionPoint, List.takeWhile_eq_self_iff.mpr all]
  rw [findFirstBatchStartingAtOrAfter, point]
  exact List.getElem?_eq_none (Nat.le_refl _)

/-- Correctly signed messages with contiguous numbers from `first` on, in batches. -/
structure Storage (X : Externals) (config : ValidatorConfig) where
  batches : List Stored
  first : Nat
  chained : Chained first batches
  paths : (batches.map Stored.path).Nodup
  signedBatches : ∀ s ∈ batches, s.batch.verifyBatchSignature X = .ok ()
  signedMessages : ∀ m ∈ messages batches, SignatureVerifier.verify X config m = .ok ()
  /-- No collection holds more than `isize::MAX` items. -/
  fits : (messages batches).length < 2 ^ 63

namespace Storage

variable {X : Externals} {config : ValidatorConfig} (S : Storage X config)

/-- The number after the last message. -/
def stop : Nat := S.first + (messages S.batches).length

def fetcher : Fetcher := bucketFetcher S.batches

theorem numbered : Numbered S.first (messages S.batches) :=
  chained_numbered S.first S.batches S.chained

theorem get_message (pre : List SignedMessage) (m : SignedMessage) (post : List SignedMessage)
    (h : messages S.batches = pre ++ m :: post) : S.fetcher.get m.sequence = .ok (some m) := by
  have numbered := S.numbered
  rw [h, numbered_append, numbered_cons] at numbered
  have found : (pre ++ m :: post).find? (fun x => x.sequence = m.sequence) = some m := by
    rw [List.find?_eq_some_iff_append]
    refine ⟨by simp, pre, post, rfl, ?_⟩
    intro x hx
    have bounds := numbered_mem S.first pre x numbered.1 hx
    have different : ¬ x.sequence = m.sequence := by
      intro same
      rw [same] at bounds
      omega
    simpa using different
  rw [fetcher, get_eq S.first S.batches S.chained S.paths, h, found]

theorem get_outside (sequence : UInt64)
    (outside : sequence.toNat < S.first ∨ S.stop ≤ sequence.toNat) :
    S.fetcher.get sequence = .ok none := by
  have absent : (messages S.batches).find? (fun m => m.sequence = sequence) = none := by
    rw [List.find?_eq_none]
    intro m hm same
    have bounds := numbered_mem S.first _ m S.numbered hm
    rw [stop] at outside
    rw [decide_eq_true_eq] at same
    rw [same] at bounds
    omega
  rw [fetcher, get_eq S.first S.batches S.chained S.paths, absent]

theorem split_at (k : Nat) (lower : S.first ≤ k) (upper : k < S.stop) :
    ∃ pre m post, messages S.batches = pre ++ m :: post ∧ m.sequence.toNat = k := by
  have member : k ∈ (messages S.batches).map fun m => m.sequence.toNat := by
    rw [S.numbered, List.mem_range'_1]
    exact ⟨lower, upper⟩
  obtain ⟨m, hm, rfl⟩ := List.mem_map.mp member
  obtain ⟨pre, post, split⟩ := List.append_of_mem hm
  exact ⟨pre, m, post, split, rfl⟩

theorem get_inside (sequence : UInt64) (lower : S.first ≤ sequence.toNat)
    (upper : sequence.toNat < S.stop) : ∃ m, S.fetcher.get sequence = .ok (some m) := by
  obtain ⟨pre, m, post, split, same⟩ := S.split_at sequence.toNat lower upper
  refine ⟨m, ?_⟩
  rw [← UInt64.toNat_inj.mp same]
  exact S.get_message pre m post split

theorem first_lt_stop (h : S.batches ≠ []) : S.first < S.stop := by
  obtain ⟨s, rest, hs⟩ := List.exists_cons_of_ne_nil h
  have bounds := chained_bounds S.first S.batches S.chained s (by simp [hs])
  rw [stop]
  omega

/-- The latest sequence lies in the last batch. -/
theorem latest (h : S.batches ≠ []) : ∃ latest : UInt64,
    S.fetcher.getLatestSequence = .ok (some latest) ∧ S.first ≤ latest.toNat ∧
      latest.toNat < S.stop := by
  cases found : (S.batches.map fun s => s.batch.endSequence).max? with
  | none => simp [h] at found
  | some latest =>
    have : Std.MaxEqOr UInt64 := ⟨fun a b => by
      show (if a ≤ b then b else a) = a ∨ (if a ≤ b then b else a) = b
      by_cases h : a ≤ b
      · simp [h]
      · simp [h]⟩
    have member := List.max?_mem found
    obtain ⟨s, hs, rfl⟩ := List.mem_map.mp member
    have bounds := chained_bounds S.first S.batches S.chained s hs
    refine ⟨s.batch.endSequence, ?_, ?_, bounds.2.2⟩
    · simp only [fetcher, bucketFetcher, found]
    · omega

def Holds (k : Nat) : Prop := S.first ≤ k ∧ k < S.stop

theorem has_iff (s : UInt64) : S.fetcher.has s = true ↔ S.Holds s.toNat := by
  by_cases inside : S.Holds s.toNat
  · obtain ⟨m, answer⟩ := S.get_inside s inside.1 inside.2
    simp [Fetcher.has, answer, inside]
  · have answer := S.get_outside s (by rw [Holds] at inside; omega)
    simp [Fetcher.has, answer, inside]

theorem offset_toNat (n : UInt64) (k : Nat) (hk : k ≤ 10) :
    (n + UInt64.ofNat k).toNat = (n.toNat + k) % 2 ^ 64 := by
  rw [UInt64.toNat_add, UInt64.toNat_ofNat_of_lt' (show k < 2 ^ 64 by omega)]

/-- The first of the next ten numbers that is stored is reported. -/
theorem detectGap_near (n : UInt64) (k : Nat) (lower : 1 ≤ k) (upper : k ≤ 10)
    (stored : S.Holds ((n.toNat + k) % 2 ^ 64))
    (earlier : ∀ j, 1 ≤ j → j < k → ¬ S.Holds ((n.toNat + j) % 2 ^ 64)) :
    SingleLoop.detectGap S.fetcher n = some (n + UInt64.ofNat k) := by
  have found : (List.range' 1 10).find? (S.fetcher.has ∘ fun offset => n + UInt64.ofNat offset) =
      some k := by
    rw [List.find?_range'_eq_some]
    refine ⟨?_, List.mem_range'_1.mpr (by omega), ?_⟩
    · rw [Function.comp_apply, S.has_iff, offset_toNat n k upper]
      exact stored
    · intro j hj hjk
      rw [Bool.not_eq_true', ← Bool.not_eq_true, Function.comp_apply, S.has_iff,
        offset_toNat n j (by omega)]
      exact earlier j hj hjk
  simp only [SingleLoop.detectGap, List.find?_map, found, Option.map_some]

theorem detectGap_far (n : UInt64) (latest : Option UInt64)
    (answer : S.fetcher.getLatestSequence = .ok latest)
    (missing : ∀ j, 1 ≤ j → j ≤ 10 → ¬ S.Holds ((n.toNat + j) % 2 ^ 64)) :
    SingleLoop.detectGap S.fetcher n =
      latest.bind fun latest => if n < latest then some (n + 1) else none := by
  have found : (List.range' 1 10).find? (S.fetcher.has ∘ fun offset => n + UInt64.ofNat offset) =
      none := by
    rw [List.find?_range'_eq_none]
    intro j hj hjk
    rw [Bool.not_eq_true', ← Bool.not_eq_true, Function.comp_apply, S.has_iff,
      offset_toNat n j (by omega)]
    exact missing j hj (by omega)
  cases latest with
  | none => simp only [SingleLoop.detectGap, List.find?_map, found, Option.map_none, answer,
      Option.bind_none]
  | some l => simp only [SingleLoop.detectGap, List.find?_map, found, Option.map_none, answer,
      Option.bind_some]

theorem stop_le (h : S.batches ≠ []) : S.stop ≤ 2 ^ 64 := by
  have bound := S.first_lt_stop h
  obtain ⟨pre, m, post, -, same⟩ := S.split_at (S.stop - 1) (by omega) (by omega)
  have := m.sequence.toNat_lt
  omega

/-- Ahead of the first message the gap is found, and the next number tried is not past its end. -/
theorem detectGap_before (h : S.batches ≠ []) (n : UInt64) (before : n.toNat < S.first) :
    ∃ available, SingleLoop.detectGap S.fetcher n = some available ∧
      n.toNat < available.toNat ∧ available.toNat ≤ S.first := by
  have bound := S.first_lt_stop h
  have below := S.stop_le h
  by_cases near : S.first - n.toNat ≤ 10
  · have place : (n.toNat + (S.first - n.toNat)) % 2 ^ 64 = S.first := by
      rw [Nat.add_sub_cancel' (by omega), Nat.mod_eq_of_lt (by omega)]
    refine ⟨_, S.detectGap_near n (S.first - n.toNat) (by omega) near ?_ ?_, ?_⟩
    · rw [place]
      exact ⟨Nat.le_refl _, bound⟩
    · intro j hj hjk stored
      rw [Nat.mod_eq_of_lt (by omega)] at stored
      have := stored.1
      omega
    · rw [offset_toNat n _ near, place]
      omega
  · obtain ⟨latest, answer, lower, -⟩ := S.latest h
    have later : n < latest := by
      rw [UInt64.lt_iff_toNat_lt]
      omega
    have next : (n + 1).toNat = n.toNat + 1 := by
      rw [UInt64.toNat_add, UInt64.toNat_one, Nat.mod_eq_of_lt (by omega)]
    refine ⟨n + 1, ?_, by omega, by omega⟩
    rw [S.detectGap_far n _ answer]
    · simp [later]
    · intro j hj hjk stored
      rw [Nat.mod_eq_of_lt (by omega)] at stored
      have := stored.1
      omega

theorem detectGap_empty (h : S.batches = []) (n : UInt64) :
    SingleLoop.detectGap S.fetcher n = none := by
  have empty : S.stop = S.first := by simp [stop, h, messages]
  have answer : S.fetcher.getLatestSequence = .ok none := by simp [fetcher, bucketFetcher, h]
  rw [S.detectGap_far n _ answer]
  · rfl
  · intro j _ _ stored
    have := stored.1
    have := stored.2
    omega

/-- Past the last message no gap is found, unless the numbers tried wrap around to stored ones. -/
theorem detectGap_past (h : S.batches ≠ []) (n : UInt64) (past : S.stop ≤ n.toNat)
    (room : n.toNat + 10 < 2 ^ 64 + S.first) : SingleLoop.detectGap S.fetcher n = none := by
  have bound := n.toNat_lt
  obtain ⟨latest, answer, lower, upper⟩ := S.latest h
  have earlier : ¬ n < latest := by
    rw [UInt64.lt_iff_toNat_lt]
    omega
  rw [S.detectGap_far n _ answer]
  · simp [earlier]
  · intro j hj hjk stored
    obtain ⟨low, high⟩ := stored
    by_cases wraps : n.toNat + j < 2 ^ 64
    · rw [Nat.mod_eq_of_lt wraps] at high
      omega
    · rw [Nat.mod_eq_sub_mod (by omega), Nat.mod_eq_of_lt (by omega)] at low
      omega

/-- The numbers tried do wrap around. -/
theorem detectGap_wraps (h : S.batches ≠ []) (n : UInt64) (past : S.stop ≤ n.toNat)
    (wraps : 2 ^ 64 + S.first ≤ n.toNat + 10) :
    ∃ available, SingleLoop.detectGap S.fetcher n = some available ∧ available ≠ n := by
  have bound := n.toNat_lt
  have lt_stop := S.first_lt_stop h
  have small (j : Nat) (hj : j < 2 ^ 64 + S.first - n.toNat) :
      ¬ S.Holds ((n.toNat + j) % 2 ^ 64) := by
    intro given
    obtain ⟨low, high⟩ := given
    by_cases below : n.toNat + j < 2 ^ 64
    · rw [Nat.mod_eq_of_lt below] at high
      omega
    · rw [Nat.mod_eq_sub_mod (by omega), Nat.mod_eq_of_lt (by omega)] at low
      omega
  have place : (n.toNat + (2 ^ 64 + S.first - n.toNat)) % 2 ^ 64 = S.first := by
    rw [Nat.add_sub_cancel' (by omega), Nat.add_mod_left, Nat.mod_eq_of_lt (by omega)]
  refine ⟨_, S.detectGap_near n (2 ^ 64 + S.first - n.toNat) (by omega) (by omega) ?_ ?_, ?_⟩
  · rw [place]
    exact ⟨Nat.le_refl _, lt_stop⟩
  · intro j _ hjk
    exact small j hjk
  · rw [Ne, ← UInt64.toNat_inj, offset_toNat n _ (by omega), place]
    omega

end Storage

end SyndDB.Replication
