import SyndDB.Framework.Bisection
import SyndDB.Framework.Cursor
import SyndDB.Replication.Storage

namespace SyndDB.Replication

def BatchInfo.isEmpty (b : BatchInfo) : Bool := b.endSequence < b.startSequence

/-- Number of messages. -/
def BatchInfo.len (b : BatchInfo) : UInt64 :=
  if b.isEmpty then 0 else b.endSequence - b.startSequence + 1

/-- The sequences from `a` up to but not including `b`. -/
def interval (a b : Nat) : List UInt64 := (List.range' a (b - a)).map UInt64.ofNat

def BatchInfo.sequences (b : BatchInfo) : List UInt64 :=
  interval b.startSequence.toNat (b.endSequence.toNat + 1)

/-- Some batch has the sequence. -/
def Covered (batches : List BatchInfo) (sequence : UInt64) : Prop :=
  ∃ b ∈ batches, b.contains sequence = true

theorem contains_iff_le (b : BatchInfo) (sequence : UInt64) :
    b.contains sequence = true ↔
      b.startSequence ≤ sequence ∧ sequence ≤ b.endSequence := by
  simp [BatchInfo.contains]

theorem mem_interval (a b : Nat) (h : b ≤ 2 ^ 64) (sequence : UInt64) :
    sequence ∈ interval a b ↔ a ≤ sequence.toNat ∧ sequence.toNat < b := by
  rw [interval, List.mem_map]
  constructor
  · rintro ⟨i, hi, rfl⟩
    rw [List.mem_range'_1] at hi
    have small : i < 2 ^ 64 := by omega
    rw [UInt64.toNat_ofNat_of_lt' small]
    omega
  · rintro ⟨low, high⟩
    exact ⟨sequence.toNat, List.mem_range'_1.mpr (by omega), UInt64.ofNat_toNat⟩

theorem pairwise_interval (a b : Nat) (h : b ≤ 2 ^ 64) : (interval a b).Pairwise (· < ·) := by
  rw [interval, List.pairwise_map]
  refine List.Pairwise.imp_of_mem ?_ List.pairwise_lt_range'
  intro i j hi hj less
  rw [List.mem_range'_1] at hi hj
  have small : i < 2 ^ 64 := by omega
  have small' : j < 2 ^ 64 := by omega
  rw [UInt64.lt_iff_toNat_lt, UInt64.toNat_ofNat_of_lt' small, UInt64.toNat_ofNat_of_lt' small']
  exact less

theorem length_interval (a b : Nat) : (interval a b).length = b - a := by
  rw [interval, List.length_map, List.length_range']

theorem drop_interval (a b n : Nat) : (interval a b).drop n = interval (a + n) b := by
  rw [interval, interval, ← List.map_drop, List.drop_range', Nat.mul_one, Nat.sub_sub]

theorem mem_sequences (b : BatchInfo) (sequence : UInt64) :
    sequence ∈ b.sequences ↔ b.contains sequence = true := by
  have bound := UInt64.toNat_lt b.endSequence
  rw [BatchInfo.sequences, mem_interval _ _ (by omega), contains_iff_le, UInt64.le_iff_toNat_le,
    UInt64.le_iff_toNat_le]
  omega

structure BatchIterator where
  batchIdx : Nat
  messageOffset : UInt64
  deriving DecidableEq

namespace BatchIterator

/-- The loop of `starting_at`, from the position `idx` on. -/
def positionAt (sequence : UInt64) (idx : Nat) : List BatchInfo → BatchIterator
  | [] => ⟨idx, 0⟩
  | b :: rest =>
      if b.contains sequence then ⟨idx, sequence - b.startSequence⟩
      else if sequence < b.startSequence then ⟨idx, 0⟩
      else positionAt sequence (idx + 1) rest

def startingAt (index : List BatchInfo) (sequence : UInt64) : BatchIterator :=
  positionAt sequence 0 index

variable (index : List BatchInfo)

def currentBatch (it : BatchIterator) : Option BatchInfo := index[it.batchIdx]?

def currentSequence (it : BatchIterator) : Option UInt64 :=
  (it.currentBatch index).map fun b => b.startSequence + it.messageOffset

def isExhausted (it : BatchIterator) : Bool := index.length ≤ it.batchIdx

/-- Go to the next message, and tell whether there is one. -/
def advance (it : BatchIterator) : Bool × BatchIterator :=
  match it.currentBatch index with
  | none => (false, it)
  | some batch =>
      let messageOffset := it.messageOffset + 1
      let next :=
        if batch.len ≤ messageOffset then ⟨it.batchIdx + 1, 0⟩ else ⟨it.batchIdx, messageOffset⟩
      (!next.isExhausted index, next)

/-- The iterator after `k` messages. -/
def after (it : BatchIterator) (k : Nat) : BatchIterator := (fun i => (i.advance index).2)^[k] it

end BatchIterator

/-- Batches by their start, none of them empty, no two with a sequence in common, and none up to the
last number there is. -/
structure Indexed (batches : List BatchInfo) : Prop where
  sorted : batches.Pairwise fun a b => a.startSequence ≤ b.startSequence
  nonempty : ∀ b ∈ batches, b.isEmpty = false
  disjoint : batches.Pairwise fun a b =>
    ∀ sequence, ¬(a.contains sequence = true ∧ b.contains sequence = true)
  bounded : ∀ b ∈ batches, b.endSequence < 0xffffffffffffffff

theorem Indexed.start_le {batches : List BatchInfo} (h : Indexed batches) (b : BatchInfo)
    (hb : b ∈ batches) : b.startSequence ≤ b.endSequence := by
  have nonempty := h.nonempty b hb
  rw [BatchInfo.isEmpty, decide_eq_false_iff_not, UInt64.not_lt] at nonempty
  exact nonempty

/-- Every batch ends before the next one starts. -/
theorem Indexed.apart {batches : List BatchInfo} (h : Indexed batches) :
    batches.Pairwise fun a b => a.endSequence < b.startSequence := by
  refine (h.sorted.and h.disjoint).imp_of_mem ?_
  intro a b _ hb both
  obtain ⟨order, disjoint⟩ := both
  by_contra overlap
  have inside := UInt64.not_lt.mp overlap
  apply disjoint b.startSequence
  exact ⟨(contains_iff_le _ _).mpr ⟨order, inside⟩,
    (contains_iff_le _ _).mpr ⟨UInt64.le_refl _, h.start_le b hb⟩⟩

theorem Indexed.tail {b : BatchInfo} {rest : List BatchInfo} (h : Indexed (b :: rest)) :
    Indexed rest where
  sorted := (List.pairwise_cons.mp h.sorted).2
  nonempty := fun c hc => h.nonempty c (List.mem_cons_of_mem b hc)
  disjoint := (List.pairwise_cons.mp h.disjoint).2
  bounded := fun c hc => h.bounded c (List.mem_cons_of_mem b hc)

theorem Indexed.of_apart (batches : List BatchInfo)
    (nonempty : ∀ b ∈ batches, b.startSequence ≤ b.endSequence)
    (apart : batches.Pairwise fun a b => a.endSequence < b.startSequence)
    (bounded : ∀ b ∈ batches, b.endSequence < 0xffffffffffffffff) : Indexed batches where
  sorted := by
    refine apart.imp_of_mem ?_
    intro a b ha _ before
    exact UInt64.le_trans (nonempty a ha) (UInt64.le_of_lt before)
  nonempty := by
    intro b hb
    rw [BatchInfo.isEmpty, decide_eq_false_iff_not, UInt64.not_lt]
    exact nonempty b hb
  disjoint := by
    apply apart.imp
    intro a b before sequence both
    have below := ((contains_iff_le a sequence).mp both.1).2
    have above := ((contains_iff_le b sequence).mp both.2).1
    exact UInt64.lt_irrefl _ (UInt64.lt_of_le_of_lt (UInt64.le_trans above below) before)
  bounded := bounded

def segments (batches : List BatchInfo) : List (List UInt64) := batches.map BatchInfo.sequences

def BatchIterator.position (it : BatchIterator) : Cursor.Position :=
  ⟨it.batchIdx, it.messageOffset.toNat⟩

theorem mem_flatten_segments (batches : List BatchInfo) (sequence : UInt64) :
    sequence ∈ (segments batches).flatten ↔ Covered batches sequence := by
  rw [segments, List.mem_flatten]
  constructor
  · rintro ⟨xs, hxs, member⟩
    obtain ⟨b, hb, rfl⟩ := List.mem_map.mp hxs
    exact ⟨b, hb, (mem_sequences b sequence).mp member⟩
  · rintro ⟨b, hb, contained⟩
    exact ⟨b.sequences, List.mem_map_of_mem hb, (mem_sequences b sequence).mpr contained⟩

theorem toNat_len (b : BatchInfo) (nonempty : b.startSequence ≤ b.endSequence)
    (bounded : b.endSequence < 0xffffffffffffffff) :
    b.len.toNat = b.endSequence.toNat + 1 - b.startSequence.toNat := by
  have order := UInt64.le_iff_toNat_le.mp nonempty
  have bound : b.endSequence.toNat < 2 ^ 64 - 1 := UInt64.lt_iff_toNat_lt.mp bounded
  have inside : ¬b.isEmpty = true := by simpa [BatchInfo.isEmpty] using nonempty
  rw [BatchInfo.len, if_neg inside, UInt64.toNat_add, UInt64.toNat_sub_of_le _ _ nonempty]
  change (_ + 1) % 2 ^ 64 = _
  omega

theorem length_sequences (b : BatchInfo) :
    b.sequences.length = b.endSequence.toNat + 1 - b.startSequence.toNat := length_interval _ _

theorem getElem?_sequences (b : BatchInfo) (offset : UInt64)
    (h : offset.toNat < b.sequences.length) :
    b.sequences[offset.toNat]? = some (b.startSequence + offset) := by
  rw [length_sequences] at h
  have bound := UInt64.toNat_lt b.endSequence
  have inside : offset.toNat < b.endSequence.toNat + 1 - b.startSequence.toNat := h
  rw [BatchInfo.sequences, interval, List.getElem?_map, List.getElem?_range' inside]
  rw [Option.map_some, Nat.one_mul, UInt64.ofNat_add, UInt64.ofNat_toNat, UInt64.ofNat_toNat]

theorem currentSequence_eq (batches : List BatchInfo) (it : BatchIterator)
    (h : Cursor.Valid (segments batches) it.position) :
    it.currentSequence batches = Cursor.read (segments batches) it.position := by
  unfold BatchIterator.currentSequence BatchIterator.currentBatch Cursor.read
  have place : (segments batches)[it.position.segment]? =
      batches[it.batchIdx]?.map BatchInfo.sequences := List.getElem?_map
  rw [place]
  cases found : batches[it.batchIdx]? with
  | none => rfl
  | some b =>
    have inside := h b.sequences (by rw [place, found]; rfl)
    exact (getElem?_sequences b it.messageOffset inside).symm

theorem segments_nonempty (batches : List BatchInfo) (indexed : Indexed batches) :
    ∀ xs ∈ segments batches, xs ≠ [] := by
  intro xs hxs
  obtain ⟨b, hb, rfl⟩ := List.mem_map.mp hxs
  have order := UInt64.le_iff_toNat_le.mp (indexed.start_le b hb)
  apply List.ne_nil_of_length_pos
  rw [length_sequences]
  omega

theorem advance_position (batches : List BatchInfo) (indexed : Indexed batches) (it : BatchIterator)
    (h : Cursor.Valid (segments batches) it.position) :
    (it.advance batches).2.position = Cursor.advance (segments batches) it.position := by
  unfold BatchIterator.advance BatchIterator.currentBatch Cursor.advance
  have place : (segments batches)[it.position.segment]? =
      batches[it.batchIdx]?.map BatchInfo.sequences := List.getElem?_map
  rw [place]
  cases found : batches[it.batchIdx]? with
  | none => rfl
  | some b =>
    have hb := List.mem_of_getElem? found
    have inside : it.messageOffset.toNat < b.sequences.length :=
      h b.sequences (by rw [place, found]; rfl)
    rw [length_sequences] at inside
    have bound := UInt64.toNat_lt b.endSequence
    have step : (it.messageOffset + 1).toNat = it.messageOffset.toNat + 1 := by
      rw [UInt64.toNat_add]
      change (_ + 1) % 2 ^ 64 = _
      have small : b.endSequence.toNat < 2 ^ 64 - 1 :=
        UInt64.lt_iff_toNat_lt.mp (indexed.bounded b hb)
      omega
    have last : b.len ≤ it.messageOffset + 1 ↔ b.sequences.length ≤ it.position.offset + 1 := by
      rw [UInt64.le_iff_toNat_le, toNat_len b (indexed.start_le b hb) (indexed.bounded b hb), step,
        length_sequences]
      rfl
    dsimp only [Option.map_some]
    by_cases done : b.len ≤ it.messageOffset + 1
    · rw [if_pos done, if_pos (last.mp done)]
      rfl
    · rw [if_neg done, if_neg (mt last.mpr done), BatchIterator.position, step]
      rfl

theorem after_position (batches : List BatchInfo) (indexed : Indexed batches) (it : BatchIterator)
    (h : Cursor.Valid (segments batches) it.position) (k : Nat) :
    (it.after batches k).position = (Cursor.advance (segments batches))^[k] it.position := by
  induction k with
  | zero => rfl
  | succ k ih =>
    have valid := (Cursor.advance_iterate _ _ (segments_nonempty batches indexed) h k).1
    rw [Function.iterate_succ_apply', ← ih, ← advance_position batches indexed]
    · rw [BatchIterator.after, Function.iterate_succ_apply']
      rfl
    · rw [ih]
      exact valid

theorem positionAt_shift (sequence : UInt64) (idx : Nat) (batches : List BatchInfo) :
    BatchIterator.positionAt sequence idx batches =
      ⟨(BatchIterator.positionAt sequence 0 batches).batchIdx + idx,
        (BatchIterator.positionAt sequence 0 batches).messageOffset⟩ := by
  induction batches generalizing idx with
  | nil => simp [BatchIterator.positionAt]
  | cons b rest ih =>
    unfold BatchIterator.positionAt
    by_cases inside : b.contains sequence = true
    · simp [inside]
    · by_cases before : sequence < b.startSequence
      · simp [inside, before]
      · rw [if_neg inside, if_neg before, if_neg inside, if_neg before, ih (idx + 1), ih (0 + 1)]
        dsimp only
        congr 1
        omega

theorem startingAt_cons (b : BatchInfo) (rest : List BatchInfo) (sequence : UInt64) :
    BatchIterator.startingAt (b :: rest) sequence =
      if b.contains sequence then ⟨0, sequence - b.startSequence⟩
      else if sequence < b.startSequence then ⟨0, 0⟩
      else ⟨(BatchIterator.startingAt rest sequence).batchIdx + 1,
        (BatchIterator.startingAt rest sequence).messageOffset⟩ := by
  rw [BatchIterator.startingAt, BatchIterator.positionAt, positionAt_shift sequence (0 + 1)]
  rfl

theorem covered_cons (b : BatchInfo) (rest : List BatchInfo) (sequence : UInt64) :
    Covered (b :: rest) sequence ↔ b.contains sequence = true ∨ Covered rest sequence := by
  simp [Covered]

/-- What the batches after the first one cover lies behind it. -/
theorem end_lt_of_covered (b : BatchInfo) (rest : List BatchInfo) (indexed : Indexed (b :: rest))
    (sequence : UInt64) (h : Covered rest sequence) : b.endSequence < sequence := by
  obtain ⟨c, hc, inside⟩ := h
  have apart := (List.pairwise_cons.mp indexed.apart).1 c hc
  exact UInt64.lt_of_lt_of_le apart ((contains_iff_le c sequence).mp inside).1

/-- What is left of a batch from a sequence on. -/
theorem mem_drop_sequences (b : BatchInfo) (sequence x : UInt64)
    (low : b.startSequence ≤ sequence) :
    x ∈ b.sequences.drop (sequence - b.startSequence).toNat ↔ sequence ≤ x ∧ x ≤ b.endSequence := by
  have low' := UInt64.le_iff_toNat_le.mp low
  have offset : (sequence - b.startSequence).toNat = sequence.toNat - b.startSequence.toNat :=
    UInt64.toNat_sub_of_le _ _ low
  have bound := UInt64.toNat_lt b.endSequence
  rw [BatchInfo.sequences, drop_interval, offset, Nat.add_sub_cancel' low',
    mem_interval _ _ (by omega), UInt64.le_iff_toNat_le, UInt64.le_iff_toNat_le, Nat.lt_succ_iff]

theorem startingAt_spec (batches : List BatchInfo) (indexed : Indexed batches) (sequence : UInt64) :
    Cursor.Valid (segments batches) (BatchIterator.startingAt batches sequence).position ∧
      ∀ x, x ∈ Cursor.remaining (segments batches)
          (BatchIterator.startingAt batches sequence).position ↔
        sequence ≤ x ∧ Covered batches x := by
  induction batches with
  | nil =>
    refine ⟨?_, ?_⟩
    · intro xs found
      cases found
    · intro x
      simp [segments, Cursor.remaining, Covered]
  | cons b rest ih =>
    have order := indexed.start_le b List.mem_cons_self
    rw [startingAt_cons]
    by_cases inside : b.contains sequence = true
    · obtain ⟨low, high⟩ := (contains_iff_le b sequence).mp inside
      rw [if_pos inside]
      refine ⟨?_, ?_⟩
      · intro xs found
        cases found
        have low' := UInt64.le_iff_toNat_le.mp low
        have high' := UInt64.le_iff_toNat_le.mp high
        have offset := UInt64.toNat_sub_of_le _ _ low
        rw [length_sequences]
        change (sequence - b.startSequence).toNat < _
        omega
      · intro x
        change x ∈ b.sequences.drop (sequence - b.startSequence).toNat ++ (segments rest).flatten ↔
          _
        rw [List.mem_append, mem_drop_sequences b sequence x low, mem_flatten_segments,
          covered_cons, contains_iff_le]
        constructor
        · intro either
          rcases either with ⟨from_sequence, to_end⟩ | later
          · exact ⟨from_sequence, Or.inl ⟨UInt64.le_trans low from_sequence, to_end⟩⟩
          · have behind := end_lt_of_covered b rest indexed x later
            exact ⟨UInt64.le_trans high (UInt64.le_of_lt behind), Or.inr later⟩
        · intro both
          obtain ⟨from_sequence, here | later⟩ := both
          · exact Or.inl ⟨from_sequence, here.2⟩
          · exact Or.inr later
    · rw [if_neg inside]
      by_cases before : sequence < b.startSequence
      · rw [if_pos before]
        refine ⟨?_, ?_⟩
        · intro xs found
          cases found
          exact List.length_pos_iff.mpr (segments_nonempty _ indexed _ List.mem_cons_self)
        · intro x
          have whole := Cursor.remaining_start (segments (b :: rest)) 0
          change x ∈ Cursor.remaining (segments (b :: rest)) ⟨0, 0⟩ ↔ _
          rw [whole, List.drop_zero, mem_flatten_segments]
          refine ⟨fun covered => ⟨?_, covered⟩, fun both => both.2⟩
          have first : b.startSequence ≤ x := by
            rcases (covered_cons b rest x).mp covered with here | later
            · exact ((contains_iff_le b x).mp here).1
            · exact UInt64.le_trans order
                (UInt64.le_of_lt (end_lt_of_covered b rest indexed x later))
          exact UInt64.le_trans (UInt64.le_of_lt before) first
      · rw [if_neg before]
        obtain ⟨valid, members⟩ := ih indexed.tail
        have past : b.endSequence < sequence := by
          by_contra inside'
          exact inside ((contains_iff_le b sequence).mpr
            ⟨UInt64.not_lt.mp before, UInt64.not_lt.mp inside'⟩)
        refine ⟨Cursor.valid_cons (segments rest) b.sequences _ valid, ?_⟩
        intro x
        have same := Cursor.remaining_cons (segments rest) b.sequences
          (BatchIterator.startingAt rest sequence).position
        change x ∈ Cursor.remaining (b.sequences :: segments rest)
          ⟨(BatchIterator.startingAt rest sequence).position.segment + 1,
            (BatchIterator.startingAt rest sequence).position.offset⟩ ↔ _
        rw [same, members x, covered_cons, contains_iff_le]
        constructor
        · rintro ⟨from_sequence, later⟩
          exact ⟨from_sequence, Or.inr later⟩
        · rintro ⟨from_sequence, here | later⟩
          · exact absurd (UInt64.lt_of_lt_of_le past from_sequence) (UInt64.not_lt.mpr here.2)
          · exact ⟨from_sequence, later⟩

theorem sequences_increasing (batches : List BatchInfo) (indexed : Indexed batches) :
    (segments batches).flatten.Pairwise (· < ·) := by
  rw [segments, List.pairwise_flatten]
  constructor
  · intro xs hxs
    obtain ⟨b, -, rfl⟩ := List.mem_map.mp hxs
    have bound := UInt64.toNat_lt b.endSequence
    exact pairwise_interval _ _ (by omega)
  · rw [List.pairwise_map]
    apply indexed.apart.imp
    intro a b apart x hx y hy
    have below := ((contains_iff_le a x).mp ((mem_sequences a x).mp hx)).2
    have above := ((contains_iff_le b y).mp ((mem_sequences b y).mp hy)).1
    exact UInt64.lt_of_lt_of_le (UInt64.lt_of_le_of_lt below apart) above

/-- The binary searches find the partition points. -/
theorem partitionPoint_bisection (batches : List BatchInfo) (indexed : Indexed batches)
    (p : BatchInfo → Bool)
    (down : ∀ a b : BatchInfo, a.startSequence ≤ b.startSequence → p b = true → p a = true) :
    Bisection.partitionPoint p batches = partitionPoint p batches := by
  rw [partitionPoint]
  apply Bisection.partitionPoint_eq
  apply indexed.sorted.imp
  intro a b order later
  exact down a b order later

theorem findBatchContaining_iff (batches : List BatchInfo) (indexed : Indexed batches)
    (sequence : UInt64) (b : BatchInfo) :
    findBatchContaining batches sequence = some b ↔ b ∈ batches ∧ b.contains sequence = true := by
  constructor
  · exact findBatchContaining_some batches sequence b
  · rintro ⟨hb, inside⟩
    obtain ⟨pre, post, rfl⟩ := List.append_of_mem hb
    obtain ⟨low, high⟩ := (contains_iff_le b sequence).mp inside
    obtain ⟨-, apart, before⟩ := List.pairwise_append.mp indexed.apart
    have front : ∀ a ∈ pre ++ [b], (decide (a.startSequence ≤ sequence)) = true := by
      intro a ha
      rcases List.mem_append.mp ha with ha | ha
      · have first := before a ha b List.mem_cons_self
        have order := indexed.start_le a (List.mem_append_left _ ha)
        exact decide_eq_true (UInt64.le_trans (UInt64.le_trans order (UInt64.le_of_lt first)) low)
      · rw [List.mem_singleton.mp ha]
        exact decide_eq_true low
    have back : post.takeWhile (fun a => a.startSequence ≤ sequence) = [] := by
      cases post with
      | nil => rfl
      | cons c post =>
        have next := (List.pairwise_cons.mp apart).1 c List.mem_cons_self
        have far : ¬c.startSequence ≤ sequence :=
          UInt64.not_le.mpr (UInt64.lt_of_le_of_lt high next)
        rw [List.takeWhile_cons_of_neg (by simpa using far)]
    have point : partitionPoint (fun a => a.startSequence ≤ sequence) (pre ++ b :: post) =
        pre.length + 1 := by
      rw [partitionPoint, List.append_cons, List.takeWhile_append_of_pos front, back,
        List.append_nil, List.length_append, List.length_singleton]
    simp [findBatchContaining, point, inside]

theorem getElem?_length_takeWhile {α : Type} (p : α → Bool) (xs : List α) :
    xs[(xs.takeWhile p).length]? = xs.find? fun x => !p x := by
  induction xs with
  | nil => rfl
  | cons x xs ih =>
    cases px : p x with
    | true => simpa [px] using ih
    | false => simp [px]

theorem advance_fst (batches : List BatchInfo) (it : BatchIterator) :
    (it.advance batches).1 = !(it.advance batches).2.isExhausted batches := by
  unfold BatchIterator.advance
  cases found : it.currentBatch batches with
  | none =>
    have behind : batches.length ≤ it.batchIdx := List.getElem?_eq_none_iff.mp found
    simp [BatchIterator.isExhausted, behind]
  | some b => rfl

theorem after_succ (batches : List BatchInfo) (it : BatchIterator) (k : Nat) :
    ((it.after batches k).advance batches).2 = it.after batches (k + 1) := by
  rw [BatchIterator.after, BatchIterator.after, Function.iterate_succ_apply']

/-- From a valid position the remaining sequences are gone through. -/
theorem after_spec (batches : List BatchInfo) (indexed : Indexed batches) (it : BatchIterator)
    (h : Cursor.Valid (segments batches) it.position) (k : Nat) :
    (it.after batches k).currentSequence batches =
        (Cursor.remaining (segments batches) it.position)[k]? ∧
      ((it.after batches k).isExhausted batches = true ↔
        (Cursor.remaining (segments batches) it.position).length ≤ k) := by
  have place := after_position batches indexed it h k
  obtain ⟨valid, left⟩ :=
    Cursor.advance_iterate _ _ (segments_nonempty batches indexed) h k
  rw [← place] at valid left
  constructor
  · rw [currentSequence_eq batches _ valid, Cursor.read_eq _ _ valid, left, List.head?_drop]
  · have exhausted := Cursor.exhausted_iff _ _ valid
    rw [left, List.drop_eq_nil_iff] at exhausted
    rw [← exhausted, segments, List.length_map, BatchIterator.isExhausted, decide_eq_true_iff]
    rfl

/-- Lookups find the batch with a sequence and the first batch from a sequence on, and the iterator
goes through the covered sequences from where it starts. -/
theorem batchIndex_exact (batches : List BatchInfo) (indexed : Indexed batches)
    (sequence : UInt64) :
    (∀ b, findBatchContaining batches sequence = some b ↔
      b ∈ batches ∧ b.contains sequence = true) ∧
    (findBatchContaining batches sequence = none ↔ ¬Covered batches sequence) ∧
    findFirstBatchStartingAtOrAfter batches sequence =
      batches.find? (fun b => sequence ≤ b.startSequence) ∧
    (partitionPoint (fun b => b.startSequence ≤ sequence) batches =
        Bisection.partitionPoint (fun b => b.startSequence ≤ sequence) batches ∧
      partitionPoint (fun b => b.startSequence < sequence) batches =
        Bisection.partitionPoint (fun b => b.startSequence < sequence) batches) ∧
    ∃ covered : List UInt64, covered.Pairwise (· < ·) ∧
      (∀ x, x ∈ covered ↔ sequence ≤ x ∧ Covered batches x) ∧
      ∀ k, (((BatchIterator.startingAt batches sequence).after batches k).currentSequence batches =
          covered[k]?) ∧
        (((BatchIterator.startingAt batches sequence).after batches k).isExhausted batches = true ↔
          covered.length ≤ k) ∧
        ((((BatchIterator.startingAt batches sequence).after batches k).advance batches).1 = true ↔
          k + 1 < covered.length) := by
  refine ⟨findBatchContaining_iff batches indexed sequence, ?_, ?_, ⟨?_, ?_⟩, ?_⟩
  · rw [Option.eq_none_iff_forall_ne_some]
    constructor
    · rintro none ⟨b, hb, inside⟩
      exact none b ((findBatchContaining_iff batches indexed sequence b).mpr ⟨hb, inside⟩)
    · intro uncovered b found
      exact uncovered ⟨b, (findBatchContaining_iff batches indexed sequence b).mp found⟩
  · rw [findFirstBatchStartingAtOrAfter, partitionPoint, getElem?_length_takeWhile]
    congr 1
    funext b
    by_cases before : b.startSequence < sequence
    · simp [before, UInt64.not_le.mpr before]
    · simp [before, UInt64.not_lt.mp before]
  · refine (partitionPoint_bisection batches indexed _ ?_).symm
    intro a b order later
    exact decide_eq_true (UInt64.le_trans order (of_decide_eq_true later))
  · refine (partitionPoint_bisection batches indexed _ ?_).symm
    intro a b order later
    exact decide_eq_true (UInt64.lt_of_le_of_lt order (of_decide_eq_true later))
  · obtain ⟨valid, members⟩ := startingAt_spec batches indexed sequence
    refine ⟨_, (sequences_increasing batches indexed).sublist (Cursor.remaining_sublist _ _),
      members, ?_⟩
    intro k
    obtain ⟨current, exhausted⟩ := after_spec batches indexed _ valid k
    obtain ⟨-, next⟩ := after_spec batches indexed _ valid (k + 1)
    refine ⟨current, exhausted, ?_⟩
    rw [advance_fst, after_succ, Bool.not_eq_true', Bool.eq_false_iff, ne_eq, next, Nat.not_le]

/-- Sequences 3 to 5, and after a gap 8 and 9. -/
def gappedIndex : List BatchInfo :=
  [⟨3, 5, "batches/000000000003_000000000005.cbor.zst"⟩,
   ⟨8, 9, "batches/000000000008_000000000009.cbor.zst"⟩]

theorem batchIndex_exact_gapped :
    findBatchContaining gappedIndex 9 = some ⟨8, 9, "batches/000000000008_000000000009.cbor.zst"⟩ ∧
      findBatchContaining gappedIndex 7 = none := by
  have indexed : Indexed gappedIndex := Indexed.of_apart _ (by decide) (by decide) (by decide)
  refine ⟨((batchIndex_exact gappedIndex indexed 9).1 _).mpr (by decide), ?_⟩
  exact (batchIndex_exact gappedIndex indexed 7).2.1.mpr (by unfold Covered; decide)

example : (List.range 6).map (fun k => ((BatchIterator.startingAt gappedIndex 4).after gappedIndex
    k).currentSequence gappedIndex) = [some 4, some 5, some 8, some 9, none, none] := by
  decide

end SyndDB.Replication
