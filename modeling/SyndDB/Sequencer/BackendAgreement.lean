import SyndDB.Sequencer.LocalTransport

namespace SyndDB.Sequencer.Local

open Octets Shared

variable (X : Externals) (C : Codec)

/-- What SQLite may answer to a query for one row without `ORDER BY`. -/
structure Chooses (choose : List StoredBatch → Option StoredBatch) : Prop where
  none : choose [] = none
  some : ∀ rows, rows ≠ [] → ∃ row ∈ rows, choose rows = some row

/-- The queries give the same results in both storages. -/
structure SameAnswers (m d : StorageInner) : Prop where
  fetch : ∀ startSequence, d.fetch C startSequence = m.fetch C startSequence
  list : d.listBatches = m.listBatches
  message : ∀ choose, Chooses choose → ∀ sequence,
    d.getMessage X C choose sequence = m.getMessage X C choose sequence
  latest : d.latestSequence = m.latestSequence

/-- A batch can be fetched once its publication returned. -/
def Publishes (s : StorageInner) (batch : CborBatch) : Prop :=
  ∀ metadata, (s.publish C batch none).1 = .ok metadata →
    (s.publish C batch none).2.fetch C batch.startSequence = .ok (some batch)

/-- The two backends agree from an empty storage on, after each of the calls. -/
structure BackendsAgree (calls : List CborBatch) : Prop where
  answers : ∀ before after, calls = before ++ after →
    SameAnswers X C (published C emptyMemory before) (published C emptySqlite before)
  publishes : ∀ before batch after, calls = before ++ batch :: after →
    Publishes C (published C emptyMemory before) batch ∧
      Publishes C (published C emptySqlite before) batch

/-- The ranges fit SQLite's integers, no start is used for two batches, and batches that overlap
hold the same messages there. -/
structure Compatible (batches : Set CborBatch) : Prop where
  fits : ∀ b ∈ batches, b.startSequence.toNat < 2 ^ 63 ∧ b.endSequence.toNat < 2 ^ 63
  apart : ∀ b ∈ batches, ∀ b' ∈ batches, b.startSequence = b'.startSequence → b = b'
  overlap : ∀ b ∈ batches, ∀ b' ∈ batches, ∀ sequence,
    b.startSequence ≤ sequence → sequence ≤ b.endSequence →
    b'.startSequence ≤ sequence → sequence ≤ b'.endSequence →
    messageOf X b sequence = messageOf X b' sequence

/-- The batches of calls that can be written. -/
def written (calls : List CborBatch) : Set CborBatch := {b | b ∈ calls ∧ (rowOf C b).isSome = true}

/-- The rows are those of the batches that were published. -/
def Held (calls : List CborBatch) (rows : List StoredBatch) : Prop :=
  ∀ row, row ∈ rows ↔ ∃ b ∈ calls, rowOf C b = some row

section Runs

variable {X C}

theorem published_concat (s : StorageInner) (calls : List CborBatch) (batch : CborBatch) :
    published C s (calls ++ [batch]) = ((published C s calls).publish C batch none).2 := by
  rw [published, List.foldl_append]
  rfl

theorem published_append (s : StorageInner) (before after : List CborBatch) :
    published C s (before ++ after) = published C (published C s before) after := by
  rw [published, List.foldl_append]
  rfl

theorem memory_run (state : MemoryState) (calls : List CborBatch) :
    ∃ state', published C (.Memory state) calls = .Memory state' := by
  induction calls generalizing state with
  | nil => exact ⟨state, rfl⟩
  | cons batch calls ih =>
    cases row : rowOf C batch with
    | none =>
      obtain ⟨e, failed⟩ := publish_failed (.Memory state) batch row
      rw [published, List.foldl_cons, failed]
      exact ih state
    | some row' =>
      rw [published, List.foldl_cons, publish_memory state batch row' row]
      exact ih _

/-- Rows stay, and new ones are those of the calls. -/
theorem sqlite_run (conn : Connection) (calls : List CborBatch) :
    ∃ conn', published C (.Sqlite conn) calls = .Sqlite conn' ∧
      (∀ row ∈ conn.rows, row ∈ conn'.rows) ∧
      ∀ row ∈ conn'.rows, row ∈ conn.rows ∨ ∃ b ∈ calls, rowOf C b = some row := by
  induction calls generalizing conn with
  | nil => exact ⟨conn, rfl, fun _ => id, fun _ => .inl⟩
  | cons batch calls ih =>
    cases hrow : rowOf C batch with
    | none =>
      obtain ⟨e, failed⟩ := publish_failed (.Sqlite conn) batch hrow
      obtain ⟨conn', run, keeps, origin⟩ := ih conn
      refine ⟨conn', ?_, keeps, ?_⟩
      · rw [published, List.foldl_cons, failed]
        exact run
      · intro row member
        refine (origin row member).imp_right ?_
        rintro ⟨b, hb, same⟩
        exact ⟨b, by simp [hb], same⟩
    | some new =>
      obtain ⟨metadata, returned⟩ := publish_sqlite conn batch new hrow
      obtain ⟨conn', run, keeps, origin⟩ := ih (conn.insert new none).2
      refine ⟨conn', ?_, ?_, ?_⟩
      · rw [published, List.foldl_cons, returned]
        exact run
      · intro row member
        exact keeps row ((insert_mem conn new row).1 member)
      · intro row member
        rcases origin row member with inserted | ⟨b, hb, same⟩
        · rcases (insert_mem conn new row).2 inserted with rfl | old
          · exact .inr ⟨batch, by simp, hrow⟩
          · exact .inl old
        · exact .inr ⟨b, by simp [hb], same⟩

theorem Compatible.front {before after : List CborBatch}
    (h : Compatible X (written C (before ++ after))) : Compatible X (written C before) := by
  have more : written C before ⊆ written C (before ++ after) :=
    fun b member => ⟨List.mem_append_left _ member.1, member.2⟩
  exact ⟨fun b hb => h.fits b (more hb), fun b hb b' hb' => h.apart b (more hb) b' (more hb'),
    fun b hb b' hb' => h.overlap b (more hb) b' (more hb')⟩

/-- Where the start of a compatible batch is taken, it is by the same batch. -/
theorem stored_of_start (calls : List CborBatch) (batch : CborBatch)
    (h : Compatible X (written C (calls ++ [batch]))) (rows : List StoredBatch)
    (held : Held C calls rows) (new other : StoredBatch) (hrow : rowOf C batch = some new)
    (found : SortedRows.get StoredBatch.key new.key rows = some other) : new ∈ rows := by
  obtain ⟨member, key⟩ := SortedRows.mem_of_get rows _ other found
  obtain ⟨b, hb, hother⟩ := (held other).mp member
  have starts : b.startSequence = batch.startSequence := by
    rw [← (rowOf_range b other hother).1, ← (rowOf_range batch new hrow).1]
    exact UInt64.toNat_inj.mp key
  have again := h.apart b ⟨by simp [hb], by rw [hother]; rfl⟩ batch
    ⟨by simp, by rw [hrow]; rfl⟩ starts
  subst again
  obtain rfl := Option.some.inj (hother.symm.trans hrow)
  exact member

/-- Compatible batches leave the same rows in both storages. -/
theorem same_rows (calls : List CborBatch) (h : Compatible X (written C calls)) :
    ∃ state conn, published C emptyMemory calls = .Memory state ∧
      published C emptySqlite calls = .Sqlite conn ∧ state.batches = conn.rows ∧
      Held C calls conn.rows := by
  induction calls using List.reverseRecOn with
  | nil => exact ⟨_, _, rfl, rfl, rfl, by simp [Held]⟩
  | append_singleton calls batch ih =>
    obtain ⟨state, conn, memory, sqlite, same, held⟩ := ih h.front
    rw [published_concat, published_concat, memory, sqlite]
    have wider (rows : List StoredBatch)
        (added : ∀ row, row ∈ rows ↔ row ∈ conn.rows ∨ rowOf C batch = some row) :
        Held C (calls ++ [batch]) rows := by
      intro row
      rw [added, held row]
      simp [or_and_right, exists_or]
    cases hrow : rowOf C batch with
    | none =>
      obtain ⟨e, failed⟩ := publish_failed (.Memory state) batch hrow
      obtain ⟨e', failed'⟩ := publish_failed (.Sqlite conn) batch hrow
      rw [failed, failed']
      exact ⟨state, conn, rfl, rfl, same, wider _ (by simp [hrow])⟩
    | some new =>
      obtain ⟨metadata, returned⟩ := publish_sqlite conn batch new hrow
      obtain ⟨start, finish⟩ := rowOf_range batch new hrow
      have fits : new.Fits := by
        have numbers := h.fits batch ⟨by simp, by rw [hrow]; rfl⟩
        rwa [StoredBatch.Fits, start, finish]
      have rows : (conn.insert new none).2.rows = SortedRows.put StoredBatch.key new conn.rows := by
        rw [insert_rows]
        cases found : SortedRows.get StoredBatch.key new.key conn.rows with
        | none => rw [if_pos ⟨fits, rfl⟩]
        | some other =>
          have taken := stored_of_start calls batch h conn.rows held new other hrow found
          rw [if_neg (by simp), SortedRows.put_of_mem _ _ conn.sorted taken]
      have there : new ∈ (conn.insert new none).2.rows := by
        rw [rows]
        exact (SortedRows.mem_put new new conn.rows conn.sorted).mpr (.inl rfl)
      rw [publish_memory state batch new hrow, returned]
      refine ⟨_, _, rfl, rfl, ?_, ?_⟩
      · rw [rows, ← same]
        rfl
      · apply wider
        intro row
        obtain ⟨keeps, origin⟩ := insert_mem conn new row
        rw [hrow, Option.some.injEq]
        constructor
        · intro member
          rcases origin member with rfl | old
          · exact .inr rfl
          · exact .inl old
        · intro either
          rcases either with old | rfl
          · exact keeps old
          · exact there

/-- SQLite may answer with any row that contains the sequence. -/
theorem exists_chooses (conn : Connection) (b : CborBatch) (row : StoredBatch)
    (hrow : rowOf C b = some row)
    (member : row ∈ conn.rows) (sequence : UInt64) (low : b.startSequence ≤ sequence)
    (high : sequence ≤ b.endSequence) :
    ∃ choose, Chooses choose ∧ (StorageInner.Sqlite conn).findContaining choose sequence =
      some row := by
  obtain ⟨start, finish⟩ := rowOf_range b row hrow
  have small : sequence.toNat < 2 ^ 63 := by
    have bound := (conn.fits row member).2
    rw [finish] at bound
    have le := UInt64.le_iff_toNat_le.mp high
    omega
  have contained : row ∈ conn.rows.filter fun stored => stored.Contains sequence := by
    refine List.mem_filter.mpr ⟨member, decide_eq_true ?_⟩
    rw [StoredBatch.Contains, start, finish]
    exact ⟨low, high⟩
  let choose : List StoredBatch → Option StoredBatch := fun rows =>
    if row ∈ rows then some row else rows.head?
  refine ⟨choose, ⟨by simp [choose], fun rows nonempty => ?_⟩, ?_⟩
  · by_cases listed : row ∈ rows
    · exact ⟨row, listed, if_pos listed⟩
    · refine ⟨rows.head nonempty, List.head_mem nonempty, ?_⟩
      exact (if_neg listed).trans (List.head?_eq_some_head nonempty)
  · rw [StorageInner.findContaining, if_pos small]
    exact if_pos contained

end Runs

section Queries

variable {X C} (lossless : C.Lossless)

include lossless

theorem getMessage_found (s : StorageInner) (choose : List StoredBatch → Option StoredBatch)
    (sequence : UInt64) (b : CborBatch) (typed : b.Typed) (row : StoredBatch)
    (h : rowOf C b = some row) (found : s.findContaining choose sequence = some row) :
    s.getMessage X C choose sequence = .ok (messageOf X b sequence) := by
  have decoded := rowOf_decodes lossless b typed row h
  simp only [StorageInner.getMessage, found, decoded, serialized, Except.mapError, Outcome.ok_bind]
  rfl

theorem fetch_row (s : StorageInner) (b : CborBatch) (typed : b.Typed) (row : StoredBatch)
    (h : rowOf C b = some row) (member : row ∈ s.batches) (small : b.startSequence.toNat < 2 ^ 63) :
    s.fetch C b.startSequence = .ok (some b) := by
  have decoded := rowOf_decodes lossless b typed row h
  have key : row.key = b.startSequence.toNat := by
    rw [StoredBatch.key, (rowOf_range b row h).1]
  have data : s.getBatchCompressed b.startSequence = some row.compressedData := by
    cases s with
    | Memory state =>
      have found := SortedRows.get_of_mem state.batches state.sorted row member
      rw [key] at found
      rw [StorageInner.getBatchCompressed, found]
      rfl
    | Sqlite conn =>
      have found := SortedRows.get_of_mem conn.rows conn.sorted row member
      rw [key] at found
      rw [StorageInner.getBatchCompressed, if_pos small, found]
      rfl
  simp only [StorageInner.fetch, data, decoded, serialized, Except.mapError, Outcome.ok_bind]
  rfl

/-- A batch that SQLite gives back was published, and its row is there. -/
theorem row_of_fetch (calls : List CborBatch) (typed : ∀ b ∈ calls, b.Typed) (conn : Connection)
    (origin : ∀ row ∈ conn.rows, ∃ b ∈ calls, rowOf C b = some row) (startSequence : UInt64)
    (b : CborBatch) (h : (StorageInner.Sqlite conn).fetch C startSequence = .ok (some b)) :
    ∃ row ∈ conn.rows, rowOf C b = some row := by
  unfold StorageInner.fetch at h
  cases data : (StorageInner.Sqlite conn).getBatchCompressed startSequence with
  | none => simp [data] at h
  | some bytes =>
    rw [StorageInner.getBatchCompressed] at data
    split at data
    · obtain ⟨row, found, rfl⟩ := Option.map_eq_some_iff.mp data
      obtain ⟨member, -⟩ := SortedRows.mem_of_get conn.rows _ row found
      obtain ⟨b', hb', hrow⟩ := origin row member
      have decoded := rowOf_decodes lossless b' (typed b' hb') row hrow
      have data' : (StorageInner.Sqlite conn).getBatchCompressed startSequence =
          some row.compressedData := by
        rw [StorageInner.getBatchCompressed, if_pos (by assumption)]
        exact data
      simp only [data', decoded, serialized, Except.mapError, Outcome.ok_bind] at h
      obtain rfl : b' = b := Option.some.inj (Except.ok.inj h)
      exact ⟨row, member, hrow⟩
    · cases data

/-- Storages with the rows of compatible batches give the same answers. -/
theorem sameAnswers_of_rows (calls : List CborBatch) (typed : ∀ b ∈ calls, b.Typed)
    (h : Compatible X (written C calls)) (state : MemoryState) (conn : Connection)
    (same : state.batches = conn.rows) (held : Held C calls conn.rows) :
    SameAnswers X C (.Memory state) (.Sqlite conn) := by
  constructor
  · intro start
    have data : (StorageInner.Sqlite conn).getBatchCompressed start =
        (StorageInner.Memory state).getBatchCompressed start := by
      simp only [StorageInner.getBatchCompressed, same]
      split
      · rfl
      · next large =>
        cases found : SortedRows.get StoredBatch.key start.toNat conn.rows with
        | none => rfl
        | some row =>
          obtain ⟨member, key⟩ := SortedRows.mem_of_get conn.rows _ row found
          have small := (conn.fits row member).1
          rw [StoredBatch.key] at key
          omega
    rw [StorageInner.fetch, StorageInner.fetch, data]
  · simp only [StorageInner.listBatches, StorageInner.batches, same]
  · intro choose chooses sequence
    have inside (row : StoredBatch)
        (member : row ∈ conn.rows.filter fun stored => stored.Contains sequence) :
        ∃ b ∈ calls, rowOf C b = some row ∧ b.startSequence ≤ sequence ∧ sequence ≤
          b.endSequence := by
      obtain ⟨old, contains⟩ := List.mem_filter.mp member
      obtain ⟨b, hb, hrow⟩ := (held row).mp old
      obtain ⟨start, finish⟩ := rowOf_range b row hrow
      have range : row.Contains sequence := by simpa using contains
      rw [StoredBatch.Contains, start, finish] at range
      exact ⟨b, hb, hrow, range⟩
    have first : (StorageInner.Memory state).findContaining choose sequence =
        (conn.rows.filter fun stored => stored.Contains sequence).head? := by
      rw [StorageInner.findContaining, same, List.head?_filter]
    by_cases none : (conn.rows.filter fun stored => stored.Contains sequence) = []
    · have mem : (StorageInner.Memory state).findContaining choose sequence = .none := by
        rw [first, none]
        rfl
      have sql : (StorageInner.Sqlite conn).findContaining choose sequence = .none := by
        rw [StorageInner.findContaining, none, chooses.none, ite_self]
      rw [StorageInner.getMessage, StorageInner.getMessage, mem, sql]
    · obtain ⟨row, member, chosen⟩ := chooses.some _ none
      obtain ⟨b, hb, hrow, low, high⟩ := inside row member
      obtain ⟨row', hfirst⟩ : ∃ row',
          (conn.rows.filter fun stored => stored.Contains sequence).head? =
          some row' := ⟨_, List.head?_eq_some_head none⟩
      obtain ⟨b', hb', hrow', low', high'⟩ := inside row' (List.mem_of_head? hfirst)
      have small : sequence.toNat < 2 ^ 63 := by
        have bound := (h.fits b ⟨hb, by rw [hrow]; rfl⟩).2
        have le := UInt64.le_iff_toNat_le.mp high
        omega
      have sql : (StorageInner.Sqlite conn).findContaining choose sequence = some row := by
        rw [StorageInner.findContaining, if_pos small, chosen]
      rw [getMessage_found lossless _ choose sequence b (typed b hb) row hrow sql,
        getMessage_found lossless _ choose sequence b' (typed b' hb') row' hrow'
          (first.trans hfirst),
        h.overlap b ⟨hb, by rw [hrow]; rfl⟩ b' ⟨hb', by rw [hrow']; rfl⟩ sequence low high
          low' high']
  · simp only [StorageInner.latestSequence, StorageInner.batches, same]

/-- Where publications can be fetched, every written batch has its row in the table. -/
theorem stored_of_publishes (calls : List CborBatch) (typed : ∀ b ∈ calls, b.Typed)
    (h : ∀ before batch after, calls = before ++ batch :: after →
      Publishes C (published C emptySqlite before) batch)
    (conn : Connection) (final : published C emptySqlite calls = .Sqlite conn) (b : CborBatch)
    (hb : b ∈ calls) (row : StoredBatch) (hrow : rowOf C b = some row) : row ∈ conn.rows := by
  obtain ⟨before, after, rfl⟩ := List.append_of_mem hb
  obtain ⟨start, run, -, -⟩ := sqlite_run (C := C) ⟨[], List.Pairwise.nil, by simp⟩ before
  obtain ⟨metadata, returned⟩ := publish_sqlite start b row hrow
  have run' : published C emptySqlite before = .Sqlite start := run
  have fetched := h before b after rfl metadata (by rw [run', returned])
  rw [run', returned] at fetched
  obtain ⟨next, whole, -, origin⟩ :=
    sqlite_run (C := C) ⟨[], List.Pairwise.nil, by simp⟩ (before ++ [b])
  have same : StorageInner.Sqlite next = .Sqlite (start.insert row none).2 := by
    rw [← whole]
    change published C emptySqlite (before ++ [b]) = _
    rw [published_concat, run', returned]
  cases same
  have origin' :
      ∀ row' ∈ (start.insert row none).2.rows, ∃ b' ∈ before ++ [b], rowOf C b' = some row' := by
    intro row' member
    rcases origin row' member with old | new
    · cases old
    · exact new
  have typed' : ∀ b' ∈ before ++ [b], b'.Typed := by
    intro b' member
    apply typed
    rcases List.mem_append.mp member with early | last
    · exact List.mem_append_left _ early
    · exact List.mem_append_right _ (by simpa using .inl (List.mem_singleton.mp last))
  obtain ⟨row', there, again⟩ := row_of_fetch lossless _ typed' _ origin' _ b fetched
  obtain rfl := Option.some.inj (hrow.symm.trans again)
  obtain ⟨last, rest, keeps, -⟩ := sqlite_run (C := C) (start.insert row none).2 after
  have ends : StorageInner.Sqlite conn = .Sqlite last := by
    rw [← final, ← rest, show before ++ b :: after = before ++ [b] ++ after by simp,
      published_append, published_concat, run', returned]
  cases ends
  exact keeps row there

/-- A storage that holds the rows of all batches gives a published one back. -/
theorem publishes_of_held (before : List CborBatch) (batch : CborBatch) (typed : batch.Typed)
    (front : Compatible X (written C (before ++ [batch]))) (s : StorageInner)
    (held : Held C (before ++ [batch]) (s.publish C batch none).2.batches) :
      Publishes C s batch := by
  intro metadata returned
  cases hrow : rowOf C batch with
  | none =>
    obtain ⟨e, failed⟩ := publish_failed s batch hrow
    rw [failed] at returned
    cases returned
  | some row =>
    apply fetch_row lossless _ batch typed row hrow
    · exact (held row).mpr ⟨batch, by simp, hrow⟩
    · exact (front.fits batch ⟨by simp, by rw [hrow]; rfl⟩).1

/-- The backends agree on exactly the sequences of compatible batches. -/
theorem backends_agree_iff (calls : List CborBatch) (typed : ∀ b ∈ calls, b.Typed) :
    BackendsAgree X C calls ↔ Compatible X (written C calls) := by
  constructor
  · intro agree
    obtain ⟨state, memory⟩ := memory_run (C := C) ⟨[], List.Pairwise.nil⟩ calls
    obtain ⟨conn, sqlite, -, -⟩ := sqlite_run (C := C) ⟨[], List.Pairwise.nil, by simp⟩ calls
    have memory' : published C emptyMemory calls = .Memory state := memory
    have sqlite' : published C emptySqlite calls = .Sqlite conn := sqlite
    have there := stored_of_publishes lossless calls typed
      (fun before batch after split => (agree.publishes before batch after split).2) conn sqlite'
    have answers := agree.answers calls [] (List.append_nil calls).symm
    rw [memory', sqlite'] at answers
    refine ⟨?_, ?_, ?_⟩
    · rintro b ⟨hb, isSome⟩
      obtain ⟨row, hrow⟩ := Option.isSome_iff_exists.mp isSome
      obtain ⟨start, finish⟩ := rowOf_range b row hrow
      have fits := conn.fits row (there b hb row hrow)
      rwa [StoredBatch.Fits, start, finish] at fits
    · rintro b ⟨hb, isSome⟩ b' ⟨hb', isSome'⟩ starts
      obtain ⟨row, hrow⟩ := Option.isSome_iff_exists.mp isSome
      obtain ⟨row', hrow'⟩ := Option.isSome_iff_exists.mp isSome'
      have keys : row.key = row'.key := by
        rw [StoredBatch.key, StoredBatch.key, (rowOf_range b row hrow).1,
          (rowOf_range b' row' hrow').1, starts]
      have rows := SortedRows.sorted_unique conn.rows conn.sorted row row' (there b hb row hrow)
        (there b' hb' row' hrow') keys
      subst rows
      have decoded := rowOf_decodes lossless b (typed b hb) row hrow
      have decoded' := rowOf_decodes lossless b' (typed b' hb') row hrow'
      exact Except.ok.inj (decoded.symm.trans decoded')
    · -- SQLite may answer with the row of either batch
      have answer (b : CborBatch) (hb : b ∈ calls) (row : StoredBatch) (hrow : rowOf C b = some row)
          (sequence : UInt64) (low : b.startSequence ≤ sequence) (high : sequence ≤ b.endSequence) :
          (StorageInner.Memory state).getMessage X C List.head? sequence =
            .ok (messageOf X b sequence) := by
        obtain ⟨choose, chooses, found⟩ :=
          exists_chooses conn b row hrow (there b hb row hrow) sequence low high
        have sql := getMessage_found (X := X) lossless _ choose sequence b (typed b hb) row
          hrow found
        rw [answers.message choose chooses sequence] at sql
        exact sql
      rintro b ⟨hb, isSome⟩ b' ⟨hb', isSome'⟩ sequence low high low' high'
      obtain ⟨row, hrow⟩ := Option.isSome_iff_exists.mp isSome
      obtain ⟨row', hrow'⟩ := Option.isSome_iff_exists.mp isSome'
      have same := (answer b hb row hrow sequence low high).symm.trans
        (answer b' hb' row' hrow' sequence low' high')
      exact Except.ok.inj same
  · intro compatible
    constructor
    · intro before after split
      subst split
      obtain ⟨state, conn, memory, sqlite, same, held⟩ := same_rows before compatible.front
      rw [memory, sqlite]
      exact sameAnswers_of_rows lossless before (fun b hb => typed b (List.mem_append_left _ hb))
        compatible.front state conn same held
    · intro before batch after split
      have split' : calls = (before ++ [batch]) ++ after := by simp [split]
      have front : Compatible X (written C (before ++ [batch])) := by
        rw [split'] at compatible
        exact compatible.front
      obtain ⟨state, conn, memory, sqlite, same, held⟩ := same_rows (before ++ [batch]) front
      rw [published_concat] at memory sqlite
      have htyped := typed batch (by simp [split])
      constructor
      · apply publishes_of_held lossless before batch htyped front
        rw [memory]
        change Held C (before ++ [batch]) state.batches
        rw [same]
        exact held
      · apply publishes_of_held lossless before batch htyped front
        rw [sqlite]
        exact held

end Queries

namespace Sample

open Shared.Sample

def batch0 : CborBatch :=
  ⟨BATCH_VERSION, 0, 0, timestamp, contentHash0, [message cose0], batchSignature0, pubkey⟩

def codec : Codec := recordedCodec [batch0.toWire, builtBatch.toWire]

theorem codec_lossless : codec.Lossless :=
  recordedCodec_lossless _ (by decide +kernel)

theorem batches_typed : ∀ b ∈ [batch0, builtBatch], b.Typed := by
  intro b member
  rcases List.mem_pair.mp member with rfl | rfl
  · exact ⟨by decide, by decide, by decide⟩
  · exact ⟨by decide, by decide, by decide⟩

/-- Message 0 is published alone, and then again with message 1: SQLite keeps the first batch and
`publish` returns the hash of the second. -/
theorem second_batch_ignored :
    ((published codec emptySqlite [batch0]).publish codec builtBatch none).1.map
      PublishMetadata.contentHash = .ok contentHash01 ∧
    (published codec emptySqlite [batch0, builtBatch]).fetch codec 0 = .ok (some batch0) ∧
    (published codec emptyMemory [batch0, builtBatch]).fetch codec 0 = .ok (some builtBatch) ∧
    ¬BackendsAgree record.externals codec [batch0, builtBatch] := by
  have sqlite : (published codec emptySqlite [batch0, builtBatch]).fetch codec 0 =
      .ok (some batch0) := by
    decide +kernel
  have memory : (published codec emptyMemory [batch0, builtBatch]).fetch codec 0 =
      .ok (some builtBatch) := by
    decide +kernel
  refine ⟨by decide +kernel, sqlite, memory, ?_⟩
  intro agree
  have same := (agree.answers [batch0, builtBatch] [] rfl).fetch 0
  rw [sqlite, memory] at same
  have different : batch0 ≠ builtBatch := by decide
  exact different (Option.some.inj (Except.ok.inj same))

/-- A batch that is published twice. -/
theorem backends_agree_iff_again :
    BackendsAgree record.externals codec [builtBatch, builtBatch] := by
  have typed : ∀ b ∈ [builtBatch, builtBatch], b.Typed := by
    intro b member
    obtain rfl : b = builtBatch := by simpa using member
    exact batches_typed builtBatch (by simp)
  refine (backends_agree_iff codec_lossless _ typed).mpr ⟨?_, ?_, ?_⟩
  · rintro b ⟨member, -⟩
    obtain rfl : b = builtBatch := by simpa using member
    decide
  · rintro b ⟨member, -⟩ b' ⟨member', -⟩ -
    obtain rfl : b = builtBatch := by simpa using member
    obtain rfl : b' = builtBatch := by simpa using member'
    rfl
  · rintro b ⟨member, -⟩ b' ⟨member', -⟩ sequence - - - -
    obtain rfl : b = builtBatch := by simpa using member
    obtain rfl : b' = builtBatch := by simpa using member'
    rfl

end Sample

end SyndDB.Sequencer.Local
