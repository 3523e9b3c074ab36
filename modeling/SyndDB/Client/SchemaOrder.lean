import SyndDB.Client.Delivery

namespace SyndDB.Client

open Changes Run

variable {σ τ κ ν : Type} [DecidableEq κ] [DecidableEq ν] {Q : Sqlite σ τ κ}

namespace SessionState

/-- The schema that was hashed last is the one at attach, or a snapshot of it has been handed to the
channel, with a number below the next. -/
def Announced (attached : σ) (c : SessionState Q ν) : Prop :=
  c.lastSchema = attached ∨ ∃ sequence image,
    .snapshot .channel sequence image ∈ c.emitted ∧ image.schema = c.lastSchema ∧
      sequence < c.sequence

/-- The condition on a step: a push that looks at the schema tells it from the one it saw last, and
when it has changed the channel takes the snapshot. -/
def Announces (c : SessionState Q ν) : Operation Q ν → Prop
  | .push room => c.hasChanges = true → c.transaction.isNone = true →
      (Q.computeSchemaHash c.db.schema = c.lastSchemaHash ∧ c.db.schema = c.lastSchema) ∨
        (Q.computeSchemaHash c.db.schema ≠ c.lastSchemaHash ∧ room.schemaSnapshot = true)
  | _ => True

instance decidableAnnounces [DecidableEq σ] (c : SessionState Q ν) (op : Operation Q ν) :
    Decidable (c.Announces op) :=
  match op with
  | .push _ => inferInstanceAs (Decidable (_ → _ → (_ ∧ _) ∨ (_ ∧ _)))
  | .write _ _ | .alter _ | .executeDdl _ _ _ _ | .snapshot _ | .begin | .commit | .rollback =>
      inferInstanceAs (Decidable True)

/-- Apart from changesets, something may have been handed over. -/
def Extends (c d : SessionState Q ν) : Prop :=
  ∃ snapshots, d.emitted = c.emitted ++ snapshots ∧ ∀ e ∈ snapshots, e.asChangeset = none

omit [DecidableEq κ] [DecidableEq ν] in
theorem extends_refl (c : SessionState Q ν) : c.Extends c := ⟨[], by simp, by simp⟩

omit [DecidableEq κ] [DecidableEq ν] in
theorem extends_emitSnapshot (route : Route) (c : SessionState Q ν) :
    c.Extends (c.emitSnapshot route) := by
  refine ⟨[.snapshot route c.sequence c.db.toImage], rfl, ?_⟩
  intro e member
  rw [List.mem_singleton.mp member]
  rfl

omit [DecidableEq κ] [DecidableEq ν] in
theorem extends_detectSchemaChange (sent : Bool) (c : SessionState Q ν) :
    c.Extends (c.detectSchemaChange sent) := by
  rw [detectSchemaChange]
  split
  · exact extends_refl c
  · split
    · exact extends_emitSnapshot .channel c
    · exact extends_refl c

omit [DecidableEq κ] [DecidableEq ν] in
theorem extends_intervalSnapshot (sent : Bool) (c : SessionState Q ν) :
    c.Extends (c.intervalSnapshot sent) := by
  rw [intervalSnapshot]
  split
  · split
    · exact extends_emitSnapshot .channel c
    · exact extends_refl c
  · exact extends_refl c

omit [DecidableEq κ] [DecidableEq ν] in
/-- A changeset among what was handed over is older. -/
theorem extends_changeset (c d : SessionState Q ν) (h : c.Extends d) (i sequence : Nat)
    (data : List (Change κ ν)) (found : d.emitted[i]? = some (.changeset sequence data)) :
    i < c.emitted.length := by
  obtain ⟨snapshots, same, none⟩ := h
  by_contra late
  rw [same, List.getElem?_append_right (by omega)] at found
  cases none _ (List.mem_of_getElem? found)

omit [DecidableEq κ] [DecidableEq ν] in
theorem announced_mono (attached : σ) (c d : SessionState Q ν) (h : c.Announced attached)
    (emitted : c.emitted ⊆ d.emitted) (sequence : c.sequence ≤ d.sequence)
    (lastSchema : d.lastSchema = c.lastSchema) : d.Announced attached := by
  rcases h with same | ⟨number, image, member, schema, before⟩
  · exact .inl (lastSchema.trans same)
  · exact .inr ⟨number, image, emitted member, schema.trans lastSchema.symm,
      before.trans_le sequence⟩

omit [DecidableEq κ] [DecidableEq ν] in
/-- After a push has looked at the schema, it is announced. -/
theorem announced_detectSchemaChange (attached : σ) (room : Room) (c : SessionState Q ν)
    (h : c.Announced attached) (flagged : c.hasChanges = true) (outside : c.transaction = none)
    (announces : c.Announces (.push room)) :
    (c.detectSchemaChange room.schemaSnapshot).Announced attached ∧
      (c.detectSchemaChange room.schemaSnapshot).lastSchema = c.db.schema := by
  obtain ⟨hash, schema⟩ | ⟨hash, sent⟩ := announces flagged (by simp [outside])
  · rw [detectSchemaChange, if_pos hash]
    exact ⟨h, schema.symm⟩
  · rw [detectSchemaChange, if_neg hash, if_pos sent]
    refine ⟨.inr ⟨c.sequence, c.db.toImage, ?_, rfl, Nat.lt_succ_self _⟩, rfl⟩
    simp [emitSnapshot, emit]

omit [DecidableEq κ] [DecidableEq ν] in
/-- What is handed over after the schema has been looked at: a changeset with the next number, if
there is room, and then at most a snapshot. -/
theorem sent_emitted (room : Room) (data : List (Change κ ν)) (d : SessionState Q ν) :
    ∃ handed snapshots,
      (((d.sendChangeset room.changeset data).intervalSnapshot
        room.intervalSnapshot).recreateSession room.recreation).2.emitted =
          d.emitted ++ handed ++ snapshots ∧
      (handed = [] ∨ handed = [.changeset d.sequence data]) ∧
      ∀ e ∈ snapshots, e.asChangeset = none := by
  have recreated (e : SessionState Q ν) :
      (e.recreateSession room.recreation).2.emitted = e.emitted := by
    cases answer : room.recreation with
    | ok => rfl
    | error e => rfl
  obtain ⟨snapshots, interval, none⟩ :=
    extends_intervalSnapshot room.intervalSnapshot (d.sendChangeset room.changeset data)
  rw [recreated, interval]
  cases room.changeset with
  | false => exact ⟨[], snapshots, by rw [List.append_nil]; rfl, .inl rfl, none⟩
  | true => exact ⟨[.changeset d.sequence data], snapshots, rfl, .inr rfl, none⟩

omit [DecidableEq κ] [DecidableEq ν] in
theorem sent_schema (room : Room) (data : List (Change κ ν)) (d : SessionState Q ν) :
    let r := (((d.sendChangeset room.changeset data).intervalSnapshot
      room.intervalSnapshot).recreateSession room.recreation).2
    r.lastSchema = d.lastSchema ∧ d.sequence ≤ r.sequence := by
  have recreated (e : SessionState Q ν) :
      (e.recreateSession room.recreation).2.lastSchema = e.lastSchema ∧
        (e.recreateSession room.recreation).2.sequence = e.sequence := by
    cases answer : room.recreation with
    | ok => exact ⟨rfl, rfl⟩
    | error e => exact ⟨rfl, rfl⟩
  have interval (e : SessionState Q ν) :
      (e.intervalSnapshot room.intervalSnapshot).lastSchema = e.lastSchema ∧
        (e.intervalSnapshot room.intervalSnapshot).sequence = e.sequence := by
    rw [intervalSnapshot]
    split
    · split
      · exact ⟨rfl, rfl⟩
      · exact ⟨rfl, rfl⟩
    · exact ⟨rfl, rfl⟩
  dsimp only
  rw [(recreated _).1, (recreated _).2, (interval _).1, (interval _).2, sendChangeset]
  split
  · exact ⟨rfl, Nat.le_succ _⟩
  · exact ⟨rfl, Nat.le_succ _⟩

omit [DecidableEq κ] in
theorem announced_push (attached : σ) (room : Room) (c : SessionState Q ν)
    (h : c.Announced attached) (announces : c.Announces (.push room)) :
    (c.extractAndSendChangeset room).2.Announced attached := by
  have pushed := push_cases room c
  generalize c.extractAndSendChangeset room = result at pushed ⊢
  cases pushed with
  | idle => exact h
  | unread flagged outside =>
    exact (announced_detectSchemaChange attached room c h flagged outside announces).1
  | nothing flagged outside =>
    have detected := (announced_detectSchemaChange attached room c h flagged outside announces).1
    exact announced_mono attached _ _ detected (List.Subset.refl _) (Nat.le_refl _) rfl
  | sent flagged outside =>
    have detected := (announced_detectSchemaChange attached room c h flagged outside announces).1
    let d : SessionState Q ν :=
      { c.detectSchemaChange room.schemaSnapshot with hasChanges := false }
    obtain ⟨handed, snapshots, emitted, -, -⟩ :=
      sent_emitted room (changes c.session c.db.rows) d
    obtain ⟨lastSchema, sequence⟩ := sent_schema room (changes c.session c.db.rows) d
    refine announced_mono attached _ _ detected ?_ sequence lastSchema
    intro e member
    rw [emitted]
    simp [d, member]

omit [DecidableEq ν] in
theorem announced_execute (attached : σ) (c : SessionState Q ν) (statement : Statement Q ν)
    (h : c.Announced attached) : (c.execute statement).Announced attached := by
  cases statement with
  | write key value =>
    obtain same | ⟨db, -, wrote⟩ := write_cases c key value
    · rw [execute, same]
      exact h
    · rw [execute, wrote]
      exact announced_mono attached c _ h (List.Subset.refl _) (Nat.le_refl _) rfl
  | alter effect => exact announced_mono attached c _ h (List.Subset.refl _) (Nat.le_refl _) rfl

omit [DecidableEq κ] [DecidableEq ν] in
theorem announced_snapshot (attached : σ) (c : SessionState Q ν) (published : Bool)
    (h : c.Announced attached) : (c.snapshot published).Announced attached := by
  rw [snapshot]
  split
  · exact h
  · split
    · refine announced_mono attached c _ h ?_ (Nat.le_refl _) rfl
      exact List.subset_append_left _ _
    · exact h

theorem announced_step (attached : σ) (c : SessionState Q ν) (op : Operation Q ν)
    (h : c.Announced attached) (announces : c.Announces op) : (c.step op).Announced attached := by
  cases op with
  | write key value => exact announced_execute attached c (.write key value) h
  | alter effect => exact announced_execute attached c (.alter effect) h
  | executeDdl sql batch succeeds published =>
    have executed : (batch.foldl execute c).Announced attached :=
      List.foldlRecOn batch execute h fun c kept statement _ => announced_execute attached c
        statement kept
    rw [step, executeDdl]
    split
    · exact announced_snapshot attached _ published executed
    · exact executed
  | push room => exact announced_push attached room c h announces
  | snapshot published => exact announced_snapshot attached c published h
  | begin =>
    rw [step]
    split
    · exact h
    · exact announced_mono attached c _ h (List.Subset.refl _) (Nat.le_refl _) rfl
  | commit => exact announced_mono attached c _ h (List.Subset.refl _) (Nat.le_refl _) rfl
  | rollback =>
    rw [step]
    split
    · exact h
    · exact announced_mono attached c _ h (List.Subset.refl _) (Nat.le_refl _) rfl

omit [DecidableEq κ] in
/-- A changeset that a push hands over is behind everything that was handed over before the changes
were read, and has the number that was next then. -/
theorem pushed_changeset (room : Room) (c : SessionState Q ν) (i sequence : Nat)
    (data : List (Change κ ν)) (new : c.emitted.length ≤ i)
    (found : (c.extractAndSendChangeset room).2.emitted[i]? = some (.changeset sequence data)) :
    c.hasChanges = true ∧ c.transaction = none ∧
      sequence = (c.detectSchemaChange room.schemaSnapshot).sequence ∧
      i = (c.detectSchemaChange room.schemaSnapshot).emitted.length ∧
      ∃ later, (c.extractAndSendChangeset room).2.emitted =
        (c.detectSchemaChange room.schemaSnapshot).emitted ++ later := by
  have old := extends_detectSchemaChange room.schemaSnapshot c
  have pushed := push_cases room c
  generalize c.extractAndSendChangeset room = result at pushed found ⊢
  cases pushed with
  | idle =>
    have early := extends_changeset c c (extends_refl c) i sequence data found
    omega
  | unread =>
    have early := extends_changeset c _ old i sequence data found
    omega
  | nothing =>
    have early := extends_changeset c _ old i sequence data found
    omega
  | sent flagged outside =>
    let d : SessionState Q ν :=
      { c.detectSchemaChange room.schemaSnapshot with hasChanges := false }
    obtain ⟨handed, snapshots, emitted, which, none⟩ :=
      sent_emitted room (changes c.session c.db.rows) d
    have inHanded : i < (d.emitted ++ handed).length := by
      by_contra late
      rw [emitted, List.getElem?_append_right (by omega)] at found
      cases none _ (List.mem_of_getElem? found)
    have behind : d.emitted.length ≤ i := by
      by_contra early
      rw [emitted, List.append_assoc, List.getElem?_append_left (by omega)] at found
      have before := extends_changeset c _ old i sequence data found
      omega
    rcases which with rfl | rfl
    · simp at inHanded
      omega
    · have last : i = d.emitted.length := by
        simp at inHanded
        omega
      rw [emitted, last] at found
      simp at found
      exact ⟨flagged, outside, found.1.symm, last, _, by rw [emitted, List.append_assoc]⟩

/-- In every run whose pushes announce the schema they find, a changeset that is handed over under a
schema other than the one at attach comes after a snapshot of that schema with a smaller number. -/
theorem schema_before_data (empty db : Database Q ν) (snapshotInterval : Nat) (published : Bool)
    (ops : List (Operation Q ν))
    (announces : Along step Announces (attach empty db snapshotInterval published) ops) (n : Nat)
    (room : Room) (pushed : ops[n]? = some (.push room)) (i sequence : Nat)
    (data : List (Change κ ν)) :
    let moment := stateAt step (attach empty db snapshotInterval published) ops
    (moment n).emitted.length ≤ i →
      (moment (n + 1)).emitted[i]? = some (.changeset sequence data) →
      (moment n).db.schema ≠ db.schema →
      ∃ j number image, j < i ∧
        (moment (n + 1)).emitted[j]? = some (.snapshot .channel number image) ∧
        image.schema = (moment n).db.schema ∧ number < sequence := by
  intro moment new found differs
  have start : (attach empty db snapshotInterval published).Announced db.schema := by
    rw [attach]
    split
    · exact announced_snapshot _ _ _ (.inl rfl)
    · exact .inl rfl
  have announced : (moment n).Announced db.schema :=
    along_invariant step (announced_step db.schema) _ _ start
      (along_take step Announces _ ops n announces)
  have next : moment (n + 1) = ((moment n).extractAndSendChangeset room).2 :=
    stateAt_succ step _ ops n _ pushed
  rw [next] at found ⊢
  obtain ⟨flagged, outside, numbered, place, later, emitted⟩ :=
    pushed_changeset room (moment n) i sequence data new found
  obtain ⟨detected, schema⟩ := announced_detectSchemaChange db.schema room (moment n) announced
    flagged outside (along_getElem step Announces _ ops n _ announces pushed)
  rcases detected with same | ⟨number, image, member, captured, smaller⟩
  · exact absurd (schema.symm.trans same) differs
  · obtain ⟨j, earlier, at_j⟩ := List.getElem_of_mem member
    refine ⟨j, number, image, by omega, ?_, captured.trans schema, by omega⟩
    rw [emitted, List.getElem?_append_left earlier, List.getElem?_eq_getElem earlier, at_j]

end SessionState

namespace Sample

/-- The first schema gets an index. -/
def createIndex (db : Database sqlite Nat) : Database sqlite Nat where
  schema := if db.schema = 0 then 0 else 2
  rows := db.rows
  shaped := by
    intro key row found
    have columns := db.shaped key row found
    by_cases none : db.schema = 0
    · simp [sqlite, none] at columns
    · simpa [sqlite, none] using columns

def indexed (room : SessionState.Room) : List (SessionState.Operation sqlite Nat) :=
  [.write payee none, .push clear, .alter createIndex, .write payer (some [0, 20]), .push room]

def indexedAt (room : SessionState.Room) : Nat → SessionState sqlite Nat :=
  stateAt SessionState.step start (indexed room)

theorem schema_before_data_indexed :
    Along SessionState.step SessionState.Announces start (indexed clear) ∧
      ∃ j number image, j < 3 ∧
        (indexedAt clear 5).emitted[j]? = some (.snapshot .channel number image) ∧
        image.schema = (indexedAt clear 4).db.schema ∧ number < 2 := by
  have announces : Along SessionState.step SessionState.Announces start (indexed clear) := by
    decide
  refine ⟨announces, ?_⟩
  have differs : (indexedAt clear 4).db.schema ≠ accounts.schema := by decide
  exact SessionState.schema_before_data empty accounts 100 true (indexed clear) announces
    4 clear rfl 3 2 [.update 0 [0, 10] [0, 20]] (by decide) rfl differs

/-- The channel for snapshots is full when the new schema is found. -/
def snapshotsFull : SessionState.Room := { clear with schemaSnapshot := false }

theorem full_channel_hides_schema :
    (indexedAt snapshotsFull 4).emitted.length ≤ 2 ∧
      (indexedAt snapshotsFull 5).emitted[2]? =
        some (.changeset 1 [.update 0 [0, 10] [0, 20]]) ∧
      (indexedAt snapshotsFull 4).db.schema ≠ accounts.schema ∧
      ¬ ∃ j number image, j < 2 ∧
        (indexedAt snapshotsFull 5).emitted[j]? = some (.snapshot .channel number image) ∧
        image.schema = (indexedAt snapshotsFull 4).db.schema ∧ number < 1 := by
  refine ⟨by decide, rfl, by decide, ?_⟩
  intro h
  obtain ⟨j, number, image, first, found, -, -⟩ := h
  obtain rfl | rfl : j = 0 ∨ j = 1 := by omega
  · cases found
  · cases found

end Sample

end SyndDB.Client
