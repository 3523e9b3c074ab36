import SyndDB.Client.Session
import Mathlib.Data.Fintype.Basic
import Mathlib.Data.List.Sort

namespace SyndDB.Client

open Changes Run

variable {σ τ κ ν : Type} [DecidableEq κ] [DecidableEq ν]

/-- Every changed table exists with the columns of the change. -/
def validateChangesetSchema (Q : Sqlite σ τ κ) (schema : σ) (data : List (Change κ ν)) : Bool :=
  data.all fun change => Q.columns schema (Q.table change.key) = some change.columns

/-- `sqlite3changeset_apply` with a conflict handler, which gives the rows of the
database afterwards. -/
structure ChangesetApply (σ κ ν : Type) [DecidableEq κ] [DecidableEq ν] where
  applyStrm : (Conflict → Action) → Image σ κ ν → List (Change κ ν) → Except String (Rows κ ν)
  /-- Nothing but the changes themselves happens: the tables have the primary keys under which
  the changes were recorded, no trigger fires and no foreign key acts, the only constraints that
  the changes meet are the primary keys, without a conflict clause, and every value keeps its
  form in its column. -/
  quiet : Image σ κ ν → List (Change κ ν) → Bool
  applyStrm_quiet : ∀ handler image data rows, quiet image data = true →
    (applyStrm handler image data = .ok rows ↔ applyAll handler image.rows data = .ok rows)

/-- A database with nothing but rows and primary keys. -/
def ChangesetApply.onRows : ChangesetApply σ κ ν where
  applyStrm handler image data :=
    (applyAll handler image.rows data).mapError fun _ =>
      "Error code 4: Callback routine requested an abort"
  quiet _ _ := true
  applyStrm_quiet := by
    intro handler image data rows _
    cases applyAll handler image.rows data with
    | error conflict => simp [Except.mapError]
    | ok result => simp [Except.mapError]

/-- Inserts of rows that exist are skipped. A failed changeset changes nothing. -/
def applySingleChangeset (Q : Sqlite σ τ κ) (A : ChangesetApply σ κ ν) (replica : Image σ κ ν)
    (data : List (Change κ ν)) : Except String (Image σ κ ν) :=
  if !validateChangesetSchema Q replica.schema data then .error "Schema mismatch"
  else match A.applyStrm skipInserts replica data with
    | .ok rows => .ok { replica with rows := rows }
    | .error e => .error ("Failed to apply changeset: " ++ e)

/-- The replica and the sequence of the snapshot it was restored from. Changesets before that
snapshot are left out. -/
def replayStep (Q : Sqlite σ τ κ) (A : ChangesetApply σ κ ν) (replica : Image σ κ ν × Nat) :
    Emission σ κ ν → Except String (Image σ κ ν × Nat)
  | .snapshot _ sequence data => .ok (data, sequence)
  | .changeset sequence data =>
      if sequence < replica.2 then .ok replica
      else (applySingleChangeset Q A replica.1 data).map fun image => (image, replica.2)

def replay (Q : Sqlite σ τ κ) (A : ChangesetApply σ κ ν) :
    Image σ κ ν × Nat → List (Emission σ κ ν) → Except String (Image σ κ ν × Nat)
  | replica, [] => .ok replica
  | replica, e :: rest =>
      match replayStep Q A replica e with
      | .error message => .error message
      | .ok replica => replay Q A replica rest

/-- The place of an emission: by sequence, a snapshot before the changeset of the same number. -/
def Emission.rank : Emission σ κ ν → Nat
  | .snapshot _ sequence _ => 2 * sequence
  | .changeset sequence _ => 2 * sequence + 1

def inOrder (es : List (Emission σ κ ν)) : List (Emission σ κ ν) :=
  es.insertionSort fun e f => e.rank ≤ f.rank

variable {Q : Sqlite σ τ κ} {A : ChangesetApply σ κ ν}

theorem replay_append (replica : Image σ κ ν × Nat) (es fs : List (Emission σ κ ν)) :
    replay Q A replica (es ++ fs) =
      match replay Q A replica es with
      | .error message => .error message
      | .ok replica => replay Q A replica fs := by
  induction es generalizing replica with
  | nil => rfl
  | cons e es ih =>
    rw [List.cons_append, replay, replay]
    cases replayStep Q A replica e with
    | error message => rfl
    | ok replica => exact ih replica

omit [DecidableEq κ] [DecidableEq ν] in
theorem validate_append (schema : σ) (data more : List (Change κ ν)) :
    validateChangesetSchema Q schema (data ++ more) =
      (validateChangesetSchema Q schema data && validateChangesetSchema Q schema more) := by
  simp [validateChangesetSchema]

/-- A changeset that passes the schema check and applies to the rows. -/
theorem applySingleChangeset_ok (replica result : Image σ κ ν) (data : List (Change κ ν)) :
    applySingleChangeset Q A replica data = .ok result ↔
      validateChangesetSchema Q replica.schema data = true ∧ result.schema = replica.schema ∧
        A.applyStrm skipInserts replica data = .ok result.rows := by
  obtain ⟨schema, rows⟩ := result
  rw [applySingleChangeset]
  cases validateChangesetSchema Q replica.schema data with
  | false => simp
  | true =>
    cases A.applyStrm skipInserts replica data with
    | error e => simp
    | ok applied => simp [eq_comm]

theorem applySingleChangeset_onRows (replica result : Image σ κ ν) (data : List (Change κ ν)) :
    applySingleChangeset Q .onRows replica data = .ok result ↔
      validateChangesetSchema Q replica.schema data = true ∧ result.schema = replica.schema ∧
        applyAll skipInserts replica.rows data = .ok result.rows := by
  rw [applySingleChangeset_ok, ChangesetApply.onRows.applyStrm_quiet _ _ _ _ rfl]

namespace SessionState

/-- All that was handed over, replayed in the order of the sequence numbers on an empty replica,
gives the database of the client at the last time. -/
def Replays (A : ChangesetApply σ κ ν) (empty : Database Q ν) (c : SessionState Q ν) : Prop :=
  ∃ sequence, replay Q A (empty.toImage, 0) (inOrder c.emitted) =
    .ok (c.lastEmitted.toImage, sequence)

/-- The image has the schema of the client and the rows the session does not record; the
recorded ones are there as the session found them, or were inserted in the session and are
there as they are. -/
def Agrees (image : Database Q ν) (c : SessionState Q ν) : Prop :=
  image.schema = c.db.schema ∧
    (∀ entry ∈ c.session, Meets (image.rows entry.1) entry.2 (c.db.rows entry.1)) ∧
    ∀ key, key ∉ c.session.map Prod.fst → image.rows key = c.db.rows key

instance decidableAgrees [Fintype κ] [DecidableEq σ] (image : Database Q ν) (c : SessionState Q ν) :
    Decidable (c.Agrees image) :=
  inferInstanceAs (Decidable (_ ∧ _ ∧ _))

omit [DecidableEq κ] in
/-- The changes of a session pass the schema check where the image agrees with the client. -/
theorem validate_changes (image : Database Q ν) (c : SessionState Q ν) (h : c.Agrees image) :
    validateChangesetSchema Q image.schema (changes c.session c.db.rows) = true := by
  obtain ⟨schema, recorded, -⟩ := h
  rw [validateChangesetSchema, List.all_eq_true]
  intro change member
  obtain ⟨entry, touched, taken⟩ := List.mem_filterMap.mp member
  rw [decide_eq_true_eq, diff_key _ _ _ _ taken]
  obtain ⟨new, present, columns⟩ | ⟨absent, old, found, columns⟩ := diff_columns _ _ _ _ taken
  · rw [schema, columns]
    exact c.db.shaped entry.1 new present
  · have there : image.rows entry.1 = some old := by
      rcases recorded entry touched with same | ⟨inserted, -⟩
      · rw [same, found]
      · rw [found] at inserted
        cases inserted
    rw [columns]
    exact image.shaped entry.1 old there

/-- Where nothing but its changes happens, a changeset turns an image into the database of the
client exactly if they agree. -/
theorem changeset_reproduces_iff (image : Database Q ν) (c : SessionState Q ν)
    (nodup : (c.session.map Prod.fst).Nodup)
    (quiet : A.quiet image.toImage (changes c.session c.db.rows) = true) :
    applySingleChangeset Q A image.toImage (changes c.session c.db.rows) = .ok c.db.toImage ↔
      c.Agrees image := by
  have applied (schema : image.schema = c.db.schema) :=
    applyAll_changes_iff c.session image.rows c.db.rows nodup (by
      intro key _ row new found present
      have columns := image.shaped key row found
      rw [schema, c.db.shaped key new present] at columns
      exact (Option.some.inj columns).symm)
  rw [applySingleChangeset_ok, A.applyStrm_quiet skipInserts _ _ _ quiet]
  constructor
  · intro reproduced
    obtain ⟨-, schema, result⟩ := reproduced
    exact ⟨schema.symm, (applied schema.symm).mp result⟩
  · intro agrees
    exact ⟨validate_changes image c agrees, agrees.1.symm, (applied agrees.1).mpr agrees.2⟩

/-- Made on the image, the changes of the session lead to the database of the client, and
nothing else happens. -/
def Reproduces (A : ChangesetApply σ κ ν) (image : Database Q ν) (c : SessionState Q ν) : Prop :=
  A.quiet image.toImage (changes c.session c.db.rows) = true ∧ c.Agrees image

/-- The session records a row once, what was handed over is numbered in order, and it replays. -/
structure Consistent (A : ChangesetApply σ κ ν) (empty : Database Q ν) (c : SessionState Q ν) :
    Prop where
  nodup : (c.session.map Prod.fst).Nodup
  ordered : c.emitted.Pairwise fun e f => e.rank ≤ f.rank
  numbered : ∀ e ∈ c.emitted, e.rank ≤ 2 * c.sequence
  reproduced : ∃ start ≤ c.sequence,
    replay Q A (empty.toImage, 0) c.emitted = .ok (c.lastEmitted.toImage, start)

theorem consistent_replays (empty : Database Q ν) (c : SessionState Q ν)
    (h : c.Consistent A empty) :
    c.Replays A empty := by
  obtain ⟨start, -, replayed⟩ := h.reproduced
  refine ⟨start, ?_⟩
  rw [inOrder, h.ordered.insertionSort_eq, replayed]

/-- Nothing is handed over. -/
theorem consistent_silent (empty : Database Q ν) (c d : SessionState Q ν) (h : c.Consistent A empty)
    (nodup : (d.session.map Prod.fst).Nodup) (sequence : c.sequence ≤ d.sequence)
    (emitted : d.emitted = c.emitted) (lastEmitted : d.lastEmitted = c.lastEmitted) :
    d.Consistent A empty := by
  obtain ⟨start, bound, replayed⟩ := h.reproduced
  refine ⟨nodup, ?_, ?_, start, by omega, ?_⟩
  · rw [emitted]
    exact h.ordered
  · intro e member
    rw [emitted] at member
    have numbered := h.numbered e member
    omega
  · rw [emitted, lastEmitted]
    exact replayed

/-- Something is handed over that leads the replica to the database of the client. -/
theorem consistent_emit (empty : Database Q ν) (c d : SessionState Q ν) (e : Emission σ κ ν)
    (h : c.Consistent A empty) (session : d.session = c.session)
    (low : 2 * c.sequence ≤ e.rank) (high : e.rank ≤ 2 * d.sequence)
    (emitted : d.emitted = c.emitted ++ [e])
    (leads : ∀ start ≤ c.sequence, ∃ start' ≤ d.sequence,
      replayStep Q A (c.lastEmitted.toImage, start) e = .ok (d.lastEmitted.toImage, start')) :
    d.Consistent A empty := by
  obtain ⟨start, bound, replayed⟩ := h.reproduced
  obtain ⟨start', bound', next⟩ := leads start bound
  refine ⟨?_, ?_, ?_, start', bound', ?_⟩
  · rw [session]
    exact h.nodup
  · rw [emitted, List.pairwise_append]
    refine ⟨h.ordered, List.pairwise_singleton _ _, ?_⟩
    intro f member g last
    rw [List.mem_singleton.mp last]
    exact (h.numbered f member).trans low
  · intro f member
    rw [emitted] at member
    rcases List.mem_append.mp member with earlier | last
    · have numbered := h.numbered f earlier
      omega
    · rw [List.mem_singleton.mp last]
      exact high
  · rw [emitted, replay_append, replayed]
    simp only [replay, next]

theorem consistent_emitSnapshot (empty : Database Q ν) (c : SessionState Q ν) (route : Route)
    (h : c.Consistent A empty) : (c.emitSnapshot route).Consistent A empty := by
  apply consistent_emit empty c (c.emitSnapshot route) (.snapshot route c.sequence c.db.toImage) h
    rfl
  · exact Nat.le_refl _
  · exact Nat.le_refl _
  · rfl
  · intro start _
    exact ⟨c.sequence, Nat.le_refl _, rfl⟩

theorem consistent_snapshot (empty : Database Q ν) (c : SessionState Q ν) (published : Bool)
    (h : c.Consistent A empty) : (c.snapshot published).Consistent A empty := by
  rw [snapshot]
  split
  · exact h
  · split
    · exact consistent_emitSnapshot empty c _ h
    · exact h

/-- A row is recorded at its first write only. -/
theorem consistent_write (empty : Database Q ν) (c : SessionState Q ν) (key : κ)
    (value : Option (List ν)) (h : c.Consistent A empty) :
      (c.write key value).Consistent A empty := by
  obtain same | ⟨db, -, wrote⟩ := write_cases c key value
  · rw [same]
    exact h
  · rw [wrote, written]
    refine consistent_silent empty c _ h ?_ (Nat.le_refl _) rfl rfl
    by_cases recorded : key ∈ c.session.map Prod.fst
    · simpa [recorded] using h.nodup
    · have apart : (c.session.map Prod.fst ++ [key]).Nodup := by
        rw [List.nodup_append]
        refine ⟨h.nodup, List.nodup_singleton key, ?_⟩
        intro other member last same rfl
        rw [← List.mem_singleton.mp same] at recorded
        exact recorded member
      simpa [recorded] using apart

theorem consistent_execute (empty : Database Q ν) (c : SessionState Q ν)
    (statement : Statement Q ν) (h : c.Consistent A empty) :
    (c.execute statement).Consistent A empty := by
  cases statement with
  | write key value => exact consistent_write empty c key value h
  | alter effect => exact consistent_silent empty c _ h h.nodup (Nat.le_refl _) rfl rfl

theorem consistent_executeDdl (empty : Database Q ν) (c : SessionState Q ν) (sql : List Char)
    (batch : List (Statement Q ν)) (succeeds published : Bool) (h : c.Consistent A empty) :
    (c.executeDdl sql batch succeeds published).Consistent A empty := by
  have executed : (batch.foldl execute c).Consistent A empty :=
    List.foldlRecOn batch execute h fun c kept statement _ => consistent_execute empty c
      statement kept
  rw [executeDdl]
  split
  · exact consistent_snapshot empty _ published executed
  · exact executed

theorem consistent_detectSchemaChange (empty : Database Q ν) (c : SessionState Q ν) (sent : Bool)
    (h : c.Consistent A empty) : (c.detectSchemaChange sent).Consistent A empty := by
  rw [detectSchemaChange]
  split
  · exact h
  · split
    · have emitted := consistent_emitSnapshot empty c .channel h
      exact consistent_silent empty _ _ emitted emitted.nodup (Nat.le_succ _) rfl rfl
    · exact consistent_silent empty c _ h h.nodup (Nat.le_refl _) rfl rfl

/-- A changeset that is handed over has to meet the database handed over last. -/
theorem consistent_sendChangeset (empty : Database Q ν) (c : SessionState Q ν) (sent : Bool)
    (h : c.Consistent A empty) (reproduces : sent = true → c.Reproduces A c.lastEmitted) :
    (c.sendChangeset sent (changes c.session c.db.rows)).Consistent A empty := by
  cases sent with
  | false => exact consistent_silent empty c _ h h.nodup (Nat.le_succ _) rfl rfl
  | true =>
    have applied := (changeset_reproduces_iff c.lastEmitted c h.nodup (reproduces rfl).1).mpr
      (reproduces rfl).2
    let data := changes c.session c.db.rows
    apply consistent_emit empty c (c.sendChangeset true data) (.changeset c.sequence data) h rfl
    · exact Nat.le_succ _
    · simp only [Emission.rank, sendChangeset, emit, if_true]
      omega
    · rfl
    · intro start bound
      refine ⟨start, Nat.le_succ_of_le bound, ?_⟩
      rw [replayStep, if_neg (Nat.not_lt.mpr bound), applied]
      rfl

theorem consistent_intervalSnapshot (empty : Database Q ν) (c : SessionState Q ν) (sent : Bool)
    (h : c.Consistent A empty) : (c.intervalSnapshot sent).Consistent A empty := by
  rw [intervalSnapshot]
  split
  · split
    · have emitted := consistent_emitSnapshot empty c .channel h
      exact consistent_silent empty _ _ emitted emitted.nodup (Nat.le_refl _) rfl rfl
    · exact h
  · exact h

/-- A push hands a changeset over. -/
def Pushes (room : Room) (c : SessionState Q ν) : Prop :=
  c.hasChanges = true ∧ c.transaction = none ∧ changes c.session c.db.rows ≠ [] ∧
    room.extraction.isOk = true ∧ room.changeset = true

instance decidablePushes (room : Room) (c : SessionState Q ν) : Decidable (c.Pushes room) :=
  match h : c.transaction with
  | none => decidable_of_iff
      (c.hasChanges = true ∧ (changes c.session c.db.rows).isEmpty = false ∧
        room.extraction.isOk = true ∧ room.changeset = true)
      (by simp [Pushes, h])
  | some db => isFalse (by simp [Pushes, h])

/-- The database handed over before a changeset: by this push, if the schema has
changed, or last. -/
def base (room : Room) (c : SessionState Q ν) : Database Q ν :=
  if Q.computeSchemaHash c.db.schema ≠ c.lastSchemaHash ∧ room.schemaSnapshot = true then c.db
  else c.lastEmitted

omit [DecidableEq κ] [DecidableEq ν] in
theorem detectSchemaChange_lastEmitted (room : Room) (c : SessionState Q ν) :
    (c.detectSchemaChange room.schemaSnapshot).lastEmitted = c.base room := by
  rw [detectSchemaChange, base]
  by_cases same : Q.computeSchemaHash c.db.schema = c.lastSchemaHash
  · simp [same]
  · cases sent : room.schemaSnapshot with
    | false => simp [same]
    | true => simp [same, emitSnapshot, emit]

theorem consistent_recreateSession (empty : Database Q ν) (c : SessionState Q ν)
    (answer : Except String Unit) (h : c.Consistent A empty) :
    (c.recreateSession answer).2.Consistent A empty := by
  cases answer with
  | ok => exact consistent_silent empty c _ h List.nodup_nil (Nat.le_refl _) rfl rfl
  | error e => exact h

theorem consistent_push (empty : Database Q ν) (c : SessionState Q ν) (room : Room)
    (h : c.Consistent A empty) (reproduces : c.Pushes room → c.Reproduces A (c.base room)) :
    (c.extractAndSendChangeset room).2.Consistent A empty := by
  have detected := consistent_detectSchemaChange empty c room.schemaSnapshot h
  obtain ⟨session, db, -⟩ := detectSchemaChange_session room.schemaSnapshot c
  have extracted : ({ c.detectSchemaChange room.schemaSnapshot with
      hasChanges := false } : SessionState Q ν).Consistent A empty :=
    consistent_silent empty _ _ detected detected.nodup (Nat.le_refl _) rfl rfl
  have pushed := push_cases room c
  generalize c.extractAndSendChangeset room = result at pushed ⊢
  cases pushed with
  | idle => exact h
  | unread => exact detected
  | nothing => exact extracted
  | sent flagged outside read some =>
    have sent := consistent_sendChangeset empty _ room.changeset extracted (by
      intro handed
      have met := reproduces ⟨flagged, outside, some, by rw [read]; rfl, handed⟩
      simpa only [Reproduces, Agrees, detectSchemaChange_lastEmitted, session, db] using met)
    simp only [session, db] at sent ⊢
    have snapped := consistent_intervalSnapshot empty _ room.intervalSnapshot sent
    exact consistent_recreateSession empty _ room.recreation snapped

/-- The condition on a step: before a changeset is handed over, the database handed over last agrees
with the client, and nothing but the changes happens when they are made there. -/
def Reproducible (A : ChangesetApply σ κ ν) (c : SessionState Q ν) : Operation Q ν → Prop
  | .push room => c.Pushes room → c.Reproduces A (c.base room)
  | _ => True

instance decidableReproducible [Fintype κ] [DecidableEq σ] (c : SessionState Q ν)
    (op : Operation Q ν) : Decidable (c.Reproducible A op) :=
  match op with
  | .push _ => inferInstanceAs (Decidable (_ → _ ∧ _))
  | .write _ _ | .alter _ | .executeDdl _ _ _ _ | .snapshot _ | .begin | .commit | .rollback =>
      inferInstanceAs (Decidable True)

theorem consistent_step (empty : Database Q ν) (c : SessionState Q ν) (op : Operation Q ν)
    (h : c.Consistent A empty) (reproducible : c.Reproducible A op) :
    (c.step op).Consistent A empty := by
  cases op with
  | write key value => exact consistent_execute empty c (.write key value) h
  | alter effect => exact consistent_execute empty c (.alter effect) h
  | executeDdl sql batch succeeds published =>
    exact consistent_executeDdl empty c sql batch succeeds published h
  | push room => exact consistent_push empty c room h reproducible
  | snapshot published => exact consistent_snapshot empty c published h
  | begin =>
    rw [step]
    split
    · exact h
    · exact consistent_silent empty c _ h h.nodup (Nat.le_refl _) rfl rfl
  | commit => exact consistent_silent empty c _ h h.nodup (Nat.le_refl _) rfl rfl
  | rollback =>
    rw [step]
    split
    · exact h
    · exact consistent_silent empty c _ h h.nodup (Nat.le_refl _) rfl rfl

theorem consistent_attach (empty db : Database Q ν) (snapshotInterval : Nat) (published : Bool) :
    (attach empty db snapshotInterval published).Consistent A empty := by
  have fresh : (⟨db, none, [], 0, snapshotInterval, 0, false, Q.computeSchemaHash db.schema,
      db.schema, [], empty⟩ : SessionState Q ν).Consistent A empty :=
    ⟨List.nodup_nil, .nil, by simp, 0, Nat.le_refl _, rfl⟩
  rw [attach]
  split
  · exact consistent_snapshot empty _ published fresh
  · exact fresh

/-- In every run in which each changeset meets the database handed over last, what has been handed
over replays to the database of the client, whenever one looks. -/
theorem replay_reproduces_client (empty db : Database Q ν) (snapshotInterval : Nat)
    (published : Bool) (ops : List (Operation Q ν))
    (reproducible : Along step (Reproducible A) (attach empty db snapshotInterval published) ops)
    (n : Nat) :
    (run step (attach empty db snapshotInterval published) (ops.take n)).Replays A empty := by
  apply consistent_replays
  apply along_invariant step (consistent_step empty) _ _
    (consistent_attach empty db snapshotInterval published)
  exact along_take step (Reproducible A) _ ops n reproducible

end SessionState

namespace Sample

/-- One table of two columns, in every schema but 0. -/
def sqlite : Sqlite Nat Unit (Fin 2) where
  table _ := ()
  columns schema _ := if schema = 0 then none else some 2
  hasExistingTables schema := schema ≠ 0
  computeSchemaHash schema := UInt64.ofNat schema
  updateHook _ := true

def empty : Database sqlite Nat where
  schema := 0
  rows _ := none
  shaped := by
    intro key row found
    cases found

def accounts : Database sqlite Nat where
  schema := 1
  rows key := some [key.val, 10]
  shaped := by
    intro key row found
    cases found
    rfl

def payer : Fin 2 := 0
def payee : Fin 2 := 1

def clear : SessionState.Room := ⟨true, .ok (), true, true, .ok ()⟩

/-- Two pushes with a snapshot between them. -/
def careful : List (SessionState.Operation sqlite Nat) :=
  [.write payer (some [0, 20]), .push clear, .snapshot true, .write payee none, .push clear]

theorem careful_reproducible :
    Along SessionState.step (SessionState.Reproducible .onRows) (.attach empty accounts 100 true)
      careful := by
  decide

theorem replay_reproduces_client_careful :
    Along SessionState.step (SessionState.Reproducible .onRows)
      (.attach empty accounts 100 true) careful ∧
      (run SessionState.step (.attach empty accounts 100 true) (careful.take 5)).Replays
        .onRows empty :=
  ⟨careful_reproducible,
    SessionState.replay_reproduces_client empty accounts 100 true careful careful_reproducible 5⟩

/-- A snapshot before the push of the changes it holds. -/
def hasty : List (SessionState.Operation sqlite Nat) :=
  [.write payer (some [0, 20]), .snapshot true, .push clear]

/-- The snapshot has the updated row, and the changeset after it updates it again. -/
theorem snapshot_before_push_fails :
    ¬ (run SessionState.step (.attach empty accounts 100 true) hasty).Replays .onRows empty := by
  intro h
  obtain ⟨sequence, replayed⟩ := h
  have failed : (replay sqlite .onRows (empty.toImage, 0)
      (inOrder (run SessionState.step (.attach empty accounts 100 true) hasty).emitted)).isOk =
        false := by
    decide
  rw [replayed] at failed
  cases failed

end Sample

end SyndDB.Client
