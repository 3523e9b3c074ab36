import Mathlib.Data.List.TakeWhile
import SyndDB.Client.SchemaOrder

namespace SyndDB.Client

open Changes
open Text (isWhitespace)

def ddlKeywords : List (List Char) := ["CREATE".toList, "ALTER".toList, "DROP".toList]

/-- After white space a keyword in any case, and a space. -/
def BeginsWithDdl (sql : List Char) : Prop :=
  ∃ blanks keyword rest, sql = blanks ++ (keyword ++ ' ' :: rest) ∧
    (∀ c ∈ blanks, isWhitespace c = true) ∧ keyword.map Char.toUpper ∈ ddlKeywords

namespace SessionState

theorem toUpper_eq (c d : Char) (h : c.toUpper = d) :
    c = d ∨ c.toNat = d.toNat + 32 ∧ 97 ≤ c.toNat ∧ c.toNat ≤ 122 := by
  by_cases small : 'a'.val ≤ c.val ∧ c.val ≤ 'z'.val
  · rw [UInt32.le_iff_toNat_le, UInt32.le_iff_toNat_le] at small
    have low : 97 ≤ c.val.toNat := small.1
    have high : c.val.toNat ≤ 122 := small.2
    have upper : d.val = c.val + ('A'.val - 'a'.val) := by
      rw [← h]
      delta Char.toUpper
      rw [dif_pos]
      rw [UInt32.le_iff_toNat_le, UInt32.le_iff_toNat_le]
      exact small
    have value : d.val.toNat = (c.val.toNat + (2 ^ 32 - 32)) % 2 ^ 32 := by
      rw [upper, UInt32.toNat_add]
      rfl
    refine .inr ⟨?_, low, high⟩
    change c.val.toNat = d.val.toNat + 32
    omega
  · delta Char.toUpper at h
    rw [dif_neg small] at h
    exact .inl h

theorem toUpper_space (c : Char) (h : c.toUpper = ' ') : c = ' ' := by
  rcases toUpper_eq c ' ' h with same | ⟨value, low, -⟩
  · exact same
  · have space : (' ' : Char).toNat = 32 := rfl
    omega

/-- No keyword begins with white space. -/
theorem keyword_begins (keyword : List Char) (h : keyword.map Char.toUpper ∈ ddlKeywords) :
    ∃ c rest, keyword = c :: rest ∧ isWhitespace c = false := by
  cases keyword with
  | nil => simp [ddlKeywords] at h
  | cons c rest =>
    refine ⟨c, rest, rfl, ?_⟩
    have first : c.toUpper = 'C' ∨ c.toUpper = 'A' ∨ c.toUpper = 'D' := by
      simp only [ddlKeywords, List.mem_cons, List.not_mem_nil, or_false, List.map_cons] at h
      rcases h with create | alter | drop
      · exact .inl (List.cons.inj create).1
      · exact .inr (.inl (List.cons.inj alter).1)
      · exact .inr (.inr (List.cons.inj drop).1)
    have letter (d : Char) (large : 65 ≤ d.toNat) (less : d.toNat ≤ 90) (upper : c.toUpper = d) :
        65 ≤ c.toNat ∧ c.toNat ≤ 122 := by
      rcases toUpper_eq c d upper with rfl | ⟨value, low, high⟩
      · omega
      · omega
    have range : 65 ≤ c.toNat ∧ c.toNat ≤ 122 := by
      rcases first with upper | upper | upper
      · exact letter 'C' (by decide) (by decide) upper
      · exact letter 'A' (by decide) (by decide) upper
      · exact letter 'D' (by decide) (by decide) upper
    simp only [isWhitespace, Bool.or_eq_false_iff, Bool.and_eq_false_iff, decide_eq_false_iff_not,
      List.contains_eq_mem, List.mem_cons, List.not_mem_nil, or_false]
    omega

theorem isDdl_iff (sql : List Char) : isDdl sql = true ↔ BeginsWithDdl sql := by
  have words : (["CREATE ".toList, "ALTER ".toList, "DROP ".toList] : List (List Char)) =
      ddlKeywords.map (· ++ [' ']) := by decide
  rw [isDdl, words, List.any_eq_true]
  constructor
  · intro h
    obtain ⟨word, member, found⟩ := h
    obtain ⟨keyword, hkeyword, rfl⟩ := List.mem_map.mp member
    obtain ⟨after, split⟩ := List.isPrefixOf_iff_prefix.mp found
    obtain ⟨before, rest, text, mapped, -⟩ := List.map_eq_append_iff.mp split.symm
    obtain ⟨letters, space, text', upper, blank⟩ := List.map_eq_append_iff.mp mapped
    obtain ⟨c, rfl⟩ : ∃ c, space = [c] := by
      apply List.length_eq_one_iff.mp
      have length := congrArg List.length blank
      simpa using length
    have same : c = ' ' := toUpper_space c (List.cons.inj blank).1
    refine ⟨sql.takeWhile isWhitespace, letters, rest, ?_, ?_, ?_⟩
    · calc sql = sql.takeWhile isWhitespace ++ sql.dropWhile isWhitespace :=
            List.takeWhile_append_dropWhile.symm
        _ = sql.takeWhile isWhitespace ++ (letters ++ ' ' :: rest) := by
            rw [text, text', same, List.append_assoc]
            rfl
    · intro c member
      exact List.mem_takeWhile_imp member
    · rw [upper]
      exact hkeyword
  · intro h
    obtain ⟨blanks, keyword, rest, rfl, white, member⟩ := h
    obtain ⟨c, letters, rfl, black⟩ := keyword_begins keyword member
    refine ⟨(c :: letters).map Char.toUpper ++ [' '], List.mem_map.mpr ⟨_, member, rfl⟩, ?_⟩
    rw [List.isPrefixOf_iff_prefix, List.dropWhile_append_of_pos white, List.cons_append,
      List.dropWhile_cons_of_neg (by simp [black])]
    refine ⟨rest.map Char.toUpper, ?_⟩
    simp

end SessionState

variable {σ τ κ ν : Type} {Q : Sqlite σ τ κ} [DecidableEq κ] [DecidableEq ν]

/-- What a statement of a text does. One that fails and rolls its transaction back
is a `rollback`. -/
inductive Command (Q : Sqlite σ τ κ) (ν : Type) where
  | execute (statement : SessionState.Statement Q ν)
  | begin
  | commit
  | rollback

def Command.operation : Command Q ν → SessionState.Operation Q ν
  | .execute (.write key value) => .write key value
  | .execute (.alter effect) => .alter effect
  | .begin => .begin
  | .commit => .commit
  | .rollback => .rollback

namespace SessionState

def perform (c : SessionState Q ν) (command : Command Q ν) : SessionState Q ν :=
  c.step command.operation

/-- The schema that the next process finds in the database file. -/
def durable (c : SessionState Q ν) : σ := (c.transaction.getD c.db).schema

end SessionState

/-- The answers of SQLite, the file system and the sequencer to the steps of a call. -/
structure Answers where
  markerWritten : Bool
  executed : Bool
  snapshotCreated : Bool
  markerRemoved : Bool
  published : Bool

/-- The client, whether there is a marker file for its database, and the snapshots that the
call has created. -/
structure Attempt (Q : Sqlite σ τ κ) (ν : Type) where
  client : SessionState Q ν
  marker : Bool
  created : List (Image σ κ ν)

namespace Attempt

def writeMarker (written : Bool) (a : Attempt Q ν) : Attempt Q ν :=
  { a with marker := a.marker || written }

def clearMarker (removed : Bool) (a : Attempt Q ν) : Attempt Q ν :=
  { a with marker := a.marker && !removed }

def createSnapshot (created : Bool) (a : Attempt Q ν) : Option (Attempt Q ν) :=
  if a.client.transaction.isSome || !created then none
  else some { a with created := a.created ++ [a.client.db.toImage] }

def publish (published : Bool) (a : Attempt Q ν) : Attempt Q ν :=
  { a with client := a.client.snapshot published }

def execute (a : Attempt Q ν) (command : Command Q ν) : Attempt Q ν :=
  { a with client := a.client.perform command }

/-- The states between the statements, with the first and the last. -/
def passes : List (Command Q ν) → Attempt Q ν → List (Attempt Q ν)
  | [], a => [a]
  | command :: batch, a => a :: passes batch (a.execute command)

end Attempt

/-- How a call ends, and all states in which the process may have ended before. -/
structure Call (Q : Sqlite σ τ κ) (ν : Type) where
  passed : List (Attempt Q ν)
  last : Attempt Q ν
  ok : Bool

namespace Attempt

/-- `snapshot` -/
def snapshot (answers : Answers) (a : Attempt Q ν) : Call Q ν :=
  match a.createSnapshot answers.snapshotCreated with
  | none => ⟨[], a, false⟩
  | some created =>
      let cleared := created.clearMarker answers.markerRemoved
      let sent := cleared.publish answers.published
      ⟨[created, cleared, sent], sent, answers.published⟩

/-- `execute_ddl`, where `batch` is what SQLite does for the text -/
def executeDdl (sql : List Char) (batch : List (Command Q ν)) (answers : Answers)
    (a : Attempt Q ν) :
    Call Q ν :=
  let isDdl := SessionState.isDdl sql
  let marked := if isDdl then a.writeMarker answers.markerWritten else a
  let passed := a :: passes batch marked
  let done := batch.foldl execute marked
  if !answers.executed then ⟨passed, done, false⟩
  else if isDdl then
    let call := done.snapshot answers
    ⟨passed ++ call.passed, call.last, call.ok⟩
  else ⟨passed, done, true⟩

/-- What `attach` does with a marker. -/
def recover (answers : Answers) (a : Attempt Q ν) : Call Q ν :=
  if a.marker then a.snapshot answers else ⟨[], a, true⟩

/-- A schema that was changed before the process ended is in a snapshot, or the marker is there. -/
def Recoverable (before a : Attempt Q ν) : Prop :=
  a.client.durable ≠ before.client.durable →
    (∀ image ∈ a.created, image.schema ≠ a.client.durable) → a.marker = true

end Attempt

/-- The process may end in any state that the call passes, and the call may return. -/
structure DdlRecovered (sql : List Char) (batch : List (Command Q ν)) (answers : Answers)
    (a : Attempt Q ν) : Prop where
  crash : ∀ b ∈ (a.executeDdl sql batch answers).passed, a.Recoverable b
  returns : (a.executeDdl sql batch answers).ok = true →
    (a.executeDdl sql batch answers).last.client.db.schema ≠ a.client.db.schema →
    ∃ image ∈ (a.executeDdl sql batch answers).last.created,
      image.schema = (a.executeDdl sql batch answers).last.client.db.schema

namespace Attempt

theorem foldl_execute (batch : List (Command Q ν)) (a : Attempt Q ν) :
    batch.foldl execute a = { a with client := batch.foldl SessionState.perform a.client } := by
  induction batch generalizing a with
  | nil => rfl
  | cons command batch ih => exact ih (a.execute command)

theorem mem_passes (batch : List (Command Q ν)) (a b : Attempt Q ν) :
    b ∈ passes batch a ↔
      ∃ n, b = { a with client := (batch.take n).foldl SessionState.perform a.client } := by
  induction batch generalizing a with
  | nil => simp [passes]
  | cons command batch ih =>
    rw [passes, List.mem_cons, ih (a.execute command)]
    constructor
    · intro h
      rcases h with rfl | ⟨n, rfl⟩
      · exact ⟨0, rfl⟩
      · exact ⟨n + 1, rfl⟩
    · intro h
      obtain ⟨n, rfl⟩ := h
      cases n with
      | zero => exact .inl rfl
      | succ n => exact .inr ⟨n, rfl⟩

omit [DecidableEq κ] [DecidableEq ν] in
theorem publish_client (published : Bool) (a : Attempt Q ν) :
    (a.publish published).client.db = a.client.db ∧
      (a.publish published).client.transaction = a.client.transaction := by
  simp only [publish, SessionState.snapshot]
  split
  · exact ⟨rfl, rfl⟩
  · split
    · exact ⟨rfl, rfl⟩
    · exact ⟨rfl, rfl⟩

omit [DecidableEq κ] [DecidableEq ν] in
/-- A snapshot that was created holds the schema in every later state of the call, and the
database file does. -/
theorem snapshot_holds (answers : Answers) (a b : Attempt Q ν)
    (h : b ∈ (a.snapshot answers).passed) :
    b.client.db = a.client.db ∧ b.client.durable = a.client.db.schema ∧
      a.client.db.toImage ∈ b.created := by
  rw [snapshot, createSnapshot] at h
  split at h
  · cases h
  · rename_i created found
    split at found
    · cases found
    · rename_i free
      obtain ⟨outside, -⟩ : a.client.transaction.isSome = false ∧ _ := by simpa using free
      have none : a.client.transaction = none := by simpa using outside
      cases found
      have holds (c : Attempt Q ν) (db : c.client.db = a.client.db)
          (transaction : c.client.transaction = a.client.transaction)
          (member : a.client.db.toImage ∈ c.created) : c.client.db = a.client.db ∧
            c.client.durable = a.client.db.schema ∧ a.client.db.toImage ∈ c.created := by
        refine ⟨db, ?_, member⟩
        rw [SessionState.durable, transaction, none, db]
        rfl
      simp only [List.mem_cons, List.not_mem_nil, or_false] at h
      rcases h with rfl | rfl | rfl
      · exact holds _ rfl rfl (List.mem_append_right _ (List.mem_singleton_self _))
      · exact holds _ rfl rfl (List.mem_append_right _ (List.mem_singleton_self _))
      · obtain ⟨db, transaction⟩ := publish_client answers.published
          (clearMarker answers.markerRemoved
            { a with created := a.created ++ [a.client.db.toImage] })
        exact holds _ db transaction (List.mem_append_right _ (List.mem_singleton_self _))

omit [DecidableEq κ] [DecidableEq ν] in
theorem snapshot_last (answers : Answers) (a : Attempt Q ν) (h : (a.snapshot answers).ok = true) :
    (a.snapshot answers).last ∈ (a.snapshot answers).passed := by
  rw [snapshot] at h ⊢
  split
  · rename_i failed
    rw [failed] at h
    cases h
  · simp

end Attempt

section Condition

variable (sql : List Char) (batch : List (Command Q ν)) (answers : Answers)
  (client : SessionState Q ν) (marker : Bool)

/-- The state in which the text begins to run. -/
def marked : Attempt Q ν :=
  if SessionState.isDdl sql then (Attempt.mk client marker []).writeMarker answers.markerWritten
  else ⟨client, marker, []⟩

omit [DecidableEq κ] [DecidableEq ν] in
theorem marked_client : (marked sql answers client marker).client = client := by
  rw [marked]
  split
  · rfl
  · rfl

omit [DecidableEq κ] [DecidableEq ν] in
theorem marked_created : (marked sql answers client marker).created = [] := by
  rw [marked]
  split
  · rfl
  · rfl

omit [DecidableEq κ] [DecidableEq ν] in
theorem marked_marker : (marked sql answers client marker).marker = true ↔
    marker = true ∨ BeginsWithDdl sql ∧ answers.markerWritten = true := by
  rw [marked, ← SessionState.isDdl_iff]
  split
  · rename_i ddl
    simp [Attempt.writeMarker, ddl]
  · rename_i other
    simp [other]

/-- Every state is one between two statements, or one behind a snapshot. -/
theorem executeDdl_passed (b : Attempt Q ν) :
    b ∈ ((Attempt.mk client marker []).executeDdl sql batch answers).passed ↔
      b = ⟨client, marker, []⟩ ∨ b ∈ Attempt.passes batch (marked sql answers client marker) ∨
        answers.executed = true ∧ BeginsWithDdl sql ∧
          b ∈ ((batch.foldl Attempt.execute (marked sql answers client marker)).snapshot
            answers).passed := by
  simp only [Attempt.executeDdl, ← SessionState.isDdl_iff]
  change b ∈ (if !answers.executed then
      (⟨_ :: Attempt.passes batch (marked sql answers client marker), _, _⟩ : Call Q ν)
    else _).passed ↔ _
  cases answers.executed with
  | false => simp
  | true =>
    by_cases ddl : SessionState.isDdl sql = true
    · simp [ddl, marked]
    · simp [ddl, marked]

theorem done_eq : batch.foldl Attempt.execute (marked sql answers client marker) =
    ⟨batch.foldl SessionState.perform client, (marked sql answers client marker).marker, []⟩ := by
  rw [Attempt.foldl_execute, marked_client, marked_created]

/-- Nothing but the marker stands for a schema that a statement has changed. -/
theorem crash_iff :
    (∀ b ∈ ((Attempt.mk client marker []).executeDdl sql batch answers).passed,
      (Attempt.mk client marker []).Recoverable b) ↔
    (marked sql answers client marker).marker = true ∨
      ∀ n, ((batch.take n).foldl SessionState.perform client).durable = client.durable := by
  constructor
  · intro recoverable
    by_cases there : (marked sql answers client marker).marker = true
    · exact .inl there
    · refine .inr fun n => ?_
      by_contra changed
      let b : Attempt Q ν := { marked sql answers client marker with
        client := (batch.take n).foldl SessionState.perform client }
      have member : b ∈ Attempt.passes batch (marked sql answers client marker) := by
        refine (Attempt.mem_passes _ _ b).mpr ⟨n, ?_⟩
        rw [marked_client]
      have passed := (executeDdl_passed sql batch answers client marker b).mpr (.inr (.inl member))
      apply there
      apply recoverable b passed changed
      intro image created
      have none : b.created = [] := marked_created sql answers client marker
      rw [none] at created
      cases created
  · intro h b passed changed unseen
    rcases (executeDdl_passed sql batch answers client marker b).mp passed with
      rfl | between | ⟨-, -, behind⟩
    · exact absurd rfl changed
    · obtain ⟨n, rfl⟩ := (Attempt.mem_passes _ _ b).mp between
      rcases h with there | unchanged
      · exact there
      · have same := unchanged n
        rw [← marked_client sql answers client marker] at same
        exact absurd (same.trans (by rw [marked_client])) changed
    · obtain ⟨-, durable, member⟩ := Attempt.snapshot_holds _ _ b behind
      exact absurd durable.symm (unseen _ member)

/-- A text that is not taken for DDL is executed without a snapshot. -/
theorem returns_iff :
    (((Attempt.mk client marker []).executeDdl sql batch answers).ok = true →
      ((Attempt.mk client marker []).executeDdl sql batch answers).last.client.db.schema ≠
        client.db.schema →
      ∃ image ∈ ((Attempt.mk client marker []).executeDdl sql batch answers).last.created,
        image.schema =
          ((Attempt.mk client marker []).executeDdl sql batch answers).last.client.db.schema) ↔
    BeginsWithDdl sql ∨ answers.executed = false ∨
      (batch.foldl SessionState.perform client).db.schema = client.db.schema := by
  rw [← SessionState.isDdl_iff]
  cases executed : answers.executed with
  | false => simp [Attempt.executeDdl, executed]
  | true =>
    by_cases ddl : SessionState.isDdl sql = true
    · have call : (Attempt.mk client marker []).executeDdl sql batch answers =
          ⟨(Attempt.mk client marker [] :: Attempt.passes batch
              (marked sql answers client marker)) ++
              ((batch.foldl Attempt.execute (marked sql answers client marker)).snapshot
                answers).passed,
            ((batch.foldl Attempt.execute (marked sql answers client marker)).snapshot
              answers).last,
            ((batch.foldl Attempt.execute (marked sql answers client marker)).snapshot
              answers).ok⟩ := by
        simp [Attempt.executeDdl, executed, ddl, marked]
      rw [call]
      refine iff_of_true ?_ (.inl ddl)
      intro ok _
      have last := Attempt.snapshot_last answers _ ok
      obtain ⟨db, -, member⟩ := Attempt.snapshot_holds answers _ _ last
      exact ⟨_, member, by rw [db]⟩
    · have call : (Attempt.mk client marker []).executeDdl sql batch answers =
          ⟨Attempt.mk client marker [] :: Attempt.passes batch (marked sql answers client marker),
            batch.foldl Attempt.execute (marked sql answers client marker), true⟩ := by
        simp [Attempt.executeDdl, executed, ddl, marked]
      rw [call, done_eq]
      simp [ddl]

/-- No changed schema is left without a marker or a snapshot exactly if the marker is there
when the file changes, and a text that is executed and changes the schema begins with a
keyword and a space. -/
theorem ddl_recovery_iff :
    DdlRecovered sql batch answers ⟨client, marker, []⟩ ↔
      (marker = true ∨ (BeginsWithDdl sql ∧ answers.markerWritten = true) ∨
        ∀ n, ((batch.take n).foldl SessionState.perform client).durable = client.durable) ∧
      (BeginsWithDdl sql ∨ answers.executed = false ∨
        (batch.foldl SessionState.perform client).db.schema = client.db.schema) := by
  rw [← or_assoc, ← marked_marker, ← crash_iff, ← returns_iff sql batch answers client marker]
  constructor
  · intro h
    exact ⟨h.crash, h.returns⟩
  · intro h
    exact ⟨h.1, h.2⟩

end Condition

omit [DecidableEq κ] [DecidableEq ν] in
/-- A marker that is found has the schema of the file published. -/
theorem recovery_forced (before b : Attempt Q ν) (recoverable : before.Recoverable b)
    (changed : b.client.durable ≠ before.client.durable)
    (unseen : ∀ image ∈ b.created, image.schema ≠ b.client.durable) (client : SessionState Q ν)
    (reopened : client.db.schema = b.client.durable) (outside : client.transaction = none)
    (answers : Answers) (created : answers.snapshotCreated = true) :
    ∃ image ∈ ((Attempt.mk client b.marker []).recover answers).last.created,
      image.schema = b.client.durable := by
  have there : b.marker = true := recoverable changed unseen
  have call : (Attempt.mk client b.marker []).recover answers =
      (Attempt.mk client b.marker []).snapshot answers := by
    rw [Attempt.recover, if_pos there]
  have last : ((Attempt.mk client b.marker []).snapshot answers).last ∈
      ((Attempt.mk client b.marker []).snapshot answers).passed := by
    simp [Attempt.snapshot, Attempt.createSnapshot, outside, created]
  obtain ⟨-, -, member⟩ := Attempt.snapshot_holds answers _ _ last
  rw [call]
  exact ⟨_, member, reopened⟩

/-- A call that is not interrupted, for a text without statements about transactions. -/
theorem executeDdl_client (sql : List Char) (statements : List (SessionState.Statement Q ν))
    (answers : Answers) (client : SessionState Q ν) (marker : Bool) :
    ((Attempt.mk client marker []).executeDdl sql (statements.map .execute) answers).last.client =
      client.executeDdl sql statements answers.executed
        (answers.snapshotCreated && answers.published) := by
  have same (c : SessionState Q ν) (statement : SessionState.Statement Q ν) :
      c.perform (.execute statement) = c.execute statement := by
    cases statement with
    | write key value => rfl
    | alter effect => rfl
  have done : (statements.map .execute).foldl SessionState.perform client =
      statements.foldl SessionState.execute client := by
    rw [List.foldl_map]
    exact congrArg (fun f => statements.foldl f client) (funext₂ same)
  have marks := done_eq sql (statements.map .execute) answers client marker
  rw [marked] at marks
  rw [SessionState.executeDdl, ← done, Attempt.executeDdl, marks]
  cases answers.executed with
  | false => rfl
  | true =>
    by_cases ddl : SessionState.isDdl sql = true
    · simp only [ddl, Attempt.snapshot, Attempt.createSnapshot, SessionState.snapshot]
      cases outside : (List.foldl SessionState.perform client
          (statements.map .execute)).transaction.isSome with
      | true => simp
      | false =>
        cases answers.snapshotCreated with
        | false => simp
        | true => simp [outside, Attempt.publish, Attempt.clearMarker, SessionState.snapshot]
    · simp [ddl]

namespace Sample

def commented : List Char := "-- by name\nCREATE INDEX by_name ON accounts (name)".toList

def answered : Answers := ⟨true, true, true, true, true⟩

def commentedCall : Call sqlite Nat :=
  (Attempt.mk start false []).executeDdl commented [.execute (.alter createIndex)] answered

/-- Nothing fails, and the index is created without a marker and without a snapshot. -/
theorem comment_hides_ddl :
    commentedCall.ok = true ∧ commentedCall.last.client.durable ≠ start.durable ∧
    commentedCall.last.created = [] ∧ commentedCall.last.marker = false ∧
    ¬DdlRecovered commented [.execute (.alter createIndex)] answered ⟨start, false, []⟩ := by
  have ok : commentedCall.ok = true := by decide
  have changed : commentedCall.last.client.db.schema ≠ start.db.schema := by decide
  have none : commentedCall.last.created = [] := by decide
  refine ⟨ok, by decide, none, by decide, ?_⟩
  intro recovered
  obtain ⟨image, member, -⟩ := recovered.returns ok changed
  change image ∈ commentedCall.last.created at member
  rw [none] at member
  cases member

end Sample

end SyndDB.Client
