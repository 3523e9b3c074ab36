import SyndDB.Client.Replay

namespace SyndDB.Client

open Changes Run

variable {σ τ κ ν : Type} [DecidableEq κ] [DecidableEq ν] {Q : Sqlite σ τ κ}

def Emission.asChangeset : Emission σ κ ν → Option (Nat × List (Change κ ν))
  | .snapshot _ _ _ => none
  | .changeset sequence data => some (sequence, data)

/-- Changesets that follow each other from the start to a moment: each carries what has changed
since the one before. -/
inductive Covers (rowsAt : Nat → Rows κ ν) : List (List (Change κ ν)) → Nat → Prop
  | start : Covers rowsAt [] 0
  | next (handed : List (List (Change κ ν))) (since now : Nat) (data : List (Change κ ν))
      (earlier : Covers rowsAt handed since) (later : since ≤ now)
      (carries : Carries data (rowsAt since) (rowsAt now)) : Covers rowsAt (handed ++ [data]) now

omit [DecidableEq κ] in
theorem covers_nil (rowsAt : Nat → Rows κ ν) (handed : List (List (Change κ ν))) (n : Nat)
    (empty : handed = []) (h : Covers rowsAt handed n) : n = 0 := by
  cases h with
  | start => rfl
  | next => simp at empty

namespace SessionState

def changesets (c : SessionState Q ν) : List (Nat × List (Change κ ν)) :=
  c.emitted.filterMap Emission.asChangeset

/-- Every change up to `n` is in one of the changesets handed over, but for a last part that is
still in the session and has no effect. -/
def Delivered (rowsAt : Nat → Rows κ ν) (n : Nat) (c : SessionState Q ν) : Prop :=
  ∃ last ≤ n, Covers rowsAt (c.changesets.map Prod.snd) last ∧ rowsAt n = rowsAt last ∧
    ∀ t, last ≤ t → t ≤ n → ∀ key, rowsAt t key ≠ rowsAt last key → key ∈ c.session.map Prod.fst

/-- The condition on a step: a push finds the flag set if there are changes, and it can hand them
over and recreate the session. -/
def Delivers (c : SessionState Q ν) : Operation Q ν → Prop
  | .push room => c.transaction.isNone = true → (changes c.session c.db.rows).isEmpty = false →
      c.hasChanges = true ∧
        (room.extraction.isOk = true → room.changeset = true ∧ room.recreation.isOk = true)
  | _ => True

instance decidableDelivers (c : SessionState Q ν) (op : Operation Q ν) :
    Decidable (c.Delivers op) :=
  match op with
  | .push _ => inferInstanceAs (Decidable (_ → _ → _ ∧ (_ → _ ∧ _)))
  | .write _ _ | .alter _ | .executeDdl _ _ _ _ | .snapshot _ | .begin | .commit | .rollback =>
      inferInstanceAs (Decidable True)

/-- Rows are written, and the schema stays. -/
def Operation.OnRows : Operation Q ν → Prop
  | .alter _ | .executeDdl _ _ _ _ => False
  | _ => True

instance decidableOnRows (op : Operation Q ν) : Decidable op.OnRows :=
  match op with
  | .alter _ | .executeDdl _ _ _ _ => inferInstanceAs (Decidable False)
  | .write _ _ | .push _ | .snapshot _ | .begin | .commit | .rollback =>
      inferInstanceAs (Decidable True)

/-- The session has the rows that have changed since the last changeset was handed over, each with
its value at that time. -/
structure Tracks (rowsAt : Nat → Rows κ ν) (last n : Nat) (c : SessionState Q ν) : Prop where
  past : last ≤ n
  covers : Covers rowsAt (c.changesets.map Prod.snd) last
  nodup : (c.session.map Prod.fst).Nodup
  recorded : ∀ entry ∈ c.session, entry.2 = rowsAt last entry.1
  elsewhere : ∀ t, last ≤ t → t ≤ n → ∀ key, key ∉ c.session.map Prod.fst →
    rowsAt t key = rowsAt last key
  saved : ∀ db ∈ c.transaction, ∀ key, key ∉ c.session.map Prod.fst →
    db.rows key = rowsAt last key
  increasing : (c.changesets.map Prod.fst).Pairwise (· < ·)
  numbered : ∀ sequence ∈ c.changesets.map Prod.fst, sequence < c.sequence

variable {rowsAt : Nat → Rows κ ν}

omit [DecidableEq κ] in
/-- Outside the session the next moment is like the last changeset, if the rows are as now or as at
the start of the transaction. -/
theorem tracks_next (last n : Nat) (c d : SessionState Q ν) (h : c.Tracks rowsAt last n)
    (session : d.session = c.session) (changesets : d.changesets = c.changesets)
    (sequence : c.sequence ≤ d.sequence)
    (next : ∀ key, key ∉ c.session.map Prod.fst → rowsAt (n + 1) key = rowsAt last key)
    (saved : ∀ db ∈ d.transaction, ∀ key, key ∉ c.session.map Prod.fst →
      db.rows key = rowsAt last key) : d.Tracks rowsAt last (n + 1) where
  past := Nat.le_succ_of_le h.past
  covers := by
    rw [changesets]
    exact h.covers
  nodup := by
    rw [session]
    exact h.nodup
  recorded := by
    rw [session]
    exact h.recorded
  elsewhere t lower upper key outside := by
    rw [session] at outside
    by_cases now : t = n + 1
    · rw [now]
      exact next key outside
    · exact h.elsewhere t lower (by omega) key outside
  saved := by
    rw [session]
    exact saved
  increasing := by
    rw [changesets]
    exact h.increasing
  numbered := by
    rw [changesets]
    intro number member
    exact (h.numbered number member).trans_le sequence

omit [DecidableEq κ] in
/-- The rows stay. -/
theorem tracks_rest (last n : Nat) (c d : SessionState Q ν) (h : c.Tracks rowsAt last n)
    (rest : rowsAt (n + 1) = rowsAt n) (session : d.session = c.session)
    (changesets : d.changesets = c.changesets) (sequence : c.sequence ≤ d.sequence)
    (transaction : ∀ db ∈ d.transaction, db.rows = rowsAt n ∨ db ∈ c.transaction) :
    d.Tracks rowsAt last (n + 1) := by
  have now (key : κ) (outside : key ∉ c.session.map Prod.fst) : rowsAt n key = rowsAt last key :=
    h.elsewhere n h.past (Nat.le_refl _) key outside
  apply tracks_next last n c d h session changesets sequence
  · intro key outside
    rw [rest]
    exact now key outside
  · intro db member key outside
    rcases transaction db member with same | before
    · rw [same]
      exact now key outside
    · exact h.saved db before key outside

omit [DecidableEq κ] in
/-- A row joins the session with the value it had at the last changeset. -/
theorem tracks_record (last n : Nat) (c d : SessionState Q ν) (key : κ)
    (h : c.Tracks rowsAt last n) (new : key ∉ c.session.map Prod.fst)
    (session : d.session = c.session ++ [(key, rowsAt last key)])
    (changesets : d.changesets = c.changesets)
    (sequence : c.sequence ≤ d.sequence) (transaction : d.transaction = c.transaction) :
    d.Tracks rowsAt last n := by
  have outside_both (other : κ) (outside : other ∉ d.session.map Prod.fst) :
      other ∉ c.session.map Prod.fst := by
    rw [session, List.map_append, List.mem_append, not_or] at outside
    exact outside.1
  constructor
  · exact h.past
  · rw [changesets]
    exact h.covers
  · rw [session, List.map_append, List.nodup_append]
    refine ⟨h.nodup, List.nodup_singleton key, ?_⟩
    intro other member added same rfl
    rw [List.mem_singleton.mp same] at member
    exact new member
  · intro entry member
    rw [session] at member
    rcases List.mem_append.mp member with old | added
    · exact h.recorded entry old
    · rw [List.mem_singleton.mp added]
  · intro t lower upper other outside
    exact h.elsewhere t lower upper other (outside_both other outside)
  · intro db member other outside
    rw [transaction] at member
    exact h.saved db member other (outside_both other outside)
  · rw [changesets]
    exact h.increasing
  · rw [changesets]
    intro number member
    exact (h.numbered number member).trans_le sequence

theorem tracks_write (last n : Nat) (c : SessionState Q ν) (key : κ) (value : Option (List ν))
    (h : c.Tracks rowsAt last n) (now : rowsAt n = c.db.rows)
    (after : rowsAt (n + 1) = (c.write key value).db.rows) :
    (c.write key value).Tracks rowsAt last (n + 1) := by
  obtain same | ⟨db, rows, wrote⟩ := write_cases c key value
  · rw [same] at after ⊢
    exact tracks_rest last n c c h (after.trans now.symm) rfl rfl (Nat.le_refl _)
      (fun _ member => .inr member)
  · rw [wrote] at after ⊢
    have others (other : κ) (different : other ≠ key) : rowsAt (n + 1) other = rowsAt n other := by
      rw [after, now]
      exact (congrFun rows other).trans (Function.update_of_ne different _ _)
    -- The row is recorded first; then the write changes a recorded row.
    obtain ⟨d, tracked, recorded, session, changesets, sequence, transaction⟩ :
        ∃ d : SessionState Q ν, d.Tracks rowsAt last n ∧ key ∈ d.session.map Prod.fst ∧
          (c.written key db).session = d.session ∧ (c.written key db).changesets = d.changesets ∧
          d.sequence ≤ (c.written key db).sequence ∧
          (c.written key db).transaction = d.transaction := by
      by_cases recorded : key ∈ c.session.map Prod.fst
      · exact ⟨c, h, recorded, if_pos recorded, rfl, Nat.le_refl _, rfl⟩
      · have found : c.db.rows key = rowsAt last key := by
          rw [← now]
          exact h.elsewhere n h.past (Nat.le_refl _) key recorded
        refine ⟨{ c with session := c.session ++ [(key, rowsAt last key)] },
          tracks_record last n c _ key h recorded rfl rfl (Nat.le_refl _) rfl, by simp, ?_, rfl,
          Nat.le_refl _, rfl⟩
        rw [written, if_neg recorded, found]
    apply tracks_next last n d _ tracked session changesets sequence
    · intro other outside
      have different : other ≠ key := by
        rintro rfl
        exact outside recorded
      rw [others other different]
      exact tracked.elsewhere n tracked.past (Nat.le_refl _) other outside
    · rw [transaction]
      exact tracked.saved

omit [DecidableEq κ] [DecidableEq ν] in
theorem changesets_emitSnapshot (route : Route) (c : SessionState Q ν) :
    (c.emitSnapshot route).changesets = c.changesets := by
  simp [changesets, emitSnapshot, emit, List.filterMap_append, Emission.asChangeset]

omit [DecidableEq κ] [DecidableEq ν] in
theorem detectSchemaChange_changesets (sent : Bool) (c : SessionState Q ν) :
    (c.detectSchemaChange sent).changesets = c.changesets ∧
      c.sequence ≤ (c.detectSchemaChange sent).sequence := by
  rw [detectSchemaChange]
  split
  · exact ⟨rfl, Nat.le_refl _⟩
  · split
    · exact ⟨changesets_emitSnapshot .channel c, Nat.le_succ _⟩
    · exact ⟨rfl, Nat.le_refl _⟩

omit [DecidableEq κ] [DecidableEq ν] in
theorem intervalSnapshot_changesets (sent : Bool) (c : SessionState Q ν) :
    (c.intervalSnapshot sent).changesets = c.changesets ∧
      (c.intervalSnapshot sent).sequence = c.sequence ∧
      (c.intervalSnapshot sent).transaction = c.transaction := by
  rw [intervalSnapshot]
  split
  · split
    · exact ⟨changesets_emitSnapshot .channel c, rfl, rfl⟩
    · exact ⟨rfl, rfl, rfl⟩
  · exact ⟨rfl, rfl, rfl⟩

omit [DecidableEq κ] in
/-- The changes of the session are handed over and a new session begins. -/
theorem tracks_handover (last n : Nat) (c d : SessionState Q ν) (number : Nat)
    (h : c.Tracks rowsAt last n) (rest : rowsAt (n + 1) = rowsAt n) (session : d.session = [])
    (transaction : d.transaction = none) (low : c.sequence ≤ number) (high : number < d.sequence)
    (changesets : d.changesets = c.changesets ++ [(number, changes c.session (rowsAt n))]) :
    d.Tracks rowsAt n (n + 1) := by
  have carries := changes_carries c.session (rowsAt last) (rowsAt n) h.nodup h.recorded
    (h.elsewhere n h.past (Nat.le_refl _))
  constructor
  · exact Nat.le_succ n
  · rw [changesets, List.map_append]
    exact .next _ last n _ h.covers h.past carries
  · rw [session]
    exact List.nodup_nil
  · intro entry member
    rw [session] at member
    cases member
  · intro t lower upper key _
    by_cases now : t = n
    · rw [now]
    · rw [show t = n + 1 by omega, rest]
  · intro db member
    rw [transaction] at member
    cases member
  · rw [changesets, List.map_append, List.pairwise_append]
    refine ⟨h.increasing, List.pairwise_singleton _ _, ?_⟩
    intro earlier member latest same
    rw [List.mem_singleton.mp same]
    exact (h.numbered earlier member).trans_le low
  · intro sequence member
    rw [changesets, List.map_append] at member
    rcases List.mem_append.mp member with old | new
    · exact ((h.numbered sequence old).trans_le low).trans high
    · rw [List.mem_singleton.mp new]
      exact high

omit [DecidableEq κ] in
theorem tracks_push (last n : Nat) (c : SessionState Q ν) (room : Room)
    (h : c.Tracks rowsAt last n) (now : rowsAt n = c.db.rows) (rest : rowsAt (n + 1) = rowsAt n)
    (delivers : c.Delivers (.push room)) :
    ∃ last, (c.extractAndSendChangeset room).2.Tracks rowsAt last (n + 1) := by
  obtain ⟨session, db, transaction⟩ := detectSchemaChange_session room.schemaSnapshot c
  obtain ⟨changesets, sequence⟩ := detectSchemaChange_changesets room.schemaSnapshot c
  have pushed := push_cases room c
  generalize c.extractAndSendChangeset room = result at pushed ⊢
  cases pushed with
  | idle =>
    exact ⟨last, tracks_rest last n c c h rest rfl rfl (Nat.le_refl _) fun _ member => .inr member⟩
  | unread =>
    refine ⟨last, tracks_rest last n c _ h rest session changesets sequence ?_⟩
    rw [transaction]
    exact fun _ member => .inr member
  | nothing =>
    refine ⟨last, tracks_rest last n c _ h rest session changesets sequence ?_⟩
    dsimp only
    rw [transaction]
    exact fun _ member => .inr member
  | sent flagged outside read some =>
    obtain ⟨-, both⟩ := delivers (by simp [outside]) (by simpa using some)
    obtain ⟨handed, recreated⟩ := both (by rw [read]; rfl)
    obtain ⟨⟨⟩, fresh⟩ : ∃ u, room.recreation = .ok u := by
      cases answer : room.recreation with
      | ok u => exact ⟨u, rfl⟩
      | error e =>
        rw [answer] at recreated
        cases recreated
    rw [handed, fresh]
    let sent := sendChangeset true (changes c.session c.db.rows)
      { c.detectSchemaChange room.schemaSnapshot with hasChanges := false }
    obtain ⟨sentChangesets, sentSequence, sentTransaction⟩ :=
      intervalSnapshot_changesets room.intervalSnapshot sent
    refine ⟨n, tracks_handover last n c _ (c.detectSchemaChange room.schemaSnapshot).sequence h rest
      rfl (sentTransaction.trans (transaction.trans outside)) sequence ?_ ?_⟩
    · exact (Nat.lt_succ_self _).trans_eq sentSequence.symm
    · refine sentChangesets.trans ?_
      rw [now, ← changesets]
      exact List.filterMap_append

theorem tracks_step (last n : Nat) (c : SessionState Q ν) (op : Operation Q ν) (onRows : op.OnRows)
    (h : c.Tracks rowsAt last n) (now : rowsAt n = c.db.rows)
    (after : rowsAt (n + 1) = (c.step op).db.rows) (delivers : c.Delivers op) :
    ∃ last, (c.step op).Tracks rowsAt last (n + 1) := by
  have same (kept : (c.step op).db = c.db) : rowsAt (n + 1) = rowsAt n := by
    rw [after, kept, now]
  cases op with
  | write key value => exact ⟨last, tracks_write last n c key value h now after⟩
  | alter effect => exact onRows.elim
  | executeDdl sql batch succeeds published => exact onRows.elim
  | push room =>
    refine tracks_push last n c room h now (same ?_) delivers
    exact push_db room c
  | snapshot published =>
    have silent : (c.snapshot published).session = c.session ∧
        (c.snapshot published).changesets = c.changesets ∧
        (c.snapshot published).sequence = c.sequence ∧ (c.snapshot published).db = c.db ∧
        (c.snapshot published).transaction = c.transaction := by
      rw [snapshot]
      split
      · exact ⟨rfl, rfl, rfl, rfl, rfl⟩
      · split
        · exact ⟨rfl, changesets_emitSnapshot .request c, rfl, rfl, rfl⟩
        · exact ⟨rfl, rfl, rfl, rfl, rfl⟩
    obtain ⟨session, changesets, sequence, db, transaction⟩ := silent
    refine ⟨last, tracks_rest last n c _ h (same db) session changesets sequence.ge ?_⟩
    rw [show (c.step (.snapshot published)).transaction = c.transaction from transaction]
    exact fun _ member => .inr member
  | begin =>
    rw [step] at after same ⊢
    split at after
    · rename_i inside
      rw [if_pos inside] at same ⊢
      exact ⟨last, tracks_rest last n c c h (same rfl) rfl rfl (Nat.le_refl _)
        fun _ member => .inr member⟩
    · rename_i outside
      rw [if_neg outside] at same ⊢
      refine ⟨last, tracks_rest last n c _ h (same rfl) rfl rfl (Nat.le_refl _) ?_⟩
      intro db member
      rw [← Option.some.inj member, now]
      exact .inl rfl
  | commit =>
    exact ⟨last, tracks_rest last n c _ h (same rfl) rfl rfl (Nat.le_refl _) (by simp [step])⟩
  | rollback =>
    cases inside : c.transaction with
    | none =>
      have idle : c.step .rollback = c := by
        rw [step, inside]
      rw [idle] at same ⊢
      exact ⟨last, tracks_rest last n c c h (same rfl) rfl rfl (Nat.le_refl _)
        fun _ member => .inr member⟩
    | some db =>
      have back : c.step .rollback = { c with db := db, transaction := none } := by
        rw [step, inside]
      rw [back] at after ⊢
      refine ⟨last, tracks_next last n c _ h rfl rfl (Nat.le_refl _) ?_ (by simp)⟩
      intro key outside
      rw [after]
      exact h.saved db inside key outside

omit [DecidableEq κ] in
theorem tracks_attach (empty db : Database Q ν) (snapshotInterval : Nat) (published : Bool) :
    (attach empty db snapshotInterval published).Tracks rowsAt 0 0 := by
  have fresh (c : SessionState Q ν) (session : c.session = []) (changesets : c.changesets = [])
      (transaction : c.transaction = none) : c.Tracks rowsAt 0 0 := by
    refine ⟨Nat.le_refl _, ?_, ?_, ?_, ?_, ?_, ?_, ?_⟩
    · rw [changesets]
      exact .start
    · simp [session]
    · simp [session]
    · intro t _ upper key _
      rw [Nat.le_zero.mp upper]
    · simp [transaction]
    · simp [changesets]
    · simp [changesets]
  rw [attach]
  split
  · rw [snapshot]
    simp only [Option.isSome_none, Bool.false_eq_true, if_false]
    split
    · exact fresh _ rfl (changesets_emitSnapshot _ _) rfl
    · exact fresh _ rfl rfl rfl
  · exact fresh _ rfl rfl rfl

omit [DecidableEq κ] in
/-- A push that succeeds leaves nothing to be handed over. -/
theorem push_empties (c : SessionState Q ν) (room : Room) (delivers : c.Delivers (.push room))
    (outside : c.transaction = none) (succeeded : (c.extractAndSendChangeset room).1 = .ok ()) :
    changes (c.extractAndSendChangeset room).2.session
      (c.extractAndSendChangeset room).2.db.rows = [] := by
  obtain ⟨session, -, -⟩ := detectSchemaChange_session room.schemaSnapshot c
  rw [push_db]
  have pushed := push_cases room c
  generalize c.extractAndSendChangeset room = result at pushed succeeded ⊢
  cases pushed with
  | idle idle =>
    by_contra some
    obtain ⟨flagged, -⟩ := delivers (by simp [outside]) (by simpa using some)
    simp [flagged, outside] at idle
  | unread => cases succeeded
  | nothing _ _ _ empty =>
    dsimp only
    rw [session, empty]
  | sent =>
    cases answer : room.recreation with
    | ok => rfl
    | error e =>
      rw [answer] at succeeded
      cases succeeded

omit [DecidableEq κ] in
theorem tracks_delivered (last n : Nat) (c : SessionState Q ν) (h : c.Tracks rowsAt last n)
    (empty : changes c.session (rowsAt n) = []) : c.Delivered rowsAt n := by
  have carries := changes_carries c.session (rowsAt last) (rowsAt n) h.nodup h.recorded
    (h.elsewhere n h.past (Nat.le_refl _))
  rw [empty] at carries
  refine ⟨last, h.past, h.covers, carries_nil _ _ carries, ?_⟩
  intro t lower upper key changed
  by_contra outside
  exact changed (h.elsewhere t lower upper key outside)

/-- In every run of row writes in which each push can hand over what it finds, a push that succeeds
outside a transaction leaves every change in exactly one of the changesets handed over, and these
are numbered upwards. -/
theorem changes_delivered_once (empty db : Database Q ν) (snapshotInterval : Nat)
    (published : Bool) (ops : List (Operation Q ν)) (onRows : ∀ op ∈ ops, op.OnRows)
    (delivers : Along step Delivers (attach empty db snapshotInterval published) ops) (n : Nat)
    (room : Room) (pushed : ops[n]? = some (.push room)) :
    let moment := stateAt step (attach empty db snapshotInterval published) ops
    (moment n).transaction = none → ((moment n).extractAndSendChangeset room).1 = .ok () →
      (moment (n + 1)).Delivered (fun t => (moment t).db.rows) (n + 1) ∧
        ((moment (n + 1)).changesets.map Prod.fst).Pairwise (· < ·) := by
  intro moment outside succeeded
  have inside : n < ops.length := (List.getElem?_eq_some_iff.mp pushed).1
  obtain ⟨last, tracks⟩ : ∃ last, (moment (n + 1)).Tracks (fun t => (moment t).db.rows) last
      (n + 1) := by
    let I (t : Nat) (c : SessionState Q ν) : Prop :=
      ∃ last, c.Tracks (fun t => (moment t).db.rows) last t
    have start : I 0 (attach empty db snapshotInterval published) := ⟨0, tracks_attach empty db _ _⟩
    refine timed_invariant step (I := I) _ ops ?_ start delivers (n + 1) inside
    rintro t op found ⟨last, tracks⟩ met
    apply tracks_step last t _ op (onRows op (List.mem_of_getElem? found)) tracks rfl ?_ met
    exact congrArg (fun c : SessionState Q ν => c.db.rows) (stateAt_succ step _ ops t op found)
  have met := along_getElem step Delivers _ ops n _ delivers pushed
  have emptied := push_empties _ room met outside succeeded
  have next : moment (n + 1) = ((moment n).extractAndSendChangeset room).2 :=
    stateAt_succ step _ ops n _ pushed
  refine ⟨tracks_delivered last (n + 1) _ tracks ?_, tracks.increasing⟩
  rw [next]
  exact emptied

end SessionState

namespace Sample

/-- The changes of a push meet a full channel. -/
def full : SessionState.Room := { clear with changeset := false }

def start : SessionState sqlite Nat := .attach empty accounts 100 true

def twoPushes : List (SessionState.Operation sqlite Nat) :=
  [.write payer (some [0, 20]), .push clear, .begin, .write payee none, .commit, .push clear]

theorem changes_delivered_once_two :
    (∀ op ∈ twoPushes, op.OnRows) ∧
      Along SessionState.step SessionState.Delivers start twoPushes ∧
      (stateAt SessionState.step start twoPushes 6).Delivered
        (fun t => (stateAt SessionState.step start twoPushes t).db.rows) 6 := by
  have onRows : ∀ op ∈ twoPushes, op.OnRows := by decide
  have delivers : Along SessionState.step SessionState.Delivers start twoPushes := by
    decide
  refine ⟨onRows, delivers, ?_⟩
  have outside : (stateAt SessionState.step start twoPushes 5).transaction = none := rfl
  exact (SessionState.changes_delivered_once empty accounts 100 true twoPushes onRows delivers 5
    clear rfl outside rfl).1

/-- A push that succeeds although the channel is full. -/
def lossy : List (SessionState.Operation sqlite Nat) := [.write payer (some [0, 20]), .push full]

theorem full_channel_loses_changes :
    (stateAt SessionState.step start lossy 1).transaction.isNone = true ∧
      ((stateAt SessionState.step start lossy 1).extractAndSendChangeset full).1.isOk = true ∧
      ¬ (stateAt SessionState.step start lossy 2).Delivered
        (fun t => (stateAt SessionState.step start lossy t).db.rows) 2 := by
  refine ⟨by decide, by decide, ?_⟩
  intro h
  obtain ⟨last, -, covers, same, -⟩ := h
  have handed : (stateAt SessionState.step start lossy 2).changesets.map Prod.snd = [] := by
    decide
  rw [covers_nil _ _ last handed covers] at same
  have changed : (stateAt SessionState.step start lossy 2).db.rows 0 ≠
      (stateAt SessionState.step start lossy 0).db.rows 0 := by
    decide
  exact changed (congrFun same 0)

end Sample

end SyndDB.Client
