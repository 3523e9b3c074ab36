import SyndDB.Framework.Run
import Mathlib.Algebra.Group.Int.Defs
import Mathlib.Algebra.Group.Nat.Defs
import Mathlib.Data.List.Basic

namespace SyndDB.Sequencer

/-- A row of `message_log`. A value that does not decode to text is `none`. -/
structure MessageRow where
  id : Int
  messageType : Option String
  payload : Option String
  status : String
  inRange : -2 ^ 63 ≤ id ∧ id < 2 ^ 63

/-- The values that are read from a row. Negative ids do not decode. -/
def MessageRow.decode (row : MessageRow) : Option (UInt64 × String × String) := do
  if row.id < 0 then none
  let messageType ← row.messageType
  let payload ← row.payload
  return (UInt64.ofNat row.id.toNat, messageType, payload)

inductive OutboundStatus where
  | Pending
  | Queued
  | Submitting
  | Submitted
  | Confirmed
  | Failed
  deriving DecidableEq

structure TrackedOutboundMessage where
  id : UInt64
  messageType : String
  payload : String
  status : OutboundStatus
  txHash : Option String
  confirmations : Option UInt64
  error : Option String
  firstSeenAt : UInt64
  updatedAt : UInt64
  deriving DecidableEq

abbrev OutboundTracker := List TrackedOutboundMessage

def OutboundTracker.getStatus (tracker : OutboundTracker) (id : UInt64) :
    Option TrackedOutboundMessage :=
  tracker.find? fun t => t.id = id

/-- Track a message, unless there is one with its id. -/
def OutboundTracker.trackMessage (id : UInt64) (messageType payload : String) (now : UInt64)
    (tracker : OutboundTracker) : OutboundTracker :=
  if (tracker.getStatus id).isSome then tracker
  else tracker ++ [⟨id, messageType, payload, .Queued, none, none, none, now, now⟩]

structure OutboundMonitorConfig where
  dbPath : String
  batchSize : UInt64
  deriving DecidableEq

structure OutboundMonitor where
  config : OutboundMonitorConfig
  tracker : OutboundTracker
  lastSeenId : UInt64
  deriving DecidableEq

/-- The conversion `as i64`. -/
def asI64 (n : UInt64) : Int := if n.toNat < 2 ^ 63 then n.toNat else n.toNat - 2 ^ 64

/-- Why a poll does not get to the rows. -/
inductive Unavailable where
  | unopened (e : String)
  | noTable
  | unprepared (e : String)
  | unqueried (e : String)

/-- The rows of `SELECT … WHERE status = 'pending' AND id > ? ORDER BY id ASC LIMIT ?`. A
negative limit is none. -/
def selectPending (rows : List MessageRow) (lastSeenId limit : Int) : List MessageRow :=
  let found := (rows.filter fun r => r.status = "pending" && lastSeenId < r.id).mergeSort
    fun r s => r.id ≤ s.id
  if limit < 0 then found else found.take limit.toNat

namespace OutboundMonitor

def new (config : OutboundMonitorConfig) : OutboundMonitor := ⟨config, [], 0⟩

/-- Track the message of a row. -/
def track (now : UInt64) (m : OutboundMonitor) (message : UInt64 × String × String) :
    OutboundMonitor :=
  { m with
    tracker := m.tracker.trackMessage message.1 message.2.1 message.2.2 now
    lastSeenId := max m.lastSeenId message.1 }

/-- Rows that do not decode are dropped. -/
def pollOnce (database : Except Unavailable (List MessageRow)) (now : UInt64)
    (m : OutboundMonitor) :
    Except String Nat × OutboundMonitor :=
  if m.config.dbPath = "" then (.ok 0, m)
  else match database with
    | .error (.unopened e) => (.error s!"Failed to open database: {e}", m)
    | .error .noTable => (.ok 0, m)
    | .error (.unprepared e) => (.error s!"Failed to prepare statement: {e}", m)
    | .error (.unqueried e) => (.error s!"Failed to query messages: {e}", m)
    | .ok rows =>
        let selected := selectPending rows (asI64 m.lastSeenId) (asI64 m.config.batchSize)
        let messages := selected.filterMap MessageRow.decode
        (.ok messages.length, messages.foldl (track now) m)

end OutboundMonitor

/-- The application appends a row, or the monitor polls. -/
inductive OutboundEvent where
  | append (row : MessageRow)
  | poll (unavailable : Option Unavailable) (now : UInt64)

structure OutboundWorld where
  rows : List MessageRow
  monitor : OutboundMonitor

def OutboundWorld.step (w : OutboundWorld) : OutboundEvent → OutboundWorld
  | .append row => { w with rows := w.rows ++ [row] }
  | .poll none now => { w with monitor := (w.monitor.pollOnce (.ok w.rows) now).2 }
  | .poll (some e) now => { w with monitor := (w.monitor.pollOnce (.error e) now).2 }

def OutboundWorld.after (config : OutboundMonitorConfig) (events : List OutboundEvent) :
    OutboundWorld :=
  Run.run OutboundWorld.step ⟨[], OutboundMonitor.new config⟩ events

def OutboundEvent.row? : OutboundEvent → Option MessageRow
  | .append row => some row
  | .poll _ _ => none

/-- The rows that are appended in a history. -/
def appended (events : List OutboundEvent) : List MessageRow := events.filterMap OutboundEvent.row?

/-- The message of a row is tracked with its type and payload. -/
def Tracks (tracker : OutboundTracker) (message : UInt64 × String × String) : Prop :=
  ∃ t, tracker.getStatus message.1 = some t ∧ t.messageType = message.2.1 ∧ t.payload = message.2.2

/-- The messages of all pending rows that decode are tracked. -/
def OutboundWorld.AllTracked (w : OutboundWorld) : Prop :=
  ∀ r ∈ w.rows, r.status = "pending" → ∀ message, r.decode = some message →
    Tracks w.monitor.tracker message

/-- After enough polls all messages are tracked. -/
def EventuallyTracked (config : OutboundMonitorConfig) (events : List OutboundEvent) : Prop :=
  ∃ n, ∀ clock : List UInt64, n ≤ clock.length →
    (OutboundWorld.after config (events ++ clock.map (OutboundEvent.poll none))).AllTracked

/-- No row that decodes has a whole page of rows in front of it that do not, `skipped` such rows
being before the list. -/
def Paged (limit : Int) : Nat → List MessageRow → Prop
  | _, [] => True
  | skipped, row :: rest =>
      if row.decode.isSome then (0 ≤ limit → skipped < limit) ∧ Paged limit 0 rest
      else Paged limit (skipped + 1) rest

instance decidablePaged (limit : Int) :
    (skipped : Nat) → (rows : List MessageRow) → Decidable (Paged limit skipped rows)
  | _, [] => isTrue trivial
  | skipped, row :: rest =>
      have : Decidable (Paged limit 0 rest) := decidablePaged limit 0 rest
      have : Decidable (Paged limit (skipped + 1) rest) := decidablePaged limit (skipped + 1) rest
      inferInstanceAs (Decidable (if row.decode.isSome then
        (0 ≤ limit → skipped < limit) ∧ Paged limit 0 rest else Paged limit (skipped + 1) rest))

/-- The rows that a poll may select. -/
def pendingRows (rows : List MessageRow) : List MessageRow :=
  rows.filter fun r => r.status = "pending" && 0 < r.id

/-- What the monitor needs of the rows. -/
structure WithinPages (config : OutboundMonitorConfig) (rows : List MessageRow) : Prop where
  seen : ∀ r ∈ rows, r.status = "pending" → r.decode.isSome → config.dbPath ≠ "" ∧ 0 < r.id
  paged : Paged (asI64 config.batchSize) 0 (pendingRows rows)

theorem decode_id (row : MessageRow) (message : UInt64 × String × String)
    (h : row.decode = some message) : (message.1.toNat : Int) = row.id := by
  have bounds := row.inRange
  unfold MessageRow.decode at h
  by_cases negative : row.id < 0
  · rw [if_pos negative] at h
    cases h
  · rw [if_neg negative] at h
    obtain ⟨messageType, -, h⟩ := Option.bind_eq_some_iff.mp h
    obtain ⟨payload, -, h⟩ := Option.bind_eq_some_iff.mp h
    cases h
    have small : row.id.toNat < 2 ^ 64 := by omega
    change ((UInt64.ofNat row.id.toNat).toNat : Int) = row.id
    rw [UInt64.toNat_ofNat_of_lt' small]
    omega

theorem getStatus_some (tracker : OutboundTracker) (id : UInt64) (t : TrackedOutboundMessage)
    (h : tracker.getStatus id = some t) : t ∈ tracker ∧ t.id = id :=
  ⟨List.mem_of_find?_eq_some h, by simpa using List.find?_some h⟩

theorem trackMessage_new (tracker : OutboundTracker) (id : UInt64) (messageType payload : String)
    (now : UInt64) (h : tracker.getStatus id = none) :
    tracker.trackMessage id messageType payload now =
      tracker ++ [⟨id, messageType, payload, .Queued, none, none, none, now, now⟩] := by
  rw [OutboundTracker.trackMessage, h]
  rfl

theorem tracks_new (tracker : OutboundTracker) (message : UInt64 × String × String) (now : UInt64)
    (h : tracker.getStatus message.1 = none) :
    Tracks (tracker.trackMessage message.1 message.2.1 message.2.2 now) message := by
  refine ⟨⟨message.1, message.2.1, message.2.2, .Queued, none, none, none, now, now⟩, ?_, rfl, rfl⟩
  rw [trackMessage_new _ _ _ _ _ h, OutboundTracker.getStatus, List.find?_append]
  rw [OutboundTracker.getStatus] at h
  rw [h]
  simp

theorem tracks_append (tracker more : OutboundTracker) (message : UInt64 × String × String)
    (h : Tracks tracker message) : Tracks (tracker ++ more) message := by
  obtain ⟨t, found, same⟩ := h
  refine ⟨t, ?_, same⟩
  rw [OutboundTracker.getStatus] at found ⊢
  rw [List.find?_append, found]
  rfl

/-- The ids in the tracker are those of messages that were seen. -/
def OutboundMonitor.Bounded (m : OutboundMonitor) : Prop :=
  ∀ t ∈ m.tracker, 0 < t.id ∧ t.id ≤ m.lastSeenId

theorem getStatus_above (m : OutboundMonitor) (bounded : m.Bounded) (id : UInt64)
    (h : m.lastSeenId < id) : m.tracker.getStatus id = none := by
  rw [OutboundTracker.getStatus, List.find?_eq_none]
  intro t ht same
  rw [decide_eq_true_iff] at same
  have seen := (bounded t ht).2
  rw [same] at seen
  exact UInt64.not_lt.mpr seen h

/-- What tracking the messages of a page does. -/
structure Polled (page : List MessageRow) (m m' : OutboundMonitor) : Prop where
  config : m'.config = m.config
  bounded : m'.Bounded
  forward : m.lastSeenId ≤ m'.lastSeenId
  seen : m'.lastSeenId = m.lastSeenId ∨
    ∃ r ∈ page, r.decode.isSome ∧ r.id = (m'.lastSeenId.toNat : Int)
  kept : ∀ message, Tracks m.tracker message → Tracks m'.tracker message
  tracked : ∀ r ∈ page, ∀ message, r.decode = some message →
    Tracks m'.tracker message ∧ r.id ≤ (m'.lastSeenId.toNat : Int)

theorem polled_refl (m : OutboundMonitor) (bounded : m.Bounded) : Polled [] m m where
  config := rfl
  bounded := bounded
  forward := UInt64.le_refl _
  seen := Or.inl rfl
  kept := fun _ tracks => tracks
  tracked := by
    intro r hr
    cases hr

/-- One message with an id beyond the last one. -/
theorem polled_track (now : UInt64) (r : MessageRow) (message : UInt64 × String × String)
    (decoded : r.decode = some message) (m : OutboundMonitor) (bounded : m.Bounded)
    (above : (m.lastSeenId.toNat : Int) < r.id) : Polled [r] m (m.track now message) := by
  have id := decode_id r message decoded
  have less : m.lastSeenId < message.1 := by
    rw [UInt64.lt_iff_toNat_lt]
    omega
  have absent := getStatus_above m bounded message.1 less
  have last : (m.track now message).lastSeenId = message.1 := if_pos (UInt64.le_of_lt less)
  have tracker : (m.track now message).tracker = m.tracker ++
      [⟨message.1, message.2.1, message.2.2, .Queued, none, none, none, now, now⟩] :=
    trackMessage_new _ _ _ _ _ absent
  constructor
  · rfl
  · intro t ht
    rw [tracker] at ht
    rw [last]
    rcases List.mem_append.mp ht with ht | ht
    · obtain ⟨positive, seen⟩ := bounded t ht
      exact ⟨positive, UInt64.le_of_lt (UInt64.lt_of_le_of_lt seen less)⟩
    · rw [List.mem_singleton.mp ht]
      refine ⟨?_, UInt64.le_refl _⟩
      exact UInt64.lt_of_le_of_lt UInt64.zero_le less
  · rw [last]
    exact UInt64.le_of_lt less
  · refine Or.inr ⟨r, List.mem_singleton_self r, by rw [decoded]; rfl, ?_⟩
    rw [last, id]
  · intro other tracks
    rw [tracker]
    exact tracks_append _ _ other tracks
  · intro r' hr' message' decoded'
    rw [List.mem_singleton.mp hr'] at decoded' ⊢
    rw [decoded] at decoded'
    cases decoded'
    refine ⟨tracks_new m.tracker message now absent, Int.le_of_eq ?_⟩
    rw [last, id]

theorem Polled.trans {front back : List MessageRow} {m m' m'' : OutboundMonitor}
    (first : Polled front m m') (second : Polled back m' m'') : Polled (front ++ back) m m'' where
  config := second.config.trans first.config
  bounded := second.bounded
  forward := UInt64.le_trans first.forward second.forward
  seen := by
    rcases second.seen with same | ⟨r, hr, decodes, id⟩
    · rw [same]
      rcases first.seen with same | ⟨r, hr, decodes, id⟩
      · exact Or.inl same
      · exact Or.inr ⟨r, List.mem_append_left _ hr, decodes, id⟩
    · exact Or.inr ⟨r, List.mem_append_right _ hr, decodes, id⟩
  kept := fun message tracks => second.kept message (first.kept message tracks)
  tracked := by
    intro r hr message decoded
    rcases List.mem_append.mp hr with hr | hr
    · obtain ⟨tracks, seen⟩ := first.tracked r hr message decoded
      have forward := UInt64.le_iff_toNat_le.mp second.forward
      exact ⟨second.kept message tracks, by omega⟩
    · exact second.tracked r hr message decoded

/-- A page of rows beyond the last one, by their ids. -/
theorem polled_page (now : UInt64) (page : List MessageRow) (m : OutboundMonitor)
    (bounded : m.Bounded) (increasing : page.Pairwise (·.id < ·.id))
    (above : ∀ r ∈ page, (m.lastSeenId.toNat : Int) < r.id) :
    Polled page m ((page.filterMap MessageRow.decode).foldl (OutboundMonitor.track now) m) := by
  induction page generalizing m with
  | nil => exact polled_refl m bounded
  | cons r rest ih =>
    obtain ⟨first, increasing⟩ := List.pairwise_cons.mp increasing
    have here := above r List.mem_cons_self
    cases decoded : r.decode with
    | none =>
      rw [List.filterMap_cons_none decoded]
      have tail := ih m bounded increasing fun r' hr' => above r' (List.mem_cons_of_mem r hr')
      have skipped : Polled [r] m m :=
        { polled_refl m bounded with
          seen := Or.inl rfl
          tracked := by
            intro r' hr' message decoded'
            rw [List.mem_singleton.mp hr', decoded] at decoded'
            cases decoded' }
      exact skipped.trans tail
    | some message =>
      have step := polled_track now r message decoded m bounded here
      rw [List.filterMap_cons_some decoded]
      refine step.trans (ih (m.track now message) step.bounded increasing ?_)
      intro r' hr'
      have after := first r' hr'
      have seen := step.seen
      rcases seen with same | ⟨x, hx, -, id⟩
      · rw [same]
        omega
      · rw [List.mem_singleton.mp hx] at id
        omega

/-- The pending rows behind the last one that was seen. -/
def unseen (rows : List MessageRow) (lastSeenId : UInt64) : List MessageRow :=
  (pendingRows rows).filter fun r => (lastSeenId.toNat : Int) < r.id

/-- The rows of a page. -/
def cut (limit : Int) (rows : List MessageRow) : List MessageRow :=
  if limit < 0 then rows else rows.take limit.toNat

theorem prefix_cut (limit : Int) (rows : List MessageRow) : cut limit rows <+: rows := by
  unfold cut
  split
  · exact List.prefix_refl rows
  · exact List.take_prefix _ _

theorem increasing_pending (rows : List MessageRow) (h : rows.Pairwise (·.id < ·.id)) :
    (pendingRows rows).Pairwise (·.id < ·.id) := h.filter _

theorem selectPending_eq (rows : List MessageRow) (h : rows.Pairwise (·.id < ·.id))
    (lastSeenId : UInt64) (small : lastSeenId.toNat < 2 ^ 63) (limit : Int) :
    selectPending rows (asI64 lastSeenId) limit = cut limit (unseen rows lastSeenId) := by
  have place : asI64 lastSeenId = (lastSeenId.toNat : Int) := if_pos small
  have same : (rows.filter fun r => r.status = "pending" && asI64 lastSeenId < r.id) =
      unseen rows lastSeenId := by
    rw [unseen, pendingRows, List.filter_filter, place]
    apply List.filter_congr
    intro r _
    by_cases beyond : (lastSeenId.toNat : Int) < r.id
    · have positive : 0 < r.id := by omega
      simp [beyond, positive]
    · simp [beyond]
  have sorted : (unseen rows lastSeenId).Pairwise fun r s => decide (r.id ≤ s.id) = true := by
    apply ((increasing_pending rows h).filter _).imp
    intro r s less
    exact decide_eq_true (Int.le_of_lt less)
  unfold selectPending cut
  rw [same, List.mergeSort_of_pairwise sorted]

/-- What is known of a world in every history. -/
structure OutboundWorld.Sound (w : OutboundWorld) : Prop where
  increasing : w.rows.Pairwise (·.id < ·.id)
  bounded : w.monitor.Bounded
  small : w.monitor.lastSeenId.toNat < 2 ^ 63
  seen : w.monitor.lastSeenId = 0 ∨
    ∃ r ∈ pendingRows w.rows, r.decode.isSome ∧ r.id = (w.monitor.lastSeenId.toNat : Int)
  tracked : ∀ r ∈ pendingRows w.rows, ∀ message, r.decode = some message →
    r.id ≤ (w.monitor.lastSeenId.toNat : Int) → Tracks w.monitor.tracker message

/-- The page of a poll. -/
def OutboundWorld.page (w : OutboundWorld) : List MessageRow :=
  cut (asI64 w.monitor.config.batchSize) (unseen w.rows w.monitor.lastSeenId)

theorem polled_poll (w : OutboundWorld) (sound : w.Sound) (path : w.monitor.config.dbPath ≠ "")
    (now : UInt64) : Polled w.page w.monitor (w.step (.poll none now)).monitor := by
  have same : (w.step (.poll none now)).monitor =
      (w.page.filterMap MessageRow.decode).foldl (OutboundMonitor.track now) w.monitor := by
    change (w.monitor.pollOnce (.ok w.rows) now).2 = _
    rw [OutboundMonitor.pollOnce, if_neg path]
    dsimp only
    rw [selectPending_eq w.rows sound.increasing _ sound.small]
    rfl
  have increasing : (unseen w.rows w.monitor.lastSeenId).Pairwise (·.id < ·.id) :=
    (increasing_pending w.rows sound.increasing).filter _
  rw [same]
  apply polled_page now w.page w.monitor sound.bounded
  · exact increasing.sublist (prefix_cut _ _).sublist
  · intro r hr
    exact of_decide_eq_true (List.mem_filter.mp ((prefix_cut _ _).subset hr)).2

theorem step_failed (w : OutboundWorld) (e : Unavailable) (now : UInt64) :
    w.step (.poll (some e) now) = w := by
  change { w with monitor := (w.monitor.pollOnce (.error e) now).2 } = w
  unfold OutboundMonitor.pollOnce
  split
  · rfl
  · cases e <;> rfl

theorem step_noPath (w : OutboundWorld) (path : w.monitor.config.dbPath = "") (now : UInt64) :
    w.step (.poll none now) = w := by
  change { w with monitor := (w.monitor.pollOnce (.ok w.rows) now).2 } = w
  rw [OutboundMonitor.pollOnce, if_pos path]

theorem mem_pending_of_page (w : OutboundWorld) (r : MessageRow) (h : r ∈ w.page) :
    r ∈ pendingRows w.rows := List.mem_of_mem_filter ((prefix_cut _ _).subset h)

/-- In a list by ids a prefix has all up to its members. -/
theorem mem_prefix (front rows : List MessageRow) (increasing : rows.Pairwise (·.id < ·.id))
    (h : front <+: rows) (r x : MessageRow) (hr : r ∈ rows) (hx : x ∈ front) (order : r.id ≤ x.id) :
    r ∈ front := by
  obtain ⟨back, rfl⟩ := h
  rcases List.mem_append.mp hr with hr | hr
  · exact hr
  · have less := (List.pairwise_append.mp increasing).2.2 x hx r hr
    omega

theorem sound_poll (w : OutboundWorld) (sound : w.Sound) (now : UInt64) :
    (w.step (.poll none now)).Sound := by
  by_cases path : w.monitor.config.dbPath = ""
  · rw [step_noPath w path]
    exact sound
  · have polled := polled_poll w sound path now
    have rows : (w.step (.poll none now)).rows = w.rows := rfl
    constructor
    · exact sound.increasing
    · exact polled.bounded
    · rcases polled.seen with same | ⟨r, -, -, id⟩
      · rw [same]
        exact sound.small
      · have bound := r.inRange.2
        omega
    · rcases polled.seen with same | ⟨r, hr, decodes, id⟩
      · rw [same, rows]
        exact sound.seen
      · exact Or.inr ⟨r, mem_pending_of_page w r hr, decodes, id⟩
    · intro r hr message decoded seen
      rw [rows] at hr
      by_cases old : r.id ≤ (w.monitor.lastSeenId.toNat : Int)
      · exact polled.kept message (sound.tracked r hr message decoded old)
      · rcases polled.seen with same | ⟨x, hx, -, id⟩
        · rw [same] at seen
          exact absurd seen old
        · have inside : r ∈ unseen w.rows w.monitor.lastSeenId :=
            List.mem_filter.mpr ⟨hr, decide_eq_true (Int.not_le.mp old)⟩
          have increasing : (unseen w.rows w.monitor.lastSeenId).Pairwise (·.id < ·.id) :=
            (increasing_pending w.rows sound.increasing).filter _
          have page := mem_prefix _ _ increasing (prefix_cut _ _) r x inside hx (by omega)
          exact (polled.tracked r page message decoded).1

theorem pendingRows_append (rows more : List MessageRow) :
    pendingRows (rows ++ more) = pendingRows rows ++ pendingRows more :=
      List.filter_append rows more

theorem sound_append (w : OutboundWorld) (sound : w.Sound) (row : MessageRow)
    (later : ∀ r ∈ w.rows, r.id < row.id) : (w.step (.append row)).Sound := by
  have rows : (w.step (.append row)).rows = w.rows ++ [row] := rfl
  have monitor : (w.step (.append row)).monitor = w.monitor := rfl
  constructor
  · rw [rows, List.pairwise_append]
    refine ⟨sound.increasing, List.pairwise_singleton _ _, ?_⟩
    intro r hr x hx
    rw [List.mem_singleton.mp hx]
    exact later r hr
  · exact sound.bounded
  · exact sound.small
  · rw [rows, monitor, pendingRows_append]
    rcases sound.seen with zero | ⟨r, hr, decodes, id⟩
    · exact Or.inl zero
    · exact Or.inr ⟨r, List.mem_append_left _ hr, decodes, id⟩
  · intro r hr message decoded seen
    rw [rows, pendingRows_append] at hr
    rw [monitor] at seen
    rcases List.mem_append.mp hr with hr | hr
    · exact sound.tracked r hr message decoded seen
    · obtain ⟨hr, pending⟩ := List.mem_filter.mp hr
      rw [List.mem_singleton.mp hr] at seen pending
      have positive : 0 < row.id := by
        simpa using (Bool.and_eq_true_iff.mp pending).2
      rcases sound.seen with zero | ⟨x, hx, -, id⟩
      · rw [zero] at seen
        change row.id ≤ 0 at seen
        omega
      · have less := later x (List.mem_of_mem_filter hx)
        omega

theorem appended_append (events more : List OutboundEvent) :
    appended (events ++ more) = appended events ++ appended more := List.filterMap_append

theorem step_rows (w : OutboundWorld) (e : OutboundEvent) (es : List OutboundEvent) :
    (w.step e).rows ++ appended es = w.rows ++ appended (e :: es) := by
  cases e with
  | append row => exact List.append_assoc _ _ _
  | poll unavailable now =>
    cases unavailable with
    | none => rfl
    | some e => rfl

theorem run_rows (w : OutboundWorld) (es : List OutboundEvent) :
    (Run.run OutboundWorld.step w es).rows = w.rows ++ appended es := by
  induction es generalizing w with
  | nil => exact (List.append_nil _).symm
  | cons e es ih => rw [Run.run, ih, step_rows]

theorem step_config (w : OutboundWorld) (e : OutboundEvent) :
    (w.step e).monitor.config = w.monitor.config := by
  have folded (now : UInt64) (messages : List (UInt64 × String × String)) (m : OutboundMonitor) :
      (messages.foldl (OutboundMonitor.track now) m).config = m.config := by
    induction messages generalizing m with
    | nil => rfl
    | cons message rest ih => exact ih (m.track now message)
  cases e with
  | append row => rfl
  | poll unavailable now =>
    cases unavailable with
    | none =>
      by_cases path : w.monitor.config.dbPath = ""
      · rw [step_noPath w path]
      · change (w.monitor.pollOnce (.ok w.rows) now).2.config = _
        rw [OutboundMonitor.pollOnce, if_neg path]
        exact folded now _ w.monitor
    | some e => rw [step_failed]

theorem run_config (w : OutboundWorld) (es : List OutboundEvent) :
    (Run.run OutboundWorld.step w es).monitor.config = w.monitor.config := by
  induction es generalizing w with
  | nil => rfl
  | cons e es ih => rw [Run.run, ih, step_config]

theorem sound_step (w : OutboundWorld) (e : OutboundEvent) (es : List OutboundEvent)
    (sound : w.Sound)
    (increasing : (w.rows ++ appended (e :: es)).Pairwise (·.id < ·.id)) : (w.step e).Sound := by
  cases e with
  | append row =>
    apply sound_append w sound row
    intro r hr
    exact (List.pairwise_append.mp increasing).2.2 r hr row List.mem_cons_self
  | poll unavailable now =>
    cases unavailable with
    | none => exact sound_poll w sound now
    | some e =>
      rw [step_failed]
      exact sound

theorem sound_run (w : OutboundWorld) (es : List OutboundEvent) (sound : w.Sound)
    (increasing : (w.rows ++ appended es).Pairwise (·.id < ·.id)) :
    (Run.run OutboundWorld.step w es).Sound := by
  induction es generalizing w with
  | nil => exact sound
  | cons e es ih => exact ih (w.step e) (sound_step w e es sound increasing) (by rwa [step_rows])

theorem paged_after (limit : Int) (skipped : Nat) (front back : List MessageRow) (r : MessageRow)
    (h : Paged limit skipped (front ++ r :: back)) (decodes : r.decode.isSome) :
    Paged limit 0 back := by
  induction front generalizing skipped with
  | nil =>
    rw [List.nil_append, Paged, if_pos decodes] at h
    exact h.2
  | cons x front ih =>
    rw [List.cons_append, Paged] at h
    split at h
    · exact ih 0 h.2
    · exact ih (skipped + 1) h

/-- The rows that are not seen start behind one that decodes. -/
theorem unseen_split (w : OutboundWorld) (sound : w.Sound) :
    unseen w.rows w.monitor.lastSeenId = pendingRows w.rows ∨
      ∃ front r, pendingRows w.rows = front ++ r :: unseen w.rows w.monitor.lastSeenId ∧
        r.decode.isSome ∧ r.id = (w.monitor.lastSeenId.toNat : Int) := by
  rcases sound.seen with zero | ⟨r, hr, decodes, id⟩
  · refine Or.inl (List.filter_eq_self.mpr ?_)
    intro r hr
    have positive := (Bool.and_eq_true_iff.mp (List.mem_filter.mp hr).2).2
    rw [zero]
    exact positive
  · obtain ⟨front, back, split⟩ := List.append_of_mem hr
    have increasing := increasing_pending w.rows sound.increasing
    rw [split] at increasing
    obtain ⟨-, tail, before⟩ := List.pairwise_append.mp increasing
    refine Or.inr ⟨front, r, ?_, decodes, id⟩
    have front_seen : front.filter (fun r => (w.monitor.lastSeenId.toNat : Int) < r.id) = [] := by
      rw [List.filter_eq_nil_iff]
      intro x hx beyond
      have less := before x hx r List.mem_cons_self
      have beyond := of_decide_eq_true beyond
      omega
    have back_unseen : back.filter (fun r => (w.monitor.lastSeenId.toNat : Int) < r.id) = back := by
      rw [List.filter_eq_self]
      intro x hx
      have less := (List.pairwise_cons.mp tail).1 x hx
      exact decide_eq_true (by omega)
    have here : ¬decide ((w.monitor.lastSeenId.toNat : Int) < r.id) = true := by
      rw [decide_eq_true_iff]
      omega
    rw [unseen, split, List.filter_append, front_seen, List.nil_append, List.filter_cons,
      if_neg here, back_unseen]

/-- A page has a row that decodes, if any is left. -/
theorem paged_take (limit : Int) (bounded : 0 ≤ limit) (skipped : Nat) (rows : List MessageRow)
    (paged : Paged limit skipped rows) (h : ∃ x ∈ rows, x.decode.isSome) :
    ∃ x ∈ rows.take (limit.toNat - skipped), x.decode.isSome := by
  induction rows generalizing skipped with
  | nil =>
    obtain ⟨x, hx, -⟩ := h
    cases hx
  | cons row rest ih =>
    rw [Paged] at paged
    by_cases decodes : row.decode.isSome
    · rw [if_pos decodes] at paged
      have room := paged.1 bounded
      obtain ⟨n, hn⟩ : ∃ n, limit.toNat - skipped = n + 1 := ⟨limit.toNat - skipped - 1, by omega⟩
      rw [hn, List.take_succ_cons]
      exact ⟨row, List.mem_cons_self, decodes⟩
    · rw [if_neg decodes] at paged
      obtain ⟨x, hx, decodes'⟩ := h
      have inside : x ∈ rest := by
        rcases List.mem_cons.mp hx with rfl | hx
        · exact absurd decodes' decodes
        · exact hx
      obtain ⟨y, hy, decodes''⟩ := ih (skipped + 1) paged ⟨x, inside, decodes'⟩
      refine ⟨y, ?_, decodes''⟩
      cases hn : limit.toNat - skipped with
      | zero =>
        have none : limit.toNat - (skipped + 1) = 0 := by omega
        rw [none] at hy
        cases hy
      | succ n =>
        have less : limit.toNat - (skipped + 1) = n := by omega
        rw [less] at hy
        exact List.mem_cons_of_mem row hy

theorem paged_cut (limit : Int) (rows : List MessageRow) (paged : Paged limit 0 rows)
    (h : ∃ x ∈ rows, x.decode.isSome) : ∃ x ∈ cut limit rows, x.decode.isSome := by
  unfold cut
  split
  · exact h
  · rename_i bounded
    exact paged_take limit (Int.not_lt.mp bounded) 0 rows paged h

theorem paged_unseen (w : OutboundWorld) (sound : w.Sound) (limit : Int)
    (paged : Paged limit 0 (pendingRows w.rows)) :
    Paged limit 0 (unseen w.rows w.monitor.lastSeenId) := by
  rcases unseen_split w sound with same | ⟨front, r, split, decodes, -⟩
  · rw [same]
    exact paged
  · rw [split] at paged
    exact paged_after limit 0 front _ r paged decodes

theorem unseen_mono (rows : List MessageRow) (a b : UInt64) (h : a ≤ b) (x : MessageRow)
    (hx : x ∈ unseen rows b) : x ∈ unseen rows a := by
  obtain ⟨inside, beyond⟩ := List.mem_filter.mp hx
  have order := UInt64.le_iff_toNat_le.mp h
  have beyond := of_decide_eq_true beyond
  exact List.mem_filter.mpr ⟨inside, decide_eq_true (by omega)⟩

/-- What is left after a poll is less, if a row that decodes was left. -/
theorem unseen_poll (w : OutboundWorld) (sound : w.Sound) (path : w.monitor.config.dbPath ≠ "")
    (paged : Paged (asI64 w.monitor.config.batchSize) 0 (pendingRows w.rows)) (now : UInt64)
    (h : ∃ x ∈ unseen w.rows w.monitor.lastSeenId, x.decode.isSome) :
    (unseen w.rows (w.step (.poll none now)).monitor.lastSeenId).length <
      (unseen w.rows w.monitor.lastSeenId).length := by
  have polled := polled_poll w sound path now
  obtain ⟨x, hx, decodes⟩ := paged_cut _ _ (paged_unseen w sound _ paged) h
  obtain ⟨message, decoded⟩ := Option.isSome_iff_exists.mp decodes
  have seen := (polled.tracked x hx message decoded).2
  have sublist : (unseen w.rows (w.step (.poll none now)).monitor.lastSeenId).Sublist
      (unseen w.rows w.monitor.lastSeenId) := by
    apply List.monotone_filter_right
    intro r beyond
    have order := UInt64.le_iff_toNat_le.mp polled.forward
    have beyond := of_decide_eq_true beyond
    exact decide_eq_true (by omega)
  apply Nat.lt_of_le_of_ne sublist.length_le
  intro same
  have equal := sublist.eq_of_length same
  have inside := (prefix_cut _ _).subset hx
  rw [← equal] at inside
  have beyond := of_decide_eq_true (List.mem_filter.mp inside).2
  omega

/-- No row that decodes is left. -/
def OutboundWorld.Done (w : OutboundWorld) : Prop :=
  ∀ x ∈ unseen w.rows w.monitor.lastSeenId, ¬x.decode.isSome

theorem done_poll (w : OutboundWorld) (sound : w.Sound) (path : w.monitor.config.dbPath ≠ "")
    (now : UInt64) (done : w.Done) : (w.step (.poll none now)).Done := by
  intro x hx
  exact done x (unseen_mono w.rows _ _ (polled_poll w sound path now).forward x hx)

/-- As many polls as rows are left are enough. -/
theorem done_polls (w : OutboundWorld) (sound : w.Sound) (path : w.monitor.config.dbPath ≠ "")
    (paged : Paged (asI64 w.monitor.config.batchSize) 0 (pendingRows w.rows)) (clock : List UInt64)
    (h : w.Done ∨ (unseen w.rows w.monitor.lastSeenId).length ≤ clock.length) :
    (Run.run OutboundWorld.step w (clock.map (OutboundEvent.poll none))).Done := by
  induction clock generalizing w with
  | nil =>
    rcases h with done | few
    · exact done
    · intro x hx
      change x ∈ unseen w.rows w.monitor.lastSeenId at hx
      rw [List.length_eq_zero_iff.mp (Nat.le_zero.mp few)] at hx
      cases hx
  | cons now clock ih =>
    have config := step_config w (.poll none now)
    rw [List.map_cons, Run.run]
    apply ih (w.step (.poll none now)) (sound_poll w sound now)
    · rw [config]
      exact path
    · rw [config]
      exact paged
    · by_cases done : w.Done
      · exact Or.inl (done_poll w sound path now done)
      · have left : ∃ x ∈ unseen w.rows w.monitor.lastSeenId, x.decode.isSome := by
          by_contra none
          exact done fun x hx decodes => none ⟨x, hx, decodes⟩
        have less := unseen_poll w sound path paged now left
        rcases h with done' | few
        · exact absurd done' done
        · refine Or.inr ?_
          rw [List.length_cons] at few
          exact Nat.le_of_lt_succ (Nat.lt_of_lt_of_le less few)

theorem allTracked_of_done (w : OutboundWorld) (sound : w.Sound) (done : w.Done)
    (positive : ∀ r ∈ w.rows, r.status = "pending" → r.decode.isSome → 0 < r.id) :
      w.AllTracked := by
  intro r hr pending message decoded
  have decodes : r.decode.isSome := by
    rw [decoded]
    rfl
  have above := positive r hr pending decodes
  have inside : r ∈ pendingRows w.rows :=
    List.mem_filter.mpr ⟨hr, by simp [pending, above]⟩
  apply sound.tracked r inside message decoded
  by_contra beyond
  exact done r (List.mem_filter.mpr ⟨inside, decide_eq_true (Int.not_le.mp beyond)⟩) decodes

/-- Where the condition fails, a whole page of rows that do not decode lies in front
of one that does. -/
theorem blocked_of_not_paged (limit : Int) (skipped : Nat) (rows : List MessageRow)
    (h : ¬Paged limit skipped rows) :
    0 ≤ limit ∧ ∃ front trail r back, rows = front ++ (trail ++ r :: back) ∧ r.decode.isSome ∧
      (∀ x ∈ trail, ¬x.decode.isSome) ∧
      (limit ≤ trail.length ∨ front = [] ∧ limit ≤ trail.length + skipped) := by
  induction rows generalizing skipped with
  | nil => exact absurd trivial h
  | cons row rest ih =>
    rw [Paged] at h
    by_cases decodes : row.decode.isSome
    · rw [if_pos decodes] at h
      by_cases room : 0 ≤ limit → (skipped : Int) < limit
      · have later : ¬Paged limit 0 rest := fun paged => h ⟨room, paged⟩
        obtain ⟨bounded, front, trail, r, back, rfl, decodes', none, full⟩ := ih 0 later
        refine ⟨bounded, row :: front, trail, r, back, rfl, decodes', none, Or.inl ?_⟩
        rcases full with full | ⟨-, full⟩
        · exact full
        · simpa using full
      · obtain ⟨bounded, full⟩ := Classical.not_imp.mp room
        refine ⟨bounded, [], [], row, rest, rfl, decodes, ?_, Or.inr ⟨rfl, ?_⟩⟩
        · intro x hx
          cases hx
        · simpa using full
    · rw [if_neg decodes] at h
      obtain ⟨bounded, front, trail, r, back, rfl, decodes', none, full⟩ := ih (skipped + 1) h
      rcases full with full | ⟨rfl, full⟩
      · exact ⟨bounded, row :: front, trail, r, back, rfl, decodes', none, Or.inl full⟩
      · refine ⟨bounded, [], row :: trail, r, back, rfl, decodes', ?_, Or.inr ⟨rfl, ?_⟩⟩
        · intro x hx
          rcases List.mem_cons.mp hx with rfl | hx
          · exact decodes
          · exact none x hx
        · rw [List.length_cons]
          omega

/-- A row that decodes behind a page of rows that do not. -/
structure Blocks (limit : Int) (rows : List MessageRow) (r : MessageRow) : Prop where
  bounded : 0 ≤ limit
  decodes : r.decode.isSome
  split : ∃ front trail back, pendingRows rows = front ++ (trail ++ r :: back) ∧
    (∀ x ∈ trail, ¬x.decode.isSome) ∧ limit ≤ trail.length

theorem Blocks.mem {limit : Int} {rows : List MessageRow} {r : MessageRow}
    (h : Blocks limit rows r) :
    r ∈ pendingRows rows := by
  obtain ⟨front, trail, back, split, -, -⟩ := h.split
  rw [split]
  exact List.mem_append_right _ (List.mem_append_right _ List.mem_cons_self)

/-- The monitor does not get past the page. -/
theorem behind_poll (w : OutboundWorld) (sound : w.Sound) (path : w.monitor.config.dbPath ≠ "")
    (rows : List MessageRow) (increasing : rows.Pairwise (·.id < ·.id))
    (front_rows : w.rows <+: rows)
    (r : MessageRow) (blocks : Blocks (asI64 w.monitor.config.batchSize) rows r)
    (behind : (w.monitor.lastSeenId.toNat : Int) < r.id) (now : UInt64) :
    ((w.step (.poll none now)).monitor.lastSeenId.toNat : Int) < r.id := by
  have inside := blocks.mem
  obtain ⟨front, trail, back, split, none, full⟩ := blocks.split
  have ordered := increasing_pending rows increasing
  have pending_prefix : pendingRows w.rows <+: pendingRows rows := front_rows.filter _
  rcases (polled_poll w sound path now).seen with same | ⟨x, hx, decodes, id⟩
  · rw [same]
    exact behind
  rw [← id]
  by_contra beyond
  have reached := mem_prefix _ _ ordered pending_prefix r x inside (mem_pending_of_page w x hx)
    (Int.not_lt.mp beyond)
  rw [split] at ordered pending_prefix
  obtain ⟨-, ordered', front_lt⟩ := List.pairwise_append.mp ordered
  obtain ⟨-, tail, trail_lt⟩ := List.pairwise_append.mp ordered'
  have before : ∀ y ∈ front ++ trail, y.id < r.id := by
    intro y hy
    rcases List.mem_append.mp hy with hy | hy
    · exact front_lt y hy r (List.mem_append_right _ List.mem_cons_self)
    · exact trail_lt y hy r List.mem_cons_self
  have early : front ++ trail <+: pendingRows rows := by
    rw [split, ← List.append_assoc]
    exact List.prefix_append _ _
  rw [← split] at pending_prefix
  rcases List.prefix_or_prefix_of_prefix pending_prefix early with short | ⟨rest, whole⟩
  · exact absurd (before r (short.subset reached)) (Int.lt_irrefl _)
  · -- The rows of the trail are all unseen, so that the page ends with them.
    have trail_unseen :
        trail.filter (fun y => (w.monitor.lastSeenId.toNat : Int) < y.id) = trail := by
      rw [List.filter_eq_self]
      intro y hy
      apply decide_eq_true
      have member : y ∈ pendingRows w.rows := by
        rw [← whole]
        exact List.mem_append_left _ (List.mem_append_right _ hy)
      rcases sound.seen with zero | ⟨z, hz, decodes', id'⟩
      · rw [zero]
        exact of_decide_eq_true (Bool.and_eq_true_iff.mp (List.mem_filter.mp member).2).2
      · have hz' := pending_prefix.subset hz
        rw [split] at hz'
        rcases List.mem_append.mp hz' with hz' | hz'
        · have less := front_lt z hz' y (List.mem_append_left _ hy)
          omega
        · rcases List.mem_append.mp hz' with hz' | hz'
          · exact absurd decodes' (none z hz')
          · rcases List.mem_cons.mp hz' with rfl | hz'
            · omega
            · have less := (List.pairwise_cons.mp tail).1 z hz'
              omega
    have left : unseen w.rows w.monitor.lastSeenId =
        (front.filter (fun y => (w.monitor.lastSeenId.toNat : Int) < y.id) ++ trail) ++
          rest.filter fun y => (w.monitor.lastSeenId.toNat : Int) < y.id := by
      rw [unseen, ← whole, List.filter_append, List.filter_append, trail_unseen]
    have bounded := blocks.bounded
    have page : x ∈ front.filter (fun y => (w.monitor.lastSeenId.toNat : Int) < y.id) ++ trail := by
      rw [OutboundWorld.page, cut, if_neg (Int.not_lt.mpr bounded), left,
        List.take_append_of_le_length] at hx
      · exact List.mem_of_mem_take hx
      · rw [List.length_append]
        omega
    apply beyond
    apply before x
    rcases List.mem_append.mp page with hx | hx
    · exact List.mem_append_left _ (List.mem_of_mem_filter hx)
    · exact List.mem_append_right _ hx

theorem behind_run (w : OutboundWorld) (es : List OutboundEvent) (sound : w.Sound)
    (increasing : (w.rows ++ appended es).Pairwise (·.id < ·.id)) (r : MessageRow)
    (blocks : Blocks (asI64 w.monitor.config.batchSize) (w.rows ++ appended es) r)
    (behind : (w.monitor.lastSeenId.toNat : Int) < r.id) :
    ((Run.run OutboundWorld.step w es).monitor.lastSeenId.toNat : Int) < r.id := by
  induction es generalizing w with
  | nil => exact behind
  | cons e es ih =>
    have front_rows : w.rows <+: w.rows ++ appended (e :: es) := List.prefix_append _ _
    apply ih (w.step e) (sound_step w e es sound increasing)
    · rwa [step_rows]
    · rwa [step_rows, step_config]
    · cases e with
      | append row => exact behind
      | poll unavailable now =>
        cases unavailable with
        | none =>
          by_cases path : w.monitor.config.dbPath = ""
          · rw [step_noPath w path]
            exact behind
          · exact behind_poll w sound path _ increasing front_rows r blocks behind now
        | some e =>
          rw [step_failed]
          exact behind

theorem sound_new (config : OutboundMonitorConfig) :
    (OutboundWorld.mk [] (OutboundMonitor.new config)).Sound where
  increasing := List.Pairwise.nil
  bounded := by
    intro t ht
    cases ht
  small := by
    change 0 < 2 ^ 63
    decide
  seen := Or.inl rfl
  tracked := by
    intro r hr
    cases hr

theorem appended_polls (clock : List UInt64) :
    appended (clock.map (OutboundEvent.poll none)) = [] := by
  rw [appended, List.filterMap_map]
  exact List.filterMap_eq_nil_iff.mpr fun _ _ => rfl

theorem appended_more (events : List OutboundEvent) (clock : List UInt64) :
    appended (events ++ clock.map (OutboundEvent.poll none)) = appended events := by
  rw [appended_append, appended_polls, List.append_nil]

theorem after_rows (config : OutboundMonitorConfig) (events : List OutboundEvent) :
    (OutboundWorld.after config events).rows = appended events :=
  run_rows ⟨[], OutboundMonitor.new config⟩ events

theorem after_append (config : OutboundMonitorConfig) (events more : List OutboundEvent) :
    OutboundWorld.after config (events ++ more) =
      Run.run OutboundWorld.step (OutboundWorld.after config events) more :=
  Run.run_append OutboundWorld.step _ events more

/-- Without a path nothing is ever tracked. -/
theorem tracker_noPath (config : OutboundMonitorConfig) (path : config.dbPath = "")
    (events : List OutboundEvent) : (OutboundWorld.after config events).monitor.tracker = [] := by
  apply (Run.run_invariant OutboundWorld.step
    (J := fun w => w.monitor.config = config ∧ w.monitor.tracker = []) ?_ _ events ⟨rfl, rfl⟩).2
  rintro w e ⟨same, empty⟩
  refine ⟨(step_config w e).trans same, ?_⟩
  cases e with
  | append row => exact empty
  | poll unavailable now =>
    cases unavailable with
    | none =>
      rw [step_noPath w (by rw [same]; exact path)]
      exact empty
    | some e =>
      rw [step_failed]
      exact empty

theorem sound_after (config : OutboundMonitorConfig) (events : List OutboundEvent)
    (increasing : (appended events).Pairwise (·.id < ·.id)) :
    (OutboundWorld.after config events).Sound :=
  sound_run _ events (sound_new config) increasing

theorem eventuallyTracked_of_within (config : OutboundMonitorConfig) (events : List OutboundEvent)
    (increasing : (appended events).Pairwise (·.id < ·.id))
    (fits : WithinPages config (appended events)) : EventuallyTracked config events := by
  have sound := sound_after config events increasing
  have rows := after_rows config events
  have same : (OutboundWorld.after config events).monitor.config = config := run_config _ events
  refine ⟨(unseen (OutboundWorld.after config events).rows
    (OutboundWorld.after config events).monitor.lastSeenId).length, ?_⟩
  intro clock enough
  have rows' := after_rows config (events ++ clock.map (OutboundEvent.poll none))
  have sound' := sound_after config (events ++ clock.map (OutboundEvent.poll none))
  rw [appended_more] at rows' sound'
  by_cases path : config.dbPath = ""
  · intro r hr pending message decoded
    rw [rows'] at hr
    exact absurd path (fits.seen r hr pending (by rw [decoded]; rfl)).1
  · apply allTracked_of_done _ (sound' increasing)
    · rw [after_append]
      apply done_polls _ sound
      · rwa [same]
      · rw [same, rows]
        exact fits.paged
      · exact Or.inr enough
    · intro r hr pending decodes
      rw [rows'] at hr
      exact (fits.seen r hr pending decodes).2

theorem within_of_eventuallyTracked (config : OutboundMonitorConfig) (events : List OutboundEvent)
    (increasing : (appended events).Pairwise (·.id < ·.id))
    (tracked : EventuallyTracked config events) : WithinPages config (appended events) := by
  obtain ⟨n, tracked⟩ := tracked
  have all := tracked (List.replicate n 0) (Nat.le_of_eq List.length_replicate.symm)
  generalize hmore : events ++ (List.replicate n 0).map (OutboundEvent.poll none) = more at all
  have same : appended more = appended events := by
    rw [← hmore]
    exact appended_more events _
  have increasing' : (appended more).Pairwise (·.id < ·.id) := by rwa [same]
  have sound := sound_after config more increasing'
  have found : ∀ r ∈ appended events, r.status = "pending" → r.decode.isSome →
      ∃ t ∈ (OutboundWorld.after config more).monitor.tracker, (t.id.toNat : Int) = r.id := by
    intro r hr pending decodes
    obtain ⟨message, decoded⟩ := Option.isSome_iff_exists.mp decodes
    have inside : r ∈ (OutboundWorld.after config more).rows := by
      rw [after_rows, same]
      exact hr
    obtain ⟨t, status, -, -⟩ := all r inside pending message decoded
    obtain ⟨member, id⟩ := getStatus_some _ _ t status
    refine ⟨t, member, ?_⟩
    rw [id]
    exact decode_id r message decoded
  constructor
  · intro r hr pending decodes
    obtain ⟨t, member, id⟩ := found r hr pending decodes
    constructor
    · intro path
      rw [tracker_noPath config path] at member
      cases member
    · have positive := UInt64.lt_iff_toNat_lt.mp (sound.bounded t member).1
      change 0 < t.id.toNat at positive
      omega
  · by_contra not_paged
    obtain ⟨bounded, front, trail, r, back, split, decodes, none, full⟩ :=
      blocked_of_not_paged _ 0 _ not_paged
    have enough : asI64 config.batchSize ≤ trail.length := by
      rcases full with full | ⟨-, full⟩
      · exact full
      · simpa using full
    have blocks : Blocks (asI64 config.batchSize) (appended more) r :=
      ⟨bounded, decodes, front, trail, back, by rw [same]; exact split, none, enough⟩
    obtain ⟨inside, pending⟩ := List.mem_filter.mp blocks.mem
    obtain ⟨status, positive⟩ := Bool.and_eq_true_iff.mp pending
    have behind := behind_run ⟨[], OutboundMonitor.new config⟩ more (sound_new config)
      increasing' r blocks (of_decide_eq_true positive)
    rw [same] at inside
    obtain ⟨t, member, id⟩ := found r inside (of_decide_eq_true status) decodes
    have seen := UInt64.le_iff_toNat_le.mp (sound.bounded t member).2
    have behind' : ((OutboundWorld.after config more).monitor.lastSeenId.toNat : Int) <
      r.id := behind
    omega

/-- After enough polls all messages are tracked exactly if each of them lies within a page of
the one before it. -/
theorem outboundPolls_track_iff (config : OutboundMonitorConfig) (events : List OutboundEvent)
    (increasing : (appended events).Pairwise (·.id < ·.id)) :
    EventuallyTracked config events ↔ WithinPages config (appended events) :=
  ⟨within_of_eventuallyTracked config events increasing,
    eventuallyTracked_of_within config events increasing⟩

def priceRow (id : Int) (payload : Option String) (h : -2 ^ 63 ≤ id ∧ id < 2 ^ 63) : MessageRow :=
  ⟨id, some "price_update", payload, "pending", h⟩

/-- Two rows whose payload is not text, and a third one that decodes. -/
def priceHistory : List OutboundEvent :=
  [.append (priceRow 1 none (by decide)), .append (priceRow 2 none (by decide)),
   .append (priceRow 3 (some "{}") (by decide))]

def priceConfig (batchSize : UInt64) : OutboundMonitorConfig := ⟨"app.db", batchSize⟩

/-- With pages of three rows the third row is tracked. -/
theorem outboundPolls_track_prices : EventuallyTracked (priceConfig 3) priceHistory :=
  (outboundPolls_track_iff (priceConfig 3) priceHistory (by decide)).mpr
    ⟨by decide, by decide⟩

/-- With pages of two rows it is not. -/
theorem outboundPolls_blocked :
    ¬∀ (config : OutboundMonitorConfig) (events : List OutboundEvent),
      (appended events).Pairwise (·.id < ·.id) → EventuallyTracked config events := by
  intro tracked
  have fits := within_of_eventuallyTracked _ _ (by decide)
    (tracked (priceConfig 2) priceHistory (by decide))
  exact absurd fits.paged (by decide)

end SyndDB.Sequencer
