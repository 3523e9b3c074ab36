import SyndDB.Sequencer.MessageQueue
import Mathlib.Data.List.Perm.Subperm

namespace SyndDB.Sequencer

structure GetMessagesQuery where
  afterId : UInt64
  limit : UInt64
  messageType : Option String
  pendingOnly : Bool
  deriving DecidableEq

structure GetMessagesResponse where
  messages : List InboundMessage
  hasMore : Bool
  latestId : UInt64
  deriving DecidableEq

namespace MessageQueue

variable (q : MessageQueue)

def getMessagesAfter (afterId : UInt64) (limit : Nat) : List InboundMessage :=
  (q.messages.filter fun m => afterId < m.id).take limit

def getPendingMessages (limit : Nat) : List InboundMessage :=
  (q.messages.filter fun m => !m.acknowledged).take limit

def getPendingByType (messageType : String) (limit : Nat) : List InboundMessage :=
  (q.messages.filter fun m => !m.acknowledged && m.messageType = messageType).take limit

/-- The messages that the handler collects. -/
def collect (query : GetMessagesQuery) (limit : Nat) : List InboundMessage :=
  if query.pendingOnly then
    match query.messageType with
    | none => ((q.getPendingMessages (limit + 1)).filter fun m => query.afterId < m.id).take limit
    | some messageType =>
        (q.getPendingByType messageType limit).filter fun m => query.afterId < m.id
  else
    ((q.getMessagesAfter query.afterId (limit + 1)).filter
      fun m => query.messageType.all (m.messageType = ·)).take limit

/-- What is collected is already cut to the limit when its length is compared with the limit. -/
def getInboundMessages (query : GetMessagesQuery) : GetMessagesResponse :=
  let limit := min query.limit.toNat 1000
  let messages := q.collect query limit
  let hasMore : Bool := limit < messages.length
  ⟨messages.take limit, hasMore, q.latestId⟩

end MessageQueue

/-- The messages that a query is about. -/
def GetMessagesQuery.wants (query : GetMessagesQuery) (m : InboundMessage) : Bool :=
  (!query.pendingOnly || !m.acknowledged) && query.messageType.all (m.messageType = ·)

section

variable (q : MessageQueue) (query : GetMessagesQuery)

def respond (afterId : UInt64) : GetMessagesResponse :=
  q.getInboundMessages { query with afterId }

/-- The ids after which a client asks that starts at 0 and goes on as long as there is more. -/
inductive Asks : UInt64 → Prop where
  | start : Asks 0
  | next (afterId : UInt64) (m : InboundMessage) : Asks afterId →
      (respond q query afterId).hasMore = true →
      (respond q query afterId).messages.getLast? = some m → Asks m.id

/-- What such a client receives from an id on. -/
inductive Receives : UInt64 → List InboundMessage → Prop where
  | last (afterId : UInt64) : (respond q query afterId).hasMore = false →
      Receives afterId (respond q query afterId).messages
  | more (afterId : UInt64) (m : InboundMessage) (rest : List InboundMessage) :
      (respond q query afterId).hasMore = true →
      (respond q query afterId).messages.getLast? = some m → Receives m.id rest →
      Receives afterId ((respond q query afterId).messages ++ rest)

/-- The id of the last message of a page, or where the page starts. -/
def lastReturned (afterId : UInt64) : UInt64 :=
  ((respond q query afterId).messages.getLast?.map InboundMessage.id).getD afterId

/-- The client receives each message it asks for once and by its id, and is told there is more as
long as there is. -/
structure Complete : Prop where
  received : ∃ messages, Receives q query 0 messages ∧ messages.Pairwise (·.id < ·.id) ∧
    ∀ m, m ∈ messages ↔ m ∈ q.messages ∧ query.wants m = true
  hasMore : ∀ afterId, Asks q query afterId → ((respond q query afterId).hasMore = true ↔
    ∃ m ∈ q.messages, query.wants m = true ∧ lastReturned q query afterId < m.id)

/-- All that is wanted fits in the first page. -/
structure FitsPage : Prop where
  increasing : (q.messages.filter query.wants).Pairwise (·.id < ·.id)
  positive : ∀ m ∈ q.messages, query.wants m = true → 0 < m.id
  few : (q.messages.filter query.wants).length ≤ min query.limit.toNat 1000
  early : query.pendingOnly = false → ∀ m ∈ q.messages, query.wants m = true →
    m ∈ (q.messages.filter fun m => 0 < m.id).take (min query.limit.toNat 1000 + 1)

end

section

variable (q : MessageQueue) (query : GetMessagesQuery) (afterId : UInt64)

theorem length_collect (limit : Nat) : (q.collect query limit).length ≤ limit := by
  obtain ⟨start, limit', type, pending⟩ := query
  cases pending with
  | true =>
    cases type with
    | none => exact List.length_take_le _ _
    | some type => exact Nat.le_trans (List.length_filter_le _ _) (List.length_take_le _ _)
  | false => exact List.length_take_le _ _

theorem respond_messages :
    (respond q query afterId).messages =
      q.collect { query with afterId } (min query.limit.toNat 1000) :=
  List.take_of_length_le (length_collect q { query with afterId } _)

/-- There is never more. -/
theorem respond_hasMore : (respond q query afterId).hasMore = false :=
  decide_eq_false (Nat.not_lt.mpr (length_collect q { query with afterId } _))

theorem wants_pending (start limit : UInt64) (type : Option String) :
    (GetMessagesQuery.mk start limit type true).wants =
      fun m => !m.acknowledged && type.all (m.messageType = ·) := by
  funext m
  rw [GetMessagesQuery.wants, Bool.not_true, Bool.false_or]

theorem wants_all (start limit : UInt64) (type : Option String) :
    (GetMessagesQuery.mk start limit type false).wants = fun m => type.all (m.messageType = ·) := by
  funext m
  rw [GetMessagesQuery.wants, Bool.not_false, Bool.true_or, Bool.true_and]

/-- A page of pending messages, or of all messages. -/
theorem collect_eq (limit : Nat) :
    (query.pendingOnly = true → ∃ n, limit ≤ n ∧ q.collect { query with afterId } limit =
      (((q.messages.filter query.wants).take n).filter fun m => afterId < m.id).take limit) ∧
    (query.pendingOnly = false → q.collect { query with afterId } limit =
      (((q.messages.filter fun m => afterId < m.id).take (limit + 1)).filter query.wants).take
        limit) := by
  obtain ⟨start, limit', type, pending⟩ := query
  constructor
  · rintro rfl
    rw [wants_pending]
    cases type with
    | none =>
      refine ⟨limit + 1, Nat.le_succ limit, ?_⟩
      simp [MessageQueue.collect, MessageQueue.getPendingMessages]
    | some type =>
      refine ⟨limit, Nat.le_refl limit, ?_⟩
      have few := length_collect q ⟨afterId, limit', some type, true⟩ limit
      rw [← List.take_of_length_le few]
      simp [MessageQueue.collect, MessageQueue.getPendingByType]
  · rintro rfl
    rw [wants_all]
    simp [MessageQueue.collect, MessageQueue.getMessagesAfter]

theorem respond_sublist :
    (respond q query afterId).messages.Sublist (q.messages.filter query.wants) := by
  rw [respond_messages]
  obtain ⟨pending, all⟩ := collect_eq q query afterId (min query.limit.toNat 1000)
  rcases Bool.eq_false_or_eq_true query.pendingOnly with mode | mode
  · obtain ⟨n, -, page⟩ := pending mode
    rw [page]
    exact ((List.take_sublist _ _).trans List.filter_sublist).trans (List.take_sublist _ _)
  · rw [all mode]
    exact (List.take_sublist _ _).trans
      (((List.take_sublist _ _).trans List.filter_sublist).filter query.wants)

theorem respond_after (m : InboundMessage) (h : m ∈ (respond q query afterId).messages) :
    afterId < m.id := by
  rw [respond_messages] at h
  obtain ⟨pending, all⟩ := collect_eq q query afterId (min query.limit.toNat 1000)
  rcases Bool.eq_false_or_eq_true query.pendingOnly with mode | mode
  · obtain ⟨n, -, page⟩ := pending mode
    rw [page] at h
    exact of_decide_eq_true (List.mem_filter.mp (List.mem_of_mem_take h)).2
  · rw [all mode] at h
    have early := List.mem_of_mem_take (List.mem_of_mem_filter (List.mem_of_mem_take h))
    exact of_decide_eq_true (List.mem_filter.mp early).2

theorem respond_early (mode : query.pendingOnly = false) (m : InboundMessage)
    (h : m ∈ (respond q query afterId).messages) :
    m ∈ (q.messages.filter fun m => afterId < m.id).take (min query.limit.toNat 1000 + 1) := by
  rw [respond_messages, (collect_eq q query afterId _).2 mode] at h
  exact List.mem_of_mem_filter (List.mem_of_mem_take h)

end

/-- A filtered list is found in a front of the list that has all its elements. -/
theorem filter_take {α : Type} (p : α → Bool) (xs : List α) (n : Nat) (distinct : xs.Nodup)
    (h : ∀ x ∈ xs, p x = true → x ∈ xs.take n) : (xs.take n).filter p = xs.filter p := by
  have split := List.take_append_drop n xs
  have apart : ∀ x ∈ xs.take n, x ∉ xs.drop n := by
    rw [← split] at distinct
    intro x front back
    exact (List.nodup_append.mp distinct).2.2 x front x back rfl
  have none : (xs.drop n).filter p = [] := by
    rw [List.filter_eq_nil_iff]
    intro x back px
    exact apart x (h x (List.mem_of_mem_drop back) px) back
  calc (xs.take n).filter p = (xs.take n).filter p ++ (xs.drop n).filter p := by
        rw [none, List.append_nil]
    _ = xs.filter p := by rw [← List.filter_append, split]

/-- If all that is wanted fits in the first page, it is the first page. -/
theorem respond_of_fits (q : MessageQueue) (query : GetMessagesQuery) (distinct : q.messages.Nodup)
    (fits : FitsPage q query) : (respond q query 0).messages = q.messages.filter query.wants := by
  have above : ∀ m ∈ q.messages.filter query.wants, decide (0 < m.id) = true := by
    intro m hm
    obtain ⟨inside, wanted⟩ := List.mem_filter.mp hm
    exact decide_eq_true (fits.positive m inside wanted)
  have positive : (q.messages.filter query.wants).filter (fun m => 0 < m.id) =
      q.messages.filter query.wants := List.filter_eq_self.mpr above
  rw [respond_messages]
  obtain ⟨pending, all⟩ := collect_eq q query 0 (min query.limit.toNat 1000)
  rcases Bool.eq_false_or_eq_true query.pendingOnly with mode | mode
  · obtain ⟨n, large, page⟩ := pending mode
    rw [page, List.take_of_length_le (Nat.le_trans fits.few large), positive,
      List.take_of_length_le fits.few]
  · have swapped : (q.messages.filter fun m => 0 < m.id).filter query.wants =
        q.messages.filter query.wants := by
      rw [List.filter_comm, positive]
    rw [all mode, filter_take _ _ _ (distinct.filter _), swapped, List.take_of_length_le fits.few]
    intro m hm wanted
    exact fits.early mode m (List.mem_of_mem_filter hm) wanted

theorem asks_zero (q : MessageQueue) (query : GetMessagesQuery) (afterId : UInt64)
    (h : Asks q query afterId) : afterId = 0 := by
  cases h with
  | start => rfl
  | next before m _ more _ =>
    rw [respond_hasMore] at more
    cases more

theorem receives_iff (q : MessageQueue) (query : GetMessagesQuery) (afterId : UInt64)
    (messages : List InboundMessage) :
    Receives q query afterId messages ↔ messages = (respond q query afterId).messages := by
  constructor
  · intro h
    cases h with
    | last _ _ => rfl
    | more _ m rest more _ _ =>
      rw [respond_hasMore] at more
      cases more
  · rintro rfl
    exact .last afterId (respond_hasMore q query afterId)

/-- The last message of an increasing list has the highest id. -/
theorem id_le_getLast (messages : List InboundMessage)
    (increasing : messages.Pairwise (·.id < ·.id))
    (m : InboundMessage) (h : m ∈ messages) : ∃ last, messages.getLast? = some last ∧ m.id ≤
      last.id := by
  obtain ⟨front, back, rfl⟩ := List.append_of_mem h
  obtain ⟨-, tail, -⟩ := List.pairwise_append.mp increasing
  obtain ⟨above, -⟩ := List.pairwise_cons.mp tail
  cases found : back.getLast? with
  | none => exact ⟨m, by simp [List.getLast?_append, List.getLast?_cons, found], UInt64.le_refl _⟩
  | some last =>
    refine ⟨last, by simp [List.getLast?_append, List.getLast?_cons, found], ?_⟩
    exact UInt64.le_of_lt (above last (List.mem_of_getLast? found))

theorem complete_of_fits (q : MessageQueue) (query : GetMessagesQuery) (distinct : q.messages.Nodup)
    (fits : FitsPage q query) : Complete q query := by
  have page := respond_of_fits q query distinct fits
  constructor
  · refine ⟨_, (receives_iff q query 0 _).mpr rfl, ?_, ?_⟩
    · rw [page]
      exact fits.increasing
    · intro m
      rw [page, List.mem_filter]
  · intro afterId asks
    rw [asks_zero q query afterId asks, respond_hasMore]
    refine iff_of_false Bool.false_ne_true ?_
    rintro ⟨m, inside, wanted, beyond⟩
    obtain ⟨last, found, highest⟩ :=
      id_le_getLast _ fits.increasing m (List.mem_filter.mpr ⟨inside, wanted⟩)
    rw [lastReturned, page, found] at beyond
    exact UInt64.not_lt.mpr highest beyond

theorem fits_of_complete (q : MessageQueue) (query : GetMessagesQuery) (distinct : q.messages.Nodup)
    (complete : Complete q query) : FitsPage q query := by
  obtain ⟨messages, receives, increasing, members⟩ := complete.received
  rw [receives_iff] at receives
  subst receives
  have all : q.messages.filter query.wants ⊆ (respond q query 0).messages := by
    intro m hm
    exact (members m).mpr (List.mem_filter.mp hm)
  have page : (respond q query 0).messages = q.messages.filter query.wants :=
    (respond_sublist q query 0).eq_of_length_le
      (List.subperm_of_subset (distinct.filter _) all).length_le
  constructor
  · rw [← page]
    exact increasing
  · intro m inside wanted
    exact respond_after q query 0 m ((members m).mpr ⟨inside, wanted⟩)
  · rw [← page, respond_messages]
    exact length_collect _ _ _
  · intro mode m inside wanted
    exact respond_early q query 0 mode m ((members m).mpr ⟨inside, wanted⟩)

theorem nodup_after (config : MessageQueueConfig) (calls : List QueueCall) :
    (History.after config calls).queue.messages.Nodup :=
  List.Nodup.of_map _ (nodup_ids _ (ordered_after config calls))

/-- A client receives all that it wants exactly if that fits in one page. -/
theorem getInboundMessages_complete_iff (config : MessageQueueConfig) (calls : List QueueCall)
    (query : GetMessagesQuery) :
    Complete (History.after config calls).queue query ↔
      FitsPage (History.after config calls).queue query :=
  ⟨fits_of_complete _ query (nodup_after config calls),
    complete_of_fits _ query (nodup_after config calls)⟩

/-- Three deposits that were captured and not acknowledged. -/
def threeDeposits : List QueueCall :=
  List.replicate 3 (.addMessage ⟨"deposit-0", "deposit", "{}", "0x00", "0x00", 1, 12⟩ 100 100)

/-- Two of them are delivered, and nothing tells of the third. -/
theorem getInboundMessages_third :
    ¬∀ (config : MessageQueueConfig) (calls : List QueueCall) (query : GetMessagesQuery),
      1 ≤ query.limit → Complete (History.after config calls).queue query := by
  intro complete
  have fits := fits_of_complete _ _ (nodup_after ⟨10000, 86400⟩ threeDeposits)
    (complete ⟨10000, 86400⟩ threeDeposits ⟨0, 2, none, true⟩ (by decide))
  exact absurd fits.few (by decide)

end SyndDB.Sequencer
