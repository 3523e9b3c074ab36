import SyndDB.Contracts.DataTypes
import SyndDB.Framework.History
import SyndDB.Framework.Run
import Mathlib.Data.List.AList
import Mathlib.Data.List.Induction

namespace SyndDB.Validator

open Octets History
open Contracts (Address)

structure MessageSignature where
  messageId : String
  signature : Bytes
  signer : Address
  signedAt : UInt64
  deriving DecidableEq

structure SignatureStore where
  signatures : AList fun _ : String => MessageSignature
  pending : List String

namespace SignatureStore

def new : SignatureStore := ⟨∅, []⟩

/-- An earlier signature of the message is replaced, in its place. -/
def store (data : SignatureStore) (signature : MessageSignature) : SignatureStore :=
  let isNew := (data.signatures.lookup signature.messageId).isNone
  { signatures := data.signatures.insert signature.messageId signature
    pending := if isNew then data.pending ++ [signature.messageId] else data.pending }

def get (data : SignatureStore) (messageId : String) : Option MessageSignature :=
  data.signatures.lookup messageId

def pendingSignatures (data : SignatureStore) : List MessageSignature :=
  data.pending.filterMap data.get

def markSubmitted (data : SignatureStore) (messageId : String) : SignatureStore :=
  { data with pending := data.pending.filter (· ≠ messageId) }

def remove (data : SignatureStore) (messageId : String) :
    Option MessageSignature × SignatureStore :=
  (data.get messageId,
    ⟨data.signatures.erase messageId, data.pending.filter (· ≠ messageId)⟩)

theorem get_store (data : SignatureStore) (signature : MessageSignature) (messageId : String) :
    (data.store signature).get messageId =
      if messageId = signature.messageId then some signature else data.get messageId := by
  by_cases same : messageId = signature.messageId
  · rw [if_pos same, same]
    exact AList.lookup_insert data.signatures
  · rw [if_neg same]
    exact AList.lookup_insert_ne same

theorem mem_pending_store (data : SignatureStore) (signature : MessageSignature)
    (messageId : String) :
    messageId ∈ (data.store signature).pending ↔
      messageId ∈ data.pending ∨ signature.messageId = messageId ∧ data.get messageId = none := by
  rw [store]
  cases known : data.signatures.lookup signature.messageId with
  | none =>
    simp only [Option.isNone_none, if_true, List.mem_append, List.mem_singleton, get]
    constructor
    · intro h
      rcases h with earlier | rfl
      · exact Or.inl earlier
      · exact Or.inr ⟨rfl, known⟩
    · intro h
      rcases h with earlier | ⟨rfl, -⟩
      · exact Or.inl earlier
      · exact Or.inr rfl
  | some other =>
    simp only [Option.isNone_some, Bool.false_eq_true, if_false, get]
    constructor
    · exact Or.inl
    · intro h
      rcases h with earlier | ⟨rfl, absent⟩
      · exact earlier
      · rw [known] at absent
        cases absent

theorem get_remove (data : SignatureStore) (messageId other : String) :
    (data.remove messageId).2.get other = if other = messageId then none else data.get other := by
  by_cases same : other = messageId
  · rw [if_pos same, same]
    exact AList.lookup_erase messageId data.signatures
  · rw [if_neg same]
    exact AList.lookup_erase_ne same

end SignatureStore

inductive Call where
  | store (signature : MessageSignature)
  | markSubmitted (messageId : String)
  | remove (messageId : String)
  deriving DecidableEq

def Call.execute (data : SignatureStore) : Call → SignatureStore
  | .store signature => data.store signature
  | .markSubmitted messageId => data.markSubmitted messageId
  | .remove messageId => (data.remove messageId).2

def SignatureStore.after (history : List Call) : SignatureStore :=
  Run.run Call.execute SignatureStore.new history

def Call.Stores (messageId : String) : Call → Prop
  | .store signature => signature.messageId = messageId
  | _ => False

abbrev Call.Submits (messageId : String) (call : Call) : Prop := call = .markSubmitted messageId

abbrev Call.Removes (messageId : String) (call : Call) : Prop := call = .remove messageId

/-- At `n`, the message was first stored since it was last removed. -/
abbrev FirstStore (history : List Call) (messageId : String) (n : Nat) : Prop :=
  FirstSince (Call.Stores messageId) (Call.Removes messageId) history n

def Earlier (history : List Call) (a b : String) : Prop :=
  ∃ m n, FirstStore history a m ∧ FirstStore history b n ∧ m < n

/-- The signature with which the message was last stored, if it has not been removed since. -/
def MostRecent (history : List Call) (messageId : String) (signature : MessageSignature) : Prop :=
  ∃ n, Latest (Call.Stores messageId) (Call.Removes messageId) history n ∧
    history[n]? = some (.store signature)

theorem stores_apart (messageId : String) (call : Call) (h : call.Stores messageId) :
    ¬call.Removes messageId := by
  intro removes
  rw [removes] at h
  exact h

theorem store_not_removes (signature : MessageSignature) (id : String) :
    ¬(Call.store signature).Removes id := by
  rw [Call.Removes]
  exact Call.noConfusion

theorem store_not_submits (signature : MessageSignature) (id : String) :
    ¬(Call.store signature).Submits id := by
  rw [Call.Submits]
  exact Call.noConfusion

theorem markSubmitted_not_removes (submitted id : String) :
    ¬(Call.markSubmitted submitted).Removes id := by
  rw [Call.Removes]
  exact Call.noConfusion

theorem remove_not_submits (removed id : String) : ¬(Call.remove removed).Submits id := by
  rw [Call.Submits]
  exact Call.noConfusion

theorem markSubmitted_submits (submitted id : String) :
    (Call.markSubmitted submitted).Submits id ↔ id = submitted := by
  rw [Call.Submits, Call.markSubmitted.injEq]
  exact eq_comm

theorem remove_removes (removed id : String) : (Call.remove removed).Removes id ↔ id = removed := by
  rw [Call.Removes, Call.remove.injEq]
  exact eq_comm

theorem MostRecent.messageId {history : List Call} {messageId : String}
    {signature : MessageSignature}
    (h : MostRecent history messageId signature) : signature.messageId = messageId := by
  obtain ⟨n, latest, found⟩ := h
  obtain ⟨call, found', stores⟩ := latest.event
  rw [found] at found'
  cases found'
  exact stores

theorem Earlier.append {history : List Call} {a b : String} (h : Earlier history a b) (call : Call)
    (ha : ¬call.Removes a) (hb : ¬call.Removes b) : Earlier (history ++ [call]) a b := by
  obtain ⟨m, n, first, second, order⟩ := h
  exact ⟨m, n, first.append call ha, second.append call hb, order⟩

theorem order_append (history : List Call) (call : Call) (ids : List String)
    (h : ids.Pairwise (Earlier history)) (kept : ∀ id ∈ ids, ¬call.Removes id) :
    ids.Pairwise (Earlier (history ++ [call])) := by
  refine List.Pairwise.imp_of_mem ?_ h
  intro a b ha hb earlier
  exact earlier.append call (kept a ha) (kept b hb)

theorem MostRecent.append {history : List Call} {messageId : String} {signature : MessageSignature}
    (h : MostRecent history messageId signature) (call : Call) (hs : ¬call.Stores messageId)
    (hr : ¬call.Removes messageId) : MostRecent (history ++ [call]) messageId signature := by
  obtain ⟨n, latest, found⟩ := h
  refine ⟨n, latest.append call hs hr, ?_⟩
  rw [event_append call (lt_of_event found)]
  exact found

theorem firstStore_store (history : List Call) (signature : MessageSignature) (id : String)
    (n : Nat) :
    FirstStore (history ++ [.store signature]) id n ↔
      FirstStore history id n ∨
        signature.messageId = id ∧ n = history.length ∧ ∀ m, ¬FirstStore history id m := by
  by_cases same : signature.messageId = id
  · rw [FirstStore, firstSince_append_event (stores_apart id) (Call.store signature) same]
    simp only [same, true_and]
  · rw [FirstStore, firstSince_append_other (Call.store signature) same (store_not_removes _ id)]
    simp only [same, false_and, or_false]

theorem firstStore_markSubmitted (history : List Call) (submitted id : String) (n : Nat) :
    FirstStore (history ++ [.markSubmitted submitted]) id n ↔ FirstStore history id n :=
  firstSince_append_other (Call.markSubmitted submitted) not_false
    (markSubmitted_not_removes submitted id)

theorem firstStore_remove (history : List Call) (removed id : String) (n : Nat) :
    FirstStore (history ++ [.remove removed]) id n ↔ id ≠ removed ∧ FirstStore history id n := by
  by_cases same : id = removed
  · have reset : ¬FirstStore (history ++ [.remove removed]) id n :=
      not_firstSince_append_reset (stores_apart id) (Call.remove removed)
        ((remove_removes _ _).mpr same)
    exact ⟨fun h => absurd h reset, fun h => absurd same h.1⟩
  · have kept : ¬(Call.remove removed).Removes id := (remove_removes removed id).not.mpr same
    rw [FirstStore, firstSince_append_other (Call.remove removed) not_false kept]
    simp only [ne_eq, same, not_false_eq_true, true_and]

structure Tracks (history : List Call) (data : SignatureStore) : Prop where
  known : ∀ id, (data.get id).isSome = true ↔ ∃ n, FirstStore history id n
  recent : ∀ id signature, data.get id = some signature → MostRecent history id signature
  pending : ∀ id, id ∈ data.pending ↔
    ∃ n, FirstStore history id n ∧ NoneAfter (Call.Submits id) history n
  order : data.pending.Pairwise (Earlier history)

theorem tracks_new : Tracks [] SignatureStore.new := by
  have nothing (id : String) (n : Nat) : ¬FirstStore [] id n := fun h => by
    have := h.lt_length
    exact absurd this (Nat.not_lt_zero n)
  refine ⟨?_, ?_, ?_, List.Pairwise.nil⟩
  · intro id
    simp [nothing, SignatureStore.new, SignatureStore.get]
  · intro id signature found
    simp [SignatureStore.new, SignatureStore.get] at found
  · intro id
    simp [nothing, SignatureStore.new]

theorem tracks_store (history : List Call) (data : SignatureStore) (signature : MessageSignature)
    (h : Tracks history data) : Tracks (history ++ [.store signature]) (data.store signature) := by
  have grown : data.pending.Pairwise (Earlier (history ++ [.store signature])) :=
    order_append history _ _ h.order fun id _ => store_not_removes signature id
  refine ⟨?_, ?_, ?_, ?_⟩
  · intro id
    rw [SignatureStore.get_store]
    split_ifs with same
    · simp only [Option.isSome_some, true_iff, firstStore_store]
      by_cases known : ∃ n, FirstStore history id n
      · obtain ⟨n, first⟩ := known
        exact ⟨n, Or.inl first⟩
      · exact ⟨history.length, Or.inr ⟨same.symm, rfl, not_exists.mp known⟩⟩
    · have other : ¬signature.messageId = id := fun equal => same equal.symm
      simp only [firstStore_store, other, false_and, or_false]
      exact h.known id
  · intro id recent found
    rw [SignatureStore.get_store] at found
    split_ifs at found with same
    · cases found
      exact ⟨history.length, Latest.new history _ same.symm, event_new history _⟩
    · have other : ¬(Call.store signature).Stores id := fun equal => same equal.symm
      exact (h.recent id recent found).append _ other (store_not_removes signature id)
  · intro id
    rw [SignatureStore.mem_pending_store, h.pending, ← Option.not_isSome_iff_eq_none, h.known,
      not_exists]
    by_cases same : signature.messageId = id
    · refine Iff.trans (or_congr_right (and_iff_right same)) ?_
      exact (waiting_append_event (stores_apart id) (Call.store signature) same
        (store_not_submits signature id)).symm
    · simp only [same, false_and, or_false]
      refine Iff.trans ?_ (waiting_append_other (Call.store signature) same
        (store_not_removes signature id)).symm
      exact (and_iff_left (store_not_submits signature id)).symm
  · rw [SignatureStore.store]
    cases known : data.signatures.lookup signature.messageId with
    | some other => exact grown
    | none =>
      have absent : ∀ m, ¬FirstStore history signature.messageId m := by
        rw [← not_exists, ← h.known, SignatureStore.get, known]
        exact Bool.false_ne_true
      refine List.pairwise_append.mpr ⟨grown, List.pairwise_singleton _ _, ?_⟩
      intro a ha b hb
      obtain rfl := List.mem_singleton.mp hb
      obtain ⟨m, first, -⟩ := (h.pending a).mp ha
      exact ⟨m, history.length, first.append _ (store_not_removes signature a),
        (firstStore_store _ _ _ _).mpr (Or.inr ⟨rfl, rfl, absent⟩), first.lt_length⟩

theorem tracks_markSubmitted (history : List Call) (data : SignatureStore) (submitted : String)
    (h : Tracks history data) :
    Tracks (history ++ [.markSubmitted submitted]) (data.markSubmitted submitted) := by
  have kept (id : String) : ¬(Call.markSubmitted submitted).Removes id :=
    markSubmitted_not_removes submitted id
  refine ⟨?_, ?_, ?_, ?_⟩
  · intro id
    simp only [firstStore_markSubmitted]
    exact h.known id
  · intro id recent found
    exact (h.recent id recent found).append _ not_false (kept id)
  · intro id
    refine Iff.trans ?_ (waiting_append_other (Call.markSubmitted submitted) not_false
      (kept id)).symm
    rw [markSubmitted_submits]
    simp only [SignatureStore.markSubmitted, List.mem_filter, h.pending, decide_eq_true_eq, ne_eq]
  · exact (order_append history _ _ h.order fun id _ => kept id).filter _

theorem tracks_remove (history : List Call) (data : SignatureStore) (removed : String)
    (h : Tracks history data) : Tracks (history ++ [.remove removed]) (data.remove removed).2 := by
  have kept (id : String) (other : id ≠ removed) : ¬(Call.remove removed).Removes id :=
    (remove_removes removed id).not.mpr other
  have others (id : String) : id ∈ (data.remove removed).2.pending ↔
      id ∈ data.pending ∧ id ≠ removed := by
    simp only [SignatureStore.remove, List.mem_filter, decide_eq_true_eq]
  refine ⟨?_, ?_, ?_, ?_⟩
  · intro id
    rw [SignatureStore.get_remove]
    simp only [firstStore_remove]
    split_ifs with same
    · simp [same]
    · simp only [ne_eq, same, not_false_eq_true, true_and]
      exact h.known id
  · intro id recent found
    rw [SignatureStore.get_remove] at found
    split_ifs at found with same
    exact (h.recent id recent found).append _ not_false (kept id same)
  · intro id
    rw [others, h.pending]
    by_cases same : id = removed
    · simp only [firstStore_remove, same, ne_eq, not_true_eq_false, and_false, false_and,
        exists_false]
    · refine Iff.trans ?_ (waiting_append_other (Call.remove removed) not_false (kept id same)).symm
      exact and_congr_right fun _ => iff_of_true same (remove_not_submits removed id)
  · refine order_append history _ _ (h.order.filter fun id => decide (id ≠ removed)) ?_
    intro id member
    exact kept id ((others id).mp member).2

theorem after_append (history : List Call) (call : Call) :
    SignatureStore.after (history ++ [call]) = call.execute (SignatureStore.after history) :=
  Run.run_append Call.execute SignatureStore.new history [call]

theorem after_tracks (history : List Call) : Tracks history (SignatureStore.after history) := by
  induction history using List.reverseRecOn with
  | nil => exact tracks_new
  | append_singleton history call ih =>
    rw [after_append]
    cases call with
    | store signature => exact tracks_store history _ signature ih
    | markSubmitted submitted => exact tracks_markSubmitted history _ submitted ih
    | remove removed => exact tracks_remove history _ removed ih

theorem Tracks.nodup {history : List Call} {data : SignatureStore} (h : Tracks history data) :
    data.pending.Nodup := by
  refine h.order.imp ?_
  intro a b earlier same
  obtain ⟨m, n, first, second, order⟩ := earlier
  rw [same] at first
  exact absurd (first.unique second) (Nat.ne_of_lt order)

theorem Tracks.stored {history : List Call} {data : SignatureStore} (h : Tracks history data)
    (id : String) (pending : id ∈ data.pending) : ∃ signature, data.get id = some signature := by
  obtain ⟨n, first, -⟩ := (h.pending id).mp pending
  exact Option.isSome_iff_exists.mp ((h.known id).mpr ⟨n, first⟩)

theorem Tracks.pendingSignatures {history : List Call} {data : SignatureStore}
    (h : Tracks history data) :
    List.Forall₂ (MostRecent history) data.pending data.pendingSignatures := by
  have each (ids : List String) (pending : ∀ id ∈ ids, id ∈ data.pending) :
      List.Forall₂ (MostRecent history) ids (ids.filterMap data.get) := by
    induction ids with
    | nil => exact List.Forall₂.nil
    | cons id ids ih =>
      obtain ⟨signature, found⟩ := h.stored id (pending id List.mem_cons_self)
      rw [List.filterMap_cons_some found]
      exact List.Forall₂.cons (h.recent id signature found)
        (ih fun other member => pending other (List.mem_cons_of_mem _ member))
  exact each data.pending fun _ member => member

/-- A message that was stored and is submitted later on is waiting again only after it was removed
and stored anew. -/
theorem submitted_again (before later : List Call) (id : String)
    (stored : (SignatureStore.after before).get id ≠ none) (submitted : .markSubmitted id ∈ later)
    (pending : id ∈ (SignatureStore.after (before ++ later)).pending) :
    ∃ pre post, later = pre ++ .remove id :: post ∧
      ∃ signature, signature.messageId = id ∧ .store signature ∈ post := by
  obtain ⟨m, first⟩ := ((after_tracks before).known id).mp (Option.isSome_iff_ne_none.mpr stored)
  obtain ⟨n, again, waiting⟩ := ((after_tracks (before ++ later)).pending id).mp pending
  obtain ⟨k, marked⟩ := List.mem_iff_getElem?.mp submitted
  obtain ⟨call, found, stores⟩ := first.event
  have old := first.lt_length
  have in_later (i : Nat) (h : before.length ≤ i) : (before ++ later)[i]? =
    later[i - before.length]? :=
    List.getElem?_append_right h
  -- the store that counts comes after the submission
  have late : before.length + k ≤ n := by
    by_contra early
    refine waiting (before.length + k) (.markSubmitted id) (by omega) ?_ rfl
    rw [in_later _ (by omega), Nat.add_sub_cancel_left]
    exact marked
  have earlier : (before ++ later)[m]? = some call := by
    rw [List.getElem?_append_left old]
    exact found
  obtain ⟨r, reset, after, within, hreset, rfl⟩ := again.first m call (by omega) earlier stores
  have removed_late : before.length ≤ r := by
    by_contra early
    rw [List.getElem?_append_left (by omega)] at hreset
    exact first.lasting r _ after hreset rfl
  rw [in_later r removed_late] at hreset
  obtain ⟨short, here⟩ := List.getElem?_eq_some_iff.mp hreset
  refine ⟨later.take (r - before.length), later.drop (r - before.length + 1), ?_, ?_⟩
  · rw [← here, ← List.drop_eq_getElem_cons short, List.take_append_drop]
  · obtain ⟨new, hnew, stores'⟩ := again.event
    rw [in_later n (by omega)] at hnew
    have member : new ∈ later.drop (r - before.length + 1) := by
      refine List.mem_iff_getElem?.mpr ⟨n - r - 1, ?_⟩
      rw [List.getElem?_drop, ← hnew]
      congr 1
      omega
    cases new with
    | store signature => exact ⟨signature, stores', member⟩
    | markSubmitted other => exact stores'.elim
    | remove other => exact stores'.elim

/-- The list of pending messages and the map of signatures agree after every history of calls. -/
theorem signature_store_consistent (history : List Call) :
    let store := SignatureStore.after history
    store.pending.Nodup ∧
    (∀ id ∈ store.pending, ∃ signature, store.get id = some signature) ∧
    ((∀ id, id ∈ store.pending ↔
        ∃ n, FirstStore history id n ∧ NoneAfter (Call.Submits id) history n) ∧
      store.pending.Pairwise (Earlier history)) ∧
    List.Forall₂ (fun id signature => signature.messageId = id ∧ MostRecent history id signature)
      store.pending store.pendingSignatures ∧
    ∀ before later id, history = before ++ later → (SignatureStore.after before).get id ≠ none →
      .markSubmitted id ∈ later → id ∈ store.pending →
      ∃ pre post, later = pre ++ .remove id :: post ∧
        ∃ signature, signature.messageId = id ∧ .store signature ∈ post := by
  have tracks := after_tracks history
  refine ⟨tracks.nodup, tracks.stored, ⟨tracks.pending, tracks.order⟩,
    tracks.pendingSignatures.imp fun _ _ recent => ⟨recent.messageId, recent⟩, ?_⟩
  intro before later id split stored submitted pending
  subst split
  exact submitted_again before later id stored submitted pending

namespace Sample

def signature (messageId : String) (signedAt : UInt64) : MessageSignature :=
  ⟨messageId, List.replicate 65 0, 0, signedAt⟩

def submitted : List Call := [.store (signature "0x1111" 1), .markSubmitted "0x1111"]

def anew : List Call := [.markSubmitted "0x1111", .remove "0x1111", .store (signature "0x1111" 2)]

theorem signature_store_consistent_anew :
    ∃ pre post, anew = pre ++ .remove "0x1111" :: post ∧
      ∃ signature, signature.messageId = "0x1111" ∧ .store signature ∈ post :=
  (signature_store_consistent (submitted ++ anew)).2.2.2.2 submitted anew "0x1111" rfl (by decide)
    (by decide) (by decide)

end Sample

end SyndDB.Validator
