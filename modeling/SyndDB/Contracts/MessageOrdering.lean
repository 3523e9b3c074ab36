import SyndDB.Contracts.Sessions
import Mathlib.Data.List.Induction

namespace SyndDB.Contracts

open Octets Resumption

namespace MessageOrderingModule

structure State where
  owner : Address
  expectedNonces : Bytes32 → UInt256

inductive Error where
  | InvalidNonce (identifier : Bytes32) (expected actual : UInt256)
  | ArithmeticOverflow
  | OwnableUnauthorizedAccount (account : Address)
  | OwnableInvalidOwner (owner : Address)
  | ArrayLengthMismatch

def Error.encode : Error → Bytes
  | .InvalidNonce identifier expected actual =>
      [0x2f, 0xa4, 0x3c, 0x8c] ++ word identifier ++ word expected ++ word actual
  | .ArithmeticOverflow => panicOverflow
  | .OwnableUnauthorizedAccount account =>
      [0x11, 0x8c, 0xda, 0xa7] ++ word (account.setWidth 256)
  | .OwnableInvalidOwner owner => [0x1e, 0x4f, 0xbd, 0xf7] ++ word (owner.setWidth 256)
  | .ArrayLengthMismatch => errorString "Array length mismatch"

/-- Identifier and nonce in the first 64 bytes of a payload. -/
def metadata (payload : Bytes) : Option (Bytes32 × UInt256) :=
  if payload.length < 64 then none
  else
    some (BitVec.ofNat 256 (fromBigEndian (payload.take 32)),
      BitVec.ofNat 256 (fromBigEndian ((payload.drop 32).take 32)))

def validateNonce (st : State) (identifier : Bytes32) (nonce : UInt256) : Except Error State :=
  let expected := st.expectedNonces identifier
  if nonce ≠ expected then .error (.InvalidNonce identifier expected nonce)
  else
    match checkedAdd expected 1 with
    | none => .error .ArithmeticOverflow
    | some next =>
        .ok { st with expectedNonces := Function.update st.expectedNonces identifier next }

/-- What a check validates: nothing outside of `PreExecution` or for a short payload. -/
def ordered (stage : ProcessingStage) (payload : Bytes) : Option (Bytes32 × UInt256) :=
  if stage ≠ .PreExecution then none else metadata payload

/-- `check`, which returns true whenever it returns. -/
def check (st : State) (stage : ProcessingStage) (payload : Bytes) : Except Error State :=
  match ordered stage payload with
  | none => .ok st
  | some (identifier, nonce) => validateNonce st identifier nonce

def onlyOwner (st : State) (sender : Address) : Except Error Unit :=
  if sender = st.owner then .ok () else .error (.OwnableUnauthorizedAccount sender)

def setNonce (st : State) (p : Bytes32 × UInt256) : State :=
  { st with expectedNonces := Function.update st.expectedNonces p.1 p.2 }

def resetNonce (st : State) (sender : Address) (identifier : Bytes32) (newNonce : UInt256) :
    Except Error State := do
  onlyOwner st sender
  return setNonce st (identifier, newNonce)

def batchResetNonces (st : State) (sender : Address) (identifiers : List Bytes32)
    (newNonces : List UInt256) : Except Error State := do
  onlyOwner st sender
  if identifiers.length = newNonces.length then
    return (identifiers.zip newNonces).foldl setNonce st
  else .error .ArrayLengthMismatch

/-- The calls of anybody but the bridge. -/
inductive Call where
  | check (messageId : Bytes32) (stage : ProcessingStage) (payload : Bytes)
      (sequencerSignature : SequencerSignature)
  | validateNonce (identifier : Bytes32) (nonce : UInt256)
  | resetNonce (sender : Address) (identifier : Bytes32) (newNonce : UInt256)
  | batchResetNonces (sender : Address) (identifiers : List Bytes32) (newNonces : List UInt256)
  | transferOwnership (sender newOwner : Address)
  | renounceOwnership (sender : Address)

def call (st : State) : Call → Except Error State
  | .check _ stage payload _ => check st stage payload
  | .validateNonce identifier nonce => validateNonce st identifier nonce
  | .resetNonce sender identifier newNonce => resetNonce st sender identifier newNonce
  | .batchResetNonces sender identifiers newNonces =>
      batchResetNonces st sender identifiers newNonces
  | .transferOwnership sender newOwner => do
      onlyOwner st sender
      if newOwner = 0 then .error (.OwnableInvalidOwner newOwner)
      else return { st with owner := newOwner }
  | .renounceOwnership sender => do
      onlyOwner st sender
      return { st with owner := 0 }

/-- What a call sets to a value of the owner's choice. -/
def Call.resets : Call → List (Bytes32 × UInt256)
  | .resetNonce _ identifier newNonce => [(identifier, newNonce)]
  | .batchResetNonces _ identifiers newNonces => identifiers.zip newNonces
  | _ => []

/-- What a call validates. -/
def Call.validates : Call → Option (Bytes32 × UInt256)
  | .check _ stage payload _ => ordered stage payload
  | .validateNonce identifier nonce => some (identifier, nonce)
  | _ => none

/-- What happens to an identifier: a message with a nonce is executed, or the owner resets it. -/
inductive Step where
  | executed (nonce : UInt256)
  | reset (newNonce : UInt256)
  deriving DecidableEq

/-- The nonce that comes after a history. -/
def next (history : List Step) : Nat :=
  match history.getLast? with
  | none => 0
  | some (.executed nonce) => nonce.toNat + 1
  | some (.reset newNonce) => newNonce.toNat

/-- Every executed nonce is the one that comes next. -/
def InOrder (history : List Step) : Prop :=
  ∀ before nonce after, history = before ++ .executed nonce :: after → nonce.toNat = next before

theorem next_executed (history : List Step) (nonce : UInt256) :
    next (history ++ [.executed nonce]) = nonce.toNat + 1 := by
  simp [next]

theorem next_reset (history : List Step) (newNonce : UInt256) :
    next (history ++ [.reset newNonce]) = newNonce.toNat := by
  simp [next]

theorem inOrder_nil : InOrder [] := by
  intro before nonce after split
  simp at split

/-- A history that ends with something else than an out-of-order execution. -/
theorem inOrder_append (history : List Step) (s : Step) (h : InOrder history)
    (last : ∀ nonce, s = .executed nonce → nonce.toNat = next history) :
    InOrder (history ++ [s]) := by
  intro before nonce after split
  rcases List.eq_nil_or_concat after with rfl | ⟨middle, final, rfl⟩
  · obtain ⟨rfl, same⟩ := List.append_inj' split rfl
    exact last nonce (List.cons.inj same).1
  · have shorter : history = before ++ .executed nonce :: middle := by
      have reassociated : history ++ [s] = (before ++ .executed nonce :: middle) ++ [final] := by
        rw [split]
        simp
      exact (List.append_inj' reassociated rfl).1
    exact h before nonce middle shorter

theorem inOrder_front (history : List Step) (s : Step) (h : InOrder (history ++ [s])) :
    InOrder history := by
  intro before nonce after split
  refine h before nonce (after ++ [s]) ?_
  rw [split]
  simp

/-- Without resets the nonces are 0, 1, 2 and so on. -/
theorem inOrder_range (nonces : List UInt256) (h : InOrder (nonces.map Step.executed)) :
    nonces.map BitVec.toNat = List.range nonces.length := by
  induction nonces using List.reverseRecOn with
  | nil => rfl
  | append_singleton nonces nonce ih =>
    rw [List.map_append, List.map_singleton] at h
    have front := ih (inOrder_front _ _ h)
    have last : nonce.toNat = next (nonces.map Step.executed) := h _ nonce [] rfl
    have counted : next (nonces.map Step.executed) = nonces.length := by
      rcases List.eq_nil_or_concat nonces with rfl | ⟨before, final, rfl⟩
      · rfl
      · rw [List.concat_eq_append, List.map_append, List.map_singleton, next_executed]
        rw [List.concat_eq_append, List.map_append, List.length_append, List.length_singleton,
          List.range_succ] at front
        have same := (List.append_inj' front rfl).2
        simp only [List.map_cons, List.map_nil, List.cons.injEq, and_true] at same
        rw [same]
        simp
    rw [List.map_append, front, List.length_append, List.length_singleton, List.range_succ,
      List.map_singleton, last, counted]

/-- The storage of the module, and for each identifier its history and whether a message with it is
between its check and its execution. -/
structure Record where
  state : State
  pending : Bytes32 → Bool
  history : Bytes32 → List Step

def Record.step (t : Record) (identifier : Bytes32) (s : Step) : Record :=
  { t with history := Function.update t.history identifier (t.history identifier ++ [s]) }

def Record.mark (t : Record) (identifier : Bytes32) (isPending : Bool) : Record :=
  { t with pending := Function.update t.pending identifier isPending }

/-- The bridge asks the module. -/
def serve (t : Record) (stage : ProcessingStage) (payload : Bytes) : ExtResult × Record :=
  match check t.state stage payload with
  | .error e => (.reverted e.encode, t)
  | .ok st =>
      match ordered stage payload with
      | none => (returnBool true, { t with state := st })
      | some (identifier, _) => (returnBool true, { t with state := st }.mark identifier true)

/-- The message is about to be executed. It counts when the module is among the pre-modules. -/
def execute (T : Address) (i : Bytes32) (w : World) (t : Record) : Record :=
  letI := w.bridge.preModules.decidableMem T
  if T ∈ w.bridge.preModules.values then
    match metadata (w.bridge.messageStates i).payload with
    | none => t
    | some (identifier, nonce) => (t.step identifier (.executed nonce)).mark identifier false
  else t

/-- Somebody else calls the module. -/
def own (c : Call) (t : Record) : Option Record :=
  match call t.state c with
  | .error _ => none
  | .ok st => some (c.resets.foldl (fun t p => t.step p.1 (.reset p.2)) { t with state := st })

def module (T : Address) : Module Record Call Empty where
  serve _ stage payload _ _ t := serve t stage payload
  restore _ _ t := t
  note
    | .executing i, w, t => execute T i w t
    | _, _, t => t
  own c _ t := own c t
  drift d := nomatch d

/-- The history is in order, and the module expects what comes next, or has already counted the
message that is pending. -/
structure Agrees (expected : UInt256) (history : List Step) (isPending : Bool) : Prop where
  inOrder : InOrder history
  counted : expected.toNat = next history + if isPending then 1 else 0

def Counts (st : World × Record) : Prop :=
  ∀ x, Agrees (st.2.state.expectedNonces x) (st.2.history x) (st.2.pending x)

/-- Nothing is pending that was not, and nothing has happened to what is. -/
structure Untouched (e st : World × Record) : Prop where
  pending : st.2.pending = e.2.pending
  history : ∀ x, e.2.pending x = true → st.2.history x = e.2.history x

structure Respects (e st : World × Record) : Prop where
  untouched : Untouched e st
  keeps : Keeps e.1 st.1

/-- One message of the identifier is pending in addition, and the module has counted it. -/
structure Claims (x : Bytes32) (nonce : UInt256) (e st : World × Record) : Prop where
  pending : st.2.pending = Function.update e.2.pending x true
  history : ∀ y, e.2.pending y = true → st.2.history y = e.2.history y
  counted : (st.2.state.expectedNonces x).toNat = nonce.toNat + 1

/-- No message with the identifier of this payload is pending. -/
def Free (payload : Bytes) (st : World × Record) : Prop :=
  ∀ p, metadata payload = some p → st.2.pending p.1 = false

/-- The message can be handled only while no other with its identifier is pending. -/
def Ready (i : Bytes32) (st : World × Record) : Prop :=
  (st.1.stage i ≠ .NotStarted ∧
      (st.1.stage i = .PreExecution → Free (st.1.bridge.messageStates i).payload st)) ∨
    ∀ x, st.2.pending x = false

/-- Nobody but the bridge counts a nonce, nobody resets a pending identifier, and no call sets out
to handle another message with it. -/
def Permits (st : World × Record) : Entry ⊕ Call → Prop
  | .inl (.bridge _ (.handleMessage i)) =>
      st.1.stage i = .PreExecution → Free (st.1.bridge.messageStates i).payload st
  | .inl (.bridge _ (.batchHandleMessage is)) => ∀ i ∈ is, Ready i st
  | .inl (.bridge _ (.initializeAndHandleMessage i _ payload _ _ _)) =>
      st.1.stage i = .NotStarted → Free payload st
  | .inl _ => True
  | .inr c =>
      (∀ p, c.validates = some p → (validateNonce st.2.state p.1 p.2).isOk = false) ∧
        ((call st.2.state c).isOk = true → ∀ p ∈ c.resets, st.2.pending p.1 = false)

section Runs

variable (T : Address) (D : Deployment)

/-- The module keeps its place among the pre-modules. -/
abbrev Stands (st st' : World × Record) : Prop :=
  SamePlace T st.1.bridge.preModules st'.1.bridge.preModules

/-- During the checks and the unwrapping of an ordered message the module keeps its place among
the pre-modules. -/
def PlaceStays : ExtCall → World × Record → ExtResult → World × Record → Prop
  | .check _ _ .PreExecution payload _, st, _, st' => metadata payload = none ∨ Stands T st st'
  | .withdraw i _, st, _, st' =>
      metadata (st.1.bridge.messageStates i).payload = none ∨ Stands T st st'
  | _, _, _, _ => True

/-- The condition on a run. -/
def Orderly (m : Machine (World × Record) ExtCall ExtResult SyndDB.Contracts.Error (Entry ⊕ Call))
    (e : Event ExtResult (Entry ⊕ Call) (Drift ⊕ Empty)) : Prop :=
  Meets (extended D ((module T).install T)) (PlaceStays T) m e ∧
    match e with
    | .enter o => Permits m.store o
    | _ => True

/-- What is known of an ordered message while its pre-checks run. -/
structure Checking (x : Bytes32) (nonce : UInt256) (total : Nat) (agreed : List Address)
    (e st : World × Record) : Prop where
  free : e.2.pending x = false
  passing : Passing T st.1.bridge.preModules total agreed
  claims : T ∈ agreed → Claims x nonce e st
  untouched : T ∉ agreed → Untouched e st

/-- What is known of it after the pre-checks. -/
structure Cleared (x : Bytes32) (nonce : UInt256) (e st : World × Record) : Prop where
  free : e.2.pending x = false
  claims : T ∈ st.1.bridge.preModules.values → Claims x nonce e st
  untouched : T ∉ st.1.bridge.preModules.values → Untouched e st

/-- What is known of a message with this payload at each point of its session. -/
def Status (payload : Bytes) (e : World × Record) : Point → World × Record → Prop
  | .checking _ total agreed, st =>
      match metadata payload with
      | none => Untouched e st
      | some (x, nonce) => Checking T x nonce total agreed e st
  | .cleared, st =>
      match metadata payload with
      | none => Untouched e st
      | some (x, nonce) => Cleared T x nonce e st
  | _, st => Untouched e st

structure Known (i : Bytes32) (p : Point) (e st : World × Record) : Prop where
  started : st.1.stage i ≠ .NotStarted
  keeps : Keeps e.1 st.1
  argument : ∀ payload total agreed, p = .checking payload total agreed →
    payload = (st.1.bridge.messageStates i).payload
  status : Status T (st.1.bridge.messageStates i).payload e p st

theorem untouched_refl (st : World × Record) : Untouched st st := ⟨rfl, fun _ _ => rfl⟩

theorem untouched_trans (a b c : World × Record) (h : Untouched a b) (h' : Untouched b c) :
    Untouched a c := by
  refine ⟨h'.pending.trans h.pending, ?_⟩
  intro x hx
  rw [h'.history x (by rw [h.pending]; exact hx), h.history x hx]

theorem respects_refl (st : World × Record) : Respects st st :=
  ⟨untouched_refl st, keeps_states st.1 st.1 rfl⟩

theorem respects_trans (a b c : World × Record) (h : Respects a b) (h' : Respects b c) :
    Respects a c :=
  ⟨untouched_trans a b c h.untouched h'.untouched, keeps_trans a.1 b.1 c.1 h.keeps h'.keeps⟩

theorem respects_states (w w' : World) (t : Record)
    (states : w'.bridge.messageStates = w.bridge.messageStates) : Respects (w, t) (w', t) :=
  ⟨⟨rfl, fun _ _ => rfl⟩, keeps_states w w' states⟩

/-- What is claimed stays claimed while others run. -/
theorem claims_untouched (x : Bytes32) (nonce : UInt256) (e st st' : World × Record)
    (h : Claims x nonce e st) (counts : Counts st) (counts' : Counts st')
    (untouched : Untouched st st') : Claims x nonce e st' := by
  have claimed : st.2.pending x = true := by
    rw [h.pending, Function.update_self]
  refine ⟨untouched.pending.trans h.pending, ?_, ?_⟩
  · intro y hy
    have pending : st.2.pending y = true := by
      rw [h.pending]
      by_cases same : y = x
      · rw [same, Function.update_self]
      · rw [Function.update_of_ne same]
        exact hy
    rw [untouched.history y pending, h.history y hy]
  · have before := (counts x).counted
    have after := (counts' x).counted
    rw [untouched.pending, untouched.history x claimed, claimed] at after
    rw [claimed] at before
    rw [after, ← before]
    exact h.counted

theorem checking_respects (x : Bytes32) (nonce : UInt256) (total : Nat) (agreed : List Address)
    (e st st' : World × Record) (h : Checking T x nonce total agreed e st) (counts : Counts st)
    (counts' : Counts st') (respects : Respects st st') (same : Stands T st st') :
    Checking T x nonce total agreed e st' where
  free := h.free
  passing := passing_place T _ _ total agreed h.passing same
  claims := fun asked =>
    claims_untouched x nonce e st st' (h.claims asked) counts counts' respects.untouched
  untouched := fun fresh => untouched_trans e st st' (h.untouched fresh) respects.untouched

theorem cleared_respects (x : Bytes32) (nonce : UInt256) (e st st' : World × Record)
    (h : Cleared T x nonce e st) (counts : Counts st) (counts' : Counts st')
    (respects : Respects st st') (same : Stands T st st') : Cleared T x nonce e st' where
  free := h.free
  claims := fun active => claims_untouched x nonce e st st'
    (h.claims ((mem_place T _ _ same).mp active)) counts counts' respects.untouched
  untouched := fun absent => untouched_trans e st st'
    (h.untouched fun active => absent ((mem_place T _ _ same).mpr active)) respects.untouched

/-- The points at which the module keeps its place. -/
def Point.early : Point → Bool
  | .checking .. | .cleared => true
  | _ => false

theorem status_respects (payload : Bytes) (p : Point) (e st st' : World × Record)
    (h : Status T payload e p st) (counts : Counts st) (counts' : Counts st')
    (respects : Respects st st')
    (same : Point.early p = true → metadata payload = none ∨ Stands T st st') :
    Status T payload e p st' := by
  have plain (untouched : Untouched e st) : Untouched e st' :=
    untouched_trans e st st' untouched respects.untouched
  cases p with
  | checking bytes total agreed =>
    cases hm : metadata payload with
    | none =>
      simp only [Status, hm] at h ⊢
      exact plain h
    | some q =>
      simp only [Status, hm] at h ⊢
      have place := (same rfl).resolve_left (by rw [hm]; simp)
      exact checking_respects T _ _ total agreed e st st' h counts counts' respects place
  | cleared =>
    cases hm : metadata payload with
    | none =>
      simp only [Status, hm] at h ⊢
      exact plain h
    | some q =>
      simp only [Status, hm] at h ⊢
      have place := (same rfl).resolve_left (by rw [hm]; simp)
      exact cleared_respects T _ _ e st st' h counts counts' respects place
  | executing => exact plain h
  | calling => exact plain h
  | called => exact plain h
  | concluding bytes total agreed => exact plain h

/-- What is known of a session after another call has returned. -/
theorem known_respects (i : Bytes32) (p : Point) (e st st' : World × Record)
    (h : Known T i p e st) (counts : Counts st) (counts' : Counts st') (respects : Respects st st')
    (same : Point.early p = true → metadata (st.1.bridge.messageStates i).payload = none ∨
      Stands T st st') : Known T i p e st' := by
  obtain ⟨started, _, payload⟩ := respects.keeps i h.started
  refine ⟨started, keeps_trans e.1 st.1 st'.1 h.keeps respects.keeps, ?_, ?_⟩
  · intro bytes total agreed hp
    rw [payload]
    exact h.argument bytes total agreed hp
  · rw [payload]
    exact status_respects T _ p e st st' h.status counts counts' respects same

/-- A reset, with its mark in the history. -/
def Record.reset (t : Record) (p : Bytes32 × UInt256) : Record :=
  { t with state := setNonce t.state p }.step p.1 (.reset p.2)

theorem foldl_reset (resets : List (Bytes32 × UInt256)) (t : Record) :
    resets.foldl (fun t p => t.step p.1 (.reset p.2))
      { t with state := resets.foldl setNonce t.state } = resets.foldl Record.reset t := by
  induction resets generalizing t with
  | nil => rfl
  | cons p resets ih => exact ih (t.reset p)

/-- A call that counts no nonce resets some, and may change the owner. -/
theorem call_resets (st st' : State) (c : Call) (h : call st c = .ok st')
    (uncounted : ∀ p, c.validates = some p → (validateNonce st p.1 p.2).isOk = false) :
    ∃ owner, st' = c.resets.foldl setNonce { st with owner := owner } := by
  have refused (p : Bytes32 × UInt256) (hp : c.validates = some p)
      (ok : validateNonce st p.1 p.2 = .ok st') : False := by
    have failed := uncounted p hp
    rw [ok] at failed
    cases failed
  have authorized {m : Except Error State} (sender : Address)
      (ok : (onlyOwner st sender >>= fun _ => m) = .ok st') : m = .ok st' := by
    unfold onlyOwner at ok
    split at ok
    · exact ok
    · cases ok
  cases c with
  | check i stage payload signature =>
    simp only [call, check] at h
    split at h
    · cases h
      exact ⟨st.owner, rfl⟩
    · rename_i identifier nonce hp
      exact (refused (identifier, nonce) hp h).elim
  | validateNonce identifier nonce => exact (refused (identifier, nonce) rfl h).elim
  | resetNonce sender identifier newNonce =>
    cases authorized sender h
    exact ⟨st.owner, rfl⟩
  | batchResetNonces sender identifiers newNonces =>
    have ok := authorized sender h
    split at ok
    · cases ok
      exact ⟨st.owner, rfl⟩
    · cases ok
  | transferOwnership sender newOwner =>
    have ok := authorized sender h
    split at ok
    · cases ok
    · cases ok
      exact ⟨newOwner, rfl⟩
  | renounceOwnership sender =>
    cases authorized sender h
    exact ⟨0, rfl⟩

theorem agrees_reset (expected newNonce : UInt256) (history : List Step) (isPending : Bool)
    (h : Agrees expected history isPending) (idle : isPending = false) :
    Agrees newNonce (history ++ [.reset newNonce]) isPending := by
  refine ⟨inOrder_append _ _ h.inOrder (by rintro nonce ⟨⟩), ?_⟩
  rw [next_reset, idle]
  rfl

/-- A reset of an identifier that is not pending. -/
theorem reset_respects (w : World) (t : Record) (p : Bytes32 × UInt256) (h : Counts (w, t))
    (idle : t.pending p.1 = false) :
    Counts (w, t.reset p) ∧ Untouched (w, t) (w, t.reset p) := by
  refine ⟨?_, rfl, ?_⟩
  · intro x
    by_cases same : x = p.1
    · subst same
      simp only [Record.reset, Record.step, setNonce, Function.update_self]
      exact agrees_reset _ _ _ _ (h p.1) idle
    · simp only [Record.reset, Record.step, setNonce, Function.update_of_ne same]
      exact h x
  · intro x hx
    have other : x ≠ p.1 := by
      rintro rfl
      rw [idle] at hx
      cases hx
    simp only [Record.reset, Record.step, Function.update_of_ne other]

theorem resets_respect (w : World) (resets : List (Bytes32 × UInt256)) (t : Record)
    (h : Counts (w, t)) (idle : ∀ p ∈ resets, t.pending p.1 = false) :
    Counts (w, resets.foldl Record.reset t) ∧
      Untouched (w, t) (w, resets.foldl Record.reset t) := by
  induction resets generalizing t with
  | nil => exact ⟨h, untouched_refl _⟩
  | cons p resets ih =>
    obtain ⟨counts, untouched⟩ := reset_respects w t p h (idle p (by simp))
    obtain ⟨counts', untouched'⟩ := ih (t.reset p) counts fun q hq => idle q (by simp [hq])
    exact ⟨counts', untouched_trans _ _ _ untouched untouched'⟩

/-- A permitted call of somebody else. -/
theorem own_respects (w : World) (t t' : Record) (c : Call) (h : Counts (w, t))
    (permitted : Permits (w, t) (.inr c)) (called : own c t = some t') :
    Counts (w, t') ∧ Respects (w, t) (w, t') := by
  obtain ⟨uncounted, idle⟩ := permitted
  unfold own at called
  split at called
  · cases called
  · rename_i st hc
    obtain ⟨owner, rfl⟩ := call_resets t.state st c hc uncounted
    have resets := idle (by rw [hc]; rfl)
    cases called
    have folded := foldl_reset c.resets { t with state := { t.state with owner := owner } }
    simp only at folded
    rw [folded]
    obtain ⟨counts, untouched⟩ := resets_respect w c.resets
      { t with state := { t.state with owner := owner } } h resets
    exact ⟨counts, ⟨⟨untouched.pending, untouched.history⟩, keeps_states w w rfl⟩⟩

theorem agrees_checked (expected expected' : UInt256) (history : List Step) (isPending : Bool)
    (h : Agrees expected history isPending) (idle : isPending = false)
    (added : checkedAdd expected 1 = some expected') : Agrees expected' history true := by
  have counted := h.counted
  rw [idle] at counted
  refine ⟨h.inOrder, ?_⟩
  rw [checkedAdd_some expected 1 expected' added, counted]
  rfl

theorem agrees_executed (expected nonce : UInt256) (history : List Step) (isPending : Bool)
    (h : Agrees expected history isPending) (pending : isPending = true)
    (counted : expected.toNat = nonce.toNat + 1) :
    Agrees expected (history ++ [.executed nonce]) false := by
  have before := h.counted
  rw [pending, if_pos rfl, counted] at before
  have last : nonce.toNat = next history := Nat.succ.inj before
  refine ⟨inOrder_append _ _ h.inOrder ?_, ?_⟩
  · rintro n ⟨⟩
    exact last
  · rw [next_executed]
    exact counted

/-- The module counts the nonce of a payload that it checks for the bridge. -/
theorem counts_checked (w : World) (t : Record) (x : Bytes32) (expected : UInt256)
    (h : Counts (w, t)) (idle : t.pending x = false)
    (added : checkedAdd (t.state.expectedNonces x) 1 = some expected) :
    Counts (w, { t with state := setNonce t.state (x, expected) }.mark x true) := by
  intro y
  by_cases same : y = x
  · subst same
    simp only [Record.mark, setNonce, Function.update_self]
    exact agrees_checked _ _ _ _ (h y) idle added
  · simp only [Record.mark, setNonce, Function.update_of_ne same]
    exact h y

/-- The message is executed, and is the next one. -/
theorem counts_executed (w : World) (t : Record) (x : Bytes32) (nonce : UInt256)
    (e : World × Record) (h : Counts (w, t)) (free : e.2.pending x = false)
    (claims : Claims x nonce e (w, t)) :
    Counts (w, (t.step x (.executed nonce)).mark x false) ∧
      Untouched e (w, (t.step x (.executed nonce)).mark x false) := by
  have claimed : t.pending x = true := by
    have pending := claims.pending
    simp only at pending
    rw [pending, Function.update_self]
  refine ⟨?_, ?_, ?_⟩
  · intro y
    by_cases same : y = x
    · subst same
      simp only [Record.mark, Record.step, Function.update_self]
      exact agrees_executed _ nonce _ _ (h y) claimed claims.counted
    · simp only [Record.mark, Record.step, Function.update_of_ne same]
      exact h y
  · change Function.update t.pending x false = _
    have pending := claims.pending
    simp only at pending
    rw [pending, Function.update_idem, ← free, Function.update_eq_self]
  · intro y hy
    have other : y ≠ x := by
      rintro rfl
      rw [free] at hy
      cases hy
    simp only [Record.mark, Record.step, Function.update_of_ne other]
    exact claims.history y hy

/-- What a check of the module has found out when it passes. -/
theorem serve_passed (t : Record) (payload : Bytes) (data : Bytes)
    (h : (serve t .PreExecution payload).1 = .returned data) :
    match metadata payload with
    | none => (serve t .PreExecution payload).2 = t
    | some (x, nonce) => t.state.expectedNonces x = nonce ∧
        ∃ expected, checkedAdd nonce 1 = some expected ∧
          (serve t .PreExecution payload).2 =
            { t with state := setNonce t.state (x, expected) }.mark x true := by
  have stage : ordered .PreExecution payload = metadata payload := by
    rw [ordered, if_neg (by simp)]
  cases hm : metadata payload with
  | none =>
    simp only [serve, check, stage, hm]
  | some p =>
    obtain ⟨x, nonce⟩ := p
    simp only [serve, check, stage, hm] at h ⊢
    by_cases same : nonce = t.state.expectedNonces x
    · cases added : checkedAdd nonce 1 with
      | none =>
        simp only [validateNonce, ← same, added, ne_eq, not_true_eq_false, if_false] at h
        cases h
      | some expected =>
        simp only [validateNonce, ← same, added, ne_eq, not_true_eq_false, if_false]
        exact ⟨trivial, expected, rfl, rfl⟩
    · simp only [validateNonce, ne_eq, same, not_false_eq_true, if_true] at h
      cases h

/-- The module is asked. -/
theorem known_checked (i : Bytes32) (payload : Bytes) (total : Nat) (agreed : List Address)
    (e st : World × Record) (data : Bytes) (counts : Counts st)
    (here : st.1.bridge.preModules.atIndex agreed.length = some T)
    (h : Known T i (.checking payload total agreed) e st)
    (passed : (serve st.2 .PreExecution payload).1 = .returned data) :
    Sound Counts (Known T i (.checking payload total (agreed ++ [T])) e)
      (st.1, (serve st.2 .PreExecution payload).2) := by
  have outcome := serve_passed st.2 payload data passed
  have argument := h.argument payload total agreed rfl
  have status := h.status
  rw [← argument] at status
  have known (t : Record) (reached : Status T payload e (.checking payload total (agreed ++ [T]))
      (st.1, t)) : Known T i (.checking payload total (agreed ++ [T])) e (st.1, t) := by
    refine ⟨h.started, h.keeps, ?_, ?_⟩
    · rintro bytes total agreed ⟨⟩
      exact argument
    · change Status T (st.1.bridge.messageStates i).payload e _ _
      rw [← argument]
      exact reached
  cases hm : metadata payload with
  | none =>
    simp only [hm] at outcome
    rw [outcome]
    refine ⟨counts, known st.2 ?_⟩
    simp only [Status, hm] at status ⊢
    exact status
  | some p =>
    obtain ⟨x, nonce⟩ := p
    simp only [hm] at outcome
    obtain ⟨matched, expected, added, moved⟩ := outcome
    simp only [Status, hm] at status
    have fresh : T ∉ agreed := passing_fresh T _ total agreed status.passing here
    have untouched := status.untouched fresh
    have idle : st.2.pending x = false := by
      rw [untouched.pending]
      exact status.free
    rw [moved]
    rw [← matched] at added
    refine ⟨counts_checked st.1 st.2 x expected counts idle added, known _ ?_⟩
    have asked : T ∈ agreed ++ [T] := by simp
    simp only [Status, hm]
    refine ⟨status.free, passing_next T _ total agreed T status.passing here, ?_, ?_⟩
    · intro _
      refine ⟨?_, untouched.history, ?_⟩
      · change Function.update st.2.pending x true = _
        rw [untouched.pending]
      · simp only [Record.mark, setNonce, Function.update_self]
        rw [checkedAdd_some _ 1 expected added, matched]
        rfl
    · exact fun absent => absurd asked absent

/-- Another module is asked. -/
theorem known_other (i : Bytes32) (payload : Bytes) (total : Nat) (agreed : List Address)
    (m : Address) (other : m ≠ T) (e st : World × Record)
    (found : st.1.bridge.preModules.atIndex agreed.length = some m)
    (h : Known T i (.checking payload total agreed) e st) :
    Known T i (.checking payload total (agreed ++ [m])) e st := by
  have argument := h.argument payload total agreed rfl
  have same := mem_asked T m other agreed
  refine ⟨h.started, h.keeps, ?_, ?_⟩
  · rintro bytes total agreed ⟨⟩
    exact argument
  · have status := h.status
    cases hm : metadata (st.1.bridge.messageStates i).payload with
    | none =>
      simp only [Status, hm] at status ⊢
      exact status
    | some p =>
      simp only [Status, hm] at status ⊢
      exact ⟨status.free, passing_next T _ total agreed m status.passing found,
        fun asked => status.claims (same.mp asked),
        fun absent => status.untouched fun asked => absent (same.mpr asked)⟩

theorem survives_check (i : Bytes32) (payload : Bytes) (signature : SequencerSignature)
    (total : Nat) (agreed : List Address) (m : Address) (e : World × Record) :
    Survives ((module T).install T) Counts Respects (PlaceStays T)
      (.check m i .PreExecution payload signature) (fun data => decodeBool data = some true)
      (fun st => st.1.bridge.preModules.atIndex agreed.length = some m ∧
        Known T i (.checking payload total agreed) e st)
      (Known T i (.checking payload total (agreed ++ [m])) e) := by
  by_cases own : m = T
  · subst own
    refine survives_served (fun st => serve st.2 .PreExecution payload)
      (fun st => congrFun ((module m).ext_own m i .PreExecution payload signature) st) ?_
    intro st data counts here returned _
    exact known_checked m i payload total agreed e st data counts here.1 here.2 returned
  · refine survives_call (fun _ t => t)
      (fun st => congrFun ((module T).ext_other T m own i .PreExecution payload signature) st) ?_
    intro st data st' counts here counts' respects stays _
    have asked := known_other T i payload total agreed m own e st here.1 here.2
    refine ⟨counts', known_respects T i _ e st st' asked counts counts' respects fun _ => ?_⟩
    rw [← here.2.argument payload total agreed rfl]
    exact stays

/-- The message goes on from one point to another at which nothing is pending for it. -/
theorem known_moved (i : Bytes32) (p p' : Point) (e st st' : World × Record)
    (h : Known T i p e st) (untouched : Status T (st.1.bridge.messageStates i).payload e p st →
      Untouched e st) (respects : Respects st st')
    (late : ∀ payload, Untouched e st' → Status T payload e p' st')
    (hp : ∀ payload total agreed, p' ≠ .checking payload total agreed) :
    Known T i p' e st' where
  started := (respects.keeps i h.started).1
  keeps := keeps_trans e.1 st.1 st'.1 h.keeps respects.keeps
  argument := fun payload total agreed same => absurd same (hp payload total agreed)
  status := late _ (untouched_trans e st st' (untouched h.status) respects.untouched)

theorem known_cleared (i : Bytes32) (payload : Bytes) (agreed : List Address) (e : World × Record)
    (w : World) (t : Record) (h : Known T i (.checking payload agreed.length agreed) e (w, t)) :
    Known T i .cleared e (w.staged i .Executing, t) := by
  have keeps : Keeps w (w.staged i .Executing) := keeps_staged i .Executing w (by decide)
  obtain ⟨started, _, same⟩ := keeps i h.started
  refine ⟨started, keeps_trans _ _ _ h.keeps keeps, (by rintro _ _ _ ⟨⟩), ?_⟩
  rw [same]
  have status := h.status
  cases hm : metadata (w.bridge.messageStates i).payload with
  | none =>
    simp only [Status, hm] at status ⊢
    exact ⟨status.pending, status.history⟩
  | some p =>
    simp only [Status, hm] at status ⊢
    have all := passing_all T _ agreed status.passing
    refine ⟨status.free, fun active => ?_, fun absent => ?_⟩
    · have claims := status.claims (all.mpr active)
      exact ⟨claims.pending, claims.history, claims.counted⟩
    · have untouched := status.untouched fun asked => absent (all.mp asked)
      exact ⟨untouched.pending, untouched.history⟩

theorem known_executing (i : Bytes32) (e : World × Record) (w : World) (t : Record)
    (counts : Counts (w, t)) (h : Known T i .cleared e (w, t)) :
    Sound Counts (Known T i .executing e) (w, execute T i w t) := by
  have known (t' : Record) (untouched : Untouched e (w, t')) : Known T i .executing e (w, t') := by
    refine ⟨h.started, ?_, (by rintro _ _ _ ⟨⟩), untouched⟩
    exact keeps_trans _ _ _ h.keeps (keeps_states w w rfl)
  have status := h.status
  cases hm : metadata (w.bridge.messageStates i).payload with
  | none =>
    have idle : execute T i w t = t := by
      unfold execute
      split
      · rw [hm]
      · rfl
    simp only [Status, hm] at status
    rw [idle]
    exact ⟨counts, known t status⟩
  | some p =>
    obtain ⟨x, nonce⟩ := p
    simp only [Status, hm] at status
    by_cases active : T ∈ w.bridge.preModules.values
    · have noted : execute T i w t = (t.step x (.executed nonce)).mark x false := by
        rw [execute, if_pos active, hm]
      rw [noted]
      obtain ⟨counts', untouched⟩ :=
        counts_executed w t x nonce e counts status.free (status.claims active)
      exact ⟨counts', known _ untouched⟩
    · rw [execute, if_neg active]
      exact ⟨counts, known t (status.untouched active)⟩

theorem ready_respects (i : Bytes32) (st st' : World × Record) (respects : Respects st st')
    (h : Ready i st) : Ready i st' := by
  rcases h with ⟨started, free⟩ | idle
  · obtain ⟨started', waiting, payload⟩ := respects.keeps i started
    refine .inl ⟨started', fun waits p hp => ?_⟩
    rw [payload] at hp
    rw [respects.untouched.pending]
    exact free (waiting waits) p hp
  · right
    intro x
    rw [respects.untouched.pending]
    exact idle x

/-- A call at a point at which nothing is pending for the message. -/
theorem survives_late (c : ExtCall) (accepted : Bytes → Prop) (i : Bytes32) (p p' : Point)
    (e : World × Record) (ψ : World × Record → Prop)
    (hx : ∀ st, ((module T).install T).ext c st = .call c st fun r st' => .ret r (st'.1, st'.2))
    (hψ : ∀ st, ψ st → Known T i p e st)
    (untouched : ∀ payload st, Status T payload e p st → Untouched e st)
    (late : ∀ payload st, Untouched e st → Status T payload e p' st)
    (hp : ∀ payload total agreed, p' ≠ .checking payload total agreed) :
    Survives ((module T).install T) Counts Respects (PlaceStays T) c accepted ψ
      (Known T i p' e) := by
  refine survives_call (fun _ t => t) hx ?_
  intro st data st' counts here counts' respects _ _
  exact ⟨counts', known_moved T i p p' e st st' (hψ st here) (untouched _ st) respects
    (fun payload => late payload st') hp⟩

theorem drift_respects (d : Drift ⊕ Empty) (st : World × Record) (counts : Counts st) :
    Counts (((module T).install T).drift d st) ∧
      Respects st (((module T).install T).drift d st) := by
  cases d with
  | inl d =>
    exact ⟨counts, respects_states st.1 _ st.2
      (congrArg BridgeState.messageStates (drift_bridge d st.1))⟩
  | inr d => cases d

theorem idle_respects (c : ExtCall) (hc : Idle c) (b st : World × Record) (counts : Counts st) :
    Carries Counts Respects (PlaceStays T) (fun _ _ st' => Counts st' ∧ Respects st st') b
      (((module T).install T).ext c st) := by
  rw [Module.install_idle _ _ c hc]
  exact ⟨counts, fun r st' answered => ⟨answered.1, answered.2.1⟩⟩

/-- Moves that leave the bridge alone change nothing of what is known. -/
theorem known_same (e : World × Record) (i : Bytes32) (p : Point) (w w' : World) (t : Record)
    (same : SameBridge w w') (counts : Counts (w, t)) (known : Known T i p e (w, t)) :
    Known T i p e (w', t) := by
  refine known_respects T i p e _ _ known counts counts ?_ fun _ => .inr ?_
  · exact respects_states w w' t (by rw [same.bridge])
  · intro j
    rw [same.bridge]

/-- Nothing is pending for a message that the call itself has just initialized. -/
theorem ready_arrived (store st : World × Record) (i : Bytes32) (payload : Bytes)
    (new : store.1.stage i = .NotStarted)
    (free : store.1.stage i = .NotStarted → Free payload store) (respects : Respects store st)
    (waiting : st.1.stage i = .PreExecution)
    (same : (st.1.bridge.messageStates i).payload = payload) : Ready i st := by
  refine .inl ⟨by rw [waiting]; decide, fun _ q hq => ?_⟩
  rw [respects.untouched.pending]
  exact free new q (by rw [← same]; exact hq)

theorem known_starting (i : Bytes32) (w : World) (t : Record) (waiting : w.stage i = .PreExecution)
    (ready : Ready i (w, t)) :
    Known T i (.checking (w.bridge.messageStates i).payload w.bridge.preModules.length []) (w, t)
      (w, t) := by
  have free : Free (w.bridge.messageStates i).payload (w, t) := by
    rcases ready with ⟨_, free⟩ | idle
    · exact free waiting
    · exact fun p _ => idle p.1
  refine ⟨?_, keeps_states w w rfl, ?_, ?_⟩
  · rw [waiting]
    decide
  · rintro bytes total agreed ⟨⟩
    rfl
  · cases hm : metadata (w.bridge.messageStates i).payload with
    | none =>
      simp only [Status, hm]
      exact untouched_refl _
    | some p =>
      simp only [Status, hm]
      exact ⟨free p hm, passing_start T _, fun asked => absurd asked List.not_mem_nil,
        fun _ => untouched_refl _⟩

theorem survives_withdraw (e : World × Record) (i : Bytes32) (amount : UInt256) :
    Survives ((module T).install T) Counts Respects (PlaceStays T) (.withdraw i amount)
      (fun _ => True) (Known T i .cleared e) (Known T i .cleared e) := by
  refine survives_call (fun _ t => t) (fun _ => rfl) ?_
  intro st data st' counts here counts' respects stays _
  exact ⟨counts', known_respects T i .cleared e st st' here counts counts' respects fun _ => stays⟩

/-- A post-check, of the module itself or of another one. -/
theorem survives_post (e : World × Record) (i : Bytes32) (payload : Bytes)
    (signature : SequencerSignature) (total : Nat) (agreed : List Address) (m : Address) :
    Survives ((module T).install T) Counts Respects (PlaceStays T)
      (.check m i .PostExecution payload signature) (fun data => decodeBool data = some true)
      (fun st => st.1.bridge.postModules.atIndex agreed.length = some m ∧
        Known T i (.concluding payload total agreed) e st)
      (Known T i (.concluding payload total (agreed ++ [m])) e) := by
  by_cases own : m = T
  · subst own
    refine survives_served (fun st => serve st.2 .PostExecution payload)
      (fun st => congrFun ((module m).ext_own m i .PostExecution payload signature) st) ?_
    intro st data counts here _ _
    have unchanged : (serve st.2 .PostExecution payload).2 = st.2 := rfl
    rw [unchanged]
    exact ⟨counts, here.2.started, here.2.keeps, (by rintro _ _ _ ⟨⟩), here.2.status⟩
  · exact survives_late T _ _ i (.concluding payload total agreed) _ e _
      (fun st => congrFun ((module T).ext_other T m own i .PostExecution payload signature) st)
      (fun _ h => h.2) (fun _ _ h => h) (fun _ _ h => h) (by rintro _ _ _ ⟨⟩)

theorem obligations :
    Obligations D ((module T).install T) Counts Respects (PlaceStays T) (Orderly T D) Ready
      (Known T) where
  refl := respects_refl
  trans := respects_trans
  meets := fun _ _ h => h.1
  drift := fun m d _ counts => drift_respects T d m.store counts
  own := fun m c t orderly called counts =>
    own_respects m.store.1 m.store.2 t c counts orderly.2 called
  administered := fun w w' t moved counts => ⟨counts, respects_states w w' t moved.states⟩
  idle := fun c hc b st counts => idle_respects T c hc b st counts
  initialized := fun w t i target payload signature amount sender signer counts new _ _ _ =>
    ⟨counts, ⟨rfl, fun _ _ => rfl⟩,
      keeps_initiated w i target payload signature amount sender signer new⟩
  kept := fun e i p w w' t same counts known => known_same T e i p w w' t same counts known
  stays := ready_respects
  handled := by
    intro m sender i orderly _ waiting
    exact .inl ⟨by rw [waiting]; decide, orderly.2⟩
  batched := fun m sender is orderly _ => orderly.2
  arrived := fun m sender i t p s vs a orderly _ new st respects waiting payload =>
    ready_arrived m.store st i p new orderly.2 respects waiting payload
  starting := fun i w t counts waiting ready => ⟨counts, known_starting T i w t waiting ready⟩
  preCheck := fun e i payload signature total agreed m =>
    survives_check T i payload signature total agreed m e
  cleared := fun e i payload agreed w t counts known =>
    ⟨counts, known_cleared T i payload agreed e w t known⟩
  withdraw := fun e i amount => survives_withdraw T e i amount
  executing := fun e i w t counts known => known_executing T i e w t counts known
  calling := by
    intro e i w t counts known
    refine ⟨counts, known_moved T i .executing .calling e (w, t) _ known (fun h => h) ?_
      (fun _ h => h) (by rintro _ _ _ ⟨⟩)⟩
    exact respects_states w (w.calling i) t rfl
  target := fun e i t v p => survives_late T _ _ i .calling .called e _ (fun _ => rfl)
    (fun _ h => h) (fun _ _ h => h) (fun _ _ h => h) (by rintro _ _ _ ⟨⟩)
  ownTarget := by
    intro e i w keyManager t _ known
    refine known_moved T i .calling .called e (w, t) _ known (fun h => h) ?_ (fun _ h => h)
      (by rintro _ _ _ ⟨⟩)
    exact respects_states w { w with keyManager := keyManager } t rfl
  answered := by
    intro e i data w t counts known
    refine ⟨counts, known_moved T i .called _ e (w, t) _ known (fun h => h) ?_ (fun _ h => h)
      (by rintro _ _ _ ⟨⟩)⟩
    exact ⟨⟨rfl, fun _ _ => rfl⟩, keeps_staged i .PostExecution w (by decide)⟩
  postCheck := fun e i payload signature total agreed m =>
    survives_post T e i payload signature total agreed m
  completed := by
    intro e i payload agreed w t counts known
    have moved := keeps_staged i .Completed w (by decide)
    have untouched : Untouched e (w, t) := known.status
    exact ⟨counts, ⟨untouched.pending, untouched.history⟩, keeps_trans _ _ _ known.keeps moved⟩

/-- In every run in which only the bridge counts nonces, and no identifier is counted, reset or
handled twice while one message with it is between its check and its execution: the nonces of the
executed messages come in order, and without resets they are 0, 1, 2 and so on. -/
theorem executed_in_order (owner verifier moduleOwner : Address) (timestamp : UInt256)
    (views : Views) (es : List (Event ExtResult (Entry ⊕ Call) (Drift ⊕ Empty)))
    (m : Machine (World × Record) ExtCall ExtResult SyndDB.Contracts.Error (Entry ⊕ Call))
    (hm : run (extended D ((module T).install T)) (boot (genesis D owner verifier timestamp views,
      ⟨⟨moduleOwner, fun _ => 0⟩, fun _ => false, fun _ => []⟩)) es = some m)
    (orderly : Throughout (extended D ((module T).install T)) (Orderly T D)
      (boot (genesis D owner verifier timestamp views,
        ⟨⟨moduleOwner, fun _ => 0⟩, fun _ => false, fun _ => []⟩)) es) :
    ∀ st, st = m.store ∨ st = m.committed → ∀ x, InOrder (st.2.history x) ∧
      ∀ nonces : List UInt256, st.2.history x = nonces.map Step.executed →
        nonces.map BitVec.toNat = List.range nonces.length := by
  have start : Counts (genesis D owner verifier timestamp views,
      ⟨⟨moduleOwner, fun _ => 0⟩, fun _ => false, fun _ => []⟩) :=
    fun _ => ⟨inOrder_nil, rfl⟩
  have kept := run_kept (extended_guarantees (obligations T D)) _ m es (boot_kept _ start)
    orderly hm
  have verdict (st : World × Record) (counts : Counts st) (x : Bytes32) :
      InOrder (st.2.history x) ∧ ∀ nonces : List UInt256, st.2.history x =
        nonces.map Step.executed → nonces.map BitVec.toNat = List.range nonces.length := by
    have inOrder := (counts x).inOrder
    refine ⟨inOrder, fun nonces same => ?_⟩
    rw [same] at inOrder
    exact inOrder_range nonces inOrder
  intro st hst
  rcases hst with rfl | rfl
  · exact verdict m.store kept.holds
  · exact verdict m.committed (kept_committed m kept)

end Runs

/-- A message with nonce 0. -/
def zeroMessage : Sample where
  targetAddress := 0x99
  payload := word 7 ++ word 0
  payloadHash := 0x870253054e3d98b71abec8fff9ebf8a15d167f15909091a800d4acaab9266d2b
  messageHash := 0x43a02a845a827db0c1e398511a90a8e046af3525de7ee33f6a2f6516388ed8fb
  signedHash := 0xe55b9fb8c66024fc01e6b28b42622d3d729956c0907cf583c6b558b7f6135094
  signature :=
    bigEndian 32 0xd30c95ae61bba31e620b43aa85f13e1255bc853dfed40136878c87989f958cf6 ++
    bigEndian 32 0x4efd6c39c00ee9dad702ede5df9801c1c152ef69b5d314ab999d5460c0a92411 ++ [28]

/-- A message with nonce 1. -/
def oneMessage : Sample where
  targetAddress := 0x99
  payload := word 7 ++ word 1
  payloadHash := 0xdc686ec4a0ff239c70e7c7c36e8f853eced3bc8618f48d2b816da2a74311237e
  messageHash := 0x2a3a2765a2c24f2885418f45e5bf342e642379ead01f5810ea4061a69683eb5c
  signedHash := 0x06456d0bf42f8aac761aa0ca96b3735dd69e275c5b6ecbc314a824dd3d5d394e
  signature :=
    bigEndian 32 0xb4ff8d155efebad076d5b8f27ad96d539ae03780bf1a230cbdd90d159c5178dd ++
    bigEndian 32 0x33677f95176406391b8ad6ae36b665e179452bacaecaa51f682ed5e701ba6418 ++ [28]

def sampleStart (message : Sample) : World × Record :=
  (message.genesis, ⟨⟨0x0B, fun _ => 0⟩, fun _ => false, fun _ => []⟩)

def sampleSetup (message : Sample) : List (Event ExtResult Entry Drift) :=
  message.setup ++ [.enter (.bridge 0x0A (.addPreModule 0x60))]

/-- The module at `0x60` becomes a pre-module, others call it, and the message is handled. -/
def sampleRun (message : Sample) (calls : List Call) :
    List (Event ExtResult (Entry ⊕ Call) (Drift ⊕ Empty)) :=
  (sampleSetup message).map Module.beside ++
  calls.map (fun c => .enter (.inr c)) ++
  [.enter (.inl (.bridge 0x77 (.handleMessage 1))), .answer (.returned [])]

instance decidableFree (payload : Bytes) (st : World × Record) : Decidable (Free payload st) :=
  match hm : metadata payload with
  | none => .isTrue (by intro p hp; rw [hm] at hp; cases hp)
  | some p => decidable_of_iff (st.2.pending p.1 = false) (by
      constructor
      · intro idle q hq
        rw [hm] at hq
        cases hq
        exact idle
      · exact fun free => free p hm)

/-- Only single messages are handled, no module but this one is asked, and nobody else calls it. -/
def Calm (m : Machine (World × Record) ExtCall ExtResult SyndDB.Contracts.Error (Entry ⊕ Call)) :
    Event ExtResult (Entry ⊕ Call) (Drift ⊕ Empty) → Prop
  | .enter (.inl (.bridge _ (.handleMessage i))) =>
      m.store.1.stage i = .PreExecution → Free (m.store.1.bridge.messageStates i).payload m.store
  | .enter (.inl (.bridge _ (.batchHandleMessage _))) => False
  | .enter (.inl (.bridge _ (.initializeAndHandleMessage _ _ _ _ _ _))) => False
  | .enter (.inr _) => False
  | e => Module.answersTargets (waits m.stack) e

instance decidableCalm
    (m : Machine (World × Record) ExtCall ExtResult SyndDB.Contracts.Error (Entry ⊕ Call))
    (e : Event ExtResult (Entry ⊕ Call) (Drift ⊕ Empty)) : Decidable (Calm m e) := by
  unfold Calm
  split
  · infer_instance
  · infer_instance
  · infer_instance
  · infer_instance
  · infer_instance

theorem calm_orderly (T : Address) (D : Deployment)
    (m : Machine (World × Record) ExtCall ExtResult SyndDB.Contracts.Error (Entry ⊕ Call))
    (e : Event ExtResult (Entry ⊕ Call) (Drift ⊕ Empty)) (h : Calm m e) : Orderly T D m e := by
  refine ⟨?_, ?_⟩
  · refine Module.meets_of_targets (module T) T D _ (fun _ _ _ _ _ _ _ => trivial) m e ?_
    cases e with
    | enter o => trivial
    | _ => exact h
  · cases e with
    | enter o =>
      cases o with
      | inr c => exact h.elim
      | inl o =>
        cases o with
        | keyManager sender c => trivial
        | bridge sender c =>
          cases c with
          | handleMessage i => exact h
          | batchHandleMessage is => exact h.elim
          | initializeAndHandleMessage i t p s vs a => exact h.elim
          | _ => trivial
    | _ => trivial

theorem executed_in_order_zero :
    ∃ m, run (extended zeroMessage.deployment ((module 0x60).install 0x60))
        (boot (sampleStart zeroMessage)) (sampleRun zeroMessage []) = some m ∧
      m.committed.1.stage 1 = .Completed ∧ m.committed.2.history 7 = [.executed 0] ∧
      InOrder (m.committed.2.history 7) := by
  have outcome : (run (extended zeroMessage.deployment ((module 0x60).install 0x60))
      (boot (sampleStart zeroMessage)) (sampleRun zeroMessage [])).map (fun m =>
        (m.committed.1.stage 1, m.committed.2.history 7)) = some (.Completed, [.executed 0]) := by
    decide +kernel
  have calm : Throughout (extended zeroMessage.deployment ((module 0x60).install 0x60)) Calm
      (boot (sampleStart zeroMessage)) (sampleRun zeroMessage []) := by
    decide +kernel
  obtain ⟨m, hm, values⟩ := Option.map_eq_some_iff.mp outcome
  obtain ⟨completed, history⟩ := Prod.mk.inj values
  have orderly := throughout_weaken (calm_orderly 0x60 zeroMessage.deployment) _ _ calm
  have inOrder := (executed_in_order 0x60 zeroMessage.deployment 0x0A 0xA7 0x0B 1700000000
    sampleViews _ m hm orderly m.committed (.inr rfl) 7).1
  exact ⟨m, hm, completed, history, inOrder⟩

/-- Somebody counts nonce 0 directly, and the first message that is executed has nonce 1. -/
theorem nonce_skipped :
    ∃ m, run (extended oneMessage.deployment ((module 0x60).install 0x60))
        (boot (sampleStart oneMessage)) (sampleRun oneMessage [.validateNonce 7 0]) = some m ∧
      m.committed.1.stage 1 = .Completed ∧ m.committed.2.history 7 = [.executed 1] ∧
      ¬ InOrder (m.committed.2.history 7) := by
  have outcome : (run (extended oneMessage.deployment ((module 0x60).install 0x60))
      (boot (sampleStart oneMessage)) (sampleRun oneMessage [.validateNonce 7 0])).map (fun m =>
        (m.committed.1.stage 1, m.committed.2.history 7)) = some (.Completed, [.executed 1]) := by
    decide +kernel
  obtain ⟨m, hm, values⟩ := Option.map_eq_some_iff.mp outcome
  obtain ⟨completed, history⟩ := Prod.mk.inj values
  refine ⟨m, hm, completed, history, fun inOrder => ?_⟩
  rw [history] at inOrder
  exact absurd (inOrder [] 1 [] rfl) (by decide)

end MessageOrderingModule

end SyndDB.Contracts
