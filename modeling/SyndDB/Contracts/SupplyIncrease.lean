import SyndDB.Contracts.Sessions

namespace SyndDB.Contracts

open Octets Resumption

namespace ERC20MaxSupplyIncreaseModule

structure State where
  preExecutionSupply : Bytes32 → UInt256

def State.record (st : State) (messageId : Bytes32) (supply : UInt256) : State :=
  ⟨Function.update st.preExecutionSupply messageId supply⟩

/-- `check`, given the total supply of the token. -/
def check (maxSupplyIncrease currentSupply : UInt256) (st : State) (messageId : Bytes32)
    (stage : ProcessingStage) : Bool × State :=
  match stage with
  | .PreExecution => (true, st.record messageId currentSupply)
  | .PostExecution =>
      let storedSupply := st.preExecutionSupply messageId
      if storedSupply < currentSupply ∧ maxSupplyIncrease < currentSupply - storedSupply then
        (false, st)
      else (true, st.record messageId 0)
  | _ => (true, st)

/-- Anybody may call `check`. -/
inductive Call where
  | check (messageId : Bytes32) (stage : ProcessingStage) (payload : Bytes)
      (sequencerSignature : SequencerSignature)

/-- The total supply at the module's check before an execution, and whether the check after it
is still to come. -/
structure Watch where
  start : UInt256
  isOpen : Bool
  deriving DecidableEq

def Watch.closed (x : Watch) : Watch := ⟨x.start, false⟩

/-- The storage of the module and the total supply of the token, where `none` means that it cannot
be read. For each message: the watch of the bridge, and whether the module was a pre-module when it
was executed. For each completion with the module on both sides: the supply before and after. -/
structure Record where
  state : State
  totalSupply : Option UInt256
  watches : Bytes32 → Option Watch
  registered : Bytes32 → Bool
  outcomes : List (Option UInt256 × Option UInt256)

def Record.watch (t : Record) (i : Bytes32) (x : Option Watch) : Record :=
  { t with watches := Function.update t.watches i x }

/-- The bridge asks the module. -/
def serve (maxSupplyIncrease : UInt256) (t : Record) (i : Bytes32) (stage : ProcessingStage) :
    ExtResult × Record :=
  match t.totalSupply with
  | none => (.reverted [], t)
  | some currentSupply =>
      let (ok, state) := check maxSupplyIncrease currentSupply t.state i stage
      let t' := { t with state := state }
      match ok, stage with
      | true, .PreExecution => (returnBool true, t'.watch i (some ⟨currentSupply, true⟩))
      | true, .PostExecution =>
          (returnBool true, t'.watch i ((t.watches i).map Watch.closed))
      | ok, _ => (returnBool ok, t')

/-- Somebody else calls the module. -/
def own (maxSupplyIncrease : UInt256) (t : Record) : Call → Option Record
  | .check i stage _ _ =>
      t.totalSupply.map fun currentSupply =>
        { t with state := (check maxSupplyIncrease currentSupply t.state i stage).2 }

/-- The message is about to be executed. -/
def execute (T : Address) (i : Bytes32) (w : World) (t : Record) : Record :=
  letI := w.bridge.preModules.decidableMem T
  { t with registered :=
      Function.update t.registered i (decide (T ∈ w.bridge.preModules.values)) }

/-- The message is completed. -/
def complete (T : Address) (i : Bytes32) (w : World) (t : Record) : Record :=
  letI := w.bridge.postModules.decidableMem T
  let outcomes :=
    if t.registered i = true ∧ T ∈ w.bridge.postModules.values then
      t.outcomes ++ [((t.watches i).map Watch.start, t.totalSupply)]
    else t.outcomes
  { t.watch i none with outcomes := outcomes }

/-- What is noted at the execution of a message is the same when one of its calls returns. -/
def restore (c : ExtCall) (t t' : Record) : Record :=
  match c.message? with
  | none => t'
  | some i => { t' with registered := Function.update t'.registered i (t.registered i) }

/-- The supply of the token may change at any time. -/
def module (maxSupplyIncrease : UInt256) (T : Address) : Module Record Call (Option UInt256) where
  serve i stage _ _ _ t := serve maxSupplyIncrease t i stage
  restore := restore
  note
    | .executing i, w, t => execute T i w t
    | .completed i, w, t => complete T i w t
    | _, _, t => t
  own c _ t := own maxSupplyIncrease t c
  drift totalSupply t := { t with totalSupply := totalSupply }

/-- The supply after is at most the supply before and the maximum increase. -/
def Within (maxSupplyIncrease : UInt256) (outcome : Option UInt256 × Option UInt256) : Prop :=
  ∃ start, outcome.1 = some start ∧
    ∀ final, outcome.2 = some final → final.toNat ≤ start.toNat + maxSupplyIncrease.toNat

/-- Every outcome is within the limit, and as long as a watch is open the recorded supply is at most
that of the watch. -/
structure Limited (maxSupplyIncrease : UInt256) (st : World × Record) : Prop where
  outcomes : ∀ o ∈ st.2.outcomes, Within maxSupplyIncrease o
  started : ∀ i x, st.2.watches i = some x → st.1.stage i ≠ .NotStarted
  recorded : ∀ i x, st.2.watches i = some x → x.isOpen = true →
    (st.2.state.preExecutionSupply i).toNat ≤ x.start.toNat

structure Respects (e st : World × Record) : Prop where
  watches : st.2.watches = e.2.watches
  keeps : Keeps e.1 st.1

/-- The message can be handled only while it is not watched. -/
def Ready (i : Bytes32) (st : World × Record) : Prop :=
  st.2.watches i = none ∨ (st.1.stage i ≠ .NotStarted ∧ st.1.stage i ≠ .PreExecution)

/-- Nobody but the bridge records a larger supply for a message that is watched, and no call sets
out to handle it again. -/
def Permits (st : World × Record) : Entry ⊕ Call → Prop
  | .inl (.bridge _ (.handleMessage i)) => st.1.stage i = .PreExecution → st.2.watches i = none
  | .inl (.bridge _ (.batchHandleMessage is)) => ∀ i ∈ is, Ready i st
  | .inl _ => True
  | .inr (.check i .PreExecution _ _) => ∀ x supply, st.2.watches i = some x → x.isOpen = true →
      st.2.totalSupply = some supply → supply.toNat ≤ x.start.toNat
  | .inr _ => True

section Runs

variable (maxSupplyIncrease : UInt256) (T : Address) (D : Deployment)

/-- One module stands before another. -/
def Before (s : AddressSet) (m : Address) : Prop :=
  ∃ j k, j < k ∧ s.atIndex j = some T ∧ s.atIndex k = some m

/-- The supply has not grown. -/
def NotGrown (st st' : World × Record) : Prop :=
  ∀ supply', st'.2.totalSupply = some supply' →
    ∃ supply, st.2.totalSupply = some supply ∧ supply'.toNat ≤ supply.toNat

/-- During the checks the module keeps its place, and the supply does not grow after
its last check. -/
def Steady : ExtCall → World × Record → ExtResult → World × Record → Prop
  | .check _ _ .PreExecution _ _, st, _, st' =>
      SamePlace T st.1.bridge.preModules st'.1.bridge.preModules
  | .withdraw _ _, st, _, st' => SamePlace T st.1.bridge.preModules st'.1.bridge.preModules
  | .check m _ .PostExecution _ _, st, _, st' =>
      SamePlace T st.1.bridge.postModules st'.1.bridge.postModules ∧
        (Before T st.1.bridge.postModules m → NotGrown st st')
  | _, _, _, _ => True

/-- The condition on a run. -/
def Orderly (m : Machine (World × Record) ExtCall ExtResult SyndDB.Contracts.Error (Entry ⊕ Call))
    (e : Event ExtResult (Entry ⊕ Call) (Drift ⊕ Option UInt256)) : Prop :=
  Meets (extended D ((module maxSupplyIncrease T).install T)) (Steady T) m e ∧
    match e with
    | .enter o => Permits m.store o
    | _ => True

/-- The message is watched if and only if the module was asked. -/
structure Watching (asked : Prop) (i : Bytes32) (e st : World × Record) : Prop where
  watched : asked → ∃ start, st.2.watches = Function.update e.2.watches i (some ⟨start, true⟩)
  unwatched : ¬ asked → st.2.watches = e.2.watches

/-- The module has been asked again: the supply is within the limit. -/
structure Concluded (i : Bytes32) (e st : World × Record) : Prop where
  watched : st.2.registered i = true →
    ∃ start, st.2.watches = Function.update e.2.watches i (some ⟨start, false⟩) ∧
      Within maxSupplyIncrease (some start, st.2.totalSupply)
  unwatched : st.2.registered i = false → st.2.watches = e.2.watches

/-- What is known of the watch at each point of a session. -/
def Status (i : Bytes32) (e st : World × Record) : Point → Prop
  | .checking _ total agreed =>
      Passing T st.1.bridge.preModules total agreed ∧ Watching (T ∈ agreed) i e st
  | .cleared => Watching (T ∈ st.1.bridge.preModules.values) i e st
  | .concluding _ total agreed =>
      Passing T st.1.bridge.postModules total agreed ∧
        (T ∉ agreed → Watching (st.2.registered i = true) i e st) ∧
        (T ∈ agreed → Concluded maxSupplyIncrease i e st)
  | _ => Watching (st.2.registered i = true) i e st

structure Known (i : Bytes32) (p : Point) (e st : World × Record) : Prop where
  started : st.1.stage i ≠ .NotStarted
  keeps : Keeps e.1 st.1
  free : e.2.watches i = none
  status : Status maxSupplyIncrease T i e st p

theorem respects_refl (st : World × Record) : Respects st st := ⟨rfl, keeps_states st.1 st.1 rfl⟩

theorem respects_trans (a b c : World × Record) (h : Respects a b) (h' : Respects b c) :
    Respects a c :=
  ⟨h'.watches.trans h.watches, keeps_trans a.1 b.1 c.1 h.keeps h'.keeps⟩

/-- A step of the bridge that does not concern the module. -/
theorem limited_keeps (w w' : World) (t : Record) (h : Limited maxSupplyIncrease (w, t))
    (keeps : Keeps w w') :
    Limited maxSupplyIncrease (w', t) ∧ Respects (w, t) (w', t) :=
  ⟨⟨h.outcomes, fun i x hx => (keeps i (h.started i x hx)).1, h.recorded⟩, rfl, keeps⟩

theorem ready_respects (i : Bytes32) (st st' : World × Record) (respects : Respects st st')
    (h : Ready i st) : Ready i st' := by
  rcases h with free | ⟨started, handled⟩
  · left
    rw [respects.watches]
    exact free
  · obtain ⟨started', waiting, _⟩ := respects.keeps i started
    exact .inr ⟨started', fun waits => handled (waiting waits)⟩

theorem watching_respects (asked : Prop) (i : Bytes32) (e st st' : World × Record)
    (h : Watching asked i e st) (same : st'.2.watches = st.2.watches) : Watching asked i e st' := by
  refine ⟨fun ha => ?_, fun ha => ?_⟩
  · rw [same]
    exact h.watched ha
  · rw [same]
    exact h.unwatched ha

theorem watching_iff (asked asked' : Prop) (same : asked ↔ asked') (i : Bytes32)
    (e st : World × Record) (h : Watching asked i e st) : Watching asked' i e st :=
  ⟨fun ha => h.watched (same.mpr ha), fun ha => h.unwatched fun hb => ha (same.mp hb)⟩

/-- Whatever is known of the watch, nothing is left of it once it is removed. -/
theorem watching_removed (asked : Prop) (i : Bytes32) (e st : World × Record)
    (free : e.2.watches i = none) (h : Watching asked i e st) :
    Function.update st.2.watches i none = e.2.watches := by
  by_cases ha : asked
  · obtain ⟨start, watches⟩ := h.watched ha
    rw [watches, Function.update_idem, ← free, Function.update_eq_self]
  · rw [h.unwatched ha, ← free, Function.update_eq_self]

theorem concluded_removed (i : Bytes32) (e st : World × Record) (free : e.2.watches i = none)
    (h : Concluded maxSupplyIncrease i e st) :
    Function.update st.2.watches i none = e.2.watches := by
  cases registered : st.2.registered i with
  | true =>
    obtain ⟨start, watches, _⟩ := h.watched registered
    rw [watches, Function.update_idem, ← free, Function.update_eq_self]
  | false => rw [h.unwatched registered, ← free, Function.update_eq_self]

/-- The supply has not grown since. -/
theorem concluded_respects (i : Bytes32) (e st st' : World × Record)
    (h : Concluded maxSupplyIncrease i e st) (watches : st'.2.watches = st.2.watches)
    (registered : st'.2.registered i = st.2.registered i) (still : NotGrown st st') :
    Concluded maxSupplyIncrease i e st' := by
  refine ⟨fun hr => ?_, fun hr => ?_⟩
  · rw [registered] at hr
    obtain ⟨start, hw, start', same, bound⟩ := h.watched hr
    cases same
    refine ⟨start, by rw [watches, hw], start, rfl, fun final hf => ?_⟩
    obtain ⟨supply, before, most⟩ := still final hf
    exact Nat.le_trans most (bound supply before)
  · rw [registered] at hr
    rw [watches, h.unwatched hr]

theorem check_bound (currentSupply : UInt256) (st : State) (i : Bytes32)
    (passed : (check maxSupplyIncrease currentSupply st i .PostExecution).1 = true) :
    currentSupply.toNat ≤ (st.preExecutionSupply i).toNat + maxSupplyIncrease.toNat := by
  simp only [check] at passed
  split at passed
  · cases passed
  · rename_i within
    by_cases grown : st.preExecutionSupply i < currentSupply
    · have least : ¬ maxSupplyIncrease < currentSupply - st.preExecutionSupply i :=
        fun more => within ⟨grown, more⟩
      rw [BitVec.lt_def] at grown least
      rw [BitVec.toNat_sub_of_le (BitVec.le_def.mpr (Nat.le_of_lt grown))] at least
      omega
    · rw [BitVec.lt_def] at grown
      omega

/-- The bridge asks the module before an execution. -/
theorem serve_pre (t : Record) (i : Bytes32) (data : Bytes)
    (h : (serve maxSupplyIncrease t i .PreExecution).1 = .returned data) :
    ∃ supply, t.totalSupply = some supply ∧
      (serve maxSupplyIncrease t i .PreExecution).2 =
        { t with state := t.state.record i supply }.watch i (some ⟨supply, true⟩) := by
  cases supply : t.totalSupply with
  | none =>
    simp only [serve, supply] at h
    cases h
  | some supply' =>
    refine ⟨supply', rfl, ?_⟩
    simp only [serve, supply, check]

/-- The bridge asks the module after an execution. -/
theorem serve_post (t : Record) (i : Bytes32) (data : Bytes)
    (h : (serve maxSupplyIncrease t i .PostExecution).1 = .returned data)
    (accepted : decodeBool data = some true) :
    ∃ supply, t.totalSupply = some supply ∧
      supply.toNat ≤ (t.state.preExecutionSupply i).toNat + maxSupplyIncrease.toNat ∧
      (serve maxSupplyIncrease t i .PostExecution).2 =
        { t with state := t.state.record i 0 }.watch i ((t.watches i).map Watch.closed) := by
  cases supply : t.totalSupply with
  | none =>
    simp only [serve, supply] at h
    cases h
  | some supply' =>
    refine ⟨supply', rfl, ?_⟩
    by_cases within : t.state.preExecutionSupply i < supply' ∧
        maxSupplyIncrease < supply' - t.state.preExecutionSupply i
    · simp only [serve, supply, check, if_pos within] at h
      exact absurd (decodeBool_returnBool false data h accepted) (by decide)
    · have passed : (check maxSupplyIncrease supply' t.state i .PostExecution).1 = true := by
        simp only [check, if_neg within]
      refine ⟨check_bound maxSupplyIncrease supply' t.state i passed, ?_⟩
      simp only [serve, supply, check, if_neg within]

/-- The module watches a message from now on. -/
theorem limited_watched (w : World) (t : Record) (i : Bytes32) (supply : UInt256)
    (h : Limited maxSupplyIncrease (w, t)) (started : w.stage i ≠ .NotStarted) :
    Limited maxSupplyIncrease
      (w, { t with state := t.state.record i supply }.watch i (some ⟨supply, true⟩)) := by
  refine ⟨h.outcomes, ?_, ?_⟩
  · intro j x hx
    by_cases same : j = i
    · subst same
      exact started
    · simp only [Record.watch, Function.update_of_ne same] at hx
      exact h.started j x hx
  · intro j x hx isOpen
    by_cases same : j = i
    · subst same
      simp only [Record.watch, Function.update_self, Option.some.injEq] at hx
      subst hx
      simp only [Record.watch, State.record, Function.update_self]
      exact Nat.le_refl _
    · simp only [Record.watch, State.record, Function.update_of_ne same] at hx ⊢
      exact h.recorded j x hx isOpen

/-- The module is asked for the last time. -/
theorem limited_closed (w : World) (t : Record) (i : Bytes32)
    (h : Limited maxSupplyIncrease (w, t)) :
    Limited maxSupplyIncrease (w, { t with state := t.state.record i 0 }.watch i
      ((t.watches i).map Watch.closed)) := by
  refine ⟨h.outcomes, ?_, ?_⟩
  · intro j x hx
    by_cases same : j = i
    · subst same
      simp only [Record.watch, Function.update_self] at hx
      obtain ⟨y, hy, _⟩ := Option.map_eq_some_iff.mp hx
      exact h.started j y hy
    · simp only [Record.watch, Function.update_of_ne same] at hx
      exact h.started j x hx
  · intro j x hx isOpen
    by_cases same : j = i
    · subst same
      simp only [Record.watch, Function.update_self] at hx
      obtain ⟨y, _, rfl⟩ := Option.map_eq_some_iff.mp hx
      cases isOpen
    · simp only [Record.watch, State.record, Function.update_of_ne same] at hx ⊢
      exact h.recorded j x hx isOpen

/-- A permitted call of somebody else. -/
theorem own_limited (w : World) (t t' : Record) (c : Call) (h : Limited maxSupplyIncrease (w, t))
    (permitted : Permits (w, t) (.inr c)) (called : own maxSupplyIncrease t c = some t') :
    Limited maxSupplyIncrease (w, t') ∧ Respects (w, t) (w, t') := by
  obtain ⟨i, stage, payload, signature⟩ := c
  obtain ⟨supply, held, rfl⟩ := Option.map_eq_some_iff.mp called
  refine ⟨⟨h.outcomes, h.started, ?_⟩, rfl, keeps_states w w rfl⟩
  intro j x hx isOpen
  have before := h.recorded j x hx isOpen
  have recorded (supply' : UInt256) (least : j = i → supply'.toNat ≤ x.start.toNat) :
      ((t.state.record i supply').preExecutionSupply j).toNat ≤ x.start.toNat := by
    by_cases same : j = i
    · subst same
      simp only [State.record, Function.update_self]
      exact least rfl
    · simp only [State.record, Function.update_of_ne same]
      exact before
  cases stage with
  | PreExecution =>
    refine recorded supply fun same => ?_
    subst same
    exact permitted x supply hx isOpen held
  | PostExecution =>
    simp only [check]
    split
    · exact before
    · exact recorded 0 fun _ => Nat.zero_le _
  | _ => exact before

theorem restore_registered (c : ExtCall) (i : Bytes32) (hc : c.message? = some i) (t t' : Record) :
    (restore c t t').registered i = t.registered i ∧ (restore c t t').watches = t'.watches ∧
      (restore c t t').totalSupply = t'.totalSupply := by
  simp only [restore, hc, Function.update_self]
  exact ⟨trivial, trivial, trivial⟩

theorem restore_limited (c : ExtCall) (t : Record) (st : World × Record)
    (h : Limited maxSupplyIncrease st) :
    Limited maxSupplyIncrease (st.1, restore c t st.2) := by
  unfold restore
  split
  · exact h
  · exact ⟨h.outcomes, h.started, h.recorded⟩

/-- A call of the session is passed on: what is known of the watch is kept, given what is to be
known of the module sets and the supply. -/
theorem survives_passed (c : ExtCall) (accepted : Bytes → Prop) (i : Bytes32)
    (hc : c.message? = some i) (p p' : Point) (e : World × Record) (ψ : World × Record → Prop)
    (hx : ∀ st, ((module maxSupplyIncrease T).install T).ext c st = .call c st fun r st' =>
      .ret r (st'.1, restore c st.2 st'.2))
    (hψ : ∀ st, ψ st → Known maxSupplyIncrease T i p e st)
    (status : ∀ st data st', ψ st → Respects st st' → Steady T c st (.returned data) st' →
      ∀ t, t.registered i = st.2.registered i → t.watches = st'.2.watches →
        t.totalSupply = st'.2.totalSupply → Status maxSupplyIncrease T i e (st'.1, t) p') :
    Survives ((module maxSupplyIncrease T).install T) (Limited maxSupplyIncrease) Respects
      (Steady T) c accepted ψ (Known maxSupplyIncrease T i p' e) := by
  refine survives_call (restore c) hx ?_
  intro st data st' _ here limited respects steady _
  have known := hψ st here
  obtain ⟨registered, watches, supply⟩ := restore_registered c i hc st.2 st'.2
  refine ⟨restore_limited maxSupplyIncrease c st.2 st' limited, ?_⟩
  exact ⟨(respects.keeps i known.started).1, keeps_trans _ _ _ known.keeps respects.keeps,
    known.free, status st data st' here respects steady _ registered watches supply⟩

theorem survives_pre (i : Bytes32) (payload : Bytes) (signature : SequencerSignature) (total : Nat)
    (agreed : List Address) (m : Address) (e : World × Record) :
    Survives ((module maxSupplyIncrease T).install T) (Limited maxSupplyIncrease) Respects
      (Steady T)
      (.check m i .PreExecution payload signature) (fun data => decodeBool data = some true)
      (fun st => st.1.bridge.preModules.atIndex agreed.length = some m ∧
        Known maxSupplyIncrease T i (.checking payload total agreed) e st)
      (Known maxSupplyIncrease T i (.checking payload total (agreed ++ [m])) e) := by
  by_cases own : m = T
  · subst own
    refine survives_served (fun st => serve maxSupplyIncrease st.2 i .PreExecution) (fun st =>
      congrFun ((module maxSupplyIncrease m).ext_own m i .PreExecution payload signature) st) ?_
    intro st data limited here returned _
    obtain ⟨found, known⟩ := here
    obtain ⟨passing, watching⟩ := known.status
    obtain ⟨supply, _, moved⟩ := serve_pre maxSupplyIncrease st.2 i data returned
    have fresh := passing_fresh m _ total agreed passing found
    rw [moved]
    refine ⟨limited_watched maxSupplyIncrease st.1 st.2 i supply limited known.started, ?_⟩
    refine ⟨known.started, known.keeps, known.free, ?_, ?_⟩
    · exact passing_next m _ total agreed m passing found
    · refine ⟨fun _ => ⟨supply, ?_⟩, fun absent => absurd (by simp) absent⟩
      simp only [Record.watch]
      rw [watching.unwatched fresh]
  · refine survives_passed maxSupplyIncrease T _ _ i rfl (.checking payload total agreed) _ e _
      (fun st => congrFun ((module maxSupplyIncrease T).ext_other T m own i .PreExecution payload
        signature) st) (fun _ h => h.2) ?_
    intro st data st' here respects steady t registered watches _
    obtain ⟨passing, watching⟩ := here.2.status
    refine ⟨passing_place T _ _ total _ (passing_next T _ total agreed m passing here.1) steady, ?_⟩
    refine watching_iff _ _ (mem_asked T m own agreed).symm i e _ ?_
    exact watching_respects _ i e st _ watching (watches.trans respects.watches)

/-- The module is asked after the execution. -/
theorem known_concluded (i : Bytes32) (payload : Bytes) (total : Nat) (agreed : List Address)
    (e st : World × Record) (data : Bytes) (limited : Limited maxSupplyIncrease st)
    (found : st.1.bridge.postModules.atIndex agreed.length = some T)
    (h : Known maxSupplyIncrease T i (.concluding payload total agreed) e st)
    (returned : (serve maxSupplyIncrease st.2 i .PostExecution).1 = .returned data)
    (accepted : decodeBool data = some true) :
    Sound (Limited maxSupplyIncrease)
      (Known maxSupplyIncrease T i (.concluding payload total (agreed ++ [T])) e)
      (st.1, (serve maxSupplyIncrease st.2 i .PostExecution).2) := by
  obtain ⟨passing, before, _⟩ := h.status
  have watching := before (passing_fresh T _ total agreed passing found)
  obtain ⟨supply, held, bound, moved⟩ :=
    serve_post maxSupplyIncrease st.2 i data returned accepted
  have asked : T ∈ agreed ++ [T] := by simp
  rw [moved]
  refine ⟨limited_closed maxSupplyIncrease st.1 st.2 i limited, h.started, h.keeps, h.free, ?_⟩
  refine ⟨passing_next T _ total agreed T passing found, fun absent => absurd asked absent, ?_⟩
  intro _
  refine ⟨fun registered => ?_, fun unregistered => ?_⟩
  · obtain ⟨start, watches⟩ := watching.watched registered
    have watch : st.2.watches i = some ⟨start, true⟩ := by
      rw [watches, Function.update_self]
    have least := limited.recorded i _ watch rfl
    refine ⟨start, ?_, start, rfl, ?_⟩
    · simp only [Record.watch, watch, Option.map_some, Watch.closed]
      rw [watches, Function.update_idem]
    · intro final hf
      have same : supply = final := Option.some.inj (held.symm.trans hf)
      subst same
      simp only at least
      omega
  · have absent : ¬ st.2.registered i = true := by
      rw [show st.2.registered i = false from unregistered]
      decide
    have watches := watching.unwatched absent
    have watch : st.2.watches i = none := by
      rw [watches]
      exact h.free
    simp only [Record.watch, watch, Option.map_none]
    rw [watches, ← h.free, Function.update_eq_self]

theorem survives_post (i : Bytes32) (payload : Bytes) (signature : SequencerSignature) (total : Nat)
    (agreed : List Address) (m : Address) (e : World × Record) :
    Survives ((module maxSupplyIncrease T).install T) (Limited maxSupplyIncrease) Respects
      (Steady T)
      (.check m i .PostExecution payload signature) (fun data => decodeBool data = some true)
      (fun st => st.1.bridge.postModules.atIndex agreed.length = some m ∧
        Known maxSupplyIncrease T i (.concluding payload total agreed) e st)
      (Known maxSupplyIncrease T i (.concluding payload total (agreed ++ [m])) e) := by
  by_cases own : m = T
  · subst own
    refine survives_served (fun st => serve maxSupplyIncrease st.2 i .PostExecution) (fun st =>
      congrFun ((module maxSupplyIncrease m).ext_own m i .PostExecution payload signature) st) ?_
    intro st data limited here returned accepted
    exact known_concluded maxSupplyIncrease m i payload total agreed e st data limited here.1 here.2
      returned accepted
  · refine survives_passed maxSupplyIncrease T _ _ i rfl (.concluding payload total agreed) _ e _
      (fun st => congrFun ((module maxSupplyIncrease T).ext_other T m own i .PostExecution payload
        signature) st) (fun _ h => h.2) ?_
    intro st data st' here respects steady t registered watches supply
    obtain ⟨passing, before, after⟩ := here.2.status
    have same := watches.trans respects.watches
    refine ⟨passing_place T _ _ total _ (passing_next T _ total agreed m passing here.1) steady.1,
      ?_, ?_⟩
    · intro absent
      have watching := before fun asked => absent ((mem_asked T m own agreed).mpr asked)
      refine watching_iff _ _ ?_ i e _ (watching_respects _ i e st (st'.1, t) watching same)
      change _ ↔ t.registered i = true
      rw [registered]
    · intro asked
      have first : T ∈ agreed := (mem_asked T m own agreed).mp asked
      obtain ⟨j, place, less⟩ := passing.asked.mp first
      refine concluded_respects maxSupplyIncrease i e st (st'.1, t) (after first) same registered ?_
      intro supply' hs
      exact steady.2 ⟨j, agreed.length, less, place, here.1⟩ supply' (supply.symm.trans hs)

theorem complete_limited (i : Bytes32) (agreed : List Address) (payload : Bytes)
    (e : World × Record) (w : World) (t : Record) (h : Limited maxSupplyIncrease (w, t))
    (known : Known maxSupplyIncrease T i (.concluding payload agreed.length agreed) e (w, t)) :
    Limited maxSupplyIncrease (w.staged i .Completed, complete T i (w.staged i .Completed) t) ∧
      Respects e (w.staged i .Completed, complete T i (w.staged i .Completed) t) := by
  obtain ⟨passing, before, after⟩ := known.status
  have modules : (w.staged i .Completed).bridge.postModules = w.bridge.postModules := rfl
  have keeps := keeps_staged i .Completed w (by decide)
  have removed : Function.update t.watches i none = e.2.watches := by
    by_cases asked : T ∈ agreed
    · exact concluded_removed maxSupplyIncrease i e (w, t) known.free (after asked)
    · exact watching_removed _ i e (w, t) known.free (before asked)
  refine ⟨⟨?_, ?_, ?_⟩, ?_, keeps_trans _ _ _ known.keeps keeps⟩
  · intro o ho
    simp only [complete, modules] at ho
    split at ho
    · rename_i both
      rcases List.mem_append.mp ho with earlier | last
      · exact h.outcomes o earlier
      · have asked := (passing_all T _ agreed passing).mpr both.2
        obtain ⟨start, watches, bound⟩ := (after asked).watched both.1
        rw [List.mem_singleton.mp last]
        simp only at watches
        rw [watches, Function.update_self]
        exact bound
    · exact h.outcomes o ho
  · intro j x hx
    have watched : t.watches j = some x := by
      by_cases same : j = i
      · subst same
        simp [complete, Record.watch] at hx
      · simpa [complete, Record.watch, same] using hx
    exact (keeps j (h.started j x watched)).1
  · intro j x hx isOpen
    have watched : t.watches j = some x := by
      by_cases same : j = i
      · subst same
        simp [complete, Record.watch] at hx
      · simpa [complete, Record.watch, same] using hx
    exact h.recorded j x watched isOpen
  · exact removed

theorem known_watching (i : Bytes32) (p p' : Point) (e st st' : World × Record)
    (h : Known maxSupplyIncrease T i p e st)
    (watching : Status maxSupplyIncrease T i e st p →
      Watching (st.2.registered i = true) i e st)
    (keeps : Keeps st.1 st'.1) (watches : st'.2.watches = st.2.watches)
    (registered : st'.2.registered i = st.2.registered i)
    (status : Watching (st'.2.registered i = true) i e st' →
      Status maxSupplyIncrease T i e st' p') :
    Known maxSupplyIncrease T i p' e st' := by
  refine ⟨(keeps i h.started).1, keeps_trans _ _ _ h.keeps keeps, h.free, status ?_⟩
  refine watching_iff _ _ (by rw [registered]) i e st' ?_
  exact watching_respects _ i e st st' (watching h.status) watches

theorem drift_limited (d : Drift ⊕ Option UInt256) (st : World × Record)
    (limited : Limited maxSupplyIncrease st) :
    Limited maxSupplyIncrease (((module maxSupplyIncrease T).install T).drift d st) ∧
      Respects st (((module maxSupplyIncrease T).install T).drift d st) := by
  cases d with
  | inl d =>
    exact limited_keeps maxSupplyIncrease st.1 _ st.2 limited
      (keeps_states _ _ (congrArg BridgeState.messageStates (drift_bridge d st.1)))
  | inr supply =>
    exact ⟨⟨limited.outcomes, limited.started, limited.recorded⟩, rfl, keeps_states _ _ rfl⟩

theorem idle_limited (c : ExtCall) (hc : Idle c) (b st : World × Record)
    (limited : Limited maxSupplyIncrease st) :
    Carries (Limited maxSupplyIncrease) Respects (Steady T)
      (fun _ _ st' => Limited maxSupplyIncrease st' ∧ Respects st st') b
      (((module maxSupplyIncrease T).install T).ext c st) := by
  have passed : ((module maxSupplyIncrease T).install T).ext c st =
      .call c st fun r st' => .ret r (st'.1, st'.2) := by
    rw [Module.install_idle _ _ c hc]
    cases c with
    | deposit amount => rfl
    | keyManager manager call => rfl
    | _ => exact hc.elim
  rw [passed]
  exact ⟨limited, fun r st' answered => ⟨answered.1, answered.2.1⟩⟩

/-- Moves that leave the bridge alone change nothing of what is known. -/
theorem known_same (e : World × Record) (i : Bytes32) (p : Point) (w w' : World) (t : Record)
    (same : SameBridge w w') (known : Known maxSupplyIncrease T i p e (w, t)) :
    Known maxSupplyIncrease T i p e (w', t) := by
  have keeps : Keeps w w' := keeps_states w w' (by rw [same.bridge])
  refine ⟨(keeps i known.started).1, keeps_trans _ _ _ known.keeps keeps, known.free, ?_⟩
  have status := known.status
  have modules := congrArg BridgeState.preModules same.bridge
  have modules' := congrArg BridgeState.postModules same.bridge
  cases p with
  | checking payload total agreed =>
    simp only [Status] at status ⊢
    rw [modules]
    exact ⟨status.1, status.2.watched, status.2.unwatched⟩
  | cleared =>
    simp only [Status] at status ⊢
    rw [modules]
    exact ⟨status.watched, status.unwatched⟩
  | concluding payload total agreed =>
    simp only [Status] at status ⊢
    rw [modules']
    refine ⟨status.1, fun absent => ?_, fun asked => ?_⟩
    · exact ⟨(status.2.1 absent).watched, (status.2.1 absent).unwatched⟩
    · exact ⟨(status.2.2 asked).watched, (status.2.2 asked).unwatched⟩
  | executing => exact ⟨status.watched, status.unwatched⟩
  | calling => exact ⟨status.watched, status.unwatched⟩
  | called => exact ⟨status.watched, status.unwatched⟩

/-- Nothing is recorded for a message that the call itself has just initialized. -/
theorem ready_arrived (store st : World × Record) (i : Bytes32)
    (limited : Limited maxSupplyIncrease store) (new : store.1.stage i = .NotStarted)
    (respects : Respects store st) : Ready i st := by
  left
  rw [respects.watches]
  cases watched : store.2.watches i with
  | none => rfl
  | some x => exact absurd new (limited.started i x watched)

theorem known_starting (i : Bytes32) (w : World) (t : Record) (waiting : w.stage i = .PreExecution)
    (ready : Ready i (w, t)) :
    Known maxSupplyIncrease T i
      (.checking (w.bridge.messageStates i).payload w.bridge.preModules.length []) (w, t)
      (w, t) := by
  have free : t.watches i = none := ready.resolve_right fun h => h.2 waiting
  refine ⟨?_, keeps_states w w rfl, free, passing_start T _, ?_, ?_⟩
  · rw [waiting]
    decide
  · exact fun asked => absurd asked List.not_mem_nil
  · exact fun _ => rfl

theorem known_cleared (e : World × Record) (i : Bytes32) (payload : Bytes) (agreed : List Address)
    (w : World) (t : Record) (limited : Limited maxSupplyIncrease (w, t))
    (known : Known maxSupplyIncrease T i (.checking payload agreed.length agreed) e (w, t)) :
    Sound (Limited maxSupplyIncrease) (Known maxSupplyIncrease T i .cleared e)
      (w.staged i .Executing, t) := by
  have keeps := keeps_staged i .Executing w (by decide)
  obtain ⟨passing, watching⟩ := known.status
  refine ⟨(limited_keeps maxSupplyIncrease w _ t limited keeps).1, (keeps i known.started).1,
    keeps_trans _ _ _ known.keeps keeps, known.free, ?_⟩
  exact watching_iff _ _ (passing_all T _ agreed passing) i e _
    ⟨watching.watched, watching.unwatched⟩

theorem survives_withdraw (e : World × Record) (i : Bytes32) (amount : UInt256) :
    Survives ((module maxSupplyIncrease T).install T) (Limited maxSupplyIncrease) Respects
      (Steady T) (.withdraw i amount) (fun _ => True) (Known maxSupplyIncrease T i .cleared e)
      (Known maxSupplyIncrease T i .cleared e) := by
  refine survives_passed maxSupplyIncrease T _ _ i rfl .cleared .cleared e _ (fun _ => rfl)
    (fun _ h => h) ?_
  intro st data st' here respects steady t registered watches _
  refine watching_iff _ _ (mem_place T _ _ steady).symm i e _ ?_
  exact watching_respects _ i e st _ here.status (watches.trans respects.watches)

/-- From here on it counts whether the module was there when the message was executed. -/
theorem known_executing (e : World × Record) (i : Bytes32) (w : World) (t : Record)
    (limited : Limited maxSupplyIncrease (w, t))
    (known : Known maxSupplyIncrease T i .cleared e (w, t)) :
    Sound (Limited maxSupplyIncrease) (Known maxSupplyIncrease T i .executing e)
      (w, execute T i w t) := by
  refine ⟨⟨limited.outcomes, limited.started, limited.recorded⟩, known.started, known.keeps,
    known.free, ?_⟩
  have watching : Watching (T ∈ w.bridge.preModules.values) i e (w, t) := known.status
  have registered : T ∈ w.bridge.preModules.values ↔ (execute T i w t).registered i = true := by
    simp [execute]
  exact watching_iff _ _ registered i e _ ⟨watching.watched, watching.unwatched⟩

theorem survives_target (e : World × Record) (i : Bytes32) (target : Address) (value : UInt256)
    (payload : Bytes) :
    Survives ((module maxSupplyIncrease T).install T) (Limited maxSupplyIncrease) Respects
      (Steady T)
      (.target i target value payload) (fun _ => True) (Known maxSupplyIncrease T i .calling e)
      (Known maxSupplyIncrease T i .called e) := by
  refine survives_passed maxSupplyIncrease T _ _ i rfl .calling .called e _ (fun _ => rfl)
    (fun _ h => h) ?_
  intro st data st' here respects _ t registered watches _
  refine watching_iff _ _ (by rw [registered]) i e _ ?_
  exact watching_respects _ i e st _ here.status (watches.trans respects.watches)

theorem known_answered (e : World × Record) (i : Bytes32) (w : World) (t : Record)
    (limited : Limited maxSupplyIncrease (w, t))
    (known : Known maxSupplyIncrease T i .called e (w, t)) :
    Sound (Limited maxSupplyIncrease) (Known maxSupplyIncrease T i
        (.concluding (w.bridge.messageStates i).payload w.bridge.postModules.length []) e)
      (w.staged i .PostExecution, t) := by
  have keeps := keeps_staged i .PostExecution w (by decide)
  refine ⟨(limited_keeps maxSupplyIncrease w _ t limited keeps).1, ?_⟩
  refine known_watching maxSupplyIncrease T i .called _ e _ _ known (fun h => h) keeps rfl rfl ?_
  exact fun watching => ⟨passing_start T _, fun _ => watching,
    fun asked => absurd asked List.not_mem_nil⟩

theorem obligations :
    Obligations D ((module maxSupplyIncrease T).install T) (Limited maxSupplyIncrease) Respects
      (Steady T) (Orderly maxSupplyIncrease T D) Ready (Known maxSupplyIncrease T) where
  refl := respects_refl
  trans := respects_trans
  meets := fun _ _ h => h.1
  drift := fun m d _ limited => drift_limited maxSupplyIncrease T d m.store limited
  own := fun m c t orderly called limited =>
    own_limited maxSupplyIncrease m.store.1 m.store.2 t c limited orderly.2 called
  administered := fun w w' t moved limited =>
    limited_keeps maxSupplyIncrease w w' t limited (keeps_states w w' moved.states)
  idle := fun c hc b st limited => idle_limited maxSupplyIncrease T c hc b st limited
  initialized := fun w t i target payload signature amount sender signer limited new _ _ _ =>
    limited_keeps maxSupplyIncrease w _ t limited
      (keeps_initiated w i target payload signature amount sender signer new)
  kept := fun e i p w w' t same _ known => known_same maxSupplyIncrease T e i p w w' t same known
  stays := ready_respects
  handled := fun _ _ _ orderly _ waiting => .inl (orderly.2 waiting)
  batched := fun _ _ _ orderly _ => orderly.2
  arrived := fun m _ i _ _ _ _ _ _ limited new st respects _ _ =>
    ready_arrived maxSupplyIncrease m.store st i limited new respects
  starting := fun i w t limited waiting ready =>
    ⟨limited, known_starting maxSupplyIncrease T i w t waiting ready⟩
  preCheck := fun e i payload signature total agreed m =>
    survives_pre maxSupplyIncrease T i payload signature total agreed m e
  cleared := fun e i payload agreed w t limited known =>
    known_cleared maxSupplyIncrease T e i payload agreed w t limited known
  withdraw := fun e i amount => survives_withdraw maxSupplyIncrease T e i amount
  executing := fun e i w t limited known => known_executing maxSupplyIncrease T e i w t
    limited known
  calling := fun e i w _ limited known => ⟨⟨limited.outcomes, limited.started, limited.recorded⟩,
    known_watching maxSupplyIncrease T i .executing .calling e _ _ known (fun h => h)
      (keeps_states w (w.calling i) rfl) rfl rfl fun h => h⟩
  target := fun e i target v p => survives_target maxSupplyIncrease T e i target v p
  ownTarget := fun e i w keyManager _ _ known =>
    known_watching maxSupplyIncrease T i .calling .called e _ _ known (fun h => h)
      (keeps_states w { w with keyManager := keyManager } rfl) rfl rfl fun h => h
  answered := fun e i _ w t limited known => known_answered maxSupplyIncrease T e i w t
    limited known
  postCheck := fun e i payload signature total agreed m =>
    survives_post maxSupplyIncrease T i payload signature total agreed m e
  completed := fun e i payload agreed w t limited known =>
    complete_limited maxSupplyIncrease T i agreed payload e w t limited known

/-- In every run in which nobody but the bridge records a larger supply for a message between its
two checks, no message is handled again before that, and the module keeps its place and the supply
does not grow while the modules after it are asked: a message that is completed with the module on
both sides has not increased the total supply by more than the maximum. -/
theorem supply_increase_limited (owner verifier : Address) (timestamp : UInt256) (views : Views)
    (totalSupply : Option UInt256)
    (es : List (Event ExtResult (Entry ⊕ Call) (Drift ⊕ Option UInt256)))
    (m : Machine (World × Record) ExtCall ExtResult SyndDB.Contracts.Error (Entry ⊕ Call))
    (hm : run (extended D ((module maxSupplyIncrease T).install T))
      (boot (genesis D owner verifier timestamp views,
        ⟨⟨fun _ => 0⟩, totalSupply, fun _ => none, fun _ => false, []⟩)) es = some m)
    (orderly : Throughout (extended D ((module maxSupplyIncrease T).install T))
      (Orderly maxSupplyIncrease T D) (boot (genesis D owner verifier timestamp views,
        ⟨⟨fun _ => 0⟩, totalSupply, fun _ => none, fun _ => false, []⟩)) es) :
    ∀ st, st = m.store ∨ st = m.committed →
      ∀ outcome ∈ st.2.outcomes, Within maxSupplyIncrease outcome := by
  have start : Limited maxSupplyIncrease (genesis D owner verifier timestamp views,
      ⟨⟨fun _ => 0⟩, totalSupply, fun _ => none, fun _ => false, []⟩) := by
    refine ⟨?_, ?_, ?_⟩
    · exact fun o ho => absurd ho List.not_mem_nil
    · exact fun i x hx => by cases hx
    · exact fun i x hx => by cases hx
  have kept := run_kept (extended_guarantees (obligations maxSupplyIncrease T D)) _ m es
    (boot_kept _ start) orderly hm
  intro st hst
  rcases hst with rfl | rfl
  · exact kept.holds.outcomes
  · exact (kept_committed m kept).outcomes

end Runs

/-- The maximum increase is 5, and the total supply is 100 when the message is handled. -/
def sampleStart : World × Record :=
  (plainMessage.genesis, ⟨⟨fun _ => 0⟩, some 100, fun _ => none, fun _ => false, []⟩)

/-- The module at `0x60` is asked before and after the execution, and the message is handled. -/
def sampleSetup : List (Event ExtResult Entry Drift) :=
  plainMessage.setup ++
  [.enter (.bridge 0x0A (.addPreModule 0x60)),
   .enter (.bridge 0x0A (.addPostModule 0x60)),
   .enter (.bridge 0x77 (.handleMessage 1))]

/-- What happens within the target call. -/
def sampleRun (target : List (Event ExtResult (Entry ⊕ Call) (Drift ⊕ Option UInt256))) :
    List (Event ExtResult (Entry ⊕ Call) (Drift ⊕ Option UInt256)) :=
  sampleSetup.map Module.beside ++ target ++ [.answer (.returned [])]

/-- Only single messages are handled, no module but this one is asked, and nobody else calls it. -/
def Calm (m : Machine (World × Record) ExtCall ExtResult SyndDB.Contracts.Error (Entry ⊕ Call)) :
    Event ExtResult (Entry ⊕ Call) (Drift ⊕ Option UInt256) → Prop
  | .enter (.inl (.bridge _ (.handleMessage i))) =>
      m.store.1.stage i = .PreExecution → m.store.2.watches i = none
  | .enter (.inl (.bridge _ (.batchHandleMessage _))) => False
  | .enter (.inr _) => False
  | e => Module.answersTargets (waits m.stack) e

instance decidableCalm
    (m : Machine (World × Record) ExtCall ExtResult SyndDB.Contracts.Error (Entry ⊕ Call))
    (e : Event ExtResult (Entry ⊕ Call) (Drift ⊕ Option UInt256)) : Decidable (Calm m e) := by
  unfold Calm
  split
  · infer_instance
  · infer_instance
  · infer_instance
  · infer_instance

theorem calm_orderly (maxSupplyIncrease : UInt256) (T : Address) (D : Deployment)
    (m : Machine (World × Record) ExtCall ExtResult SyndDB.Contracts.Error (Entry ⊕ Call))
    (e : Event ExtResult (Entry ⊕ Call) (Drift ⊕ Option UInt256)) (h : Calm m e) :
    Orderly maxSupplyIncrease T D m e := by
  refine ⟨?_, ?_⟩
  · refine Module.meets_of_targets (module maxSupplyIncrease T) T D _
      (fun _ _ _ _ _ _ _ => trivial) m e ?_
    cases e with
    | enter o => trivial
    | _ => exact h
  · cases e with
    | enter o =>
      cases o with
      | inr c => exact h.elim
      | inl o =>
        cases o with
        | keyManager sender c => trivial
        | bridge sender c =>
          cases c with
          | handleMessage i => exact h
          | batchHandleMessage is => exact h.elim
          | _ => trivial
    | _ => trivial

theorem supply_increase_limited_sample :
    ∃ m, run (extended plainMessage.deployment ((module 5 0x60).install 0x60)) (boot sampleStart)
        (sampleRun [.drift (.inr (some 103))]) = some m ∧
      m.committed.1.stage 1 = .Completed ∧ m.committed.2.outcomes = [(some 100, some 103)] ∧
      ∀ outcome ∈ m.committed.2.outcomes, Within 5 outcome := by
  have outcome : (run (extended plainMessage.deployment ((module 5 0x60).install 0x60))
      (boot sampleStart) (sampleRun [.drift (.inr (some 103))])).map (fun m =>
        (m.committed.1.stage 1, m.committed.2.outcomes)) =
      some (.Completed, [(some 100, some 103)]) := by
    decide +kernel
  have calm : Throughout (extended plainMessage.deployment ((module 5 0x60).install 0x60)) Calm
      (boot sampleStart) (sampleRun [.drift (.inr (some 103))]) := by
    decide +kernel
  obtain ⟨m, hm, values⟩ := Option.map_eq_some_iff.mp outcome
  obtain ⟨completed, outcomes⟩ := Prod.mk.inj values
  have orderly := throughout_weaken (calm_orderly 5 0x60 plainMessage.deployment) _ _ calm
  have within := supply_increase_limited 5 0x60 plainMessage.deployment 0x0A 0xA7 1700000000
    sampleViews (some 100) _ m hm orderly m.committed (.inr rfl)
  exact ⟨m, hm, completed, outcomes, within⟩

/-- The target mints 900 and calls the module, which records the supply again. -/
theorem recorded_supply_replaced :
    ∃ m, run (extended plainMessage.deployment ((module 5 0x60).install 0x60)) (boot sampleStart)
        (sampleRun [.drift (.inr (some 1000)),
          .enter (.inr (.check 1 .PreExecution [] ⟨[], 0⟩))]) = some m ∧
      m.committed.1.stage 1 = .Completed ∧ m.committed.2.outcomes = [(some 100, some 1000)] ∧
      ¬ ∀ outcome ∈ m.committed.2.outcomes, Within 5 outcome := by
  have outcome : (run (extended plainMessage.deployment ((module 5 0x60).install 0x60))
      (boot sampleStart) (sampleRun [.drift (.inr (some 1000)),
        .enter (.inr (.check 1 .PreExecution [] ⟨[], 0⟩))])).map (fun m =>
        (m.committed.1.stage 1, m.committed.2.outcomes)) =
      some (.Completed, [(some 100, some 1000)]) := by
    decide +kernel
  obtain ⟨m, hm, values⟩ := Option.map_eq_some_iff.mp outcome
  obtain ⟨completed, outcomes⟩ := Prod.mk.inj values
  refine ⟨m, hm, completed, outcomes, fun within => ?_⟩
  obtain ⟨start, before, bound⟩ := within (some 100, some 1000) (by rw [outcomes]; simp)
  cases before
  exact absurd (bound 1000 rfl) (by decide)

end ERC20MaxSupplyIncreaseModule

end SyndDB.Contracts
