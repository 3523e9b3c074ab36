import SyndDB.Contracts.Sessions

namespace SyndDB.Contracts

open Octets Resumption

/-- An entry of the journal. Turning points come with the world they are passed in. -/
inductive Note where
  | initialized (messageId : Bytes32) (initializer signer : Address) (w : World)
  | starting (messageId : Bytes32) (w : World)
  | checked (module : Address) (messageId : Bytes32) (stage : ProcessingStage) (payload : Bytes)
      (agreed : Bool)
  | executing (messageId : Bytes32) (w : World)
  | answered (messageId : Bytes32) (succeeded : Bool) (w : World)
  | completed (messageId : Bytes32) (w : World)

abbrev Journal : Type := List Note

def Moment.toNote (w : World) : Moment → Note
  | .initialized i initializer signer => .initialized i initializer signer w
  | .starting i => .starting i w
  | .executing i => .executing i w
  | .answered i r => .answered i (!r.failed) w
  | .completed i => .completed i w

/-- The module has returned true. -/
def ExtResult.agrees : ExtResult → Bool
  | .returned data => decodeBool data = some true
  | .reverted _ => false

/-- Checks are noted when they are answered. -/
def noteAnswer (c : ExtCall) (r : ExtResult) (_w : World) (t : Journal) : Journal :=
  match c with
  | .check module i stage payload _ => t ++ [.checked module i stage payload r.agrees]
  | _ => t

/-- Every turning point of every message is noted, and every answer of a module. -/
def journal : Companion Journal Empty Drift :=
  observer (fun moment w t => t ++ [moment.toNote w]) noteAnswer

/-- The worlds in which a message was initialized, was handled, was executed and was answered. -/
structure Session where
  initializer : Address
  signer : Address
  atInit : World
  atStart : World
  atExecution : World
  atAnswer : World

namespace Session

def payload (s : Session) (i : Bytes32) : Bytes := (s.atInit.bridge.messageStates i).payload

/-- The modules have been asked about the message, and have returned true. -/
def agreement (s : Session) (i : Bytes32) (stage : ProcessingStage) (modules : List Address) :
    Journal :=
  modules.map fun module => .checked module i stage (s.payload i) true

def opening (s : Session) (i : Bytes32) (agreed : List Address) : Journal :=
  [.initialized i s.initializer s.signer s.atInit, .starting i s.atStart] ++
    s.agreement i .PreExecution agreed

def executed (s : Session) (i : Bytes32) : Journal :=
  s.opening i s.atStart.bridge.preModules.values ++ [.executing i s.atExecution]

def closing (s : Session) (i : Bytes32) (agreed : List Address) : Journal :=
  s.executed i ++ [.answered i true s.atAnswer] ++ s.agreement i .PostExecution agreed

/-- Everything that is noted of a message on its way, in order. -/
def notes (s : Session) (i : Bytes32) : Journal :=
  s.closing i s.atAnswer.bridge.postModules.values

/-- The message was initialized by an authorised initializer, and its signature recovered to a
sequencer key that was valid then. -/
structure Admitted (D : Deployment) (i : Bytes32) (s : Session) : Prop where
  authorized : s.atInit.bridge.messageInitializers s.initializer = true
  signed : messageSigner D i (s.atInit.bridge.messageStates i).targetAddress (s.payload i)
    (s.atInit.bridge.sequencerSignatures i) (s.atInit.bridge.messageStates i).nativeTokenAmount =
      some s.signer
  valid : isKeyValid D .Sequencer s.signer s.atInit = .ret true s.atInit

end Session

/-- The message was admitted, every pre-module registered when it was handled returned true for it,
it was executed with the content it was initialized with, the target call succeeded, and every
post-module registered then returned true. -/
def Processed (D : Deployment) (i : Bytes32) (t : Journal) : Prop :=
  ∃ s : Session, s.Admitted D i ∧ s.atExecution.content i = s.atInit.content i ∧
    (s.notes i).Sublist t

/-- What is known of every message. -/
structure Documented (D : Deployment) (st : World × Journal) : Prop where
  admitted : ∀ i, st.1.stage i ≠ .NotStarted → ∃ s : Session, s.Admitted D i ∧
    st.1.content i = s.atInit.content i ∧
    Note.initialized i s.initializer s.signer s.atInit ∈ st.2
  processed : ∀ i, st.1.stage i = .Completed → Processed D i st.2

/-- The journal grows, and initialized messages keep their content. -/
structure Continues (st st' : World × Journal) : Prop where
  journal : st.2 <+: st'.2
  content : ∀ i, st.1.stage i ≠ .NotStarted →
    st'.1.stage i ≠ .NotStarted ∧ st'.1.content i = st.1.content i

/-- The check does not change the set of modules that is being asked. -/
def ModulesKept : ExtCall → World → ExtResult → World → Prop
  | .check _ _ .PreExecution _ _, w, _, w' => w'.bridge.preModules = w.bridge.preModules
  | .check _ _ .PostExecution _ _, w, _, w' => w'.bridge.postModules = w.bridge.postModules
  | _, _, _, _ => True

instance (s s' : AddressSet) : Decidable (s = s') :=
  decidable_of_iff (s.values = s'.values) ⟨fun h => by cases s; cases s'; cases h; rfl,
    fun h => by rw [h]⟩

instance decidableModulesKept (c : ExtCall) (w : World) (r : ExtResult) (w' : World) :
    Decidable (ModulesKept c w r w') :=
  match c with
  | .check _ _ .PreExecution _ _ | .check _ _ .PostExecution _ _ =>
      inferInstanceAs (Decidable (_ = _))
  | .check _ _ .NotStarted _ _ | .check _ _ .Executing _ _ | .check _ _ .Completed _ _
  | .check _ _ .Rejected _ _ | .withdraw .. | .deposit _ | .target .. | .keyManager .. =>
      .isTrue trivial

/-- The content of the message is that of the session. -/
def Session.Holds (s : Session) (i : Bytes32) (w : World) : Prop :=
  w.stage i ≠ .NotStarted ∧ w.content i = s.atInit.content i

/-- What is known at each point of a session. -/
def Reached (D : Deployment) (i : Bytes32) (p : Point) (st : World × Journal) : Prop :=
  ∃ s : Session, s.Admitted D i ∧ s.Holds i st.1 ∧
    match p with
    | .checking payload total agreed =>
        payload = s.payload i ∧ st.1.bridge.preModules = s.atStart.bridge.preModules ∧
          Tracks s.atStart.bridge.preModules total agreed ∧ (s.opening i agreed).Sublist st.2
    | .cleared => (s.opening i s.atStart.bridge.preModules.values).Sublist st.2
    | .executing | .calling | .called =>
        s.atExecution.content i = s.atInit.content i ∧ (s.executed i).Sublist st.2
    | .concluding payload total agreed =>
        s.atExecution.content i = s.atInit.content i ∧ payload = s.payload i ∧
          st.1.bridge.postModules = s.atAnswer.bridge.postModules ∧
          Tracks s.atAnswer.bridge.postModules total agreed ∧ (s.closing i agreed).Sublist st.2

section Steps

variable (D : Deployment)

theorem continues_refl (st : World × Journal) : Continues st st :=
  ⟨List.prefix_rfl, fun _ h => ⟨h, rfl⟩⟩

theorem continues_trans (a b c : World × Journal) (h : Continues a b) (h' : Continues b c) :
    Continues a c := by
  refine ⟨h.journal.trans h'.journal, ?_⟩
  intro i hi
  obtain ⟨started, content⟩ := h.content i hi
  obtain ⟨started', content'⟩ := h'.content i started
  exact ⟨started', content'.trans content⟩

theorem holds_continues (s : Session) (i : Bytes32) (st st' : World × Journal)
    (h : s.Holds i st.1) (continues : Continues st st') : s.Holds i st'.1 := by
  obtain ⟨started, content⟩ := continues.content i h.1
  exact ⟨started, content.trans h.2⟩

theorem processed_continues (i : Bytes32) (st st' : World × Journal) (h : Processed D i st.2)
    (continues : Continues st st') : Processed D i st'.2 := by
  obtain ⟨s, admitted, content, noted⟩ := h
  exact ⟨s, admitted, content, noted.trans continues.journal.sublist⟩

/-- A step after which every initialized message is documented. -/
theorem documented_step (w w' : World) (t t' : Journal) (h : Documented D (w, t))
    (longer : t <+: t')
    (content : ∀ i, w.stage i ≠ .NotStarted →
      w'.stage i ≠ .NotStarted ∧ w'.content i = w.content i)
    (new : ∀ i, w'.stage i ≠ .NotStarted → w.stage i ≠ .NotStarted ∨
      ∃ s : Session, s.Admitted D i ∧ w'.content i = s.atInit.content i ∧
        Note.initialized i s.initializer s.signer s.atInit ∈ t')
    (done : ∀ i, w'.stage i = .Completed → w.stage i = .Completed ∨ Processed D i t') :
    Documented D (w', t') ∧ Continues (w, t) (w', t') := by
  refine ⟨⟨?_, ?_⟩, longer, content⟩
  · intro i hi
    rcases new i hi with before | now
    · obtain ⟨s, admitted, same, noted⟩ := h.admitted i before
      exact ⟨s, admitted, (content i before).2.trans same, longer.subset noted⟩
    · exact now
  · intro i hi
    rcases done i hi with before | now
    · obtain ⟨s, admitted, same, noted⟩ := h.processed i before
      exact ⟨s, admitted, same, noted.trans longer.sublist⟩
    · exact now

/-- A step that concerns no message. -/
theorem documented_administers (w w' : World) (t : Journal) (h : Documented D (w, t))
    (states : w'.bridge.messageStates = w.bridge.messageStates)
    (signatures : w'.bridge.sequencerSignatures = w.bridge.sequencerSignatures) :
    Documented D (w', t) ∧ Continues (w, t) (w', t) := by
  have stage (i : Bytes32) : w'.stage i = w.stage i := by rw [World.stage, states]; rfl
  have content (i : Bytes32) : w'.content i = w.content i := by
    rw [World.content, states, signatures]
    rfl
  refine documented_step D w w' t t h List.prefix_rfl ?_ ?_ ?_
  · intro i hi
    exact ⟨by rw [stage]; exact hi, content i⟩
  · intro i hi
    rw [stage] at hi
    exact .inl hi
  · intro i hi
    rw [stage] at hi
    exact .inl hi

/-- Something is noted. -/
theorem documented_note (w : World) (t : Journal) (note : Note) (h : Documented D (w, t)) :
    Documented D (w, t ++ [note]) ∧ Continues (w, t) (w, t ++ [note]) :=
  documented_step D w w t _ h (List.prefix_append _ _) (fun _ hi => ⟨hi, rfl⟩) (fun _ hi => .inl hi)
    fun _ hi => .inl hi

theorem content_staged (w : World) (i : Bytes32) (stage : ProcessingStage) (j : Bytes32) :
    (w.staged i stage).content j = w.content j := by
  by_cases same : j = i
  · subst same
    simp [World.content, World.staged]
  · simp [World.content, World.staged, same]

/-- A stage is written. -/
theorem documented_staged (w : World) (t : Journal) (i : Bytes32) (stage : ProcessingStage)
    (h : Documented D (w, t)) (started : w.stage i ≠ .NotStarted) (hstage : stage ≠ .NotStarted)
    (done : stage = .Completed → Processed D i t) :
    Documented D (w.staged i stage, t) ∧ Continues (w, t) (w.staged i stage, t) := by
  have written (j : Bytes32) : (w.staged i stage).stage j = if j = i then stage else w.stage j :=
    stage_setStage i w stage j
  refine documented_step D w _ t t h List.prefix_rfl ?_ ?_ ?_
  · intro j hj
    refine ⟨?_, content_staged w i stage j⟩
    rw [written]
    split
    · exact hstage
    · exact hj
  · intro j hj
    left
    by_cases same : j = i
    · rw [same]
      exact started
    · rw [written, if_neg same] at hj
      exact hj
  · intro j hj
    rw [written] at hj
    split at hj
    · rename_i same
      subst same
      exact .inr (done hj)
    · exact .inl hj

/-- The answer of the key manager does not depend on any message. -/
theorem isKeyValid_same (keyType : KeyType) (publicKey : Address) (w w' : World)
    (timestamp : w'.timestamp = w.timestamp) (keyManager : w'.keyManager = w.keyManager)
    (views : w'.views = w.views) (manager : w'.bridge.teeKeyManager = w.bridge.teeKeyManager)
    (h : isKeyValid D keyType publicKey w = .ret true w) :
    isKeyValid D keyType publicKey w' = .ret true w' := by
  simp only [isKeyValid, bind_apply, get_apply, bind_ret] at h ⊢
  rw [timestamp, keyManager, views, manager]
  split
  · rename_i deployed
    rw [if_pos deployed] at h
    cases valid : TeeKeyManager.isKeyValid w.timestamp w.keyManager keyType publicKey with
    | ok b =>
      rw [valid] at h
      cases h
      rfl
    | error e =>
      rw [valid] at h
      cases h
  · rename_i foreign
    rw [if_neg foreign] at h
    cases valid : w.views.isKeyValid w.bridge.teeKeyManager keyType publicKey with
    | some b =>
      rw [valid] at h
      cases h
      rfl
    | none =>
      rw [valid] at h
      cases h

theorem documented_initiated (w : World) (t : Journal) (i : Bytes32) (target : Address)
    (payload : Bytes) (signature : SequencerSignature) (amount : UInt256) (sender signer : Address)
    (h : Documented D (w, t)) (new : w.stage i = .NotStarted)
    (authorized : w.bridge.messageInitializers sender = true)
    (signed : messageSigner D i target payload signature amount = some signer)
    (valid : isKeyValid D .Sequencer signer w = .ret true w) :
    let w' := w.initiated i target payload signature amount sender signer
    Documented D (w', t ++ [.initialized i sender signer w']) ∧
      Continues (w, t) (w', t ++ [.initialized i sender signer w']) := by
  intro w'
  have state : w'.bridge.messageStates i =
      ⟨i, target, .PreExecution, payload, w.timestamp, amount⟩ := by
    simp [w', World.initiated, storeMessage]
  have stored : w'.bridge.sequencerSignatures i = signature := by
    simp [w', World.initiated, storeMessage]
  have other (j : Bytes32) (hj : j ≠ i) :
      w'.stage j = w.stage j ∧ w'.content j = w.content j := by
    constructor
    · simp [w', World.stage, World.initiated, storeMessage, hj]
    · simp [w', World.content, World.initiated, storeMessage, hj]
  refine documented_step D w w' t _ h (List.prefix_append _ _) ?_ ?_ ?_
  · intro j hj
    have distinct : j ≠ i := by
      intro same
      rw [same] at hj
      exact hj new
    rw [(other j distinct).1]
    exact ⟨hj, (other j distinct).2⟩
  · intro j hj
    by_cases same : j = i
    · subst same
      refine .inr ⟨⟨sender, signer, w', w', w', w'⟩, ⟨authorized, ?_, ?_⟩, rfl, by simp⟩
      · simp only [Session.payload, state, stored]
        exact signed
      · exact isKeyValid_same D .Sequencer signer w w' rfl rfl rfl rfl valid
    · rw [(other j same).1] at hj
      exact .inl hj
  · intro j hj
    by_cases same : j = i
    · subst same
      rw [World.stage, state] at hj
      cases hj
    · rw [(other j same).1] at hj
      exact .inl hj

/-- What is known stays known, unless it is about a loop of checks. -/
theorem reached_continues (i : Bytes32) (p : Point) (st st' : World × Journal)
    (h : Reached D i p st) (continues : Continues st st')
    (loop : match p with
      | .checking _ _ _ => st'.1.bridge.preModules = st.1.bridge.preModules
      | .concluding _ _ _ => st'.1.bridge.postModules = st.1.bridge.postModules
      | _ => True) :
    Reached D i p st' := by
  obtain ⟨s, admitted, holds, known⟩ := h
  refine ⟨s, admitted, holds_continues s i st st' holds continues, ?_⟩
  have longer := continues.journal.sublist
  cases p with
  | checking payload total agreed =>
    exact ⟨known.1, loop.trans known.2.1, known.2.2.1, known.2.2.2.trans longer⟩
  | cleared => exact known.trans longer
  | executing => exact ⟨known.1, known.2.trans longer⟩
  | calling => exact ⟨known.1, known.2.trans longer⟩
  | called => exact ⟨known.1, known.2.trans longer⟩
  | concluding payload total agreed =>
    exact ⟨known.1, known.2.1, loop.trans known.2.2.1, known.2.2.2.1, known.2.2.2.2.trans longer⟩

theorem reached_starting (w : World) (t : Journal) (i : Bytes32) (h : Documented D (w, t))
    (started : w.stage i ≠ .NotStarted) :
    Reached D i (.checking (w.bridge.messageStates i).payload w.bridge.preModules.length [])
      (w, t ++ [.starting i w]) := by
  obtain ⟨s, admitted, content, noted⟩ := h.admitted i started
  have payload : (w.bridge.messageStates i).payload = s.payload i :=
    (congrArg (fun c => c.2.1) content :)
  refine ⟨⟨s.initializer, s.signer, s.atInit, w, w, w⟩, ⟨admitted.1, admitted.2, admitted.3⟩,
    ⟨started, content⟩, payload, rfl, tracks_nil _, ?_⟩
  exact (List.singleton_sublist.mpr noted).append_right [_]

theorem reached_checked (w : World) (t : Journal) (i : Bytes32) (payload : Bytes) (total : Nat)
    (agreed : List Address) (module : Address)
    (h : Reached D i (.checking payload total agreed) (w, t))
    (found : w.bridge.preModules.atIndex agreed.length = some module) :
    Reached D i (.checking payload total (agreed ++ [module]))
      (w, t ++ [.checked module i .PreExecution payload true]) := by
  obtain ⟨s, admitted, holds, rfl, same, tracks, noted⟩ := h
  change w.bridge.preModules = _ at same
  rw [same] at found
  refine ⟨s, admitted, holds, rfl, same, tracks_next _ _ _ module tracks found, ?_⟩
  have longer : s.opening i (agreed ++ [module]) =
      s.opening i agreed ++ [.checked module i .PreExecution (s.payload i) true] := by
    simp [Session.opening, Session.agreement]
  rw [longer]
  exact noted.append_right _

theorem reached_cleared (w : World) (t : Journal) (i : Bytes32) (payload : Bytes)
    (agreed : List Address) (h : Reached D i (.checking payload agreed.length agreed) (w, t)) :
    Reached D i .cleared (w, t) := by
  obtain ⟨s, admitted, holds, -, -, tracks, noted⟩ := h
  rw [tracks_all _ _ tracks] at noted
  exact ⟨s, admitted, holds, noted⟩

theorem reached_executing (w : World) (t : Journal) (i : Bytes32)
    (h : Reached D i .cleared (w, t)) :
    Reached D i .executing (w, t ++ [.executing i w]) := by
  obtain ⟨s, admitted, holds, noted⟩ := h
  exact ⟨⟨s.initializer, s.signer, s.atInit, s.atStart, w, w⟩, ⟨admitted.1, admitted.2, admitted.3⟩,
    holds, holds.2, noted.append_right _⟩

theorem reached_answered (w : World) (t : Journal) (i : Bytes32) (h : Reached D i .called (w, t)) :
    Reached D i (.concluding (w.bridge.messageStates i).payload w.bridge.postModules.length [])
      (w, t ++ [.answered i true w]) := by
  obtain ⟨s, admitted, holds, executed, noted⟩ := h
  have payload : (w.bridge.messageStates i).payload = s.payload i :=
    (congrArg (fun c => c.2.1) holds.2 :)
  refine ⟨⟨s.initializer, s.signer, s.atInit, s.atStart, s.atExecution, w⟩,
    ⟨admitted.1, admitted.2, admitted.3⟩, holds, executed, payload, rfl, tracks_nil _, ?_⟩
  have longer :
      Session.closing ⟨s.initializer, s.signer, s.atInit, s.atStart, s.atExecution, w⟩ i [] =
        s.executed i ++ [.answered i true w] := List.append_nil _
  rw [longer]
  exact noted.append_right _

theorem reached_confirmed (w : World) (t : Journal) (i : Bytes32) (payload : Bytes) (total : Nat)
    (agreed : List Address) (module : Address)
    (h : Reached D i (.concluding payload total agreed) (w, t))
    (found : w.bridge.postModules.atIndex agreed.length = some module) :
    Reached D i (.concluding payload total (agreed ++ [module]))
      (w, t ++ [.checked module i .PostExecution payload true]) := by
  obtain ⟨s, admitted, holds, executed, rfl, same, tracks, noted⟩ := h
  change w.bridge.postModules = _ at same
  rw [same] at found
  refine ⟨s, admitted, holds, executed, rfl, same, tracks_next _ _ _ module tracks found, ?_⟩
  have longer : s.closing i (agreed ++ [module]) =
      s.closing i agreed ++ [.checked module i .PostExecution (s.payload i) true] := by
    simp [Session.closing, Session.agreement]
  rw [longer]
  exact noted.append_right _

theorem processed_reached (w : World) (t : Journal) (i : Bytes32) (payload : Bytes)
    (agreed : List Address) (h : Reached D i (.concluding payload agreed.length agreed) (w, t)) :
    Processed D i t := by
  obtain ⟨s, admitted, holds, executed, -, -, tracks, noted⟩ := h
  rw [tracks_all _ _ tracks] at noted
  exact ⟨s, admitted, executed, noted⟩

/-- The condition on a run of the bridge. -/
abbrev ChecksKeepModules : Machine World ExtCall ExtResult Error Entry →
    Event ExtResult Entry Drift → Prop :=
  Meets (system D) ModulesKept

/-- The same condition beside the journal. -/
abbrev Noted (c : ExtCall) (st : World × Journal) (r : ExtResult) (st' : World × Journal) : Prop :=
  ModulesKept c st.1 r st'.1

/-- A call of which nothing is noted. -/
theorem reached_passes (c : ExtCall) (hc : ∀ r w t, noteAnswer c r w t = t)
    (accepted : Bytes → Prop) (i : Bytes32) (p p' : Point)
    (hp : ∀ st st', Reached D i p st → Continues st st' → Reached D i p' st') :
    Passes journal (Documented D) Continues Noted c accepted (Reached D i p) (Reached D i p') := by
  intro b st before
  refine ⟨⟨before.holds, before.grown⟩, ?_⟩
  intro r st' answered data _ _
  rw [hc]
  exact ⟨answered.1, continues_refl _, hp st st' before.here answered.2.1⟩

/-- An answer of a module is noted. -/
theorem noted_check (module : Address) (i : Bytes32) (stage : ProcessingStage) (payload : Bytes)
    (signature : SequencerSignature) (φ ψ : World × Journal → Prop)
    (h : ∀ st st', φ st → Continues st st' →
      ModulesKept (.check module i stage payload signature) st.1 (.returned []) st'.1 →
      ψ (st'.1, st'.2 ++ [.checked module i stage payload true])) :
    Passes journal (Documented D) Continues Noted (.check module i stage payload signature)
      (fun data => decodeBool data = some true) φ ψ := by
  intro b st before
  refine ⟨⟨before.holds, before.grown⟩, ?_⟩
  intro r st' answered data returned accepted
  obtain ⟨holds, continues⟩ := documented_note D st'.1 st'.2
    (.checked module i stage payload r.agrees) answered.1
  refine ⟨holds, continues, ?_⟩
  have agreed : r.agrees = true := by
    rw [returned]
    exact decide_eq_true accepted
  have kept : ModulesKept (.check module i stage payload signature) st.1 (.returned []) st'.1 := by
    have met := answered.2.2
    cases stage with
    | PreExecution => exact met
    | PostExecution => exact met
    | _ => trivial
  change ψ (st'.1, st'.2 ++ [.checked module i stage payload r.agrees])
  rw [agreed]
  exact h st st' before.here answered.2.1 kept

theorem documented_idle (c : ExtCall) (hc : Idle c) (b st : World × Journal)
    (documented : Documented D st) (continues : Continues b st) :
    Owes (Documented D) Continues Noted (fun b' _ st' => Documented D st' ∧ Continues b' st') b
      (journal.ext c st) := by
  have silent : ∀ r w t, noteAnswer c r w t = t := by
    cases c with
    | deposit a => exact fun _ _ _ => rfl
    | keyManager k c => exact fun _ _ _ => rfl
    | _ => exact hc.elim
  refine ⟨⟨documented, continues⟩, fun r st' answered => ?_⟩
  change Documented D (st'.1, noteAnswer c r st'.1 st'.2) ∧
    Continues st' (st'.1, noteAnswer c r st'.1 st'.2)
  rw [silent]
  exact ⟨answered.1, continues_refl _⟩

/-- Moves that leave the bridge alone change nothing of what has been reached. -/
theorem reached_same (i : Bytes32) (p : Point) (w w' : World) (t : Journal) (same : SameBridge w w')
    (known : Reached D i p (w, t)) : Reached D i p (w', t) := by
  have content (j : Bytes32) : w'.content j = w.content j := by
    rw [World.content, same.bridge]
    rfl
  refine reached_continues D i p (w, t) (w', t) known ⟨List.prefix_rfl, fun j hj => ?_⟩ ?_
  · exact ⟨by rw [World.stage, same.bridge]; exact hj, content j⟩
  · cases p with
    | checking payload total agreed => exact congrArg BridgeState.preModules same.bridge
    | concluding payload total agreed => exact congrArg BridgeState.postModules same.bridge
    | _ => trivial

theorem reached_pre (i : Bytes32) (payload : Bytes) (signature : SequencerSignature) (total : Nat)
    (agreed : List Address) (module : Address) :
    Passes journal (Documented D) Continues Noted (.check module i .PreExecution payload signature)
      (fun data => decodeBool data = some true)
      (fun st => st.1.bridge.preModules.atIndex agreed.length = some module ∧
        Reached D i (.checking payload total agreed) st)
      (Reached D i (.checking payload total (agreed ++ [module]))) := by
  refine noted_check D module i .PreExecution payload signature _ _ ?_
  intro st st' here continues kept
  have known := reached_continues D i (.checking payload total agreed) st st' here.2 continues kept
  refine reached_checked D st'.1 st'.2 i payload total agreed module known ?_
  rw [kept]
  exact here.1

theorem reached_post (i : Bytes32) (payload : Bytes) (signature : SequencerSignature) (total : Nat)
    (agreed : List Address) (module : Address) :
    Passes journal (Documented D) Continues Noted (.check module i .PostExecution payload signature)
      (fun data => decodeBool data = some true)
      (fun st => st.1.bridge.postModules.atIndex agreed.length = some module ∧
        Reached D i (.concluding payload total agreed) st)
      (Reached D i (.concluding payload total (agreed ++ [module]))) := by
  refine noted_check D module i .PostExecution payload signature _ _ ?_
  intro st st' here continues kept
  have known := reached_continues D i (.concluding payload total agreed) st st' here.2 continues
    kept
  refine reached_confirmed D st'.1 st'.2 i payload total agreed module known ?_
  rw [kept]
  exact here.1

theorem documented_cleared (i : Bytes32) (payload : Bytes) (agreed : List Address) (w : World)
    (t : Journal) (documented : Documented D (w, t))
    (known : Reached D i (.checking payload agreed.length agreed) (w, t)) :
    Fine (Documented D) Continues (Reached D i .cleared) (w, t) (w.staged i .Executing, t) := by
  have reached := reached_cleared D w t i payload agreed known
  obtain ⟨s, admitted, holds, noted⟩ := reached
  obtain ⟨documented', continues⟩ := documented_staged D w t i .Executing documented holds.1
    (by decide) (by intro h; cases h)
  exact ⟨documented', continues,
    reached_continues D i .cleared _ _ ⟨s, admitted, holds, noted⟩ continues trivial⟩

theorem documented_answered (i : Bytes32) (w : World) (t : Journal)
    (documented : Documented D (w, t)) (known : Reached D i .called (w, t)) :
    Fine (Documented D) Continues
      (Reached D i (.concluding (w.bridge.messageStates i).payload w.bridge.postModules.length []))
      (w, t) (w.staged i .PostExecution, t ++ [.answered i true w]) := by
  have concluding := reached_answered D w t i known
  obtain ⟨noted, continues⟩ := documented_note D w t (.answered i true w) documented
  have started : w.stage i ≠ .NotStarted := by
    obtain ⟨s, admitted, holds, noted⟩ := known
    exact holds.1
  obtain ⟨holds, staged⟩ := documented_staged D w _ i .PostExecution noted started (by decide)
    (by intro h; cases h)
  exact ⟨holds, continues_trans _ _ _ continues staged,
    reached_continues D i (.concluding _ _ _) _ _ concluding staged rfl⟩

/-- The message is completed when everything has been noted. -/
theorem documented_completed (i : Bytes32) (payload : Bytes) (agreed : List Address) (w : World)
    (t : Journal) (documented : Documented D (w, t))
    (known : Reached D i (.concluding payload agreed.length agreed) (w, t)) :
    Documented D (w.staged i .Completed, t ++ [.completed i (w.staged i .Completed)]) ∧
      Continues (w, t) (w.staged i .Completed, t ++ [.completed i (w.staged i .Completed)]) := by
  have processed := processed_reached D w t i payload agreed known
  have started : w.stage i ≠ .NotStarted := by
    obtain ⟨s, admitted, holds, noted⟩ := known
    exact holds.1
  obtain ⟨holds, continues⟩ := documented_staged D w t i .Completed documented started (by decide)
    fun _ => processed
  obtain ⟨noted, longer⟩ := documented_note D (w.staged i .Completed) t
    (.completed i (w.staged i .Completed)) holds
  exact ⟨noted, continues_trans _ _ _ continues longer⟩

theorem journal_duties : Duties D journal (Documented D) Continues Noted
    (Meets (extended D journal) Noted) (Reached D) where
  refl := continues_refl
  trans := continues_trans
  meets := fun _ _ h => h
  drift := by
    intro m d _ documented
    have bridge := drift_bridge d m.store.1
    exact documented_administers D m.store.1 _ m.store.2 documented
      (congrArg BridgeState.messageStates bridge) (congrArg BridgeState.sequencerSignatures bridge)
  own := fun _ c => nomatch c
  administered := fun w w' t moved documented =>
    documented_administers D w w' t documented moved.states moved.signatures
  idle := fun c hc b st documented continues => documented_idle D c hc b st documented continues
  initialized := fun w t i target payload signature amount sender signer documented new authorized
      signed valid => documented_initiated D w t i target payload signature amount sender signer
    documented new authorized signed valid
  kept := fun i p w w' t same known => reached_same D i p w w' t same known
  starting := by
    intro i w t documented hstage
    obtain ⟨holds, continues⟩ := documented_note D w t (.starting i w) documented
    refine ⟨holds, continues, reached_starting D w t i documented ?_⟩
    intro new
    rw [new] at hstage
    cases hstage
  preCheck := fun i payload signature total agreed module =>
    reached_pre D i payload signature total agreed module
  cleared := fun i payload agreed w t documented known =>
    documented_cleared D i payload agreed w t documented known
  withdraw := fun i amount => reached_passes D _ (fun _ _ _ => rfl) _ i .cleared .cleared
    fun st st' known continues => reached_continues D i .cleared st st' known continues trivial
  executing := by
    intro i w t documented known
    obtain ⟨holds, continues⟩ := documented_note D w t (.executing i w) documented
    exact ⟨holds, continues, reached_executing D w t i known⟩
  calling := by
    intro i w t documented known
    obtain ⟨holds, continues⟩ := documented_administers D w (w.calling i) t documented rfl rfl
    exact ⟨holds, continues, reached_continues D i .executing _ _ known continues trivial⟩
  target := fun i tg v p => reached_passes D _ (fun _ _ _ => rfl) _ i .calling .called
    fun st st' known continues => reached_continues D i .calling st st' known continues trivial
  ownTarget := fun _ _ _ _ known => known
  answered := fun i _ w t documented known => documented_answered D i w t documented known
  postCheck := fun i payload signature total agreed module =>
    reached_post D i payload signature total agreed module
  completed := fun i payload agreed w t documented known =>
    documented_completed D i payload agreed w t documented known

/-- The messages that a call handles. -/
def BridgeCall.completes : BridgeCall → List Bytes32
  | .handleMessage i => [i]
  | .initializeAndHandleMessage i _ _ _ _ _ => [i]
  | .batchHandleMessage is => is
  | _ => []

/-- Since `e`, the store is in order, and the given messages went all the way. -/
def Accomplished (is : List Bytes32) (e st : World × Journal) : Prop :=
  (Documented D st ∧ Continues e st) ∧ ∀ i ∈ is, Processed D i st.2

theorem accomplished_nil (e st : World × Journal) (h : Documented D st ∧ Continues e st) :
    Accomplished D [] e st :=
  ⟨h, fun _ hi => absurd hi List.not_mem_nil⟩

/-- One more message is handled. -/
theorem accomplished_next (done : List Bytes32) (i : Bytes32) (e b st : World × Journal)
    (h : Accomplished D done e st) :
    Carries (Documented D) Continues Noted (fun _ _ st' => Accomplished D (done ++ [i]) e st') b
      (handleWith D journal i st) := by
  refine upholds_mono ?_ b _
    (handleWith_owes (duties_obligations (journal_duties D)) i b st h.1.1 fun _ => trivial)
  intro b' _ st' after
  obtain ⟨holds, continues, completed⟩ := after
  refine ⟨⟨holds, continues_trans _ _ _ h.1.2 continues⟩, fun j hj => ?_⟩
  rcases List.mem_append.mp hj with before | now
  · exact processed_continues D j st st' (h.2 j before) continues
  · rw [List.mem_singleton.mp now]
    exact holds.processed i completed

/-- A call that comes to its end has taken the messages that it handles all the way. -/
theorem bridgeWith_accomplished (sender : Address) (c : BridgeCall) (st : World × Journal)
    (h : Documented D st) :
    Carries (Documented D) Continues Noted (fun _ _ st' => Accomplished D c.completes st st') st
      (bridgeWith D journal sender c st) := by
  have R := duties_obligations (journal_duties D)
  have entered : Documented D st ∧ Continues st st := ⟨h, continues_refl st⟩
  have other (hc : c.completes = []) :
      Carries (Documented D) Continues Noted (fun _ _ st' => Accomplished D c.completes st st') st
        (bridgeWith D journal sender c st) := by
    refine upholds_mono ?_ st _ (bridgeWith_owes R sender c st h (fun _ _ _ => trivial)
      (fun _ _ _ _ => trivial) fun _ _ _ _ _ _ _ _ _ _ _ _ => trivial)
    intro b _ st' after
    rw [hc]
    exact accomplished_nil D st st' after
  cases c with
  | handleMessage i => exact accomplished_next D [] i st st st (accomplished_nil D st st entered)
  | initializeAndHandleMessage i t p s vs a =>
    refine upholds_bind st _ _ ?_
    rw [onlyMessageInitializer, interpret_get, interpret_require]
    refine upholds_require st st _ _ fun ok => ?_
    refine upholds_seq _ st _ _
      (initializeWith_owes R sender i t p s a st st st.1 st.2 ok entered) ?_
    intro b₁ _ st₁ initialized
    refine upholds_seq _ b₁ _ _ (signing_owes R i p vs st b₁ st₁
      ⟨initialized.1, initialized.2.2.2⟩) ?_
    intro b₂ _ st₂ signed
    exact accomplished_next D [] i st b₂ st₂ (accomplished_nil D st st₂ signed.1)
  | batchHandleMessage is =>
    refine upholds_each (Q := fun done _ st' => Accomplished D done st st') _ _ ?_ st st
      (accomplished_nil D st st entered)
    intro done i rest _ b st' before
    exact accomplished_next D done i st b st' before
  | _ => exact other rfl

/-- The events of a run, with the journal. -/
def noted (es : List (Event ExtResult Entry Drift)) :
    List (Event ExtResult (Entry ⊕ Empty) Drift) :=
  es.map (Event.lift Sum.inl id)

theorem journal_lifts : Lifts (extended D journal) (system D) Sum.inl id :=
  observer_lifts D _ _

theorem noted_kept (m' : Machine (World × Journal) ExtCall ExtResult Error (Entry ⊕ Empty))
    (m : Machine World ExtCall ExtResult Error Entry) (e : Event ExtResult Entry Drift)
    (mirrors : m'.Mirrors Unserved m) (h : ChecksKeepModules D m e) :
    Meets (extended D journal) Noted m' (e.lift Sum.inl id) := by
  obtain ⟨store', stack'⟩ := m'
  obtain ⟨store, stack⟩ := m
  obtain ⟨hstore, hstack⟩ := mirrors
  subst hstore
  cases e with
  | answer r =>
    intro f' st' same
    change stack' = _ at same
    subst same
    cases hstack with
    | @cons _ _ _ st head tail =>
      cases head with
      | contract f' f entry atCall waiting later =>
        have met := h f _ rfl
        have resumed : (resumesIn (extended D journal) ⟨store', .contract f' :: st'⟩ f' r).1 =
            resumesIn (system D) ⟨store'.1, .contract f :: st⟩ f r := by
          simp only [resumesIn]
          rw [← atCall]
          cases hr : r.failed with
          | true => simp [extended, system, hr]
          | false => simp [extended, system, hr]
        simp only [Noted]
        rw [resumed, waiting, atCall]
        exact met
  | _ => trivial

/-- In every run of the bridge in which no check changes the set of modules that is being asked,
every completed message was admitted, checked, executed and checked again, in this order. A call
that handles messages, here or within other calls, leaves everything as it was unless all of this
is true of each of them. -/
theorem completed_processed (owner verifier : Address) (timestamp : UInt256) (views : Views)
    (es : List (Event ExtResult Entry Drift)) (m : Machine World ExtCall ExtResult Error Entry)
    (hm : run (system D) (boot (genesis D owner verifier timestamp views)) es = some m)
    (kept : Throughout (system D) (ChecksKeepModules D)
      (boot (genesis D owner verifier timestamp views)) es) :
    ∃ m', run (extended D journal) (boot (genesis D owner verifier timestamp views, []))
        (noted es) = some m' ∧ m'.store.1 = m.store ∧ m'.committed.1 = m.committed ∧
      (∀ st, st = m'.store ∨ st = m'.committed → ∀ i, st.1.stage i = .Completed →
        Processed D i st.2) ∧
      ∀ sender c es₁ m₁, Finishes (system D) m (.bridge sender c) es₁ m₁ →
        Throughout (system D) (ChecksKeepModules D) m (.enter (.bridge sender c) :: es₁) →
        m₁.store = m.store ∨
          ∃ m₁', run (extended D journal) m' (noted (.enter (.bridge sender c) :: es₁)) = some m₁' ∧
            m₁'.store.1 = m₁.store ∧ ∀ i ∈ c.completes, Processed D i m₁'.store.2 := by
  have lifts := journal_lifts D
  have rule := extended_guarantees (duties_obligations (journal_duties D))
  obtain ⟨m', hm', mirrors⟩ := run_lifts lifts _ _ m
    (boot_mirrors (genesis D owner verifier timestamp views) []) es hm
  have kept' := throughout_lifts lifts (B := Meets (extended D journal) Noted) (noted_kept D) _ _ m
    (boot_mirrors (genesis D owner verifier timestamp views) []) es hm kept
  have start : Documented D (genesis D owner verifier timestamp views, []) := by
    refine ⟨fun i hi => absurd rfl hi, ?_⟩
    intro i hi
    simp [World.stage, genesis, BridgeState.deploy, MessageState.empty] at hi
  have last := run_kept rule _ m' _ (boot_kept _ start) kept' hm'
  have committed := kept_committed m' last
  refine ⟨m', hm', mirrors.store, mirrors_committed mirrors, ?_, ?_⟩
  · intro st hst
    rcases hst with rfl | rfl
    · exact last.holds.processed
    · exact committed.processed
  · intro sender c es₁ m₁ finishes orderly
    obtain ⟨m₁', finishes', mirrors'⟩ := finishes_lifts lifts m' m m₁ mirrors (.bridge sender c) es₁
      finishes
    have whole : run (system D) m (.enter (.bridge sender c) :: es₁) = some m₁ := by
      obtain ⟨m₀, entered, above, hr, done⟩ := finishes
      rw [run, entered, Option.bind_some, hr]
    have orderly' := throughout_lifts lifts (B := Meets (extended D journal) Noted) (noted_kept D)
      m' m m₁ mirrors _ whole orderly
    rcases finished_outcome rule (fun _ _ st => Accomplished D c.completes m'.store st) m' m₁'
        (.inl (.bridge sender c)) (noted es₁) last
      (bridgeWith_accomplished D sender c m'.store last.holds) orderly' finishes' with same | done
    · left
      rw [← mirrors'.store, same, mirrors.store]
    · obtain ⟨b, accomplished⟩ := done
      obtain ⟨m₀', entered', above', hr', _⟩ := finishes'
      refine .inr ⟨m₁', ?_, mirrors'.store, accomplished.2⟩
      change run (extended D journal) m' (.enter (.inl (.bridge sender c)) :: noted es₁) = some m₁'
      rw [run, entered', Option.bind_some]
      exact hr'

end Steps

/-- The plain message with a module on either side: both return true, and the target accepts. -/
def checkedRun : List (Event ExtResult Entry Drift) :=
  [.enter (.bridge 0x0A (.addPreModule 0x60)), .enter (.bridge 0x0A (.addPostModule 0x61))] ++
  plainMessage.setup ++
  [.enter (.bridge 0x77 (.handleMessage 1)),
   .answer (.returned (word 1)),
   .answer (.returned []),
   .answer (.returned (word 1))]

theorem completed_processed_checked :
    ∃ m', run (extended plainMessage.deployment journal) (boot (plainMessage.genesis, []))
        (noted checkedRun) = some m' ∧
      m'.committed.1.stage 1 = .Completed ∧ Processed plainMessage.deployment 1 m'.committed.2 := by
  have outcome : (run (system plainMessage.deployment) (boot plainMessage.genesis) checkedRun).map
      (fun m => m.committed.stage 1) = some .Completed := by
    decide +kernel
  have kept : Throughout (system plainMessage.deployment)
      (ChecksKeepModules plainMessage.deployment) (boot plainMessage.genesis) checkedRun := by
    decide +kernel
  obtain ⟨m, hm, completed⟩ := Option.map_eq_some_iff.mp outcome
  obtain ⟨m', hm', _, committed, processed, _⟩ := completed_processed plainMessage.deployment 0x0A
    0xA7 1700000000 sampleViews checkedRun m hm kept
  rw [← committed] at completed
  exact ⟨m', hm', completed, processed m'.committed (.inr rfl) 1 completed⟩

end SyndDB.Contracts
