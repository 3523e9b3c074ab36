import SyndDB.Contracts.Frame

namespace SyndDB.Contracts

open Octets Resumption

def World.stage (w : World) (messageId : Bytes32) : ProcessingStage :=
  (w.bridge.messageStates messageId).stage

/-- What is fixed when a message is initialized: target, payload, signature data and amount. -/
def World.content (w : World) (messageId : Bytes32) :
    Address × Bytes × SequencerSignature × UInt256 :=
  let state := w.bridge.messageStates messageId
  (state.targetAddress, state.payload, w.bridge.sequencerSignatures messageId,
    state.nativeTokenAmount)

/-- Stages move forward and initialized messages keep their content. -/
def Forward (w w' : World) : Prop :=
  ∀ i, (w.stage i).rank ≤ (w'.stage i).rank ∧
    (w.stage i ≠ .NotStarted → w'.content i = w.content i)

/-- No message is executed before it is executing, and none twice. -/
def ExecutedOnce (w : World) : Prop :=
  ∀ i, w.stage i ≠ .Rejected ∧ w.executions i ≤ 1 ∧
    ((w.stage i).rank ≤ 1 → w.executions i = 0)

/-- What a frame that waits for an external call needs to find when it resumes. -/
def Relies : ExtCall → World → Prop
  | .check _ i stage _ _, w => w.stage i = stage ∧ stage ≠ .NotStarted
  | .withdraw i _, w => w.stage i = .Executing ∧ w.executions i = 0
  | .target i _ _ _, w => w.stage i = .Executing
  | _, _ => True

/-- The message on behalf of which a call is made. -/
def ExtCall.message? : ExtCall → Option Bytes32
  | .check _ i _ _ _ => some i
  | .withdraw i _ => some i
  | .target i _ _ _ => some i
  | _ => none

/-- The call is a pre-module check of the given message. -/
def ExtCall.preChecks (messageId : Bytes32) : ExtCall → Bool
  | .check _ i .PreExecution _ _ => i = messageId
  | _ => false

/-- The initialized messages a call sets out to handle. -/
def BridgeCall.handles : BridgeCall → List Bytes32
  | .handleMessage i => [i]
  | .batchHandleMessage is => is
  | _ => []

/-- The call does not handle a message of which a pre-module check is still in progress. -/
def Guarded (waiting : List ExtCall) : Event ExtResult Entry Drift → Prop
  | .enter (.bridge _ c) => ∀ i ∈ c.handles, ∀ e ∈ waiting, e.preChecks i = false
  | _ => True

instance decidableGuarded (waiting : List ExtCall) (e : Event ExtResult Entry Drift) :
    Decidable (Guarded waiting e) :=
  match e with
  | .enter (.bridge _ c) =>
      List.decidableBAll (fun i => ∀ e ∈ waiting, e.preChecks i = false) c.handles
  | .enter (.keyManager _ _) | .answer _ | .begin | .commit | .abort | .drift _ =>
      inferInstanceAs (Decidable True)

theorem forward_refl (w : World) : Forward w w := fun _ => ⟨Nat.le_refl _, fun _ => rfl⟩

theorem forward_trans (a b c : World) (h : Forward a b) (h' : Forward b c) : Forward a c := by
  intro i
  refine ⟨Nat.le_trans (h i).1 (h' i).1, ?_⟩
  intro started
  have still : b.stage i ≠ .NotStarted := by
    intro hb
    have := (h i).1
    rw [hb] at this
    revert started this
    cases a.stage i <;> simp [ProcessingStage.rank]
  rw [(h' i).2 still, (h i).2 started]

theorem stage_same (w w' : World) (h : SameMessages w w') (i : Bytes32) :
    w'.stage i = w.stage i := by
  simp only [World.stage, h.states]

theorem forward_same (w w' : World) (h : SameMessages w w') : Forward w w' := by
  intro i
  refine ⟨Nat.le_of_eq (congrArg _ (stage_same w w' h i).symm), ?_⟩
  intro _
  simp only [World.content, h.states, h.signatures]

/-- Two worlds that agree on everything about the messages of `ws` and keep the invariant. -/
private theorem relies_congr (w w' : World) (e : ExtCall)
    (hs : ∀ i, e.message? = some i → w'.stage i = w.stage i)
    (hx : ∀ i, e.message? = some i → w'.executions i = w.executions i) (h : Relies e w) :
    Relies e w' := by
  cases e with
  | check m i stage p s => exact ⟨(hs i rfl).trans h.1, h.2⟩
  | withdraw i a => exact ⟨(hs i rfl).trans h.1, (hx i rfl).trans h.2⟩
  | target i t v p => exact (hs i rfl).trans h
  | deposit a => trivial
  | keyManager k c => trivial

theorem holds_same (ws : List ExtCall) (w w' : World) (h : SameMessages w w')
    (hw : Holds ExecutedOnce Relies ws w) : Holds ExecutedOnce Relies ws w' := by
  refine ⟨?_, ?_⟩
  · intro i
    rw [stage_same w w' h, h.executions]
    exact hw.1 i
  · intro e he
    exact relies_congr w w' e (fun i _ => stage_same w w' h i) (fun i _ => h.executions i)
      (hw.2 e he)

section Handle

variable (ws : List ExtCall) (id : Bytes32)

/-- No frame below is working on the message. -/
def Unclaimed : Prop := ∀ e ∈ ws, e.message? ≠ some id

/-- Obligations at the calls and the returns of code above frames that wait for `ws`. -/
def Once {α : Type} (Q : World → α → World → Prop) (base : World)
    (m : Resume World ExtCall ExtResult Error α) : Prop :=
  m.Sat (fun c b s => Holds ExecutedOnce Relies (c :: ws) s ∧ Forward b s)
    (fun c s => Holds ExecutedOnce Relies (c :: ws) s) Q base

/-- The message is at a stage, and everything so far was in order. -/
structure At (stage : ProcessingStage) (base w : World) : Prop where
  holds : Holds ExecutedOnce Relies ws w
  stage : w.stage id = stage
  forward : Forward base w

variable {ws id}

theorem unclaimed_of_guard (w : World) (h : Holds ExecutedOnce Relies ws w)
    (hs : w.stage id = .PreExecution) (hg : ∀ e ∈ ws, e.preChecks id = false) :
    Unclaimed ws id := by
  intro e he hi
  have hr := h.2 e he
  have hn := hg e he
  cases e with
  | check m i stage p s =>
    cases hi
    rw [Relies, hs] at hr
    rw [← hr.1] at hn
    simp [ExtCall.preChecks] at hn
  | withdraw i a => cases hi; simp [Relies, hs] at hr
  | target i t v p => cases hi; simp [Relies, hs] at hr
  | deposit a => cases hi
  | keyManager k c => cases hi

theorem unclaimed_of_fresh (w : World) (h : Holds ExecutedOnce Relies ws w)
    (hs : w.stage id = .NotStarted) : Unclaimed ws id := by
  intro e he hi
  have hr := h.2 e he
  cases e with
  | check m i stage p s =>
    cases hi
    rw [Relies, hs] at hr
    exact hr.2 hr.1.symm
  | withdraw i a => cases hi; simp [Relies, hs] at hr
  | target i t v p => cases hi; simp [Relies, hs] at hr
  | deposit a => cases hi
  | keyManager k c => cases hi

/-- A change of the message itself does not concern the frames below. -/
theorem holds_local (w w' : World) (hu : Unclaimed ws id)
    (h : Holds ExecutedOnce Relies ws w)
    (hs : ∀ j, j ≠ id → w'.stage j = w.stage j)
    (hx : ∀ j, j ≠ id → w'.executions j = w.executions j)
    (hi : w'.stage id ≠ .Rejected ∧ w'.executions id ≤ 1 ∧
      ((w'.stage id).rank ≤ 1 → w'.executions id = 0)) :
    Holds ExecutedOnce Relies ws w' := by
  refine ⟨?_, ?_⟩
  · intro j
    by_cases hj : j = id
    · rw [hj]; exact hi
    · rw [hs j hj, hx j hj]; exact h.1 j
  · intro e he
    have other (j : Bytes32) (hj : e.message? = some j) : j ≠ id := by
      intro hji
      exact hu e he (hji ▸ hj)
    exact relies_congr w w' e (fun j hj => hs j (other j hj)) (fun j hj => hx j (other j hj))
      (h.2 e he)

theorem holds_tail (c : ExtCall) (w : World) (h : Holds ExecutedOnce Relies (c :: ws) w) :
    Holds ExecutedOnce Relies ws w :=
  ⟨h.1, fun e he => h.2 e (by simp [he])⟩

theorem holds_head (c : ExtCall) (w : World) (h : Holds ExecutedOnce Relies (c :: ws) w) :
    Relies c w :=
  h.2 c (by simp)

theorem holds_cons (c : ExtCall) (w : World) (h : Holds ExecutedOnce Relies ws w)
    (hc : Relies c w) : Holds ExecutedOnce Relies (c :: ws) w := by
  refine ⟨h.1, ?_⟩
  intro e he
  rcases List.mem_cons.mp he with rfl | he
  · exact hc
  · exact h.2 e he

/-- A call that is not the target call: whatever the callee does, the frame finds what it relies
on and starts afresh from there. -/
theorem issue_once (c : ExtCall) (hc : (Action.called c).targetCall? = none)
    {Q : World → Bytes → World → Prop} (base w : World) (h : Holds ExecutedOnce Relies ws w)
    (hr : Relies c w) (hf : Forward base w)
    (hQ : ∀ w₁ w₂ data, Holds ExecutedOnce Relies (c :: ws) w₁ → SameMessages w₁ w₂ →
      Q w₁ data w₂) : Once ws Q base (issue c w) := by
  have same := (record_untouched w (.called c) hc).toSameMessages
  refine ⟨⟨?_, ?_⟩, ?_⟩
  · exact holds_same _ _ _ same (holds_cons c w h hr)
  · exact forward_trans _ _ _ hf (forward_same _ _ same)
  · intro r w₁ h₁
    cases r with
    | reverted data => trivial
    | returned data =>
      exact hQ w₁ _ data h₁ (record_untouched w₁ (.returned c) rfl).toSameMessages

theorem at_same (stage : ProcessingStage) (w w' : World) (h : SameMessages w w')
    (hw : Holds ExecutedOnce Relies ws w) (hs : w.stage id = stage) :
    At ws id stage w w' :=
  ⟨holds_same ws w w' h hw, (stage_same w w' h id).trans hs, forward_same w w' h⟩

theorem validateModules_once (modules : BridgeState → AddressSet) (stage : ProcessingStage)
    (hstage : stage ≠ .NotStarted) (payload : Bytes) (signature : SequencerSignature)
    (base w : World) (h : At ws id stage base w) :
    Once ws (fun b _ s => At ws id stage b s) base
      (_validateModules id modules stage payload signature w) := by
  refine sat_each _ _ ?_ base w h
  intro i _ b s hs
  simp only [_checkModule, bind_apply, get_apply, bind_ret]
  cases (modules s.bridge).atIndex i with
  | none => trivial
  | some module =>
    apply sat_bind
    refine issue_once _ rfl b s hs.holds ⟨hs.stage, hstage⟩ hs.forward ?_
    intro w₁ w₂ data h₁ same
    have hat : At ws id stage w₁ w₂ :=
      at_same stage w₁ w₂ same (holds_tail _ _ h₁) (holds_head _ _ h₁).1
    cases decodeBool data with
    | none => trivial
    | some ok => exact sat_require _ _ _ _ fun _ => hat

theorem stage_setStage (id : Bytes32) (w : World) (stage : ProcessingStage) (j : Bytes32) :
    World.stage { w with bridge := { w.bridge with
        messageStates := Function.update w.bridge.messageStates id
          { w.bridge.messageStates id with stage := stage } } } j =
      if j = id then stage else w.stage j := by
  by_cases hj : j = id
  · subst hj; simp [World.stage]
  · simp [World.stage, hj]

/-- A stage write. It is in order when the frame owns the message and moves it on. -/
theorem setStage_once (hu : Unclaimed ws id) (old new : ProcessingStage)
    (hrank : old.rank ≤ new.rank) (hnew : new ≠ .Rejected) (hgo : 1 < new.rank)
    (base w : World) (h : At ws id old base w) :
    Once ws (fun b _ s => At ws id new b s ∧ s.executions id = w.executions id) base
      (setStage id new w) := by
  have stage := stage_setStage id w new
  refine ⟨⟨?_, ?_, ?_⟩, rfl⟩
  · refine holds_local w _ hu h.holds (fun j hj => ?_) (fun j _ => rfl) ?_
    · rw [stage, if_neg hj]
    · rw [stage, if_pos rfl]
      refine ⟨hnew, (h.holds.1 id).2.1, ?_⟩
      intro hle
      omega
  · rw [stage, if_pos rfl]
  · refine forward_trans _ _ _ h.forward ?_
    intro j
    rw [stage]
    by_cases hj : j = id
    · subst hj
      rw [if_pos rfl, h.stage]
      exact ⟨hrank, fun _ => by simp [World.content]⟩
    · rw [if_neg hj]
      exact ⟨Nat.le_refl _, fun _ => by simp [World.content, hj]⟩

theorem unwrap_once (D : Deployment) (base w : World) (h : At ws id .Executing base w)
    (hx : w.executions id = 0) :
    Once ws (fun b _ s => At ws id .Executing b s ∧ s.executions id = 0) base
      (_unwrap D id w) := by
  simp only [_unwrap, bind_apply, get_apply, bind_ret]
  split
  · cases w.views.balanceOf D.bridge with
    | none => trivial
    | some available =>
      apply sat_bind
      apply sat_require
      intro _
      apply sat_bind
      refine issue_once _ rfl base w h.holds ⟨h.stage, hx⟩ h.forward ?_
      intro w₁ w₂ _ h₁ same
      obtain ⟨hs₁, hx₁⟩ := holds_head _ _ h₁
      exact ⟨at_same _ w₁ w₂ same (holds_tail _ _ h₁) hs₁, (same.executions id).trans hx₁⟩
  · exact ⟨h, hx⟩

/-- The store in which the target call is made: the value is gone and the call is on record. -/
theorem calling_once (hu : Unclaimed ws id) (t : Address) (v : UInt256) (p : Bytes)
    (base w w' : World) (h : At ws id .Executing base w) (hx : w.executions id = 0)
    (hb : w'.bridge = w.bridge) (ht : w'.trace = w.trace ++ [.called (.target id t v p)]) :
    At ws id .Executing base w' := by
  have stage (j : Bytes32) : w'.stage j = w.stage j := by simp only [World.stage, hb]
  have executions (j : Bytes32) : w'.executions j =
      w.executions j + if id = j then 1 else 0 := by
    simp [World.executions, ht, List.countP_append, List.countP_singleton, Action.executes]
  refine ⟨?_, (stage id).trans h.stage, ?_⟩
  · refine holds_local w w' hu h.holds (fun j _ => stage j) (fun j hj => ?_) ?_
    · rw [executions, if_neg (Ne.symm hj), Nat.add_zero]
    · rw [stage, executions, h.stage, hx]
      simp [ProcessingStage.rank]
  · refine forward_trans _ _ _ h.forward ?_
    intro j
    rw [stage]
    exact ⟨Nat.le_refl _, fun _ => by simp only [World.content, hb]⟩

theorem execute_once (D : Deployment) (hu : Unclaimed ws id) (base w : World)
    (h : At ws id .Executing base w) (hx : w.executions id = 0) :
    Once ws (fun b _ s => At ws id .Executing b s) base (_execute D id w) := by
  apply sat_bind
  simp only [callTarget, bind_apply, get_apply, bind_ret]
  split
  · trivial
  · simp only [record, bind_apply, modify_apply, bind_ret]
    have hcall := calling_once hu (w.bridge.messageStates id).targetAddress
      (w.bridge.messageStates id).nativeTokenAmount (w.bridge.messageStates id).payload base w
      { w with
        balance := w.balance - (w.bridge.messageStates id).nativeTokenAmount
        trace := w.trace ++ [.called (.target id (w.bridge.messageStates id).targetAddress
          (w.bridge.messageStates id).nativeTokenAmount (w.bridge.messageStates id).payload)] }
      h hx rfl rfl
    split
    · refine atomic_sat sameMessages_refl (callOwnKeyManager_quiet D _ _) base _ ?_
      intro r w' same
      cases r with
      | reverted data => trivial
      | returned data =>
        have hat := at_same .Executing _ w' same hcall.holds hcall.stage
        exact ⟨hat.holds, hat.stage, forward_trans _ _ _ hcall.forward hat.forward⟩
    · refine ⟨⟨holds_cons _ _ hcall.holds hcall.stage, hcall.forward⟩, ?_⟩
      intro r w₁ h₁
      cases r with
      | reverted data => trivial
      | returned data => exact ⟨holds_tail _ _ h₁, holds_head _ _ h₁, forward_refl w₁⟩

/-- A message that nobody is working on is handled in order. -/
theorem handleMessage_once (D : Deployment) (base w : World)
    (h : Holds ExecutedOnce Relies ws w) (hf : Forward base w)
    (hu : w.stage id = .PreExecution → Unclaimed ws id) :
    Once ws (fun b _ s => Holds ExecutedOnce Relies ws s ∧ Forward b s) base
      (handleMessage D id w) := by
  simp only [handleMessage, bind_apply, get_apply, bind_ret]
  refine sat_bind _ _ _ (sat_require _ _ _ _ fun _ => ?_)
  refine sat_bind _ _ _ (sat_require _ _ _ _ fun _ => ?_)
  refine sat_bind _ _ _ (sat_require _ _ _ _ fun hstage => ?_)
  have hpre : w.stage id = .PreExecution := of_decide_eq_true hstage
  replace hu := hu hpre
  apply sat_bind
  refine sat_bind _ _ _ (sat_require _ _ _ _ fun _ => ?_)
  refine sat_mono ?_ _ _ (validateModules_once _ _ (by decide) _ _ base w ⟨h, hpre, hf⟩)
  intro b₁ _ w₁ h₁
  have hx₁ : w₁.executions id = 0 := (h₁.holds.1 id).2.2 (by rw [h₁.stage]; decide)
  apply sat_bind
  refine sat_mono ?_ _ _
    (setStage_once hu _ .Executing (by decide) (by decide) (by decide) b₁ w₁ h₁)
  intro b₂ _ w₂ ⟨h₂, hx₂⟩
  apply sat_bind
  refine sat_mono ?_ _ _ (unwrap_once D b₂ w₂ h₂ (hx₂.trans hx₁))
  intro b₃ _ w₃ ⟨h₃, hx₃⟩
  apply sat_bind
  refine sat_mono ?_ _ _ (execute_once D hu b₃ w₃ h₃ hx₃)
  intro b₄ _ w₄ h₄
  apply sat_bind
  refine sat_mono ?_ _ _
    (setStage_once hu _ .PostExecution (by decide) (by decide) (by decide) b₄ w₄ h₄)
  intro b₅ _ w₅ ⟨h₅, _⟩
  simp only [bind_apply, get_apply, bind_ret]
  apply sat_bind
  refine sat_bind _ _ _ (sat_require _ _ _ _ fun _ => ?_)
  refine sat_mono ?_ _ _ (validateModules_once _ _ (by decide) _ _ b₅ w₅ h₅)
  intro b₆ _ w₆ h₆
  refine sat_mono ?_ _ _
    (setStage_once hu _ .Completed (by decide) (by decide) (by decide) b₆ w₆ h₆)
  intro b₇ _ w₇ ⟨h₇, _⟩
  exact ⟨h₇.holds, h₇.forward⟩

/-- Quiet code, wherever it stands in a segment. -/
theorem quiet_once {α : Type} {m : M α} (hm : Quiet Idle SameMessages m) (base w : World)
    (h : Holds ExecutedOnce Relies ws w) (hf : Forward base w) :
    Once ws (fun b _ s => Holds ExecutedOnce Relies ws s ∧ Forward b s) base (m w) := by
  have moved (b s : World) (hs : SameMessages b s) (hb : Holds ExecutedOnce Relies ws b) :
      Holds ExecutedOnce Relies ws s ∧ Forward b s :=
    ⟨holds_same ws b s hs hb, forward_same b s hs⟩
  have idle (c : ExtCall) (hc : Idle c) (s : World) : Relies c s := by
    cases c with
    | deposit a => trivial
    | keyManager k c => trivial
    | _ => exact hc.elim
  refine steady_sat sameMessages_refl hm (Holds ExecutedOnce Relies ws) base w trivial
    ?_ ?_ ?_ ?_ ?_
  · intro c s hc _ hs
    obtain ⟨hold, fwd⟩ := moved w s hs h
    exact ⟨holds_cons c s hold (idle c hc s), forward_trans _ _ _ hf fwd⟩
  · intro _ s _ hs
    obtain ⟨hold, fwd⟩ := moved w s hs h
    exact ⟨hold, forward_trans _ _ _ hf fwd⟩
  · exact fun c s hs => ⟨trivial, holds_tail c s hs⟩
  · intro c b s hb hc _ hs
    obtain ⟨hold, fwd⟩ := moved b s hs hb
    exact ⟨holds_cons c s hold (idle c hc s), fwd⟩
  · exact fun b _ s hb _ hs => moved b s hs hb

/-- Writing a message that was not there yet. -/
theorem storeMessage_once (state : MessageState) (hstage : state.stage = .PreExecution)
    (signature : SequencerSignature) (base w : World) (h : Holds ExecutedOnce Relies ws w)
    (hf : Forward base w) (hnew : w.stage id = .NotStarted) :
    At ws id .PreExecution base { w with bridge := storeMessage id state signature w.bridge } := by
  have stage (j : Bytes32) :
      World.stage { w with bridge := storeMessage id state signature w.bridge } j =
        if j = id then .PreExecution else w.stage j := by
    by_cases hj : j = id
    · subst hj; simp [World.stage, storeMessage, hstage]
    · simp [World.stage, storeMessage, hj]
  refine ⟨?_, ?_, ?_⟩
  · refine holds_local w _ (unclaimed_of_fresh w h hnew) h (fun j hj => ?_) (fun _ _ => rfl) ?_
    · rw [stage, if_neg hj]
    · rw [stage, if_pos rfl]
      refine ⟨by decide, (h.1 id).2.1, fun _ => (h.1 id).2.2 ?_⟩
      rw [hnew]
      decide
  · rw [stage, if_pos rfl]
  · refine forward_trans _ _ _ hf ?_
    intro j
    rw [stage]
    by_cases hj : j = id
    · subst hj
      rw [if_pos rfl, hnew]
      exact ⟨by decide, fun hn => absurd rfl hn⟩
    · rw [if_neg hj]
      exact ⟨Nat.le_refl _, fun _ => by simp [World.content, storeMessage, hj]⟩

theorem initialize_once (D : Deployment) (sender target : Address) (payload : Bytes)
    (signature : SequencerSignature) (amount : UInt256) (base w : World)
    (h : Holds ExecutedOnce Relies ws w) (hf : Forward base w) :
    Once ws (fun b _ s => At ws id .PreExecution b s ∧ Unclaimed ws id) base
      (_initializeMessage D sender id target payload signature amount w) := by
  simp only [_initializeMessage, bind_apply, get_apply, bind_ret]
  refine sat_bind _ _ _ (sat_require _ _ _ _ fun hinit => ?_)
  have hnew : w.stage id = .NotStarted := by
    simp only [isMessageInitialized, Bool.not_eq_true', decide_eq_false_iff_not] at hinit
    exact not_not.mp hinit
  apply sat_bind
  refine atomic_sat (E := fun a b => b = a) (fun _ => rfl) (recover_quiet _ _ _) base w ?_
  intro signer w₁ same
  rw [same]
  apply sat_bind
  refine atomic_sat (E := fun a b => b = a) (fun _ => rfl) (isKeyValid_quiet _ _ _) base w ?_
  intro valid w₂ same
  rw [same]
  refine sat_bind _ _ _ (sat_require _ _ _ _ fun _ => ?_)
  simp only [modifyBridge, record, bind_apply, modify_apply, bind_ret]
  have hat := storeMessage_once ⟨id, target, .PreExecution, payload, w.timestamp, amount⟩ rfl
    signature base w h hf hnew
  have hat' := at_same .PreExecution _ _
    (record_untouched _ (.initialized id sender signer) rfl).toSameMessages
    hat.holds hat.stage
  exact ⟨⟨hat'.holds, hat'.stage, forward_trans _ _ _ hat.forward hat'.forward⟩,
    unclaimed_of_fresh _ h hnew⟩

theorem initializeMessage_once (D : Deployment) (sender target : Address) (payload : Bytes)
    (signature : SequencerSignature) (amount : UInt256) (base w : World)
    (h : Holds ExecutedOnce Relies ws w) (hf : Forward base w) :
    Once ws (fun b _ s => At ws id .PreExecution b s ∧ Unclaimed ws id) base
      (initializeMessage D sender id target payload signature amount w) := by
  apply sat_bind
  refine atomic_sat (E := fun a b => b = a) (fun _ => rfl)
    (onlyMessageInitializer_quiet _) base w ?_
  intro _ w₁ same
  rw [same]
  exact initialize_once D sender target payload signature amount base w h hf

theorem initializeAndHandleMessage_once (D : Deployment) (sender target : Address)
    (payload : Bytes) (signature : SequencerSignature) (signatures : List Bytes)
    (amount : UInt256) (base w : World) (h : Holds ExecutedOnce Relies ws w)
    (hf : Forward base w) :
    Once ws (fun b _ s => Holds ExecutedOnce Relies ws s ∧ Forward b s) base
      (initializeAndHandleMessage D sender id target payload signature signatures amount w) := by
  apply sat_bind
  refine sat_mono ?_ _ _
    (initializeMessage_once D sender target payload signature amount base w h hf)
  intro b₁ _ w₁ ⟨h₁, hu⟩
  apply sat_bind
  have signing : Quiet Idle SameMessages (Code.each (signMessageWithSignature D id) signatures) :=
    quiet_sameMessages (steady_each _ _ fun s _ => signMessageWithSignature_quiet D id s)
  refine sat_mono ?_ _ _ (quiet_once signing b₁ w₁ h₁.holds h₁.forward)
  intro b₂ _ w₂ ⟨h₂, hf₂⟩
  exact handleMessage_once D b₂ w₂ h₂ hf₂ fun _ => hu

end Handle

/-- Every external function of the bridge is in order, provided that it does not handle a message
of which a pre-module check is in progress. -/
theorem bridgeCode_once (D : Deployment) (ws : List ExtCall) (sender : Address) (c : BridgeCall)
    (hg : ∀ i ∈ c.handles, ∀ e ∈ ws, e.preChecks i = false) (w : World)
    (h : Holds ExecutedOnce Relies ws w) :
    Once ws (fun b _ s => Holds ExecutedOnce Relies ws s ∧ Forward b s) w
      (bridgeCode D sender c w) := by
  have administrative (hc : c.administrative = true) :
      Once ws (fun b _ s => Holds ExecutedOnce Relies ws s ∧ Forward b s) w
        (bridgeCode D sender c w) :=
    quiet_once (quiet_sameMessages (administrative_quiet D sender c hc)) w w h (forward_refl w)
  have managing (hc : c.managesKeys = true) :
      Once ws (fun b _ s => Holds ExecutedOnce Relies ws s ∧ Forward b s) w
        (bridgeCode D sender c w) :=
    quiet_once (managesKeys_quiet D sender c hc) w w h (forward_refl w)
  cases c with
  | initializeMessage i t p s a =>
    refine sat_mono ?_ _ _ (initializeMessage_once D sender t p s a w w h (forward_refl w))
    exact fun b _ s hs => ⟨hs.1.holds, hs.1.forward⟩
  | handleMessage i =>
    refine handleMessage_once D w w h (forward_refl w) fun hs => ?_
    exact unclaimed_of_guard w h hs (hg i (by simp [BridgeCall.handles]))
  | initializeAndHandleMessage i t p s vs a =>
    exact initializeAndHandleMessage_once D sender t p s vs a w w h (forward_refl w)
  | batchInitializeMessage is ts ps ss as =>
    apply sat_bind
    refine atomic_sat (E := fun a b => b = a) (fun _ => rfl) (onlyMessageInitializer_quiet _) w w ?_
    intro _ w₁ same
    rw [same]
    refine sat_bind _ _ _ (sat_require _ _ _ _ fun _ => ?_)
    refine sat_each _ _ ?_ w w ⟨h, forward_refl w⟩
    intro ⟨i, t, p, s, a⟩ _ b₁ w₁ ⟨h₁, hf₁⟩
    refine sat_mono ?_ _ _ (initialize_once D sender t p s a b₁ w₁ h₁ hf₁)
    exact fun b _ s hs => ⟨hs.1.holds, hs.1.forward⟩
  | batchHandleMessage is =>
    refine sat_each _ _ ?_ w w ⟨h, forward_refl w⟩
    intro i hi b₁ w₁ ⟨h₁, hf₁⟩
    refine handleMessage_once D b₁ w₁ h₁ hf₁ fun hs => ?_
    exact unclaimed_of_guard w₁ h₁ hs (hg i hi)
  | _ => first | exact administrative rfl | exact managing rfl

theorem system_once (D : Deployment) :
    Proves (system D) ExecutedOnce Relies (fun _ => Forward) Forward Guarded where
  grows_refl := forward_refl
  grows_trans := forward_trans
  segment_grows := fun _ _ _ h => h
  drift := by
    intro d ws w h
    have same := (drift_untouched d w).toSameMessages
    exact ⟨holds_same ws w _ same h, forward_same w _ same⟩
  code := by
    intro ws c w _ hg h
    cases c with
    | bridge sender c => exact bridgeCode_once D ws sender c hg w h
    | keyManager sender c =>
      refine quiet_once ?_ w w h (forward_refl w)
      exact steady_bind (quiet_of_atomic (runKeyManager_quiet D sender c)) fun _ => steady_pure _

theorem genesis_once (D : Deployment) (owner verifier : Address) (timestamp : UInt256)
    (views : Views) : ExecutedOnce (genesis D owner verifier timestamp views) := by
  intro i
  refine ⟨?_, Nat.zero_le _, fun _ => rfl⟩
  simp [World.stage, genesis, BridgeState.deploy, MessageState.empty]

/-- In every run in which no call handles a message of which a pre-module check is in progress:
no target call is made twice, in the current store or in the committed one; committed stages only
move forward and never to `Rejected`; the content of a message is fixed once it is initialized;
and inside a transaction every step moves the messages forward from where they are or from where
a revert puts them. -/
theorem message_executed_at_most_once (D : Deployment) (owner verifier : Address)
    (timestamp : UInt256) (views : Views) (es fs : List (Event ExtResult Entry Drift))
    (m m' : Machine World ExtCall ExtResult Error Entry)
    (hm : run (system D) (boot (genesis D owner verifier timestamp views)) es = some m)
    (hm' : run (system D) m fs = some m')
    (hguard : Along (system D) Guarded (boot (genesis D owner verifier timestamp views))
      (es ++ fs)) :
    (∀ i, m'.store.executions i ≤ 1 ∧ m'.committed.executions i ≤ 1) ∧
    (∀ i, (m.committed.stage i).rank ≤ (m'.committed.stage i).rank ∧
      m'.committed.stage i ≠ .Rejected) ∧
    (∀ i, m.committed.stage i ≠ .NotStarted → m'.committed.content i = m.committed.content i) ∧
    (∀ e m'', Guarded (waits m'.stack) e → step (system D) m' e = some m'' →
      ∃ w, (w = m'.store ∨ ∃ l st, m'.stack = l :: st ∧ w ∈ l.restores) ∧
        Forward w m''.store) := by
  have R := system_once D
  obtain ⟨hes, hfs⟩ := along_append (system D) Guarded _ es fs hguard
  have sound := run_sound R _ m es
    (boot_sound _ (genesis_once D owner verifier timestamp views)) hes hm
  have sound' := run_sound R m m' fs sound (hfs m hm) hm'
  have moved : Forward m.committed m'.committed := run_committed R m m' fs sound (hfs m hm) hm'
  have once := committed_holds m' sound'
  refine ⟨fun i => ⟨(sound'.holds.1 i).2.1, (once i).2.1⟩, fun i => ⟨(moved i).1, (once i).1⟩,
    fun i => (moved i).2, ?_⟩
  exact fun e m'' he hs => step_grows R m' m'' e sound' he hs

/-- A message to account `0x99` without payload. -/
def plainMessage : Sample where
  targetAddress := 0x99
  payload := []
  payloadHash := 0xc5d2460186f7233c927e7db2dcc703c0e500b653ca82273b7bfad8045d85a470
  messageHash := 0x99487a1deda5454099a6df046038b1fffc20a326073a91b7094328480a7a7b9f
  signedHash := 0x251ff82319841789ffb9fca766ccbc4e7cc675c96e57b189b3b70bd51c762b54
  signature :=
    bigEndian 32 0x5445e2f1657517fb1c8d45731a168c6ef9a8abf3e8e451fc644e6128b45d0cae ++
    bigEndian 32 0x5f92f275219de2ce4ee48945cb6714dbfc8b8bca1ff7d4dc10bcb8cb67c76112 ++ [28]

/-- The message is handled once, with no module and a target that accepts the call. -/
def plainRun : List (Event ExtResult Entry Drift) :=
  plainMessage.setup ++ [.enter (.bridge 0x77 (.handleMessage 1)), .answer (.returned [])]

theorem message_executed_at_most_once_plain :
    ∃ m, run (system plainMessage.deployment) (boot plainMessage.genesis) plainRun = some m ∧
      m.committed.stage 1 = .Completed ∧ m.committed.executions 1 = 1 ∧
      ∀ i, m.committed.executions i ≤ 1 := by
  have outcome : (run (system plainMessage.deployment) (boot plainMessage.genesis) plainRun).map
      (fun m => (m.committed.stage 1, m.committed.executions 1)) = some (.Completed, 1) := by
    decide +kernel
  have hguard : Along (system plainMessage.deployment) Guarded (boot plainMessage.genesis)
      (plainRun ++ []) := by
    decide +kernel
  obtain ⟨m, hm, values⟩ := Option.map_eq_some_iff.mp outcome
  have once := message_executed_at_most_once plainMessage.deployment 0x0A 0xA7 1700000000
    sampleViews plainRun [] m m hm rfl hguard
  exact ⟨m, hm, (Prod.mk.inj values).1, (Prod.mk.inj values).2, fun i => (once.1 i).2⟩

/-- Pre-module `0x60` calls `handleMessage` again before it answers its own check. -/
def reentrantRun : List (Event ExtResult Entry Drift) :=
  .enter (.bridge 0x0A (.addPreModule 0x60)) :: plainMessage.setup ++
  [.enter (.bridge 0x77 (.handleMessage 1)),
   .enter (.bridge 0x60 (.handleMessage 1)),
   .answer (.returned (word 1)),
   .answer (.returned []),
   .answer (.returned (word 1)),
   .answer (.returned [])]

/-- The target call of one message is committed twice. In between the stage goes back from
`Completed` to `Executing` although nothing was reverted. -/
theorem reentrant_pre_module_executes_twice :
    ((run (system plainMessage.deployment) (boot plainMessage.genesis) reentrantRun).map
      fun m => (m.stack.length, m.committed.stage 1, m.committed.executions 1)) =
        some (0, .Completed, 2) ∧
    ((run (system plainMessage.deployment) (boot plainMessage.genesis)
      (reentrantRun.take 8)).map fun m => (m.store.stage 1, m.store.executions 1)) =
        some (.Completed, 1) ∧
    ((run (system plainMessage.deployment) (boot plainMessage.genesis)
      (reentrantRun.take 9)).map fun m => (m.store.stage 1, m.store.executions 1)) =
        some (.Executing, 2) := by
  refine ⟨?_, ?_, ?_⟩ <;> decide +kernel

end SyndDB.Contracts
