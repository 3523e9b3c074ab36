import SyndDB.Contracts.Sessions
import Mathlib.Algebra.BigOperators.Group.List.Basic

namespace SyndDB.Contracts

open Octets Resumption

/-- The native token that was sent along with target calls. -/
def World.spent (w : World) : Nat := (w.targetCalls.map fun c => c.2.2.1.toNat).sum

namespace WETH9

def setBalance (D : Deployment) (balance : UInt256) (w : World) : World :=
  { w with views := { w.views with
      balanceOf := Function.update w.views.balanceOf D.bridge (some balance) } }

/-- `deposit` by the bridge. The value has left the balance of the bridge. -/
def deposit (D : Deployment) (value : UInt256) (w : World) : ExtResult × World :=
  match w.views.balanceOf D.bridge with
  | none => (.reverted [], w)
  | some balance =>
      match checkedAdd balance value with
      | none => (.reverted panicOverflow, w)
      | some balance' => (.returned [], setBalance D balance' w)

/-- `withdraw` by the bridge. The bridge is paid through its `receive`, which does not wrap what
comes from the token. No native balance exceeds a word. -/
def withdraw (D : Deployment) (wad : UInt256) (w : World) : ExtResult × World :=
  match w.views.balanceOf D.bridge with
  | none => (.reverted [], w)
  | some balance =>
      if balance < wad then (.reverted (errorString "Insufficient balance"), w)
      else
        match checkedAdd w.balance wad with
        | none => (.reverted [], w)
        | some paid => (.returned [], { setBalance D (balance - wad) w with balance := paid })

/-- The bridge is sent wrapped token by somebody else. -/
def credit (D : Deployment) (wad : UInt256) (st : World × Nat) : World × Nat :=
  match st.1.views.balanceOf D.bridge with
  | none => st
  | some balance =>
      match checkedAdd balance wad with
      | none => st
      | some balance' => (setBalance D balance' st.1, st.2 + wad.toNat)

end WETH9

/-- The calls of the token are carried out, the others passed on. -/
def tokenExt (D : Deployment) : ExtCall → Code (World × Nat) ExtCall ExtResult Error ExtResult
  | .deposit value => fun st => .ret (WETH9.deposit D value st.1).1
      ((WETH9.deposit D value st.1).2, st.2)
  | .withdraw _ wad =>
      fun st => .ret (WETH9.withdraw D wad st.1).1 ((WETH9.withdraw D wad st.1).2, st.2)
  | c => Code.external c

/-- The bridge beside the token. The second component is what the bridge has received, native or
wrapped, other than from the token in exchange for wrapped token. -/
def tokenSystem (D : Deployment) :
    System (World × Nat) ExtCall ExtResult Error Entry (Drift ⊕ UInt256) where
  code
    | .bridge sender (.receive value) => do
        Code.aside fun _ received =>
          if sender = D.wrappedNativeToken then received else received + value.toNat
        (receive D sender value).interpret (tokenExt D)
    | o => ((system D).code o).interpret (tokenExt D)
  failed := ExtResult.failed
  admits := admits D
  drift
    | .inl d, st => (drift d st.1, st.2)
    | .inr wad, st => WETH9.credit D wad st

/-- The call is a target call to the wrapped token. -/
def ExtCall.targetsToken (D : Deployment) : ExtCall → Bool
  | .target _ targetAddress _ _ => targetAddress = D.wrappedNativeToken
  | _ => false

/-- The bridge itself is calling the token, with a message. -/
def TokenTargeted (D : Deployment) (m : Machine (World × Nat) ExtCall ExtResult Error Entry) :
    Prop :=
  ∃ c ∈ waits m.stack, c.targetsToken D = true

/-- Nobody forces native token upon the bridge. Unless the bridge calls it, the token moves none of
the bridge's wrapped balance away and does not call the bridge but to pay a withdrawal. -/
def TokenSemantics (D : Deployment) (m : Machine (World × Nat) ExtCall ExtResult Error Entry) :
    Event ExtResult Entry (Drift ⊕ UInt256) → Prop
  | .drift (.inl (.credit _)) => False
  | .drift (.inl (.views v)) =>
      v.balanceOf D.bridge = m.store.1.views.balanceOf D.bridge ∨ TokenTargeted D m
  | .enter (.bridge sender _) => sender ≠ D.wrappedNativeToken ∨ TokenTargeted D m
  | _ => True

/-- The condition on a run: the token is not the target of a message. -/
def Conserving (D : Deployment) (m : Machine (World × Nat) ExtCall ExtResult Error Entry)
    (e : Event ExtResult Entry (Drift ⊕ UInt256)) : Prop :=
  TokenSemantics D m e ∧ ¬ TokenTargeted D m

instance decidableTokenTargeted (D : Deployment)
    (m : Machine (World × Nat) ExtCall ExtResult Error Entry) : Decidable (TokenTargeted D m) :=
  inferInstanceAs (Decidable (∃ c ∈ waits m.stack, c.targetsToken D = true))

instance decidableTokenSemantics (D : Deployment)
    (m : Machine (World × Nat) ExtCall ExtResult Error Entry)
    (e : Event ExtResult Entry (Drift ⊕ UInt256)) : Decidable (TokenSemantics D m e) :=
  match e with
  | .drift (.inl (.credit _)) => .isFalse id
  | .drift (.inl (.views _)) | .enter (.bridge _ _) => inferInstanceAs (Decidable (_ ∨ _))
  | .drift (.inl (.elapse _)) | .drift (.inr _) | .enter (.keyManager _ _) | .answer _ | .begin
  | .commit | .abort => .isTrue trivial

instance decidableConserving (D : Deployment)
    (m : Machine (World × Nat) ExtCall ExtResult Error Entry)
    (e : Event ExtResult Entry (Drift ⊕ UInt256)) : Decidable (Conserving D m e) :=
  inferInstanceAs (Decidable (_ ∧ ¬ _))

/-- What the bridge holds and what it has sent is what it has received. -/
def Balanced (D : Deployment) (st : World × Nat) : Prop :=
  ∃ wrapped, st.1.views.balanceOf D.bridge = some wrapped ∧
    st.1.balance.toNat + wrapped.toNat + st.1.spent = st.2

/-- The native balance has not grown. -/
def Unstuck (st st' : World × Nat) : Prop := st'.1.balance.toNat ≤ st.1.balance.toNat

/-- No answer is assumed to be anything in particular. -/
abbrev AnyAnswer (_c : ExtCall) (_st : World × Nat) (_r : ExtResult) (_st' : World × Nat) : Prop :=
  True

/-- Neither balance has changed, and no target call was made. -/
structure SameMoney (w w' : World) : Prop where
  balance : w'.balance = w.balance
  views : w'.views = w.views
  calls : w'.targetCalls = w.targetCalls

/-- The calls that are passed on, other than target calls. -/
def Forwarded : ExtCall → Prop
  | .check .. => True
  | .keyManager .. => True
  | _ => False

theorem sameMoney_refl (w : World) : SameMoney w w := ⟨rfl, rfl, rfl⟩

theorem sameMoney_trans (a b c : World) (h : SameMoney a b) (h' : SameMoney b c) : SameMoney a c :=
  ⟨h'.balance.trans h.balance, h'.views.trans h.views, h'.calls.trans h.calls⟩

abbrev Moneyless {α : Type} (m : M α) : Prop := Quiet Forwarded SameMoney m

theorem moneyless_modify (f : BridgeState → BridgeState) : Moneyless (modifyBridge f) :=
  steady_modify sameMoney_trans _ fun _ _ => ⟨trivial, rfl, rfl, rfl⟩

theorem moneyless_record (a : Action) (ha : a.targetCall? = none) : Moneyless (record a) := by
  refine steady_modify sameMoney_trans _ fun w _ => ⟨trivial, rfl, rfl, ?_⟩
  simp [World.targetCalls, ha]

theorem moneyless_issue (c : ExtCall) (hc : Forwarded c) : Moneyless (issue c) := by
  have noTarget : (Action.called c).targetCall? = none := by
    cases c with
    | target i t v p => exact hc.elim
    | _ => rfl
  refine steady_bind (moneyless_record _ noTarget) fun _ => ?_
  refine steady_bind (steady_external sameMoney_refl c fun _ _ => hc) fun r => ?_
  cases r with
  | reverted data => exact steady_revert _
  | returned data => exact steady_bind (moneyless_record _ rfl) fun _ => steady_pure _

theorem moneyless_checkModule (messageId : Bytes32) (modules : BridgeState → AddressSet)
    (stage : ProcessingStage) (payload : Bytes) (sequencerSignature : SequencerSignature)
    (i : Nat) :
    Moneyless (_checkModule messageId modules stage payload sequencerSignature i) := by
  refine steady_bind steady_get fun w => ?_
  split
  · exact steady_revert _
  · refine steady_bind (moneyless_issue _ trivial) fun data => ?_
    split
    · exact steady_revert _
    · exact steady_require _ _

theorem moneyless_validateModules (messageId : Bytes32) (modules : BridgeState → AddressSet)
    (stage : ProcessingStage) (payload : Bytes) (sequencerSignature : SequencerSignature) :
    Moneyless (_validateModules messageId modules stage payload sequencerSignature) :=
  steady_bind steady_get fun _ => steady_each _ _ fun i _ =>
    moneyless_checkModule messageId modules stage payload sequencerSignature i

theorem moneyless_finish (messageId : Bytes32) (signature : SequencerSignature) (r : ExtResult) :
    Moneyless (finish messageId signature r) := by
  cases r with
  | reverted data => exact steady_revert _
  | returned data =>
    refine steady_bind (moneyless_modify _) fun _ => steady_bind steady_get fun w => ?_
    refine steady_bind (steady_bind (steady_require _ _) fun _ => ?_) fun _ => moneyless_modify _
    exact moneyless_validateModules _ _ _ _ _

theorem moneyless_initializeMessage (D : Deployment) (sender : Address) (messageId : Bytes32)
    (targetAddress : Address) (payload : Bytes) (sequencerSignature : SequencerSignature)
    (nativeTokenAmount : UInt256) :
    Moneyless (_initializeMessage D sender messageId targetAddress payload sequencerSignature
      nativeTokenAmount) := by
  refine steady_bind steady_get fun w => steady_bind (steady_require _ _) fun _ => ?_
  refine steady_bind (recover_quiet _ _ _) fun signer => ?_
  refine steady_bind (isKeyValid_quiet _ _ _) fun valid => steady_bind (steady_require _ _)
    fun _ => ?_
  exact steady_bind (moneyless_modify _) fun _ => moneyless_record _ rfl

theorem moneyless_acceptValidator (D : Deployment) (messageId : Bytes32) (validator : Address) :
    Moneyless (acceptValidator D messageId validator) :=
  steady_bind (isKeyValid_quiet _ _ _) fun _ => moneyless_modify _

theorem moneyless_signMessage (D : Deployment) (messageId : Bytes32) (signature : Bytes) :
    Moneyless (signMessageWithSignature D messageId signature) :=
  steady_bind (recover_quiet _ _ _) fun _ => moneyless_acceptValidator _ _ _

theorem moneyless_changeModules (sender module : Address) (get : BridgeState → AddressSet)
    (put : BridgeState → AddressSet → BridgeState)
    (change : AddressSet → Address → Option AddressSet) (failure : Error) :
    Moneyless (changeModules sender module get put change failure) := by
  refine steady_bind (onlyOwner_quiet _) fun _ => steady_bind (steady_require _ _) fun _ => ?_
  refine steady_bind steady_get fun w => ?_
  split
  · exact steady_revert _
  · exact moneyless_modify _

theorem moneyless_runKeyManager (D : Deployment) (sender : Address) (c : TeeKeyManager.Call) :
    Moneyless (runKeyManager D sender c) := by
  refine steady_bind steady_get fun w => ?_
  split
  · exact steady_revert _
  · refine steady_bind (steady_modify sameMoney_trans _ fun w _ => ?_) fun _ => steady_pure _
    exact ⟨trivial, rfl, rfl, rfl⟩

theorem moneyless_callKeyManager (D : Deployment) (c : TeeKeyManager.Call) :
    Moneyless (callKeyManager D c) := by
  refine steady_bind steady_get fun w => ?_
  split
  · exact moneyless_runKeyManager D _ c
  · exact moneyless_issue _ trivial

theorem moneyless_callOwnKeyManager (D : Deployment) (value : UInt256) (payload : Bytes) :
    Moneyless (callOwnKeyManager D value payload) := by
  refine steady_bind steady_get fun w => ?_
  split
  · exact steady_pure _
  · split
    · exact steady_pure _
    · split
      · exact steady_pure _
      · refine steady_bind (steady_modify sameMoney_trans _ fun w _ => ?_) fun _ => steady_pure _
        exact ⟨trivial, rfl, rfl, rfl⟩

/-- The functions that move token: those that receive or wrap it, and those that handle messages. -/
def BridgeCall.movesToken : BridgeCall → Bool
  | .receive .. | .wrapNativeToken .. | .handleMessage .. | .initializeAndHandleMessage ..
  | .batchHandleMessage .. => true
  | _ => false

theorem moneyless_bridgeCode (D : Deployment) (sender : Address) (c : BridgeCall)
    (hc : c.movesToken = false) : Moneyless (bridgeCode D sender c) := by
  have admin (f : BridgeState → BridgeState) :
      Moneyless (onlyOwner sender >>= fun _ => modifyBridge f) :=
    steady_bind (onlyOwner_quiet _) fun _ => moneyless_modify f
  have forward (k : TeeKeyManager.Call) : Moneyless (forwardToKeyManager D sender k) :=
    steady_bind (onlyOwner_quiet _) fun _ =>
      steady_bind (moneyless_callKeyManager D k) fun _ => steady_pure _
  have register (k : World → UInt256 → TeeKeyManager.Call) :
      Moneyless (do
        let expiresAt ← registrationExpiry
        let w ← Code.get
        let data ← callKeyManager D (k w expiresAt)
        decodeKey data) :=
    steady_bind registrationExpiry_quiet fun _ => steady_bind steady_get fun _ =>
      steady_bind (moneyless_callKeyManager D _) fun _ => decodeKey_quiet _
  cases c with
  | transferOwnership o => exact admin _
  | acceptOwnership =>
    refine steady_bind steady_get fun w => steady_bind (steady_require _ _) fun _ => ?_
    exact moneyless_modify _
  | renounceOwnership => exact admin _
  | addPreModule m => exact moneyless_changeModules _ _ _ _ _ _
  | addPostModule m => exact moneyless_changeModules _ _ _ _ _ _
  | removePreModule m => exact moneyless_changeModules _ _ _ _ _ _
  | removePostModule m => exact moneyless_changeModules _ _ _ _ _ _
  | setMessageInitializer a b => exact admin _
  | signMessage i => exact moneyless_acceptValidator _ _ _
  | signMessageWithSignature i s => exact moneyless_signMessage _ _ _
  | setTeeKeyManager k =>
    refine steady_bind (onlyOwner_quiet _) fun _ => steady_bind (steady_require _ _) fun _ => ?_
    exact moneyless_modify _
  | setKeyRegistrationRestricted t r => exact admin _
  | setDefaultKeyExpiration e => exact admin _
  | registerKey t pv pb => exact steady_bind (register _) fun _ => steady_pure _
  | registerKeyWithSignature t pv pb d s => exact steady_bind (register _) fun _ => steady_pure _
  | approveKey t k e => exact forward _
  | rejectKey t k => exact forward _
  | removeKey t k => exact forward _
  | setKeyExpiration k e => exact forward _
  | revokeAllKeys => exact forward _
  | updateAttestationVerifier v => exact forward _
  | initializeMessage i t p s a =>
    refine steady_bind (onlyMessageInitializer_quiet _) fun _ => ?_
    exact moneyless_initializeMessage D sender i t p s a
  | batchInitializeMessage is ts ps ss as =>
    refine steady_bind (onlyMessageInitializer_quiet _) fun _ => ?_
    refine steady_bind (steady_require _ _) fun _ => ?_
    exact steady_each _ _ fun x _ => moneyless_initializeMessage D sender _ _ _ _ _
  | _ => cases hc

section Segments

variable (D : Deployment)

/-- The obligations of a piece of code. -/
abbrev Conserves {α : Type} (Q : World × Nat → α → World × Nat → Prop) (base : World × Nat)
    (m : Resume (World × Nat) ExtCall ExtResult Error α) : Prop :=
  Owes (Balanced D) Unstuck AnyAnswer Q base m

/-- Everything is balanced, and no native balance was added. -/
def Settled (b st : World × Nat) : Prop := Balanced D st ∧ Unstuck b st

theorem unstuck_refl (st : World × Nat) : Unstuck st st := Nat.le_refl _

theorem unstuck_trans (a b c : World × Nat) (h : Unstuck a b) (h' : Unstuck b c) : Unstuck a c :=
  Nat.le_trans h' h

theorem settled_same (b : World × Nat) (w w' : World) (t : Nat) (h : Settled D b (w, t))
    (same : SameMoney w w') : Settled D b (w', t) := by
  obtain ⟨⟨wrapped, held, total⟩, unstuck⟩ := h
  refine ⟨⟨wrapped, by rw [same.views]; exact held, ?_⟩, ?_⟩
  · simp only [World.spent, same.balance, same.calls]
    exact total
  · simp only [Unstuck, same.balance]
    exact unstuck

theorem moneyless_settled {α : Type} {m : M α} (hm : Moneyless m) (b st : World × Nat)
    (h : Settled D b st) :
    Conserves D (fun b' _ st' => Settled D b' st') b (m.interpret (tokenExt D) st) := by
  refine interpret_upholds sameMoney_refl hm (tokenExt D) (Settled D) ?_ ?_ b st h
  · intro base w w' t settled same
    exact settled_same D base w w' t settled same
  · intro c hc base st settled
    have forwarded : tokenExt D c = Code.external c := by
      cases c with
      | check m i stage p s => rfl
      | keyManager k c => rfl
      | withdraw i a => exact hc.elim
      | deposit a => exact hc.elim
      | target i t v p => exact hc.elim
    rw [forwarded]
    refine upholds_external base st c settled ?_
    intro r st' answered
    exact ⟨answered.1, unstuck_refl st'⟩

theorem spent_noted (w : World) (a : Action) (ha : a.targetCall? = none) :
    (w.noted a).spent = w.spent := by
  simp [World.spent, World.targetCalls, World.noted, ha]

theorem spent_setBalance (balance : UInt256) (w : World) :
    (WETH9.setBalance D balance w).spent = w.spent := rfl

/-- A call that the token answers. -/
theorem token_issue (c : ExtCall) (Q : World × Nat → Bytes → World × Nat → Prop) (b : World × Nat)
    (w : World) (t : Nat) (answer : ExtResult × World)
    (answered : tokenExt D c (w.noted (.called c), t) = .ret answer.1 (answer.2, t))
    (h : ∀ data, answer.1 = .returned data → Q b data (answer.2.noted (.returned c), t)) :
    Conserves D Q b ((issue c).interpret (tokenExt D) (w, t)) := by
  rw [interpret_issue, answered]
  obtain ⟨r, w'⟩ := answer
  cases r with
  | reverted data => trivial
  | returned data => exact h data rfl

/-- A deposit of value that has left the native balance. -/
theorem deposit_settled (value : UInt256) (b : World × Nat) (w : World) (t : Nat)
    (wrapped : UInt256) (held : w.views.balanceOf D.bridge = some wrapped)
    (total : w.balance.toNat + value.toNat + wrapped.toNat + w.spent = t)
    (unstuck : w.balance.toNat ≤ b.1.balance.toNat) :
    Conserves D (fun b' _ st' => Settled D b' st') b
      ((issue (.deposit value)).interpret (tokenExt D) (w, t)) := by
  refine token_issue D _ _ b w t (WETH9.deposit D value (w.noted (.called (.deposit value)))) rfl ?_
  intro data returned
  have unchanged : (w.noted (.called (.deposit value))).views.balanceOf D.bridge = some wrapped :=
    held
  rw [WETH9.deposit, unchanged] at returned ⊢
  cases added : checkedAdd wrapped value with
  | none =>
    simp only [added] at returned
    cases returned
  | some wrapped' =>
    simp only [added]
    have grown := checkedAdd_some wrapped value wrapped' added
    refine ⟨⟨wrapped', by simp [World.noted, WETH9.setBalance], ?_⟩, unstuck⟩
    change w.balance.toNat + wrapped'.toNat + World.spent (World.noted _ _) = t
    rw [spent_noted _ _ rfl, spent_setBalance, spent_noted _ _ rfl, grown]
    omega

/-- Wrapping `value` moves it from the one balance to the other. -/
theorem wrap_settled (value : UInt256) (b : World × Nat) (w : World) (t : Nat) (wrapped : UInt256)
    (held : w.views.balanceOf D.bridge = some wrapped)
    (total : (w.balance - value).toNat + value.toNat + wrapped.toNat + w.spent = t)
    (unstuck : (w.balance - value).toNat ≤ b.1.balance.toNat) :
    Conserves D (fun b' _ st' => Settled D b' st') b
      ((_wrapNativeToken value).interpret (tokenExt D) (w, t)) := by
  rw [_wrapNativeToken, interpret_bind, bind_apply, interpret_modify, modify_apply, bind_ret,
    interpret_bind]
  exact upholds_seq (fun b' _ st' => Settled D b' st') b _ _
    (deposit_settled D value b { w with balance := w.balance - value } t wrapped held total unstuck)
    fun _ _ _ settled => settled

theorem receive_settled (sender : Address) (value : UInt256) (st : World × Nat)
    (h : Balanced D st) (foreign : sender ≠ D.wrappedNativeToken) :
    Conserves D (fun b _ st' => Settled D b st') st
      ((tokenSystem D).code (.bridge sender (.receive value)) st) := by
  obtain ⟨w, t⟩ := st
  obtain ⟨wrapped, held, total⟩ := h
  have steps : (tokenSystem D).code (.bridge sender (.receive value)) (w, t) =
      (_wrapNativeToken value).interpret (tokenExt D)
        ({ w with balance := w.balance + value }, t + value.toNat) := by
    simp only [tokenSystem, receive, interpret_bind, ne_eq, foreign, not_false_eq_true, if_true]
    rfl
  rw [steps]
  have back : w.balance + value - value = w.balance := BitVec.add_sub_cancel _ _
  refine wrap_settled D value (w, t) _ _ wrapped held ?_ ?_
  · simp only [back]
    change w.balance.toNat + value.toNat + wrapped.toNat + w.spent = t + value.toNat
    simp only at total
    omega
  · simp only [back]
    exact Nat.le_refl _

theorem wrapNativeToken_settled (sender : Address) (amount : UInt256) (st : World × Nat)
    (h : Balanced D st) :
    Conserves D (fun b _ st' => Settled D b st') st
      ((wrapNativeToken sender amount).interpret (tokenExt D) st) := by
  obtain ⟨w, t⟩ := st
  obtain ⟨wrapped, held, total⟩ := h
  rw [wrapNativeToken, interpret_bind, bind_apply, onlyMessageInitializer, interpret_get,
    interpret_require]
  refine upholds_bind (w, t) _ _ (upholds_require (w, t) (w, t) _ _ fun _ => ?_)
  rw [interpret_get, interpret_bind, interpret_require]
  refine upholds_bind (w, t) _ _ (upholds_require (w, t) (w, t) _ _ fun _ => ?_)
  have available : (if w.balance < amount then w.balance else amount) ≤ w.balance := by
    split
    · exact BitVec.le_refl _
    · rename_i enough
      exact BitVec.not_lt.mp enough
  have split := BitVec.toNat_sub_of_le available
  have bound := BitVec.le_def.mp available
  simp only at total
  refine wrap_settled D (if w.balance < amount then w.balance else amount) (w, t) w t wrapped
    held ?_ ?_
  · rw [split]
    omega
  · rw [split]
    exact Nat.sub_le _ _

/-- The amount of the message is there to be sent. It leaves with the target call, before
anybody else runs. -/
def Unwrapped (i : Bytes32) (b st : World × Nat) : Prop :=
  Balanced D st ∧ st.1.balance.toNat ≤
    b.1.balance.toNat + (st.1.bridge.messageStates i).nativeTokenAmount.toNat

theorem withdraw_unwrapped (i : Bytes32) (b : World × Nat) (w : World) (t : Nat)
    (h : Settled D b (w, t)) :
    Conserves D (fun b' _ st' => Unwrapped D i b' st') b
      ((issue (.withdraw i (w.bridge.messageStates i).nativeTokenAmount)).interpret (tokenExt D)
        (w, t)) := by
  obtain ⟨⟨wrapped, held, total⟩, unstuck⟩ := h
  have amount : ∃ amount, (w.bridge.messageStates i).nativeTokenAmount = amount := ⟨_, rfl⟩
  obtain ⟨amount, same⟩ := amount
  rw [same]
  refine token_issue D _ _ b w t
    (WETH9.withdraw D amount (w.noted (.called (.withdraw i amount)))) rfl ?_
  intro data returned
  have unchanged : (w.noted (.called (.withdraw i amount))).views.balanceOf D.bridge =
      some wrapped := held
  rw [WETH9.withdraw, unchanged] at returned ⊢
  by_cases short : wrapped < amount
  · simp only [if_pos short] at returned
    cases returned
  · simp only [if_neg short] at returned ⊢
    cases paid : checkedAdd (w.noted (.called (.withdraw i amount))).balance amount with
    | none =>
      simp only [paid] at returned
      cases returned
    | some balance =>
      have enough : amount ≤ wrapped := BitVec.not_lt.mp short
      have less := BitVec.toNat_sub_of_le enough
      have bound := BitVec.le_def.mp enough
      have grown : balance.toNat = w.balance.toNat + amount.toNat :=
        checkedAdd_some _ amount balance paid
      simp only [Unstuck] at unstuck
      simp only at total
      refine ⟨⟨wrapped - amount, by simp [World.noted, WETH9.setBalance], ?_⟩, ?_⟩
      · change balance.toNat + (wrapped - amount).toNat + World.spent (World.noted _ _) = t
        rw [spent_noted _ _ rfl]
        change balance.toNat + (wrapped - amount).toNat + World.spent (World.noted w _) = t
        rw [spent_noted _ _ rfl, less, grown]
        omega
      · change balance.toNat ≤
          b.1.balance.toNat + (w.bridge.messageStates i).nativeTokenAmount.toNat
        rw [same, grown]
        omega

theorem unwrap_unwrapped (i : Bytes32) (b : World × Nat) (w : World) (t : Nat)
    (h : Settled D b (w, t)) :
    Conserves D (fun b' _ st' => Unwrapped D i b' st') b
      ((_unwrap D i).interpret (tokenExt D) (w, t)) := by
  rw [_unwrap, interpret_get]
  by_cases positive : 0 < (w.bridge.messageStates i).nativeTokenAmount
  · cases hb : w.views.balanceOf D.bridge with
    | none =>
      simp only [if_pos positive]
      trivial
    | some available =>
      simp only [if_pos positive]
      rw [interpret_bind, interpret_require]
      refine upholds_bind b _ _ (upholds_require b (w, t) _ _ fun _ => ?_)
      rw [interpret_bind]
      exact upholds_seq _ b _ _ (withdraw_unwrapped D i b w t h) fun _ _ _ after => after
  · simp only [if_neg positive]
    refine ⟨h.1, ?_⟩
    have unstuck := h.2
    simp only [Unstuck] at unstuck
    exact Nat.le_trans unstuck (Nat.le_add_right _ _)

/-- The target call is made with everything balanced, and its revert is not looked at here. -/
theorem callTarget_settled (i : Bytes32) (b : World × Nat) (w : World) (t : Nat)
    (h : Unwrapped D i b (w, t)) :
    Conserves D (fun b' r st' => ∀ data, r = .returned data → Settled D b' st') b
      ((callTarget D i).interpret (tokenExt D) (w, t)) := by
  rw [callTarget, interpret_get]
  by_cases short : w.balance < (w.bridge.messageStates i).nativeTokenAmount
  · simp only [if_pos short]
    intro data failed
    cases failed
  · simp only [if_neg short]
    obtain ⟨⟨wrapped, held, total⟩, unstuck⟩ := h
    have covered : (w.bridge.messageStates i).nativeTokenAmount ≤ w.balance :=
      BitVec.not_lt.mp short
    have left := BitVec.toNat_sub_of_le covered
    have bound := BitVec.le_def.mp covered
    have spent : (w.calling i).spent =
        w.spent + (w.bridge.messageStates i).nativeTokenAmount.toNat := by
      simp [World.spent, World.targetCalls, World.calling, Action.targetCall?]
    have calling : Settled D b (w.calling i, t) := by
      refine ⟨⟨wrapped, held, ?_⟩, ?_⟩
      · simp only [spent]
        change (w.balance - (w.bridge.messageStates i).nativeTokenAmount).toNat + wrapped.toNat +
          (w.spent + (w.bridge.messageStates i).nativeTokenAmount.toNat) = t
        simp only at total
        omega
      · change (w.balance - (w.bridge.messageStates i).nativeTokenAmount).toNat ≤ b.1.balance.toNat
        simp only at unstuck
        omega
    rw [interpret_bind, interpret_modify, interpret_bind]
    by_cases own : (w.bridge.messageStates i).targetAddress = D.keyManager
    · simp only [if_pos own]
      refine upholds_mono ?_ b _
        (moneyless_settled D (moneyless_callOwnKeyManager D _ _) b (w.calling i, t) calling)
      exact fun _ _ _ settled _ _ => settled
    · simp only [if_neg own]
      rw [interpret_external]
      refine upholds_external b (w.calling i, t) _ calling ?_
      intro r st' answered data _
      exact ⟨answered.1, unstuck_refl st'⟩

theorem prepare_unwrapped (i : Bytes32) (b st : World × Nat) (h : Settled D b st) :
    Conserves D (fun b' _ st' => Unwrapped D i b' st') b
      ((prepare D i).interpret (tokenExt D) st) := by
  have required {β : Type} {Q : World × Nat → β → World × Nat → Prop} (c : Bool)
      (why : Error) (m : M β) (hm : Conserves D Q b (m.interpret (tokenExt D) st)) :
      Conserves D Q b ((Code.require c why >>= fun _ => m).interpret (tokenExt D) st) := by
    rw [interpret_bind, interpret_require]
    exact upholds_bind b _ _ (upholds_require b st c why fun _ => hm)
  have checks (stage : ProcessingStage) (payload : Bytes) (signature : SequencerSignature) :
      Moneyless (_validatePreModules i stage payload signature) :=
    steady_bind (steady_require _ _) fun _ => moneyless_validateModules _ _ _ _ _
  rw [prepare, interpret_get]
  refine required _ _ _ (required _ _ _ (required _ _ _ ?_))
  rw [interpret_bind]
  refine upholds_seq _ b _ _ (moneyless_settled D (checks _ _ _) b st h) ?_
  intro b₁ _ st₁ settled
  rw [interpret_bind, bind_apply, interpret_setStage, bind_ret, interpret_bind]
  have staged := settled_same D b₁ st₁.1 (st₁.1.staged i .Executing) st₁.2 settled ⟨rfl, rfl, rfl⟩
  exact upholds_seq _ b₁ _ _ (unwrap_unwrapped D i b₁ _ _ staged) fun _ _ _ after => after

theorem handleMessage_settled (i : Bytes32) (b st : World × Nat) (h : Settled D b st) :
    Conserves D (fun b' _ st' => Settled D b' st') b
      ((handleMessage D i).interpret (tokenExt D) st) := by
  rw [handleMessage_eq, interpret_bind]
  refine upholds_seq _ b _ _ (prepare_unwrapped D i b st h) ?_
  intro b₁ signature st₁ unwrapped
  rw [interpret_bind]
  refine upholds_seq _ b₁ _ _ (callTarget_settled D i b₁ st₁.1 st₁.2 unwrapped) ?_
  intro b₂ r st₂ called
  cases r with
  | reverted data => trivial
  | returned data =>
    exact moneyless_settled D (moneyless_finish i signature _) b₂ st₂ (called data rfl)

/-- Every external function of the bridge conserves what it holds. -/
theorem bridgeCode_settled (sender : Address) (c : BridgeCall) (st : World × Nat)
    (h : Balanced D st) (foreign : sender ≠ D.wrappedNativeToken) :
    Conserves D (fun b _ st' => Settled D b st') st
      ((tokenSystem D).code (.bridge sender c) st) := by
  have entered : Settled D st st := ⟨h, unstuck_refl st⟩
  have moneyless (hc : c.movesToken = false) :
      Conserves D (fun b _ st' => Settled D b st') st
        ((bridgeCode D sender c).interpret (tokenExt D) st) :=
    moneyless_settled D (moneyless_bridgeCode D sender c hc) st st entered
  cases c with
  | receive value => exact receive_settled D sender value st h foreign
  | wrapNativeToken amount => exact wrapNativeToken_settled D sender amount st h
  | handleMessage i => exact handleMessage_settled D i st st entered
  | initializeAndHandleMessage i tg p s vs a =>
    have opening : Moneyless (initializeMessage D sender i tg p s a >>= fun _ =>
        Code.each (signMessageWithSignature D i) vs) := by
      refine steady_bind (steady_bind (onlyMessageInitializer_quiet _) fun _ => ?_) fun _ => ?_
      · exact moneyless_initializeMessage D sender i tg p s a
      · exact steady_each _ _ fun v _ => moneyless_signMessage D i v
    have split : initializeAndHandleMessage D sender i tg p s vs a =
        (initializeMessage D sender i tg p s a >>= fun _ =>
          Code.each (signMessageWithSignature D i) vs) >>= fun _ => handleMessage D i := by
      rw [code_bind_assoc]
      rfl
    change Conserves D _ st ((initializeAndHandleMessage D sender i tg p s vs a).interpret _ st)
    rw [split, interpret_bind]
    refine upholds_seq _ st _ _ (moneyless_settled D opening st st entered) ?_
    exact fun b₁ _ st₁ settled => handleMessage_settled D i b₁ st₁ settled
  | batchHandleMessage is =>
    change Conserves D _ st ((Code.each (handleMessage D) is).interpret _ st)
    rw [interpret_each]
    exact upholds_each (Q := fun _ b st' => Settled D b st') _ _
      (fun done i rest _ b st' settled => handleMessage_settled D i b st' settled) st st entered
  | _ => exact moneyless rfl

theorem credit_settled (wad : UInt256) (st : World × Nat) (h : Balanced D st) :
    Settled D st (WETH9.credit D wad st) := by
  obtain ⟨wrapped, held, total⟩ := h
  cases added : checkedAdd wrapped wad with
  | none =>
    have refused : WETH9.credit D wad st = st := by simp only [WETH9.credit, held, added]
    rw [refused]
    exact ⟨⟨wrapped, held, total⟩, unstuck_refl st⟩
  | some wrapped' =>
    have credited : WETH9.credit D wad st =
        (WETH9.setBalance D wrapped' st.1, st.2 + wad.toNat) := by
      simp only [WETH9.credit, held, added]
    have grown := checkedAdd_some wrapped wad wrapped' added
    rw [credited]
    refine ⟨⟨wrapped', by simp [WETH9.setBalance], ?_⟩, unstuck_refl st⟩
    change st.1.balance.toNat + wrapped'.toNat + st.1.spent = st.2 + wad.toNat
    omega

theorem token_guarantees :
    Guarantees (tokenSystem D) (Balanced D) Unstuck AnyAnswer (Conserving D) where
  refl := unstuck_refl
  trans := unstuck_trans
  meets := by
    intro m e _
    cases e with
    | answer r => exact fun _ _ _ => trivial
    | _ => trivial
  drift := by
    intro m d conserving balanced
    obtain ⟨semantics, untargeted⟩ := conserving
    cases d with
    | inr wad => exact credit_settled D wad m.store balanced
    | inl d =>
      cases d with
      | credit amount => exact semantics.elim
      | elapse seconds =>
        have same : SameMoney m.store.1 (drift (.elapse seconds) m.store.1) := by
          simp only [drift]
          split
          · exact ⟨rfl, rfl, rfl⟩
          · exact sameMoney_refl _
        exact settled_same D m.store m.store.1 _ m.store.2 ⟨balanced, unstuck_refl _⟩ same
      | views v =>
        obtain ⟨wrapped, held, total⟩ := balanced
        have kept : v.balanceOf D.bridge = m.store.1.views.balanceOf D.bridge :=
          semantics.resolve_right untargeted
        exact ⟨⟨wrapped, kept.trans held, total⟩, unstuck_refl _⟩
  code := by
    intro m o _ conserving balanced
    refine dutiful_of_segments unstuck_trans m.store m.store _ (unstuck_refl _) ?_
    cases o with
    | bridge sender c =>
      exact bridgeCode_settled D sender c m.store balanced
        (conserving.1.resolve_right conserving.2)
    | keyManager sender c =>
      refine moneyless_settled D ?_ m.store m.store ⟨balanced, unstuck_refl _⟩
      exact steady_bind (moneyless_runKeyManager D sender c) fun _ => steady_pure _

/-- In every run beside the token in which no message is addressed to the token, the native and the
wrapped balance of the bridge are what it has received less what its target calls have sent, and no
call of the bridge leaves it with more native token than it found. -/
theorem native_token_conserved (owner verifier : Address) (timestamp : UInt256) (views : Views)
    (wrapped : UInt256) (held : views.balanceOf D.bridge = some wrapped)
    (es : List (Event ExtResult Entry (Drift ⊕ UInt256)))
    (m : Machine (World × Nat) ExtCall ExtResult Error Entry)
    (hm : run (tokenSystem D) (boot (genesis D owner verifier timestamp views, wrapped.toNat)) es =
      some m)
    (conserving : Throughout (tokenSystem D) (Conserving D)
      (boot (genesis D owner verifier timestamp views, wrapped.toNat)) es) :
    (∀ st, st = m.store ∨ st = m.committed → ∃ wrapped',
      st.1.views.balanceOf D.bridge = some wrapped' ∧
        st.1.balance.toNat + wrapped'.toNat = st.2 - st.1.spent ∧ st.1.spent ≤ st.2) ∧
    ∀ sender c es₁ m₁, Finishes (tokenSystem D) m (.bridge sender c) es₁ m₁ →
      Throughout (tokenSystem D) (Conserving D) m (.enter (.bridge sender c) :: es₁) →
      m₁.store.1.balance ≤ m.store.1.balance := by
  have rule := token_guarantees D
  have start : Balanced D (genesis D owner verifier timestamp views, wrapped.toNat) := by
    refine ⟨wrapped, held, ?_⟩
    simp [genesis, World.spent, World.targetCalls]
  have kept := run_kept rule _ m es (boot_kept _ start) conserving hm
  have equation (st : World × Nat) (balanced : Balanced D st) : ∃ wrapped',
      st.1.views.balanceOf D.bridge = some wrapped' ∧
        st.1.balance.toNat + wrapped'.toNat = st.2 - st.1.spent ∧ st.1.spent ≤ st.2 := by
    obtain ⟨wrapped', held', total⟩ := balanced
    exact ⟨wrapped', held', by omega, by omega⟩
  refine ⟨?_, ?_⟩
  · intro st hst
    rcases hst with rfl | rfl
    · exact equation m.store kept.holds
    · exact equation m.committed (kept_committed m kept)
  · intro sender c es₁ m₁ finishes along
    have foreign : sender ≠ D.wrappedNativeToken := along.1.1.resolve_right along.1.2
    -- what is bounded from the beginning stays bounded
    have bounded := upholds_persists
      (fun st : World × Nat => st.1.balance.toNat ≤ m.store.1.balance.toNat)
      (fun _ _ before unstuck => Nat.le_trans unstuck before)
      (fun _ _ _ settled => settled.2) m.store _
      (bridgeCode_settled D sender c m.store kept.holds foreign) (Nat.le_refl _)
    rw [BitVec.le_def]
    rcases finished_outcome rule _ m m₁ (.bridge sender c) es₁ kept bounded along finishes with
      same | done
    · rw [same]
    · obtain ⟨b, settled, least⟩ := done
      exact least

end Segments

namespace ValuedMessage

def hash : Bytes32 := 0x47ad008bb663b5d9f0e753f8a5109111bb587d46bd5becfd261f1727a3c05a79

def signedHash : Bytes32 := 0xbc86b7c02a81664753de73159f1bf068186e9975867d0683bb7b25828bec39b4

def signature : Bytes :=
  bigEndian 32 0xe6037d85ea74fd2b1b01902bd06e04ea20fe49549f581f0c4ba2db2088954911 ++
  bigEndian 32 0x2866d45465bc7e64abe2307c45a085f9bf25c76f620deae8ff3d49c37a0ce89d ++ [28]

/-- The hashes, the signature and the recovered signer are the real values. -/
def crypto : Crypto where
  keccak256 bs :=
    if bs = [] then plainMessage.payloadHash
    else if bs = word 1 ++ packedAddress 0x99 ++ word plainMessage.payloadHash ++ word 3 then hash
    else if bs = [0x19] ++ ascii "Ethereum Signed Message:\n32" ++ word hash then signedHash
    else 0
  recover hash s := if hash = signedHash ∧ s = signature then some sampleSequencer else none

def deployment : Deployment := { plainMessage.deployment with crypto := crypto }

def start : World × Nat := (Contracts.genesis deployment 0x0A 0xA7 1700000000 sampleViews, 0)

/-- The bridge is sent 5 native and 2 wrapped, and sends 3 along with the message. -/
def events : List (Event ExtResult Entry (Drift ⊕ UInt256)) :=
  [.enter (.bridge 0x0A (.registerKey .Sequencer (word (sampleSequencer.setWidth 256)) [])),
   .enter (.bridge 0x0A (.setMessageInitializer 0x1A true)),
   .enter (.bridge 0x77 (.receive 5)),
   .drift (.inr 2),
   .enter (.bridge 0x1A (.initializeMessage 1 0x99 [] ⟨signature, 1700000000⟩ 3)),
   .enter (.bridge 0x77 (.handleMessage 1)),
   .answer (.returned [])]

theorem native_token_conserved_valued :
    ∃ m, run (tokenSystem deployment) (boot start) events = some m ∧
      m.committed.1.stage 1 = .Completed ∧ m.committed.2 = 7 ∧ m.committed.1.spent = 3 ∧
      ∃ wrapped, m.committed.1.views.balanceOf deployment.bridge = some wrapped ∧
        m.committed.1.balance.toNat + wrapped.toNat = 4 := by
  have outcome : (run (tokenSystem deployment) (boot start) events).map (fun m =>
      (m.committed.1.stage 1, m.committed.2, m.committed.1.spent)) = some (.Completed, 7, 3) := by
    decide +kernel
  have conserving : Throughout (tokenSystem deployment) (Conserving deployment) (boot start)
      events := by
    decide +kernel
  obtain ⟨m, hm, values⟩ := Option.map_eq_some_iff.mp outcome
  obtain ⟨completed, values⟩ := Prod.mk.inj values
  obtain ⟨received, spent⟩ := Prod.mk.inj values
  obtain ⟨wrapped, held, total, _⟩ := (native_token_conserved deployment 0x0A 0xA7 1700000000
    sampleViews 0 rfl events m hm conserving).1 m.committed (.inr rfl)
  rw [received, spent] at total
  exact ⟨m, hm, completed, received, spent, wrapped, held, total⟩

end ValuedMessage

/-- What the token does when the bridge calls it. -/
def TokenServed (D : Deployment) (c : ExtCall) (w : World) (r : ExtResult) (w' : World) : Prop :=
  match c with
  | .deposit value => WETH9.deposit D value w = (r, w')
  | .withdraw _ wad => WETH9.withdraw D wad w = (r, w')
  | _ => False

section Chain

variable (D : Deployment)

theorem tokenExt_faithful : Faithful (TokenServed D) (tokenExt D) := by
  intro c w t
  cases c with
  | deposit value => exact .inr ⟨_, _, t, rfl, rfl⟩
  | withdraw i wad => exact .inr ⟨_, _, t, rfl, rfl⟩
  | _ => exact .inl ⟨t, fun _ _ t => t, rfl⟩

/-- What the token sends is not wrapped again. -/
theorem receive_from_token (wad : UInt256) (w : World) :
    receive D D.wrappedNativeToken wad w = .ret () { w with balance := w.balance + wad } := by
  simp [receive]

theorem token_unchanged (c : ExtCall) (w : World) (r : ExtResult) (w' : World)
    (h : TokenServed D c w r w') (failed : r.failed = true) : w' = w := by
  cases c with
  | deposit value =>
    simp only [TokenServed, WETH9.deposit] at h
    split at h
    · exact (Prod.mk.inj h).2.symm
    · split at h
      · exact (Prod.mk.inj h).2.symm
      · rw [← (Prod.mk.inj h).1] at failed
        cases failed
  | withdraw i wad =>
    simp only [TokenServed, WETH9.withdraw] at h
    split at h
    · exact (Prod.mk.inj h).2.symm
    · split at h
      · exact (Prod.mk.inj h).2.symm
      · split at h
        · exact (Prod.mk.inj h).2.symm
        · rw [← (Prod.mk.inj h).1] at failed
          cases failed
  | _ => exact h.elim

theorem checkedAdd_eq (a b c : UInt256) (h : checkedAdd a b = some c) : c = a + b := by
  rw [checkedAdd] at h
  split at h
  · exact (Option.some.inj h).symm
  · cases h

/-- The token changes the answers of its views and pays the bridge through `receive`. -/
theorem token_served (distinct : D.wrappedNativeToken ≠ D.bridge) (c : ExtCall) (w : World)
    (r : ExtResult) (w' : World) (h : TokenServed D c w r w')
    (m : Machine World ExtCall ExtResult Error Entry) (hm : m.store = w) :
    ∃ es, run (system D) m es = some ⟨w', m.stack⟩ := by
  obtain ⟨store, stack⟩ := m
  change store = w at hm
  subst hm
  have viewed (balance : UInt256) :
      step (system D) ⟨store, stack⟩ (.drift (.views (WETH9.setBalance D balance store).views)) =
        some ⟨WETH9.setBalance D balance store, stack⟩ := rfl
  cases c with
  | deposit value =>
    simp only [TokenServed, WETH9.deposit] at h
    split at h
    · exact ⟨[], by rw [← (Prod.mk.inj h).2]; rfl⟩
    · split at h
      · exact ⟨[], by rw [← (Prod.mk.inj h).2]; rfl⟩
      · rename_i balance' _
        refine ⟨[.drift (.views (WETH9.setBalance D balance' store).views)], ?_⟩
        rw [← (Prod.mk.inj h).2]
        rfl
  | withdraw i wad =>
    simp only [TokenServed, WETH9.withdraw] at h
    split at h
    · exact ⟨[], by rw [← (Prod.mk.inj h).2]; rfl⟩
    · split at h
      · exact ⟨[], by rw [← (Prod.mk.inj h).2]; rfl⟩
      · split at h
        · exact ⟨[], by rw [← (Prod.mk.inj h).2]; rfl⟩
        · rename_i balance _ _ _ paid hpaid
          refine ⟨[.drift (.views (WETH9.setBalance D (balance - wad) store).views),
            .enter (.bridge D.wrappedNativeToken (.receive wad))], ?_⟩
          have admitted : (system D).admits (waits stack)
              (.bridge D.wrappedNativeToken (.receive wad)) = true := by
            simp [system, admits, distinct]
          rw [← (Prod.mk.inj h).2, run, viewed, Option.bind_some, run, step, if_pos admitted]
          have paying : (system D).code (.bridge D.wrappedNativeToken (.receive wad))
              (WETH9.setBalance D (balance - wad) store) = .ret ()
                { WETH9.setBalance D (balance - wad) store with balance := paid } := by
            rw [checkedAdd_eq _ _ _ hpaid]
            exact receive_from_token D wad _
          rw [paying]
          rfl
  | _ => exact h.elim

/-- What happens to the bridge beside the token happens in a run of the bridge. -/
theorem token_run (distinct : D.wrappedNativeToken ≠ D.bridge) (w : World) (t : Nat)
    (es' : List (Event ExtResult Entry (Drift ⊕ UInt256)))
    (m' : Machine (World × Nat) ExtCall ExtResult Error Entry)
    (h : run (tokenSystem D) (boot (w, t)) es' = some m') :
    ∃ es m, run (system D) (boot w) es = some m ∧ m.store = m'.store.1 ∧
      m.committed = m'.committed.1 := by
  have faithful := tokenExt_faithful D
  have embeds : Embeds (tokenSystem D) (system D) (TokenServed D) some := by
    refine ⟨rfl, ?_, ?_, ?_, ?_, token_unchanged D, ?_⟩
    · intro ws o' o ho admitted
      cases ho
      exact admitted
    · intro o' o w t ho
      cases ho
      cases o' with
      | keyManager sender c => exact interpret_refines faithful _ _
      | bridge sender c =>
        cases c with
        | receive value => exact interpret_refines faithful _ _
        | _ => exact interpret_refines faithful _ _
    · intro o' w t ho
      cases ho
    · intro d w t
      cases d with
      | inl d => exact ⟨[.drift d], fun _ => rfl⟩
      | inr wad =>
        refine ⟨[.drift (.views (WETH9.credit D wad (w, t)).1.views)], fun st => ?_⟩
        have viewed : (WETH9.credit D wad (w, t)).1 =
            { w with views := (WETH9.credit D wad (w, t)).1.views } := by
          simp only [WETH9.credit]
          split
          · rfl
          · split
            · rfl
            · rfl
        change some (⟨{ w with views := (WETH9.credit D wad (w, t)).1.views }, st⟩ :
          Machine World ExtCall ExtResult Error Entry) = _
        rw [← viewed]
        rfl
    · intro c w r w' answered m hm _
      exact token_served D distinct c w r w' answered m hm
  obtain ⟨es, m, hm, mirrors⟩ := run_mirrors embeds _ m' _ (boot_mirrors w t) es' h
  exact ⟨es, m, hm, mirrors.store.symm, (mirrors_committed mirrors).symm⟩

end Chain

end SyndDB.Contracts
