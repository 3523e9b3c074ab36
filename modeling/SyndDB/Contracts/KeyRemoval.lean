import SyndDB.Contracts.KeyAdministration
import SyndDB.Contracts.KeyRegistry

namespace SyndDB.Contracts

open Octets Resumption

/-- Not in the register: `isKeyValid` reverts with `InvalidPublicKey`. -/
def Unregistered (t : KeyType) (k : Address) (w : World) : Prop :=
  (TeeKeyManager._getKeySet w.keyManager t).contains k = false

/-- A call of the bridge that may bring a key back in the given world: an approval by the owner,
or by anyone a registration that needs no approval, with an attestation for the key that the
verifier accepts. -/
def Readmits (D : Deployment) (t : KeyType) (k : Address) : Entry → World → Prop
  | .bridge sender (.approveKey t' k' _), w =>
      sender ≠ D.bridge ∧ w.bridge.owner = sender ∧ t' = t ∧ k' = k
  | .bridge sender (.registerKey t' pv pb), w
  | .bridge sender (.registerKeyWithSignature t' pv pb _ _), w =>
      sender ≠ D.bridge ∧ t' = t ∧ w.bridge.keyRegistrationRestricted t = false ∧
        w.views.verifyAttestationProof w.keyManager.attestationVerifier pv pb = some k
  | _, _ => False

/-- The step runs such a call. -/
def Readmission (D : Deployment) (t : KeyType) (k : Address)
    (m : Machine World ExtCall ExtResult Error Entry) (e : Event ExtResult Entry Drift) : Prop :=
  ∃ o w, Runs m e o ∧ w ∈ m.stores ∧ Readmits D t k o w

namespace TeeKeyManager

/-- The calls that put a key in the register at once. -/
theorem effect_enroll (ctx : Context) (st : State) (c : Call) (t : KeyType) (k : Address)
    (e : UInt256) (h : c.effect ctx st = some (.enroll t k e)) :
    ∃ pv pb, ctx.verifyAttestationProof st.attestationVerifier pv pb = some k ∧
      (c = .addKey t pv pb false e ∨ ∃ d s, c = .addKeyWithSignature t pv pb d s false e) := by
  have registering (t' : KeyType) (pv pb : Bytes) (r : Bool) (e' : UInt256)
      (h : (ctx.verifyAttestationProof st.attestationVerifier pv pb).map (registration t' r e') =
        some (.enroll t k e)) :
      ctx.verifyAttestationProof st.attestationVerifier pv pb = some k ∧ t' = t ∧ r = false ∧
        e' = e := by
    obtain ⟨key, accepted, same⟩ := Option.map_eq_some_iff.mp h
    cases r with
    | false =>
      cases same
      exact ⟨accepted, rfl, rfl, rfl⟩
    | true => cases same
  cases c with
  | addKey t' pv pb r e' =>
    obtain ⟨accepted, rfl, rfl, rfl⟩ := registering t' pv pb r e' h
    exact ⟨pv, pb, accepted, .inl rfl⟩
  | addKeyWithSignature t' pv pb d s r e' =>
    obtain ⟨accepted, rfl, rfl, rfl⟩ := registering t' pv pb r e' h
    exact ⟨pv, pb, accepted, .inr ⟨d, s, rfl⟩⟩
  | _ => cases h

/-- A key that a call puts in the register was enrolled or approved by it. -/
theorem registered_dispatch (X : Crypto) (cfg : Config) (ctx : Context) (st st' : State) (c : Call)
    (data : Bytes) (t : KeyType) (k : Address) (h : dispatch X cfg ctx st c = .ok (data, st'))
    (before : (_getKeySet st t).contains k = false)
    (after : (_getKeySet st' t).contains k = true) :
    (∃ e, c.effect ctx st = some (.enroll t k e)) ∨ ∃ e, c = .approveKey t k e := by
  obtain ⟨ε, effect, enabled, moved⟩ := dispatch_effect X cfg ctx c data st' h
  have old : (table st).registered t k ≠ true := by
    intro registered
    exact Bool.false_ne_true (before.symm.trans registered)
  have new : (ε.apply (table st)).registered t k = true := by
    rw [← moved]
    exact after
  cases ε with
  | enroll t' k' e =>
    rcases KeyTable.put_true _ _ _ _ _ new with ⟨rfl, rfl⟩ | registered
    · exact .inl ⟨e, effect⟩
    · exact absurd registered old
  | approve t' k' e =>
    rcases KeyTable.put_true _ _ _ _ _ new with ⟨rfl, rfl⟩ | registered
    · exact .inr ⟨e, effect_approve ctx st c _ _ e effect⟩
    · exact absurd registered old
  | remove t' k' => exact absurd (KeyTable.put_false _ _ _ _ _ new).2 old
  | revoke => cases new
  | _ => exact absurd new old

/-- Called by the bridge, the two removing functions leave the key out of the register, and
`removeKey` reverts only when it is not there. -/
theorem removal_unregisters (X : Crypto) (cfg : Config) (ctx : Context) (st : State) (c : Call)
    (t : KeyType) (k : Address) (hc : c = .removeKey t k ∨ c = .revokeAllKeys)
    (hs : ctx.sender = st.bridge) :
    (∃ r, dispatch X cfg ctx st c = .ok r ∧ (_getKeySet r.2 t).contains k = false) ∨
      (∃ e, dispatch X cfg ctx st c = .error e ∧ (_getKeySet st t).contains k = false) := by
  have bridge : onlyBridge ctx st = .ok () := by simp [onlyBridge, require, hs]
  cases hr : dispatch X cfg ctx st c with
  | ok r =>
    left
    obtain ⟨ε, effect, _, moved⟩ := dispatch_effect X cfg ctx c r.1 r.2 hr
    have gone : (ε.apply (table st)).registered t k = false := by
      rcases hc with rfl | rfl
      · cases effect
        exact KeyTable.put_self _ t k false
      · cases effect
        rfl
    rw [← moved] at gone
    exact ⟨r, rfl, gone⟩
  | error e =>
    right
    refine ⟨e, rfl, ?_⟩
    rcases hc with rfl | rfl
    · by_contra present
      have member : k ∈ (_getKeySet st t).values := by simpa [AddressSet.contains] using present
      simp [dispatch, removeKey, bridge, AddressSet.remove, member, bind, Except.bind, pure,
        Except.pure] at hr
    · simp [dispatch, revokeAllKeys, bridge, bind, Except.bind, pure, Except.pure] at hr

end TeeKeyManager

section Removal

variable {D : Deployment} {t : KeyType} {k : Address}

/-- Operating the key manager brings a key back only by a call that may do so. -/
theorem operates_readmits (o : Entry) (w w' : World) (h : Operates D o w w')
    (before : Unregistered t k w) : Unregistered t k w' ∨ Readmits D t k o w := by
  rcases h with same | ⟨c, data, commands, hr⟩
  · left
    rw [Unregistered, same]
    exact before
  · cases after : (TeeKeyManager._getKeySet w'.keyManager t).contains k with
    | false => exact .inl after
    | true =>
      right
      cases o with
      | keyManager sender c => exact commands.elim
      | bridge sender b =>
        obtain ⟨outside, ⟨e, command⟩, byOwner⟩ := commands
        rcases TeeKeyManager.registered_dispatch _ _ _ _ _ c data t k hr before after with
          ⟨e', effect⟩ | ⟨e', rfl⟩
        · obtain ⟨pv, pb, accepted, rfl | ⟨d, s, rfl⟩⟩ :=
            TeeKeyManager.effect_enroll _ _ c t k e' effect
          · cases b with
            | registerKey t' pv' pb' =>
              obtain ⟨rfl, rfl, rfl, unrestricted, _⟩ :=
                TeeKeyManager.Call.addKey.inj (Option.some.inj command)
              exact ⟨outside, rfl, unrestricted, accepted⟩
            | _ => cases command
          · cases b with
            | registerKeyWithSignature t' pv' pb' d' s' =>
              obtain ⟨rfl, rfl, rfl, rfl, rfl, unrestricted, _⟩ :=
                TeeKeyManager.Call.addKeyWithSignature.inj (Option.some.inj command)
              exact ⟨outside, rfl, unrestricted, accepted⟩
            | _ => cases command
        · cases b with
          | approveKey t' k' e'' =>
            cases command
            exact ⟨outside, byOwner rfl, rfl, rfl⟩
          | _ => cases command

/-- The key is not in the register, unless a message has touched the keys. -/
def KeptOut (D : Deployment) (t : KeyType) (k : Address) (w : World) : Prop :=
  KeysUncalled D w → Unregistered t k w

/-- A step from a machine whose worlds keep the key out leads to one whose worlds do, unless it
readmits the key. -/
theorem step_keptOut (m m' : Machine World ExtCall ExtResult Error Entry)
    (e : Event ExtResult Entry Drift)
    (sound : Resumption.Sound (Obedient D) (Harmless D) (Operation D) (fun _ _ => True) m)
    (hs : step (system D) m e = some m') (out : ∀ w ∈ m.stores, KeptOut D t k w) :
    (∀ w ∈ m'.stores, KeptOut D t k w) ∨ Readmission D t k m e := by
  have kept (h : KeptOut D t k m'.store) : ∀ w ∈ m'.stores, KeptOut D t k w := by
    intro w hw
    rcases step_stores (system D) m m' e hs w hw with rfl | hw
    · exact h
    · exact out w hw
  have held (l : Level World ExtCall ExtResult Error Entry)
      (st : List (Level World ExtCall ExtResult Error Entry)) (hst : m.stack = l :: st) (w : World)
      (hw : w ∈ l.restores) : w ∈ m.stores := by
    rw [Machine.stores, hst, List.flatMap_cons]
    exact List.mem_cons_of_mem _ (List.mem_append_left _ hw)
  have operated (o : Entry) (w : World) (runs : Runs m e o) (hw : w ∈ m.stores)
      (h : Operation D o w m'.store) :
      (∀ w ∈ m'.stores, KeptOut D t k w) ∨ Readmission D t k m e := by
    by_cases uncalled : KeysUncalled D m'.store
    · obtain ⟨before, operates⟩ := h uncalled
      rcases operates_readmits o w m'.store operates (out w hw before) with
        unregistered | readmits
      · exact .inl (kept fun _ => unregistered)
      · exact .inr ⟨o, w, runs, hw, readmits⟩
    · exact .inl (kept fun h => absurd h uncalled)
  have restored (w : World) (hw : w ∈ m.stores) (same : m'.store = w) :
      (∀ w ∈ m'.stores, KeptOut D t k w) ∨ Readmission D t k m e := by
    left
    apply kept
    rw [same]
    exact out w hw
  have moved := step_moves (system_operates D) m m' e sound trivial hs
  cases e with
  | enter c =>
    rcases moved with operation | same
    · exact operated c m.store (.inl rfl) List.mem_cons_self operation
    · exact restored _ List.mem_cons_self same
  | answer r =>
    obtain ⟨f, st, hst, operation | same⟩ := moved
    · refine operated f.origin _ (.inr ⟨r, f, st, rfl, hst, rfl⟩) ?_ operation
      split
      · exact held _ st hst _ (by simp [Level.restores])
      · exact List.mem_cons_self
    · exact restored _ (held _ st hst _ (by simp [Level.restores])) same
  | begin => exact restored _ List.mem_cons_self moved
  | commit => exact restored _ List.mem_cons_self moved
  | abort =>
    obtain ⟨s, st, hst, same⟩ := moved
    exact restored _ (held _ st hst _ (by simp [Level.restores])) same
  | drift d =>
    left
    apply kept
    intro uncalled
    have untouched : Untouched m.store m'.store := moved ▸ drift_untouched d m.store
    have before := uncalled_same D m.store _ untouched.calls uncalled
    rw [Unregistered, untouched.keys]
    exact out _ List.mem_cons_self before

theorem run_keptOut (m m' : Machine World ExtCall ExtResult Error Entry)
    (es : List (Event ExtResult Entry Drift))
    (sound : Resumption.Sound (Obedient D) (Harmless D) (Operation D) (fun _ _ => True) m)
    (hr : run (system D) m es = some m') (out : ∀ w ∈ m.stores, KeptOut D t k w) :
    (∀ w ∈ m'.stores, KeptOut D t k w) ∨ Occurs (system D) (Readmission D t k) m es := by
  induction es generalizing m with
  | nil =>
    cases hr
    exact .inl out
  | cons e es ih =>
    obtain ⟨m₁, hs, hr⟩ := Option.bind_eq_some_iff.mp hr
    rcases step_keptOut m m₁ e sound hs out with out₁ | readmission
    · have sound₁ := step_sound (system_operates D) m m₁ e sound trivial hs
      rcases ih m₁ sound₁ hr out₁ with out₂ | later
      · exact .inl out₂
      · exact .inr (.inr ⟨m₁, hs, later⟩)
    · exact .inr (.inl readmission)

/-- A function that is forwarded for the owner to the configured key manager. -/
theorem forwardToKeyManager_apply (sender : Address) (c : TeeKeyManager.Call) (w : World)
    (howner : w.bridge.owner = sender) (hwired : w.bridge.teeKeyManager = D.keyManager) :
    (∀ r, TeeKeyManager.dispatch D.crypto D.keyManagerConfig (keyManagerContext D.bridge w)
        w.keyManager c = .ok r →
      forwardToKeyManager D sender c w = .ret () { w with keyManager := r.2 }) ∧
    ∀ e, TeeKeyManager.dispatch D.crypto D.keyManagerConfig (keyManagerContext D.bridge w)
        w.keyManager c = .error e →
      forwardToKeyManager D sender c w = .revert (.KeyManager e) := by
  refine ⟨?_, ?_⟩
  · intro r hr
    simp [forwardToKeyManager, onlyOwner, callKeyManager, runKeyManager, Code.require, howner,
      hwired, hr]
  · intro e hr
    simp [forwardToKeyManager, onlyOwner, callKeyManager, runKeyManager, Code.require, howner,
      hwired, hr]

/-- The owner removes a key: afterwards it is not in the register. -/
theorem removal_step (m m' : Machine World ExtCall ExtResult Error Entry) (sender : Address)
    (c : BridgeCall) (hc : c = .removeKey t k ∨ c = .revokeAllKeys)
    (howner : m.store.bridge.owner = sender)
    (hwired : m.store.bridge.teeKeyManager = D.keyManager)
    (hb : m.store.keyManager.bridge = D.bridge)
    (hs : step (system D) m (.enter (.bridge sender c)) = some m') :
    m'.stack = m.stack ∧ Unregistered t k m'.store := by
  have commanded : ∃ k', (k' = .removeKey t k ∨ k' = .revokeAllKeys) ∧
      (system D).code (.bridge sender c) m.store = forwardToKeyManager D sender k' m.store := by
    rcases hc with rfl | rfl
    · exact ⟨.removeKey t k, .inl rfl, rfl⟩
    · exact ⟨.revokeAllKeys, .inr rfl, rfl⟩
  obtain ⟨k', hk', code⟩ := commanded
  obtain ⟨returned, reverted⟩ := forwardToKeyManager_apply (D := D) sender k' m.store howner hwired
  simp only [step] at hs
  split at hs
  · rw [code] at hs
    rcases TeeKeyManager.removal_unregisters D.crypto D.keyManagerConfig
      (keyManagerContext D.bridge m.store) m.store.keyManager k' t k hk' hb.symm with
      ⟨r, hr, gone⟩ | ⟨e, hr, gone⟩
    · rw [returned r hr] at hs
      cases hs
      exact ⟨rfl, gone⟩
    · rw [reverted e hr] at hs
      cases hs
      exact ⟨rfl, gone⟩
  · cases hs

end Removal

/-- Anyone presents the attestation of the sample sequencer. -/
def presentAttestation (sender : Address) : Event ExtResult Entry Drift :=
  .enter (.bridge sender (.registerKey .Sequencer (word (sampleSequencer.setWidth 256)) []))

def removeSampleKey : Event ExtResult Entry Drift :=
  .enter (.bridge 0x0A (.removeKey .Sequencer sampleSequencer))

end SyndDB.Contracts
