import SyndDB.Contracts.Sessions
import SyndDB.Sequencer.MessageId

namespace SyndDB.Contracts

open Octets Resumption
open Sequencer (BridgeMessage EvmKeyManager RawSignature)

/-- `BridgeSigner::eth_signed_message_hash` of the validator. -/
def ethSignedMessageHash (X : Crypto) (message : Bytes32) : Bytes32 :=
  X.keccak256 (ascii "\x19Ethereum Signed Message:\n32" ++ word message)

/-- `BridgeSigner::sign_message`, the signature bytes of its result. -/
def signMessageId (X : Crypto) (keyManager : EvmKeyManager) (messageId : Bytes32) :
    Except String Bytes :=
  (keyManager.signRawSync (word (ethSignedMessageHash X messageId))).map RawSignature.bytes

/-- `signMessageWithSignature` goes through. -/
def SignatureAccepted (D : Deployment) (w : World) (messageId : Bytes32) (signature : Bytes) :
    Prop :=
  ∃ w', signMessageWithSignature D messageId signature w = .ret () w'

/-- The stored message. -/
def World.message (w : World) (messageId : Bytes32) : BridgeMessage :=
  let state := w.bridge.messageStates messageId
  ⟨messageId, state.targetAddress, state.payload, state.nativeTokenAmount⟩

/-- The content of a target call as a message. -/
def callMessage : Bytes32 × Address × UInt256 × Bytes → BridgeMessage
  | (i, t, v, p) => ⟨i, t, p, v⟩

/-- Every message that was initialized carries a signature that recovers to the signer on record;
every target call was made for such a message, with its content; and completed messages had one. -/
structure Vouched (D : Deployment) (w : World) : Prop where
  signed : ∀ i, w.stage i ≠ .NotStarted → ∃ initializer signer,
    Action.initialized i initializer signer ∈ w.trace ∧
    D.crypto.recover ((w.message i).digest D.crypto)
      (w.bridge.sequencerSignatures i).signature = some signer
  calls : ∀ c ∈ w.targetCalls, w.stage c.1 ≠ .NotStarted ∧ callMessage c = w.message c.1
  completed : ∀ i, w.stage i = .Completed → ∃ c ∈ w.targetCalls, c.1 = i

/-- Messages stay initialized, with their content, and target calls stay on record. -/
structure Lasting (w w' : World) : Prop where
  started : ∀ i, w.stage i ≠ .NotStarted → w'.stage i ≠ .NotStarted
  calls : ∀ c ∈ w.targetCalls, c ∈ w'.targetCalls

/-- What is known at each point of a session. -/
def Progress (messageId : Bytes32) : Point → World → Prop
  | .checking _ _ _, w | .cleared, w | .executing, w => w.stage messageId ≠ .NotStarted
  | .calling, w | .called, w | .concluding _ _ _, w =>
      w.stage messageId ≠ .NotStarted ∧ ∃ c ∈ w.targetCalls, c.1 = messageId

theorem lasting_refl (w : World) : Lasting w w := ⟨fun _ h => h, fun _ h => h⟩

theorem lasting_trans (a b c : World) (h : Lasting a b) (h' : Lasting b c) : Lasting a c :=
  ⟨fun i hi => h'.started i (h.started i hi), fun x hx => h'.calls x (h.calls x hx)⟩

theorem progress_lasting (i : Bytes32) (p : Point) (w w' : World) (h : Progress i p w)
    (lasting : Lasting w w') : Progress i p w' := by
  have recorded (held : w.stage i ≠ .NotStarted ∧ ∃ c ∈ w.targetCalls, c.1 = i) :
      w'.stage i ≠ .NotStarted ∧ ∃ c ∈ w'.targetCalls, c.1 = i := by
    obtain ⟨started, c, hc, same⟩ := held
    exact ⟨lasting.started i started, c, lasting.calls c hc, same⟩
  cases p with
  | checking payload total agreed => exact lasting.started i h
  | cleared => exact lasting.started i h
  | executing => exact lasting.started i h
  | calling => exact recorded h
  | called => exact recorded h
  | concluding payload total agreed => exact recorded h

section Steps

variable (D : Deployment)

/-- A step that concerns no message. -/
theorem vouched_administers (w w' : World) (h : Vouched D w) (moved : Administers w w') :
    Vouched D w' ∧ Lasting w w' := by
  have stage (i : Bytes32) : w'.stage i = w.stage i := by rw [World.stage, moved.states]; rfl
  have message (i : Bytes32) : w'.message i = w.message i := by
    rw [World.message, moved.states]
    rfl
  refine ⟨⟨?_, ?_, ?_⟩, ?_, ?_⟩
  · intro i hi
    rw [stage] at hi
    obtain ⟨initializer, signer, recorded, recovered⟩ := h.signed i hi
    refine ⟨initializer, signer, moved.trace.subset recorded, ?_⟩
    rw [message, moved.signatures]
    exact recovered
  · intro c hc
    rw [moved.calls] at hc
    rw [stage, message]
    exact h.calls c hc
  · intro i hi
    rw [stage] at hi
    rw [moved.calls]
    exact h.completed i hi
  · intro i hi
    rw [stage]
    exact hi
  · intro c hc
    rw [moved.calls]
    exact hc

/-- A stage is written. -/
theorem vouched_staged (w : World) (i : Bytes32) (stage : ProcessingStage)
    (h : Vouched D w) (started : w.stage i ≠ .NotStarted) (hstage : stage ≠ .NotStarted)
    (called : stage = .Completed → ∃ c ∈ w.targetCalls, c.1 = i) :
    Vouched D (w.staged i stage) ∧ Lasting w (w.staged i stage) := by
  have written (j : Bytes32) : (w.staged i stage).stage j = if j = i then stage else w.stage j :=
    stage_setStage i w stage j
  have before (j : Bytes32) (hj : (w.staged i stage).stage j ≠ .NotStarted) :
      w.stage j ≠ .NotStarted := by
    by_cases same : j = i
    · rw [same]
      exact started
    · rw [written, if_neg same] at hj
      exact hj
  have after (j : Bytes32) (hj : w.stage j ≠ .NotStarted) :
      (w.staged i stage).stage j ≠ .NotStarted := by
    rw [written]
    split
    · exact hstage
    · exact hj
  have message (j : Bytes32) : (w.staged i stage).message j = w.message j := by
    by_cases same : j = i
    · subst same
      simp [World.message, World.staged]
    · simp [World.message, World.staged, same]
  refine ⟨⟨?_, ?_, ?_⟩, after, fun _ hc => hc⟩
  · intro j hj
    rw [message]
    exact h.signed j (before j hj)
  · intro c hc
    rw [message]
    exact ⟨after c.1 (h.calls c hc).1, (h.calls c hc).2⟩
  · intro j hj
    rw [written] at hj
    split at hj
    · rename_i same
      subst same
      exact called hj
    · exact h.completed j hj

theorem vouched_initialize (w : World) (i : Bytes32) (target : Address) (payload : Bytes)
    (signature : SequencerSignature) (amount : UInt256) (sender signer : Address)
    (h : Vouched D w) (new : w.stage i = .NotStarted)
    (signed : messageSigner D i target payload signature amount = some signer) :
    Vouched D (w.initiated i target payload signature amount sender signer) ∧
      Lasting w (w.initiated i target payload signature amount sender signer) := by
  have calls : (w.initiated i target payload signature amount sender signer).targetCalls =
      w.targetCalls := by
    simp [World.targetCalls, World.initiated, Action.targetCall?]
  have other (j : Bytes32) (hj : j ≠ i) :
      (w.initiated i target payload signature amount sender signer).stage j = w.stage j ∧
      (w.initiated i target payload signature amount sender signer).message j = w.message j := by
    constructor
    · simp [World.stage, World.initiated, storeMessage, hj]
    · simp [World.message, World.initiated, storeMessage, hj]
  have distinct (j : Bytes32) (hj : w.stage j ≠ .NotStarted) : j ≠ i := by
    intro same
    rw [same] at hj
    exact hj new
  refine ⟨⟨?_, ?_, ?_⟩, ?_, ?_⟩
  · intro j hj
    by_cases same : j = i
    · subst same
      refine ⟨sender, signer, by simp [World.initiated], ?_⟩
      have stored : (w.initiated j target payload signature amount sender signer).message j =
          ⟨j, target, payload, amount⟩ := by
        simp [World.message, World.initiated, storeMessage]
      have kept : (w.initiated j target payload signature amount sender
          signer).bridge.sequencerSignatures j = signature := by
        simp [World.initiated, storeMessage]
      rw [stored, kept]
      exact signed
    · rw [(other j same).1] at hj
      obtain ⟨initializer, signer', recorded, recovered⟩ := h.signed j hj
      refine ⟨initializer, signer', by simp [World.initiated, recorded], ?_⟩
      rw [(other j same).2]
      simpa [World.initiated, storeMessage, same] using recovered
  · intro c hc
    rw [calls] at hc
    have hci := distinct c.1 (h.calls c hc).1
    rw [(other _ hci).1, (other _ hci).2]
    exact h.calls c hc
  · intro j hj
    rw [calls]
    by_cases same : j = i
    · subst same
      simp [World.stage, World.initiated, storeMessage] at hj
    · rw [(other j same).1] at hj
      exact h.completed j hj
  · intro j hj
    rw [(other j (distinct j hj)).1]
    exact hj
  · intro c hc
    rw [calls]
    exact hc

theorem vouched_calling (w : World) (i : Bytes32) (h : Vouched D w)
    (started : w.stage i ≠ .NotStarted) :
    Vouched D (w.calling i) ∧ Lasting w (w.calling i) ∧ Progress i .calling (w.calling i) := by
  have calls : (w.calling i).targetCalls = w.targetCalls ++
      [(i, (w.bridge.messageStates i).targetAddress, (w.bridge.messageStates i).nativeTokenAmount,
        (w.bridge.messageStates i).payload)] := by
    simp [World.targetCalls, World.calling, Action.targetCall?]
  refine ⟨⟨?_, ?_, ?_⟩, ⟨fun _ h => h, ?_⟩, started, ?_⟩
  · intro j hj
    obtain ⟨initializer, signer, recorded, recovered⟩ := h.signed j hj
    exact ⟨initializer, signer, List.mem_append_left _ recorded, recovered⟩
  · intro c hc
    rw [calls] at hc
    rcases List.mem_append.mp hc with before | now
    · exact h.calls c before
    · rw [List.mem_singleton.mp now]
      exact ⟨started, rfl⟩
  · intro j hj
    obtain ⟨c, hc, same⟩ := h.completed j hj
    exact ⟨c, by rw [calls]; exact List.mem_append_left _ hc, same⟩
  · intro c hc
    rw [calls]
    exact List.mem_append_left _ hc
  · exact ⟨_, by rw [calls]; exact List.mem_append_right _ (List.mem_singleton.mpr rfl), rfl⟩

/-- The bridge alone, without notes. -/
def silent : Companion Unit Empty Drift := observer (fun _ _ t => t) (fun _ _ _ t => t)

theorem drift_sameBridge (d : Drift) (w : World) :
    Quieter w (drift d w) ∧ (drift d w).bridge = w.bridge ∧ (drift d w).keyManager =
      w.keyManager := by
  cases d with
  | elapse seconds =>
    simp only [drift]
    split
    · exact ⟨quieter_trace _ _ rfl, rfl, rfl⟩
    · exact ⟨quieter_refl w, rfl, rfl⟩
  | views v => exact ⟨quieter_trace _ _ rfl, rfl, rfl⟩
  | credit amount => exact ⟨quieter_trace _ _ rfl, rfl, rfl⟩

theorem vouched_passes (c : ExtCall) (accepted : Bytes → Prop) (i : Bytes32) (p p' : Point)
    (hp : ∀ w, Progress i p w → Progress i p' w) :
    Passes silent (fun st => Vouched D st.1) (fun st st' => Lasting st.1 st'.1)
      (fun _ _ _ _ => True) c accepted (fun st => Progress i p st.1)
      (fun st => Progress i p' st.1) := by
  refine passes_call (fun _ t => t) (fun _ => rfl) ?_
  intro st data st' _ here vouched lasting _ _
  exact ⟨vouched, lasting_refl _, hp _ (progress_lasting i p _ _ here lasting)⟩

theorem vouched_duties : Duties D silent (fun st => Vouched D st.1)
    (fun st st' => Lasting st.1 st'.1) (fun _ _ _ _ => True) (fun _ _ => True)
    (fun i p st => Progress i p st.1) where
  refl := fun _ => lasting_refl _
  trans := fun _ _ _ => lasting_trans _ _ _
  meets := by
    intro m e _
    cases e with
    | answer r => exact fun _ _ _ => trivial
    | _ => trivial
  drift := by
    intro m d _ vouched
    obtain ⟨quieter, bridge, _⟩ := drift_sameBridge d m.store.1
    exact vouched_administers D _ _ vouched (administers_bridge _ _ bridge quieter)
  own := fun _ c => nomatch c
  administered := fun w w' _ moved vouched => vouched_administers D w w' vouched moved
  idle := by
    intro c hc b st vouched lasting
    exact ⟨⟨vouched, lasting⟩, fun r st' answered => ⟨answered.1, lasting_refl _⟩⟩
  initialized := by
    intro w t i target payload signature amount sender signer vouched new _ signed _
    exact vouched_initialize D w i target payload signature amount sender signer vouched new signed
  kept := by
    intro i p w w' t same known
    refine progress_lasting i p w w' known ⟨fun j hj => ?_, fun c hc => ?_⟩
    · rw [World.stage, same.bridge]
      exact hj
    · rw [same.calls]
      exact hc
  starting := by
    intro i w t vouched hstage
    refine ⟨vouched, lasting_refl _, ?_⟩
    intro new
    rw [new] at hstage
    cases hstage
  preCheck := by
    intro i payload signature total agreed module
    refine passes_call (fun _ t => t) (fun _ => rfl) ?_
    intro st data st' _ here vouched lasting _ _
    exact ⟨vouched, lasting_refl _, lasting.started i here.2⟩
  cleared := by
    intro i payload agreed w t vouched known
    obtain ⟨holds, grown⟩ := vouched_staged D w i .Executing vouched known (by decide)
      (by intro h; cases h)
    exact ⟨holds, grown, grown.started i known⟩
  withdraw := fun i amount => vouched_passes D _ _ i .cleared .cleared fun _ h => h
  executing := fun i w t vouched known => ⟨vouched, lasting_refl _, known⟩
  calling := by
    intro i w t vouched known
    obtain ⟨holds, grown, called⟩ := vouched_calling D w i vouched known
    exact ⟨holds, grown, called⟩
  target := fun i t v p => vouched_passes D _ _ i .calling .called fun _ h => h
  ownTarget := fun _ _ _ _ known => known
  answered := by
    intro i data w t vouched known
    obtain ⟨holds, grown⟩ := vouched_staged D w i .PostExecution vouched known.1 (by decide)
      (by intro h; cases h)
    exact ⟨holds, grown, progress_lasting i .called _ _ known grown⟩
  postCheck := by
    intro i payload signature total agreed module
    refine passes_call (fun _ t => t) (fun _ => rfl) ?_
    intro st data st' _ here vouched lasting _ _
    exact ⟨vouched, lasting_refl _,
      progress_lasting i (.concluding payload total agreed) _ _ here.2 lasting⟩
  completed := by
    intro i payload agreed w t vouched known
    exact vouched_staged D w i .Completed vouched known.1 (by decide) fun _ => known.2

/-- In every run of the bridge. -/
theorem run_vouched (owner verifier : Address) (timestamp : UInt256) (views : Views)
    (es : List (Event ExtResult Entry Drift)) (m : Machine World ExtCall ExtResult Error Entry)
    (hm : run (system D) (boot (genesis D owner verifier timestamp views)) es = some m) :
    Vouched D m.store ∧ Vouched D m.committed := by
  obtain ⟨m', hm', store, committed⟩ :=
    observed_run D (fun _ _ t => t) (fun _ _ _ t => t) _ () es m hm
  have start : Vouched D (genesis D owner verifier timestamp views) := by
    refine ⟨fun i hi => ?_, fun c hc => ?_, fun i hi => ?_⟩
    · exact absurd rfl hi
    · cases hc
    · simp [World.stage, genesis, BridgeState.deploy, MessageState.empty] at hi
  have kept := run_kept (extended_guarantees (duties_obligations (vouched_duties D))) _ m' _
    (boot_kept _ start) (throughout_true _ _) hm'
  have last := kept_committed m' kept
  rw [← store, ← committed]
  exact ⟨kept.holds, last⟩

end Steps

/-- The signer under whose signature a message was initialized. -/
def RecordedSigner (w : World) (messageId : Bytes32) (signer : Address) : Prop :=
  ∃ initializer, Action.initialized messageId initializer signer ∈ w.trace

/-- A signature recovers to the signers on record for one digest only. -/
def RecoversOnce (X : Crypto) (w w' : World) (messageId : Bytes32) (signature : Bytes) : Prop :=
  ∀ digest digest' signer signer', X.recover digest signature = some signer →
    X.recover digest' signature = some signer' → RecordedSigner w messageId signer →
    RecordedSigner w' messageId signer' → digest = digest'

theorem signMessageId_ok (X : Crypto) (keyManager : EvmKeyManager) (messageId : Bytes32)
    (signature : Bytes) :
    signMessageId X keyManager messageId = .ok signature ↔ ∃ raw,
      keyManager.signRawSync (word (toEthSignedMessageHash X messageId)) = .ok raw ∧
        raw.bytes = signature := by
  have digest : ethSignedMessageHash X messageId = toEthSignedMessageHash X messageId := rfl
  rw [signMessageId, digest, Outcome.map_ok]

/-- Whether a validator's signature is accepted does not depend on any message. -/
theorem signatureAccepted_congr (D : Deployment) (w w' : World) (messageId : Bytes32)
    (signature : Bytes) (keyManager : w'.keyManager = w.keyManager)
    (timestamp : w'.timestamp = w.timestamp) (views : w'.views = w.views)
    (manager : w'.bridge.teeKeyManager = w.bridge.teeKeyManager)
    (h : SignatureAccepted D w messageId signature) :
    SignatureAccepted D w' messageId signature := by
  obtain ⟨w₁, accepted⟩ := h
  rw [signMessageWithSignature, bind_apply, recover] at accepted
  rw [SignatureAccepted, signMessageWithSignature]
  simp only [bind_apply, recover]
  cases recovered : D.crypto.recover (toEthSignedMessageHash D.crypto messageId) signature with
  | none =>
    rw [recovered] at accepted
    cases accepted
  | some validator =>
    rw [recovered] at accepted
    simp only [pure_apply, bind_ret, acceptValidator, bind_apply, isKeyValid, get_apply]
      at accepted ⊢
    rw [keyManager, timestamp, views, manager]
    split
    · rename_i deployed
      rw [if_pos deployed] at accepted
      cases valid : TeeKeyManager.isKeyValid w.timestamp w.keyManager .Validator validator with
      | ok b => exact ⟨_, rfl⟩
      | error e =>
        rw [valid] at accepted
        cases accepted
    · rename_i foreign
      rw [if_neg foreign] at accepted
      cases valid : w.views.isKeyValid w.bridge.teeKeyManager .Validator validator with
      | some b => exact ⟨_, rfl⟩
      | none =>
        rw [valid] at accepted
        cases accepted

/-- Two worlds that agree on the signature under which a message was initialized agree on what its
target calls are. -/
theorem calls_agree (D D' : Deployment) (hX : D'.crypto = D.crypto) (w w' : World) (i : Bytes32)
    (vouched : Vouched D w) (vouched' : Vouched D' w') (done : w.stage i = .Completed)
    (done' : w'.stage i = .Completed)
    (signature : (w'.bridge.sequencerSignatures i).signature =
      (w.bridge.sequencerSignatures i).signature)
    (collisionFree : Set.InjOn D.crypto.keccak256
      {bs | bs ∈ (w.message i).hashed D.crypto ++ (w'.message i).hashed D.crypto})
    (once : RecoversOnce D.crypto w w' i (w.bridge.sequencerSignatures i).signature) :
    ∃ t v p, (i, t, v, p) ∈ w.targetCalls ∧ (i, t, v, p) ∈ w'.targetCalls ∧
      ∀ c, c ∈ w.targetCalls ∨ c ∈ w'.targetCalls → c.1 = i → c = (i, t, v, p) := by
  have started (u : World) (h : u.stage i = .Completed) : u.stage i ≠ .NotStarted := by
    rw [h]
    decide
  obtain ⟨initializer, signer, recorded, recovered⟩ := vouched.signed i (started w done)
  obtain ⟨initializer', signer', recorded', recovered'⟩ := vouched'.signed i (started w' done')
  rw [hX, signature] at recovered'
  have digests := once _ _ signer signer' recovered recovered' ⟨initializer, recorded⟩
    ⟨initializer', recorded'⟩
  have same : w.message i = w'.message i :=
    BridgeMessage.eq_of_digest_eq D.crypto _ _ collisionFree digests
  have content (c : Bytes32 × Address × UInt256 × Bytes) (hc : callMessage c = w.message c.1)
      (hi : c.1 = i) : c = (i, (w.message i).targetAddress, (w.message i).nativeTokenAmount,
        (w.message i).payload) := by
    obtain ⟨j, t, v, p⟩ := c
    have hj : j = i := hi
    subst hj
    rw [← hc]
    rfl
  have both (c : Bytes32 × Address × UInt256 × Bytes)
      (hc : c ∈ w.targetCalls ∨ c ∈ w'.targetCalls) (hi : c.1 = i) :
      callMessage c = w.message c.1 := by
    rcases hc with hc | hc
    · exact (vouched.calls c hc).2
    · rw [(vouched'.calls c hc).2, hi, same]
  obtain ⟨c, hc, hi⟩ := vouched.completed i done
  obtain ⟨c', hc', hi'⟩ := vouched'.completed i done'
  have first := content c (both c (.inl hc) hi) hi
  have second := content c' (both c' (.inr hc') hi') hi'
  refine ⟨_, _, _, ?_, ?_, fun c'' hc'' hi'' => content c'' (both c'' hc'' hi'') hi''⟩
  · rw [← first]
    exact hc
  · rw [← second]
    exact hc'

/-- A validator signs the message id alone and its signature is accepted whatever the message is.
What is executed is bound by the signature of the sequencer: two runs in which a message completes
after it was initialized under the same signature have made the same target call. -/
theorem validator_approval_binds_id (X : Crypto) :
    (∀ keyManager messageId signature, signMessageId X keyManager messageId = .ok signature ↔
      ∃ raw, keyManager.signRawSync (word (toEthSignedMessageHash X messageId)) = .ok raw ∧
        raw.bytes = signature) ∧
    (∀ D w w' messageId signature, w'.keyManager = w.keyManager → w'.timestamp = w.timestamp →
      w'.views = w.views → w'.bridge.teeKeyManager = w.bridge.teeKeyManager →
      (SignatureAccepted D w messageId signature ↔ SignatureAccepted D w' messageId signature)) ∧
    (∀ (D D' : Deployment) owner owner' verifier verifier' timestamp timestamp' views views'
      (es es' : List (Event ExtResult Entry Drift)) m m' i, D.crypto = X → D'.crypto = X →
      run (system D) (boot (genesis D owner verifier timestamp views)) es = some m →
      run (system D') (boot (genesis D' owner' verifier' timestamp' views')) es' = some m' →
      m.committed.stage i = .Completed → m'.committed.stage i = .Completed →
      (m'.committed.bridge.sequencerSignatures i).signature =
        (m.committed.bridge.sequencerSignatures i).signature →
      Set.InjOn X.keccak256
        {bs | bs ∈ (m.committed.message i).hashed X ++ (m'.committed.message i).hashed X} →
      RecoversOnce X m.committed m'.committed i
        (m.committed.bridge.sequencerSignatures i).signature →
      ∃ t v p, (i, t, v, p) ∈ m.committed.targetCalls ∧ (i, t, v, p) ∈ m'.committed.targetCalls ∧
        ∀ c, c ∈ m.committed.targetCalls ∨ c ∈ m'.committed.targetCalls → c.1 = i →
          c = (i, t, v, p)) := by
  refine ⟨signMessageId_ok X, ?_, ?_⟩
  · intro D w w' messageId signature keyManager timestamp views manager
    constructor
    · exact signatureAccepted_congr D w w' messageId signature keyManager timestamp views manager
    · exact signatureAccepted_congr D w' w messageId signature keyManager.symm timestamp.symm
        views.symm manager.symm
  · intro D D' owner owner' verifier verifier' timestamp timestamp' views views' es es' m
      m' i hX hX' hm hm' done done' signature collisionFree once
    subst hX
    exact calls_agree D D' hX' _ _ i (run_vouched D owner verifier timestamp views es m hm).2
      (run_vouched D' owner' verifier' timestamp' views' es' m' hm').2 done done' signature
      collisionFree once

namespace TwoMessages

def otherMessage : Sample where
  targetAddress := 0x98
  payload := []
  payloadHash := plainMessage.payloadHash
  messageHash := 0x847af73cdb99c108620449825485d6f17be853b56ec32fad6817fe4605bbefc4
  signedHash := 0x712ec7f941092eea1d6d737886a500f73a285881a2cb207ffc7b833b4bc754e5
  signature :=
    bigEndian 32 0x5e7bfffc742de9fa84b5719d0a41a716c8268335ba3ecd2959b33fcc60753525 ++
    bigEndian 32 0x6dfa8ba2aad2ac0d03122ce7109dc7b87668a52f2cf282703a58a395f93c4cc4 ++ [28]

def validator : Address := 0x2b5ad5c4795c026514f8317c7a215e218dccd6cf

/-- The hash of the message id `1` that the validator signs, and its signature. -/
def approvalHash : Bytes32 := 0xc9798da569c6ded6bd4b17373ef332b7c84d68cdec3f420f583dcd7b441ae31d

def approval : Bytes :=
  bigEndian 32 0x688061d0098f93217d6a56e75a742ddf892c2bb59125f8e52e127f0c9448a364 ++
  bigEndian 32 0x5e9d8f92c7a2c15938c5182e4d3522c3021a25d44d97187fc10ceb3fd0ebbd1e ++ [27]

/-- The hashes, the signatures and the recovered signers are the real values. -/
def crypto : Crypto where
  keccak256 bs :=
    if bs = [0x19] ++ ascii "Ethereum Signed Message:\n32" ++ word 1 then approvalHash
    else if plainMessage.crypto.keccak256 bs = 0 then otherMessage.crypto.keccak256 bs
    else plainMessage.crypto.keccak256 bs
  recover hash signature :=
    if hash = approvalHash ∧ signature = approval then some validator
    else (plainMessage.crypto.recover hash signature).or
      (otherMessage.crypto.recover hash signature)

def deployment : Deployment := { plainMessage.deployment with crypto := crypto }

def start : World := Contracts.genesis deployment 0x0A 0xA7 1700000000 sampleViews

/-- Both keys are registered, the message is initialized with the content that the sequencer has
signed, the validator's signature is handed in, and the message is handled. -/
def events (m : Sample) : List (Event ExtResult Entry Drift) :=
  .enter (.bridge 0x0A (.registerKey .Validator (word (validator.setWidth 256)) [])) ::
  m.setup ++
  [.enter (.bridge 0x77 (.signMessageWithSignature 1 approval)),
   .enter (.bridge 0x77 (.handleMessage 1)),
   .answer (.returned [])]

/-- The same approval is accepted in both runs, and each executes what the
sequencer signed in it. -/
theorem same_approval_other_execution :
    ∃ m m', run (system deployment) (boot start) (events plainMessage) = some m ∧
      run (system deployment) (boot start) (events otherMessage) = some m' ∧
      (m.committed.stage 1 = .Completed ∧ m'.committed.stage 1 = .Completed) ∧
      (m.committed.bridge.validatorSignatures 1 validator = true ∧
        m'.committed.bridge.validatorSignatures 1 validator = true) ∧
      m.committed.targetCalls = [(1, 0x99, 0, [])] ∧
      m'.committed.targetCalls = [(1, 0x98, 0, [])] := by
  have outcome (t : Sample) (ht : t = plainMessage ∨ t = otherMessage) :
      (run (system deployment) (boot start) (events t)).map (fun m => (m.committed.stage 1,
        m.committed.bridge.validatorSignatures 1 validator)) = some (.Completed, true) := by
    rcases ht with rfl | rfl
    · decide +kernel
    · decide +kernel
  have executed (t : Sample) (ht : t = plainMessage ∨ t = otherMessage) :
      (run (system deployment) (boot start) (events t)).map (fun m => m.committed.targetCalls) =
        some [(1, t.targetAddress, 0, [])] := by
    rcases ht with rfl | rfl
    · decide +kernel
    · decide +kernel
  obtain ⟨m, hm, values⟩ := Option.map_eq_some_iff.mp (outcome plainMessage (.inl rfl))
  obtain ⟨m', hm', values'⟩ := Option.map_eq_some_iff.mp (outcome otherMessage (.inr rfl))
  obtain ⟨completed, approved⟩ := Prod.mk.inj values
  obtain ⟨completed', approved'⟩ := Prod.mk.inj values'
  have calls := executed plainMessage (.inl rfl)
  have calls' := executed otherMessage (.inr rfl)
  rw [hm] at calls
  rw [hm'] at calls'
  exact ⟨m, m', hm, hm', ⟨completed, completed'⟩, ⟨approved, approved'⟩, Option.some.inj calls,
    Option.some.inj calls'⟩

/-- The second run of the plain message goes without the approval. -/
theorem validator_approval_binds_id_plain :
    ∃ m m', run (system deployment) (boot start) (events plainMessage) = some m ∧
      run (system deployment) (boot start) plainRun = some m' ∧
      ∃ t v p, (1, t, v, p) ∈ m.committed.targetCalls ∧
        (1, t, v, p) ∈ m'.committed.targetCalls := by
  have outcome (es : List (Event ExtResult Entry Drift))
      (hes : es = events plainMessage ∨ es = plainRun) :
      (run (system deployment) (boot start) es).map (fun m => (m.committed.stage 1,
        m.committed.bridge.sequencerSignatures 1, m.committed.message 1)) =
      some (.Completed, ⟨plainMessage.signature, 1700000000⟩, ⟨1, 0x99, [], 0⟩) := by
    rcases hes with rfl | rfl
    · decide +kernel
    · decide +kernel
  obtain ⟨m, hm, values⟩ := Option.map_eq_some_iff.mp (outcome _ (.inl rfl))
  obtain ⟨m', hm', values'⟩ := Option.map_eq_some_iff.mp (outcome _ (.inr rfl))
  obtain ⟨completed, values⟩ := Prod.mk.inj values
  obtain ⟨completed', values'⟩ := Prod.mk.inj values'
  obtain ⟨signature, message⟩ := Prod.mk.inj values
  obtain ⟨signature', message'⟩ := Prod.mk.inj values'
  have distinct : ∀ bs ∈ BridgeMessage.hashed crypto ⟨1, 0x99, [], 0⟩ ++
      BridgeMessage.hashed crypto ⟨1, 0x99, [], 0⟩,
      ∀ cs ∈ BridgeMessage.hashed crypto ⟨1, 0x99, [], 0⟩ ++
        BridgeMessage.hashed crypto ⟨1, 0x99, [], 0⟩,
      crypto.keccak256 bs = crypto.keccak256 cs → bs = cs := by
    decide
  have once (digest : Bytes32) (signer : Address)
      (h : crypto.recover digest plainMessage.signature = some signer) :
      digest = plainMessage.signedHash := by
    by_contra other
    have notApproval : ¬(digest = approvalHash ∧ plainMessage.signature = approval) := by
      intro both
      exact absurd both.2 (by decide)
    have notOther : ¬(digest = otherMessage.signedHash ∧
        plainMessage.signature = otherMessage.signature) := by
      intro both
      exact absurd both.2 (by decide)
    simp [crypto, Sample.crypto, other, notApproval, notOther] at h
  obtain ⟨t, v, p, called, called', _⟩ := (validator_approval_binds_id crypto).2.2 deployment
    deployment 0x0A 0x0A 0xA7 0xA7 1700000000 1700000000 sampleViews sampleViews _ _ m m' 1 rfl rfl
    hm hm' completed completed' (by rw [signature, signature'])
    (by rw [message, message']; exact fun bs hbs cs hcs => distinct bs hbs cs hcs)
    (by
      rw [signature]
      intro digest digest' signer signer' recovered recovered' _ _
      rw [once digest signer recovered, once digest' signer' recovered'])
  exact ⟨m, m', hm, hm', t, v, p, called, called'⟩

end TwoMessages

end SyndDB.Contracts
