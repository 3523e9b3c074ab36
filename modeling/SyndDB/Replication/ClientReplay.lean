import SyndDB.Client.Transmission
import SyndDB.Replication.EndToEnd

namespace SyndDB.Replication.Gcs

open Octets Shared Changes ObjectStore
open Client (ChangesetApply Database Emission Event Image Item Sqlite System)
open Sequencer Sequencer.Gcs

variable {σ τ κ ν : Type} [DecidableEq κ] [DecidableEq ν] (Q : Sqlite σ τ κ)
  (A : ChangesetApply σ κ ν)

/-- A replay that leaves no changeset out. -/
def follow : Image σ κ ν → List (Emission σ κ ν) → Except String (Image σ κ ν)
  | image, [] => .ok image
  | _, .snapshot _ _ data :: rest => follow data rest
  | image, .changeset _ data :: rest =>
      match Client.applySingleChangeset Q A image data with
      | .error e => .error e
      | .ok image => follow image rest

variable {Q A}

theorem follow_append (image result : Image σ κ ν) (xs ys : List (Emission σ κ ν)) :
    follow Q A image (xs ++ ys) = .ok result ↔
      ∃ middle, follow Q A image xs = .ok middle ∧ follow Q A middle ys = .ok result := by
  induction xs generalizing image with
  | nil => simp [follow]
  | cons e xs ih =>
    cases e with
    | snapshot route sequence data => exact ih data
    | changeset sequence data =>
      rw [List.cons_append, follow, follow]
      cases Client.applySingleChangeset Q A image data with
      | error e => simp
      | ok image => exact ih image

/-- In the order of the numbers no changeset is before the last snapshot. -/
theorem follow_of_replay (image result : Image σ κ ν) (start last : Nat)
    (es : List (Emission σ κ ν))
    (sorted : es.Pairwise fun e f => e.rank ≤ f.rank) (late : ∀ e ∈ es, 2 * start ≤ e.rank)
    (replayed : Client.replay Q A (image, start) es = .ok (result, last)) : follow Q A image es =
      .ok result := by
  induction es generalizing image start with
  | nil =>
    cases replayed
    rfl
  | cons e es ih =>
    obtain ⟨before, rest⟩ := List.pairwise_cons.mp sorted
    rw [Client.replay] at replayed
    cases e with
    | snapshot route sequence data => exact ih data sequence rest before replayed
    | changeset sequence data =>
      have number : 2 * start ≤ 2 * sequence + 1 := late _ List.mem_cons_self
      have later : ¬sequence < start := by omega
      rw [Client.replayStep, if_neg later] at replayed
      rw [follow]
      cases applied : Client.applySingleChangeset Q A image data with
      | error e =>
        rw [applied] at replayed
        cases replayed
      | ok next =>
        rw [applied] at replayed
        exact ih next start rest (fun e member => late e (List.mem_cons_of_mem _ member)) replayed

/-- What the client makes of its data: the session extension and the backup of
SQLite, and ciborium. -/
structure Wire (σ κ ν : Type) where
  changesetBytes : List (Change κ ν) → Bytes
  imageBytes : Image σ κ ν → Bytes
  changesetsToCbor : ChangesetBatchRequest → Bytes
  snapshotToCbor : SnapshotRequest → Bytes

/-- A changeset with its number and the time of its extraction. -/
structure Extracted (κ ν : Type) where
  sequence : Nat
  changes : List (Change κ ν)
  timestamp : UInt64
  deriving DecidableEq

def Extracted.emission (x : Extracted κ ν) : Emission σ κ ν := .changeset x.sequence x.changes

variable (W : Wire σ κ ν)

def Extracted.toData (x : Extracted κ ν) : ChangesetData :=
  ⟨W.changesetBytes x.changes, UInt64.ofNat x.sequence, x.timestamp⟩

variable (X : Externals) (compressPayload : Bytes → Bytes) (Q A) (E : Engine (Image σ κ ν))

/-- The bytes of a changeset, which the validator reads back. -/
structure ReadsChangeset (changes : List (Change κ ν)) : Prop where
  filled : W.changesetBytes changes ≠ []
  applied : ∀ n image result, Client.applySingleChangeset Q A image changes = .ok result →
    E.applySingleChangeset n image (W.changesetBytes changes) = .ok result

/-- The requests of the two senders with their payloads, which the validator reads back. -/
inductive Carries : List (Item σ κ ν) → CborMessageType → Bytes → Prop where
  | changesets (session : Nat) (xs : List (Extracted κ ν)) (request : ChangesetBatchRequest)
      (changesets : request.changesets = xs.map (Extracted.toData W))
      (inflates : E.decompress (compressPayload (W.changesetsToCbor request)) =
        .ok (W.changesetsToCbor request))
      (parses : E.parseChangesets (W.changesetsToCbor request) = .ok request)
      (reads : ∀ x ∈ xs, ReadsChangeset Q A W E x.changes) :
      Carries (xs.map fun x => ⟨session, x.emission⟩) .Changeset (W.changesetsToCbor request)
  | snapshot (session : Nat) (route : Client.Route) (sequence : Nat) (data : Image σ κ ν)
      (request : SnapshotRequest) (snapshot : request.snapshot.data = W.imageBytes data)
      (inflates : E.decompress (compressPayload (W.snapshotToCbor request)) =
        .ok (W.snapshotToCbor request))
      (parses : E.parseSnapshot (W.snapshotToCbor request) = .ok request)
      (restores : E.restoreSnapshot (W.imageBytes data) = .ok data) :
      Carries [⟨session, .snapshot route sequence data⟩] .Snapshot (W.snapshotToCbor request)

/-- The message that the sequencer makes of a request. -/
def Sent (key : Bytes) (items : List (Item σ κ ν)) (m : CborSignedMessage) : Prop :=
  ∃ sequence timestamp messageType payload sign,
    Carries Q A W compressPayload E items messageType payload ∧
    X.SigningKey key sign ∧
    CborSignedMessage.new X sequence timestamp messageType (compressPayload payload) key sign =
      .ok m

/-- The validator finds the request in the message. -/
def Received (items : List (Item σ κ ν)) (message : SignedMessage) : Prop :=
  ∃ messageType payload, Carries Q A W compressPayload E items messageType payload ∧
    message.messageType = messageType.toMessageType ∧ message.payload = compressPayload payload

variable {X compressPayload Q A W E}

theorem Sent.received (reads : X.ReadsMessages) (back : X.ReadsBack) {key : Bytes}
    {items : List (Item σ κ ν)}
    {m : CborSignedMessage} (sent : Sent Q A W X compressPayload E key items m)
    {message : SignedMessage}
    (converted : m.toSignedMessage X key = .ok message) :
      Received Q A W compressPayload E items message := by
  obtain ⟨sequence, timestamp, messageType, payload, sign, carries, signer, built⟩ := sent
  obtain ⟨bytes, coded, returned⟩ := (Outcome.bind_ok _ _ _).mp built
  cases returned
  obtain ⟨signature, header, verified, written, -⟩ :=
    built_accepted X reads back _ _ _ _ _ _ signer bytes coded
  have own := (toSignedMessage_unchecked X ⟨bytes⟩ _ _).mpr ⟨_, header, verified, written, rfl⟩
  obtain rfl := Except.ok.inj (own.symm.trans converted)
  exact ⟨messageType, payload, carries, rfl, rfl⟩

theorem applyChangesets_follow (message : SignedMessage) (batchId : String) (i : Nat)
    (image result : Image σ κ ν)
    (xs : List (Extracted κ ν)) (reads : ∀ x ∈ xs, ReadsChangeset Q A W E x.changes)
    (followed : follow Q A image (xs.map Extracted.emission) = .ok result) :
    applyChangesets E message batchId i image (xs.map (Extracted.toData W)) = .ok result := by
  induction xs generalizing i image with
  | nil => exact followed
  | cons x xs ih =>
    have read := reads x List.mem_cons_self
    have rest := fun y member => reads y (List.mem_cons_of_mem x member)
    rw [List.map_cons, Extracted.emission, follow] at followed
    cases applied : Client.applySingleChangeset Q A image x.changes with
    | error e =>
      rw [applied] at followed
      cases followed
    | ok next =>
      rw [applied] at followed
      rw [List.map_cons, applyChangesets, Extracted.toData]
      split
      · next empty => exact absurd (List.isEmpty_iff.mp empty) read.filled
      · rw [read.applied message.sequence image next applied]
        exact ih (i + 1) next rest followed

theorem Received.applied {items : List (Item σ κ ν)} {message : SignedMessage}
    (received : Received Q A W compressPayload E items message)
    (rules : ∀ image sequence, E.validateAll image sequence = .ok ()) {image result : Image σ κ ν}
    (followed : follow Q A image (items.map Item.emission) = .ok result) :
    message.messageType ≠ .Withdrawal ∧
      applyMessageWithAudit E message ⟨image, []⟩ = (.ok .Applied, ⟨result, []⟩) := by
  obtain ⟨messageType, payload, carries, type, same⟩ := received
  cases carries with
  | changesets session xs request changesets inflates parses reads =>
    rw [List.map_map] at followed
    have each := applyChangesets_follow message request.batchId 0 image result xs reads followed
    have ruled : applyMessageWithRules E message image = .ok result := by
      rw [applyMessageWithRules, type]
      simp only [CborMessageType.toMessageType, applyChangesetMessageWithRules,
        decompressAndParse, same, inflates, parses, Outcome.ok_bind, changesets, each, rules]
      rfl
    rw [type]
    refine ⟨by simp [CborMessageType.toMessageType], ?_⟩
    simp only [applyMessageWithAudit, ruled, type, CborMessageType.toMessageType,
      reduceCtorEq, if_false]
  | snapshot session route sequence data request snapshot inflates parses restores =>
    obtain rfl : data = result := Except.ok.inj followed
    have ruled : applyMessageWithRules E message image = .ok data := by
      rw [applyMessageWithRules, type]
      simp only [CborMessageType.toMessageType, applySnapshotMessage, decompressAndParse, same,
        inflates, parses,
        Outcome.ok_bind, snapshot, restores]
    rw [type]
    refine ⟨by simp [CborMessageType.toMessageType], ?_⟩
    simp only [applyMessageWithAudit, ruled, type, CborMessageType.toMessageType, if_true,
      verifyPendingChangesetsAfterSnapshot, List.isEmpty_nil]

variable {config : ValidatorConfig}

/-- A validator without deferred changesets that handles the messages of a log follows it. -/
theorem replay_received {log : List (List (Item σ κ ν))} {ms : List SignedMessage}
    (received : List.Forall₂ (Received Q A W compressPayload E) log ms)
    (verified : ∀ m ∈ ms, SignatureVerifier.verify X config m = .ok ())
    (rules : ∀ image sequence, E.validateAll image sequence = .ok ()) (next : UInt64)
    (v : Validator (Image σ κ ν)) (image result : Image σ κ ν) (start : v.databases = ⟨image, []⟩)
    (followed : follow Q A image (log.flatten.map Item.emission) = .ok result) :
    (replay (Validator.runMessage X E config) next v ms).1 = .ok () ∧
      (reaches (Validator.runMessage X E config) next v ms).databases = ⟨result, []⟩ := by
  induction received generalizing next v image with
  | nil =>
    obtain rfl : image = result := Except.ok.inj followed
    exact ⟨rfl, start⟩
  | @cons items m log ms first rest ih =>
    rw [List.flatten_cons, List.map_append, follow_append] at followed
    obtain ⟨middle, own, later⟩ := followed
    obtain ⟨other, applied⟩ := first.applied rules own
    have handled : ∃ w : Validator (Image σ κ ν), v.runMessage X E config m = (.ok (), w) ∧
        w.databases = ⟨middle, []⟩ := by
      simp only [Validator.runMessage, verified m List.mem_cons_self,
        extractWithdrawal_other E m other,
        onWithdrawal_none, Validator.applyAndRecord, start, applied]
      exact ⟨_, rfl, rfl⟩
    obtain ⟨w, handled, databases⟩ := handled
    rw [reaches, replay, handled]
    exact ih (fun m' member => verified m' (List.mem_cons_of_mem m member)) (m.sequence + 1) w
      middle databases later

theorem forall₂_trans {α β γ : Type} {R : α → β → Prop} {S : β → γ → Prop} {T : α → γ → Prop}
    (compose : ∀ a b c, R a b → S b c → T a c) {xs : List α} {ys : List β} {zs : List γ}
    (first : List.Forall₂ R xs ys) (second : List.Forall₂ S ys zs) : List.Forall₂ T xs zs := by
  induction first generalizing zs with
  | nil =>
    cases second
    exact .nil
  | cons own _ ih =>
    cases second with
    | cons other rest => exact .cons (compose _ _ _ own other) (ih rest)

section Whole

variable (clientConfig : Client.Config) (empty db : Database Q ν) (snapshotInterval : Nat)
  (published : Bool) (es : List (Event Q ν)) (n : Nat)

/-- A replica that the client has had, or the one from before its first message. -/
def Past (replica : Image σ κ ν) : Prop :=
  replica = empty.toImage ∨
    ∃ d, System.Had clientConfig empty db snapshotInterval published es n d ∧ replica = d.toImage

/-- However much of the log is followed, it leads to a database of the client. -/
theorem follow_log (relayed : Run.Along (System.step clientConfig) (System.Relayed clientConfig A)
      (.first empty db snapshotInterval published) es) (within : n ≤ es.length)
        (log : List (List (Item σ κ ν)))
    (arrived : log <+: (System.moment clientConfig empty db snapshotInterval published es n).log) :
    ∃ replica, follow Q A empty.toImage (log.flatten.map Item.emission) = .ok replica ∧
      Past clientConfig empty db snapshotInterval published es n replica ∧
      (log = (System.moment clientConfig empty db snapshotInterval published es n).log →
        (System.moment clientConfig empty db snapshotInterval published es n).idle = true →
        System.Pushed clientConfig empty db snapshotInterval published es n →
        replica = (System.moment clientConfig empty db snapshotInterval published es
          n).client.db.toImage) := by
  have relays := System.relays_run clientConfig empty db snapshotInterval published es
    relayed n within
  obtain ⟨pending, emitted, -⟩ := relays.pending
  have part : log.flatten.map Item.emission <+:
      (System.moment clientConfig empty db snapshotInterval published es n).client.emitted := by
    obtain ⟨rest, whole⟩ := arrived
    refine ⟨rest.flatten.map Item.emission ++ pending, ?_⟩
    rw [emitted, System.received, ← whole, List.flatten_append, List.map_append, List.append_assoc]
  have sorted := relays.traced.consistent.ordered.sublist part.sublist
  have followed (replica : Image σ κ ν) (start : Nat)
      (replayed : Client.replay Q A (empty.toImage, 0) (log.flatten.map Item.emission) =
        .ok (replica, start)) :
      follow Q A empty.toImage (log.flatten.map Item.emission) = .ok replica :=
    follow_of_replay empty.toImage replica 0 start _ sorted (fun _ _ => Nat.zero_le _) replayed
  by_cases none : log.flatten.map Item.emission = []
  · refine ⟨empty.toImage, by rw [none]; rfl, Or.inl rfl, ?_⟩
    intro same idle pushed
    obtain ⟨start, -, replayed⟩ := relays.traced.consistent.reproduced
    rw [← relays.complete idle, System.received, ← same, none,
      pushed.lastEmitted within] at replayed
    exact (Prod.mk.inj (Except.ok.inj replayed)).1
  · obtain ⟨d, past, start, replayed⟩ := relays.traced.past _ part none
    refine ⟨d.toImage, followed _ start replayed, Or.inr ⟨d, past, rfl⟩, ?_⟩
    intro same idle pushed
    obtain ⟨start', -, whole⟩ := relays.traced.consistent.reproduced
    rw [← relays.complete idle, System.received, ← same, replayed,
      pushed.lastEmitted within] at whole
    exact (Prod.mk.inj (Except.ok.inj whole)).1

variable (X compressPayload W E) (C : Codec) (t : GcsTransport)

/-- A client and a sequencer run, and the batcher has taken up the requests of the client in
the order of the log. A validator that reads the bucket then has a database that the client
has had; when nothing is on the way and the client has pushed its changes, it has the
database of the client. -/
theorem validator_reproduces_client (codes : X.CodesMessages) (reads : X.ReadsMessages)
    (back : X.ReadsBack)
    (lossless : C.Lossless) (config : ValidatorConfig) (startSequence : UInt64)
    (batchConfig : BatchConfig) (now : Nat) (turns : List Sequencer.Gcs.Turn)
    (signs : ∀ turn ∈ turns, Signs X config.sequencerPubkey turn)
    (reliable : Run.Along (Deployment.step X compressPayload C t)
      (Reliable X C t startSequence.toNat)
      (.start startSequence batchConfig config.sequencerPubkey now) turns)
    (fits : (Run.run (Deployment.step X compressPayload C t)
      (.start startSequence batchConfig config.sequencerPubkey now)
        turns).pipeline.task.accepted.length < 2 ^ 63)
    (relayed : Run.Along (System.step clientConfig) (System.Relayed clientConfig A)
      (.first empty db snapshotInterval published) es) (within : n ≤ es.length)
    (sent : List.Forall₂ (Sent Q A W X compressPayload E config.sequencerPubkey)
      (System.moment clientConfig empty db snapshotInterval published es n).log
      (Run.run (Deployment.step X compressPayload C t)
        (.start startSequence batchConfig config.sequencerPubkey now) turns).pipeline.task.accepted)
    (rules : ∀ image sequence, E.validateAll image sequence = .ok ()) :
    let s := System.moment clientConfig empty db snapshotInterval published es n
    let d := Run.run (Deployment.step X compressPayload C t)
      (.start startSequence batchConfig config.sequencerPubkey now) turns
    ∃ S : Storage X config, Delivered X C t config startSequence.toNat d S ∧
      ∀ v : Validator (Image σ κ ν), v.nextSequence = startSequence → v.databases =
        ⟨empty.toImage, []⟩ →
        ∃ standing, S.BatchSettles E S.batches.length (BatchLoop.enter v S.index) standing ∧
          standing.databases.pendingStore = [] ∧
          Past clientConfig empty db snapshotInterval published es n standing.databases.replica ∧
          (d.pipeline.task.batcher.messages = [] → s.idle = true →
            System.Pushed clientConfig empty db snapshotInterval published es n →
            standing.databases.replica = s.client.db.toImage) := by
  intro s d
  have supplied := supplied_run X compressPayload C t codes config.sequencerPubkey
    startSequence.toNat turns signs _
    (supplied_start X C t config.sequencerPubkey startSequence batchConfig now) reliable
  obtain ⟨S, delivered⟩ := supplied_delivers X C t reads back lossless config startSequence.toNat d
    supplied fits
  have whole : d.pipeline.task.batcher.published ++ d.pipeline.task.batcher.messages =
    d.pipeline.task.accepted :=
    supplied.conserves
  -- the part of the log that the batcher has published
  let log := s.log.take d.pipeline.task.batcher.published.length
  have taken : List.Forall₂ (Sent Q A W X compressPayload E config.sequencerPubkey) log
      d.pipeline.task.batcher.published := by
    refine List.forall₂_take_append _ _ d.pipeline.task.batcher.messages ?_
    rw [whole]
    exact sent
  have received : List.Forall₂ (Received Q A W compressPayload E) log (messages S.batches) :=
    forall₂_trans (fun _ _ _ sent converted => sent.received reads back converted) taken
      delivered.messages
  obtain ⟨replica, followed, past, last⟩ :=
    follow_log clientConfig empty db snapshotInterval published es
    n relayed
    within log (List.take_prefix _ _)
  refine ⟨S, delivered, ?_⟩
  intro v next start
  have replayed := replay_received received S.signedMessages rules startSequence v empty.toImage
    replica start followed
  have settles := batch_loop_settles X E S v (by rw [next, delivered.first])
  rw [next] at settles
  refine ⟨_, settles, ?_⟩
  rw [replayed.2]
  refine ⟨rfl, past, ?_⟩
  intro flushed idle pushed
  refine last ?_ idle pushed
  rw [flushed, List.append_nil] at whole
  exact List.take_of_length_le (by rw [whole, sent.length_eq])

end Whole

namespace ClientSample

open Shared.Sample Client.Sample

/-- A changeset of the session extension for the table of the sample. -/
def changeBytes : Change (Fin 2) Nat → Bytes
  | .insert _ new => [18, 0] ++ new.flatMap fun v => 1 :: bigEndian 8 v
  | .delete _ old => [9, 0] ++ old.flatMap fun v => 1 :: bigEndian 8 v
  | .update key old new =>
      [23, 0] ++ (1 :: bigEndian 8 key.val) ++ (1 :: bigEndian 8 (old.getD 1 0)) ++ [0] ++
        (1 :: bigEndian 8 (new.getD 1 0))

def changesetBytes (changes : List (Change (Fin 2) Nat)) : Bytes :=
  if changes.isEmpty then []
  else [0x54, 2, 1, 0] ++ ascii "accounts" ++ [0] ++ changes.flatMap changeBytes

def dataCbor (data : ChangesetData) : Bytes :=
  cborHead 5 3 ++ cborText "data" ++ cborBytes data.data ++ cborText "sequence" ++
    cborHead 0 data.sequence.toNat ++ cborText "timestamp" ++ cborHead 0 data.timestamp.toNat

def changesetsToCbor (request : ChangesetBatchRequest) : Bytes :=
  cborHead 5 2 ++ cborText "batch_id" ++ cborText request.batchId ++ cborText "changesets" ++
    cborHead 4 request.changesets.length ++ request.changesets.flatMap dataCbor

def payment : Extracted (Fin 2) Nat := ⟨0, [.update payer [0, 10] [0, 20]], timestamp⟩
def closing : Extracted (Fin 2) Nat := ⟨1, [.delete payee [1, 10]], timestamp⟩

/-- There are no snapshots in the sample. -/
def wire : Wire Nat (Fin 2) Nat := ⟨changesetBytes, fun _ => [], changesetsToCbor, fun _ => []⟩

def requestOf (batchId : String) (x : Extracted (Fin 2) Nat) : ChangesetBatchRequest :=
  ⟨batchId, [x.toData wire], none⟩

def request0 : ChangesetBatchRequest := requestOf "a" payment
def request1 : ChangesetBatchRequest := requestOf "b" closing

def signedCose (sequence : UInt64) (request : ChangesetBatchRequest) (signature : Nat) :
    CoseSign1 :=
  { Shared.Sample.cose sequence (bigEndian 64 signature) with
    payload := some (zstdRawFrame (changesetsToCbor request)) }

def sent0 : CoseSign1 :=
  signedCose 0 request0
    0x607e4ffc43b1fbd74442f8be0935da1caac7baad33d9758d7ef182312e6773397d480cf9e23ad2c8d8e6a0e0c1b4b549c7b5f4c30a33f4dbfe13357d125cd38a

def sent1 : CoseSign1 :=
  signedCose 1 request1
    0x35265f124bcdd0ae2cfb5a59ed2e6162c087648b76b80fdf38be39bfb5bdd6181986085bf93019bbfae53cdf657c8f69c771a3e0f6acb6e71b56b128cd31a630

def sentDigest0 : Bytes :=
  bigEndian 32 0x73ce389e5b1cd3154647e0fdda4ff7fb9583f6bea7e6404583ec4c954807615c
def sentDigest1 : Bytes :=
  bigEndian 32 0x4972ad36bd1828a613b1fe231c3434ee6699d96125e65afe2f99174342bfba01
def sentHash : Bytes :=
  bigEndian 32 0x7d53fd995afcb29d056b959f4ae3bc692ca252e76d9658cddf6a7618235fffd4
def sentPayload : Bytes :=
  bigEndian 32 0xbcfa6a28ec1f26922ad441c2689260bca8674d6aa2ecef5ad367dbc2d3f7c6b1
def sentDigest : Bytes :=
  bigEndian 32 0xbfbb715e58f530313144cd24f1fda65ccb96258a35ec92c756bf8e80c0a0db60

def sentSignature : Bytes :=
  bigEndian 64
    0x19186218701d23d901940b3baba97f60acc6c4c6057747a98a0f1a8e8f00fca144368bdde56638393b3eab04dd852fb485f4129fc490c2252c3037646a6fc13a

def sentRecord : Recorded where
  messages := [sent0, sent1]
  keccak256 :=
    [(tbs sent0, sentDigest0), (tbs sent1, sentDigest1),
     (batchSigningData 0 1 sentHash, sentPayload), (sentPayload, sentDigest)]
  sha256 := [(CborBatch.contentBytes ([sent0, sent1].map message), sentHash)]
  signatures :=
    [(pubkey, sentDigest0, sent0.signature), (pubkey, sentDigest1, sent1.signature),
     (pubkey, sentDigest, sentSignature)]

def sentBatch : CborBatch :=
  ⟨BATCH_VERSION, 0, 1, timestamp, sentHash, [message sent0, message sent1], sentSignature, pubkey⟩

def codec : Codec := recordedCodec [sentBatch.toWire]

def submission (request : ChangesetBatchRequest) : Submission :=
  ⟨.Changeset, changesetsToCbor request, timestamp, sentRecord.signRawSync pubkey⟩

def answers : Answers := ⟨0, timestamp, 0, sentRecord.signRawSync pubkey, Pipeline.accepting⟩

def turns : List Sequencer.Gcs.Turn :=
  [.sequence (submission request0), .sequence (submission request1), .add 0, .add 0,
   .control .Flush,
   .receive answers, .receive answers, .receive answers].map fun move => ⟨move, none⟩

def deployment : Deployment :=
  Run.run (Deployment.step sentRecord.externals zstdRawFrame codec GcsTransport.sampleTransport)
    (.start 0 ⟨50, 1048576, 5000⟩ Sample.validatorConfig.sequencerPubkey 0) turns

def clientConfig : Client.Config := ⟨1, 2⟩

def events : List (Event sqlite Nat) :=
  [.operate (.write payer (some [0, 20])), .operate (.push clear), .move .changesets .start,
    .move .changesets (.receive false), .move .changesets (.attempt true true true),
    .operate (.write payee none), .operate (.push clear), .move .changesets (.receive false),
    .move .changesets (.attempt true true true)]

def engine : Engine (Image Nat (Fin 2) Nat) where
  decompress bytes := .ok (bytes.drop 9)
  parseChangesets bytes :=
    match [request0, request1].find? fun request => changesetsToCbor request = bytes with
    | some request => .ok request
    | none => .error "not recorded"
  parseSnapshot _ := .error "not recorded"
  parseWithdrawal _ := .error "not recorded"
  applySingleChangeset _ image bytes :=
    match [payment, closing].find? fun x => changesetBytes x.changes = bytes with
    | some x => Client.applySingleChangeset sqlite .onRows image x.changes
    | none => .error "not recorded"
  validateAll _ _ := .ok ()
  restoreSnapshot _ := .error "not recorded"
  verifyChangesetChain image _ := image

theorem carries (batchId : String) (x : Extracted (Fin 2) Nat)
    (parses : engine.parseChangesets (changesetsToCbor (requestOf batchId x)) =
      .ok (requestOf batchId x))
    (reads : ReadsChangeset sqlite .onRows wire engine x.changes) :
    Carries sqlite .onRows wire zstdRawFrame engine [⟨0, x.emission⟩] .Changeset
      (changesetsToCbor (requestOf batchId x)) := by
  refine .changesets 0 [x] (requestOf batchId x) rfl ?_ parses ?_
  · have header : (bigEndian 6 0x28b52ffd0058 ++
        (bigEndian 3 (8 * (changesetsToCbor (requestOf batchId x)).length + 1)).reverse).length =
          9 := by
      simp
    exact congrArg Except.ok (List.drop_left' header)
  · intro y member
    rw [List.mem_singleton.mp member]
    exact reads

theorem carries_payment :
    Carries sqlite .onRows wire zstdRawFrame engine [⟨0, payment.emission⟩] .Changeset
    (changesetsToCbor request0) := by
  refine carries "a" payment (by decide +kernel) ⟨?_, ?_⟩
  · intro none
    cases none
  · intro n image result applied
    exact applied

theorem carries_closing :
    Carries sqlite .onRows wire zstdRawFrame engine [⟨0, closing.emission⟩] .Changeset
    (changesetsToCbor request1) := by
  refine carries "b" closing (by decide +kernel) ⟨?_, ?_⟩
  · intro none
    cases none
  · intro n image result applied
    have found : [payment, closing].find?
        (fun x => changesetBytes x.changes = changesetBytes closing.changes) =
        some closing := by
      decide +kernel
    have same : engine.applySingleChangeset n image (wire.changesetBytes closing.changes) =
        Client.applySingleChangeset sqlite .onRows image closing.changes := by
      simp only [engine, wire, found]
    exact same.trans applied

theorem validator_reproduces_client_twice :
    ∃ S : Storage sentRecord.externals Sample.validatorConfig,
      GcsFetcher.fetcher sentRecord.externals codec ⟨GcsTransport.sampleTransport.client⟩
        deployment.objects = S.fetcher ∧
      ∀ v : Validator (Image Nat (Fin 2) Nat), v.nextSequence = 0 → v.databases =
        ⟨accounts.toImage, []⟩ →
        ∃ standing, S.BatchSettles engine S.batches.length (BatchLoop.enter v S.index) standing ∧
          standing.databases.replica =
            (System.moment clientConfig accounts accounts 100 false events
              9).client.db.toImage := by
  have different :
      ∀ c ∈ sentRecord.messages, ∀ d ∈ sentRecord.messages, c.encode = d.encode → c = d := by
    decide +kernel
  have signer := signHashed_recorded sentRecord pubkey (by decide) (by decide)
  have signs : ∀ turn ∈ turns,
      Signs sentRecord.externals Sample.validatorConfig.sequencerPubkey turn := by
    intro turn member
    obtain ⟨move, own, rfl⟩ := List.mem_map.mp member
    simp only [List.mem_cons, List.not_mem_nil, or_false] at own
    rcases own with rfl | rfl | rfl | rfl | rfl | rfl | rfl | rfl
    · exact signer
    · exact signer
    · trivial
    · trivial
    · trivial
    · exact signer
    · exact signer
    · exact signer
  have sent : List.Forall₂ (Sent sqlite .onRows wire sentRecord.externals zstdRawFrame engine
      Sample.validatorConfig.sequencerPubkey)
      (System.moment clientConfig accounts accounts 100 false events 9).log
      deployment.pipeline.task.accepted := by
    have log : (System.moment clientConfig accounts accounts 100 false events 9).log =
        [[⟨0, payment.emission⟩], [⟨0, closing.emission⟩]] := rfl
    have accepted : deployment.pipeline.task.accepted = [message sent0, message sent1] :=
      by decide +kernel
    rw [log, accepted]
    refine .cons ⟨0, timestamp, _, _, _, carries_payment, signer, by decide +kernel⟩
      (.cons ⟨1, timestamp, _, _, _, carries_closing, signer, by decide +kernel⟩ .nil)
  rw [deployment] at sent ⊢
  obtain ⟨S, delivered, settles⟩ :=
    validator_reproduces_client wire sentRecord.externals zstdRawFrame engine
    clientConfig accounts accounts 100 false events 9 codec GcsTransport.sampleTransport
    (Recorded.codesMessages _ different) (sentRecord.readsMessages ⟨by decide, by decide +kernel⟩)
    (sentRecord.readsBack different) (recordedCodec_lossless _ (by decide +kernel))
    Sample.validatorConfig 0
    ⟨50, 1048576, 5000⟩ 0 turns signs (by decide +kernel) (by decide +kernel) (by decide)
      (by decide) sent
    (fun _ _ => rfl)
  refine ⟨S, delivered.fetcher, ?_⟩
  intro v next start
  obtain ⟨standing, settled, -, -, last⟩ := settles v next start
  refine ⟨standing, settled, last (by decide +kernel) (by decide) ?_⟩
  refine ⟨6, clear, by decide, rfl, by decide, by decide, ?_⟩
  intro k e after before found
  obtain rfl | rfl : k = 7 ∨ k = 8 := by omega
  · cases found
    exact ⟨_, _, rfl⟩
  · cases found
    exact ⟨_, _, rfl⟩

end ClientSample

end SyndDB.Replication.Gcs
