import SyndDB.Replication.Sync
import SyndDB.Shared.ContentHash

namespace SyndDB.Replication

open Octets Shared

variable {δ : Type} (X : Externals) (E : Engine δ) (config : ValidatorConfig)

/-- How both fetchers turn a downloaded object into a batch. The object is decompressed and read
into the wire format first. -/
def parseDownload (fromCborZstd : Bytes → Except CborError CborBatchWire) (data : Bytes) :
    Except CborError (CborBatch × SignedBatch) := do
  let wire ← fromCborZstd data
  let cborBatch ← CborBatch.fromWire wire
  let batch ← cborBatch.toSignedBatch X
  return (cborBatch, batch)

def parseU64 (text : String) : Option UInt64 :=
  let digits := match text.toList with
    | '+' :: rest => rest
    | all => all
  let n := digits.foldl (fun n c => 10 * n + (c.toNat - '0'.toNat)) 0
  if !digits.isEmpty && digits.all Char.isDigit && n < 2 ^ 64 then some (UInt64.ofNat n) else none

/-- The two fetchers in use: objects of a bucket by path, or batches of an HTTP server by their
start sequence. -/
inductive Provider where
  | gcs (download : String → Except String (Option Bytes))
  | http (download : UInt64 → Except String (Option Bytes))

def Provider.download (path : String) : Provider → Except String (Option Bytes)
  | .gcs download => download path
  | .http download =>
      match parseU64 path with
      | some startSequence => download startSequence
      | none => .error "Invalid batch path"

def Provider.getBatchByPath (fromCborZstd : Bytes → Except CborError CborBatchWire) (p : Provider)
    (path : String) : Except String (Option SignedBatch) :=
  match p.download path with
  | .error e => .error e
  | .ok none => .ok none
  | .ok (some data) =>
      match parseDownload X fromCborZstd data with
      | .error _ => .error "Failed to parse CBOR batch"
      | .ok (_, batch) => .ok (some batch)

theorem verifyAndParse_ok (bytes key : Bytes) (parsed : ParsedCoseMessage)
    (h : verifyAndParseCoseSign1 X bytes key = .ok parsed) :
    parsed.pubkey = key ∧ ∃ c, X.fromSlice bytes = .ok c := by
  simp only [verifyAndParseCoseSign1, Outcome.bind_ok, Outcome.throw_bind, Outcome.guard_ok,
    not_not] at h
  obtain ⟨c, decoded, pubkey, extracted, same, signatureBytes, -, signature, -, -, -, read⟩ := h
  simp only [extractPubkey, Outcome.bind_ok] at extracted
  obtain ⟨found, hfound, valid⟩ := extracted
  have hpub : found = pubkey := by
    simp only [verifyingKeyFromBytes] at valid
    split at valid
    · exact Except.ok.inj valid
    · cases valid
  simp only [parseCoseSign1, decoded, Outcome.bind_ok, Outcome.ok_bind, hfound] at read
  obtain ⟨sequence, -, timestamp, -, msgType, -, messageType, -, bytes64, -, hparsed⟩ := read
  cases hparsed
  exact ⟨hpub.trans same, c, decoded⟩

theorem toSignedMessage_ok (m : CborSignedMessage) (key : Bytes) (message : SignedMessage)
    (h : m.toSignedMessage X key = .ok message) :
    message.signer = hex0x key ∧ ∃ c, X.fromSlice m.coseBytes = .ok c := by
  simp only [CborSignedMessage.toSignedMessage, Outcome.bind_ok] at h
  obtain ⟨parsed, verified, header, -, hm⟩ := h
  cases hm
  obtain ⟨pubkey, decoded⟩ := verifyAndParse_ok X _ _ _ verified
  exact ⟨by rw [pubkey], decoded⟩

theorem verifyBatchSignature_ok (b : CborBatch) (h : b.verifyBatchSignature X = .ok ()) :
    b.contentHash = CborBatch.computeContentHash X b.messages ∧
      X.verifyPrehash b.pubkey (X.keccak256 (CborBatch.computeSigningPayload X b.startSequence
        b.endSequence b.contentHash)) b.batchSignature = true := by
  simp only [CborBatch.verifyBatchSignature, Outcome.throw_bind, Outcome.guard_ok, not_not] at h
  obtain ⟨content, -, -, last⟩ := h
  refine ⟨content.symm, ?_⟩
  by_contra unverified
  rw [if_pos (by simpa using unverified)] at last
  cases last

/-- A converted batch: the content hash is that of its messages, the batch signature verifies under
the key of the batch, and so does every message. -/
theorem toSignedBatch_ok (b : CborBatch) (batch : SignedBatch) (h : b.toSignedBatch X = .ok batch) :
    batch.startSequence = b.startSequence ∧ batch.endSequence = b.endSequence ∧
      batch.contentHash = CborBatch.computeContentHash X b.messages ∧
      X.verifyPrehash b.pubkey (X.keccak256 (CborBatch.computeSigningPayload X b.startSequence
        b.endSequence (CborBatch.computeContentHash X b.messages))) b.batchSignature = true ∧
      List.Forall₂ (fun m message => m.toSignedMessage X b.pubkey = .ok message) b.messages
        batch.messages := by
  simp only [CborBatch.toSignedBatch, Outcome.bind_ok] at h
  obtain ⟨_, verified, key, hkey, messages, converted, hb⟩ := h
  obtain ⟨content, signature⟩ := verifyBatchSignature_ok X b verified
  have same : b.pubkey = key := by
    simp only [verifyingKeyFromBytes] at hkey
    split at hkey
    · exact Except.ok.inj hkey
    · cases hkey
  subst same
  cases hb
  rw [content] at signature
  exact ⟨rfl, rfl, content, signature, (Outcome.mapM_ok _ _ _).mp converted⟩

theorem verify_signer (message : SignedMessage)
    (h : SignatureVerifier.verify X config message = .ok ()) :
    hexBytes (stripHexPrefix message.signer) = some config.sequencerPubkey := by
  simp only [SignatureVerifier.verify] at h
  split at h
  · cases h
  · split at h
    · cases h
    · split at h
      · cases h
      · rename_i claimed decoded
        split at h
        · cases h
        · rename_i same
          rw [decoded, not_not.mp same]

/-- Whatever is processed from a batch was verified. -/
theorem syncMessages_verified (next : UInt64) (v : Validator δ) (messages : List SignedMessage)
    (h : (Validator.syncMessages X E config next v messages).2.processed ≠ v.processed) :
    ∃ m ∈ messages, SignatureVerifier.verify X config m = .ok () := by
  induction messages generalizing v with
  | nil => exact absurd rfl h
  | cons message rest ih =>
    by_cases skipped : message.sequence < next
    · simp only [Validator.syncMessages, if_pos skipped] at h
      obtain ⟨m, hm, verified⟩ := ih v h
      exact ⟨m, List.mem_cons_of_mem _ hm, verified⟩
    · simp only [Validator.syncMessages, if_neg skipped] at h
      cases checked : SignatureVerifier.verify X config message with
      | ok u => exact ⟨message, List.mem_cons_self, checked⟩
      | error e =>
        simp only [Validator.syncMessage, checked] at h
        exact absurd rfl h

theorem runMessages_verified (next : UInt64) (v : Validator δ) (messages : List SignedMessage)
    (h : (Validator.runMessages X E config next v messages).2.2.processed ≠ v.processed) :
    ∃ m ∈ messages, SignatureVerifier.verify X config m = .ok () := by
  induction messages generalizing v with
  | nil => exact absurd rfl h
  | cons message rest ih =>
    by_cases skipped : message.sequence < next
    · simp only [Validator.runMessages, if_pos skipped] at h
      obtain ⟨m, hm, verified⟩ := ih v h
      exact ⟨m, List.mem_cons_of_mem _ hm, verified⟩
    · simp only [Validator.runMessages, if_neg skipped] at h
      cases checked : SignatureVerifier.verify X config message with
      | ok u => exact ⟨message, List.mem_cons_self, checked⟩
      | error e =>
        simp only [Validator.runMessage, checked] at h
        exact absurd rfl h

/-- A converted batch of which a message passes the validator carries the configured key. -/
theorem converted_pubkey (b : CborBatch) (batch : SignedBatch) (h : b.toSignedBatch X = .ok batch)
    (accepted : ∃ m ∈ batch.messages, SignatureVerifier.verify X config m = .ok ()) :
    b.pubkey = config.sequencerPubkey := by
  obtain ⟨-, -, -, -, converted⟩ := toSignedBatch_ok X b batch h
  obtain ⟨m, hm, verified⟩ := accepted
  obtain ⟨raw, -, hraw⟩ := (Outcome.forall₂_partner converted).2 m hm
  obtain ⟨signer, -⟩ := toSignedMessage_ok X raw b.pubkey m hraw
  have claimed := verify_signer X config m verified
  rw [signer, stripHexPrefix_hex0x, hexBytes_hexChars] at claimed
  exact Option.some.inj claimed

/-- What the holder of a key has signed: batches, and other data that is no hash value. Nobody else
can sign for the key. -/
structure SignsOnly (key : Bytes) (signed : CborBatch → Prop) (other : Bytes → Prop) : Prop where
  unforgeable : ∀ data signature, X.verifyPrehash key (X.keccak256 data) signature = true →
    (∃ b, signed b ∧ data = CborBatch.computeSigningPayload X b.startSequence b.endSequence
      (CborBatch.computeContentHash X b.messages)) ∨ other data
  separate : ∀ data x, other data → data ≠ X.keccak256 x
  decodable : ∀ b, signed b → ∀ m ∈ b.messages, ∃ c, X.fromSlice m.coseBytes = .ok c

/-- A message is not empty and is not followed by anything else in the bytes that decode to it. -/
structure SelfDelimiting : Prop where
  nonempty : ∀ c, X.fromSlice [] ≠ .ok c
  extraneous : ∀ a b c d, X.fromSlice a = .ok c → X.fromSlice (a ++ b) = .ok d → b = []

/-- The raw messages of a batch are determined by their concatenation. -/
theorem messages_of_content (delimited : SelfDelimiting X) (ms ns : List CborSignedMessage)
    (hm : ∀ m ∈ ms, ∃ c, X.fromSlice m.coseBytes = .ok c)
    (hn : ∀ m ∈ ns, ∃ c, X.fromSlice m.coseBytes = .ok c)
    (h : CborBatch.contentBytes ms = CborBatch.contentBytes ns) : ms = ns := by
  have decodable := uniquelyDecodable_of_prefixFree {a | ∃ c, X.fromSlice a = .ok c}
    (fun ⟨c, hc⟩ => delimited.nonempty c hc)
    (fun a b ⟨c, hc⟩ ⟨d, hd⟩ => delimited.extraneous a b c d hc hd)
  exact contentBytes_injective _ decodable ms ns hm hn h

theorem batchSigningData_injective (s s' e e' : UInt64) (c c' : Bytes)
    (h : batchSigningData s e c = batchSigningData s' e' c') : s = s' ∧ e = e' ∧ c = c' := by
  have number (n m : UInt64) (hb : bigEndian 8 n.toNat = bigEndian 8 m.toNat) : n = m := by
    apply UInt64.toNat_inj.mp
    exact bigEndian_injective 8 _ _ n.toNat_lt m.toNat_lt hb
  simp only [batchSigningData, List.append_assoc] at h
  obtain ⟨start, rest⟩ := List.append_inj h (by simp)
  obtain ⟨finish, content⟩ := List.append_inj rest (by simp)
  exact ⟨number s s' start, number e e' finish, content⟩

/-- The batch signature, by the configured key, covers the range and the messages of the batch, and
the messages are those of a batch the sequencer signed. -/
def Authentic (signed : CborBatch → Prop) (batch : SignedBatch) : Prop :=
  ∃ b signature, signed b ∧
    X.verifyPrehash config.sequencerPubkey (X.keccak256 (CborBatch.computeSigningPayload X
      batch.startSequence batch.endSequence batch.contentHash)) signature = true ∧
    batch.contentHash = CborBatch.computeContentHash X b.messages ∧
    batch.startSequence = b.startSequence ∧ batch.endSequence = b.endSequence ∧
    b.messages.mapM (fun m => m.toSignedMessage X config.sequencerPubkey) = .ok batch.messages

theorem converted_authentic (injective : Function.Injective X.keccak256)
    (sha_injective : Function.Injective X.sha256) (delimited : SelfDelimiting X)
    (signed : CborBatch → Prop) (other : Bytes → Prop)
    (signs : SignsOnly X config.sequencerPubkey signed other) (b : CborBatch) (batch : SignedBatch)
    (h : b.toSignedBatch X = .ok batch)
    (accepted : ∃ m ∈ batch.messages, SignatureVerifier.verify X config m = .ok ()) :
    Authentic X config signed batch := by
  obtain ⟨hs, he, hc, signature, converted⟩ := toSignedBatch_ok X b batch h
  rw [converted_pubkey X config b batch h accepted] at signature converted
  rcases signs.unforgeable _ _ signature with ⟨original, horiginal, payload⟩ | foreign
  · obtain ⟨start, finish, content⟩ := batchSigningData_injective _ _ _ _ _ _ (injective payload)
    have messages : b.messages = original.messages := by
      apply messages_of_content X delimited
      · intro m hm
        obtain ⟨message, -, hmessage⟩ := (Outcome.forall₂_partner converted).1 m hm
        exact (toSignedMessage_ok X m _ message hmessage).2
      · exact signs.decodable original horiginal
      · exact sha_injective content
    refine ⟨original, b.batchSignature, horiginal, ?_, ?_, ?_, ?_, ?_⟩
    · rw [hs, he, hc]
      exact signature
    · rw [hc, messages]
    · rw [hs, start]
    · rw [he, finish]
    · rw [← messages]
      exact (Outcome.mapM_ok _ _ _).mpr converted
  · exact absurd rfl (signs.separate _ _ foreign)

/-- A batch from which `sync_batch` or an iteration of `run_batched` processes a
message is authentic. -/
theorem accepted_batch_is_authentic (fromCborZstd : Bytes → Except CborError CborBatchWire)
    (injective : Function.Injective X.keccak256) (sha_injective : Function.Injective X.sha256)
    (delimited : SelfDelimiting X) (signed : CborBatch → Prop) (other : Bytes → Prop)
    (signs : SignsOnly X config.sequencerPubkey signed other) (provider : Provider) (path : String)
    (batch : SignedBatch)
    (returned : provider.getBatchByPath X fromCborZstd path = .ok (some batch)) :
    (∀ v : Validator δ, (v.syncBatch X E config batch).2.processed ≠ v.processed →
      Authentic X config signed batch) ∧
    (∀ (l : BatchLoop δ) (t : Turn), l.fetched t = some batch →
      (l.step X E config t).validator.processed ≠ l.validator.processed →
      Authentic X config signed batch) := by
  obtain ⟨b, hb⟩ : ∃ b : CborBatch, b.toSignedBatch X = .ok batch := by
    simp only [Provider.getBatchByPath] at returned
    split at returned
    · cases returned
    · cases returned
    · split at returned
      · cases returned
      · rename_i b same parsed
        simp only [parseDownload, Outcome.bind_ok] at parsed
        obtain ⟨wire, -, c, -, converted, hconverted, hpair⟩ := parsed
        cases hpair
        cases returned
        exact ⟨_, hconverted⟩
  have authentic (accepted : ∃ m ∈ batch.messages, SignatureVerifier.verify X config m = .ok ()) :=
    converted_authentic X config injective sha_injective delimited signed other signs b batch
      hb accepted
  constructor
  · intro v processed
    apply authentic
    simp only [Validator.syncBatch] at processed
    split at processed
    · exact absurd rfl processed
    · exact syncMessages_verified X E config _ v _ processed
  · intro l t fetched processed
    apply authentic
    rw [l.step_fetched X E config t batch fetched, BatchLoop.processBatch,
      BatchLoop.refresh_validator, BatchLoop.refresh_nextSequence] at processed
    split at processed
    · exact absurd rfl processed
    · apply runMessages_verified X E config l.nextSequence l.validator
      split at processed
      · rename_i ran
        rw [ran]
        exact processed
      · rename_i ran
        rw [ran]
        exact processed

namespace Sample

open Shared.Sample

def wire01 : CborBatchWire :=
  ⟨BATCH_VERSION, 0, 1, timestamp, contentHash01, [cose0.encode, cose1.encode],
    batchSignature01, pubkey⟩

def download01 : Bytes := zstdRawFrame wire01.encode

def readWire (data : Bytes) : Except CborError CborBatchWire :=
  if data = download01 then .ok wire01 else .error (.Compression "not recorded")

def bucket : Provider :=
  .gcs fun path => if path = info01.path then .ok (some download01) else .ok none

/-- The batches and the messages the key of the record has signed. -/
def signedBatches : List CborBatch :=
  [⟨BATCH_VERSION, 0, 0, timestamp, contentHash0, [message cose0], batchSignature0, pubkey⟩,
   cborBatch01,
   ⟨BATCH_VERSION, 1, 0, timestamp, contentHash10, [message cose1, message cose0], batchSignature10,
     pubkey⟩,
   cborBatch02]

def signedMessages : List Bytes := [tbs cose0, tbs cose1, tbs cose2]

theorem record_injective : Function.Injective record.externals.keccak256 :=
  tabulated_injective record.keccak256 (by decide) (by decide)

theorem record_sha_injective : Function.Injective record.externals.sha256 :=
  tabulated_injective record.sha256 (by decide +kernel) (by decide +kernel)

theorem record_selfDelimiting : SelfDelimiting record.externals where
  nonempty c h := by
    obtain ⟨d, hd, encoded⟩ := record.fromSlice_ok _ _ h
    have long : ∀ d ∈ record.messages, d.encode.length = 204 := by decide +kernel
    have := long d hd
    rw [encoded] at this
    cases this
  extraneous a b c d ha hb := by
    obtain ⟨e, he, rfl⟩ := record.fromSlice_ok _ _ ha
    obtain ⟨f, hf, whole⟩ := record.fromSlice_ok _ _ hb
    have long : ∀ d ∈ record.messages, d.encode.length = 204 := by decide +kernel
    have lengths := congrArg List.length whole
    rw [List.length_append, long e he, long f hf] at lengths
    exact List.eq_nil_of_length_eq_zero (by omega)

theorem record_signsOnly : SignsOnly record.externals pubkey (· ∈ signedBatches)
    (· ∈ signedMessages) where
  unforgeable data signature h := by
    have known : (pubkey, record.externals.keccak256 data, signature) ∈ record.signatures := by
      simpa [Recorded.externals] using h
    have origin : ∀ e ∈ record.signatures,
        (∃ b ∈ signedBatches, record.externals.keccak256 (CborBatch.computeSigningPayload
          record.externals b.startSequence b.endSequence
          (CborBatch.computeContentHash record.externals b.messages)) = e.2.1) ∨
        ∃ d ∈ signedMessages, record.externals.keccak256 d = e.2.1 := by
      decide +kernel
    rcases origin _ known with ⟨b, hb, same⟩ | ⟨d, hd, same⟩
    · exact .inl ⟨b, hb, (record_injective same).symm⟩
    · exact .inr (record_injective same ▸ hd)
  separate data x h same := by
    have long : ∀ d ∈ signedMessages, d.length = 76 ∧ d.head? ≠ some 0 := by decide
    have short : ∀ e ∈ record.keccak256, e.2.length = 32 := by decide
    obtain ⟨length, first⟩ := long data h
    rcases tabulated_cases record.keccak256 x with ⟨e, he, -, value⟩ | marked
    · have value' : data = e.2 := same.trans value
      rw [value', short e he] at length
      cases length
    · have marked' : data = List.replicate 33 0 ++ x := same.trans marked
      exact first (by rw [marked']; rfl)
  decodable b hb m hm := by
    have decoded : ∀ b ∈ signedBatches, ∀ m ∈ b.messages,
        (record.externals.fromSlice m.coseBytes).toOption.isSome := by
      decide +kernel
    cases h : record.externals.fromSlice m.coseBytes with
    | ok c => exact ⟨c, rfl⟩
    | error e =>
      have := decoded b hb m hm
      rw [h] at this
      cases this

def batch01 : Option SignedBatch := (cborBatch01.toSignedBatch record.externals).toOption

def loop01 : BatchLoop (List Bytes) := BatchLoop.enter freshValidator [info01]

/-- The batch of messages 0 and 1 in a bucket: both entry points process it. -/
theorem accepted_batch_is_authentic_two :
    ∃ batch, bucket.getBatchByPath record.externals readWire info01.path = .ok (some batch) ∧
      (freshValidator.syncBatch record.externals engine validatorConfig batch).2.processed =
        [0, 1] ∧
      (loop01.step record.externals engine validatorConfig turn01).validator.processed = [0, 1] ∧
      Authentic record.externals validatorConfig (· ∈ signedBatches) batch := by
  have returned : ∀ batch ∈ batch01,
      bucket.getBatchByPath record.externals readWire info01.path = .ok (some batch) ∧
      (freshValidator.syncBatch record.externals engine validatorConfig batch).2.processed =
        [0, 1] ∧
      (loop01.step record.externals engine validatorConfig turn01).validator.processed = [0, 1] ∧
      loop01.fetched turn01 = some batch := by
    decide +kernel
  have some_batch : batch01.isSome := by decide +kernel
  obtain ⟨batch, hbatch⟩ := Option.isSome_iff_exists.mp some_batch
  obtain ⟨hreturned, synced, ran, fetched⟩ := returned batch hbatch
  obtain ⟨-, run⟩ := accepted_batch_is_authentic record.externals engine validatorConfig readWire
    record_injective record_sha_injective record_selfDelimiting (· ∈ signedBatches)
    (· ∈ signedMessages) record_signsOnly bucket info01.path batch hreturned
  refine ⟨batch, hreturned, synced, ran, ?_⟩
  apply run loop01 turn01 fetched
  rw [ran]
  decide

end Sample

end SyndDB.Replication
