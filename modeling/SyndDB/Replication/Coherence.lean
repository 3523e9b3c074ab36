import SyndDB.Replication.Authenticity

namespace SyndDB.Replication

open Octets Shared

variable (X : Externals)

/-- The second number follows the first one. -/
def Follows (n n' : UInt64) : Prop := n'.toNat = n.toNat + 1

instance (n n' : UInt64) : Decidable (Follows n n') := inferInstanceAs (Decidable (_ = _))

/-- Numbers that fill a range from its start to its end. -/
structure Fills (start finish : UInt64) (numbers : List UInt64) : Prop where
  first : numbers.head? = some start
  last : numbers.getLast? = some finish
  inside : ∀ n ∈ numbers, start ≤ n ∧ n ≤ finish
  steps : numbers.IsChain Follows

theorem fills_iff (start finish : UInt64) (numbers : List UInt64) :
    Fills start finish numbers ↔ numbers.head? = some start ∧ numbers.getLast? = some finish ∧
      (∀ n ∈ numbers, start ≤ n ∧ n ≤ finish) ∧ numbers.IsChain Follows :=
  ⟨fun h => ⟨h.first, h.last, h.inside, h.steps⟩, fun h => ⟨h.1, h.2.1, h.2.2.1, h.2.2.2⟩⟩

-- The numbers are gone through one by one, not the 64-bit integers.
instance (start finish : UInt64) (numbers : List UInt64) : Decidable (Fills start finish numbers) :=
  have : Decidable (∀ n ∈ numbers, start ≤ n ∧ n ≤ finish) := List.decidableBAll _ numbers
  decidable_of_iff _ (fills_iff start finish numbers).symm

/-- The range of a batch is the one its messages fill. -/
def Coherent (b : CborBatch) : Prop :=
  ∃ numbers, (b.messages.mapM fun m => m.sequence X) = .ok numbers ∧
    Fills b.startSequence b.endSequence numbers

instance (b : CborBatch) : Decidable (Coherent X b) :=
  match read : b.messages.mapM fun m => m.sequence X with
  | .ok numbers =>
      if fills : Fills b.startSequence b.endSequence numbers then .isTrue ⟨numbers, read, fills⟩
      else .isFalse fun ⟨_, read', fills'⟩ => fills (Except.ok.inj (read.symm.trans read') ▸ fills')
  | .error _ => .isFalse fun ⟨_, read', _⟩ => nomatch read.symm.trans read'

theorem sequence_of_verified (m : CborSignedMessage) (key : Bytes) (parsed : ParsedCoseMessage)
    (h : m.verifyAndParse X key = .ok parsed) : m.sequence X = .ok parsed.sequence := by
  obtain ⟨c, decoded, parses, -⟩ := (verifyAndParseCoseSign1_ok X _ _ _).mp h
  rw [CborSignedMessage.sequence, extractSequence, decoded, Outcome.ok_bind, requireHeader_ok]
  exact parses.sequence

/-- Conversion checks what `verify_all_signatures` checks. -/
theorem verifyAllSignatures_of_converted (b : CborBatch) (batch : SignedBatch)
    (h : b.toSignedBatch X = .ok batch) : b.verifyAllSignatures X = .ok () := by
  simp only [CborBatch.toSignedBatch, Outcome.bind_ok, verifyingKeyFromBytes_ok] at h
  obtain ⟨_, signature, key, ⟨rfl, -⟩, messages, converted, -⟩ := h
  obtain ⟨content, verifies⟩ := (b.verifyBatchSignature_iff X).mp signature
  refine (b.verifyAllSignatures_ok X).mpr ⟨content, verifies, ?_⟩
  intro m member
  obtain ⟨message, -, hm⟩ :=
    (Outcome.forall₂_partner ((Outcome.mapM_ok _ _ _).mp converted)).1 m member
  obtain ⟨parsed, verified, -⟩ := (Outcome.bind_ok _ _ _).mp hm
  exact ⟨parsed, verified⟩

theorem mapM_exists {ε α β : Type} (f : α → Except ε β) (xs : List α)
    (h : ∀ x ∈ xs, ∃ y, f x = .ok y) :
    ∃ ys, List.Forall₂ (fun x y => f x = .ok y) xs ys := by
  induction xs with
  | nil => exact ⟨[], .nil⟩
  | cons x xs ih =>
    obtain ⟨y, hy⟩ := h x (by simp)
    obtain ⟨ys, hys⟩ := ih fun x member => h x (by simp [member])
    exact ⟨y :: ys, .cons hy hys⟩

theorem head_of_related {ε α β : Type} {f : α → Except ε β} {xs : List α} {ys : List β}
    {x : α} {y : β}
    (related : List.Forall₂ (fun x y => f x = .ok y) xs ys) (first : xs.head? = some x)
    (value : f x = .ok y) : ys.head? = some y := by
  cases related with
  | nil => cases first
  | cons same _ =>
    cases first
    exact congrArg some (Except.ok.inj (same.symm.trans value))

theorem last_of_related {ε α β : Type} {f : α → Except ε β} {xs : List α} {ys : List β}
    {x : α} {y : β}
    (related : List.Forall₂ (fun x y => f x = .ok y) xs ys) (last : xs.getLast? = some x)
    (value : f x = .ok y) : ys.getLast? = some y := by
  rw [List.getLast?_eq_head?_reverse] at last ⊢
  exact head_of_related (List.forall₂_reverse_iff.mpr related) last value

/-- Numbers that follow one another stay between the first and the last. -/
theorem fills_of_steps (start finish : UInt64) (numbers : List UInt64)
    (first : numbers.head? = some start) (last : numbers.getLast? = some finish)
    (steps : numbers.IsChain Follows) : Fills start finish numbers := by
  refine ⟨first, last, ?_, steps⟩
  induction numbers generalizing start with
  | nil => simp
  | cons n numbers ih =>
    cases first
    cases numbers with
    | nil =>
      cases last
      simp
    | cons n' numbers =>
      obtain ⟨next, rest⟩ := List.isChain_cons_cons.mp steps
      have inside := ih n' rfl last rest
      have up : n ≤ n' := by
        rw [UInt64.le_iff_toNat_le, next]
        omega
      have top : n' ≤ finish := (inside n' (by simp)).2
      intro k member
      rcases List.mem_cons.mp member with rfl | later
      · exact ⟨UInt64.le_refl _, UInt64.le_trans up top⟩
      · obtain ⟨low, high⟩ := inside k later
        exact ⟨UInt64.le_trans up low, high⟩

/-- A batch that is accepted under a key carries range and messages of a batch that was built
and signed with the key, and is coherent when the messages it was built from were numbered one
after the other. -/
theorem accepted_range_signed (injective : Function.Injective X.keccak256)
    (sha_injective : Function.Injective X.sha256) (delimited : SelfDelimiting X) (b : CborBatch)
    (signed : CborBatch → Prop) (other : Bytes → Prop) (signs : SignsOnly X b.pubkey signed other)
    (made : ∀ built, signed built → ∃ messages createdAt sign,
      CborBatch.new X messages createdAt b.pubkey sign = .ok built)
    (accepted : b.verifyAllSignatures X = .ok () ∨ ∃ batch, b.toSignedBatch X = .ok batch) :
    (∃ built, signed built ∧ b.startSequence = built.startSequence ∧
      b.endSequence = built.endSequence ∧ b.messages = built.messages) ∧
    ∃ numbers, (b.messages.mapM fun m => m.sequence X) = .ok numbers ∧
      numbers.head? = some b.startSequence ∧ numbers.getLast? = some b.endSequence ∧
      (numbers.IsChain Follows ↔ Coherent X b) := by
  have all : b.verifyAllSignatures X = .ok () := by
    rcases accepted with verified | ⟨batch, converted⟩
    · exact verified
    · exact verifyAllSignatures_of_converted X b batch converted
  obtain ⟨content, verifies, messages⟩ := (b.verifyAllSignatures_ok X).mp all
  rcases signs.unforgeable _ _ verifies.verified with ⟨built, hbuilt, payload⟩ | foreign
  · obtain ⟨start, finish, hash⟩ := batchSigningData_injective _ _ _ _ _ _ (injective payload)
    have same : b.messages = built.messages := by
      apply messages_of_content X delimited
      · intro m member
        obtain ⟨parsed, verified⟩ := messages m member
        obtain ⟨c, decoded, -⟩ := (verifyAndParseCoseSign1_ok X _ _ _).mp verified
        exact ⟨c, decoded⟩
      · exact signs.decodable built hbuilt
      · exact sha_injective (content.trans hash)
    refine ⟨⟨built, hbuilt, start, finish, same⟩, ?_⟩
    obtain ⟨given, createdAt, sign, new⟩ := made built hbuilt
    obtain ⟨first, last, s, e, signature, hfirst, hlast, hs, he, -, rfl⟩ :=
      (CborBatch.new_ok X _ _ _ _ _).mp new
    obtain ⟨numbers, related⟩ := mapM_exists (fun m => m.sequence X) b.messages (by
      intro m member
      obtain ⟨parsed, verified⟩ := messages m member
      exact ⟨_, sequence_of_verified X m _ parsed verified⟩)
    have read := (Outcome.mapM_ok _ _ _).mpr related
    have head : numbers.head? = some b.startSequence :=
      head_of_related related (by rw [same]; exact hfirst) (by rw [start]; exact hs)
    have ending : numbers.getLast? = some b.endSequence :=
      last_of_related related (by rw [same]; exact hlast) (by rw [finish]; exact he)
    refine ⟨numbers, read, head, ending, ?_⟩
    constructor
    · intro steps
      exact ⟨numbers, read, fills_of_steps _ _ numbers head ending steps⟩
    · intro coherent
      obtain ⟨numbers', read', fills⟩ := coherent
      obtain rfl := Except.ok.inj (read.symm.trans read')
      exact fills.steps
  · exact absurd rfl (signs.separate _ _ foreign)

namespace Sample

open Shared.Sample

/-- Message 1 before message 0. -/
def cborBatch10 : CborBatch :=
  ⟨BATCH_VERSION, 1, 0, timestamp, contentHash10, [message cose1, message cose0], batchSignature10,
    pubkey⟩

def payload59 : Bytes :=
  bigEndian 32 0xed7b39fb5fe6b2c89e842e1e81d0b2fc691057fe6f612ec20c3c37302ebd7a17

def digest59 : Bytes :=
  bigEndian 32 0xbf66665ee073751afc984bace83bbe048e297e4c4b1cd71bf88a9fb34ea6839c

def signature59 : Bytes :=
  bigEndian 64
    0xcd88730dc672925e69c8026a066f3363a382d834caff1e1705c206af3fbdcc9c2884498eab193fe109a87b6c1843be3c2986e23786abc6af2fd17d0ff5f690c4

/-- The key has also signed the range from 5 to 9 for message 0. -/
def record59 : Recorded :=
  { record with
    keccak256 := (batchSigningData 5 9 contentHash0, payload59) :: (payload59, digest59) ::
      record.keccak256
    signatures := (pubkey, digest59, signature59) :: record.signatures }

def cborBatch59 : CborBatch :=
  ⟨BATCH_VERSION, 5, 9, timestamp, contentHash0, [message cose0], signature59, pubkey⟩

def AcceptedIncoherent (b : CborBatch) : Prop :=
  b.verifyAllSignatures record59.externals = .ok () ∧
    (b.toSignedBatch record59.externals).isOk = true ∧ ¬Coherent record59.externals b

instance (b : CborBatch) : Decidable (AcceptedIncoherent b) := inferInstanceAs (Decidable (_ ∧ _))

/-- Out of order, with a message missing, and with a range that is not that of its message. -/
theorem incoherent_batches_accepted :
    AcceptedIncoherent cborBatch10 ∧ AcceptedIncoherent cborBatch02 ∧
      AcceptedIncoherent cborBatch59 :=
  ⟨by decide +kernel, by decide +kernel, by decide +kernel⟩

theorem signed_batches_built : ∀ built ∈ signedBatches, ∃ messages createdAt sign,
    CborBatch.new record.externals messages createdAt pubkey sign = .ok built := by
  have all : ∀ built ∈ signedBatches, CborBatch.new record.externals built.messages timestamp pubkey
      (record.sign pubkey) = .ok built := by
    decide +kernel
  exact fun built member => ⟨_, _, _, all built member⟩

theorem accepted_range_signed_two :
    cborBatch01.verifyAllSignatures record.externals = .ok () ∧
      Coherent record.externals cborBatch01 := by
  have accepted : cborBatch01.verifyAllSignatures record.externals = .ok () := by decide +kernel
  have numbered : (cborBatch01.messages.mapM fun m => m.sequence record.externals) =
      .ok [0, 1] := by
    decide +kernel
  obtain ⟨-, numbers, read, -, -, coherent⟩ :=
    accepted_range_signed record.externals record_injective
    record_sha_injective record_selfDelimiting cborBatch01 (· ∈ signedBatches) (· ∈ signedMessages)
    record_signsOnly signed_batches_built (.inl accepted)
  obtain rfl := Except.ok.inj (numbered.symm.trans read)
  exact ⟨accepted, coherent.mp (by decide)⟩

end Sample

end SyndDB.Replication
