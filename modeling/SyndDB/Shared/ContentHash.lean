import SyndDB.Framework.Cbor
import SyndDB.Shared.BatchCodec

namespace SyndDB.Shared

open Octets

/-- Raw messages from a set of words that can be told apart are determined by
their concatenation. -/
theorem contentBytes_injective (S : Set Bytes) (decodable : InformationTheory.UniquelyDecodable S)
    (ms ns : List CborSignedMessage) (hm : ∀ m ∈ ms, m.coseBytes ∈ S)
    (hn : ∀ m ∈ ns, m.coseBytes ∈ S)
    (h : CborBatch.contentBytes ms = CborBatch.contentBytes ns) : ms = ns := by
  have bytes : ms.map CborSignedMessage.coseBytes = ns.map CborSignedMessage.coseBytes := by
    apply decodable
    · intro w hw
      obtain ⟨m, member, rfl⟩ := List.mem_map.mp hw
      exact hm m member
    · intro w hw
      obtain ⟨m, member, rfl⟩ := List.mem_map.mp hw
      exact hn m member
    · simpa [CborBatch.contentBytes, List.flatMap_def] using h
  have injective : Function.Injective CborSignedMessage.coseBytes := by
    intro m n same
    cases m
    cases n
    simpa using same
  exact List.map_injective_iff.mpr injective bytes

variable (X : Externals)

/-- A byte string is decoded only when it is one CBOR item from its first byte to its last. -/
def Externals.DecodesItems : Prop := ∀ bytes c, X.fromSlice bytes = .ok c → Cbor.Complete bytes

/-- Every message of an accepted batch is one item. -/
theorem complete_of_accepted (items : X.DecodesItems) (b : CborBatch)
    (accepted : b.verifyAllSignatures X = .ok ()) :
    ∀ m ∈ b.messages, m.coseBytes ∈ {bytes | Cbor.Complete bytes} := by
  obtain ⟨-, -, messages⟩ := (b.verifyAllSignatures_ok X).mp accepted
  intro m member
  obtain ⟨parsed, verified⟩ := messages m member
  obtain ⟨c, decoded, -⟩ := (verifyAndParseCoseSign1_ok X _ _ _).mp verified
  exact items m.coseBytes c decoded

/-- Accepted batches with the same content hash carry the same messages. -/
theorem content_hash_determines_messages (injective : Function.Injective X.sha256)
    (items : X.DecodesItems) (b b' : CborBatch) (accepted : b.verifyAllSignatures X = .ok ())
    (accepted' : b'.verifyAllSignatures X = .ok ()) (content : b.contentHash = b'.contentHash) :
    b.messages = b'.messages := by
  have hash := ((b.verifyAllSignatures_ok X).mp accepted).1
  have hash' := ((b'.verifyAllSignatures_ok X).mp accepted').1
  have bytes : CborBatch.contentBytes b.messages = CborBatch.contentBytes b'.messages :=
    injective (hash.trans (content.trans hash'.symm))
  exact contentBytes_injective _ Cbor.complete_uniquelyDecodable b.messages b'.messages
    (complete_of_accepted X items b accepted) (complete_of_accepted X items b' accepted') bytes

namespace Sample

theorem record_items : record.externals.DecodesItems := by
  intro bytes c decoded
  obtain ⟨d, recorded, rfl⟩ := record.fromSlice_ok bytes c decoded
  have whole : ∀ d ∈ record.messages, (Cbor.item 3 false d.encode).map Prod.snd = some [] := by
    decide +kernel
  exact Cbor.complete_of_read d.encode 3 (whole d recorded)

/-- The same batch, made a second later. -/
def laterBatch : CborBatch := { builtBatch with createdAt := timestamp + 1 }

theorem content_hash_determines_messages_two :
    builtBatch ≠ laterBatch ∧ builtBatch.verifyAllSignatures record.externals = .ok () ∧
      laterBatch.verifyAllSignatures record.externals = .ok () ∧
      builtBatch.messages = laterBatch.messages := by
  have accepted : builtBatch.verifyAllSignatures record.externals = .ok () := by decide +kernel
  have accepted' : laterBatch.verifyAllSignatures record.externals = .ok () := by decide +kernel
  have injective : Function.Injective record.externals.sha256 :=
    tabulated_injective record.sha256 (by decide +kernel) (by decide +kernel)
  refine ⟨by decide, accepted, accepted', ?_⟩
  exact content_hash_determines_messages record.externals injective record_items builtBatch
    laterBatch accepted accepted' rfl

end Sample

end SyndDB.Shared
