import SyndDB.Shared.CborBatch

namespace SyndDB.Shared

open Octets

def cborInt (n : Int) : Bytes :=
  if 0 ≤ n then cborHead 0 n.toNat else cborHead 1 (-1 - n).toNat

def cborText (s : String) : Bytes := cborHead 3 s.length ++ ascii s

def Label.encode : Label → Bytes
  | .int l => cborInt l
  | .text s => cborText s

def Value.encode : Value → Bytes
  | .integer n => cborInt n
  | .bytes b => cborBytes b
  | .other encoded => encoded

def Label.asValue : Label → Value
  | .int l => .integer l
  | .text s => .other (cborText s)

/-- The algorithm comes first, under label 1. -/
def Header.entries (h : Header) : List (Label × Value) :=
  (h.alg.toList.map fun alg => (.int 1, alg.asValue)) ++
    (h.registered.map fun entry => (.int entry.1.label, entry.2)) ++ h.rest

def Header.encode (h : Header) : Bytes :=
  cborHead 5 h.entries.length ++ h.entries.flatMap fun entry => entry.1.encode ++ entry.2.encode

/-- A header without entries is written as no bytes at all. -/
def ProtectedHeader.encode (h : ProtectedHeader) : Bytes :=
  h.originalData.getD (if h.header.entries.isEmpty then [] else h.header.encode)

def CoseSign1.encode (c : CoseSign1) : Bytes :=
  cborHead 4 4 ++ cborBytes c.protectedHeader.encode ++ c.unprotectedHeader.encode ++
    cborBytes (c.payload.getD []) ++ cborBytes c.signature

/-- A batch as a CBOR map of its fields. -/
def CborBatchWire.encode (w : CborBatchWire) : Bytes :=
  cborHead 5 8 ++
    (cborText "v" ++ cborHead 0 w.version.toNat) ++
    (cborText "s" ++ cborHead 0 w.startSequence.toNat) ++
    (cborText "e" ++ cborHead 0 w.endSequence.toNat) ++
    (cborText "t" ++ cborHead 0 w.createdAt.toNat) ++
    (cborText "h" ++ cborBytes w.contentHash) ++
    (cborText "m" ++ cborHead 4 w.messages.length ++ w.messages.flatMap cborBytes) ++
    (cborText "sig" ++ cborBytes w.batchSignature) ++
    (cborText "pubkey" ++ cborBytes w.pubkey)

/-- A zstd frame that holds the data in one uncompressed block. -/
def zstdRawFrame (data : Bytes) : Bytes :=
  bigEndian 6 0x28b52ffd0058 ++ (bigEndian 3 (8 * data.length + 1)).reverse ++ data

def Header.asItem (h : Header) : Item :=
  .map (h.entries.map fun entry => (entry.1.asValue, entry.2))

def secp256k1P : Nat := 2 ^ 256 - 2 ^ 32 - 977

def secp256k1N : Nat := 0xfffffffffffffffffffffffffffffffebaaedce6af48a03bbfd25e8cd0364141

def onCurve (key : Bytes) : Bool :=
  let x := fromBigEndian (key.take 32)
  let y := fromBigEndian (key.drop 32)
  key.length = 64 && x < secp256k1P && y < secp256k1P &&
    (y * y) % secp256k1P = (x * x * x + 7) % secp256k1P

def inScalarRange (signature : Bytes) : Bool :=
  let r := fromBigEndian (signature.take 32)
  let s := fromBigEndian (signature.drop 32)
  signature.length = 64 && 0 < r && r < secp256k1N && 0 < s && s < secp256k1N

/-- A function known at some points; elsewhere it returns its argument, marked. -/
def tabulated (table : List (Bytes × Bytes)) (x : Bytes) : Bytes :=
  match table.lookup x with
  | some y => y
  | none => List.replicate 33 0 ++ x

/-- A record of library calls: messages coded, values of the hash functions,
signatures that verify. -/
structure Recorded where
  messages : List CoseSign1
  keccak256 : List (Bytes × Bytes)
  sha256 : List (Bytes × Bytes)
  signatures : List (Bytes × Bytes × Bytes)

def Recorded.externals (r : Recorded) : Externals where
  fromSlice bytes :=
    match r.messages.find? fun c => c.encode = bytes with
    | some c => .ok { c with protectedHeader :=
        { c.protectedHeader with originalData := some c.protectedHeader.encode } }
    | none => .error (.Cose "not recorded")
  toVec c := if c ∈ r.messages then .ok c.encode else .error (.Cose "not recorded")
  headerToVec h := .ok h.encode
  tbsData c := buildCoseSigStructure c.protectedHeader.encode (c.payload.getD [])
  fromReader bytes :=
    (r.messages.find? fun c => c.protectedHeader.header.encode = bytes).map fun c =>
      c.protectedHeader.header.asItem
  validKey := onCurve
  validSignature := inScalarRange
  verifyPrehash key digest signature := (key, digest, signature) ∈ r.signatures
  keccak256 := tabulated r.keccak256
  sha256 := tabulated r.sha256

/-- Recorded messages with different encodings decode to themselves. -/
theorem Recorded.codesMessages (r : Recorded)
    (h : ∀ c ∈ r.messages, ∀ d ∈ r.messages, c.encode = d.encode → c = d) :
    r.externals.CodesMessages := by
  intro c bytes _ hv
  simp only [Recorded.externals] at hv
  split at hv
  · rename_i hc
    obtain rfl : c.encode = bytes := Except.ok.inj hv
    obtain ⟨d, found⟩ : ∃ d, r.messages.find? (fun d => d.encode = c.encode) = some d := by
      rw [← Option.isSome_iff_exists, List.find?_isSome]
      exact ⟨c, hc, by simp⟩
    have same : d = c := by
      apply h d (List.mem_of_find?_eq_some found) c hc
      simpa using List.find?_some found
    subst same
    exact ⟨some d.protectedHeader.encode, by simp only [Recorded.externals, found]⟩
  · cases hv

theorem Recorded.fromSlice_ok (r : Recorded) (bytes : Bytes) (c : CoseSign1)
    (h : r.externals.fromSlice bytes = .ok c) : ∃ d ∈ r.messages, d.encode = bytes := by
  simp only [Recorded.externals] at h
  split at h
  · rename_i d found
    exact ⟨d, List.mem_of_find?_eq_some found, by simpa using List.find?_some found⟩
  · cases h

theorem tabulated_cases (table : List (Bytes × Bytes)) (x : Bytes) :
    (∃ e ∈ table, e.1 = x ∧ tabulated table x = e.2) ∨
      tabulated table x = List.replicate 33 0 ++ x := by
  cases found : table.lookup x with
  | none => exact .inr (by rw [tabulated, found])
  | some y =>
    obtain ⟨before, after, rfl, -⟩ := List.lookup_eq_some_iff.mp found
    exact .inl ⟨(x, y), by simp, rfl, by rw [tabulated, found]⟩

/-- A table with different short values makes an injective function. -/
theorem tabulated_injective (table : List (Bytes × Bytes))
    (short : ∀ e ∈ table, e.2.length < 33)
    (different : ∀ e ∈ table, ∀ f ∈ table, e.2 = f.2 → e.1 = f.1) :
    Function.Injective (tabulated table) := by
  intro x y hxy
  obtain ⟨e, he, rfl, hx⟩ | hx := tabulated_cases table x
  · obtain ⟨f, hf, rfl, hy⟩ | hy := tabulated_cases table y
    · rw [hx, hy] at hxy
      exact different e he f hf hxy
    · have hlen := short e he
      rw [hx, hy] at hxy
      rw [hxy, List.length_append, List.length_replicate] at hlen
      omega
  · obtain ⟨f, hf, rfl, hy⟩ | hy := tabulated_cases table y
    · have hlen := short f hf
      rw [hx, hy] at hxy
      rw [← hxy, List.length_append, List.length_replicate] at hlen
      omega
    · rw [hx, hy] at hxy
      exact List.append_cancel_left hxy

/-- The key manager of a record: it signs the digests it has signed. -/
def Recorded.signRawSync (r : Recorded) (key digest : Bytes) : Except String Bytes :=
  match r.signatures.find? fun entry => entry.1 = key ∧ entry.2.1 = digest with
  | some entry => .ok entry.2.2
  | none => .error "not recorded"

namespace Sample

/-- The key of the secret scalar 1. -/
def pubkey : Bytes :=
  bigEndian 64
    0x79be667ef9dcbbac55a06295ce870b07029bfcdb2dce28d959f2815b16f81798483ada7726a3c4655da4fbfc0e1108a8fd17b448a68554199c47d08ffb10d4b8

/-- An empty changeset request. -/
def request : Bytes := bigEndian 24 0xa26862617463685f696461616a6368616e67657365747380

def payload : Bytes :=
  bigEndian 33 0x28b52ffd0058c10000a26862617463685f696461616a6368616e67657365747380

def timestamp : UInt64 := 1700000000

def cose (sequence : UInt64) (signature : Bytes) : CoseSign1 :=
  ⟨⟨none, ⟨some (.int ES256K), [],
      [(.int HEADER_SEQUENCE, .integer sequence.toNat),
       (.int HEADER_TIMESTAMP, .integer timestamp.toNat), (.int HEADER_MSG_TYPE, .integer 0)]⟩⟩,
    ⟨none, [], [(.text "pubkey", .bytes pubkey)]⟩, some payload, signature⟩

def cose0 : CoseSign1 :=
  cose 0 (bigEndian 64
    0x5b5d9ac5784e4f2f2f5c54e21a1723161ad4947b0c1fb9372743346554abf8d8021776edb96c4bbbbd7fd8d047fadffc8c3009a78f6b22765f7378ec59fb7079)

def cose1 : CoseSign1 :=
  cose 1 (bigEndian 64
    0x59dd6b31d53f442ecf6e22fcb632478b47636b00657b3507487738ef9eb5685436094147e54403512047877218f51530d5ca0ebde9f7f73f72d05d62b9640a77)

def cose2 : CoseSign1 :=
  cose 2 (bigEndian 64
    0x5a47ccdf66addf512666716da6f33532be6598664d347deec39728ad8be0d535033be138f19951f9d730d84126cf0c94af192eb022e36aca31f86f79d925b3da)

def message (c : CoseSign1) : CborSignedMessage := ⟨c.encode⟩

def tbs (c : CoseSign1) : Bytes :=
  buildCoseSigStructure c.protectedHeader.encode (c.payload.getD [])

def digest0 : Bytes :=
  bigEndian 32 0x772cb8da79b8b53f1e4cdb3aaf1bb60183a8b41f40905cb21e19d99726bfd19a

def digest1 : Bytes :=
  bigEndian 32 0x3e666cf0ac32fc06ca3175e1e3ded7af0d663c5a27b17952daa3acd2b97aa320

def digest2 : Bytes :=
  bigEndian 32 0x32c4277575aecda76de1c8f76462232338e168f328795e07bbbb63796c8bf753

def contentHash0 : Bytes :=
  bigEndian 32 0xf90eec1d8cecc4eabdf0d40ffda4495192e1ab41dfe85414ac05fcb86daaf0f5

def batchPayload0 : Bytes :=
  bigEndian 32 0x94538bb2bc10a1ba29a71d658aee23835e4d93a1a0bf184679159c2890830bbe

def batchDigest0 : Bytes :=
  bigEndian 32 0x2bb55f96fb3d0d2be4381dc227c02440386fad06ac683d31d1dc8758524d0fd8

def batchSignature0 : Bytes :=
  bigEndian 64
    0x32923b39d4b1000eec2f072ff0b77f154f6edcfbc10141bae8407f140945e21d4adb160848f9b59ffe2650c56a7ba2f39fd733885bf200869bcf16564199eef3

def contentHash01 : Bytes :=
  bigEndian 32 0x9b0ab6d18b9e5719e3c2346fd37490a4bb09f63c996ba7b1b0eb659fb2947ecd

def batchPayload01 : Bytes :=
  bigEndian 32 0x98102b1123f77b0cddd702715c392d0dbcd42f3129de7a3fcbb6d96fc8f08142

def batchDigest01 : Bytes :=
  bigEndian 32 0xd7e714b5324d9f87b377b60ae5d0a28de620635c1e206ff5a4710d523bc01ef1

def batchSignature01 : Bytes :=
  bigEndian 64
    0x21519a3a049f941c9836be419f0cd00d56eec9d76acd76ad16c83d784daa0d287dbac72efb2360fb00327a2dd73fd7ce429c1041dc1f2e0cffd43dc882fba01d

def contentHash10 : Bytes :=
  bigEndian 32 0xe36f26200f157942135edec4fbb91fce8daa1271bb2cd811bb632e199f93e55c

def batchPayload10 : Bytes :=
  bigEndian 32 0x3d3161a833c04608e09e6566372a5b59f22c99f431d1b1feb460642b2bf846cd

def batchDigest10 : Bytes :=
  bigEndian 32 0x030adab7d582e04e598e72e022de00a2e067a5dd6d6609439fe0ba269548bec5

def batchSignature10 : Bytes :=
  bigEndian 64
    0x0c829bcf07b33753262f47e7f3e20493f3b4bfce5864cee2914dc8ef32fd15b70860129ff5f17caa2b16a9674acc41fcf332f5d55891ac3c648353b22b76d931

def contentHash02 : Bytes :=
  bigEndian 32 0x78e59440648ce14e9699c3914121a38bb5b9ba1233a266db8c60edd98dbe64de

def batchPayload02 : Bytes :=
  bigEndian 32 0x89aca3f5533b859f175249965ae62052cf517f3b597f8019153b3a3d4170e3f3

def batchDigest02 : Bytes :=
  bigEndian 32 0x54de878ede92f45bdff5b9f9314cfac8e9c4f750bd3c2f50926e1782ba80d3a9

def batchSignature02 : Bytes :=
  bigEndian 64
    0x794ab22fd046a989e114b68675593a451d20bd7001d6c93f626ebd94c93d3db109d8a37106997241bced9c8dd759acde7c8050b14ce472c9e742df38a1af3a20

def record : Recorded where
  messages := [cose0, cose1, cose2]
  keccak256 :=
    [(tbs cose0, digest0), (tbs cose1, digest1), (tbs cose2, digest2),
     (batchSigningData 0 0 contentHash0, batchPayload0), (batchPayload0, batchDigest0),
     (batchSigningData 0 1 contentHash01, batchPayload01), (batchPayload01, batchDigest01),
     (batchSigningData 1 0 contentHash10, batchPayload10), (batchPayload10, batchDigest10),
     (batchSigningData 0 2 contentHash02, batchPayload02), (batchPayload02, batchDigest02)]
  sha256 :=
    [(CborBatch.contentBytes ([cose0].map message), contentHash0),
     (CborBatch.contentBytes ([cose0, cose1].map message), contentHash01),
     (CborBatch.contentBytes ([cose1, cose0].map message), contentHash10),
     (CborBatch.contentBytes ([cose0, cose2].map message), contentHash02)]
  signatures :=
    [(pubkey, digest0, cose0.signature), (pubkey, digest1, cose1.signature),
     (pubkey, digest2, cose2.signature),
     (pubkey, batchDigest0, batchSignature0),
     (pubkey, batchDigest01, batchSignature01),
     (pubkey, batchDigest10, batchSignature10),
     (pubkey, batchDigest02, batchSignature02)]

end Sample

end SyndDB.Shared
