import SyndDB.Framework.Abi
import SyndDB.Relayer.Allowlist
import SyndDB.RiscZero.AttestationVerifier

namespace SyndDB.Relayer

open Abi Octets
open Contracts (Address Bytes32 UInt256)
open RiscZero (Environment RiscZeroAttestationVerifier)
open Stylus (PublicValuesStruct)

/-- A bool is a word below two. -/
def publicValuesTypes : List AbiType :=
  [.bytes32, .uint 64, .uint 64, .bytes32, .address, .uint 1, .uint 1, .bytes32, .uint 8,
    .bytes32, .bytes32]

def toWords (v : PublicValuesStruct Bytes32) : List AbiValue :=
  [.word v.jwkKeyHash, .word (BitVec.ofNat 256 v.validityWindowStart.toNat),
    .word (BitVec.ofNat 256 v.validityWindowEnd.toNat), .word v.imageDigestHash,
    .word (v.teeSigningKey.setWidth 256), .word (BitVec.ofNat 256 v.secboot.toNat),
    .word (BitVec.ofNat 256 v.dbgstatDisabled.toNat), .word v.audienceHash,
    .word (BitVec.ofNat 256 v.imageSignatureV.toNat), .word v.imageSignatureR,
    .word v.imageSignatureS]

def ofWords : List AbiValue → Option (PublicValuesStruct Bytes32)
  | [.word jwkKeyHash, .word validityWindowStart, .word validityWindowEnd, .word imageDigestHash,
      .word teeSigningKey, .word secboot, .word dbgstatDisabled, .word audienceHash,
      .word imageSignatureV, .word imageSignatureR, .word imageSignatureS] =>
    some
      { jwkKeyHash, imageDigestHash, audienceHash, imageSignatureR, imageSignatureS
        validityWindowStart := UInt64.ofNat validityWindowStart.toNat
        validityWindowEnd := UInt64.ofNat validityWindowEnd.toNat
        teeSigningKey := teeSigningKey.setWidth 160
        secboot := secboot ≠ 0
        dbgstatDisabled := dbgstatDisabled ≠ 0
        imageSignatureV := UInt8.ofNat imageSignatureV.toNat }
  | _ => none

/-- `abi.encode`. A struct without dynamic fields stands in its place, like a
tuple of its fields. -/
def abiEncode (v : PublicValuesStruct Bytes32) : Bytes := (AbiValue.tuple (toWords v)).encode

/-- `abi.decode(publicValues, (PublicValuesStruct))`; bytes after the struct are not looked at. -/
def abiDecode (publicValues : Bytes) : Option (PublicValuesStruct Bytes32) := do
  ofWords (← decodeAll publicValuesTypes publicValues 0)

def attestationFields (v : PublicValuesStruct Bytes32) : AttestationFields :=
  ⟨v.imageDigestHash, v.teeSigningKey, v.audienceHash⟩

theorem ofWords_toWords (v : PublicValuesStruct Bytes32) : ofWords (toWords v) = some v := by
  have flag (b : Bool) : decide (BitVec.ofNat 256 b.toNat ≠ 0) = b := by
    cases b with
    | false => decide
    | true => decide
  have number (x : UInt64) : UInt64.ofNat (BitVec.ofNat 256 x.toNat).toNat = x := by
    have := x.toNat_lt
    rw [BitVec.toNat_ofNat, Nat.mod_eq_of_lt (by omega), UInt64.ofNat_toNat]
  have byte (x : UInt8) : UInt8.ofNat (BitVec.ofNat 256 x.toNat).toNat = x := by
    have := x.toNat_lt
    rw [BitVec.toNat_ofNat, Nat.mod_eq_of_lt (by omega), UInt8.ofNat_toNat]
  have address (x : Address) : (x.setWidth 256).setWidth 160 = x := by
    rw [BitVec.setWidth_setWidth_of_le _ (by decide), BitVec.setWidth_eq]
  simp only [toWords, ofWords, flag, number, byte, address]

theorem hasAll_toWords (v : PublicValuesStruct Bytes32) : HasAll publicValuesTypes (toWords v) := by
  have word (n bound : Nat) (small : n < bound) (h : bound ≤ 2 ^ 256) :
      (BitVec.ofNat 256 n).toNat < bound := by
    rw [BitVec.toNat_ofNat, Nat.mod_eq_of_lt (Nat.lt_of_lt_of_le small h)]
    exact small
  have number (x : UInt64) := word x.toNat (2 ^ 64) x.toNat_lt (by decide)
  have flag (b : Bool) := word b.toNat (2 ^ 1) b.toNat_lt (by decide)
  have parity := word v.imageSignatureV.toNat (2 ^ 8) v.imageSignatureV.toNat_lt (by decide)
  have key : (v.teeSigningKey.setWidth 256).toNat < 2 ^ 160 := by
    rw [BitVec.toNat_setWidth_of_le (by decide)]
    exact v.teeSigningKey.isLt
  exact ⟨trivial, number _, number _, trivial, key, flag _, flag _, trivial, parity, trivial,
    trivial, trivial⟩

/-- The contract reads back what was encoded. -/
theorem abiDecode_abiEncode (v : PublicValuesStruct Bytes32) :
    abiDecode (abiEncode v) = some v := by
  have length : (abiEncode v).length = 352 := by
    rw [abiEncode, AbiValue.encode, join, tails_static (toWords v) rfl, List.append_nil,
      length_heads, headSizes_parts publicValuesTypes (toWords v) (hasAll_toWords v)]
    rfl
  have reads := decode_encode (.tuple publicValuesTypes) (.tuple (toWords v)) (hasAll_toWords v) []
    (by rw [List.append_nil]; exact length ▸ by decide)
  rw [List.append_nil, AbiType.decode] at reads
  obtain ⟨vs, decoded, same⟩ := Option.bind_eq_some_iff.mp reads
  cases same
  rw [abiDecode]
  exact Option.bind_eq_some_iff.mpr ⟨_, decoded, ofWords_toWords v⟩

theorem ofWords_some (vs : List AbiValue) (v : PublicValuesStruct Bytes32)
    (h : ofWords vs = some v) :
    vs[3]? = some (.word v.imageDigestHash) ∧ vs[7]? = some (.word v.audienceHash) ∧
      ∃ key, vs[4]? = some (.word key) ∧ v.teeSigningKey = key.setWidth 160 := by
  unfold ofWords at h
  split at h
  · cases h
    exact ⟨rfl, rfl, _, rfl, rfl⟩
  · cases h

/-- The low 160 bits of a word are its last twenty bytes. -/
theorem setWidth_word (w : Bytes) (h : w.length = 32) :
    (BitVec.ofNat 256 (fromBigEndian w)).setWidth 160 =
      BitVec.ofNat 160 (fromBigEndian (w.drop 12)) := by
  have cut := fromBigEndian_append (w.take 12) (w.drop 12)
  rw [List.take_append_drop, List.length_drop, h] at cut
  apply BitVec.eq_of_toNat_eq
  rw [BitVec.toNat_setWidth, BitVec.toNat_ofNat, BitVec.toNat_ofNat, cut]
  omega

theorem extract_abiDecode (publicValues : Bytes) (v : PublicValuesStruct Bytes32)
    (h : abiDecode publicValues = some v) :
    extractAttestationFields publicValues = some (attestationFields v) := by
  obtain ⟨vs, decoded, fields⟩ := Option.bind_eq_some_iff.mp h
  obtain ⟨digest, audience, key, signer, hkey⟩ := ofWords_some vs v fields
  have at' (i : Nat) (here : i < 11) (x : UInt256) (found : vs[i]? = some (.word x)) :
      32 * i + 32 ≤ publicValues.length ∧
        x = BitVec.ofNat 256 (fromBigEndian ((publicValues.drop (32 * i)).take 32)) := by
    obtain ⟨y, found', read⟩ := decodeAll_words publicValuesTypes (by decide) _ 0 vs decoded i here
    obtain ⟨long, hy⟩ := (readWord_some _ _).mp read
    rw [List.length_drop] at long
    rw [found] at found'
    cases found'
    rw [Nat.zero_add] at long hy
    exact ⟨by omega, hy⟩
  obtain ⟨last, hlast⟩ : ∃ x, vs[10]? = some (.word x) := by
    obtain ⟨x, found, -⟩ :=
      decodeAll_words publicValuesTypes (by decide) _ 0 vs decoded 10 (by decide)
    exact ⟨x, found⟩
  have long := (at' 10 (by decide) last hlast).1
  have low : ((publicValues.drop 128).take 32).drop 12 = (publicValues.drop 140).take 20 := by
    rw [List.drop_take, List.drop_drop]
  have whole : ((publicValues.drop 128).take 32).length = 32 := by
    rw [List.length_take, List.length_drop]
    omega
  rw [extractAttestationFields, if_neg (by omega), attestationFields, b256, b256,
    ← (at' 3 (by decide) _ digest).2, ← (at' 7 (by decide) _ audience).2, hkey,
    (at' 4 (by decide) _ signer).2, setWidth_word _ whole, low]

/-- On whatever the contract accepts, the relayer finds the contract's fields, and on the encoding
of a struct the fields of the struct. -/
theorem attested_fields_agree :
    (∀ publicValues v, abiDecode publicValues = some v →
      extractAttestationFields publicValues = some (attestationFields v)) ∧
    ∀ v, extractAttestationFields (abiEncode v) = some (attestationFields v) :=
  ⟨extract_abiDecode, fun v => extract_abiDecode _ v (abiDecode_abiEncode v)⟩

namespace Sample

def publicValues : PublicValuesStruct Bytes32 where
  jwkKeyHash := 1
  validityWindowStart := 1700000000
  validityWindowEnd := 1700003600
  imageDigestHash := 2
  teeSigningKey := 3
  secboot := true
  dbgstatDisabled := true
  audienceHash := 4
  imageSignatureV := 27
  imageSignatureR := 5
  imageSignatureS := 6

/-- Bytes that follow the struct change nothing. -/
theorem attested_fields_agree_longer :
    extractAttestationFields (abiEncode publicValues ++ [7, 8]) = some ⟨2, 3, 4⟩ ∧
      extractAttestationFields (abiEncode publicValues) = some ⟨2, 3, 4⟩ :=
  ⟨attested_fields_agree.1 _ publicValues (by decide +kernel), attested_fields_agree.2 publicValues⟩

end Sample

/-- What the chain has verified is what the relayer has checked. -/
theorem verified_fields (E : Environment Bytes32) (decodes : E.abiDecode = abiDecode)
    (c : RiscZeroAttestationVerifier Bytes32) (timestamp : UInt256)
    (publicValues proofBytes : Bytes)
    (key : Address) (h : c.verifyAttestationProof E timestamp publicValues proofBytes = .ok key) :
    ∃ fields, extractAttestationFields publicValues = some fields ∧ fields.teeSigningKey = key ∧
      c.allowedImageDigestHashes fields.imageDigestHash = true := by
  rw [RiscZeroAttestationVerifier.verifyAttestationProof, decodes] at h
  cases decoded : abiDecode publicValues with
  | none =>
    rw [decoded] at h
    cases h
  | some v =>
    rw [decoded] at h
    simp only [Outcome.throw_bind, Outcome.guard_ok, Outcome.bind_ok] at h
    obtain ⟨-, -, -, -, -, allowed, -, -, -, same⟩ := h
    cases same
    have allowed : c.allowedImageDigestHashes v.imageDigestHash = true := by simpa using allowed
    exact ⟨_, extract_abiDecode publicValues v decoded, rfl, allowed⟩

end SyndDB.Relayer
