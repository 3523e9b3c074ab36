import SyndDB.Framework.Run
import SyndDB.Shared.Recorded
import SyndDB.Stylus.AttestationVerifier

namespace SyndDB.Stylus

open Octets
open SyndDB.Contracts (Address)

variable {H : Type} [DecidableEq H]

structure RsaKey where
  modulus : Bytes
  exponent : Bytes
  deriving DecidableEq

/-- Calls that change the contract. A key is registered by the hash of its material. -/
inductive Call (H : Type) where
  | initializeVerifier (expirationTolerance : UInt64)
  | addTrustedJwk (kidHash : H) (key : RsaKey)
  | removeTrustedJwk (kidHash : H)
  | addAllowedImageDigestHash (digestHash : H)
  | removeAllowedImageDigestHash (digestHash : H)
  | addTrustedImageSigner (signer : Address)
  | removeTrustedImageSigner (signer : Address)
  | transferOwnership (newOwner : Address)

variable (vm : Vm H) (zero : H)

def Call.execute (sender : Address) (c : StylusAttestationVerifier H) :
    Call H → Except (VerifierError H) (StylusAttestationVerifier H)
  | .initializeVerifier expirationTolerance => c.initializeVerifier sender expirationTolerance
  | .addTrustedJwk kidHash key =>
      c.addTrustedJwk sender kidHash (vm.nativeKeccak256 (key.modulus ++ key.exponent))
  | .removeTrustedJwk kidHash => c.removeTrustedJwk zero sender kidHash
  | .addAllowedImageDigestHash digestHash => c.addAllowedImageDigestHash sender digestHash
  | .removeAllowedImageDigestHash digestHash => c.removeAllowedImageDigestHash sender digestHash
  | .addTrustedImageSigner signer => c.addTrustedImageSigner sender signer
  | .removeTrustedImageSigner signer => c.removeTrustedImageSigner sender signer
  | .transferOwnership newOwner => c.transferOwnership sender newOwner

/-- The contract, and the keys its owner has registered. -/
structure Registry (H : Type) where
  contract : StylusAttestationVerifier H
  registered : H → Option RsaKey

def Call.register (registered : H → Option RsaKey) : Call H → H → Option RsaKey
  | .addTrustedJwk kidHash key => Function.update registered kidHash (some key)
  | .removeTrustedJwk kidHash => Function.update registered kidHash none
  | _ => registered

/-- A call that is reverted changes nothing. -/
def Registry.step (r : Registry H) (event : Address × Call H) : Registry H :=
  match event.2.execute vm zero event.1 r.contract with
  | .error _ => r
  | .ok contract => ⟨contract, event.2.register r.registered⟩

def Registry.genesis : Registry H := ⟨.deployed zero, fun _ => none⟩

/-- The registry after a history of calls. -/
def Registry.after (history : List (Address × Call H)) : Registry H :=
  Run.run (Registry.step vm zero) (Registry.genesis zero) history

/-- Exactly the registered keys are trusted, by their hashes. -/
def Registry.Commits (r : Registry H) : Prop :=
  ∀ kidHash, r.contract.trustedJwkHashes kidHash = (r.registered kidHash).isSome ∧
    ∀ key, r.registered kidHash = some key →
      r.contract.jwkKeyMaterialHashes kidHash = vm.nativeKeccak256 (key.modulus ++ key.exponent)

omit [DecidableEq H] in
theorem asOwner_ok (sender : Address) (c c' d : StylusAttestationVerifier H)
    (h : c.asOwner sender c' = .ok d) : d = c' := by
  obtain ⟨-, -, returned⟩ := (Outcome.bind_ok _ _ _).mp h
  exact (Except.ok.inj returned).symm

/-- Calls other than those on keys leave the stored hashes alone. -/
theorem execute_keeps (sender : Address) (c d : StylusAttestationVerifier H) (call : Call H)
    (add : ∀ kidHash key, call ≠ .addTrustedJwk kidHash key)
    (remove : ∀ kidHash, call ≠ .removeTrustedJwk kidHash)
    (h : call.execute vm zero sender c = .ok d) :
    d.trustedJwkHashes = c.trustedJwkHashes ∧ d.jwkKeyMaterialHashes = c.jwkKeyMaterialHashes := by
  cases call with
  | initializeVerifier expirationTolerance =>
    simp only [Call.execute, StylusAttestationVerifier.initializeVerifier, Outcome.guard_ok] at h
    obtain ⟨-, -, updated⟩ := h
    rw [← Except.ok.inj updated]
    exact ⟨rfl, rfl⟩
  | addTrustedJwk kidHash key => exact absurd rfl (add kidHash key)
  | removeTrustedJwk kidHash => exact absurd rfl (remove kidHash)
  | addAllowedImageDigestHash digestHash =>
    rw [asOwner_ok sender c _ d h]
    exact ⟨rfl, rfl⟩
  | removeAllowedImageDigestHash digestHash =>
    rw [asOwner_ok sender c _ d h]
    exact ⟨rfl, rfl⟩
  | addTrustedImageSigner signer =>
    rw [asOwner_ok sender c _ d h]
    exact ⟨rfl, rfl⟩
  | removeTrustedImageSigner signer =>
    rw [asOwner_ok sender c _ d h]
    exact ⟨rfl, rfl⟩
  | transferOwnership newOwner =>
    simp only [Call.execute, StylusAttestationVerifier.transferOwnership, Outcome.bind_ok,
      Outcome.throw_bind, Outcome.guard_ok] at h
    obtain ⟨-, -, -, updated⟩ := h
    rw [← Except.ok.inj updated]
    exact ⟨rfl, rfl⟩

theorem step_commits (r : Registry H) (event : Address × Call H) (h : r.Commits vm) :
    (r.step vm zero event).Commits vm := by
  obtain ⟨sender, call⟩ := event
  unfold Registry.step
  split
  · exact h
  · rename_i contract executed
    cases call with
    | addTrustedJwk kidHash key =>
      have updated := asOwner_ok sender r.contract _ contract executed
      intro other
      obtain ⟨trusted, stored⟩ := h other
      by_cases same : other = kidHash
      · simp [updated, Call.register, same]
      · simpa [updated, Call.register, same, trusted] using stored
    | removeTrustedJwk kidHash =>
      have updated := asOwner_ok sender r.contract _ contract executed
      intro other
      obtain ⟨trusted, stored⟩ := h other
      by_cases same : other = kidHash
      · simp [updated, Call.register, same]
      · simpa [updated, Call.register, same, trusted] using stored
    | _ =>
      have kept := execute_keeps vm zero sender r.contract contract _ (by simp) (by simp) executed
      intro other
      simp only [kept.1, kept.2, Call.register]
      exact h other

theorem after_commits (history : List (Address × Call H)) :
    (Registry.after vm zero history).Commits vm := by
  apply Run.run_invariant (Registry.step vm zero) (step_commits vm zero)
  intro kidHash
  simp [Registry.genesis, StylusAttestationVerifier.deployed]

/-- The key id of the token and the key its signature is checked with. -/
def usedKey (proofBytes : Bytes) : Option (Bytes × RsaKey) := do
  let proof ← vm.decodeProofData proofBytes
  let jwt ← (parseJwt proof.jwt).toOption
  let kid ← jsonGetString jwt.headerJson (ascii "kid")
  return (kid, ⟨proof.jwkModulus, proof.jwkExponent⟩)

omit [DecidableEq H] in
theorem orInvalid_ok {α : Type} (o : Option α) (a : α)
    (h : StylusAttestationVerifier.orInvalid (H := H) o = .ok a) : o = some a := by
  cases o with
  | none => cases h
  | some b => rw [Except.ok.inj h]

/-- What a successful check of the signature has established. -/
theorem checkSignature_ok (c : StylusAttestationVerifier H) (proof : StylusProofData)
    (jwt : ParsedJwt) (kidHash : H) (h : c.checkSignature vm proof = .ok (jwt, kidHash)) :
    parseJwt proof.jwt = .ok jwt ∧ ∃ kid, jsonGetString jwt.headerJson (ascii "kid") = some kid ∧
      kidHash = vm.nativeKeccak256 kid ∧ c.trustedJwkHashes kidHash = true ∧
      c.jwkKeyMaterialHashes kidHash =
        vm.nativeKeccak256 (proof.jwkModulus ++ proof.jwkExponent) ∧
      verifyRs256 vm jwt.signingInput jwt.signature proof.jwkModulus proof.jwkExponent =
        .ok () := by
  unfold StylusAttestationVerifier.checkSignature at h
  cases parsed : parseJwt proof.jwt with
  | error e =>
    rw [parsed] at h
    cases h
  | ok token =>
    simp only [parsed, Outcome.bind_ok, Outcome.throw_bind, Outcome.guard_ok, not_not] at h
    obtain ⟨alg, -, -, kid, named, trusted, stored, _, verified, returned⟩ := h
    cases returned
    exact ⟨rfl, kid, orInvalid_ok _ _ named, rfl, by simpa using trusted, stored, verified⟩

/-- A successful call has checked the signature first. -/
theorem verify_ok (c : StylusAttestationVerifier H) (publicValues proofBytes : Bytes)
    (address : Address) (h : c.verifyAttestationProof vm publicValues proofBytes = .ok address) :
    ∃ values proof jwt kidHash, vm.decodePublicValues publicValues = some values ∧
      vm.decodeProofData proofBytes = some proof ∧
      c.checkSignature vm proof = .ok (jwt, kidHash) ∧
      c.checkClaims vm jwt.payloadJson kidHash values = .ok () ∧
      c.checkImageSignature vm values = .ok () ∧ address = values.teeSigningKey := by
  unfold StylusAttestationVerifier.verifyAttestationProof at h
  cases decoded : vm.decodePublicValues publicValues with
  | none =>
    rw [decoded] at h
    cases h
  | some values =>
    cases proved : vm.decodeProofData proofBytes with
    | none =>
      rw [decoded, proved] at h
      cases h
    | some proof =>
      simp only [decoded, proved, Outcome.bind_ok] at h
      obtain ⟨⟨jwt, kidHash⟩, signed, _, claims, _, image, returned⟩ := h
      exact ⟨values, proof, jwt, kidHash, rfl, rfl, signed, claims, image,
        (Except.ok.inj returned).symm⟩

/-- Two keys of the same material are equal exactly if they split it at the same place. -/
theorem key_eq_iff (used key : RsaKey)
    (h : used.modulus ++ used.exponent = key.modulus ++ key.exponent) :
    used = key ↔ used.modulus.length = key.modulus.length := by
  constructor
  · rintro rfl
    rfl
  · intro same
    obtain ⟨modulus, exponent⟩ := List.append_inj h same
    cases used
    cases key
    simp only at modulus exponent
    rw [modulus, exponent]

/-- A token is checked with the key the owner registered for its key id exactly if the modulus that
comes with the call has the length of the registered one. -/
theorem signature_checked_with_registered_key (injective : Function.Injective vm.nativeKeccak256)
    (history : List (Address × Call H)) (publicValues proofBytes : Bytes) (address : Address)
    (accepted : (Registry.after vm zero history).contract.verifyAttestationProof vm publicValues
      proofBytes = .ok address) :
    ∃ kid used key, usedKey vm proofBytes = some (kid, used) ∧
      (Registry.after vm zero history).registered (vm.nativeKeccak256 kid) = some key ∧
      (used = key ↔ used.modulus.length = key.modulus.length) := by
  obtain ⟨-, proof, jwt, kidHash, -, proved, signed, -⟩ := verify_ok vm _ _ _ _ accepted
  obtain ⟨parsed, kid, named, rfl, trusted, stored, -⟩ := checkSignature_ok vm _ _ _ _ signed
  obtain ⟨committed, material⟩ := after_commits vm zero history (vm.nativeKeccak256 kid)
  rw [trusted] at committed
  obtain ⟨key, registered⟩ := Option.isSome_iff_exists.mp committed.symm
  rw [material key registered] at stored
  refine ⟨kid, ⟨proof.jwkModulus, proof.jwkExponent⟩, key, ?_, registered, ?_⟩
  · simp [usedKey, proved, parsed, named, Except.toOption]
  · exact key_eq_iff _ key (injective stored).symm

/-- The signing key returned for a token depends on the token only. -/
def DeterminedByToken (c : StylusAttestationVerifier H) (jwt : Bytes) : Prop :=
  ∀ publicValues publicValues' proofBytes proofBytes' proof proof' address address',
    vm.decodeProofData proofBytes = some proof → vm.decodeProofData proofBytes' = some proof' →
    proof.jwt = jwt → proof'.jwt = jwt →
    c.verifyAttestationProof vm publicValues proofBytes = .ok address →
    c.verifyAttestationProof vm publicValues' proofBytes' = .ok address' → address = address'

/-- No check looks at the signing key. -/
theorem verify_any_key (c : StylusAttestationVerifier H) (publicValues proofBytes : Bytes)
    (address key : Address)
    (encoding : ∀ values, ∃ bytes, vm.decodePublicValues bytes = some values)
    (h : c.verifyAttestationProof vm publicValues proofBytes = .ok address) :
    ∃ publicValues', c.verifyAttestationProof vm publicValues' proofBytes = .ok key := by
  obtain ⟨values, proof, jwt, kidHash, -, proved, signed, claims, image, -⟩ :=
    verify_ok vm _ _ _ _ h
  obtain ⟨bytes, decoded⟩ := encoding { values with teeSigningKey := key }
  have claims' : c.checkClaims vm jwt.payloadJson kidHash { values with teeSigningKey := key } =
      .ok () := claims
  have image' : c.checkImageSignature vm { values with teeSigningKey := key } = .ok () := image
  refine ⟨bytes, ?_⟩
  simp [StylusAttestationVerifier.verifyAttestationProof, decoded, proved, signed, claims', image',
    pure, Except.pure]

/-- Whatever token a call succeeds with, the signing key it returns is not determined by it: every
other key is returned for the same proof. -/
theorem signing_key_not_determined (c : StylusAttestationVerifier H)
    (encoding : ∀ values, ∃ bytes, vm.decodePublicValues bytes = some values)
    (publicValues proofBytes : Bytes) (proof : StylusProofData) (address : Address)
    (proved : vm.decodeProofData proofBytes = some proof)
    (accepted : c.verifyAttestationProof vm publicValues proofBytes = .ok address) :
    ¬ DeterminedByToken vm c proof.jwt ∧
      ∀ key, ∃ publicValues', c.verifyAttestationProof vm publicValues' proofBytes = .ok key := by
  have any (key : Address) :=
    verify_any_key vm c publicValues proofBytes address key encoding accepted
  refine ⟨?_, any⟩
  intro determined
  obtain ⟨publicValues', accepted'⟩ := any (address + 1)
  have same := determined publicValues publicValues' proofBytes proofBytes proof proof address
    (address + 1) proved proved rfl rfl accepted accepted'
  have different : address ≠ address + 1 := by
    intro h
    have zero : (1 : Address) = 0 := by simpa using h.symm
    exact absurd zero (by decide)
  exact different same

namespace Sample

/-- The modular exponentiation precompile. -/
def modexp (input : Bytes) : Bytes :=
  let baseLength := fromBigEndian (input.take 32)
  let exponentLength := fromBigEndian ((input.drop 32).take 32)
  let modulusLength := fromBigEndian ((input.drop 64).take 32)
  let base := fromBigEndian ((input.drop 96).take baseLength)
  let exponent := (input.drop (96 + baseLength)).take exponentLength
  let modulus := fromBigEndian ((input.drop (96 + baseLength + exponentLength)).take modulusLength)
  let bits := exponent.flatMap fun byte => (List.range 8).reverse.map byte.toNat.testBit
  bigEndian modulusLength
    (bits.foldl (fun x bit => x * x % modulus * (if bit then base else 1) % modulus) (1 % modulus))

/-- Square and multiply: the accumulator is a power whose exponent are the bits so far. -/
theorem modexp_bits (base modulus a : Nat) (bits : List Bool) :
    bits.foldl (fun x bit => x * x % modulus * (if bit then base else 1) % modulus)
        (base ^ a % modulus) =
      base ^ bits.foldl (fun a bit => 2 * a + bit.toNat) a % modulus := by
  induction bits generalizing a with
  | nil => rfl
  | cons bit bits ih =>
    have factor : (if bit = true then base else 1) = base ^ bit.toNat := by cases bit <;> simp
    have step : base ^ a % modulus * (base ^ a % modulus) % modulus *
        (if bit = true then base else 1) % modulus = base ^ (2 * a + bit.toNat) % modulus := by
      rw [factor, ← Nat.mul_mod, Nat.mod_mul_mod, ← Nat.pow_add, ← Nat.pow_add, ← Nat.two_mul]
    rw [List.foldl_cons, List.foldl_cons, step, ih]

theorem bits_byte (byte : UInt8) (a : Nat) :
    ((List.range 8).reverse.map byte.toNat.testBit).foldl (fun a bit => 2 * a + bit.toNat) a =
      a * 256 + byte.toNat := by
  have small := byte.toNat_lt
  have places : (List.range 8).reverse = [7, 6, 5, 4, 3, 2, 1, 0] := rfl
  simp only [places, List.map_cons, List.map_nil, List.foldl_cons, List.foldl_nil,
    Nat.toNat_testBit]
  omega

theorem bits_bytes (bytes : Bytes) (a : Nat) :
    (bytes.flatMap fun byte => (List.range 8).reverse.map byte.toNat.testBit).foldl
        (fun a bit => 2 * a + bit.toNat) a =
      bytes.foldl (fun n byte => n * 256 + byte.toNat) a := by
  induction bytes generalizing a with
  | nil => rfl
  | cons byte bytes ih =>
    rw [List.flatMap_cons, List.foldl_append, bits_byte, ih, List.foldl_cons]
/-- The bits of all bytes are the exponent. -/
theorem modexp_power (base modulus : Nat) (exponent : Bytes) :
    (exponent.flatMap fun byte => (List.range 8).reverse.map byte.toNat.testBit).foldl
        (fun x bit => x * x % modulus * (if bit then base else 1) % modulus) (1 % modulus) =
      base ^ fromBigEndian exponent % modulus := by
  have whole := modexp_bits base modulus 0
    (exponent.flatMap fun byte => (List.range 8).reverse.map byte.toNat.testBit)
  rw [Nat.pow_zero, bits_bytes] at whole
  exact whole

def wordAt (i : Nat) (bytes : Bytes) : Bytes := (bytes.drop (32 * i)).take 32

def boolWord (b : Bool) : Bytes := bigEndian 32 b.toNat

section Abi

variable {H : Type} (ofBytes : Bytes → H) (toBytes : H → Bytes)

def encodePublicValues (v : PublicValuesStruct H) : Bytes :=
  [toBytes v.jwkKeyHash, bigEndian 32 v.validityWindowStart.toNat,
    bigEndian 32 v.validityWindowEnd.toNat, toBytes v.imageDigestHash,
    bigEndian 32 v.teeSigningKey.toNat, boolWord v.secboot, boolWord v.dbgstatDisabled,
    toBytes v.audienceHash, bigEndian 32 v.imageSignatureV.toNat, toBytes v.imageSignatureR,
    toBytes v.imageSignatureS].flatten

def decodePublicValues (bytes : Bytes) : Option (PublicValuesStruct H) :=
  let number (i : Nat) := fromBigEndian (wordAt i bytes)
  if bytes.length = 352 then
    some ⟨ofBytes (wordAt 0 bytes), UInt64.ofNat (number 1), UInt64.ofNat (number 2),
      ofBytes (wordAt 3 bytes), BitVec.ofNat 160 (number 4), number 5 ≠ 0, number 6 ≠ 0,
      ofBytes (wordAt 7 bytes), UInt8.ofNat (number 8), ofBytes (wordAt 9 bytes),
      ofBytes (wordAt 10 bytes)⟩
  else none

/-- A dynamic field: its length and its bytes, padded to whole words. -/
def encodeBytes (bytes : Bytes) : Bytes :=
  bigEndian 32 bytes.length ++ bytes ++ List.replicate ((32 - bytes.length % 32) % 32) 0

def encodeProofData (p : StylusProofData) : Bytes :=
  let jwt := encodeBytes p.jwt
  let modulus := encodeBytes p.jwkModulus
  bigEndian 32 32 ++ bigEndian 32 96 ++ bigEndian 32 (96 + jwt.length) ++
    bigEndian 32 (96 + jwt.length + modulus.length) ++ jwt ++ modulus ++ encodeBytes p.jwkExponent

end Abi

theorem wordAt_flatten (ws : List Bytes) (h : ∀ w ∈ ws, w.length = 32) (i : Nat) (w : Bytes)
    (hw : ws[i]? = some w) : wordAt i ws.flatten = w := by
  induction ws generalizing i with
  | nil => simp at hw
  | cons v ws ih =>
    have own := h v (by simp)
    have rest : ∀ u ∈ ws, u.length = 32 := fun u hu => h u (by simp [hu])
    cases i with
    | zero =>
      obtain rfl : v = w := by simpa using hw
      simp [wordAt, List.take_left' own]
    | succ i =>
      have next := ih rest i (by simpa using hw)
      have skip : (v ++ ws.flatten).drop (32 * (i + 1)) = ws.flatten.drop (32 * i) := by
        rw [show 32 * (i + 1) = v.length + 32 * i by omega, List.drop_append]
        simp
      rw [wordAt, List.flatten_cons, skip]
      exact next

theorem number_word (n : Nat) (h : n < 2 ^ 256) : fromBigEndian (bigEndian 32 n) = n :=
  fromBigEndian_bigEndian 32 n (by simpa using h)

theorem decode_encode {H : Type} (ofBytes : Bytes → H) (toBytes : H → Bytes)
    (length : ∀ x, (toBytes x).length = 32) (inverse : ∀ x, ofBytes (toBytes x) = x)
    (v : PublicValuesStruct H) :
    decodePublicValues ofBytes (encodePublicValues toBytes v) = some v := by
  have words : ∀ w ∈ [toBytes v.jwkKeyHash, bigEndian 32 v.validityWindowStart.toNat,
      bigEndian 32 v.validityWindowEnd.toNat, toBytes v.imageDigestHash,
      bigEndian 32 v.teeSigningKey.toNat, boolWord v.secboot, boolWord v.dbgstatDisabled,
      toBytes v.audienceHash, bigEndian 32 v.imageSignatureV.toNat, toBytes v.imageSignatureR,
      toBytes v.imageSignatureS], w.length = 32 := by
    simp [length, boolWord]
  have word (i : Nat) (w : Bytes) := wordAt_flatten _ words i w
  have total : (encodePublicValues toBytes v).length = 352 := by
    simp [encodePublicValues, length, boolWord]
  have small (n : Nat) (h : n < 2 ^ 160) : fromBigEndian (bigEndian 32 n) = n :=
    number_word n (by omega)
  have start := small v.validityWindowStart.toNat (by have := v.validityWindowStart.toNat_lt; omega)
  have finish := small v.validityWindowEnd.toNat (by have := v.validityWindowEnd.toNat_lt; omega)
  have key := small v.teeSigningKey.toNat v.teeSigningKey.isLt
  have parity := small v.imageSignatureV.toNat (by have := v.imageSignatureV.toNat_lt; omega)
  have flag (b : Bool) : fromBigEndian (boolWord b) = b.toNat := by
    cases b with
    | false => rfl
    | true => rfl
  rw [decodePublicValues, if_pos total]
  simp only [encodePublicValues, word 0 _ rfl, word 1 _ rfl, word 2 _ rfl, word 3 _ rfl,
    word 4 _ rfl,
    word 5 _ rfl, word 6 _ rfl, word 7 _ rfl, word 8 _ rfl, word 9 _ rfl, word 10 _ rfl, inverse,
    start, finish, key, parity, flag]
  cases v with
  | mk a b c d e f g h i j k => cases f <;> cases g <;> simp

/-- Algorithm `RS256` and key id `k1`. -/
def headerB64 : Bytes :=
  bigEndian 51
    0x65794a68624763694f694a53557a49314e694973496d74705a434936496d73784969776964486c77496a6f69536c6455496e30

/-- Issued for the audience `synddb` at 1700000000, valid for an hour, with secure boot, debugging
disabled and the image digest `sha256:abababab`. -/
def payloadB64 : Bytes :=
  bigEndian 279
    0x65794a7063334d694f694a6f64485277637a6f764c324e76626d5a705a47567564476c6862474e766258423164476c755a79356e6232396e6247566863476c7a4c6d4e7662534973496d46315a434936496e4e35626d526b59694973496d6c68644349364d5463774d4441774d4441774d4377695a586877496a6f784e7a41774d44417a4e6a41774c434a7a5a574e6962323930496a7030636e566c4c434a6b596d647a64474630496a6f695a476c7a59574a735a57517463326c7559325574596d397664434973496e4e31596d31765a484d694f6e73695932397564474670626d5679496a7037496d6c745957646c583252705a32567a64434936496e4e6f595449314e6a7068596d466959574a6859694a39665830

def signingInput : Bytes := headerB64 ++ 46 :: payloadB64

/-- The signature of the registered key. -/
def signatureB64 : Bytes :=
  bigEndian 342
    0x786976547258485f4b5a43614a6855486a415a5a676974683031675a585373535744714d345a63786b42305161706e584d2d365838466d3875316c68656f65703068336e79584174437a4f6d6d593072546b63797266686c49685f732d3539714b623630726966754441786f7a4a457177737058437136735f6972773055554c57584a79317a794f5f79636b6d7343773742304f414d6e444d786a33724a786a65665f6f4f756c6954464a53637263537542724a7052754b6e6461554e72384943443954466a50365a593065304273454470747a557235534a78634c3931375756694c5f576253685366644472354b42586644707369614c395339673571623670524c526e377555627639382d44555968394b495a664e58433236487836587656694c53434a3942674c6c65743470496e4c7544746634583672396a38546b575861416f644852706c45626d37326354727646576651

/-- The padded digest of the token itself, of 257 bytes. -/
def forgedB64 : Bytes :=
  bigEndian 343
    0x4141485f5f5f5f5f5f5f5f5f5f5f5f5f5f5f5f5f5f5f5f5f5f5f5f5f5f5f5f5f5f5f5f5f5f5f5f5f5f5f5f5f5f5f5f5f5f5f5f5f5f5f5f5f5f5f5f5f5f5f5f5f5f5f5f5f5f5f5f5f5f5f5f5f5f5f5f5f5f5f5f5f5f5f5f5f5f5f5f5f5f5f5f5f5f5f5f5f5f5f5f5f5f5f5f5f5f5f5f5f5f5f5f5f5f5f5f5f5f5f5f5f5f5f5f5f5f5f5f5f5f5f5f5f5f5f5f5f5f5f5f5f5f5f5f5f5f5f5f5f5f5f5f5f5f5f5f5f5f5f5f5f5f5f5f5f5f5f5f5f5f5f5f5f5f5f5f5f5f5f5f5f5f5f5f5f5f5f5f5f5f5f5f5f5f5f5f5f5f5f5f5f5f5f5f5f5f5f5f5f5f5f5f5f5f5f5f5f5f5f5f5f5f5f5f5f5f5f5f5f5f5f5f5f5f5f5f5f5f5f5f5f5f5f5f5f5f5f5f5f5f5f5f5f5f5f5f5f5f5f5f5f5f5f5f5f5f5f5f5f5f7741774d54414e42676c67686b67425a514d45416745464141516747483872797933767a412d57597366304745647a717355687241344b6e5772725776577442644933317555

def registeredKey : RsaKey :=
  ⟨bigEndian 256
    0xc7127f6e701472dd58e1b748713186c223635b77550deecf8d0da88339e785b35e25d50c38bbbfbe00c609361f847cb75dfa7577135a2eb687473d56897b829358ef2b3066e79f3a74adbe190d03dfc0ccd4a11f841b958608f535b556f34b65add483401a4c1408fb1cd7fb2538b42cc011ac8a9db06e504366558a2edd2581636d20956204146aef9261bdee01055d389c81c2b6f7dde61e52287f4ed1ec52c750f4dfd26c126e31dff5eca9a0c5d2a912c088d211d1fbe91d1b4e8eb76715fc34caa4727d9d481c82229a6665004bf8c73ee7b823845885c9053d7d307daa95ff028c01893cbfb1c99a49c16723811bb114faa6b8efd2c46d73485e6ffa73, [1, 0, 1]⟩

/-- The same material, cut one byte later: the exponent is 1. -/
def forgedKey : RsaKey := ⟨registeredKey.modulus ++ [1], [0, 1]⟩

def honestProof : StylusProofData :=
  ⟨signingInput ++ 46 :: signatureB64, registeredKey.modulus, registeredKey.exponent⟩

def forgedProof : StylusProofData :=
  ⟨signingInput ++ 46 :: forgedB64, forgedKey.modulus, forgedKey.exponent⟩

def kidHash : Bytes := bigEndian 32
    0x50826078203fe70dc5c60aa54c46fd03a1ff4023845c4acb1064f791419880c1

def audienceHash : Bytes := bigEndian 32
    0x9e239802cdab538ce80d3a322e81341bd5d03b8803d05143a304dc62a24a4710

def imageDigestHash : Bytes := bigEndian 32
    0x62d66ba97047f4135a798d4e8a449da8e7060d66da7d1709f94e1843f77d4231

def imageSignatureR : Bytes := bigEndian 32
    0x4e0e291bc708a21128420fe922b2e6155db7d331a50b1eae4ae34f8ab9eb3bd4

def imageSignatureS : Bytes := bigEndian 32
    0x0774e91bc57182addaa7712530c67ac94643565522b7e867866873d757a5229f

def imageSigner : Address := 0xd41c057fd1c78805aac12b0a94a405c0461a6fbb

def keccakTable : List (Bytes × Bytes) :=
  [(ascii "k1", kidHash), (ascii "synddb", audienceHash),
   (ascii "sha256:abababab", imageDigestHash), (registeredKey.modulus ++ registeredKey.exponent,
    bigEndian 32
    0x8d323624ff3e69a99d9911c8a517889321837a9d37b751dd7405ad8eeb1669f7)]

section Machine

variable {H : Type} (ofBytes : Bytes → H) (toBytes : H → Bytes)

def machine : Vm H where
  nativeKeccak256 bytes := ofBytes (Shared.tabulated keccakTable bytes)
  asSlice := toBytes
  decodePublicValues := decodePublicValues ofBytes
  decodeProofData bytes := [honestProof, forgedProof].find? fun p => encodeProofData p = bytes
  staticCall precompile input :=
    match precompile with
    | .ECRECOVER =>
        [(imageDigestHash ++ bigEndian 32 27 ++ imageSignatureR ++ imageSignatureS,
          bigEndian 32 imageSigner.toNat)].lookup input
    | .SHA256_PRECOMPILE =>
        [(signingInput, bigEndian 32
          0x187f2bcb2defcc0f9662c7f4184773aac521ac0e0a9d6aeb5af5ad05d237d6e5)].lookup input
    | .MODEXP_PRECOMPILE => some (modexp input)
  blockTimestamp := 1700000100

def values (teeSigningKey : Address) : PublicValuesStruct H :=
  ⟨ofBytes kidHash, 1700000000, 1700003600, ofBytes imageDigestHash, teeSigningKey, true, true,
    ofBytes audienceHash, 27, ofBytes imageSignatureR, ofBytes imageSignatureS⟩

def owner : Address := 1

def history : List (Address × Call H) :=
  [(owner, .initializeVerifier 300), (owner, .addTrustedJwk (ofBytes kidHash) registeredKey),
   (owner, .addAllowedImageDigestHash (ofBytes imageDigestHash)),
   (owner, .addTrustedImageSigner imageSigner)]

end Machine

def registry : Registry Bytes := Registry.after (machine id id) [] (history id)

theorem keccak_injective : Function.Injective (machine id id).nativeKeccak256 :=
  Shared.tabulated_injective keccakTable (by decide +kernel) (by decide +kernel)

/-- The contract accepts the honest token and the forged one, each under the key it comes with. -/
theorem proofs_accepted :
    registry.contract.verifyAttestationProof (machine id id) (encodePublicValues id (values id 5))
        (encodeProofData honestProof) = .ok 5 ∧
      registry.contract.verifyAttestationProof (machine id id) (encodePublicValues id (values id 5))
        (encodeProofData forgedProof) = .ok 5 ∧
      usedKey (machine id id) (encodeProofData forgedProof) = some (ascii "k1", forgedKey) ∧
      registry.registered ((machine id id).nativeKeccak256 (ascii "k1")) = some registeredKey ∧
      forgedKey ≠ registeredKey := by
  decide +kernel

/-- An honest token. -/
theorem signature_checked_with_registered_key_honest :
    ∃ kid used key, usedKey (machine id id) (encodeProofData honestProof) = some (kid, used) ∧
      registry.registered ((machine id id).nativeKeccak256 kid) = some key ∧
      (used = key ↔ used.modulus.length = key.modulus.length) :=
  signature_checked_with_registered_key (machine id id) [] keccak_injective (history id)
    (encodePublicValues id (values id 5)) (encodeProofData honestProof) 5 proofs_accepted.1

/-- A token nobody has signed, with a key nobody has registered. -/
theorem forged_key_accepted :
    Function.Injective (machine id id).nativeKeccak256 ∧
      registry.contract.verifyAttestationProof (machine id id) (encodePublicValues id (values id 5))
        (encodeProofData forgedProof) = .ok 5 ∧
      usedKey (machine id id) (encodeProofData forgedProof) = some (ascii "k1", forgedKey) ∧
      registry.registered ((machine id id).nativeKeccak256 (ascii "k1")) = some registeredKey ∧
      forgedKey ≠ registeredKey :=
  ⟨keccak_injective, proofs_accepted.2⟩

/-- Hashes of 32 bytes. -/
def toHash (bytes : Bytes) : BitVec 256 := BitVec.ofNat 256 (fromBigEndian bytes)

def hashMachine : Vm (BitVec 256) := machine toHash Contracts.word

def hashContract : StylusAttestationVerifier (BitVec 256) :=
  (Registry.after hashMachine 0 (history toHash)).contract

theorem hash_encoding (v : PublicValuesStruct (BitVec 256)) :
    ∃ bytes, hashMachine.decodePublicValues bytes = some v := by
  have inverse (x : BitVec 256) : toHash (Contracts.word x) = x := by
    rw [toHash, Contracts.word, number_word x.toNat x.isLt, BitVec.ofNat_toNat, BitVec.setWidth_eq]
  have length (x : BitVec 256) : (Contracts.word x).length = 32 := length_bigEndian 32 x.toNat
  exact ⟨encodePublicValues Contracts.word v, decode_encode toHash Contracts.word length inverse v⟩

/-- The contract accepts the honest token twice, with two signing keys. -/
theorem honest_accepted :
    hashMachine.decodeProofData (encodeProofData honestProof) = some honestProof ∧
      hashContract.verifyAttestationProof hashMachine
        (encodePublicValues Contracts.word (values toHash 5)) (encodeProofData honestProof) =
          .ok 5 ∧
      hashContract.verifyAttestationProof hashMachine
        (encodePublicValues Contracts.word (values toHash 6)) (encodeProofData honestProof) =
          .ok 6 := by
  decide +kernel

/-- The token of the registered key serves for any signing key. -/
theorem signing_key_not_determined_honest :
    ¬ DeterminedByToken hashMachine hashContract honestProof.jwt ∧
      ∀ key, ∃ publicValues', hashContract.verifyAttestationProof hashMachine publicValues'
        (encodeProofData honestProof) = .ok key :=
  signing_key_not_determined hashMachine hashContract hash_encoding
    (encodePublicValues Contracts.word (values toHash 5)) (encodeProofData honestProof)
    honestProof 5
    honest_accepted.1 honest_accepted.2.1

/-- Two calls with one token return two keys. -/
theorem one_token_two_signing_keys :
    hashContract.verifyAttestationProof hashMachine
        (encodePublicValues Contracts.word (values toHash 5)) (encodeProofData honestProof) =
          .ok 5 ∧
      hashContract.verifyAttestationProof hashMachine
        (encodePublicValues Contracts.word (values toHash 6)) (encodeProofData honestProof) =
          .ok 6 :=
  honest_accepted.2

end Sample

end SyndDB.Stylus
