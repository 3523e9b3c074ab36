import SyndDB.RiscZero.Claims
import SyndDB.RiscZero.KeyBinding
import SyndDB.Stylus.Pkcs1
import Mathlib.Data.Nat.Log

namespace SyndDB.RiscZero

open Json Octets
open SyndDB.Contracts (Address)
open SyndDB.Stylus (PublicValuesStruct StylusProofData StylusAttestationVerifier Vm firstScanned
  stringOf leadingDigitsOf boolOf isUtf8 splitDot base64urlDecode jsonGetString jsonGetU64
  jsonGetBool IsClaimName jsonGetString_eq jsonGetU64_eq jsonGetBool_eq modexpInput)

section Signatures

variable {H : Type} (E : Environment H)

/-- Bits of the largest modulus that the `rsa` crate takes. -/
def MAX_SIZE : Nat := 4096

/-- The `rsa` crate verifies RSASSA-PKCS1-v1_5 with SHA-256, and nothing else. -/
structure DecidesRs256 : Prop where
  digest : ∀ message, (E.sha256 message).length = 32
  publicKey : ∀ n e, E.rsaPublicKeyNew n e = .ok () → 0 < n ∧ n < 2 ^ MAX_SIZE
  signature : ∀ bytes, bytes ≠ [] → E.signatureTryFrom bytes = .ok ()
  verify : ∀ k n e message signature, E.rsaPublicKeyNew n e = .ok () → 256 ^ (k - 1) ≤ n →
    n < 256 ^ k → (E.rsaVerify n e message signature = .ok () ↔
      62 ≤ k ∧ signature.length = k ∧ fromBigEndian signature < n ∧
        bigEndian k (fromBigEndian signature ^ e % n) = emsaPkcs1v15 k (E.sha256 message))

/-- The contract runs on a machine of 32 bits, and its hash functions and precompiles compute what
the guest's libraries do, where they return. -/
structure SameMachine (vm : Vm H) : Prop where
  keccak256 : ∀ bytes, vm.nativeKeccak256 bytes = E.keccak256 bytes
  sha256 : ∀ data digest, vm.staticCall .SHA256_PRECOMPILE data = some digest →
    digest = E.sha256 data
  modexp : ∀ base exponent modulus power, base.length < 2 ^ 32 → exponent.length < 2 ^ 32 →
    modulus.length < 2 ^ 32 → 0 < fromBigEndian modulus →
    vm.staticCall .MODEXP_PRECOMPILE (modexpInput base exponent modulus) = some power →
    power = bigEndian modulus.length
      (fromBigEndian base ^ fromBigEndian exponent % fromBigEndian modulus)
  memory : ∀ bytes proof, vm.decodeProofData bytes = some proof →
    proof.jwkModulus.length < 2 ^ 32 ∧ proof.jwkExponent.length < 2 ^ 32

/-- The crate takes the key, the modulus is written without zeros in front, and the signature has as
many bytes and is a smaller number. -/
structure KeyFits (modulus exponent signature : Bytes) : Prop where
  publicKey : E.rsaPublicKeyNew (fromBigEndian modulus) (fromBigEndian exponent) = .ok ()
  written : 256 ^ (modulus.length - 1) ≤ fromBigEndian modulus
  length : signature.length = modulus.length
  small : fromBigEndian signature < fromBigEndian modulus

/-- The padded digest as a number shows how many bytes it has. -/
theorem emsaPkcs1v15_bounds (k : Nat) (hash : Bytes) (size : 62 ≤ k) (h : hash.length = 32) :
    256 ^ (k - 2) ≤ fromBigEndian (emsaPkcs1v15 k hash) ∧
      fromBigEndian (emsaPkcs1v15 k hash) < 2 * 256 ^ (k - 2) := by
  obtain ⟨rest, shape⟩ : ∃ rest, emsaPkcs1v15 k hash = 0 :: 1 :: rest := ⟨_, rfl⟩
  have length : (emsaPkcs1v15 k hash).length = k := by
    have info : SyndDB.Stylus.PKCS1_SHA256_DIGEST_INFO.length = 19 := rfl
    simp only [emsaPkcs1v15, List.length_append, List.length_replicate, h, info, List.length_cons,
      List.length_nil]
    omega
  rw [shape, List.length_cons, List.length_cons] at length
  have small := fromBigEndian_lt rest
  rw [shape, fromBigEndian_cons, fromBigEndian_cons, show rest.length = k - 2 by omega]
  rw [show rest.length = k - 2 by omega] at small
  simp only [UInt8.toNat_zero, Nat.zero_mul, Nat.zero_add, UInt8.toNat_one, Nat.one_mul]
  omega

theorem emsaPkcs1v15_size (k l : Nat) (hash : Bytes) (hk : 62 ≤ k) (hl : 62 ≤ l)
    (h : hash.length = 32)
    (same : fromBigEndian (emsaPkcs1v15 k hash) = fromBigEndian (emsaPkcs1v15 l hash)) : k = l := by
  obtain ⟨lowK, highK⟩ := emsaPkcs1v15_bounds k hash hk h
  obtain ⟨lowL, highL⟩ := emsaPkcs1v15_bounds l hash hl h
  have steps (i j : Nat) (less : i < j) : 2 * 256 ^ i ≤ 256 ^ j := by
    calc 2 * 256 ^ i ≤ 256 ^ (i + 1) := by rw [Nat.pow_succ]; omega
      _ ≤ 256 ^ j := Nat.pow_le_pow_right (by decide) less
  rcases Nat.lt_trichotomy k l with less | same | more
  · have := steps (k - 2) (l - 2) (by omega)
    omega
  · exact same
  · have := steps (l - 2) (k - 2) (by omega)
    omega

variable {E} {vm : Vm H} (rs256 : DecidesRs256 E) (same : SameMachine E vm)

include rs256 same

/-- What the contract has checked of a signature. -/
theorem verifyRs256_ok (signingInput signature modulus exponent : Bytes)
    (h : Stylus.verifyRs256 vm signingInput signature modulus exponent = .ok ())
    (sizes : signature.length < 2 ^ 32 ∧ modulus.length < 2 ^ 32 ∧ exponent.length < 2 ^ 32)
    (positive : 0 < fromBigEndian modulus) :
    62 ≤ modulus.length ∧ bigEndian modulus.length
        (fromBigEndian signature ^ fromBigEndian exponent % fromBigEndian modulus) =
      emsaPkcs1v15 modulus.length (E.sha256 signingInput) := by
  simp only [Stylus.verifyRs256, Outcome.bind_ok] at h
  obtain ⟨digest, hashed, decrypted, powered, checked⟩ := h
  have digest_eq : digest = E.sha256 signingInput := by
    unfold Stylus.sha256Call at hashed
    split at hashed
    · rename_i found
      split at hashed
      · cases hashed
        exact same.sha256 _ _ found
      · cases hashed
    · cases hashed
  have decrypted_eq : decrypted = bigEndian modulus.length
      (fromBigEndian signature ^ fromBigEndian exponent % fromBigEndian modulus) := by
    unfold Stylus.modexpCall at powered
    split at powered
    · rename_i found
      cases powered
      exact same.modexp _ _ _ _ sizes.1 sizes.2.2 sizes.2.1 positive found
    · cases powered
  have accepted : Stylus.verifyPkcs1v15Sha256 decrypted digest = true := by
    cases padded : Stylus.verifyPkcs1v15Sha256 decrypted digest with
    | true => rfl
    | false =>
      rw [padded] at checked
      cases checked
  have hash : digest.length = 32 := by rw [digest_eq]; exact rs256.digest _
  obtain ⟨n, padding, shape⟩ : ∃ n, 8 ≤ n ∧ decrypted = Stylus.pkcs1v15Sha256 n digest := by
    obtain ⟨n, rest, shape⟩ := Stylus.padded_of_verifyPkcs1v15Sha256 decrypted digest accepted
    rw [shape] at accepted
    obtain ⟨padding, same⟩ := (Stylus.verifyPkcs1v15Sha256_padded n rest digest hash).mp accepted
    refine ⟨n, padding, shape.trans ?_⟩
    rw [same, Stylus.padded, Stylus.pkcs1v15Sha256, List.append_assoc, List.append_assoc,
      List.append_assoc]
    rfl
  have length : modulus.length = n + 54 := by
    have whole := congrArg List.length (decrypted_eq.symm.trans shape)
    have info : SyndDB.Stylus.PKCS1_SHA256_DIGEST_INFO.length = 19 := rfl
    simp only [length_bigEndian, Stylus.pkcs1v15Sha256, List.length_append,
      List.length_replicate, hash, info, List.length_cons, List.length_nil] at whole
    omega
  refine ⟨by omega, ?_⟩
  rw [← decrypted_eq, shape, digest_eq, length, emsaPkcs1v15, Nat.add_sub_cancel]
  rfl

/-- Of the signatures that the contract accepts, the crate accepts those that fit the key. -/
theorem rsaVerify_iff (signingInput signature modulus exponent : Bytes)
    (h : Stylus.verifyRs256 vm signingInput signature modulus exponent = .ok ())
    (sizes : modulus.length < 2 ^ 32 ∧ exponent.length < 2 ^ 32) :
    (E.rsaPublicKeyNew (fromBigEndian modulus) (fromBigEndian exponent) = .ok () ∧
      E.signatureTryFrom signature = .ok () ∧
      E.rsaVerify (fromBigEndian modulus) (fromBigEndian exponent) signingInput signature =
        .ok ()) ↔
    KeyFits E modulus exponent signature := by
  have below := fromBigEndian_lt modulus
  constructor
  · rintro ⟨key, -, verified⟩
    obtain ⟨positive, size⟩ := rs256.publicKey _ _ key
    -- the number of bytes that the modulus needs
    obtain ⟨k, low, high⟩ : ∃ k, 256 ^ (k - 1) ≤ fromBigEndian modulus ∧
        fromBigEndian modulus < 256 ^ k :=
      ⟨Nat.log 256 (fromBigEndian modulus) + 1,
        Nat.pow_log_le_self 256 (Nat.pos_iff_ne_zero.mp positive),
        Nat.lt_pow_succ_log_self (by decide) _⟩
    obtain ⟨large, length, small, padded⟩ := (rs256.verify k _ _ _ _ key low high).mp verified
    have short : 8 * (k - 1) < MAX_SIZE := by
      have power : 2 ^ (8 * (k - 1)) = 256 ^ (k - 1) := Nat.pow_mul 2 8 (k - 1)
      exact (Nat.pow_lt_pow_iff_right (by decide)).mp (Nat.lt_of_le_of_lt (power ▸ low) size)
    have few : k < 2 ^ 32 := by
      rw [MAX_SIZE] at short
      omega
    obtain ⟨large', padded'⟩ := verifyRs256_ok rs256 same _ _ _ _ h
      ⟨length ▸ few, sizes.1, sizes.2⟩ positive
    have power := Nat.mod_lt (fromBigEndian signature ^ fromBigEndian exponent) positive
    have bytes : k = modulus.length := by
      apply emsaPkcs1v15_size k modulus.length _ large large' (rs256.digest signingInput)
      rw [← padded, ← padded', fromBigEndian_bigEndian k _ (power.trans high),
        fromBigEndian_bigEndian _ _ (power.trans below)]
    exact ⟨key, bytes ▸ low, bytes ▸ length, small⟩
  · intro fits
    have positive : 0 < fromBigEndian modulus := Nat.lt_of_le_of_lt (Nat.zero_le _) fits.small
    obtain ⟨large, padded⟩ := verifyRs256_ok rs256 same _ _ _ _ h
      ⟨fits.length ▸ sizes.1, sizes.1, sizes.2⟩ positive
    refine ⟨fits.publicKey, rs256.signature signature ?_, ?_⟩
    · intro empty
      have length := fits.length
      rw [empty, List.length_nil] at length
      omega
    · exact (rs256.verify modulus.length _ _ _ _ fits.publicKey fits.written below).mpr
        ⟨large, fits.length, fits.small, padded⟩

end Signatures

section Tokens

variable {H : Type} (E : Environment H)

/-- The parts of a token at its first two dots. -/
theorem cut_ok (token : Bytes) (jwt : Stylus.ParsedJwt) (h : Stylus.parseJwt token = .ok jwt) :
    isUtf8 token = true ∧ ∃ headerB64 rest payloadB64 signatureB64,
      splitDot token = some (headerB64, rest) ∧ splitDot rest = some (payloadB64, signatureB64) ∧
      base64urlDecode headerB64 = .ok jwt.headerJson ∧
      base64urlDecode payloadB64 = .ok jwt.payloadJson ∧
      base64urlDecode signatureB64 = .ok jwt.signature ∧
      jwt.signingInput = headerB64 ++ 46 :: payloadB64 := by
  simp only [Stylus.parseJwt, Outcome.throw_bind, Outcome.guard_ok] at h
  obtain ⟨utf8, h⟩ := h
  refine ⟨by simpa using utf8, ?_⟩
  split at h
  · cases h
  · rename_i headerB64 rest first
    split at h
    · cases h
    · rename_i payloadB64 signatureB64 second
      simp only [Outcome.bind_ok] at h
      obtain ⟨headerJson, header, payloadJson, payload, signature, decoded, same⟩ := h
      cases same
      exact ⟨headerB64, rest, payloadB64, signatureB64, first, second, header, payload,
        decoded, rfl⟩

/-- Of the tokens that the contract can cut, the library takes those with exactly two dots, if
`serde_json` reads the parts. -/
theorem parseJwt_iff (token : Bytes) (jwt : Stylus.ParsedJwt) (h : Stylus.parseJwt token = .ok jwt)
    (parsed : ParsedJwt) :
    parseJwt E token = .ok parsed ↔ (splitParts token).isSome = true ∧
      E.parseHeader jwt.headerJson = some parsed.header ∧
      E.parseClaims jwt.payloadJson = some parsed.claims ∧
      parsed.signature = jwt.signature ∧ parsed.signingInput = jwt.signingInput := by
  obtain ⟨utf8, headerB64, rest, payloadB64, signatureB64, first, second, header, payload, decoded,
    signed⟩ := cut_ok token jwt h
  have parts : splitParts token =
      if 46 ∈ signatureB64 then none else some (headerB64, payloadB64, signatureB64) := by
    simp only [splitParts, first, second]
  by_cases dot : 46 ∈ signatureB64
  · rw [if_pos dot] at parts
    refine iff_of_false ?_ ?_
    · simp [parseJwt, utf8, parts, orParseError]
    · simp [parts]
  · rw [if_neg dot] at parts
    simp only [parseJwt, Outcome.throw_bind, Outcome.guard_ok, Outcome.bind_ok,
      orParseError_ok, utf8, parts, Option.isSome_some, true_and]
    constructor
    · rintro ⟨-, _, ⟨⟩, _, found, header', hheader, _, found', claims', hclaims, _, found'', result⟩
      obtain rfl := Except.ok.inj (header.symm.trans found)
      obtain rfl := Except.ok.inj (payload.symm.trans found')
      obtain rfl := Except.ok.inj (decoded.symm.trans found'')
      cases result
      exact ⟨hheader, hclaims, rfl, signed.symm⟩
    · rintro ⟨hheader, hclaims, hsignature, hinput⟩
      refine ⟨by simp, _, rfl, _, header, _, hheader, _, payload, _, hclaims, _, decoded, ?_⟩
      rw [← hsignature, ← signed, ← hinput]
      rfl

end Tokens

def issuer : Bytes := ascii "https://confidentialcomputing.googleapis.com"

def scannedText (document : Document) (name : String) : Option Bytes :=
  (firstScanned document (ascii name)).bind stringOf

def scannedNumber (document : Document) (name : String) : Option UInt64 :=
  (firstScanned document (ascii name)).bind leadingDigitsOf

def scannedBool (document : Document) (name : String) : Option Bool :=
  (firstScanned document (ascii name)).bind boolOf

/-- The scanner reads what `serde_json` does. -/
structure HeaderAlike (document : Document) (header : JwtHeader) : Prop where
  alg : scannedText document "alg" = some header.alg
  kid : scannedText document "kid" = some header.kid

section Claims

variable {H : Type} (E : Environment H)

/-- The scanner reads what `serde_json` does. Where only a hash is compared, the texts
have the same hash. -/
structure ClaimsAlike (document : Document) (claims : GcpCsClaims) : Prop where
  iss : scannedText document "iss" = some claims.iss
  iat : scannedNumber document "iat" = some claims.iat
  exp : scannedNumber document "exp" = some claims.exp
  aud : (scannedText document "aud").map E.keccak256 = some (E.keccak256 claims.aud)
  secboot : scannedBool document "secboot" = some claims.secboot
  dbgstat : scannedText document "dbgstat" = claims.dbgstat
  imageDigest : (scannedText document "image_digest").map E.keccak256 =
    some (E.keccak256 (claims.imageDigest.getD []))

/-- The guest commits the claims with the values that the contract was called with. -/
structure ClaimsCommitted (claims : GcpCsClaims) (values : PublicValuesStruct H) : Prop where
  iat : claims.iat = values.validityWindowStart
  exp : claims.exp = values.validityWindowEnd
  aud : E.keccak256 claims.aud = values.audienceHash
  secboot : claims.secboot = values.secboot
  production : claims.isDebugDisabled = values.dbgstatDisabled
  imageDigest : E.keccak256 (claims.imageDigest.getD []) = values.imageDigestHash

/-- What the contract has checked of the claims. -/
structure ClaimsChecked (payload : Bytes) (values : PublicValuesStruct H) : Prop where
  iss : jsonGetString payload (ascii "iss") = some issuer
  iat : jsonGetU64 payload (ascii "iat") = some values.validityWindowStart
  exp : jsonGetU64 payload (ascii "exp") = some values.validityWindowEnd
  aud : (jsonGetString payload (ascii "aud")).map E.keccak256 = some values.audienceHash
  secboot : jsonGetBool payload (ascii "secboot") = some true
  production : jsonGetString payload (ascii "dbgstat") = some (ascii "disabled-since-boot")
  imageDigest : (jsonGetString payload (ascii "image_digest")).map E.keccak256 =
    some values.imageDigestHash
  flags : values.secboot = true ∧ values.dbgstatDisabled = true

variable {E} [DecidableEq H] {vm : Vm H} (same : SameMachine E vm)

include same

theorem checkClaims_ok (c : StylusAttestationVerifier H) (payload : Bytes) (kidHash : H)
    (values : PublicValuesStruct H) (h : c.checkClaims vm payload kidHash values = .ok ()) :
    ClaimsChecked E payload values ∧ kidHash = values.jwkKeyHash := by
  simp only [StylusAttestationVerifier.checkClaims, StylusAttestationVerifier.checkWindow,
    Outcome.throw_bind, Outcome.guard_ok, Outcome.bind_ok, not_not] at h
  obtain ⟨iss, hiss, rfl, -, ⟨iat, hiat, exp, hexp, window, -⟩, aud, haud, audience,
    secboot, hsecboot,
    agrees, required, dbgstat, disabled, imageDigest, himage, digest, -, key⟩ := h
  obtain ⟨rfl, rfl⟩ : iat = values.validityWindowStart ∧ exp = values.validityWindowEnd := by
    simpa only [not_or, not_not] using window
  have booted : values.secboot = true := by simpa using required
  have production : values.dbgstatDisabled = true := by simpa using disabled
  refine ⟨⟨Stylus.orInvalid_ok _ _ hiss, Stylus.orInvalid_ok _ _ hiat,
    Stylus.orInvalid_ok _ _ hexp, ?_, ?_, ?_, ?_, booted, production⟩, ?_⟩
  · rw [Stylus.orInvalid_ok _ _ haud, Option.map_some, ← same.keccak256, audience]
  · rw [Stylus.orInvalid_ok _ _ hsecboot, agrees, booted]
  · rw [production, Option.any_eq_true] at dbgstat
    obtain ⟨state, hstate, production⟩ := dbgstat
    rw [hstate, of_decide_eq_true production]
  · rw [Stylus.orInvalid_ok _ _ himage, Option.map_some, ← same.keccak256, digest]
  · by_cases named : kidHash = values.jwkKeyHash
    · exact named
    · rw [if_pos named] at key
      cases key

omit same

omit [DecidableEq H] in
/-- Where the scanner reads what `serde_json` does, the claims are as the values have them. -/
theorem claimsAlike_iff (payload : Bytes) (document : Document) (claims : GcpCsClaims)
    (values : PublicValuesStruct H) (wellFormed : parse payload = some document)
    (checked : ClaimsChecked E payload values) :
    ClaimsAlike E document claims ↔ claims.iss = issuer ∧ ClaimsCommitted E claims values := by
  have strings (name : String) (claim : IsClaimName (ascii name)) :
      scannedText document name = jsonGetString payload (ascii name) :=
    (jsonGetString_eq claim wellFormed).symm
  have numbers (name : String) (claim : IsClaimName (ascii name)) :
      scannedNumber document name = jsonGetU64 payload (ascii name) :=
    (jsonGetU64_eq claim wellFormed).symm
  have booleans (name : String) (claim : IsClaimName (ascii name)) :
      scannedBool document name = jsonGetBool payload (ascii name) :=
    (jsonGetBool_eq claim wellFormed).symm
  have state : claims.isDebugDisabled = values.dbgstatDisabled ↔
      some (ascii "disabled-since-boot") = claims.dbgstat := by
    rw [checked.flags.2, GcpCsClaims.isDebugDisabled, decide_eq_true_iff, eq_comm]
  constructor
  · intro alike
    have iss := alike.iss
    have iat := alike.iat
    have exp := alike.exp
    have aud := alike.aud
    have secboot := alike.secboot
    have dbgstat := alike.dbgstat
    have imageDigest := alike.imageDigest
    rw [strings _ (by decide +kernel), checked.iss] at iss
    rw [numbers _ (by decide +kernel), checked.iat] at iat
    rw [numbers _ (by decide +kernel), checked.exp] at exp
    rw [strings _ (by decide +kernel), checked.aud] at aud
    rw [booleans _ (by decide +kernel), checked.secboot] at secboot
    rw [strings _ (by decide +kernel), checked.production] at dbgstat
    rw [strings _ (by decide +kernel), checked.imageDigest] at imageDigest
    refine ⟨(Option.some.inj iss).symm, (Option.some.inj iat).symm, (Option.some.inj exp).symm,
      (Option.some.inj aud).symm, ?_, state.mpr dbgstat, (Option.some.inj imageDigest).symm⟩
    rw [checked.flags.1]
    exact (Option.some.inj secboot).symm
  · rintro ⟨iss, committed⟩
    refine ⟨?_, ?_, ?_, ?_, ?_, ?_, ?_⟩
    · rw [strings _ (by decide +kernel), checked.iss, iss]
    · rw [numbers _ (by decide +kernel), checked.iat, committed.iat]
    · rw [numbers _ (by decide +kernel), checked.exp, committed.exp]
    · rw [strings _ (by decide +kernel), checked.aud, committed.aud]
    · rw [booleans _ (by decide +kernel), checked.secboot, committed.secboot, checked.flags.1]
    · rw [strings _ (by decide +kernel), checked.production, state.mp committed.production]
    · rw [strings _ (by decide +kernel), checked.imageDigest, committed.imageDigest]

end Claims

section DropIn

variable {H : Type} (E : Environment H)

/-- The fields that do not come with the call. -/
structure SameFields (journal values : PublicValuesStruct H) : Prop where
  jwkKeyHash : journal.jwkKeyHash = values.jwkKeyHash
  validityWindowStart : journal.validityWindowStart = values.validityWindowStart
  validityWindowEnd : journal.validityWindowEnd = values.validityWindowEnd
  imageDigestHash : journal.imageDigestHash = values.imageDigestHash
  secboot : journal.secboot = values.secboot
  dbgstatDisabled : journal.dbgstatDisabled = values.dbgstatDisabled
  audienceHash : journal.audienceHash = values.audienceHash

/-- The library accepts the token for its own audience, and the journal of the guest
has these values. -/
def StandsIn (values : PublicValuesStruct H) (jwt : Bytes) (jwk : JwkKey)
    (evmPublicKey imageSignature : Bytes) : Prop :=
  ∃ parsed result signature, parseJwt E jwt = .ok parsed ∧
    verifyAttestation E jwt jwk (some parsed.claims.aud) none = .ok result ∧
    parseImageSignature imageSignature = .ok signature ∧
    guestMain E ⟨jwt, jwk, parsed.claims.aud, evmPublicKey, imageSignature⟩ =
      .ok (E.abiEncode (publicValues E result evmPublicKey signature)) ∧
    SameFields (publicValues E result evmPublicKey signature) values

/-- The key of a call, as it is given to the library. The contract finds it registered
under the key id. -/
structure SameKey (vm : Vm H) (proofBytes : Bytes) (jwk : JwkKey) : Prop where
  type : jwk.kty = ascii "RSA"
  used : ∃ key, Stylus.usedKey vm proofBytes = some (jwk.kid, key) ∧
    rsaKey jwk = some (fromBigEndian key.modulus, fromBigEndian key.exponent)

/-- The token has two dots, its header and payload are JSON that has the structure the library
wants, the scanner stops at members with the values that `serde_json` reads, a name of the software
is the known one, and the signature fits the key. -/
def Portable (proof : StylusProofData) : Prop :=
  (splitParts proof.jwt).isSome = true ∧
  ∃ jwt headerDocument header payloadDocument claims, Stylus.parseJwt proof.jwt = .ok jwt ∧
    (parse jwt.headerJson = some headerDocument ∧ JwtHeader.ofDocument headerDocument =
      some header ∧ HeaderAlike headerDocument header) ∧
    (parse jwt.payloadJson = some payloadDocument ∧
      GcpCsClaims.ofDocument payloadDocument = some claims ∧ ClaimsAlike E payloadDocument claims ∧
      checkSwname claims = .ok ()) ∧
    KeyFits E proof.jwkModulus proof.jwkExponent jwt.signature

omit E in
theorem decodeComponents_ok (jwk : JwkKey) (n e : Nat) (h : rsaKey jwk = some (n, e)) :
    decodeComponent "modulus" jwk.n = .ok n ∧ decodeComponent "exponent" jwk.e = .ok e := by
  rw [rsaKey] at h
  cases modulus : base64urlDecode jwk.n with
  | error e =>
    rw [modulus] at h
    cases h
  | ok bytes =>
    cases exponent : base64urlDecode jwk.e with
    | error e =>
      rw [modulus, exponent] at h
      cases h
    | ok bytes' =>
      rw [modulus, exponent] at h
      cases h
      exact ⟨decodeComponent_ok _ _ _ modulus, decodeComponent_ok _ _ _ exponent⟩

theorem checkClaims_own (claims : GcpCsClaims) :
    checkClaims claims (some claims.aud) none = .ok () ↔
      claims.iss = issuer ∧ checkSwname claims = .ok () := by
  have audience : checkAudience claims (some claims.aud) = .ok () := if_neg (not_not_intro rfl)
  simp only [checkClaims, Outcome.throw_bind, Outcome.guard_ok, Outcome.bind_ok, audience,
    checkTime, Outcome.ok_bind, and_true, Unique.exists_iff, PUnit.default_eq_unit, not_not, issuer]

/-- The parts of the agreement. -/
theorem standsIn_iff (values : PublicValuesStruct H) (jwt : Bytes) (jwk : JwkKey)
    (evmPublicKey imageSignature : Bytes) (address : evmPublicKey.length = 64)
    (image : imageSignature.length = 65) :
    StandsIn E values jwt jwk evmPublicKey imageSignature ↔
      ∃ parsed, parseJwt E jwt = .ok parsed ∧ parsed.header.alg = ascii "RS256" ∧
        parsed.header.kid = jwk.kid ∧ verifyRs256Signature E parsed jwk = .ok () ∧
        (parsed.claims.iss = issuer ∧ checkSwname parsed.claims = .ok ()) ∧
        E.keccak256 parsed.header.kid = values.jwkKeyHash ∧
          ClaimsCommitted E parsed.claims values := by
  have fields (parsed : ParsedJwt) (signature : UInt8 × Bytes × Bytes) :
      SameFields (publicValues E (.ofParsed parsed) evmPublicKey signature) values ↔
        E.keccak256 parsed.header.kid = values.jwkKeyHash ∧
          ClaimsCommitted E parsed.claims values := by
    have debug := publicValues_dbgstatDisabled E parsed evmPublicKey signature
    constructor
    · rintro ⟨key, iat, exp, digest, secboot, production, aud⟩
      exact ⟨key, iat, exp, aud, secboot, debug ▸ production, digest⟩
    · rintro ⟨key, iat, exp, aud, secboot, production, digest⟩
      exact ⟨key, iat, exp, digest, secboot, debug.trans production, aud⟩
  constructor
  · rintro ⟨parsed, result, signature, parses, verified, -, -, same⟩
    obtain ⟨parsed', parses', alg, kid, signed, claims, rfl⟩ :=
      (verifyAttestation_ok E _ _ _ _ _).mp verified
    obtain rfl := Except.ok.inj (parses.symm.trans parses')
    exact ⟨parsed, parses, alg, kid, signed, (checkClaims_own _).mp claims, (fields _ _).mp same⟩
  · rintro ⟨parsed, parses, alg, kid, signed, claims, same⟩
    have verified := (verifyAttestation_ok E jwt jwk (some parsed.claims.aud) none
      (.ofParsed parsed)).mpr
      ⟨parsed, parses, alg, kid, signed, (checkClaims_own _).mpr claims, rfl⟩
    have cut : parseImageSignature imageSignature = .ok (imageSignature.getD 64 0,
        imageSignature.take 32, (imageSignature.drop 32).take 32) := if_neg (not_not_intro image)
    refine ⟨parsed, _, _, parses, verified, cut, ?_, (fields _ _).mpr same⟩
    simp only [guestMain, address, ne_eq, not_true_eq_false, if_false, verified, cut]
    rfl

variable {E} [DecidableEq H] {vm : Vm H}

/-- The algorithm that the contract has read. -/
theorem checkSignature_alg (c : StylusAttestationVerifier H) (proof : StylusProofData)
    (jwt : Stylus.ParsedJwt) (kidHash : H) (h : c.checkSignature vm proof = .ok (jwt, kidHash)) :
    jsonGetString jwt.headerJson (ascii "alg") = some (ascii "RS256") := by
  unfold StylusAttestationVerifier.checkSignature at h
  cases parsed : Stylus.parseJwt proof.jwt with
  | error e =>
    rw [parsed] at h
    cases h
  | ok token =>
    simp only [parsed, Outcome.bind_ok, Outcome.throw_bind, Outcome.guard_ok, not_not] at h
    obtain ⟨alg, read, rfl, kid, -, -, -, _, -, returned⟩ := h
    cases returned
    exact Stylus.orInvalid_ok _ _ read

omit [DecidableEq H] in
theorem headerAlike_iff (text kid : Bytes) (document : Document) (header : JwtHeader)
    (wellFormed : parse text = some document)
    (alg : jsonGetString text (ascii "alg") = some (ascii "RS256"))
    (named : jsonGetString text (ascii "kid") = some kid) :
    HeaderAlike document header ↔ header.alg = ascii "RS256" ∧ header.kid = kid := by
  rw [jsonGetString_eq (by decide +kernel) wellFormed] at alg named
  constructor
  · rintro ⟨sameAlg, sameKid⟩
    exact ⟨Option.some.inj (sameAlg.symm.trans alg), Option.some.inj (sameKid.symm.trans named)⟩
  · rintro ⟨sameAlg, sameKid⟩
    exact ⟨alg.trans (congrArg some sameAlg.symm), named.trans (congrArg some sameKid.symm)⟩

/-- The guest stands in for the contract exactly on the portable tokens. -/
theorem dropIn_iff (rs256 : DecidesRs256 E) (json : E.ReadsJson) (same : SameMachine E vm)
    (c : StylusAttestationVerifier H) (publicValues proofBytes : Bytes)
    (values : PublicValuesStruct H) (proof : StylusProofData) (address : Address)
    (decoded : vm.decodePublicValues publicValues = some values)
    (proved : vm.decodeProofData proofBytes = some proof)
    (accepted : c.verifyAttestationProof vm publicValues proofBytes = .ok address) (jwk : JwkKey)
    (key : SameKey vm proofBytes jwk) (evmPublicKey imageSignature : Bytes)
    (point : evmPublicKey.length = 64) (image : imageSignature.length = 65) :
    StandsIn E values proof.jwt jwk evmPublicKey imageSignature ↔ Portable E proof := by
  obtain ⟨values', proof', jwt, kidHash, decoded', proved', signed, claimed, -⟩ :=
    Stylus.verify_ok vm _ _ _ _ accepted
  obtain rfl := Option.some.inj (decoded.symm.trans decoded')
  obtain rfl := Option.some.inj (proved.symm.trans proved')
  obtain ⟨cut, kid, named, rfl, -, -, verified⟩ := Stylus.checkSignature_ok vm _ _ _ _ signed
  have alg := checkSignature_alg c proof jwt _ signed
  obtain ⟨checked, keyHash⟩ := checkClaims_ok same c jwt.payloadJson _ values claimed
  obtain ⟨type, used, same_key, material⟩ := key
  obtain ⟨rfl, rfl⟩ : kid = jwk.kid ∧ ⟨proof.jwkModulus, proof.jwkExponent⟩ = used := by
    simpa [Stylus.usedKey, proved, cut, named, Except.toOption] using same_key
  obtain ⟨modulus, exponent⟩ := decodeComponents_ok jwk _ _ material
  have signature := rsaVerify_iff rs256 same _ _ _ _ verified (same.memory _ _ proved)
  have fits (parsed : ParsedJwt) (same_signature : parsed.signature = jwt.signature)
      (same_input : parsed.signingInput = jwt.signingInput) :
      verifyRs256Signature E parsed jwk = .ok () ↔
        KeyFits E proof.jwkModulus proof.jwkExponent jwt.signature := by
    rw [verifyRs256Signature_ok, ← signature, same_signature, same_input]
    constructor
    · rintro ⟨-, n, hn, e, he, checks⟩
      obtain rfl := Except.ok.inj (modulus.symm.trans hn)
      obtain rfl := Except.ok.inj (exponent.symm.trans he)
      exact checks
    · intro checks
      exact ⟨type, _, modulus, _, exponent, checks⟩
  rw [standsIn_iff E values proof.jwt jwk evmPublicKey imageSignature point image]
  constructor
  · rintro ⟨parsed, parses, rs, kid, signature, ⟨iss, software⟩, -, committed⟩
    obtain ⟨parts, header, claims, same_signature, same_input⟩ :=
      (parseJwt_iff E _ jwt cut parsed).mp parses
    rw [json.header] at header
    rw [json.claims] at claims
    obtain ⟨headerDocument, headerText, header⟩ := Option.bind_eq_some_iff.mp header
    obtain ⟨payloadDocument, payloadText, claims⟩ := Option.bind_eq_some_iff.mp claims
    refine ⟨parts, jwt, headerDocument, parsed.header, payloadDocument, parsed.claims, cut,
      ⟨headerText, header, ?_⟩, ⟨payloadText, claims, ?_, software⟩,
      (fits parsed same_signature same_input).mp signature⟩
    · exact (headerAlike_iff _ _ _ _ headerText alg named).mpr ⟨rs, kid⟩
    · exact (claimsAlike_iff _ _ _ _ payloadText checked).mpr ⟨iss, committed⟩
  · rintro ⟨parts, jwt', headerDocument, header, payloadDocument, claims, cut',
      ⟨headerText, hheader, headerAlike⟩, ⟨payloadText, hclaims, claimsAlike, software⟩, keyFits⟩
    obtain rfl := Except.ok.inj (cut.symm.trans cut')
    obtain ⟨rs, kid⟩ := (headerAlike_iff _ _ _ _ headerText alg named).mp headerAlike
    obtain ⟨iss, committed⟩ := (claimsAlike_iff _ _ _ _ payloadText checked).mp claimsAlike
    refine ⟨⟨header, claims, jwt.signature, jwt.signingInput⟩, ?_, rs, kid,
      (fits _ rfl rfl).mpr keyFits, ⟨iss, software⟩, ?_, committed⟩
    · refine (parseJwt_iff E _ jwt cut _).mpr ⟨parts, ?_, ?_, rfl, rfl⟩
      · rw [json.header]
        exact Option.bind_eq_some_iff.mpr ⟨headerDocument, headerText, hheader⟩
      · rw [json.claims]
        exact Option.bind_eq_some_iff.mpr ⟨payloadDocument, payloadText, hclaims⟩
    · change E.keccak256 header.kid = values.jwkKeyHash
      rw [kid, ← same.keccak256, keyHash]

end DropIn

namespace DropInSample

open SyndDB.RiscZero.Sample (signatureB64 modulusB64 claims evmPublicKey byteLength)
open SyndDB.Stylus.Sample
  (headerB64 kidHash audienceHash imageDigestHash imageSignatureR imageSignatureS imageSigner
  encodePublicValues decodePublicValues encodeProofData owner)

/-- The payload of the other token, for the audience `synddb\u0026co`. -/
def escapedPayloadB64 : Bytes := bigEndian 304
  0x65794a7063334d694f694a6f64485277637a6f764c324e76626d5a705a47567564476c6862474e766258423164476c755a79356e6232396e6247566863476c7a4c6d4e7662534973496e4e3159694936496e5a74496977695958566b496a6f6963336c755a475269584855774d444932593238694c434a70595851694f6a45334d4441774d4441774d444173496d5634634349364d5463774d4441774d7a59774d4377696332566a596d39766443493664484a315a5377695a474a6e6333526864434936496d5270633246696247566b4c584e70626d4e6c4c574a76623351694c434a7a64574a746232527a496a7037496d4e76626e52686157356c6369493665794a706257466e5a56396b6157646c633351694f694a7a614745794e54593659574a68596d46695957496966583139

/-- Signature and modulus of a key with two prime factors of 1024 bits. -/
def escapedSignatureB64 : Bytes := bigEndian 342
  0x6430596338334345727948315651324e745865476b71636444664c374f4a4e6962775f694d326b374b45687443364d73384d58615750474532503576664c7a654f476278384a5941344748756e4f7477456950457468506a676c774c534661626d4f4d4d446165526378506a446c2d6c4c525346727233755550524e56795461656e743876522d7a7749486d6a486f6b3939492d466632597a4b4f4a2d712d4f76324979614330715072434232764570496a38617a5f3161506f70445a4e31444378484a79666445745432302d3371525452654c4b5978712d65464b51504a4e69334c664e796e6865425634437a45426b37374c64692d3949784f78477146456167504a6f6d53684453375f774b3841446179467133744d51667672427133475153524c6f516a5755395a7158436b782d2d69352d315a63454661557666424f415f5561726b4171324a333131766e416f6235506367

def escapedModulusB64 : Bytes := bigEndian 342
  0x6e355764496a49754e79674f552d5f354962503231364e626662784673477643326935453747715633505138505476333649393466317836675a6a4f4263324e3470396439564a72736e41675261386b4d4338397275753148585a657639533358514a70716a636b474665504f4e5032496845395a483370747864545f322d5a58545769676c515a356d5043514a70554c536e79614a443957376d555f6c616d69686c71355255473675495f4153655263726a4c7169704156466f476f6c3057466d4a67356c7a464d467445336c4a69704f53426e354843726a7a6b586f39727248754669314b436731313346376d3639727a4a4944707242665556776b49533175754c6165725a684471707144733777385656686a6348434e335036764d366d3770324f4d5a72455651697142553272596b4347654a3151614e795f66306d2d525841686431484e465f527a3952775f31624a4751

def escapedInput : Bytes := headerB64 ++ 46 :: escapedPayloadB64

/-- The moduli as bytes. -/
def plainModulus : Bytes := bigEndian 256
  0xc5ab3717f6f01ae919818cb5f938e8312640cdd63d9dc1b9f397a8c27c699030e564add265b4ae7958094a3f49ce4621537074f521efd691be07601fe23028817b756ade7c53abb873cd0094a5f571245076ca4feacfbb850e4d634da03e48ade5453b14793500e4aa401184f3bac735374acdc7e4bd4b7a9ad3df77bc46376fcf450bf9894e2b2d9d1af686d993f0e4aa3111f2deac67620069dbad4c1efe086b3a70f4cf18e0e3ffdf2a68caee78eb5b177545001548925e0a6b904ca57e0f5f3c88df27db300f436ea0521597ded00e53028dbe6af7156c796a8786d4df331b45640d685b1a4123c6a3327c895d24b8f3c1288e6da1d9babb42d7d0ae4cfd

def escapedModulus : Bytes := bigEndian 256
  0x9f959d22322e37280e53eff921b3f6d7a35b7dbc45b06bc2da2e44ec6a95dcf43c3d3bf7e88f787f5c7a8198ce05cd8de29f5df5526bb2702045af24302f3daeebb51d765ebfd4b75d0269aa372418578f38d3f622113d647de9b71753ff6f995d35a2825419e663c2409a542d29f26890fd5bb994fe56a68a196ae51506eae23f01279172b8cbaa2a40545a06a25d16166260e65cc5305b44de5262a4e4819f91c2ae3ce45e8f6bac7b858b5282835d7717b9baf6bcc9203a6b05f515c24212d6eb8b69ead9843aa9a83b3bc3c55586370708ddcfeaf33a9bba7638c66b115422a81536ad890219e27541a372fdfd26f915c085dd47345fd1cfd470ff56c919

def plainProof : StylusProofData :=
  ⟨RiscZero.Sample.signingInput ++ 46 :: signatureB64, plainModulus, [3]⟩

def escapedProof : StylusProofData :=
  ⟨escapedInput ++ 46 :: escapedSignatureB64, escapedModulus, [3]⟩

/-- The hash of the audience as it is written. -/
def escapedAudienceHash : Bytes := bigEndian 32
  0x105d0ada7092253fa29930f4ba51a19c3a51ea1789e45d88becea14db9513922

def keccakTable : List (Bytes × Bytes) :=
  RiscZero.Sample.keccakTable ++
  [(ascii "synddb\\u0026co", escapedAudienceHash),
   (ascii "synddb&co", bigEndian 32
    0x00cd684f1748bf5d3c295e8b8b4944194ba8cd14020863cab0908c582b46fa16),
   (plainModulus ++ [3], bigEndian 32
    0x9b90231e6fe08d852c606276795fd0991e5bc209962bdfd2f32beec02d19713d),
   (escapedModulus ++ [3], bigEndian 32
    0xe710f607b9ae5d2a1f635a3f829425342edb5f0b480581d6216e3cb27092f166)]

def sha256 (message : Bytes) : Bytes :=
  if message = escapedInput then bigEndian 32
    0xe92b1363ab6adb9faf73f3bff455438fbf41a4872a36b293a4dc00a6d2470726
  else RiscZero.Sample.sha256 message

theorem modexp_input (base exponent modulus : Bytes) (hb : base.length < 2 ^ 32)
    (he : exponent.length < 2 ^ 32) (hm : modulus.length < 2 ^ 32) :
    Stylus.Sample.modexp (modexpInput base exponent modulus) = bigEndian modulus.length
      (fromBigEndian base ^ fromBigEndian exponent % fromBigEndian modulus) := by
  have word (n : Nat) (h : n < 2 ^ 32) : fromBigEndian (bigEndian 32 (n % 2 ^ 32)) = n := by
    rw [Nat.mod_eq_of_lt h]
    exact Stylus.Sample.number_word n (by omega)
  have whole : modexpInput base exponent modulus =
      bigEndian 32 (base.length % 2 ^ 32) ++ (bigEndian 32 (exponent.length % 2 ^ 32) ++
        (bigEndian 32 (modulus.length % 2 ^ 32) ++ (base ++ (exponent ++ modulus)))) := by
    simp [modexpInput]
  have first : (modexpInput base exponent modulus).take 32 =
      bigEndian 32 (base.length % 2 ^ 32) := by
    rw [whole, List.take_left' (length_bigEndian _ _)]
  have second : ((modexpInput base exponent modulus).drop 32).take 32 =
      bigEndian 32 (exponent.length % 2 ^ 32) := by
    rw [whole, List.drop_left' (length_bigEndian _ _), List.take_left' (length_bigEndian _ _)]
  have third : (modexpInput base exponent modulus).drop 64 =
      bigEndian 32 (modulus.length % 2 ^ 32) ++ (base ++ (exponent ++ modulus)) := by
    rw [whole, show 64 = 32 + 32 from rfl, ← List.drop_drop, List.drop_left' (length_bigEndian _ _),
      List.drop_left' (length_bigEndian _ _)]
  have rest : (modexpInput base exponent modulus).drop 96 = base ++ (exponent ++ modulus) := by
    rw [show 96 = 64 + 32 from rfl, ← List.drop_drop, third, List.drop_left' (length_bigEndian _ _)]
  simp only [Stylus.Sample.modexp, Stylus.Sample.modexp_power, first, second, third,
    List.take_left' (length_bigEndian _ _), word _ hb, word _ he, word _ hm, ← List.drop_drop, rest,
    List.take_left, List.drop_left, List.take_length]

def environment : Environment Bytes where
  parseHeader bytes := parse bytes >>= JwtHeader.ofDocument
  parseClaims bytes := parse bytes >>= GcpCsClaims.ofDocument
  rsaPublicKeyNew := RiscZero.Sample.environment.rsaPublicKeyNew
  signatureTryFrom _ := .ok ()
  rsaVerify n e message signature :=
    let k := byteLength n
    if 62 ≤ k ∧ signature.length = k ∧ fromBigEndian signature < n ∧
        bigEndian k (fromBigEndian signature ^ e % n) = emsaPkcs1v15 k (sha256 message) then .ok ()
    else .error "Verification"
  keccak256 := Shared.tabulated keccakTable
  asSlice := id
  fromSlice := id
  abiEncode := encodePublicValues id
  abiDecode := decodePublicValues id
  sha256 := sha256
  ecrecover := RiscZero.Sample.environment.ecrecover
  riscZeroVerify := RiscZero.Sample.environment.riscZeroVerify

def machine : Vm Bytes where
  nativeKeccak256 := environment.keccak256
  asSlice := id
  decodePublicValues := decodePublicValues id
  decodeProofData bytes := [plainProof, escapedProof].find? fun p => encodeProofData p = bytes
  staticCall
    | .ECRECOVER, input =>
        [(imageDigestHash ++ bigEndian 32 27 ++ imageSignatureR ++ imageSignatureS,
          bigEndian 32 imageSigner.toNat)].lookup input
    | .SHA256_PRECOMPILE, input => some (sha256 input)
    | .MODEXP_PRECOMPILE, input => some (Stylus.Sample.modexp input)
  blockTimestamp := 1700000100

theorem reads_json : environment.ReadsJson := ⟨fun _ => rfl, fun _ => rfl⟩

theorem decides_rs256 : DecidesRs256 environment where
  digest message := by
    change (sha256 message).length = 32
    unfold sha256
    split
    · exact length_bigEndian 32 _
    · exact RiscZero.Sample.implements_rs256.digest message
  publicKey n e h := by
    change (if n % 2 = 1 ∧ n < 2 ^ 4096 ∧ e % 2 = 1 ∧ 1 < e ∧ e < 2 ^ 33 ∧ e < n then Except.ok ()
      else Except.error "InvalidModulus") = _ at h
    split at h
    · rename_i key
      have odd : n % 2 = 1 := key.1
      rw [show MAX_SIZE = 4096 from rfl]
      exact ⟨by omega, key.2.1⟩
    · cases h
  signature _ _ := rfl
  verify k n e message signature _ low high := by
    have bytes := RiscZero.Sample.byteLength_eq k n low high
    change (if 62 ≤ byteLength n ∧ signature.length = byteLength n ∧ fromBigEndian signature < n ∧
      bigEndian (byteLength n) (fromBigEndian signature ^ e % n) =
        emsaPkcs1v15 (byteLength n) (sha256 message) then Except.ok ()
      else Except.error "Verification") = _ ↔ _
    rw [bytes]
    split
    · rename_i checks
      exact iff_of_true rfl checks
    · rename_i checks
      exact iff_of_false (fun h => by cases h) checks

theorem same_machine : SameMachine environment machine where
  keccak256 _ := rfl
  sha256 _ _ h := (Option.some.inj h).symm
  modexp base exponent modulus power hb he hm _ h := by
    rw [← Option.some.inj h]
    exact modexp_input base exponent modulus hb he hm
  memory bytes proof h := by
    have known := List.mem_of_find?_eq_some h
    have sizes : ∀ p ∈ [plainProof, escapedProof], p.jwkModulus.length < 2 ^ 32 ∧
        p.jwkExponent.length < 2 ^ 32 := by
      simp [plainProof, escapedProof, plainModulus, escapedModulus]
    exact sizes proof known

/-- The owner registers the key under the key id, the image and its signer. -/
def contract (key : Stylus.RsaKey) : StylusAttestationVerifier Bytes :=
  (Stylus.Registry.after machine []
    [(owner, .initializeVerifier 300), (owner, .addTrustedJwk kidHash key),
    (owner, .addAllowedImageDigestHash imageDigestHash),
    (owner, .addTrustedImageSigner imageSigner)]).contract

def keyOf (proof : StylusProofData) : Stylus.RsaKey := ⟨proof.jwkModulus, proof.jwkExponent⟩

def jwkOf (modulus : Bytes) : JwkKey :=
  ⟨some (ascii "RS256"), ascii "k1", ascii "RSA", modulus, ascii "Aw", some (ascii "sig")⟩

def values (audience : Bytes) : PublicValuesStruct Bytes :=
  ⟨kidHash, 1700000000, 1700003600, imageDigestHash, 5, true, true, audience, 27, imageSignatureR,
    imageSignatureS⟩

def imageSignature : Bytes := imageSignatureR ++ imageSignatureS ++ [27]

theorem length_imageSignature : imageSignature.length = 65 := by
  simp [imageSignature, imageSignatureR, imageSignatureS]

/-- The machine reads what the two calls encode, and the key that each of them uses. -/
theorem calls_decoded :
    (machine.decodeProofData (encodeProofData plainProof) = some plainProof ∧
      machine.decodePublicValues (encodePublicValues id (values audienceHash)) =
        some (values audienceHash) ∧
      Stylus.usedKey machine (encodeProofData plainProof) =
        some ((jwkOf modulusB64).kid, keyOf plainProof) ∧
      rsaKey (jwkOf modulusB64) = some (fromBigEndian plainModulus, 3)) ∧
    machine.decodeProofData (encodeProofData escapedProof) = some escapedProof ∧
      machine.decodePublicValues (encodePublicValues id (values escapedAudienceHash)) =
        some (values escapedAudienceHash) ∧
      Stylus.usedKey machine (encodeProofData escapedProof) =
        some ((jwkOf escapedModulusB64).kid, keyOf escapedProof) ∧
      rsaKey (jwkOf escapedModulusB64) = some (fromBigEndian escapedModulus, 3) := by
  decide +kernel

theorem same_keys : SameKey machine (encodeProofData plainProof) (jwkOf modulusB64) ∧
    SameKey machine (encodeProofData escapedProof) (jwkOf escapedModulusB64) :=
  ⟨⟨rfl, keyOf plainProof, calls_decoded.1.2.2.1, calls_decoded.1.2.2.2⟩,
    ⟨rfl, keyOf escapedProof, calls_decoded.2.2.2.1, calls_decoded.2.2.2.2⟩⟩

/-- The contract accepts both tokens. -/
theorem proofs_accepted :
    (contract (keyOf plainProof)).verifyAttestationProof machine
        (encodePublicValues id (values audienceHash)) (encodeProofData plainProof) = .ok 5 ∧
      (contract (keyOf escapedProof)).verifyAttestationProof machine
        (encodePublicValues id (values escapedAudienceHash)) (encodeProofData escapedProof) =
          .ok 5 := by
  decide +kernel

def headerDocument : Document :=
  .object (.member (ascii "alg") (.string (ascii "RS256"))
    (.member (ascii "kid") (.string (ascii "k1"))
    (.member (ascii "typ") (.string (ascii "JWT")) .noMember)))

def imageDocument : Document :=
  .object (.member (ascii "container") (.object (.member (ascii "image_digest")
    (.string (ascii "sha256:abababab")) .noMember)) .noMember)

def payloadDocument : Document :=
  .object (.member (ascii "iss") (.string issuer) (.member (ascii "sub") (.string (ascii "vm"))
    (.member (ascii "aud") (.string (ascii "synddb"))
      (.member (ascii "exp") (.number (ascii "1700003600"))
      (.member (ascii "iat") (.number (ascii "1700000000")) (.member (ascii "secboot") (.bool true)
        (.member (ascii "dbgstat") (.string (ascii "disabled-since-boot"))
          (.member (ascii "submods") imageDocument .noMember))))))))

theorem plain_portable : Portable environment plainProof := by
  refine ⟨by decide +kernel, ⟨RiscZero.Sample.headerJson, RiscZero.Sample.payloadJson,
    (base64urlDecode signatureB64).toOption.getD [], RiscZero.Sample.signingInput⟩, headerDocument,
      RiscZero.Sample.header,
    payloadDocument, claims, by decide +kernel, ?_, ?_, ?_⟩
  · exact ⟨by decide +kernel, by decide +kernel, by decide +kernel, by decide +kernel⟩
  · refine ⟨by decide +kernel, by decide +kernel, ?_, by decide +kernel⟩
    exact ⟨by decide +kernel, by decide +kernel, by decide +kernel, by decide +kernel,
      by decide +kernel, by decide +kernel, by decide +kernel⟩
  · exact ⟨by decide +kernel, by decide +kernel, by decide +kernel, by decide +kernel⟩

/-- A token with a plain payload. -/
theorem dropIn_iff_plain :
    StandsIn environment (values audienceHash) plainProof.jwt (jwkOf modulusB64) evmPublicKey
      imageSignature :=
  (dropIn_iff decides_rs256 reads_json same_machine (contract (keyOf plainProof))
    (encodePublicValues id (values audienceHash)) (encodeProofData plainProof) (values audienceHash)
    plainProof 5 calls_decoded.1.2.1 calls_decoded.1.1 proofs_accepted.1 (jwkOf modulusB64)
      same_keys.1
    evmPublicKey imageSignature (length_bigEndian 64 _) length_imageSignature).mpr plain_portable

/-- What the library reads in the token. -/
def escapedParsed : ParsedJwt :=
  ⟨RiscZero.Sample.header, { claims with aud := ascii "synddb&co" },
    (base64urlDecode escapedSignatureB64).toOption.getD [], escapedInput⟩

/-- The guest would commit another audience than the contract accepts. -/
theorem escaped_audience_differs :
    DecidesRs256 environment ∧ environment.ReadsJson ∧ SameMachine environment machine ∧
    ¬∀ (c : StylusAttestationVerifier Bytes) publicValues proofBytes values proof address jwk
      evmPublicKey imageSignature, machine.decodePublicValues publicValues = some values →
      machine.decodeProofData proofBytes = some proof →
      c.verifyAttestationProof machine publicValues proofBytes = .ok address →
      SameKey machine proofBytes jwk → evmPublicKey.length = 64 → imageSignature.length = 65 →
      StandsIn environment values proof.jwt jwk evmPublicKey imageSignature := by
  refine ⟨decides_rs256, reads_json, same_machine, fun standsIn => ?_⟩
  obtain ⟨parsed, result, signature, parses, verified, -, -, same⟩ :=
    standsIn (contract (keyOf escapedProof)) (encodePublicValues id (values escapedAudienceHash))
      (encodeProofData escapedProof) (values escapedAudienceHash) escapedProof 5
      (jwkOf escapedModulusB64) evmPublicKey imageSignature calls_decoded.2.2.1 calls_decoded.2.1
      proofs_accepted.2 same_keys.2 (length_bigEndian 64 _) length_imageSignature
  have read : parseJwt environment escapedProof.jwt = .ok escapedParsed := by decide +kernel
  obtain rfl := Except.ok.inj (read.symm.trans parses)
  obtain ⟨parsed, parses', -, -, -, -, rfl⟩ :=
    (verifyAttestation_ok environment _ _ _ _ _).mp verified
  obtain rfl := Except.ok.inj (read.symm.trans parses')
  have other : environment.keccak256 (ascii "synddb&co") ≠ escapedAudienceHash := by decide +kernel
  exact other same.audienceHash

end DropInSample

end SyndDB.RiscZero
