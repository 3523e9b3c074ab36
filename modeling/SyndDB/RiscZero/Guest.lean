import SyndDB.Stylus.AttestationVerifier

namespace SyndDB.RiscZero

open Octets
open SyndDB.Contracts (Address)
open SyndDB.Stylus (PublicValuesStruct isUtf8 splitDot base64urlDecode)

/-- Text is given by its UTF-8 bytes. -/
structure JwtHeader where
  alg : Bytes
  kid : Bytes
  typ : Option Bytes
  deriving DecidableEq

structure ContainerInfo where
  imageDigest : Option Bytes
  imageReference : Option Bytes
  deriving DecidableEq

structure SubMods where
  container : Option ContainerInfo
  deriving DecidableEq

structure GcpCsClaims where
  iss : Bytes
  sub : Bytes
  aud : Bytes
  exp : UInt64
  iat : UInt64
  nbf : UInt64
  secboot : Bool
  hwmodel : Option Bytes
  swname : Option Bytes
  dbgstat : Option Bytes
  eatNonce : Option Bytes
  submods : Option SubMods
  deriving DecidableEq

def GcpCsClaims.imageDigest (claims : GcpCsClaims) : Option Bytes := do
  let submods ← claims.submods
  let container ← submods.container
  container.imageDigest

/-- The debug status of a production machine. -/
def GcpCsClaims.isDebugDisabled (claims : GcpCsClaims) : Bool :=
  claims.dbgstat = some (ascii "disabled-since-boot")

structure JwkKey where
  alg : Option Bytes
  kid : Bytes
  kty : Bytes
  n : Bytes
  e : Bytes
  use : Option Bytes
  deriving DecidableEq

structure ParsedJwt where
  header : JwtHeader
  claims : GcpCsClaims
  signature : Bytes
  signingInput : Bytes
  deriving DecidableEq

inductive VerificationError where
  | JwtParseError (message : String)
  | UnsupportedAlgorithm (alg : Bytes)
  | KeyNotFound (kid : Bytes)
  | InvalidKeyType (kty : Bytes)
  | KeyDecodeError (component : String)
  | RsaKeyError (message : String)
  | SignatureVerificationFailed (message : String)
  | InvalidIssuer (iss : Bytes)
  | InvalidSwname (swname : Bytes)
  | InvalidAudience (expected actual : Bytes)
  | TokenExpired (exp : UInt64)
  | TokenNotYetValid (nbf : UInt64)
  deriving DecidableEq

/-- Libraries around the two programs. JSON is read by `serde_json`, RSA is the `rsa` crate with
SHA-256, and the hash values of keccak256 are of an arbitrary type, so that it may be injective. -/
structure Environment (H : Type) where
  parseHeader : Bytes → Option JwtHeader
  parseClaims : Bytes → Option GcpCsClaims
  rsaPublicKeyNew : (n e : Nat) → Except String Unit
  signatureTryFrom : Bytes → Except String Unit
  rsaVerify : (n e : Nat) → (message signature : Bytes) → Except String Unit
  keccak256 : Bytes → H
  asSlice : H → Bytes
  fromSlice : Bytes → H
  abiEncode : PublicValuesStruct H → Bytes
  abiDecode : Bytes → Option (PublicValuesStruct H)
  sha256 : Bytes → Bytes
  ecrecover : (hash : H) → (v : UInt8) → (r s : H) → Address
  riscZeroVerify : (verifier : Address) → (proof : Bytes) → (imageId : H) →
    (journalDigest : Bytes) → Bool

variable {H : Type} (E : Environment H)

/-- Header, payload and signature of a token with exactly two dots. -/
def splitParts (token : Bytes) : Option (Bytes × Bytes × Bytes) :=
  match splitDot token with
  | none => none
  | some (header, rest) =>
      match splitDot rest with
      | none => none
      | some (payload, signature) =>
          if 46 ∈ signature then none else some (header, payload, signature)

def orParseError {α : Type} (message : String) : Option α → Except String α
  | some a => .ok a
  | none => .error message

def parseJwt (token : Bytes) : Except String ParsedJwt := do
  if !isUtf8 token then throw "Invalid UTF-8 in JWT"
  let (headerB64, payloadB64, signatureB64) ← orParseError "JWT must have 3 parts"
    (splitParts token)
  let headerBytes ← base64urlDecode headerB64
  let header ← orParseError "Failed to parse JWT header" (E.parseHeader headerBytes)
  let payloadBytes ← base64urlDecode payloadB64
  let claims ← orParseError "Failed to parse JWT claims" (E.parseClaims payloadBytes)
  let signature ← base64urlDecode signatureB64
  return ⟨header, claims, signature, headerB64 ++ 46 :: payloadB64⟩

/-- A component of the key, as a number. -/
def decodeComponent (name : String) (text : Bytes) : Except VerificationError Nat :=
  match base64urlDecode text with
  | .ok bytes => .ok (fromBigEndian bytes)
  | .error _ => .error (.KeyDecodeError name)

def verifyRs256Signature (parsed : ParsedJwt) (jwk : JwkKey) : Except VerificationError Unit := do
  if jwk.kty ≠ ascii "RSA" then throw (.InvalidKeyType jwk.kty)
  let n ← decodeComponent "modulus" jwk.n
  let e ← decodeComponent "exponent" jwk.e
  (E.rsaPublicKeyNew n e).mapError .RsaKeyError
  (E.signatureTryFrom parsed.signature).mapError .SignatureVerificationFailed
  (E.rsaVerify n e parsed.signingInput parsed.signature).mapError .SignatureVerificationFailed

structure ValidationResult where
  signingKeyId : Bytes
  validityWindowStart : UInt64
  validityWindowEnd : UInt64
  imageDigest : Bytes
  secboot : Bool
  audience : Bytes
  nonce : Option Bytes
  dbgstat : Bytes
  hwmodel : Bytes
  deriving DecidableEq

def checkSwname (claims : GcpCsClaims) : Except VerificationError Unit :=
  match claims.swname with
  | none => .ok ()
  | some swname =>
      if swname ≠ ascii "CONFIDENTIAL_SPACE" then .error (.InvalidSwname swname) else .ok ()

def checkAudience (claims : GcpCsClaims) : Option Bytes → Except VerificationError Unit
  | none => .ok ()
  | some expected =>
      if claims.aud ≠ expected then .error (.InvalidAudience expected claims.aud) else .ok ()

def checkTime (claims : GcpCsClaims) : Option UInt64 → Except VerificationError Unit
  | none => .ok ()
  | some now =>
      if claims.exp ≤ now then .error (.TokenExpired claims.exp)
      else if 0 < claims.nbf ∧ now < claims.nbf then .error (.TokenNotYetValid claims.nbf)
      else .ok ()

/-- The checks on the claims, once the signature is verified. -/
def checkClaims (claims : GcpCsClaims) (expectedAudience : Option Bytes)
    (currentTime : Option UInt64) :
    Except VerificationError Unit := do
  if claims.iss ≠ ascii "https://confidentialcomputing.googleapis.com" then
    throw (.InvalidIssuer claims.iss)
  checkSwname claims
  checkAudience claims expectedAudience
  checkTime claims currentTime

def ValidationResult.ofParsed (parsed : ParsedJwt) : ValidationResult where
  signingKeyId := parsed.header.kid
  validityWindowStart := parsed.claims.iat
  validityWindowEnd := parsed.claims.exp
  imageDigest := parsed.claims.imageDigest.getD []
  secboot := parsed.claims.secboot
  audience := parsed.claims.aud
  nonce := parsed.claims.eatNonce
  dbgstat := parsed.claims.dbgstat.getD []
  hwmodel := parsed.claims.hwmodel.getD []

def verifyAttestation (jwtBytes : Bytes) (jwk : JwkKey) (expectedAudience : Option Bytes)
    (currentTime : Option UInt64) : Except VerificationError ValidationResult := do
  let parsed ← (parseJwt E jwtBytes).mapError .JwtParseError
  if parsed.header.alg ≠ ascii "RS256" then throw (.UnsupportedAlgorithm parsed.header.alg)
  if parsed.header.kid ≠ jwk.kid then throw (.KeyNotFound parsed.header.kid)
  verifyRs256Signature E parsed jwk
  checkClaims parsed.claims expectedAudience currentTime
  return .ofParsed parsed

/-- What the prover gives to the guest. -/
structure GuestInput where
  jwtBytes : Bytes
  jwk : JwkKey
  expectedAudience : Bytes
  evmPublicKey : Bytes
  imageSignature : Bytes
  deriving DecidableEq

/-- Why the guest stops without a journal. -/
inductive Panic where
  | EvmPublicKeyLength
  | InvalidAttestation (e : VerificationError)
  | ImageSignatureLength
  deriving DecidableEq

def Panic.message : Panic → String
  | .EvmPublicKeyLength => "EVM public key must be exactly 64 bytes"
  | .InvalidAttestation _ => "Invalid GCP Confidential Space attestation"
  | .ImageSignatureLength => "Image signature must be exactly 65 bytes (r || s || v)"

/-- `v`, `r` and `s` of `r || s || v`. -/
def parseImageSignature (signatureBytes : Bytes) : Except Panic (UInt8 × Bytes × Bytes) :=
  if signatureBytes.length ≠ 65 then .error .ImageSignatureLength
  else .ok (signatureBytes.getD 64 0, signatureBytes.take 32, (signatureBytes.drop 32).take 32)

def publicValues (result : ValidationResult) (evmPublicKey : Bytes)
    (signature : UInt8 × Bytes × Bytes) : PublicValuesStruct H where
  jwkKeyHash := E.keccak256 result.signingKeyId
  validityWindowStart := result.validityWindowStart
  validityWindowEnd := result.validityWindowEnd
  imageDigestHash := E.keccak256 result.imageDigest
  teeSigningKey := BitVec.ofNat 160 (fromBigEndian ((E.asSlice (E.keccak256 evmPublicKey)).drop 12))
  secboot := result.secboot
  dbgstatDisabled := result.dbgstat = ascii "disabled-since-boot"
  audienceHash := E.keccak256 result.audience
  imageSignatureV := signature.1
  imageSignatureR := E.fromSlice signature.2.1
  imageSignatureS := E.fromSlice signature.2.2

/-- The journal that the guest commits. -/
def guestMain (input : GuestInput) : Except Panic Bytes := do
  if input.evmPublicKey.length ≠ 64 then throw .EvmPublicKeyLength
  let result ← (verifyAttestation E input.jwtBytes input.jwk (some input.expectedAudience)
    none).mapError .InvalidAttestation
  let signature ← parseImageSignature input.imageSignature
  return E.abiEncode (publicValues E result input.evmPublicKey signature)

/-- The modulus and exponent of the key that is given for the token. -/
def rsaKey (jwk : JwkKey) : Option (Nat × Nat) := do
  let n ← (base64urlDecode jwk.n).toOption
  let e ← (base64urlDecode jwk.e).toOption
  return (fromBigEndian n, fromBigEndian e)

end SyndDB.RiscZero
