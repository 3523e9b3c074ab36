import SyndDB.Contracts.DataTypes
import SyndDB.Framework.Outcome
import SyndDB.Stylus.Jwt
import Mathlib.Logic.Function.Basic

namespace SyndDB.Stylus

open Octets
open SyndDB.Contracts (Address)

/-- Hashes are of an arbitrary type `H`, so that a hash function may be taken to be injective. -/
structure PublicValuesStruct (H : Type) where
  jwkKeyHash : H
  validityWindowStart : UInt64
  validityWindowEnd : UInt64
  imageDigestHash : H
  teeSigningKey : Address
  secboot : Bool
  dbgstatDisabled : Bool
  audienceHash : H
  imageSignatureV : UInt8
  imageSignatureR : H
  imageSignatureS : H
  deriving DecidableEq

structure StylusProofData where
  jwt : Bytes
  jwkModulus : Bytes
  jwkExponent : Bytes
  deriving DecidableEq

inductive VerifierError (H : Type) where
  | NotOwner (caller : Address)
  | AlreadyInitialized
  | InvalidJwt
  | UnsupportedAlgorithm
  | UntrustedJwk (kidHash : H)
  | JwkKeyMaterialMismatch (kidHash : H)
  | RsaVerificationFailed
  | InvalidIssuer
  | ValidityWindowNotStarted (start current : UInt64)
  | ValidityWindowExpired (finish current : UInt64)
  | ClaimsMismatch
  | SecureBootRequired
  | DebugModeNotAllowed
  | UntrustedImageDigest (digestHash : H)
  | UntrustedImageSigner (signer : Address)
  | ImageSignatureInvalid
  | EcrecoverFailed
  | InvalidProofData
  | InvalidPublicValues
  | PrecompileFailed
  | ZeroAddress
  | ToleranceExceedsOneDay
  deriving DecidableEq

inductive Precompile where
  | ECRECOVER
  | SHA256_PRECOMPILE
  | MODEXP_PRECOMPILE
  deriving DecidableEq

/-- The machine the contract runs on: hashing, decoding of its arguments, precompiles and the clock.
A call of a precompile may fail. -/
structure Vm (H : Type) where
  nativeKeccak256 : Bytes → H
  asSlice : H → Bytes
  decodePublicValues : Bytes → Option (PublicValuesStruct H)
  decodeProofData : Bytes → Option StylusProofData
  staticCall : Precompile → Bytes → Option Bytes
  blockTimestamp : UInt64

structure StylusAttestationVerifier (H : Type) where
  owner : Address
  initialized : Bool
  expirationTolerance : UInt64
  trustedJwkHashes : H → Bool
  jwkKeyMaterialHashes : H → H
  allowedImageDigestHashes : H → Bool
  trustedImageSigners : Address → Bool

variable {H : Type} [DecidableEq H]

section Precompiles

variable (vm : Vm H)

def ecrecoverCall (hash : H) (v : UInt8) (r s : H) : Except (VerifierError H) Address :=
  let input := vm.asSlice hash ++ bigEndian 32 v.toNat ++ vm.asSlice r ++ vm.asSlice s
  match vm.staticCall .ECRECOVER input with
  | some result =>
      if 32 ≤ result.length then
        .ok (BitVec.ofNat 160 (fromBigEndian ((result.drop 12).take 20)))
      else .error .EcrecoverFailed
  | none => .error .EcrecoverFailed

def sha256Call (data : Bytes) : Except (VerifierError H) Bytes :=
  match vm.staticCall .SHA256_PRECOMPILE data with
  | some result => if result.length = 32 then .ok result else .error .PrecompileFailed
  | none => .error .PrecompileFailed

/-- Lengths are cut down to 32 bits. -/
def modexpInput (base exponent modulus : Bytes) : Bytes :=
  bigEndian 32 (base.length % 2 ^ 32) ++ bigEndian 32 (exponent.length % 2 ^ 32) ++
    bigEndian 32 (modulus.length % 2 ^ 32) ++ base ++ exponent ++ modulus

def modexpCall (base exponent modulus : Bytes) : Except (VerifierError H) Bytes :=
  match vm.staticCall .MODEXP_PRECOMPILE (modexpInput base exponent modulus) with
  | some result => .ok result
  | none => .error .PrecompileFailed

def verifyRs256 (signingInput signature modulus exponent : Bytes) :
    Except (VerifierError H) Unit := do
  let hash ← sha256Call vm signingInput
  let decrypted ← modexpCall vm signature exponent modulus
  if !verifyPkcs1v15Sha256 decrypted hash then throw .RsaVerificationFailed

end Precompiles

namespace StylusAttestationVerifier

def onlyOwner (sender : Address) (c : StylusAttestationVerifier H) :
    Except (VerifierError H) Unit :=
  if sender ≠ c.owner then .error (.NotOwner sender) else .ok ()

section Verification

variable (vm : Vm H)

def keyMaterial (proof : StylusProofData) : Bytes := proof.jwkModulus ++ proof.jwkExponent

def orInvalid {α : Type} : Option α → Except (VerifierError H) α
  | some a => .ok a
  | none => .error .InvalidJwt

/-- The key a token names is trusted, the key material given for it has the stored hash, and the
signature verifies under it. -/
def checkSignature (c : StylusAttestationVerifier H) (proof : StylusProofData) :
    Except (VerifierError H) (ParsedJwt × H) := do
  match parseJwt proof.jwt with
  | .error _ => throw .InvalidJwt
  | .ok jwt =>
      let alg ← orInvalid (jsonGetString jwt.headerJson (ascii "alg"))
      if alg ≠ ascii "RS256" then throw .UnsupportedAlgorithm
      let kid ← orInvalid (jsonGetString jwt.headerJson (ascii "kid"))
      let kidHash := vm.nativeKeccak256 kid
      if !c.trustedJwkHashes kidHash then throw (.UntrustedJwk kidHash)
      if c.jwkKeyMaterialHashes kidHash ≠ vm.nativeKeccak256 (keyMaterial proof) then
        throw (.JwkKeyMaterialMismatch kidHash)
      verifyRs256 vm jwt.signingInput jwt.signature proof.jwkModulus proof.jwkExponent
      return (jwt, kidHash)

def checkWindow (c : StylusAttestationVerifier H) (payload : Bytes)
    (values : PublicValuesStruct H) :
    Except (VerifierError H) Unit := do
  let iat ← orInvalid (jsonGetU64 payload (ascii "iat"))
  let exp ← orInvalid (jsonGetU64 payload (ascii "exp"))
  if iat ≠ values.validityWindowStart ∨ exp ≠ values.validityWindowEnd then throw .ClaimsMismatch
  if vm.blockTimestamp < values.validityWindowStart then
    throw (.ValidityWindowNotStarted values.validityWindowStart vm.blockTimestamp)
  if values.validityWindowEnd + c.expirationTolerance < vm.blockTimestamp then
    throw (.ValidityWindowExpired values.validityWindowEnd vm.blockTimestamp)

/-- The claims of the payload against the public values. -/
def checkClaims (c : StylusAttestationVerifier H) (payload : Bytes) (kidHash : H)
    (values : PublicValuesStruct H) : Except (VerifierError H) Unit := do
  let iss ← orInvalid (jsonGetString payload (ascii "iss"))
  if iss ≠ ascii "https://confidentialcomputing.googleapis.com" then throw .InvalidIssuer
  c.checkWindow vm payload values
  let aud ← orInvalid (jsonGetString payload (ascii "aud"))
  if vm.nativeKeccak256 aud ≠ values.audienceHash then throw .ClaimsMismatch
  let secboot ← orInvalid (jsonGetBool payload (ascii "secboot"))
  if secboot ≠ values.secboot then throw .ClaimsMismatch
  if !values.secboot then throw .SecureBootRequired
  let dbgstatDisabled := (jsonGetString payload (ascii "dbgstat")).any fun d =>
    d = ascii "disabled-since-boot"
  if dbgstatDisabled ≠ values.dbgstatDisabled then throw .ClaimsMismatch
  if !values.dbgstatDisabled then throw .DebugModeNotAllowed
  let imageDigest ← orInvalid (jsonGetString payload (ascii "image_digest"))
  if vm.nativeKeccak256 imageDigest ≠ values.imageDigestHash then throw .ClaimsMismatch
  if !c.allowedImageDigestHashes values.imageDigestHash then
    throw (.UntrustedImageDigest values.imageDigestHash)
  if kidHash ≠ values.jwkKeyHash then throw .ClaimsMismatch

def checkImageSignature (c : StylusAttestationVerifier H) (values : PublicValuesStruct H) :
    Except (VerifierError H) Unit := do
  let imageSigner ← ecrecoverCall vm values.imageDigestHash values.imageSignatureV
    values.imageSignatureR values.imageSignatureS
  if imageSigner = 0 then throw .ImageSignatureInvalid
  if !c.trustedImageSigners imageSigner then throw (.UntrustedImageSigner imageSigner)

def verifyAttestationProof (c : StylusAttestationVerifier H) (publicValues proofBytes : Bytes) :
    Except (VerifierError H) Address := do
  match vm.decodePublicValues publicValues with
  | none => throw .InvalidPublicValues
  | some values =>
      match vm.decodeProofData proofBytes with
      | none => throw .InvalidProofData
      | some proof =>
          let (jwt, kidHash) ← c.checkSignature vm proof
          c.checkClaims vm jwt.payloadJson kidHash values
          c.checkImageSignature vm values
          return values.teeSigningKey

end Verification

def initializeVerifier (sender : Address) (expirationTolerance : UInt64)
    (c : StylusAttestationVerifier H) : Except (VerifierError H) (StylusAttestationVerifier H) :=
  if c.initialized then .error .AlreadyInitialized
  else if 86400 < expirationTolerance then .error .ToleranceExceedsOneDay
  else .ok { c with
    owner := sender, expirationTolerance := expirationTolerance, initialized := true }

variable (zero : H) (sender : Address) (c : StylusAttestationVerifier H)

/-- A change only the owner may make. -/
def asOwner (c' : StylusAttestationVerifier H) :
    Except (VerifierError H) (StylusAttestationVerifier H) := do
  c.onlyOwner sender
  return c'

def addTrustedJwk (kidHash keyMaterialHash : H) :
    Except (VerifierError H) (StylusAttestationVerifier H) :=
  c.asOwner sender { c with
    trustedJwkHashes := Function.update c.trustedJwkHashes kidHash true
    jwkKeyMaterialHashes := Function.update c.jwkKeyMaterialHashes kidHash keyMaterialHash }

def removeTrustedJwk (kidHash : H) : Except (VerifierError H) (StylusAttestationVerifier H) :=
  c.asOwner sender { c with
    trustedJwkHashes := Function.update c.trustedJwkHashes kidHash false
    jwkKeyMaterialHashes := Function.update c.jwkKeyMaterialHashes kidHash zero }

def addAllowedImageDigestHash (digestHash : H) :
    Except (VerifierError H) (StylusAttestationVerifier H) :=
  c.asOwner sender { c with
    allowedImageDigestHashes := Function.update c.allowedImageDigestHashes digestHash true }

def removeAllowedImageDigestHash (digestHash : H) :
    Except (VerifierError H) (StylusAttestationVerifier H) :=
  c.asOwner sender { c with
    allowedImageDigestHashes := Function.update c.allowedImageDigestHashes digestHash false }

def addTrustedImageSigner (signer : Address) :
    Except (VerifierError H) (StylusAttestationVerifier H) :=
  c.asOwner sender { c with
    trustedImageSigners := Function.update c.trustedImageSigners signer true }

def removeTrustedImageSigner (signer : Address) :
    Except (VerifierError H) (StylusAttestationVerifier H) :=
  c.asOwner sender { c with
    trustedImageSigners := Function.update c.trustedImageSigners signer false }

def transferOwnership (newOwner : Address) :
    Except (VerifierError H) (StylusAttestationVerifier H) := do
  c.onlyOwner sender
  if newOwner = 0 then throw .ZeroAddress
  return { c with owner := newOwner }

/-- The contract before any call. -/
def deployed : StylusAttestationVerifier H :=
  ⟨0, false, 0, fun _ => false, fun _ => zero, fun _ => false, fun _ => false⟩

end StylusAttestationVerifier

end SyndDB.Stylus
