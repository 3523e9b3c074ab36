import SyndDB.RiscZero.Guest

namespace SyndDB.RiscZero

open Octets
open SyndDB.Contracts (Address UInt256)
open SyndDB.Stylus (PublicValuesStruct)

inductive VerifierError (H : Type) where
  | InvalidVerifierAddress
  | InvalidImageId
  | ToleranceExceedsOneDay
  | UntrustedJwkHash (jwkHash : H)
  | ValidityWindowNotStarted (start current : UInt64)
  | ValidityWindowExpired (finish current : UInt64)
  | SecureBootRequired
  | DebugModeNotAllowed
  | UntrustedImageDigest (digestHash : H)
  | UntrustedImageSigner (signer : Address)
  | ImageSignatureInvalid
  | OwnableUnauthorizedAccount (account : Address)
  -- reverts of `abi.decode`, of checked arithmetic and of the proof verifier
  | MalformedPublicValues
  | ArithmeticOverflow
  | ProofRejected
  deriving DecidableEq

/-- The contract `RiscZeroAttestationVerifier`, with its immutables. -/
structure RiscZeroAttestationVerifier (H : Type) where
  verifier : Address
  imageId : H
  expirationTolerance : UInt64
  owner : Address
  trustedJwkHashes : H → Bool
  allowedImageDigestHashes : H → Bool
  trustedImageSigners : Address → Bool

variable {H : Type} [DecidableEq H]

/-- The constructor. `zero` is the hash value of zero bytes. -/
def RiscZeroAttestationVerifier.construct (zero : H) (sender _verifier : Address) (_imageId : H)
    (_expirationTolerance : UInt64) : Except (VerifierError H) (RiscZeroAttestationVerifier H) :=
  if _verifier = 0 then .error .InvalidVerifierAddress
  else if _imageId = zero then .error .InvalidImageId
  else if 86400 < _expirationTolerance then .error .ToleranceExceedsOneDay
  else .ok ⟨_verifier, _imageId, _expirationTolerance, sender, fun _ => false, fun _ => false,
    fun _ => false⟩

namespace RiscZeroAttestationVerifier

def checkWindow (c : RiscZeroAttestationVerifier H) (timestamp : UInt256)
    (values : PublicValuesStruct H) : Except (VerifierError H) Unit := do
  let current := UInt64.ofNat timestamp.toNat
  if timestamp.toNat < values.validityWindowStart.toNat then
    throw (.ValidityWindowNotStarted values.validityWindowStart current)
  if 2 ^ 64 ≤ values.validityWindowEnd.toNat + c.expirationTolerance.toNat then
    throw .ArithmeticOverflow
  if values.validityWindowEnd.toNat + c.expirationTolerance.toNat < timestamp.toNat then
    throw (.ValidityWindowExpired values.validityWindowEnd current)

def checkImageSignature (E : Environment H) (c : RiscZeroAttestationVerifier H)
    (values : PublicValuesStruct H) : Except (VerifierError H) Unit := do
  let signer := E.ecrecover values.imageDigestHash values.imageSignatureV values.imageSignatureR
    values.imageSignatureS
  if signer = 0 then throw .ImageSignatureInvalid
  if !c.trustedImageSigners signer then throw (.UntrustedImageSigner signer)

def verifyAttestationProof (E : Environment H) (c : RiscZeroAttestationVerifier H)
    (timestamp : UInt256) (publicValues proofBytes : Bytes) : Except (VerifierError H) Address := do
  match E.abiDecode publicValues with
  | none => throw .MalformedPublicValues
  | some values =>
      if !c.trustedJwkHashes values.jwkKeyHash then throw (.UntrustedJwkHash values.jwkKeyHash)
      c.checkWindow timestamp values
      if !values.secboot then throw .SecureBootRequired
      if !values.dbgstatDisabled then throw .DebugModeNotAllowed
      if !c.allowedImageDigestHashes values.imageDigestHash then
        throw (.UntrustedImageDigest values.imageDigestHash)
      c.checkImageSignature E values
      if !E.riscZeroVerify c.verifier proofBytes c.imageId (E.sha256 publicValues) then
        throw .ProofRejected
      return values.teeSigningKey

variable (sender : Address) (c : RiscZeroAttestationVerifier H)

/-- A change that only the owner may make. -/
def asOwner (c' : RiscZeroAttestationVerifier H) :
    Except (VerifierError H) (RiscZeroAttestationVerifier H) :=
  if sender ≠ c.owner then .error (.OwnableUnauthorizedAccount sender) else .ok c'

def addTrustedJwkHash (jwkHash : H) : Except (VerifierError H) (RiscZeroAttestationVerifier H) :=
  c.asOwner sender { c with trustedJwkHashes := Function.update c.trustedJwkHashes jwkHash true }

def removeTrustedJwkHash (jwkHash : H) : Except (VerifierError H) (RiscZeroAttestationVerifier H) :=
  c.asOwner sender { c with trustedJwkHashes := Function.update c.trustedJwkHashes jwkHash false }

def addAllowedImageDigestHash (digestHash : H) :
    Except (VerifierError H) (RiscZeroAttestationVerifier H) :=
  c.asOwner sender { c with
    allowedImageDigestHashes := Function.update c.allowedImageDigestHashes digestHash true }

def removeAllowedImageDigestHash (digestHash : H) :
    Except (VerifierError H) (RiscZeroAttestationVerifier H) :=
  c.asOwner sender { c with
    allowedImageDigestHashes := Function.update c.allowedImageDigestHashes digestHash false }

def addTrustedImageSigner (signer : Address) :
    Except (VerifierError H) (RiscZeroAttestationVerifier H) :=
  c.asOwner sender { c with
    trustedImageSigners := Function.update c.trustedImageSigners signer true }

def removeTrustedImageSigner (signer : Address) :
    Except (VerifierError H) (RiscZeroAttestationVerifier H) :=
  c.asOwner sender { c with
    trustedImageSigners := Function.update c.trustedImageSigners signer false }

end RiscZeroAttestationVerifier

end SyndDB.RiscZero
