import SyndDB.Contracts.DataTypes
import SyndDB.Framework.Keccak
import SyndDB.Framework.Text
import Mathlib.Data.List.Infix

namespace SyndDB.Relayer

open Octets Text
open Contracts (Address Bytes32 KeyType word packedAddress)

structure ApplicationConfig where
  audience : String
  allowedImageDigests : List Bytes32
  deriving DecidableEq

structure RelayerConfig where
  rpcUrl : String
  chainId : UInt64
  bridgeAddress : Address
  privateKey : String
  listenAddr : String
  txConfirmationTimeout : UInt64
  validatorUrl : Option String
  applications : List (Bytes32 × ApplicationConfig)
  deriving DecidableEq

/-- `HashMap::insert` -/
def insertApplication (hash : Bytes32) (app : ApplicationConfig)
    (apps : List (Bytes32 × ApplicationConfig)) : List (Bytes32 × ApplicationConfig) :=
  (hash, app) :: apps.filter fun entry => entry.1 ≠ hash

def RelayerConfig.getApplication (config : RelayerConfig) (audienceHash : Bytes32) :
    Option ApplicationConfig :=
  (config.applications.find? fun entry => entry.1 = audienceHash).map Prod.snd

def b256 (bytes : Bytes) : Bytes32 := BitVec.ofNat 256 (fromBigEndian bytes)

def computeAudienceHash (audience : String) : Bytes32 := b256 (Keccak.keccak256 (utf8 audience))

def parseB256 (s : List Char) : Option Bytes32 := do
  let bytes ← (decodeHex (trimStart0x (utf8 (String.ofList (trim s))))).toOption
  if bytes.length = 32 then some (b256 bytes) else none

/-- The entries of a list that is given as one text. -/
def splitComma (s : List Char) : List (List Char) := s.splitOn ','

structure CliConfig where
  rpcUrl : Option String
  chainId : Option UInt64
  bridgeAddress : Option Address
  privateKey : Option String
  listenAddr : String
  txConfirmationTimeoutSecs : UInt64
  requiredAudience : Option String
  allowedImageDigests : Option String
  validatorUrl : Option String

def required {α : Type} (name : String) : Option α → Except String α
  | some a => .ok a
  | none => .error (name ++ " is required")

/-- An empty text stands for an empty list. -/
def parseAllowedDigests (text : String) : List Bytes32 :=
  if text = "" then [] else (splitComma text.toList).filterMap fun s => parseB256 (trim s)

def fromEnv (cli : CliConfig) : Except String RelayerConfig := do
  let rpcUrl ← required "RPC_URL" cli.rpcUrl
  let chainId ← required "CHAIN_ID" cli.chainId
  let bridgeAddress ← required "BRIDGE_CONTRACT_ADDRESS" cli.bridgeAddress
  let privateKey ← required "RELAYER_PRIVATE_KEY" cli.privateKey
  let allowedDigestsStr ← required "ALLOWED_IMAGE_DIGESTS" cli.allowedImageDigests
  let audience ← required "REQUIRED_AUDIENCE" cli.requiredAudience
  let key := trimStart0x (utf8 privateKey)
  if key.length ≠ 64 ∨ (decodeHex key).isOk = false then
    throw "RELAYER_PRIVATE_KEY must be a 32-byte hex string"
  return ⟨rpcUrl, chainId, bridgeAddress, privateKey, cli.listenAddr, cli.txConfirmationTimeoutSecs,
    cli.validatorUrl, insertApplication (computeAudienceHash audience)
      ⟨audience, parseAllowedDigests allowedDigestsStr⟩ []⟩

/-- An application of the configuration file, with its digests as they are written. -/
structure ApplicationEntry where
  audience : String
  allowedImageDigests : List String

structure ConfigFile where
  rpcUrl : String
  chainId : UInt64
  bridgeAddress : Address
  privateKey : String
  listenAddr : String
  txConfirmationTimeoutSecs : UInt64
  validatorUrl : Option String
  applications : List ApplicationEntry

-- how serde reads a digest
variable (deserializeB256 : String → Except String Bytes32)

def ApplicationEntry.read (entry : ApplicationEntry) : Except String ApplicationConfig := do
  return ⟨entry.audience, ← entry.allowedImageDigests.mapM deserializeB256⟩

/-- A digest that cannot be read is an error of the whole file; of two applications with one
audience the later one stays. -/
def fromFile (config : ConfigFile) : Except String RelayerConfig := do
  let applications ← (config.applications.mapM (ApplicationEntry.read deserializeB256)).mapError
    ("Failed to parse config file: " ++ ·)
  if applications.isEmpty then throw "Config file must contain at least one [[application]]"
  return ⟨config.rpcUrl, config.chainId, config.bridgeAddress, config.privateKey, config.listenAddr,
    config.txConfirmationTimeoutSecs, config.validatorUrl,
    applications.foldl (fun apps app => insertApplication (computeAudienceHash app.audience)
      app apps) []⟩

structure RegisterKeyRequest where
  publicValues : String
  proofBytes : String
  deadline : UInt64
  signature : String
  keyType : KeyType

structure RegisterKeyResponse where
  registeredKey : Option String
  txHash : Option String
  error : Option String
  deriving DecidableEq

structure AttestationFields where
  imageDigestHash : Bytes32
  teeSigningKey : Address
  audienceHash : Bytes32
  deriving DecidableEq

def extractAttestationFields (publicValues : Bytes) : Option AttestationFields :=
  if publicValues.length < 352 then none
  else some
    { imageDigestHash := b256 ((publicValues.drop 96).take 32)
      teeSigningKey := BitVec.ofNat 160 (fromBigEndian ((publicValues.drop 140).take 20))
      audienceHash := b256 ((publicValues.drop 224).take 32) }

def MAX_DEADLINE_FUTURE_SECS : UInt64 := 86400

abbrev Answer := Nat × RegisterKeyResponse

def refuse (status : Nat) (error : String) : Answer := (status, ⟨none, none, some error⟩)

def parseHexField (name : String) (field : String) : Except Answer Bytes :=
  (decodeHex (trimStart0x (utf8 field))).mapError fun e =>
    refuse 400 ("Invalid " ++ name ++ " hex: " ++ e.display)

/-- A request that has passed all checks of the relayer. -/
structure Admitted where
  publicValues : Bytes
  proofBytes : Bytes
  deadline : UInt64
  signature : Bytes
  keyType : KeyType
  attestation : AttestationFields
  deriving DecidableEq

/-- The checks of `register_key`, up to the first question to the chain. -/
def checkRequest (config : RelayerConfig) (now : UInt64) (request : RegisterKeyRequest) :
    Except Answer Admitted := do
  let publicValues ← parseHexField "public_values" request.publicValues
  match extractAttestationFields publicValues with
  | none => throw (refuse 400 "Could not extract attestation fields from public_values")
  | some attestation =>
      match config.getApplication attestation.audienceHash with
      | none => throw (refuse 403 "Unknown application: audience_hash not configured")
      | some app =>
          if ¬(app.allowedImageDigests = [] ∨
              attestation.imageDigestHash ∈ app.allowedImageDigests) then
            throw (refuse 403 "Image digest not in allowlist for this application")
          if request.deadline ≤ now then throw (refuse 400 "Deadline is in the past")
          if request.deadline > now + MAX_DEADLINE_FUTURE_SECS then
            throw (refuse 400 ("Deadline too far in the future (max " ++
              toString MAX_DEADLINE_FUTURE_SECS ++ " seconds)"))
          let proofBytes ← parseHexField "proof_bytes" request.proofBytes
          let signature ← parseHexField "signature" request.signature
          return ⟨publicValues, proofBytes, request.deadline, signature, request.keyType,
            attestation⟩

/-- What the chain answers while a request is handled. -/
structure RelayerSubmitter where
  isKeyValid : KeyType → Address → Except String Bool
  registerKey : KeyType → (publicValues proofBytes : Bytes) → (deadline : UInt64) →
    (signature : Bytes) → Except String Bytes32
  waitForConfirmation : Bytes32 → Except String Unit

def hexText0x (bytes : Bytes) : String := "0x" ++ hexEncode bytes

def registered (key : Address) (txHash : Option String) : Answer :=
  (200, ⟨some (hexText0x (packedAddress key)), txHash, none⟩)

def submitAdmitted (submitter : RelayerSubmitter) (r : Admitted) : Answer :=
  match submitter.isKeyValid r.keyType r.attestation.teeSigningKey with
  | .error e => refuse 500 ("Failed to check key validity: " ++ e)
  | .ok true => registered r.attestation.teeSigningKey none
  | .ok false =>
      match submitter.registerKey r.keyType r.publicValues r.proofBytes r.deadline r.signature with
      | .ok txHash =>
          match submitter.waitForConfirmation txHash with
          | .error e => (500, ⟨none, some (hexText0x (word txHash)),
              some ("Registration tx failed: " ++ e)⟩)
          | .ok () => registered r.attestation.teeSigningKey (some (hexText0x (word txHash)))
      | .error e =>
          if contains e "KeyAlreadyExists" || contains e "0x2dc09057" then
            registered r.attestation.teeSigningKey none
          else refuse 500 ("Failed to submit registration: " ++ e)

def registerKey (config : RelayerConfig) (submitter : RelayerSubmitter) (now : UInt64)
    (request : RegisterKeyRequest) : Answer :=
  match checkRequest config now request with
  | .error answer => answer
  | .ok admitted => submitAdmitted submitter admitted

end SyndDB.Relayer
