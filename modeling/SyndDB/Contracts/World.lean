import SyndDB.Framework.CallStack
import SyndDB.Contracts.TeeKeyManager

namespace SyndDB.Contracts

open Octets Resumption

/-- The state-changing external functions of the bridge, inherited ones included. -/
inductive BridgeCall where
  | receive (value : UInt256)
  | transferOwnership (newOwner : Address)
  | acceptOwnership
  | renounceOwnership
  | addPreModule (module : Address)
  | addPostModule (module : Address)
  | removePreModule (module : Address)
  | removePostModule (module : Address)
  | setMessageInitializer (account : Address) (authorized : Bool)
  | signMessage (messageId : Bytes32)
  | signMessageWithSignature (messageId : Bytes32) (signature : Bytes)
  | setTeeKeyManager (_teeKeyManager : Address)
  | setKeyRegistrationRestricted (keyType : KeyType) (restricted : Bool)
  | setDefaultKeyExpiration (expiration : UInt256)
  | registerKey (keyType : KeyType) (publicValues proofBytes : Bytes)
  | registerKeyWithSignature (keyType : KeyType) (publicValues proofBytes : Bytes)
      (deadline : UInt256) (signature : Bytes)
  | approveKey (keyType : KeyType) (publicKey : Address) (expiresAt : UInt256)
  | rejectKey (keyType : KeyType) (publicKey : Address)
  | removeKey (keyType : KeyType) (publicKey : Address)
  | setKeyExpiration (publicKey : Address) (expiresAt : UInt256)
  | revokeAllKeys
  | updateAttestationVerifier (_attestationVerifier : Address)
  | wrapNativeToken (amount : UInt256)
  | initializeMessage (messageId : Bytes32) (targetAddress : Address) (payload : Bytes)
      (sequencerSignature : SequencerSignature) (nativeTokenAmount : UInt256)
  | handleMessage (messageId : Bytes32)
  | initializeAndHandleMessage (messageId : Bytes32) (targetAddress : Address) (payload : Bytes)
      (sequencerSignature : SequencerSignature) (validatorSignatures : List Bytes)
      (nativeTokenAmount : UInt256)
  | batchInitializeMessage (messageIds : List Bytes32) (targetAddresses : List Address)
      (payloads : List Bytes) (_sequencerSignatures : List SequencerSignature)
      (nativeTokenAmounts : List UInt256)
  | batchHandleMessage (messageIds : List Bytes32)
  deriving DecidableEq

/-- The calls by which the bridge hands control to other contracts. A withdrawal carries the
message it is made for, so that the frame waiting for it can be told apart. -/
inductive ExtCall where
  | check (module : Address) (messageId : Bytes32) (stage : ProcessingStage) (payload : Bytes)
      (sequencerSignature : SequencerSignature)
  | withdraw (messageId : Bytes32) (amount : UInt256)
  | deposit (amount : UInt256)
  | target (messageId : Bytes32) (targetAddress : Address) (value : UInt256) (payload : Bytes)
  | keyManager (manager : Address) (call : TeeKeyManager.Call)
  deriving DecidableEq

inductive ExtResult where
  | reverted (data : Bytes)
  | returned (data : Bytes)
  deriving DecidableEq

def ExtResult.failed : ExtResult → Bool
  | .reverted _ => true
  | .returned _ => false

/-- What the bridge has done, in order. The record is part of the world, so a revert takes it
back with everything else. -/
inductive Action where
  | initialized (messageId : Bytes32) (initializer signer : Address)
  | called (c : ExtCall)
  | returned (c : ExtCall)
  deriving DecidableEq

structure BridgeState where
  owner : Address
  pendingOwner : Address
  preModules : AddressSet
  postModules : AddressSet
  messageInitializers : Address → Bool
  validatorSignatures : Bytes32 → Address → Bool
  sequencerSignatures : Bytes32 → SequencerSignature
  teeKeyManager : Address
  messageStates : Bytes32 → MessageState
  keyRegistrationRestricted : KeyType → Bool
  defaultKeyExpiration : UInt256

/-- The answers other contracts give to static calls; `none` is a revert. -/
structure Views where
  verifyAttestationProof : Address → Bytes → Bytes → Option Address
  isKeyValid : Address → KeyType → Address → Option Bool
  balanceOf : Address → Option UInt256

/-- The bridge, the key manager it was deployed with, and the part of the chain they read. -/
structure World where
  bridge : BridgeState
  keyManager : TeeKeyManager.State
  timestamp : UInt256
  balance : UInt256
  views : Views
  trace : List Action

/-- Addresses, immutables and calldata decoding of a deployed pair. -/
structure Deployment where
  crypto : Crypto
  bridge : Address
  keyManager : Address
  keyManagerConfig : TeeKeyManager.Config
  wrappedNativeToken : Address
  decodeBridge : Bytes → Option BridgeCall
  decodeKeyManager : Bytes → Option TeeKeyManager.Call
  distinct : keyManager ≠ bridge
  bridge_ne_zero : bridge ≠ 0
  keyManager_ne_zero : keyManager ≠ 0

inductive Error where
  | OwnableUnauthorizedAccount (account : Address)
  | InvalidModuleAddress
  | ModuleAlreadyExists
  | ModuleDoesNotExist
  | InvalidPreExecutionStage (stage : ProcessingStage)
  | InvalidPostExecutionStage (stage : ProcessingStage)
  | ModuleCheckFailed (module : Address) (stage : ProcessingStage)
  | NotMessageInitializer
  | ZeroAddressNotAllowed
  | InvalidSequencerSignature (recoveredSigner : Address)
  | MessageAlreadyInitialized (messageId : Bytes32)
  | MessageNotInitialized (messageId : Bytes32)
  | MessageAlreadyHandled (messageId : Bytes32)
  | MessageCurrentlyProcessing (messageId : Bytes32) (currentStage : ProcessingStage)
  | MessageExecutionFailed (messageId : Bytes32) (returnData : Bytes)
  | ArrayLengthMismatch
  | InsufficientWrappedNativeTokenBalance (required available : UInt256)
  | NoNativeTokenToWrap
  | KeyManager (e : TeeKeyManager.Error)
  | RecoverReverted
  | CallReverted (data : Bytes)
  | MalformedReturnData
  | ArithmeticOverflow
  | IndexOutOfBounds
  deriving DecidableEq

abbrev M (α : Type) : Type := Code World ExtCall ExtResult Error α

def modifyBridge (f : BridgeState → BridgeState) : M Unit :=
  Code.modify fun w => { w with bridge := f w.bridge }

def record (a : Action) : M Unit := Code.modify fun w => { w with trace := w.trace ++ [a] }

/-- A high-level call of a foreign contract: its revert is passed on. -/
def issue (c : ExtCall) : M Bytes := do
  record (.called c)
  match ← Code.external c with
  | .reverted data => Code.revert (.CallReverted data)
  | .returned data => do
      record (.returned c)
      return data

def keyManagerContext (sender : Address) (w : World) : TeeKeyManager.Context :=
  ⟨sender, w.timestamp, w.views.verifyAttestationProof⟩

/-- A call of the deployed key manager. It makes static calls only, so it runs to its end. -/
def runKeyManager (D : Deployment) (sender : Address) (c : TeeKeyManager.Call) : M Bytes := do
  let w ← Code.get
  match TeeKeyManager.dispatch D.crypto D.keyManagerConfig (keyManagerContext sender w)
      w.keyManager c with
  | .error e => Code.revert (.KeyManager e)
  | .ok (data, keyManager) => do
      Code.modify fun w => { w with keyManager := keyManager }
      return data

/-- `teeKeyManager.f(..)` from the bridge, for whatever manager it is configured with. -/
def callKeyManager (D : Deployment) (c : TeeKeyManager.Call) : M Bytes := do
  let w ← Code.get
  if w.bridge.teeKeyManager = D.keyManager then runKeyManager D D.bridge c
  else issue (.keyManager w.bridge.teeKeyManager c)

/-- The view `teeKeyManager.isKeyValid(..)` from the bridge. -/
def isKeyValid (D : Deployment) (keyType : KeyType) (publicKey : Address) : M Bool := do
  let w ← Code.get
  if w.bridge.teeKeyManager = D.keyManager then
    match TeeKeyManager.isKeyValid w.timestamp w.keyManager keyType publicKey with
    | .ok b => return b
    | .error e => Code.revert (.KeyManager e)
  else
    match w.views.isKeyValid w.bridge.teeKeyManager keyType publicKey with
    | some b => return b
    | none => Code.revert (.CallReverted [])

end SyndDB.Contracts
