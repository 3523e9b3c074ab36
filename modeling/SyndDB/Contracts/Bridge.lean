import SyndDB.Contracts.ModuleCheckRegistry

namespace SyndDB.Contracts

open Octets Resumption

def setTeeKeyManager (sender _teeKeyManager : Address) : M Unit := do
  onlyOwner sender
  Code.require (_teeKeyManager ≠ 0) .ZeroAddressNotAllowed
  modifyBridge fun b => { b with teeKeyManager := _teeKeyManager }

def setKeyRegistrationRestricted (sender : Address) (keyType : KeyType) (restricted : Bool) :
    M Unit := do
  onlyOwner sender
  modifyBridge fun b => { b with
    keyRegistrationRestricted := Function.update b.keyRegistrationRestricted keyType restricted }

def setDefaultKeyExpiration (sender : Address) (expiration : UInt256) : M Unit := do
  onlyOwner sender
  modifyBridge fun b => { b with defaultKeyExpiration := expiration }

/-- `defaultKeyExpiration == 0 ? 0 : block.timestamp + defaultKeyExpiration` -/
def registrationExpiry : M UInt256 := do
  let w ← Code.get
  if w.bridge.defaultKeyExpiration = 0 then return 0
  else
    match checkedAdd w.timestamp w.bridge.defaultKeyExpiration with
    | some expiresAt => return expiresAt
    | none => Code.revert .ArithmeticOverflow

def decodeKey (data : Bytes) : M Address :=
  match decodeAddress data with
  | some publicKey => return publicKey
  | none => Code.revert .MalformedReturnData

def registerKey (D : Deployment) (keyType : KeyType) (publicValues proofBytes : Bytes) :
    M Address := do
  let expiresAt ← registrationExpiry
  let w ← Code.get
  let data ← callKeyManager D (.addKey keyType publicValues proofBytes
    (w.bridge.keyRegistrationRestricted keyType) expiresAt)
  decodeKey data

def registerKeyWithSignature (D : Deployment) (keyType : KeyType)
    (publicValues proofBytes : Bytes) (deadline : UInt256) (signature : Bytes) :
    M Address := do
  let expiresAt ← registrationExpiry
  let w ← Code.get
  let data ← callKeyManager D (.addKeyWithSignature keyType publicValues proofBytes deadline
    signature (w.bridge.keyRegistrationRestricted keyType) expiresAt)
  decodeKey data

/-- The owner functions that only pass their arguments on to the key manager. -/
def forwardToKeyManager (D : Deployment) (sender : Address) (c : TeeKeyManager.Call) :
    M Unit := do
  onlyOwner sender
  let _ ← callKeyManager D c
  return ()

def approveKey (D : Deployment) (sender : Address) (keyType : KeyType) (publicKey : Address)
    (expiresAt : UInt256) : M Unit :=
  forwardToKeyManager D sender (.approveKey keyType publicKey expiresAt)

def rejectKey (D : Deployment) (sender : Address) (keyType : KeyType) (publicKey : Address) :
    M Unit :=
  forwardToKeyManager D sender (.rejectKey keyType publicKey)

def removeKey (D : Deployment) (sender : Address) (keyType : KeyType) (publicKey : Address) :
    M Unit :=
  forwardToKeyManager D sender (.removeKey keyType publicKey)

def setKeyExpiration (D : Deployment) (sender publicKey : Address) (expiresAt : UInt256) :
    M Unit :=
  forwardToKeyManager D sender (.setKeyExpiration publicKey expiresAt)

def revokeAllKeys (D : Deployment) (sender : Address) : M Unit :=
  forwardToKeyManager D sender .revokeAllKeys

def updateAttestationVerifier (D : Deployment) (sender _attestationVerifier : Address) :
    M Unit :=
  forwardToKeyManager D sender (.updateAttestationVerifier _attestationVerifier)

def _wrapNativeToken (amount : UInt256) : M Unit := do
  Code.modify fun w => { w with balance := w.balance - amount }
  let _ ← issue (.deposit amount)
  return ()

def receive (D : Deployment) (sender : Address) (value : UInt256) : M Unit := do
  Code.modify fun w => { w with balance := w.balance + value }
  if sender ≠ D.wrappedNativeToken then _wrapNativeToken value else return ()

def wrapNativeToken (sender : Address) (amount : UInt256) : M Unit := do
  onlyMessageInitializer sender
  let w ← Code.get
  let amountToWrap := if w.balance < amount then w.balance else amount
  Code.require (amountToWrap ≠ 0) .NoNativeTokenToWrap
  _wrapNativeToken amountToWrap

def isMessageCompleted (b : BridgeState) (messageId : Bytes32) : Bool :=
  (b.messageStates messageId).stage = .Completed

def isMessageRejected (b : BridgeState) (messageId : Bytes32) : Bool :=
  (b.messageStates messageId).stage = .Rejected

def isMessageHandled (b : BridgeState) (messageId : Bytes32) : Bool :=
  isMessageCompleted b messageId || isMessageRejected b messageId

def isMessageInitialized (b : BridgeState) (messageId : Bytes32) : Bool :=
  (b.messageStates messageId).stage ≠ .NotStarted

def messageHash (X : Crypto) (messageId : Bytes32) (targetAddress : Address) (payload : Bytes)
    (nativeTokenAmount : UInt256) : Bytes32 :=
  X.keccak256 (word messageId ++ packedAddress targetAddress ++ word (X.keccak256 payload) ++
    word nativeTokenAmount)

def storeMessage (messageId : Bytes32) (state : MessageState)
    (sequencerSignature : SequencerSignature) (b : BridgeState) : BridgeState :=
  { b with
    messageStates := Function.update b.messageStates messageId state
    sequencerSignatures := Function.update b.sequencerSignatures messageId sequencerSignature }

def _initializeMessage (D : Deployment) (sender : Address) (messageId : Bytes32)
    (targetAddress : Address) (payload : Bytes) (sequencerSignature : SequencerSignature)
    (nativeTokenAmount : UInt256) : M Unit := do
  let w ← Code.get
  Code.require (!isMessageInitialized w.bridge messageId) (.MessageAlreadyInitialized messageId)
  let hash := messageHash D.crypto messageId targetAddress payload nativeTokenAmount
  let signer ← recover D.crypto (toEthSignedMessageHash D.crypto hash)
    sequencerSignature.signature
  let valid ← isKeyValid D .Sequencer signer
  Code.require valid (.InvalidSequencerSignature signer)
  modifyBridge (storeMessage messageId
    ⟨messageId, targetAddress, .PreExecution, payload, w.timestamp, nativeTokenAmount⟩
    sequencerSignature)
  record (.initialized messageId sender signer)

def initializeMessage (D : Deployment) (sender : Address) (messageId : Bytes32)
    (targetAddress : Address) (payload : Bytes) (sequencerSignature : SequencerSignature)
    (nativeTokenAmount : UInt256) : M Unit := do
  onlyMessageInitializer sender
  _initializeMessage D sender messageId targetAddress payload sequencerSignature
    nativeTokenAmount

def setStage (messageId : Bytes32) (stage : ProcessingStage) : M Unit :=
  modifyBridge fun b => { b with
    messageStates := Function.update b.messageStates messageId
      { b.messageStates messageId with stage := stage } }

/-- Unwrap the native token that is sent along with the target call. -/
def _unwrap (D : Deployment) (messageId : Bytes32) : M Unit := do
  let w ← Code.get
  let amount := (w.bridge.messageStates messageId).nativeTokenAmount
  if 0 < amount then
    match w.views.balanceOf D.bridge with
    | none => Code.revert (.CallReverted [])
    | some available => do
        Code.require (!(available < amount))
          (.InsufficientWrappedNativeTokenBalance amount available)
        let _ ← issue (.withdraw messageId amount)
        return ()
  else return ()

/-- The payload run against the deployed key manager, under the address of the bridge. -/
def callOwnKeyManager (D : Deployment) (value : UInt256) (payload : Bytes) : M ExtResult := do
  let w ← Code.get
  match D.decodeKeyManager payload with
  | none => return .reverted []
  | some c =>
      if value ≠ 0 then return .reverted []
      else
        match TeeKeyManager.dispatch D.crypto D.keyManagerConfig (keyManagerContext D.bridge w)
            w.keyManager c with
        | .error _ => return .reverted []
        | .ok (data, keyManager) => do
            Code.modify fun w => { w with keyManager := keyManager }
            return .returned data

/-- `targetAddress.call{value: nativeTokenAmount}(payload)`. The call is not made when the
balance does not cover its value. -/
def callTarget (D : Deployment) (messageId : Bytes32) : M ExtResult := do
  let w ← Code.get
  let state := w.bridge.messageStates messageId
  let value := state.nativeTokenAmount
  if w.balance < value then return .reverted []
  else do
    let c := ExtCall.target messageId state.targetAddress value state.payload
    Code.modify fun w => { w with balance := w.balance - value }
    record (.called c)
    if state.targetAddress = D.keyManager then callOwnKeyManager D value state.payload
    else Code.external c

def _execute (D : Deployment) (messageId : Bytes32) : M Unit := do
  match ← callTarget D messageId with
  | .reverted returnData => Code.revert (.MessageExecutionFailed messageId returnData)
  | .returned _ => return ()

def handleMessage (D : Deployment) (messageId : Bytes32) : M Unit := do
  let w ← Code.get
  let state := w.bridge.messageStates messageId
  Code.require (state.stage ≠ .NotStarted) (.MessageNotInitialized messageId)
  Code.require (!isMessageHandled w.bridge messageId) (.MessageAlreadyHandled messageId)
  Code.require (state.stage = .PreExecution) (.MessageCurrentlyProcessing messageId state.stage)
  let signature := w.bridge.sequencerSignatures messageId
  _validatePreModules messageId .PreExecution state.payload signature
  setStage messageId .Executing
  _unwrap D messageId
  _execute D messageId
  setStage messageId .PostExecution
  let w ← Code.get
  _validatePostModules messageId .PostExecution (w.bridge.messageStates messageId).payload
    signature
  setStage messageId .Completed

def initializeAndHandleMessage (D : Deployment) (sender : Address) (messageId : Bytes32)
    (targetAddress : Address) (payload : Bytes) (sequencerSignature : SequencerSignature)
    (validatorSignatures : List Bytes) (nativeTokenAmount : UInt256) : M Unit := do
  initializeMessage D sender messageId targetAddress payload sequencerSignature nativeTokenAmount
  Code.each (signMessageWithSignature D messageId) validatorSignatures
  handleMessage D messageId

def batchInitializeMessage (D : Deployment) (sender : Address) (messageIds : List Bytes32)
    (targetAddresses : List Address) (payloads : List Bytes)
    (_sequencerSignatures : List SequencerSignature) (nativeTokenAmounts : List UInt256) :
    M Unit := do
  onlyMessageInitializer sender
  Code.require (messageIds.length = targetAddresses.length && messageIds.length = payloads.length
    && messageIds.length = _sequencerSignatures.length
    && messageIds.length = nativeTokenAmounts.length) .ArrayLengthMismatch
  Code.each
    (fun (messageId, target, payload, signature, amount) =>
      _initializeMessage D sender messageId target payload signature amount)
    (messageIds.zip (targetAddresses.zip (payloads.zip
      (_sequencerSignatures.zip nativeTokenAmounts))))

def batchHandleMessage (D : Deployment) (messageIds : List Bytes32) : M Unit :=
  Code.each (handleMessage D) messageIds

def bridgeCode (D : Deployment) (sender : Address) : BridgeCall → M Unit
  | .receive value => receive D sender value
  | .transferOwnership o => transferOwnership sender o
  | .acceptOwnership => acceptOwnership sender
  | .renounceOwnership => renounceOwnership sender
  | .addPreModule m => addPreModule sender m
  | .addPostModule m => addPostModule sender m
  | .removePreModule m => removePreModule sender m
  | .removePostModule m => removePostModule sender m
  | .setMessageInitializer a b => setMessageInitializer sender a b
  | .signMessage i => signMessage D sender i
  | .signMessageWithSignature i s => signMessageWithSignature D i s
  | .setTeeKeyManager k => setTeeKeyManager sender k
  | .setKeyRegistrationRestricted t r => setKeyRegistrationRestricted sender t r
  | .setDefaultKeyExpiration e => setDefaultKeyExpiration sender e
  | .registerKey t pv pb => do let _ ← registerKey D t pv pb; return ()
  | .registerKeyWithSignature t pv pb d s => do
      let _ ← registerKeyWithSignature D t pv pb d s
      return ()
  | .approveKey t k e => approveKey D sender t k e
  | .rejectKey t k => rejectKey D sender t k
  | .removeKey t k => removeKey D sender t k
  | .setKeyExpiration k e => setKeyExpiration D sender k e
  | .revokeAllKeys => revokeAllKeys D sender
  | .updateAttestationVerifier v => updateAttestationVerifier D sender v
  | .wrapNativeToken a => wrapNativeToken sender a
  | .initializeMessage i t p s a => initializeMessage D sender i t p s a
  | .handleMessage i => handleMessage D i
  | .initializeAndHandleMessage i t p s vs a => initializeAndHandleMessage D sender i t p s vs a
  | .batchInitializeMessage is ts ps ss as => batchInitializeMessage D sender is ts ps ss as
  | .batchHandleMessage is => batchHandleMessage D is

/-- A call that reaches one of the two contracts, with its `msg.sender`. -/
inductive Entry where
  | bridge (sender : Address) (c : BridgeCall)
  | keyManager (sender : Address) (c : TeeKeyManager.Call)
  deriving DecidableEq

/-- What moves without the two contracts: the clock, the answers of other contracts, and native
token that is credited without a call. -/
inductive Drift where
  | elapse (seconds : Nat)
  | views (v : Views)
  | credit (amount : UInt256)

def drift : Drift → World → World
  | .elapse seconds, w =>
      if w.timestamp.toNat + seconds < 2 ^ 256 then
        { w with timestamp := w.timestamp + BitVec.ofNat 256 seconds }
      else w
  | .views v, w => { w with views := v }
  | .credit amount, w => { w with balance := w.balance + amount }

@[simp] theorem drift_bridge (d : Drift) (w : World) : (drift d w).bridge = w.bridge := by
  cases d with
  | elapse seconds =>
    simp only [drift]
    split
    · rfl
    · rfl
  | views v => rfl
  | credit amount => rfl

/-- The call that the bridge makes to itself when a message is addressed to it. -/
def selfCall (D : Deployment) : ExtCall → Option BridgeCall
  | .target _ targetAddress value payload =>
      if targetAddress ≠ D.bridge then none
      else if payload = [] then some (.receive value)
      else if value ≠ 0 then none
      else D.decodeBridge payload
  | _ => none

/-- Nobody but the bridge calls under its address, and the bridge calls itself only to execute a
message. (A key manager configured to be the bridge would call back into `onlyOwner` functions
under the bridge's own address without end, so such calls only revert.) -/
def admits (D : Deployment) (waiting : List ExtCall) : Entry → Bool
  | .bridge sender c =>
      sender ≠ D.bridge || (waiting.head?.bind (selfCall D)) = some c
  | .keyManager sender _ => sender ≠ D.bridge

def system (D : Deployment) : System World ExtCall ExtResult Error Entry Drift where
  code
    | .bridge sender c => bridgeCode D sender c
    | .keyManager sender c => do let _ ← runKeyManager D sender c; return ()
  failed := ExtResult.failed
  admits := admits D
  drift := drift

/-- The state left by the constructor of the bridge. -/
def BridgeState.deploy (owner teeKeyManager : Address) : BridgeState :=
  { owner := owner, pendingOwner := 0, preModules := .empty, postModules := .empty
    messageInitializers := fun _ => false, validatorSignatures := fun _ _ => false
    sequencerSignatures := fun _ => ⟨[], 0⟩, teeKeyManager := teeKeyManager
    messageStates := fun _ => .empty, keyRegistrationRestricted := fun _ => false
    defaultKeyExpiration := 0 }

/-- A freshly deployed pair: the key manager knows the bridge and the bridge the key manager. -/
def genesis (D : Deployment) (owner attestationVerifier : Address) (timestamp : UInt256)
    (views : Views) : World :=
  { bridge := .deploy owner D.keyManager
    keyManager := { TeeKeyManager.deploy attestationVerifier with bridge := D.bridge }
    timestamp := timestamp, balance := 0, views := views, trace := [] }

/-- The data of a message with id `1` and no value, signed by the sample sequencer. The hashes and
the recovered signer are the real values. -/
structure Sample where
  targetAddress : Address
  payload : Bytes
  payloadHash : Bytes32
  messageHash : Bytes32
  signedHash : Bytes32
  signature : Bytes

def sampleSequencer : Address := 0x7e5f4552091a69125d5dfcb7b8c2659029395bdf#160

def Sample.crypto (m : Sample) : Crypto where
  keccak256 bs :=
    if bs = m.payload then m.payloadHash
    else if bs = word 1 ++ packedAddress m.targetAddress ++ word m.payloadHash ++ word 0 then
      m.messageHash
    else if bs = [0x19] ++ ascii "Ethereum Signed Message:\n32" ++ word m.messageHash then
      m.signedHash
    else 0
  recover hash signature :=
    if hash = m.signedHash ∧ signature = m.signature then some sampleSequencer else none

/-- `revokeAllKeys()` is the only key manager function with this selector. -/
def Sample.deployment (m : Sample) : Deployment where
  crypto := m.crypto
  bridge := 0xB1
  keyManager := 0x4E
  keyManagerConfig := ⟨0xDE, 0⟩
  wrappedNativeToken := 0xEE
  decodeBridge _ := none
  decodeKeyManager payload :=
    if payload.take 4 = [0xc1, 0x72, 0xac, 0x10] then some .revokeAllKeys else none
  distinct := by decide
  bridge_ne_zero := by decide
  keyManager_ne_zero := by decide

/-- The attestation verifier answers as `MockAttestationVerifier` does. -/
def sampleViews : Views where
  verifyAttestationProof _ publicValues _ := decodeAddress publicValues
  isKeyValid _ _ _ := none
  balanceOf _ := some 0

def Sample.genesis (m : Sample) : World :=
  Contracts.genesis m.deployment 0x0A 0xA7 1700000000 sampleViews

/-- The key is registered, and account `0x1A` may initialize messages and does. -/
def Sample.setup (m : Sample) : List (Event ExtResult Entry Drift) :=
  [.enter (.bridge 0x0A (.registerKey .Sequencer (word (sampleSequencer.setWidth 256)) [])),
   .enter (.bridge 0x0A (.setMessageInitializer 0x1A true)),
   .enter (.bridge 0x1A
     (.initializeMessage 1 m.targetAddress m.payload ⟨m.signature, 1700000000⟩ 0))]

end SyndDB.Contracts
