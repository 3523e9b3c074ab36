import SyndDB.Contracts.World

namespace SyndDB.Contracts

open Octets Resumption

def onlyOwner (sender : Address) : M Unit := do
  let w ← Code.get
  Code.require (w.bridge.owner = sender) (.OwnableUnauthorizedAccount sender)

def onlyMessageInitializer (sender : Address) : M Unit := do
  let w ← Code.get
  Code.require (w.bridge.messageInitializers sender) .NotMessageInitializer

def transferOwnership (sender newOwner : Address) : M Unit := do
  onlyOwner sender
  modifyBridge fun b => { b with pendingOwner := newOwner }

def acceptOwnership (sender : Address) : M Unit := do
  let w ← Code.get
  Code.require (w.bridge.pendingOwner = sender) (.OwnableUnauthorizedAccount sender)
  modifyBridge fun b => { b with pendingOwner := 0, owner := sender }

def renounceOwnership (sender : Address) : M Unit := do
  onlyOwner sender
  modifyBridge fun b => { b with pendingOwner := 0, owner := 0 }

/-- The four module administration functions: check the address, change the set or fail. -/
def changeModules (sender module : Address) (get : BridgeState → AddressSet)
    (put : BridgeState → AddressSet → BridgeState)
    (change : AddressSet → Address → Option AddressSet) (failure : Error) : M Unit := do
  onlyOwner sender
  Code.require (module ≠ 0) .InvalidModuleAddress
  let w ← Code.get
  match change (get w.bridge) module with
  | none => Code.revert failure
  | some modules => modifyBridge fun b => put b modules

def addPreModule (sender module : Address) : M Unit :=
  changeModules sender module BridgeState.preModules (fun b s => { b with preModules := s })
    AddressSet.add .ModuleAlreadyExists

def addPostModule (sender module : Address) : M Unit :=
  changeModules sender module BridgeState.postModules (fun b s => { b with postModules := s })
    AddressSet.add .ModuleAlreadyExists

def removePreModule (sender module : Address) : M Unit :=
  changeModules sender module BridgeState.preModules (fun b s => { b with preModules := s })
    AddressSet.remove .ModuleDoesNotExist

def removePostModule (sender module : Address) : M Unit :=
  changeModules sender module BridgeState.postModules (fun b s => { b with postModules := s })
    AddressSet.remove .ModuleDoesNotExist

def setMessageInitializer (sender account : Address) (authorized : Bool) : M Unit := do
  onlyOwner sender
  modifyBridge fun b =>
    { b with messageInitializers := Function.update b.messageInitializers account authorized }

/-- One pass of the module loop. The set is read again on every pass. -/
def _checkModule (messageId : Bytes32) (modules : BridgeState → AddressSet)
    (stage : ProcessingStage) (payload : Bytes) (sequencerSignature : SequencerSignature)
    (i : Nat) : M Unit := do
  let w ← Code.get
  match (modules w.bridge).atIndex i with
  | none => Code.revert .IndexOutOfBounds
  | some module => do
      let data ← issue (.check module messageId stage payload sequencerSignature)
      match decodeBool data with
      | none => Code.revert .MalformedReturnData
      | some ok => Code.require ok (.ModuleCheckFailed module stage)

/-- The number of passes is fixed before the first one. -/
def _validateModules (messageId : Bytes32) (modules : BridgeState → AddressSet)
    (stage : ProcessingStage) (payload : Bytes) (sequencerSignature : SequencerSignature) :
    M Unit := do
  let w ← Code.get
  Code.each (_checkModule messageId modules stage payload sequencerSignature)
    (List.range (modules w.bridge).length)

def _validatePreModules (messageId : Bytes32) (stage : ProcessingStage) (payload : Bytes)
    (sequencerSignature : SequencerSignature) : M Unit := do
  Code.require (stage = .PreExecution) (.InvalidPreExecutionStage stage)
  _validateModules messageId BridgeState.preModules stage payload sequencerSignature

def _validatePostModules (messageId : Bytes32) (stage : ProcessingStage) (payload : Bytes)
    (sequencerSignature : SequencerSignature) : M Unit := do
  Code.require (stage = .PostExecution) (.InvalidPostExecutionStage stage)
  _validateModules messageId BridgeState.postModules stage payload sequencerSignature

def toEthSignedMessageHash (X : Crypto) (hash : Bytes32) : Bytes32 :=
  X.keccak256 ([0x19] ++ ascii "Ethereum Signed Message:\n32" ++ word hash)

/-- `ECDSA.recover`, whose revert is passed on. -/
def recover (X : Crypto) (hash : Bytes32) (signature : Bytes) : M Address :=
  match X.recover hash signature with
  | none => Code.revert .RecoverReverted
  | some signer => return signer

/-- The answer of the key manager is not looked at: an invalid key reverts. -/
def acceptValidator (D : Deployment) (messageId : Bytes32) (validator : Address) : M Unit := do
  let _ ← isKeyValid D .Validator validator
  modifyBridge fun b => { b with
    validatorSignatures := Function.update b.validatorSignatures messageId
      (Function.update (b.validatorSignatures messageId) validator true) }

def signMessage (D : Deployment) (sender : Address) (messageId : Bytes32) : M Unit :=
  acceptValidator D messageId sender

def signMessageWithSignature (D : Deployment) (messageId : Bytes32) (signature : Bytes) :
    M Unit := do
  let validator ← recover D.crypto (toEthSignedMessageHash D.crypto messageId) signature
  acceptValidator D messageId validator

end SyndDB.Contracts
