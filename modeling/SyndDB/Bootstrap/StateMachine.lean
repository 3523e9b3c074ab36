import SyndDB.Bootstrap.RelayerClient
import SyndDB.Framework.Attempts

namespace SyndDB.Bootstrap.StateMachine

open Octets Text Attempts
open Contracts (Address KeyType)

/-- Durations are given by their texts. -/
inductive BootstrapError where
  | AttestationSocketMissing (message : String)
  | AttestationFetchFailed (message : String)
  | JwksFetchFailed (message : String)
  | ProofGenerationFailed (message : String)
  | ProofGenerationPermanent (message : String)
  | ProofServiceUnavailable (message : String)
  | ProofGenerationTimeout (after : String)
  | ContractSubmissionFailed (message : String)
  | TransactionFailed (message : String)
  | TransactionConfirmationFailed (message : String)
  | KeyVerificationFailed (message : String)
  | Config (message : String)
  | Timeout (after : String)
  | MaxRetriesExceeded (operation lastError : String)
  deriving DecidableEq

namespace BootstrapError

def isRetryable : BootstrapError → Bool
  | .AttestationFetchFailed _ | .JwksFetchFailed _ | .ProofGenerationFailed _
      | .ProofServiceUnavailable _
  | .ProofGenerationTimeout _ | .ContractSubmissionFailed _ | .TransactionFailed _
  | .TransactionConfirmationFailed _ => true
  | .AttestationSocketMissing _ | .ProofGenerationPermanent _ | .KeyVerificationFailed _ | .Config _
  | .Timeout _ | .MaxRetriesExceeded _ _ => false

def display : BootstrapError → String
  | .AttestationSocketMissing message => "Attestation socket not available: " ++ message
  | .AttestationFetchFailed message => "Failed to fetch attestation token: " ++ message
  | .JwksFetchFailed message => "Failed to fetch JWKS: " ++ message
  | .ProofGenerationFailed message => "Proof generation failed: " ++ message
  | .ProofGenerationPermanent message => "Permanent proof generation failure: " ++ message
  | .ProofServiceUnavailable message => "Proof service unavailable: " ++ message
  | .ProofGenerationTimeout after => "Proof generation timed out after " ++ after
  | .ContractSubmissionFailed message => "Contract submission failed: " ++ message
  | .TransactionFailed message => "Transaction failed: " ++ message
  | .TransactionConfirmationFailed message => "Transaction confirmation failed: " ++ message
  | .KeyVerificationFailed message => "Key verification failed: " ++ message
  | .Config message => "Configuration error: " ++ message
  | .Timeout after => "Bootstrap timed out after " ++ after
  | .MaxRetriesExceeded operation lastError =>
      "Maximum retries exceeded for " ++ operation ++ ": " ++ lastError

end BootstrapError

/-- How a run ends that does not return a key: with an error, or where it unwraps a value
that is missing. -/
inductive Stop where
  | failed (e : BootstrapError)
  | panicked
  deriving DecidableEq

inductive ProverMode where
  | Service
  | Mock
  | Stylus
  deriving DecidableEq

structure BootstrapConfig where
  enableKeyBootstrap : Bool
  bridgeAddress : Option String
  rpcUrl : Option String
  chainId : Option UInt64
  relayerUrl : Option String
  proverMode : ProverMode
  proofServiceUrl : Option String
  attestationAudience : Option String
  proofMaxRetries : Nat
  relayerMaxRetries : Nat
  verificationMaxRetries : Nat
  imageSignature : Option String

namespace BootstrapConfig

def required {α : Type} (value : Option α) (message : String) : Except BootstrapError Unit :=
  if value.isNone then .error (.Config message) else .ok ()

def validate (config : BootstrapConfig) : Except BootstrapError Unit :=
  if config.enableKeyBootstrap = false then .ok ()
  else do
    required config.bridgeAddress "BRIDGE_CONTRACT_ADDRESS is required when bootstrap is enabled"
    required config.rpcUrl "BOOTSTRAP_RPC_URL is required when bootstrap is enabled"
    required config.chainId "BOOTSTRAP_CHAIN_ID is required when bootstrap is enabled"
    required config.relayerUrl "RELAYER_URL is required when bootstrap is enabled"
    if config.proverMode = .Service then
      required config.proofServiceUrl "PROOF_SERVICE_URL is required when prover_mode is 'service'"
    required config.imageSignature "IMAGE_SIGNATURE is required when bootstrap is enabled"

def audience (config : BootstrapConfig) : String :=
  config.attestationAudience.getD ("https://tee-key-manager." ++ toString (config.chainId.getD 1))

end BootstrapConfig

structure EvmKeyManager where
  publicKey : Bytes
  signer : PrivateKeySigner

def EvmKeyManager.address (key : EvmKeyManager) : Address := key.signer.address

structure ProofResponse where
  publicValues : String
  proofBytes : String
  teeAddress : String
  deriving DecidableEq

structure ProofClient where
  serviceUrl : String
  proverMode : ProverMode

structure ContractSubmitter where
  rpcUrl : String
  bridgeAddress : Address

/-- What is outside of a run, with a state of its own. -/
structure Environment (ω : Type) where
  parseAddress : String → Except String Address
  parseUrl : String → Except String Unit
  buildClient : Except String Unit
  generate : ω → EvmKeyManager × ω
  teeKeyManager : (rpcUrl : String) → (bridge : Address) → EStateM String ω Address
  newAttestationClient : (audience : String) → EStateM String ω Unit
  getToken : (audience : String) → EStateM String ω String
  generateProof : ProofClient → (jwtToken expectedAudience : String) →
    (evmPublicKey imageSignature : Bytes) → EStateM BootstrapError ω ProofResponse
  registerKey : RelayerClient → PrivateKeySigner → (publicValues proofBytes : String) → KeyType →
    EStateM BootstrapError ω Unit
  isKeyValid : ContractSubmitter → KeyType → Address → EStateM BootstrapError ω Bool
  sleep : (secs : Nat) → ω → ω

variable {ω α ε : Type} (env : Environment ω)

/-- `ok_or_else` -/
def needed (value : Option α) (message : String) : Except BootstrapError α :=
  match value with
  | some a => .ok a
  | none => .error (.Config message)

def serviceUrlOf (config : BootstrapConfig) : Except BootstrapError String :=
  match config.proverMode with
  | .Service => needed config.proofServiceUrl "PROOF_SERVICE_URL is required"
  | .Mock => .ok "mock://localhost"
  | .Stylus => .ok ""

def ProofClient.fromConfig (config : BootstrapConfig) : Except BootstrapError ProofClient := do
  let url ← serviceUrlOf config
  env.buildClient.mapError .ProofServiceUnavailable
  return ⟨url, config.proverMode⟩

def parseBridge (text : String) : Except BootstrapError Address :=
  (env.parseAddress text).mapError fun e => .Config ("Invalid bridge address: " ++ e)

def ContractSubmitter.fromConfig (config : BootstrapConfig) :
    Except BootstrapError ContractSubmitter := do
  let rpcUrl ← needed config.rpcUrl "BOOTSTRAP_RPC_URL is required"
  let text ← needed config.bridgeAddress "BRIDGE_CONTRACT_ADDRESS is required"
  let bridge ← parseBridge env text
  return ⟨rpcUrl, bridge⟩

def parseHexBytes (hexStr fieldName : String) : Except BootstrapError Bytes :=
  (decodeHex (trimStart0x (utf8 hexStr))).mapError fun e =>
    .Config ("Invalid " ++ fieldName ++ " hex encoding: " ++ e.display)

/-- A call is repeated for its retryable errors, with a delay that grows with each attempt. -/
def retrying (operation : String) (secs maxRetries : Nat) (call : EStateM BootstrapError ω α) :
    EStateM BootstrapError ω α := do
  match ← tries (fun _ => caught BootstrapError.isRetryable call)
      (fun n => env.sleep (secs * n)) maxRetries with
  | .inl a => return a
  | .inr last => throw (.MaxRetriesExceeded operation ((last.map BootstrapError.display).getD ""))

def generateProofWithRetry (client : ProofClient) (attestation audience : String)
    (publicKey imageSignature : Bytes) (maxRetries : Nat) :
      EStateM BootstrapError ω ProofResponse :=
  retrying env "proof_generation" 30 maxRetries
    (env.generateProof client attestation audience publicKey imageSignature)

def registerWithRetry (relayerClient : RelayerClient) (proof : ProofResponse)
    (signer : PrivateKeySigner)
    (keyType : KeyType) (maxRetries : Nat) : EStateM BootstrapError ω Unit :=
  retrying env "key_registration" 10 maxRetries
    (env.registerKey relayerClient signer proof.publicValues proof.proofBytes keyType)

/-- An invalid key is the reason for another attempt, an error is not. -/
def verifyAttempt (submitter : ContractSubmitter) (keyType : KeyType) (address : Address) :
    EStateM BootstrapError ω (Unit ⊕ Unit) := do
  if ← env.isKeyValid submitter keyType address then return .inl () else return .inr ()

def verifyRegistrationWithRetry (submitter : ContractSubmitter) (keyType : KeyType)
    (address : Address) (maxRetries : Nat) : EStateM BootstrapError ω Unit := do
  modify (env.sleep 2)
  match ← tries (fun _ => verifyAttempt env submitter keyType address)
      (fun n => if n < maxRetries then env.sleep (2 * n) else id) maxRetries with
  | .inl () => return ()
  | .inr _ =>
      throw (.KeyVerificationFailed
        "Key not found in contract after registration (RPC sync issue?)")

/-- There is a single attempt. -/
def fetchAttestationWithRetry (config : BootstrapConfig) :
    EStateM BootstrapError ω String := fun w =>
  match env.newAttestationClient config.audience w with
  | .error e w => .error (.AttestationFetchFailed
      ("Failed to create attestation client (not running in Confidential Space?): " ++ e)) w
  | .ok () w =>
      match env.getToken config.audience w with
      | .error e w => .error (.AttestationFetchFailed e) w
      | .ok token w => .ok token w

inductive BootstrapState where
  | NotStarted
  | GeneratingKey
  | FetchingAttestation
  | GeneratingProof
  | RegisteringKey
  | VerifyingRegistration
  | Ready
  | Failed
  deriving DecidableEq

structure BootstrapStateMachine where
  state : BootstrapState
  keyManager : Option EvmKeyManager
  attestationToken : Option String
  proof : Option ProofResponse
  lastError : Option BootstrapError
  keyType : KeyType

def BootstrapStateMachine.new (keyType : KeyType) : BootstrapStateMachine :=
  ⟨.NotStarted, none, none, none, none, keyType⟩

abbrev Procedure (ω α : Type) : Type := EStateM Stop (BootstrapStateMachine × ω) α

def check (x : Except BootstrapError α) : Procedure ω α := fun s =>
  match x with
  | .ok a => .ok a s
  | .error e => .error (.failed e) s

/-- A call leaves the machine as it is. -/
def outside (x : EStateM BootstrapError ω α) : Procedure ω α := fun s =>
  match x s.2 with
  | .ok a w => .ok a (s.1, w)
  | .error e w => .error (.failed e) (s.1, w)

def unwrap (value : Option α) : Procedure ω α := fun s =>
  match value with
  | some a => .ok a s
  | none => .error .panicked s

def change (f : BootstrapStateMachine → BootstrapStateMachine) : Procedure ω Unit := fun s =>
  .ok () (f s.1, s.2)

def enter (state : BootstrapState) : Procedure ω Unit := change fun m => { m with state := state }

def newKey : Procedure ω EvmKeyManager :=
  fun s => .ok (env.generate s.2).1 (s.1, (env.generate s.2).2)

def ownKeyType : Procedure ω KeyType := fun s => .ok s.1.keyType s

def generateKey : Procedure ω EvmKeyManager := do
  enter .GeneratingKey
  let key ← newKey env
  change fun m => { m with keyManager := some key }
  return key

/-- The address of the key manager is asked for. -/
def newRelayerClient (bridge : Address) (rpcUrl : String) (chainId : UInt64) :
    EStateM BootstrapError ω RelayerClient := fun w =>
  match env.buildClient, env.parseUrl rpcUrl with
  | .error e, _ => .error (.Config ("Failed to build HTTP client: " ++ e)) w
  | .ok (), .error e => .error (.Config ("Invalid RPC URL: " ++ e)) w
  | .ok (), .ok () =>
      match env.teeKeyManager rpcUrl bridge w with
      | .error e w => .error (.Config ("Failed to fetch TeeKeyManager address: " ++ e)) w
      | .ok address w => .ok ⟨address, chainId⟩ w

structure Clients where
  proofClient : ProofClient
  submitter : ContractSubmitter
  relayerClient : RelayerClient

def createClients (config : BootstrapConfig) : Procedure ω Clients := do
  let proofClient ← check (ProofClient.fromConfig env config)
  let submitter ← check (ContractSubmitter.fromConfig env config)
  let text ← unwrap config.bridgeAddress
  let bridge ← check (parseBridge env text)
  let rpcUrl ← unwrap config.rpcUrl
  let _ ← unwrap config.relayerUrl
  let chainId ← unwrap config.chainId
  let relayerClient ← outside (newRelayerClient env bridge rpcUrl chainId)
  return ⟨proofClient, submitter, relayerClient⟩

def readImageSignature (config : BootstrapConfig) : Procedure ω Bytes := do
  let text ← unwrap config.imageSignature
  let bytes ← check (parseHexBytes text "IMAGE_SIGNATURE")
  check (if bytes.length ≠ 65 then
    .error (.Config ("IMAGE_SIGNATURE must be exactly 65 bytes (r || s || v), got " ++
      toString bytes.length))
  else .ok ())
  return bytes

def fetchAttestation (config : BootstrapConfig) : Procedure ω (String × Bytes) := do
  enter .FetchingAttestation
  let attestation ← outside (fetchAttestationWithRetry env config)
  change fun m => { m with attestationToken := some attestation }
  let imageSignature ← readImageSignature config
  return (attestation, imageSignature)

def generateProof (config : BootstrapConfig) (clients : Clients) (key : EvmKeyManager)
    (attestation : String) (imageSignature : Bytes) : Procedure ω ProofResponse := do
  enter .GeneratingProof
  let proof ← outside (generateProofWithRetry env clients.proofClient attestation config.audience
    key.publicKey imageSignature config.proofMaxRetries)
  change fun m => { m with proof := some proof }
  return proof

def registerKey (config : BootstrapConfig) (clients : Clients) (key : EvmKeyManager)
    (proof : ProofResponse) :
    Procedure ω Unit := do
  enter .RegisteringKey
  let keyType ← ownKeyType
  outside (registerWithRetry env clients.relayerClient proof key.signer keyType
    config.relayerMaxRetries)

def verifyRegistration (config : BootstrapConfig) (clients : Clients) (key : EvmKeyManager) :
    Procedure ω Unit := do
  enter .VerifyingRegistration
  let keyType ← ownKeyType
  outside (verifyRegistrationWithRetry env clients.submitter keyType key.address
    config.verificationMaxRetries)

def run (config : BootstrapConfig) : Procedure ω EvmKeyManager := do
  check config.validate
  let key ← generateKey env
  let clients ← createClients env config
  let (attestation, imageSignature) ← fetchAttestation env config
  let proof ← generateProof env config clients key attestation imageSignature
  registerKey env config clients key proof
  verifyRegistration env config clients key
  enter .Ready
  return key

section Steps

variable {Q : α → BootstrapStateMachine × ω → Prop} {E : Stop → BootstrapStateMachine × ω → Prop}
  {s : BootstrapStateMachine × ω}

theorem ends_check {x : Except BootstrapError α} (good : ∀ a, x = .ok a → Q a s)
    (bad : ∀ e, x = .error e → E (.failed e) s) : Ends Q E (check x s) := by
  cases x with
  | ok a => exact good a rfl
  | error e => exact bad e rfl

theorem ends_unwrap {value : Option α} (present : ∀ a, value = some a → Q a s)
    (absent : value = none → E .panicked s) : Ends Q E (unwrap value s) := by
  cases value with
  | some a => exact present a rfl
  | none => exact absent rfl

theorem ends_outside {x : EStateM BootstrapError ω α}
    (h : Ends (fun a w => Q a (s.1, w)) (fun e w => E (.failed e) (s.1, w)) (x s.2)) :
    Ends Q E (outside x s) := by
  unfold outside
  cases ended : x s.2 with
  | ok a w =>
    rw [ended] at h
    exact h
  | error e w =>
    rw [ended] at h
    exact h

theorem ends_change {f : BootstrapStateMachine → BootstrapStateMachine}
    {Q : Unit → BootstrapStateMachine × ω → Prop}
    (h : Q () (f s.1, s.2)) : Ends Q E (change f s) := h

end Steps

/-- All that a run unwraps is there. -/
structure BootstrapConfig.Complete (config : BootstrapConfig) : Prop where
  bridgeAddress : config.bridgeAddress ≠ none
  rpcUrl : config.rpcUrl ≠ none
  chainId : config.chainId ≠ none
  relayerUrl : config.relayerUrl ≠ none
  imageSignature : config.imageSignature ≠ none

theorem required_ok {value : Option α} {message : String}
    (h : BootstrapConfig.required value message = .ok ()) : value ≠ none := by
  intro absent
  rw [absent] at h
  cases h

theorem required_error {value : Option α} {message : String} {e : BootstrapError}
    (h : BootstrapConfig.required value message = .error e) : e = .Config message := by
  unfold BootstrapConfig.required at h
  split at h
  · exact (Except.error.inj h).symm
  · cases h

theorem BootstrapConfig.validate_complete {config : BootstrapConfig}
    (enabled : config.enableKeyBootstrap = true) (valid : config.validate = .ok ()) :
      config.Complete := by
  rw [validate, if_neg (by simp [enabled])] at valid
  obtain ⟨_, bridge, valid⟩ := (Outcome.bind_ok _ _ _).mp valid
  obtain ⟨_, rpc, valid⟩ := (Outcome.bind_ok _ _ _).mp valid
  obtain ⟨_, chain, valid⟩ := (Outcome.bind_ok _ _ _).mp valid
  obtain ⟨_, relayer, valid⟩ := (Outcome.bind_ok _ _ _).mp valid
  have image :
      required config.imageSignature "IMAGE_SIGNATURE is required when bootstrap is enabled" =
        .ok () := by
    split at valid
    · exact ((Outcome.bind_ok _ _ _).mp valid).choose_spec.2
    · exact valid
  exact ⟨required_ok bridge, required_ok rpc, required_ok chain, required_ok relayer,
    required_ok image⟩

theorem BootstrapConfig.validate_error {config : BootstrapConfig} {e : BootstrapError}
    (invalid : config.validate = .error e) : ∃ message, e = .Config message := by
  unfold validate at invalid
  split at invalid
  · cases invalid
  rcases (Outcome.bind_error _ _ _).mp invalid with h | ⟨_, -, invalid⟩
  · exact ⟨_, required_error h⟩
  rcases (Outcome.bind_error _ _ _).mp invalid with h | ⟨_, -, invalid⟩
  · exact ⟨_, required_error h⟩
  rcases (Outcome.bind_error _ _ _).mp invalid with h | ⟨_, -, invalid⟩
  · exact ⟨_, required_error h⟩
  rcases (Outcome.bind_error _ _ _).mp invalid with h | ⟨_, -, invalid⟩
  · exact ⟨_, required_error h⟩
  split at invalid
  · rcases (Outcome.bind_error _ _ _).mp invalid with h | ⟨_, -, invalid⟩
    · exact ⟨_, required_error h⟩
    · exact ⟨_, required_error invalid⟩
  · exact ⟨_, required_error invalid⟩

theorem needed_error {value : Option α} {message : String} {e : BootstrapError}
    (h : needed value message = .error e) : e = .Config message := by
  cases value with
  | some a => cases h
  | none => exact (Except.error.inj h).symm

theorem ProofClient.fromConfig_error {config : BootstrapConfig} {e : BootstrapError}
    (h : ProofClient.fromConfig env config = .error e) :
    (∃ message, e = .Config message) ∨ ∃ message, e = .ProofServiceUnavailable message := by
  unfold ProofClient.fromConfig at h
  rcases (Outcome.bind_error _ _ _).mp h with url | ⟨_, -, h⟩
  · unfold serviceUrlOf at url
    split at url
    · exact .inl ⟨_, needed_error url⟩
    · cases url
    · cases url
  rcases (Outcome.bind_error _ _ _).mp h with client | ⟨_, -, h⟩
  · obtain ⟨message, -, rfl⟩ := (Outcome.mapError_error _ _ _).mp client
    exact .inr ⟨message, rfl⟩
  · cases h

theorem parseBridge_error {text : String} {e : BootstrapError}
    (h : parseBridge env text = .error e) :
    ∃ message, e = .Config message := by
  obtain ⟨message, -, rfl⟩ := (Outcome.mapError_error _ _ _).mp h
  exact ⟨_, rfl⟩

theorem ContractSubmitter.fromConfig_error {config : BootstrapConfig} {e : BootstrapError}
    (h : ContractSubmitter.fromConfig env config = .error e) : ∃ message, e = .Config message := by
  unfold ContractSubmitter.fromConfig at h
  rcases (Outcome.bind_error _ _ _).mp h with url | ⟨_, -, h⟩
  · exact ⟨_, needed_error url⟩
  rcases (Outcome.bind_error _ _ _).mp h with text | ⟨_, -, h⟩
  · exact ⟨_, needed_error text⟩
  rcases (Outcome.bind_error _ _ _).mp h with address | ⟨_, -, h⟩
  · exact parseBridge_error env address
  · cases h

/-- What the calls before the first proof leave as it is. -/
structure Environment.Keeps (P : ω → Prop) : Prop where
  generate : ∀ w, P w → P (env.generate w).2
  teeKeyManager : ∀ rpcUrl bridge w, P w →
    Ends (fun _ => P) (fun _ => P) (env.teeKeyManager rpcUrl bridge w)
  newAttestationClient : ∀ audience w, P w →
    Ends (fun _ => P) (fun _ => P) (env.newAttestationClient audience w)
  getToken : ∀ audience w, P w → Ends (fun _ => P) (fun _ => P) (env.getToken audience w)

section Stages

variable {Q : α → BootstrapStateMachine × ω → Prop} {E : Stop → BootstrapStateMachine × ω → Prop}
  {s : BootstrapStateMachine × ω} {config : BootstrapConfig} {P : ω → Prop} (keeps : env.Keeps P)

include keeps

theorem ends_newRelayerClient {Q : RelayerClient → ω → Prop} {E : BootstrapError → ω → Prop} {w : ω}
    (bridge : Address) (rpcUrl : String) (chainId : UInt64) (pre : P w)
    (good : ∀ client w, P w → Q client w) (bad : ∀ message w, P w → E (.Config message) w) :
    Ends Q E (newRelayerClient env bridge rpcUrl chainId w) := by
  have kept := keeps.teeKeyManager rpcUrl bridge w pre
  unfold newRelayerClient
  split
  · exact bad _ w pre
  · exact bad _ w pre
  · split
    · next failed =>
      rw [failed] at kept
      exact bad _ _ kept
    · next answered =>
      rw [answered] at kept
      exact good _ _ kept

/-- The machine stays as it is. -/
theorem ends_createClients {Q : Clients → BootstrapStateMachine × ω → Prop} (pre : P s.2)
    (good : ∀ clients w, P w → Q clients (s.1, w))
    (bad : ∀ message w, P w → E (.failed (.Config message)) (s.1, w))
    (unavailable : ∀ message w, P w → E (.failed (.ProofServiceUnavailable message)) (s.1, w))
    (incomplete : ¬config.Complete → ∀ w, P w → E .panicked (s.1, w)) :
    Ends Q E (createClients env config s) := by
  unfold createClients
  refine ends_bind (ends_check ?_ fun e h => ?_)
  · intro proofClient _
    refine ends_bind (ends_check ?_ fun e h => ?_)
    · intro submitter _
      refine ends_bind (ends_unwrap ?_
        fun absent => incomplete (fun c => c.bridgeAddress absent) _ pre)
      intro text _
      refine ends_bind (ends_check ?_ fun e h => ?_)
      · intro bridge _
        refine ends_bind (ends_unwrap ?_ fun absent => incomplete (fun c => c.rpcUrl absent) _ pre)
        intro rpcUrl _
        refine ends_bind (ends_unwrap ?_
          fun absent => incomplete (fun c => c.relayerUrl absent) _ pre)
        intro relayerUrl _
        refine ends_bind (ends_unwrap ?_ fun absent => incomplete (fun c => c.chainId absent) _ pre)
        intro chainId _
        refine ends_bind (ends_outside
          (ends_newRelayerClient env keeps bridge rpcUrl chainId pre ?_ bad))
        intro client w kept
        exact ends_pure (good _ w kept)
      · obtain ⟨message, rfl⟩ := parseBridge_error env h
        exact bad message s.2 pre
    · obtain ⟨message, rfl⟩ := ContractSubmitter.fromConfig_error env h
      exact bad message s.2 pre
  · rcases ProofClient.fromConfig_error env h with ⟨message, rfl⟩ | ⟨message, rfl⟩
    · exact bad message s.2 pre
    · exact unavailable message s.2 pre

omit keeps in
theorem ends_readImageSignature {Q : Bytes → BootstrapStateMachine × ω → Prop}
    (good : ∀ bytes, bytes.length = 65 → Q bytes s)
    (bad : ∀ message, E (.failed (.Config message)) s)
    (incomplete : ¬config.Complete → E .panicked s) : Ends Q E (readImageSignature config s) := by
  unfold readImageSignature
  refine ends_bind (ends_unwrap ?_ fun absent => incomplete fun c => c.imageSignature absent)
  intro text _
  refine ends_bind (ends_check ?_ fun e h => ?_)
  · intro bytes _
    refine ends_bind (ends_check ?_ fun e h => ?_)
    · intro _ passed
      refine ends_pure (good bytes ?_)
      by_contra wrong
      rw [if_pos wrong] at passed
      cases passed
    · split at h
      · cases h
        exact bad _
      · cases h
  · obtain ⟨message, -, rfl⟩ := (Outcome.mapError_error _ _ _).mp h
    exact bad _

theorem ends_fetchAttestationWithRetry {Q : String → ω → Prop}
    {E : BootstrapError → ω → Prop} {w : ω} (pre : P w) (good : ∀ token w, P w → Q token w)
    (bad : ∀ message w, P w → E (.AttestationFetchFailed message) w) :
    Ends Q E (fetchAttestationWithRetry env config w) := by
  have client := keeps.newAttestationClient config.audience w pre
  unfold fetchAttestationWithRetry
  split
  · next failed =>
    rw [failed] at client
    exact bad _ _ client
  · next v answered =>
    rw [answered] at client
    have fetched := keeps.getToken config.audience v client
    split
    · next failed =>
      rw [failed] at fetched
      exact bad _ _ fetched
    · next given =>
      rw [given] at fetched
      exact good _ _ fetched

theorem ends_generateKey {Q : EvmKeyManager → BootstrapStateMachine × ω → Prop}
    (pre : P s.2)
    (good : ∀ key w, P w →
      Q key ({ s.1 with state := .GeneratingKey, keyManager := some key }, w)) :
    Ends Q E (generateKey env s) :=
  good _ _ (keeps.generate s.2 pre)

theorem ends_fetchAttestation {Q : String × Bytes → BootstrapStateMachine × ω → Prop}
    (pre : P s.2) (good : ∀ token imageSignature w, imageSignature.length = 65 → P w →
      Q (token, imageSignature)
      ({ s.1 with state := .FetchingAttestation, attestationToken := some token }, w))
    (bad : ∀ message w, P w → E (.failed (.AttestationFetchFailed message))
      ({ s.1 with state := .FetchingAttestation }, w))
    (unread : ∀ message token w, P w → E (.failed (.Config message))
      ({ s.1 with state := .FetchingAttestation, attestationToken := some token }, w))
    (incomplete : ¬config.Complete → ∀ token w, P w → E .panicked
      ({ s.1 with state := .FetchingAttestation, attestationToken := some token }, w)) :
    Ends Q E (fetchAttestation env config s) := by
  unfold fetchAttestation
  refine ends_bind (ends_change (ends_bind (ends_outside
    (ends_fetchAttestationWithRetry env keeps pre ?_ bad))))
  intro token w kept
  refine ends_bind (ends_change (ends_bind (ends_readImageSignature ?_ ?_ ?_)))
  · intro imageSignature length
    exact ends_pure (good token imageSignature w length kept)
  · intro message
    exact unread message token w kept
  · intro absent
    exact incomplete absent token w kept

omit keeps

/-- What every failed attempt takes on, holds when the attempts are used up. -/
theorem ends_retrying {Q : α → ω → Prop} {E : BootstrapError → ω → Prop} {w : ω}
    (operation : String)
    (secs maxRetries : Nat) (call : EStateM BootstrapError ω α) (I : Nat → ω → Prop) (start : I 0 w)
    (step : ∀ n < maxRetries, ∀ u, I n u → Ends Q (fun e v =>
      (e.isRetryable = true → I (n + 1) (env.sleep (secs * (n + 1)) v)) ∧
        (e.isRetryable = false → E e v)) (call u))
    (exhausted : ∀ last u, I maxRetries u → E (.MaxRetriesExceeded operation last) u) :
    Ends Q E (retrying env operation secs maxRetries call w) := by
  unfold retrying
  refine ends_seq _ (ends_tries (Q := Q) (fun n _ => I n) maxRetries w start ?_) ?_
  · intro n within last u reached
    exact ends_caught (step n within u reached)
  · intro r u ended
    cases r with
    | inl a => exact ended
    | inr last => exact exhausted _ u ended

theorem ends_verifyRegistrationWithRetry {Q : Unit → ω → Prop}
    {E : BootstrapError → ω → Prop} {w : ω}
    (submitter : ContractSubmitter) (keyType : KeyType) (address : Address) (maxRetries : Nat)
    (I : Nat → ω → Prop) (start : I 0 (env.sleep 2 w))
    (step : ∀ n < maxRetries, ∀ u, I n u → Ends (fun valid v =>
      (valid = true → Q () v) ∧ (valid = false →
        I (n + 1) (if n + 1 < maxRetries then env.sleep (2 * (n + 1)) v else v))) E
      (env.isKeyValid submitter keyType address u))
    (exhausted : ∀ u, I maxRetries u → E (.KeyVerificationFailed
      "Key not found in contract after registration (RPC sync issue?)") u) :
    Ends Q E (verifyRegistrationWithRetry env submitter keyType address maxRetries w) := by
  unfold verifyRegistrationWithRetry
  refine ends_bind (ends_modify ?_)
  refine ends_seq _ (ends_tries (Q := Q) (fun n _ => I n) maxRetries _ start ?_) ?_
  · intro n within last u reached
    refine ends_seq _ (step n within u reached) ?_
    intro valid v answered
    cases valid with
    | true => exact answered.1 rfl
    | false =>
      have going := answered.2 rfl
      refine ends_pure ?_
      change I (n + 1) ((if n + 1 < maxRetries then env.sleep (2 * (n + 1)) else id) v)
      split
      · next more =>
        rw [if_pos more] at going
        exact going
      · next done =>
        rw [if_neg done] at going
        exact going
  · intro r u ended
    cases r with
    | inl a => exact ended
    | inr last => exact exhausted u ended

end Stages

/-- A call for a proof, a registration or the state of the key, with its answer. -/
inductive Exchange where
  | proof (client : ProofClient) (jwtToken expectedAudience : String)
      (evmPublicKey imageSignature : Bytes) (answer : Except BootstrapError ProofResponse)
  | register (client : RelayerClient) (signer : PrivateKeySigner) (publicValues proofBytes : String)
      (keyType : KeyType) (answer : Except BootstrapError Unit)
  | check (submitter : ContractSubmitter) (keyType : KeyType) (address : Address)
      (answer : Except BootstrapError Bool)

def Environment.recorded (env : Environment ω) : Environment (ω × List Exchange) where
  parseAddress := env.parseAddress
  parseUrl := env.parseUrl
  buildClient := env.buildClient
  generate s := ((env.generate s.1).1, ((env.generate s.1).2, s.2))
  teeKeyManager rpcUrl bridge := noted (fun _ => []) (env.teeKeyManager rpcUrl bridge)
  newAttestationClient audience := noted (fun _ => []) (env.newAttestationClient audience)
  getToken audience := noted (fun _ => []) (env.getToken audience)
  generateProof client jwtToken audience publicKey imageSignature :=
    noted (fun answer => [.proof client jwtToken audience publicKey imageSignature answer])
      (env.generateProof client jwtToken audience publicKey imageSignature)
  registerKey client signer publicValues proofBytes keyType :=
    noted (fun answer => [.register client signer publicValues proofBytes keyType answer])
      (env.registerKey client signer publicValues proofBytes keyType)
  isKeyValid submitter keyType address :=
    noted (fun answer => [.check submitter keyType address answer])
      (env.isKeyValid submitter keyType address)
  sleep secs s := (env.sleep secs s.1, s.2)

theorem recorded_keeps (record : List Exchange) : env.recorded.Keeps fun s => s.2 = record := by
  have silent {ε α : Type} {x : EStateM ε ω α} {s : ω × List Exchange} (pre : s.2 = record) :
      Ends (fun _ t => t.2 = record) (fun _ t => t.2 = record) (noted (fun _ => []) x s) :=
    ends_noted (fun _ _ _ => (List.append_nil _).trans pre)
      fun _ _ _ => (List.append_nil _).trans pre
  exact ⟨fun _ pre => pre, fun _ _ _ pre => silent pre, fun _ _ pre => silent pre,
    fun _ _ pre => silent pre⟩

/-- The machine and its surroundings without the record. -/
abbrev unrecorded : BootstrapStateMachine × (ω × List Exchange) → BootstrapStateMachine × ω :=
  Prod.map id Prod.fst

theorem extends_check (x : Except BootstrapError α) :
    Extends (unrecorded (ω := ω)) (check x) (check x) := by
  intro s
  cases x with
  | ok a => rfl
  | error e => rfl

theorem extends_unwrap (value : Option α) :
    Extends (unrecorded (ω := ω)) (unwrap value) (unwrap value) := by
  intro s
  cases value with
  | some a => rfl
  | none => rfl

theorem extends_change (f : BootstrapStateMachine → BootstrapStateMachine) :
    Extends (unrecorded (ω := ω)) (change f) (change f) := fun _ => rfl

theorem extends_outside {y : EStateM BootstrapError (ω × List Exchange) α}
    {x : EStateM BootstrapError ω α}
    (h : Extends Prod.fst y x) : Extends unrecorded (outside y) (outside x) := by
  intro s
  refine ends_outside (ends_mono (fun a w ended => ?_) (fun e w ended => ?_) (h s.2))
  · have started : x (unrecorded s).2 = .ok a w.1 := ended
    simp only [outside, started]
    rfl
  · have started : x (unrecorded s).2 = .error e w.1 := ended
    simp only [outside, started]
    rfl

theorem extends_retrying (operation : String) (secs maxRetries : Nat)
    {y : EStateM BootstrapError (ω × List Exchange) α} {x : EStateM BootstrapError ω α}
    (h : Extends Prod.fst y x) :
      Extends Prod.fst (retrying env.recorded operation secs maxRetries y)
      (retrying env operation secs maxRetries x) := by
  unfold retrying
  refine extends_bind (extends_tries (fun _ => extends_caught h) (fun _ _ => rfl) maxRetries)
    fun r => ?_
  cases r with
  | inl a => exact extends_pure a
  | inr last => exact extends_throw _

theorem extends_verifyRegistrationWithRetry (submitter : ContractSubmitter) (keyType : KeyType)
    (address : Address) (maxRetries : Nat) :
    Extends Prod.fst (verifyRegistrationWithRetry env.recorded submitter keyType address maxRetries)
      (verifyRegistrationWithRetry env submitter keyType address maxRetries) := by
  have attempt : Extends Prod.fst (verifyAttempt env.recorded submitter keyType address)
      (verifyAttempt env submitter keyType address) := by
    unfold verifyAttempt
    refine extends_bind
      (extends_noted (fun answer => [Exchange.check submitter keyType address answer]) _)
      fun valid => ?_
    cases valid with
    | true => exact extends_pure _
    | false => exact extends_pure _
  unfold verifyRegistrationWithRetry
  refine extends_bind (extends_modify fun _ => rfl) fun _ => ?_
  refine extends_bind (extends_tries (fun _ => attempt) (fun n t => ?_) maxRetries) fun r => ?_
  · split
    · rfl
    · rfl
  · cases r with
    | inl u => exact extends_pure _
    | inr last => exact extends_throw _

theorem extends_newRelayerClient (bridge : Address) (rpcUrl : String) (chainId : UInt64) :
    Extends Prod.fst (newRelayerClient env.recorded bridge rpcUrl chainId)
      (newRelayerClient env bridge rpcUrl chainId) := by
  intro s
  have asked : env.recorded.teeKeyManager rpcUrl bridge s =
      noted (fun _ => []) (env.teeKeyManager rpcUrl bridge) s := rfl
  have built : env.recorded.buildClient = env.buildClient := rfl
  have parsed : env.recorded.parseUrl rpcUrl = env.parseUrl rpcUrl := rfl
  unfold newRelayerClient
  rw [built, parsed, asked, noted]
  cases env.buildClient with
  | error e => rfl
  | ok u =>
    cases env.parseUrl rpcUrl with
    | error e => rfl
    | ok v =>
      cases answer : env.teeKeyManager rpcUrl bridge s.1 with
      | ok address w => rfl
      | error e w => rfl

theorem extends_fetchAttestationWithRetry (config : BootstrapConfig) :
    Extends Prod.fst (fetchAttestationWithRetry env.recorded config)
      (fetchAttestationWithRetry env config) := by
  intro s
  have asked : env.recorded.newAttestationClient config.audience s =
      noted (fun _ => []) (env.newAttestationClient config.audience) s := rfl
  have fetched (s : ω × List Exchange) : env.recorded.getToken config.audience s =
      noted (fun _ => []) (env.getToken config.audience) s := rfl
  unfold fetchAttestationWithRetry
  rw [asked, noted]
  cases env.newAttestationClient config.audience s.1 with
  | error e w => rfl
  | ok u w =>
    simp only [fetched, noted]
    cases env.getToken config.audience w with
    | error e w => rfl
    | ok token w => rfl

theorem extends_createClients (config : BootstrapConfig) :
    Extends unrecorded (createClients env.recorded config) (createClients env config) := by
  unfold createClients
  refine extends_bind (extends_check _) fun proofClient => ?_
  refine extends_bind (extends_check _) fun submitter => ?_
  refine extends_bind (extends_unwrap _) fun text => ?_
  refine extends_bind (extends_check _) fun bridge => ?_
  refine extends_bind (extends_unwrap _) fun rpcUrl => ?_
  refine extends_bind (extends_unwrap _) fun relayerUrl => ?_
  refine extends_bind (extends_unwrap _) fun chainId => ?_
  refine extends_bind (extends_outside (extends_newRelayerClient env bridge rpcUrl chainId))
    fun client => ?_
  exact extends_pure _

theorem extends_fetchAttestation (config : BootstrapConfig) :
    Extends unrecorded (fetchAttestation env.recorded config) (fetchAttestation env config) := by
  have image : Extends (unrecorded (ω := ω)) (readImageSignature config)
    (readImageSignature config) :=
    extends_bind (extends_unwrap _) fun text => extends_bind (extends_check _) fun bytes =>
      extends_bind (extends_check _) fun _ => extends_pure bytes
  unfold fetchAttestation
  refine extends_bind (extends_change _) fun _ => ?_
  refine extends_bind (extends_outside (extends_fetchAttestationWithRetry env config))
    fun attestation => ?_
  refine extends_bind (extends_change _) fun _ => ?_
  exact extends_bind image fun imageSignature => extends_pure _

/-- The record changes nothing. -/
theorem extends_run (config : BootstrapConfig) :
    Extends unrecorded (run env.recorded config) (run env config) := by
  have ownKeyType : Extends (unrecorded (ω := ω)) ownKeyType ownKeyType := fun _ => rfl
  unfold run
  refine extends_bind (extends_check _) fun _ => ?_
  refine extends_bind (extends_bind (extends_change _) fun _ => extends_bind (fun _ => rfl)
    fun key => extends_bind (extends_change _) fun _ => extends_pure key) fun key => ?_
  refine extends_bind (extends_createClients env config) fun clients => ?_
  refine extends_bind (extends_fetchAttestation env config) fun fetched => ?_
  refine extends_bind (extends_bind (extends_change _) fun _ => extends_bind (extends_outside
    (extends_retrying env _ _ _
      (extends_noted (fun answer => [Exchange.proof clients.proofClient fetched.1
        config.audience key.publicKey fetched.2 answer]) _))) fun proof =>
        extends_bind (extends_change _) fun _ => extends_pure proof) fun proof => ?_
  refine extends_bind (extends_bind (extends_change _) fun _ => extends_bind ownKeyType
    fun keyType => extends_outside (extends_retrying env _ _ _ (extends_noted
      (fun answer => [Exchange.register clients.relayerClient key.signer proof.publicValues
        proof.proofBytes keyType answer]) _))) fun _ => ?_
  refine extends_bind (extends_bind (extends_change _) fun _ => extends_bind ownKeyType
    fun keyType => extends_outside (extends_verifyRegistrationWithRetry env _ _ _ _)) fun _ => ?_
  exact extends_bind (extends_change _) fun _ => extends_pure key

/-- The errors that a run can end with in a state. No error that was worth another attempt is passed
on from the steps that make one. -/
inductive Cause : BootstrapState → BootstrapError → Prop where
  | configuration {state : BootstrapState} (message : String)
      (early : state = .NotStarted ∨ state = .GeneratingKey ∨ state = .FetchingAttestation) :
      Cause state (.Config message)
  | client (message : String) : Cause .GeneratingKey (.ProofServiceUnavailable message)
  | attestation (message : String) : Cause .FetchingAttestation (.AttestationFetchFailed message)
  | proof {e : BootstrapError} (final : e.isRetryable = false) : Cause .GeneratingProof e
  | registration {e : BootstrapError} (final : e.isRetryable = false) : Cause .RegisteringKey e
  | answer {submitter : ContractSubmitter} {keyType : KeyType} {address : Address}
      {e : BootstrapError}
      {u v : ω} (failed : env.isKeyValid submitter keyType address u = .error e v) :
      Cause .VerifyingRegistration e
  | absent (message : String) : Cause .VerifyingRegistration (.KeyVerificationFailed message)

/-- The machine of a run that was given up. The error is not kept in it. -/
structure Stopped (config : BootstrapConfig) (stop : Stop) (m : BootstrapStateMachine) : Prop where
  unfinished : m.state ≠ .Ready ∧ m.state ≠ .Failed
  lastError : m.lastError = none
  panicked : stop = .panicked → config.enableKeyBootstrap = false
  cause : ∀ e, stop = .failed e → Cause env m.state e

/-- A proof was given for the key, a registration with it was acknowledged after that, and the last
answer of all was that the key is valid. -/
structure Readied (config : BootstrapConfig) (keyType : KeyType) (key : EvmKeyManager)
    (s : BootstrapStateMachine × (ω × List Exchange)) : Prop where
  state : s.1.state = .Ready
  keyManager : s.1.keyManager = some key
  answers : ∃ (clients : Clients) (token : String) (imageSignature : Bytes) (proof : ProofResponse)
      (proofs registrations questions : List Exchange),
    s.1.attestationToken = some token ∧ s.1.proof = some proof ∧ imageSignature.length = 65 ∧
    s.2.2 = proofs ++
      [.proof clients.proofClient token config.audience key.publicKey imageSignature (.ok proof)] ++
      registrations ++
      [.register clients.relayerClient key.signer proof.publicValues proof.proofBytes keyType
        (.ok ())] ++
      questions ++ [.check clients.submitter keyType key.address (.ok true)]

/-- A record only grows over repeated calls. -/
theorem ends_retrying_answer {Q : α → ω × List Exchange → Prop}
    {E : BootstrapError → ω × List Exchange → Prop}
    {s : ω × List Exchange} (operation : String) (secs maxRetries : Nat)
    (record : Except BootstrapError α → Exchange) (x : EStateM BootstrapError ω α)
    (good : ∀ more a w, Q a (w, s.2 ++ more ++ [record (.ok a)]))
    (bad : ∀ e t, e.isRetryable = false → E e t) :
    Ends Q E (retrying env.recorded operation secs maxRetries
      (noted (fun answer => [record answer]) x) s) := by
  refine ends_retrying env.recorded operation secs maxRetries _
    (fun _ t => ∃ more, t.2 = s.2 ++ more)
    ⟨[], (List.append_nil _).symm⟩ ?_ (fun last t _ => bad _ t rfl)
  intro n _ t reached
  obtain ⟨more, grown⟩ := reached
  refine ends_noted (fun a w _ => ?_)
    (fun e w _ => ⟨fun _ => ⟨more ++ [record (.error e)], ?_⟩, bad e _⟩)
  · rw [grown]
    exact good more a w
  · rw [grown, List.append_assoc]
    rfl

inductive Request where
  | proof (jwtToken : String) (evmPublicKey imageSignature : Bytes)
  | register (publicValues proofBytes : String) (keyType : KeyType)
  | check (keyType : KeyType) (address : Address)

def Exchange.request : Exchange → Request
  | .proof _ jwtToken _ evmPublicKey imageSignature _ => .proof jwtToken evmPublicKey imageSignature
  | .register _ _ publicValues proofBytes keyType _ => .register publicValues proofBytes keyType
  | .check _ keyType address _ => .check keyType address

def requestsOf (record : List Exchange) : List Request := record.map Exchange.request

theorem requestsOf_noted {record : List Exchange} {asked : List Request} {n : Nat}
    {request : Request}
    (same : requestsOf record = asked ++ List.replicate n request) (exchange : Exchange)
    (own : exchange.request = request) :
    requestsOf (record ++ [exchange]) = asked ++ List.replicate (n + 1) request := by
  subst own
  rw [requestsOf] at same
  rw [requestsOf, List.map_append, List.replicate_succ', ← List.append_assoc, same]
  rfl

/-- First the proofs that are asked for, then the registrations with the proof that was given, then
the questions about the key; of each no more than the configuration allows. -/
structure Orderly (config : BootstrapConfig) (m : BootstrapStateMachine) (requests : List Request) :
    Prop where
  parts : ∃ (p r c : Nat) (proof registration question : Request),
    requests = List.replicate p proof ++ List.replicate r registration ++
      List.replicate c question ∧
    p ≤ config.proofMaxRetries ∧ r ≤ config.relayerMaxRetries ∧ c ≤ config.verificationMaxRetries ∧
    (p ≠ 0 → ∃ key token imageSignature, m.keyManager = some key ∧ m.attestationToken = some token ∧
      proof = .proof token key.publicKey imageSignature) ∧
    (r ≠ 0 → p ≠ 0 ∧ ∃ given, m.proof = some given ∧
      registration = .register given.publicValues given.proofBytes m.keyType) ∧
    (c ≠ 0 → r ≠ 0 ∧ ∃ key, m.keyManager = some key ∧ question = .check m.keyType key.address) ∧
    (m.state = .Ready → c ≠ 0)

/-- A call that is repeated is asked for once for each attempt. -/
theorem ends_retrying_recorded {Q : α → ω × List Exchange → Prop}
    {E : BootstrapError → ω × List Exchange → Prop}
    {s : ω × List Exchange} (operation : String) (secs maxRetries : Nat)
    (record : Except BootstrapError α → Exchange) (request : Request)
    (own : ∀ answer, (record answer).request = request) (x : EStateM BootstrapError ω α)
    (good : ∀ n a t, n ≠ 0 → n ≤ maxRetries →
      requestsOf t.2 = requestsOf s.2 ++ List.replicate n request → Q a t)
    (bad : ∀ n e t, n ≤ maxRetries → requestsOf t.2 = requestsOf s.2 ++
      List.replicate n request → E e t) :
    Ends Q E (retrying env.recorded operation secs maxRetries
      (noted (fun answer => [record answer]) x) s) := by
  refine ends_retrying env.recorded operation secs maxRetries _
    (fun n t => requestsOf t.2 = requestsOf s.2 ++ List.replicate n request)
    (List.append_nil _).symm ?_ ?_
  · intro n within t reached
    refine ends_noted (fun a w _ => ?_) (fun e w _ => ?_)
    · exact good (n + 1) a _ (Nat.succ_ne_zero n) within (requestsOf_noted reached _ (own _))
    · have next := requestsOf_noted reached _ (own (.error e))
      exact ⟨fun _ => next, fun _ => bad (n + 1) e _ within next⟩
  · intro last t reached
    exact bad maxRetries _ t (Nat.le_refl _) reached

section Orderly

variable {env} {config : BootstrapConfig} {clients : Clients} {key : EvmKeyManager}
  {proof : ProofResponse}
  {token : String} {imageSignature : Bytes} {keyType : KeyType} {m : BootstrapStateMachine}
  {requests : List Request}

theorem Orderly.idle (nothing : requests = []) (running : m.state ≠ .Ready) :
    Orderly config m requests :=
  let question := Request.check m.keyType 0
  ⟨0, 0, 0, question, question, question, nothing, Nat.zero_le _, Nat.zero_le _, Nat.zero_le _,
    fun h => absurd rfl h, fun h => absurd rfl h, fun h => absurd rfl h, fun h => absurd h running⟩

/-- Proofs were asked for, and the last one was given. -/
structure Proved (config : BootstrapConfig) (key : EvmKeyManager) (keyType : KeyType)
    (proof : ProofResponse) (p : Nat) (request : Request) (m : BootstrapStateMachine) : Prop where
  keyManager : m.keyManager = some key
  proof : m.proof = some proof
  keyType : m.keyType = keyType
  asked : p ≠ 0 ∧ p ≤ config.proofMaxRetries
  request : ∃ token imageSignature, m.attestationToken = some token ∧
    request = .proof token key.publicKey imageSignature

theorem Proved.orderly {p : Nat} {request : Request}
    (proved : Proved config key keyType proof p request m)
    {r c : Nat} (registrations : r ≤ config.relayerMaxRetries)
    (checks : c ≤ config.verificationMaxRetries)
    (registered : c ≠ 0 → r ≠ 0) (ready : m.state = .Ready → c ≠ 0) :
    Orderly config m (List.replicate p request ++
      List.replicate r (.register proof.publicValues proof.proofBytes keyType) ++
      List.replicate c (.check keyType key.address)) := by
  obtain ⟨sameKey, sameProof, sameType, ⟨asked, bound⟩, token, imageSignature, sameToken,
    content⟩ := proved
  refine ⟨p, r, c, _, _, _, rfl, bound, registrations, checks, fun _ => ?_,
    fun _ => ⟨asked, proof, sameProof, ?_⟩,
    fun checked => ⟨registered checked, key, sameKey, ?_⟩, ready⟩
  · exact ⟨key, token, imageSignature, sameKey, sameToken, content⟩
  · rw [sameType]
  · rw [sameType]

theorem ends_generateProof_recorded {s : BootstrapStateMachine × (ω × List Exchange)}
    (sameKey : s.1.keyManager = some key) (sameToken : s.1.attestationToken = some token)
    (silent : s.2.2 = []) :
    Ends (fun proof t => ∃ p request, Proved config key s.1.keyType proof p request t.1 ∧
        requestsOf t.2.2 = List.replicate p request)
      (fun _ t => Orderly config t.1 (requestsOf t.2.2))
      (generateProof env.recorded config clients key token imageSignature s) := by
  let request := Request.proof token key.publicKey imageSignature
  have content : ∃ token imageSignature, s.1.attestationToken = some token ∧
      request = .proof token key.publicKey imageSignature := ⟨token, imageSignature, sameToken, rfl⟩
  have nothing (record : List Exchange) (n : Nat)
      (asked : requestsOf record = requestsOf s.2.2 ++ List.replicate n request) :
      requestsOf record = List.replicate n request := by
    rw [asked, silent]
    rfl
  refine ends_bind (ends_change (ends_bind (ends_outside ?_)))
  refine ends_retrying_recorded env _ _ _
    (Exchange.proof clients.proofClient token config.audience key.publicKey imageSignature) request
    (fun _ => rfl) _ (fun p proof t more bound asked => ?_) (fun p e t bound asked => ?_)
  · exact ends_bind (ends_change
      (ends_pure ⟨p, request, ⟨sameKey, rfl, rfl, ⟨more, bound⟩, content⟩, nothing _ _ asked⟩))
  · refine ⟨p, 0, 0, request, request, request, ?_, bound, Nat.zero_le _, Nat.zero_le _,
      fun _ => ?_, fun h => absurd rfl h, fun h => absurd rfl h, nofun⟩
    · simpa using nothing _ _ asked
    · exact ⟨key, token, imageSignature, sameKey, sameToken, rfl⟩

theorem ends_registerKey_recorded {s : BootstrapStateMachine × (ω × List Exchange)} {p : Nat}
    {request : Request} (proved : Proved config key keyType proof p request s.1)
    (asked : requestsOf s.2.2 = List.replicate p request) :
    Ends (fun _ t => Proved config key keyType proof p request t.1 ∧
        ∃ r ≠ 0, r ≤ config.relayerMaxRetries ∧ requestsOf t.2.2 = List.replicate p request ++
          List.replicate r (.register proof.publicValues proof.proofBytes keyType))
      (fun _ t => Orderly config t.1 (requestsOf t.2.2))
      (registerKey env.recorded config clients key proof s) := by
  obtain ⟨sameKey, sameProof, rfl, bound, content⟩ := proved
  have kept : Proved config key s.1.keyType proof p request { s.1 with state := .RegisteringKey } :=
    ⟨sameKey, sameProof, rfl, bound, content⟩
  refine ends_bind (ends_change (ends_bind (ends_outside ?_)))
  refine ends_retrying_recorded env _ _ _
    (Exchange.register clients.relayerClient key.signer proof.publicValues proof.proofBytes
      s.1.keyType)
    (.register proof.publicValues proof.proofBytes s.1.keyType) (fun _ => rfl) _
    (fun r _ t registered bound more => ?_) (fun r e t bound more => ?_)
  · exact ⟨kept, r, registered, bound, more.trans (congrArg (· ++ _) asked)⟩
  · have orderly := kept.orderly bound (Nat.zero_le _) (fun h => absurd rfl h) nofun
    rw [more]
    simpa [asked] using orderly

theorem ends_verifyRegistration_recorded {s : BootstrapStateMachine × (ω × List Exchange)}
    {p r : Nat}
    {request : Request} (proved : Proved config key keyType proof p request s.1)
    (registered : r ≠ 0) (bound : r ≤ config.relayerMaxRetries)
    (asked : requestsOf s.2.2 = List.replicate p request ++
      List.replicate r (.register proof.publicValues proof.proofBytes keyType)) :
    Ends (fun _ t => Proved config key keyType proof p request t.1 ∧
        ∃ c ≠ 0, c ≤ config.verificationMaxRetries ∧ requestsOf t.2.2 = List.replicate p request ++
          List.replicate r (.register proof.publicValues proof.proofBytes keyType) ++
          List.replicate c (.check keyType key.address))
      (fun _ t => Orderly config t.1 (requestsOf t.2.2))
      (verifyRegistration env.recorded config clients key s) := by
  obtain ⟨sameKey, sameProof, rfl, given, content⟩ := proved
  have kept : Proved config key s.1.keyType proof p request
    { s.1 with state := .VerifyingRegistration } :=
    ⟨sameKey, sameProof, rfl, given, content⟩
  let question := Request.check s.1.keyType key.address
  have orderly {c : Nat} (checks : c ≤ config.verificationMaxRetries) :=
    kept.orderly bound checks (fun _ => registered) nofun
  rw [← asked] at orderly
  refine ends_bind (ends_change (ends_bind (ends_outside ?_)))
  refine ends_verifyRegistrationWithRetry env.recorded _ _ _ _
    (fun n t => requestsOf t.2 = requestsOf s.2.2 ++ List.replicate n question) ?_
    (fun n within t reached => ?_) (fun t reached => ?_)
  · exact (List.append_nil _).symm
  · change Ends _ _ (noted
      (fun answer => [Exchange.check clients.submitter s.1.keyType key.address answer])
      (env.isKeyValid clients.submitter s.1.keyType key.address) t)
    refine ends_noted (fun valid w _ => ⟨fun _ => ?_, fun _ => ?_⟩) (fun e w _ => ?_)
    · have next := requestsOf_noted reached
        (.check clients.submitter s.1.keyType key.address (.ok valid)) rfl
      exact ⟨kept, n + 1, Nat.succ_ne_zero n, within, next.trans (congrArg (· ++ _) asked)⟩
    · have next := requestsOf_noted reached
        (.check clients.submitter s.1.keyType key.address (.ok valid)) rfl
      split
      · exact next
      · exact next
    · rw [requestsOf_noted reached (.check clients.submitter s.1.keyType key.address (.error e))
        rfl]
      exact orderly within
  · rw [reached]
    exact orderly (Nat.le_refl _)

end Orderly

/-- Every run of the machine, whatever answers it gets, asks in this order and no more
often than this. -/
theorem run_requests (config : BootstrapConfig) (keyType : KeyType) (w : ω) :
    Ends (fun _ s => Orderly config s.1 (requestsOf s.2.2))
      (fun _ s => Orderly config s.1 (requestsOf s.2.2))
      (run env.recorded config (.new keyType, (w, []))) := by
  have keeps := recorded_keeps env []
  have idle {m : BootstrapStateMachine} {s : ω × List Exchange} (silent : s.2 = [])
      (running : m.state ≠ .Ready) :
      Orderly config m (requestsOf s.2) := .idle (by rw [silent]; rfl) running
  unfold run
  refine ends_bind (ends_check (fun _ valid => ?_) fun e invalid => idle rfl nofun)
  refine ends_bind (ends_generateKey env.recorded keeps rfl fun key u silent => ?_)
  refine ends_bind (ends_createClients env.recorded keeps silent (fun clients u silent => ?_)
    (fun message u silent => idle silent nofun) (fun message u silent => idle silent nofun)
    (fun incomplete u silent => idle silent nofun))
  refine ends_bind (ends_fetchAttestation env.recorded keeps silent
    (fun token imageSignature u length silent => ?_)
    (fun message u silent => idle silent nofun) (fun message token u silent => idle silent nofun)
    (fun incomplete token u silent => idle silent nofun))
  refine ends_seq _ (ends_generateProof_recorded rfl rfl silent) fun proof s asked => ?_
  obtain ⟨p, request, proved, asked⟩ := asked
  refine ends_seq _ (ends_registerKey_recorded proved asked) fun _ s registered => ?_
  obtain ⟨proved, r, acknowledged, bound, registered⟩ := registered
  refine ends_seq _ (ends_verifyRegistration_recorded proved acknowledged bound registered) ?_
  intro _ s checked
  obtain ⟨proved, c, more, checks, checked⟩ := checked
  refine ends_bind (ends_change (ends_pure ?_))
  have ready : Proved config key _ proof p request { s.1 with state := .Ready } :=
    ⟨proved.keyManager, proved.proof, proved.keyType, proved.asked, proved.request⟩
  rw [checked]
  exact ready.orderly bound checks (fun _ => acknowledged) fun _ => more

end SyndDB.Bootstrap.StateMachine
