import SyndDB.RiscZero.KeyBinding

namespace SyndDB.Sequencer

open Octets
open SyndDB.Stylus (isUtf8 splitDot base64urlDecode)
open SyndDB.RiscZero (GcpCsClaims JwkKey ParsedJwt ValidationResult VerificationError Environment
  parseJwt splitParts orParseError orParseError_ok verifyAttestation verifyAttestation_ok
    publicValues)

inductive AttestationError where
  | VerificationFailed (message : Bytes)
  | InvalidFormat (message : Bytes)
  | Expired
  | NotYetValid
  | InvalidIssuer (expected actual : Bytes)
  | InvalidAudience (expected actual : Bytes)
  | JwksFetchError (message : Bytes)
  | NoMatchingKey (kid : Bytes)
  | SignatureError (message : Bytes)
  | Config (message : Bytes)
  | SecureBootRequired
  | DebugModeEnabled
  | ImageDigestMismatch (expected actual : Bytes)
  deriving DecidableEq

def AttestationError.text : AttestationError → Bytes
  | .VerificationFailed message => ascii "Token verification failed: " ++ message
  | .InvalidFormat message => ascii "Invalid token format: " ++ message
  | .Expired => ascii "Token expired"
  | .NotYetValid => ascii "Token not yet valid"
  | .InvalidIssuer expected actual =>
      ascii "Invalid issuer: expected " ++ expected ++ ascii ", got " ++ actual
  | .InvalidAudience expected actual =>
      ascii "Invalid audience: expected " ++ expected ++ ascii ", got " ++ actual
  | .JwksFetchError message => ascii "Failed to fetch JWKS: " ++ message
  | .NoMatchingKey kid => ascii "No matching key found in JWKS for kid: " ++ kid
  | .SignatureError message => ascii "Signature verification failed: " ++ message
  | .Config message => ascii "Configuration error: " ++ message
  | .SecureBootRequired => ascii "Secure boot not enabled"
  | .DebugModeEnabled => ascii "Debug mode is enabled (dbgstat != disabled)"
  | .ImageDigestMismatch expected actual =>
      ascii "Image digest mismatch: expected " ++ expected ++ ascii ", got " ++ actual

/-- The library's errors in the sequencer's terms. -/
def AttestationError.ofVerification : VerificationError → AttestationError
  | .JwtParseError message => .InvalidFormat (ascii message)
  | .UnsupportedAlgorithm alg => .InvalidFormat (ascii "Unsupported algorithm: " ++ alg)
  | .KeyNotFound kid => .NoMatchingKey kid
  | .InvalidKeyType kty => .SignatureError (ascii "Invalid key type: " ++ kty)
  | .KeyDecodeError component => .SignatureError (ascii "Key decode error: " ++ ascii component)
  | .RsaKeyError message => .SignatureError (ascii "RSA key error: " ++ ascii message)
  | .SignatureVerificationFailed message => .SignatureError (ascii message)
  | .InvalidIssuer iss =>
      .InvalidIssuer (ascii "https://confidentialcomputing.googleapis.com") iss
  | .InvalidSwname swname => .VerificationFailed (ascii "Invalid software name: " ++ swname)
  | .InvalidAudience expected actual => .InvalidAudience expected actual
  | .TokenExpired _ => .Expired
  | .TokenNotYetValid _ => .NotYetValid

structure AttestationConfig where
  expectedAudience : Bytes
  verifyTeeClaims : Bool
  expectedImageDigest : Option Bytes
  deriving DecidableEq

structure AttestationClaims where
  iss : Bytes
  sub : Bytes
  aud : Bytes
  exp : UInt64
  iat : UInt64
  secboot : Bool
  dbgstat : Option Bytes
  hwmodel : Option Bytes
  imageDigest : Option Bytes
  deriving DecidableEq

def nonEmpty (text : Bytes) : Option Bytes := if text = [] then none else some text

def AttestationClaims.ofResult (result : ValidationResult) : AttestationClaims where
  iss := ascii "https://confidentialcomputing.googleapis.com"
  sub := []
  aud := result.audience
  exp := result.validityWindowEnd
  iat := result.validityWindowStart
  secboot := result.secboot
  dbgstat := nonEmpty result.dbgstat
  hwmodel := nonEmpty result.hwmodel
  imageDigest := nonEmpty result.imageDigest

structure CachedJwks where
  jwks : List JwkKey
  /-- in milliseconds -/
  fetchedAt : Nat
  deriving DecidableEq

structure AttestationVerifier where
  config : AttestationConfig
  jwksCache : Option CachedJwks
  jwksUriCache : Option Bytes
  deriving DecidableEq

def AttestationVerifier.new (config : AttestationConfig) : AttestationVerifier :=
  ⟨config, none, none⟩

/-- In milliseconds. -/
def JWKS_CACHE_DURATION : Nat := 3600 * 1000

/-- How a request ends: without an answer, with a status that is no success, with a body that is not
the expected JSON, or with one that is. -/
inductive HttpResponse (α : Type) where
  | failed (error : Bytes)
  | refused (status : Bytes)
  | malformed (error : Bytes)
  | body (value : α)
  deriving DecidableEq

def HttpResponse.received {α : Type} (request endpoint document : Bytes) :
    HttpResponse α → Except AttestationError α
  | .failed error => .error (.JwksFetchError (request ++ ascii " request failed: " ++ error))
  | .refused status => .error (.JwksFetchError (endpoint ++ ascii " endpoint returned " ++ status))
  | .malformed error =>
      .error (.JwksFetchError (ascii "Failed to parse " ++ document ++ ascii ": " ++ error))
  | .body value => .ok value

/-- The network and the clocks during one call. `parseMinimalHeader` is `serde_json` for a structure
with `kid` alone. -/
structure Surroundings where
  parseMinimalHeader : Bytes → Option Bytes
  /-- seconds since the epoch, when the clock is not before it -/
  systemTime : Option UInt64
  /-- the monotonic clock, in milliseconds, at the look into the cache and after a fetch -/
  lookedAt : Nat
  fetchedAt : Nat
  discovery : HttpResponse Bytes
  keys : Bytes → HttpResponse (List JwkKey)

variable {H : Type} (E : Environment H) (S : Surroundings)

def Surroundings.now : UInt64 := S.systemTime.getD 0

/-- The key id, without a look at the rest of the token. -/
def extractKidFromJwt (token : Bytes) : Except String Bytes := do
  if !isUtf8 token then throw "Invalid UTF-8 in JWT"
  let (headerB64, _) ← orParseError "Invalid JWT format" (splitDot token)
  let headerBytes ← base64urlDecode headerB64
  orParseError "Failed to parse JWT header" (S.parseMinimalHeader headerBytes)

namespace AttestationVerifier

variable (verifier : AttestationVerifier)

def getJwksUri : Except AttestationError Bytes × AttestationVerifier :=
  match verifier.jwksUriCache with
  | some uri => (.ok uri, verifier)
  | none =>
      match S.discovery.received (ascii "Discovery") (ascii "Discovery")
        (ascii "discovery document") with
      | .error e => (.error e, verifier)
      | .ok uri => (.ok uri, { verifier with jwksUriCache := some uri })

def fetchJwks : Except AttestationError (List JwkKey) × AttestationVerifier :=
  match verifier.getJwksUri S with
  | (.error e, verifier) => (.error e, verifier)
  | (.ok uri, verifier) =>
      ((S.keys uri).received (ascii "HTTP") (ascii "JWKS") (ascii "JWKS"), verifier)

def getJwks : Except AttestationError (List JwkKey) × AttestationVerifier :=
  match verifier.jwksCache.filter fun cached => S.lookedAt - cached.fetchedAt <
    JWKS_CACHE_DURATION with
  | some cached => (.ok cached.jwks, verifier)
  | none =>
      match verifier.fetchJwks S with
      | (.error e, verifier) => (.error e, verifier)
      | (.ok jwks, verifier) => (.ok jwks, { verifier with jwksCache := some ⟨jwks, S.fetchedAt⟩ })

end AttestationVerifier

namespace AttestationConfig

variable (config : AttestationConfig)

def checkImageDigest (result : ValidationResult) : Except AttestationError Unit :=
  match config.expectedImageDigest with
  | none => .ok ()
  | some expected =>
      if result.imageDigest ≠ [] ∧ result.imageDigest ≠ expected then
        .error (.ImageDigestMismatch expected result.imageDigest)
      else .ok ()

/-- Checks that are made only with `verifyTeeClaims`. -/
def checkTeeClaims (result : ValidationResult) : Except AttestationError Unit := do
  if !result.secboot then throw .SecureBootRequired
  if result.dbgstat ≠ [] ∧ result.dbgstat ≠ ascii "disabled" then throw .DebugModeEnabled
  config.checkImageDigest result

/-- What is left of `verify` once the keys are there. -/
def verifyUnder (jwks : List JwkKey) (kid token : Bytes) (now : UInt64) :
    Except AttestationError AttestationClaims := do
  match jwks.find? fun jwk => jwk.kid = kid with
  | none => throw (.NoMatchingKey kid)
  | some jwk =>
      let result ← (verifyAttestation E token jwk (some config.expectedAudience)
        (some now)).mapError .ofVerification
      if config.verifyTeeClaims then config.checkTeeClaims result
      return .ofResult result

end AttestationConfig

def AttestationVerifier.verify (verifier : AttestationVerifier) (token : Bytes) :
    Except AttestationError AttestationClaims × AttestationVerifier :=
  match extractKidFromJwt S token with
  | .error message => (.error (.InvalidFormat (ascii message)), verifier)
  | .ok kid =>
      match verifier.getJwks S with
      | (.error e, verifier) => (.error e, verifier)
      | (.ok jwks, verifier) => (verifier.config.verifyUnder E jwks kid token S.now, verifier)

/-- The policy of the guest and the contract, with the configured digest as the allowed one. -/
def RequiredPolicy (expectedDigest : Option Bytes) (claims : GcpCsClaims) : Prop :=
  claims.secboot = true ∧ claims.isDebugDisabled = true ∧
    ∀ digest, expectedDigest = some digest → claims.imageDigest = some digest

/-- The debug states that `checkTeeClaims` lets through. -/
def toleratedStates : List (Option Bytes) := [none, some [], some (ascii "disabled")]

/-- A digest was configured, and the token has none or another one. -/
def OtherDigest (expectedDigest : Option Bytes) (claims : GcpCsClaims) : Prop :=
  ∃ digest, expectedDigest = some digest ∧ claims.imageDigest ≠ some digest

/-- A digest was configured, and the token has another one. -/
def ContraryDigest (expectedDigest : Option Bytes) (claims : GcpCsClaims) : Prop :=
  ∃ digest, expectedDigest = some digest ∧ claims.imageDigest ∉ [none, some [], some digest]

/-- No secure boot, a debug state that nobody knows, or a configured digest that the token lacks
and, where its debug state is tolerated, contradicts. -/
def OutsideBoth (expectedDigest : Option Bytes) (claims : GcpCsClaims) : Prop :=
  claims.secboot = false ∨
  (claims.isDebugDisabled = false ∧ claims.dbgstat ∉ toleratedStates) ∨
  (claims.isDebugDisabled = true ∧ OtherDigest expectedDigest claims) ∨
  (claims.dbgstat ∈ toleratedStates ∧ ContraryDigest expectedDigest claims)

section Policy

variable {E S}

/-- `serde_json` reads the key id of every header it can read. -/
def Surroundings.ReadsKid (S : Surroundings) (E : Environment H) : Prop :=
  ∀ bytes header, E.parseHeader bytes = some header → S.parseMinimalHeader bytes = some header.kid

theorem splitDot_of_splitParts (token headerB64 payloadB64 signatureB64 : Bytes)
    (h : splitParts token = some (headerB64, payloadB64, signatureB64)) :
    ∃ rest, splitDot token = some (headerB64, rest) := by
  unfold splitParts at h
  cases first : splitDot token with
  | none => simp [first] at h
  | some parts =>
    obtain ⟨header, rest⟩ := parts
    rw [first] at h
    cases second : splitDot rest with
    | none => simp [second] at h
    | some parts =>
      obtain ⟨payload, signature⟩ := parts
      simp only [second] at h
      split at h
      · cases h
      · cases h
        exact ⟨rest, rfl⟩

/-- A token that parses is looked up under the key id of its header. -/
theorem extractKidFromJwt_parsed (reads : S.ReadsKid E) (token : Bytes) (parsed : ParsedJwt)
    (h : parseJwt E token = .ok parsed) : extractKidFromJwt S token = .ok parsed.header.kid := by
  simp only [parseJwt, Outcome.throw_bind, Outcome.guard_ok, Outcome.bind_ok, orParseError_ok] at h
  obtain ⟨text, ⟨headerB64, payloadB64, signatureB64⟩, parts, headerBytes, decoded, header, hheader,
    payloadBytes, -, claims, -, signature, -, result⟩ := h
  cases result
  obtain ⟨rest, first⟩ := splitDot_of_splitParts token _ _ _ parts
  have kid := reads headerBytes header hheader
  simp only [extractKidFromJwt, Outcome.throw_bind, Outcome.guard_ok, Outcome.bind_ok,
    orParseError_ok]
  exact ⟨text, (headerB64, rest), first, headerBytes, decoded, kid⟩

theorem getJwksUri_config (verifier : AttestationVerifier) :
    (verifier.getJwksUri S).2.config = verifier.config := by
  unfold AttestationVerifier.getJwksUri
  split
  · rfl
  · split
    · rfl
    · rfl

theorem fetchJwks_config (verifier : AttestationVerifier) :
    (verifier.fetchJwks S).2.config = verifier.config := by
  have uri := getJwksUri_config (S := S) verifier
  unfold AttestationVerifier.fetchJwks
  split
  · next e verifier' h => rwa [h] at uri
  · next address verifier' h => rwa [h] at uri

/-- Fetching keys leaves the configuration as it is. -/
theorem getJwks_config (verifier : AttestationVerifier) :
    (verifier.getJwks S).2.config = verifier.config := by
  have fetched := fetchJwks_config (S := S) verifier
  unfold AttestationVerifier.getJwks
  split
  · rfl
  · split
    · next e verifier' h => rwa [h] at fetched
    · next jwks verifier' h => rwa [h] at fetched

theorem checkImageDigest_ok (config : AttestationConfig) (result : ValidationResult) :
    config.checkImageDigest result = .ok () ↔
      ∀ expected, config.expectedImageDigest = some expected →
      result.imageDigest = [] ∨ result.imageDigest = expected := by
  rw [AttestationConfig.checkImageDigest]
  cases config.expectedImageDigest with
  | none => simp
  | some expected =>
    simp only [Outcome.guard_ok, and_true, Option.some.injEq, forall_eq', not_and_or, not_not]

theorem checkTeeClaims_ok (config : AttestationConfig) (result : ValidationResult) :
    config.checkTeeClaims result = .ok () ↔ result.secboot = true ∧
      (result.dbgstat = [] ∨ result.dbgstat = ascii "disabled") ∧
      ∀ expected, config.expectedImageDigest = some expected →
        result.imageDigest = [] ∨ result.imageDigest = expected := by
  simp only [AttestationConfig.checkTeeClaims, Outcome.throw_bind, Outcome.guard_ok,
    Bool.not_eq_true', Bool.not_eq_false, checkImageDigest_ok, not_and_or, not_not]

/-- The check in terms of the claims, which may be absent. -/
theorem checkTeeClaims_parsed (config : AttestationConfig) (parsed : ParsedJwt) :
    config.checkTeeClaims (.ofParsed parsed) = .ok () ↔ parsed.claims.secboot = true ∧
      parsed.claims.dbgstat ∈ toleratedStates ∧
      ¬ContraryDigest config.expectedImageDigest parsed.claims := by
  have state : (ValidationResult.ofParsed parsed).dbgstat = [] ∨
      (ValidationResult.ofParsed parsed).dbgstat = ascii "disabled" ↔
      parsed.claims.dbgstat ∈ toleratedStates := by
    rw [ValidationResult.ofParsed]
    cases parsed.claims.dbgstat with
    | none => simp [toleratedStates]
    | some text => simp [toleratedStates]
  have digest (expected : Bytes) : (ValidationResult.ofParsed parsed).imageDigest = [] ∨
      (ValidationResult.ofParsed parsed).imageDigest = expected ↔
      parsed.claims.imageDigest ∈ [none, some [], some expected] := by
    rw [ValidationResult.ofParsed]
    cases parsed.claims.imageDigest with
    | none => simp
    | some text => simp
  have secboot : (ValidationResult.ofParsed parsed).secboot = parsed.claims.secboot := rfl
  simp only [checkTeeClaims_ok, state, digest, secboot, ContraryDigest, not_exists,
    not_and, not_not]

/-- Nothing that the sequencer tolerates is the production state. -/
theorem not_tolerated (claims : GcpCsClaims) (h : claims.dbgstat ∈ toleratedStates) :
    claims.isDebugDisabled = false := by
  simp only [toleratedStates, List.mem_cons, List.not_mem_nil, or_false] at h
  rcases h with state | state | state
  · simp [GcpCsClaims.isDebugDisabled, state]
  · rw [GcpCsClaims.isDebugDisabled, state]
    decide
  · rw [GcpCsClaims.isDebugDisabled, state]
    decide

/-- What `verify` has checked when it accepts. -/
theorem verifyUnder_ok (config : AttestationConfig) (jwks : List JwkKey) (kid token : Bytes)
    (now : UInt64) (claims : AttestationClaims) :
    config.verifyUnder E jwks kid token now = .ok claims ↔
      ∃ jwk, jwks.find? (fun key => key.kid = kid) = some jwk ∧ ∃ result,
        verifyAttestation E token jwk (some config.expectedAudience) (some now) = .ok result ∧
        (config.verifyTeeClaims = true → config.checkTeeClaims result = .ok ()) ∧
        claims = .ofResult result := by
  unfold AttestationConfig.verifyUnder
  cases jwks.find? fun key => key.kid = kid with
  | none => simp [throw, throwThe, MonadExceptOf.throw]
  | some jwk =>
    simp only [Outcome.bind_ok, Outcome.mapError_ok, Option.some.injEq, exists_eq_left']
    refine exists_congr fun result => and_congr_right fun _ => ?_
    cases config.verifyTeeClaims with
    | false =>
      simp only [Bool.false_eq_true, if_false, false_implies, true_and]
      exact ⟨fun h => (Except.ok.inj h).symm, fun h => congrArg Except.ok h.symm⟩
    | true =>
      simp only [if_true, true_implies, Outcome.bind_ok]
      constructor
      · intro h
        obtain ⟨u, checked, h⟩ := h
        exact ⟨checked, (Except.ok.inj h).symm⟩
      · intro h
        obtain ⟨checked, same⟩ := h
        exact ⟨(), checked, congrArg Except.ok same.symm⟩

theorem isOk_iff {ε α : Type} (outcome : Except ε α) : outcome.isOk = true ↔
    ∃ a, outcome = .ok a := by
  cases outcome with
  | error e => simp [Except.isOk, Except.toBool]
  | ok a => simp [Except.isOk, Except.toBool]

/-- What `verify` does with a token that the library accepts under the key of its id. -/
theorem verify_accepted (reads : S.ReadsKid E) (verifier : AttestationVerifier)
    (teeClaims : verifier.config.verifyTeeClaims = true) (jwks : List JwkKey)
    (fetched : (verifier.getJwks S).1 = .ok jwks) (jwk : JwkKey)
    (first : jwks.find? (fun key => key.kid = jwk.kid) = some jwk) (token : Bytes)
    (parsed : ParsedJwt) (parses : parseJwt E token = .ok parsed) (result : ValidationResult)
    (accepted : verifyAttestation E token jwk (some verifier.config.expectedAudience) (some S.now) =
      .ok result) :
    (verifier.verify E S token).1.isOk = true ↔
      verifier.config.checkTeeClaims (.ofParsed parsed) = .ok () := by
  obtain ⟨parsed', parses', -, kid, -, -, rfl⟩ := (verifyAttestation_ok E _ _ _ _ _).mp accepted
  obtain rfl : parsed = parsed' := Except.ok.inj (parses.symm.trans parses')
  have extracted := extractKidFromJwt_parsed reads token parsed parses
  have config := getJwks_config (S := S) verifier
  obtain ⟨⟨outcome, verifier'⟩, hkeys⟩ : ∃ keys, verifier.getJwks S = keys := ⟨_, rfl⟩
  rw [hkeys] at fetched config
  subst fetched
  have run : (verifier.verify E S token).1 =
      verifier.config.verifyUnder E jwks parsed.header.kid token S.now := by
    simp only [AttestationVerifier.verify, extracted, hkeys]
    rw [show verifier'.config = verifier.config from config]
  rw [run, isOk_iff, kid]
  constructor
  · intro h
    obtain ⟨claims, h⟩ := h
    obtain ⟨jwk', first', result, accepted', checked, -⟩ := (verifyUnder_ok _ _ _ _ _ _).mp h
    obtain rfl := Option.some.inj (first.symm.trans first')
    obtain rfl := Except.ok.inj (accepted.symm.trans accepted')
    exact checked teeClaims
  · intro checked
    exact ⟨_, (verifyUnder_ok _ _ _ _ _ _).mpr ⟨jwk, first, _, accepted, fun _ => checked, rfl⟩⟩

end Policy

namespace Sample

open SyndDB.RiscZero.Sample (environment input headerJson signatureB64 modulusB64 claims)

def token : Bytes := (input signatureB64 modulusB64).jwtBytes

def jwk : JwkKey := (input signatureB64 modulusB64).jwk

def surroundings : Surroundings where
  parseMinimalHeader bytes := if bytes = headerJson then some (ascii "k1") else none
  systemTime := some 1700000100
  lookedAt := 5000
  fetchedAt := 5200
  discovery := .body (ascii "https://www.googleapis.com/service_accounts/v1/metadata/jwk")
  keys _ := .body [jwk]

/-- The verifier that the server sets up: with TEE claims and without a digest. -/
def verifier : AttestationVerifier := .new ⟨ascii "synddb", true, none⟩

theorem reads_kid : surroundings.ReadsKid environment := by
  intro bytes header h
  simp only [environment, Option.ite_none_right_eq_some] at h
  obtain ⟨same, header⟩ := h
  cases header
  exact if_pos same

def parsed : ParsedJwt :=
  ⟨RiscZero.Sample.header, claims, (base64urlDecode signatureB64).toOption.getD [],
    RiscZero.Sample.signingInput⟩

/-- The library parses the token and accepts it, and the sequencer refuses it. -/
theorem token_verified :
    parseJwt environment token = .ok parsed ∧
      verifyAttestation environment token jwk (some verifier.config.expectedAudience)
        (some surroundings.now) = .ok (.ofParsed parsed) ∧
      (verifier.verify environment surroundings token).1 = .error .DebugModeEnabled ∧
      (verifier.getJwks surroundings).1 = .ok [jwk] ∧
      [jwk].find? (fun key => key.kid = jwk.kid) = some jwk := by
  decide +kernel

end Sample

end SyndDB.Sequencer
