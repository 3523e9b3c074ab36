import SyndDB.Relayer.Registration
import SyndDB.Framework.Outcome

namespace SyndDB.Relayer

open Octets Text Outcome
open Contracts (Address Bytes32 KeyType word)

theorem getApplication_insert (config : RelayerConfig) (apps : List (Bytes32 × ApplicationConfig))
    (hash other : Bytes32) (app : ApplicationConfig)
    (h : config.applications = insertApplication hash app apps) :
    config.getApplication other =
      if other = hash then some app else (apps.find? fun entry => entry.1 = other).map
        Prod.snd := by
  rw [RelayerConfig.getApplication, h, insertApplication]
  by_cases same : other = hash
  · simp [same]
  · have first : ¬hash = other := fun equal => same equal.symm
    rw [if_neg same, List.find?_cons_of_neg (by simpa using first), List.find?_filter]
    congr 2
    funext entry
    by_cases here : entry.1 = other
    · simp [here, same]
    · simp [here]

theorem parseHexField_ok (name field : String) (bytes : Bytes) :
    parseHexField name field = .ok bytes ↔ decodeHex (trimStart0x (utf8 field)) = .ok bytes :=
  mapError_ok _ _ _

/-- The checks that an admitted request has passed. -/
theorem checkRequest_ok (config : RelayerConfig) (now : UInt64) (request : RegisterKeyRequest)
    (admitted : Admitted) :
    checkRequest config now request = .ok admitted ↔
      (decodeHex (trimStart0x (utf8 request.publicValues)) = .ok admitted.publicValues ∧
        extractAttestationFields admitted.publicValues = some admitted.attestation ∧
        ∃ app, config.getApplication admitted.attestation.audienceHash = some app ∧
          (app.allowedImageDigests = [] ∨
            admitted.attestation.imageDigestHash ∈ app.allowedImageDigests)) ∧
      (now < request.deadline ∧ request.deadline ≤ now + MAX_DEADLINE_FUTURE_SECS) ∧
      decodeHex (trimStart0x (utf8 request.proofBytes)) = .ok admitted.proofBytes ∧
      decodeHex (trimStart0x (utf8 request.signature)) = .ok admitted.signature ∧
      admitted.deadline = request.deadline ∧ admitted.keyType = request.keyType := by
  rw [checkRequest, bind_ok]
  simp only [parseHexField_ok]
  constructor
  · intro given
    obtain ⟨publicValues, hpublic, h⟩ := given
    cases extracted : extractAttestationFields publicValues with
    | none =>
      rw [extracted] at h
      cases h
    | some attestation =>
      rw [extracted] at h
      simp only at h
      cases found : config.getApplication attestation.audienceHash with
      | none =>
        rw [found] at h
        cases h
      | some app =>
        rw [found] at h
        simp only [throw_bind, guard_ok, not_not, bind_ok, parseHexField_ok] at h
        obtain ⟨allowed, future, soon, proofBytes, hproof, signature, hsignature, same⟩ := h
        cases same
        exact ⟨⟨hpublic, extracted, app, found, allowed⟩,
          ⟨UInt64.not_le.mp future, UInt64.not_lt.mp soon⟩, hproof, hsignature, rfl, rfl⟩
  · intro given
    obtain ⟨⟨hpublic, extracted, app, found, allowed⟩, ⟨future, soon⟩, hproof, hsignature, deadline,
      keyType⟩ := given
    refine ⟨admitted.publicValues, hpublic, ?_⟩
    rw [extracted]
    simp only [found, throw_bind, guard_ok, not_not, bind_ok, parseHexField_ok]
    refine ⟨allowed, UInt64.not_le.mpr future, UInt64.not_lt.mpr soon, _, hproof, _, hsignature, ?_⟩
    rw [← deadline, ← keyType]
    rfl

theorem checkRequest_error (config : RelayerConfig) (now : UInt64) (request : RegisterKeyRequest)
    (answer : Answer) (h : checkRequest config now request = .error answer) :
    answer.1 = 400 ∨ answer.1 = 403 := by
  have field (name text : String) (answer : Answer)
      (failed : parseHexField name text = .error answer) :
      answer.1 = 400 := by
    rw [parseHexField] at failed
    cases decoded : decodeHex (trimStart0x (utf8 text)) with
    | error e =>
      rw [decoded] at failed
      cases failed
      rfl
    | ok bytes =>
      rw [decoded] at failed
      cases failed
  rcases (bind_error _ _ _).mp h with failed | ⟨publicValues, -, h⟩
  · exact Or.inl (field _ _ _ failed)
  cases extracted : extractAttestationFields publicValues with
  | none =>
    rw [extracted] at h
    cases h
    exact Or.inl rfl
  | some attestation =>
    rw [extracted] at h
    simp only at h
    cases found : config.getApplication attestation.audienceHash with
    | none =>
      rw [found] at h
      cases h
      exact Or.inr rfl
    | some app =>
      rw [found] at h
      simp only [throw_bind] at h
      split_ifs at h
      · cases h
        exact Or.inl rfl
      · cases h
        exact Or.inl rfl
      · rcases (bind_error _ _ _).mp h with failed | ⟨proofBytes, -, h⟩
        · exact Or.inl (field _ _ _ failed)
        rcases (bind_error _ _ _).mp h with failed | ⟨signature, -, h⟩
        · exact Or.inl (field _ _ _ failed)
        · cases h
      · cases h
        exact Or.inr rfl

/-- A key is registered for requests that are let through only. -/
theorem registerKey_success (config : RelayerConfig) (submitter : RelayerSubmitter) (now : UInt64)
    (request : RegisterKeyRequest) (h : (registerKey config submitter now request).1 = 200) :
    ∃ admitted, checkRequest config now request = .ok admitted := by
  cases checked : checkRequest config now request with
  | ok admitted => exact ⟨admitted, rfl⟩
  | error answer =>
    rw [registerKey, checked] at h
    rcases checkRequest_error config now request answer checked with bad | forbidden
    · exact absurd (h.symm.trans bad) (by decide)
    · exact absurd (h.symm.trans forbidden) (by decide)

/-- Public values with the digest and the audience, and zeros in all other places. -/
def plainValues (digest audienceHash : Bytes32) : Bytes :=
  List.replicate 96 0 ++ word digest ++ List.replicate 96 0 ++ word audienceHash ++
    List.replicate 96 0

def plainRequest (digest audienceHash : Bytes32) : RegisterKeyRequest where
  publicValues := hexEncode (plainValues digest audienceHash)
  proofBytes := ""
  deadline := 1
  signature := ""
  keyType := .Sequencer

theorem b256_word (x : Bytes32) : b256 (word x) = x := by
  rw [b256, word, fromBigEndian_bigEndian _ _ (by have := x.isLt; omega)]
  exact BitVec.ofNat_toNat 256 x

theorem extract_plainValues (digest audienceHash : Bytes32) :
    ∃ key, extractAttestationFields (plainValues digest audienceHash) =
      some ⟨digest, key, audienceHash⟩ := by
  have length (x : Bytes32) : (word x).length = 32 := length_bigEndian 32 _
  have total : ¬(plainValues digest audienceHash).length < 352 := by
    simp only [plainValues, List.length_append, List.length_replicate, length]
    omega
  have before : (List.replicate 96 0 ++ word digest ++ List.replicate 96 0).length = 224 := by
    simp only [List.length_append, List.length_replicate, length]
  have first : ((plainValues digest audienceHash).drop 96).take 32 = word digest := by
    rw [plainValues, List.append_assoc, List.append_assoc, List.append_assoc,
      List.drop_left' List.length_replicate, List.take_left' (length digest)]
  have second : ((plainValues digest audienceHash).drop 224).take 32 = word audienceHash := by
    rw [plainValues, List.append_assoc, List.drop_left' before,
      List.take_left' (length audienceHash)]
  refine ⟨BitVec.ofNat 160 (fromBigEndian (((plainValues digest audienceHash).drop 140).take 20)),
    ?_⟩
  rw [extractAttestationFields, if_neg total, first, second, b256_word, b256_word]

/-- A digest that the list allows is let through with some request. -/
theorem plainRequest_admitted (config : RelayerConfig) (app : ApplicationConfig)
    (digest audienceHash : Bytes32) (found : config.getApplication audienceHash = some app)
    (allowed : app.allowedImageDigests = [] ∨ digest ∈ app.allowedImageDigests) :
    ∃ admitted, checkRequest config 0 (plainRequest digest audienceHash) = .ok admitted ∧
      admitted.attestation.imageDigestHash = digest ∧
      admitted.attestation.audienceHash = audienceHash := by
  obtain ⟨key, extracted⟩ := extract_plainValues digest audienceHash
  have inTime : (0 : UInt64) < 1 ∧ 1 ≤ 0 + MAX_DEADLINE_FUTURE_SECS := by decide
  have nothing : decodeHex (trimStart0x (utf8 "")) = .ok [] := by decide
  refine ⟨⟨plainValues digest audienceHash, [], 1, [], .Sequencer, ⟨digest, key, audienceHash⟩⟩,
    (checkRequest_ok _ _ _ _).mpr
      ⟨⟨?_, extracted, app, found, allowed⟩, inTime, nothing, nothing, rfl, rfl⟩,
    rfl, rfl⟩
  rw [plainRequest, utf8_hexEncode, trimStart0x_hexText, decodeHex_hexText]

/-- Requests for an audience are let through for the digests only. -/
def AdmitsOnly (config : RelayerConfig) (audienceHash : Bytes32) (digests : List Bytes32) : Prop :=
  ∀ now request admitted, checkRequest config now request = .ok admitted →
    admitted.attestation.audienceHash = audienceHash →
    admitted.attestation.imageDigestHash ∈ digests

theorem admitsOnly_iff (config : RelayerConfig) (app : ApplicationConfig) (audienceHash : Bytes32)
    (found : config.getApplication audienceHash = some app) :
    AdmitsOnly config audienceHash app.allowedImageDigests ↔ app.allowedImageDigests ≠ [] := by
  constructor
  · intro only empty
    obtain ⟨admitted, checked, -, audience⟩ :=
      plainRequest_admitted config app 0 audienceHash found (Or.inl empty)
    have member := only 0 _ admitted checked audience
    rw [empty] at member
    cases member
  · intro nonempty now request admitted checked audience
    obtain ⟨⟨-, -, app', found', allowed⟩, -⟩ := (checkRequest_ok _ _ _ _).mp checked
    rw [audience, found] at found'
    obtain rfl := Option.some.inj found'
    exact allowed.resolve_left nonempty

theorem required_ok {α : Type} (name : String) (value : Option α) (a : α) :
    required name value = .ok a ↔ value = some a := by
  cases value with
  | none => simp [required]
  | some b => simp [required]

/-- An empty text needs no case of its own. -/
theorem parseAllowedDigests_eq (text : String) :
    parseAllowedDigests text = (splitComma text.toList).filterMap fun s => parseB256 (trim s) := by
  rw [parseAllowedDigests]
  split_ifs with empty
  · rw [empty]
    decide
  · rfl

theorem mem_parseAllowedDigests (text : String) (digest : Bytes32) :
    digest ∈ parseAllowedDigests text ↔
      ∃ entry ∈ splitComma text.toList, parseB256 (trim entry) = some digest := by
  rw [parseAllowedDigests_eq, List.mem_filterMap]

theorem parseAllowedDigests_ne_nil (text : String) :
    parseAllowedDigests text ≠ [] ↔
      ∃ entry ∈ splitComma text.toList, (parseB256 (trim entry)).isSome = true := by
  constructor
  · intro nonempty
    obtain ⟨digest, member⟩ := List.exists_mem_of_ne_nil _ nonempty
    obtain ⟨entry, here, parsed⟩ := (mem_parseAllowedDigests text digest).mp member
    exact ⟨entry, here, Option.isSome_iff_exists.mpr ⟨digest, parsed⟩⟩
  · intro given
    obtain ⟨entry, here, parsed⟩ := given
    obtain ⟨digest, parsed⟩ := Option.isSome_iff_exists.mp parsed
    exact List.ne_nil_of_mem ((mem_parseAllowedDigests text digest).mpr ⟨entry, here, parsed⟩)

theorem fromEnv_ok (cli : CliConfig) (config : RelayerConfig) (h : fromEnv cli = .ok config) :
    ∃ audience text, cli.requiredAudience = some audience ∧ cli.allowedImageDigests = some text ∧
      config.applications =
        insertApplication (computeAudienceHash audience)
          ⟨audience, parseAllowedDigests text⟩ [] := by
  simp only [fromEnv, bind_ok, required_ok] at h
  obtain ⟨_, -, _, -, _, -, _, -, text, allowed, audience, given, h⟩ := h
  simp only [throw_bind, guard_ok] at h
  obtain ⟨-, h⟩ := h
  cases h
  exact ⟨audience, text, given, allowed, rfl⟩

/-- The one application of an environment. -/
theorem fromEnv_getApplication (cli : CliConfig) (config : RelayerConfig) (text : String)
    (h : fromEnv cli = .ok config) (given : cli.allowedImageDigests = some text) :
    ∃ hash app, config.getApplication hash = some app ∧
      app.allowedImageDigests = parseAllowedDigests text ∧
      ∀ other app', config.getApplication other = some app' → other = hash ∧ app' = app := by
  obtain ⟨audience, text', -, given', applications⟩ := fromEnv_ok cli config h
  obtain rfl := Option.some.inj (given.symm.trans given')
  refine ⟨computeAudienceHash audience, ⟨audience, parseAllowedDigests text⟩, ?_, rfl, ?_⟩
  · rw [getApplication_insert config [] _ _ _ applications, if_pos rfl]
  · intro other app' found
    rw [getApplication_insert config [] _ _ _ applications] at found
    split_ifs at found with same
    · exact ⟨same, (Option.some.inj found).symm⟩
    · cases found

theorem mem_insertApplications (apps : List ApplicationConfig)
    (start : List (Bytes32 × ApplicationConfig)) (entry : Bytes32 × ApplicationConfig)
    (h : entry ∈ apps.foldl
      (fun apps app => insertApplication (computeAudienceHash app.audience) app apps) start) :
    entry ∈ start ∨ entry.2 ∈ apps ∧ entry.1 = computeAudienceHash entry.2.audience := by
  induction apps generalizing start with
  | nil => exact Or.inl h
  | cons app apps ih =>
    rcases ih _ h with earlier | ⟨member, hash⟩
    · rcases List.mem_cons.mp earlier with rfl | kept
      · exact Or.inr ⟨List.mem_cons_self, rfl⟩
      · exact Or.inl (List.mem_filter.mp kept).1
    · exact Or.inr ⟨List.mem_cons_of_mem _ member, hash⟩

/-- The applications of a file are read from its entries. -/
theorem fromFile_getApplication (deserializeB256 : String → Except String Bytes32)
    (file : ConfigFile)
    (config : RelayerConfig) (h : fromFile deserializeB256 file = .ok config) (hash : Bytes32)
    (app : ApplicationConfig) (found : config.getApplication hash = some app) :
    ∃ entry ∈ file.applications, computeAudienceHash entry.audience = hash ∧
      entry.allowedImageDigests.mapM deserializeB256 = .ok app.allowedImageDigests := by
  simp only [fromFile, bind_ok, mapError_ok, throw_bind, guard_ok] at h
  obtain ⟨apps, read, -, h⟩ := h
  cases h
  obtain ⟨entry, first, rfl⟩ := Option.map_eq_some_iff.mp found
  have audience : entry.1 = hash := by simpa using List.find?_some first
  rcases mem_insertApplications apps [] entry (List.mem_of_find?_eq_some first) with none'
    | ⟨member, same⟩
  · cases none'
  obtain ⟨written, here, parsed⟩ := (forall₂_partner ((mapM_ok _ _ _).mp read)).2 _ member
  simp only [ApplicationEntry.read, bind_ok] at parsed
  obtain ⟨digests, parsed, app⟩ := parsed
  rw [← Except.ok.inj app] at same ⊢
  exact ⟨written, here, same.symm.trans audience, parsed⟩

theorem mapM_eq_nil (deserializeB256 : String → Except String Bytes32) (entries : List String)
    (digests : List Bytes32) (h : entries.mapM deserializeB256 = .ok digests) :
    digests ≠ [] ↔ entries ≠ [] := by
  rw [← List.length_pos_iff, ← List.length_pos_iff, ((mapM_ok _ _ _).mp h).length_eq]

/-- A malformed entry of a file is an error of the whole file, and one of an environment is left
out; without any entry left, all digests are let through. -/
theorem allowlist_closed_iff (deserializeB256 : String → Except String Bytes32) :
    (∀ cli config text, fromEnv cli = .ok config → cli.allowedImageDigests = some text →
      ((∀ now request admitted, checkRequest config now request = .ok admitted →
          ∃ entry ∈ splitComma text.toList,
            parseB256 (trim entry) = some admitted.attestation.imageDigestHash) ↔
        ∃ entry ∈ splitComma text.toList, (parseB256 (trim entry)).isSome = true)) ∧
    (∀ file config, fromFile deserializeB256 file = .ok config →
      ∀ hash app, config.getApplication hash = some app →
        ∃ entry ∈ file.applications, computeAudienceHash entry.audience = hash ∧
          entry.allowedImageDigests.mapM deserializeB256 = .ok app.allowedImageDigests ∧
          (AdmitsOnly config hash app.allowedImageDigests ↔ entry.allowedImageDigests ≠ [])) ∧
    ∀ config submitter now request, (registerKey config submitter now request).1 = 200 →
      ∃ admitted, checkRequest config now request = .ok admitted := by
  refine ⟨?_, ?_, registerKey_success⟩
  · intro cli config text loaded given
    obtain ⟨hash, app, found, digests, only⟩ := fromEnv_getApplication cli config text loaded given
    have nonempty := admitsOnly_iff config app hash found
    rw [digests, parseAllowedDigests_ne_nil] at nonempty
    rw [← nonempty]
    constructor
    · intro all now request admitted checked _
      exact (mem_parseAllowedDigests text _).mpr (all now request admitted checked)
    · intro all now request admitted checked
      obtain ⟨⟨-, -, app', found', -⟩, -⟩ := (checkRequest_ok _ _ _ _).mp checked
      exact (mem_parseAllowedDigests text _).mp
        (all now request admitted checked (only _ _ found').1)
  · intro file config loaded hash app found
    obtain ⟨entry, member, audience, read⟩ :=
      fromFile_getApplication deserializeB256 file config loaded hash app found
    exact ⟨entry, member, audience, read,
      (admitsOnly_iff config app hash found).trans (mapM_eq_nil deserializeB256 _ _ read)⟩

namespace Sample

def environment (text : String) : CliConfig where
  rpcUrl := some "http://localhost:8545"
  chainId := some 31337
  bridgeAddress := some 1
  privateKey := some "0xac0974bec39a17e36ba4a6b4d238ff944bacb478cbed5efcae784d7bf4f2ff80"
  listenAddr := "0.0.0.0:8082"
  txConfirmationTimeoutSecs := 120
  requiredAudience := some "https://app.example.com"
  allowedImageDigests := some text
  validatorUrl := none

def audienceHash : Bytes32 := computeAudienceHash "https://app.example.com"

def loaded (text : String) : RelayerConfig where
  rpcUrl := "http://localhost:8545"
  chainId := 31337
  bridgeAddress := 1
  privateKey := "0xac0974bec39a17e36ba4a6b4d238ff944bacb478cbed5efcae784d7bf4f2ff80"
  listenAddr := "0.0.0.0:8082"
  txConfirmationTimeout := 120
  validatorUrl := none
  applications := insertApplication audienceHash
    ⟨"https://app.example.com", parseAllowedDigests text⟩ []

theorem fromEnv_environment (text : String) : fromEnv (environment text) = .ok (loaded text) := by
  have key : ¬((trimStart0x (utf8
        "0xac0974bec39a17e36ba4a6b4d238ff944bacb478cbed5efcae784d7bf4f2ff80")).length ≠ 64 ∨
      (decodeHex (trimStart0x (utf8
        "0xac0974bec39a17e36ba4a6b4d238ff944bacb478cbed5efcae784d7bf4f2ff80"))).isOk = false) := by
    decide
  simp only [fromEnv, environment, required, Outcome.ok_bind]
  rw [if_neg key]
  rfl

def readB256 (s : String) : Except String Bytes32 :=
  (parseB256 s.toList).elim (.error "invalid string length") .ok

def file : ConfigFile where
  rpcUrl := "http://localhost:8545"
  chainId := 31337
  bridgeAddress := 1
  privateKey := "0xac0974bec39a17e36ba4a6b4d238ff944bacb478cbed5efcae784d7bf4f2ff80"
  listenAddr := "0.0.0.0:8082"
  txConfirmationTimeoutSecs := 120
  validatorUrl := none
  applications := [⟨"https://app.example.com",
    ["0xabababababababababababababababababababababababababababababababab"]⟩]

theorem fromFile_file : fromFile readB256 file = .ok (loaded
    "0xabababababababababababababababababababababababababababababababab") := by
  have read : file.applications.mapM (ApplicationEntry.read readB256) =
      .ok [⟨"https://app.example.com",
      parseAllowedDigests "0xabababababababababababababababababababababababababababababababab"⟩] := by
    decide
  rw [fromFile, read]
  rfl

theorem loaded_getApplication (text : String) : (loaded text).getApplication audienceHash =
    some ⟨"https://app.example.com", parseAllowedDigests text⟩ := by
  rw [getApplication_insert _ [] _ _ _ rfl, if_pos rfl]

/-- A malformed entry next to a good one is not let through, and neither is anything else. -/
theorem allowlist_closed :
    (∀ now request admitted,
      checkRequest (loaded
        "sha256:11,0xabababababababababababababababababababababababababababababababab")
        now request = .ok admitted →
      ∃ entry ∈ splitComma
          "sha256:11,0xabababababababababababababababababababababababababababababababab".toList,
        parseB256 (trim entry) = some admitted.attestation.imageDigestHash) ∧
    AdmitsOnly (loaded "0xabababababababababababababababababababababababababababababababab")
      audienceHash
      (parseAllowedDigests
        "0xabababababababababababababababababababababababababababababababab") := by
  constructor
  · exact ((allowlist_closed_iff readB256).1 (environment _) _ _ (fromEnv_environment _) rfl).mpr
      (by decide)
  · obtain ⟨entry, member, -, -, closed⟩ :=
      (allowlist_closed_iff readB256).2.1 file _ fromFile_file _ _ (loaded_getApplication _)
    obtain rfl := List.mem_singleton.mp member
    exact closed.mpr (by decide)

/-- With malformed entries only, every digest is let through. -/
theorem malformed_opens :
    ¬∀ cli config text, fromEnv cli = .ok config → cli.allowedImageDigests = some text →
      (∃ entry ∈ splitComma text.toList, trim entry ≠ []) →
        ∀ now request admitted, checkRequest config now request = .ok admitted →
          ∃ entry ∈ splitComma text.toList,
            parseB256 (trim entry) = some admitted.attestation.imageDigestHash := by
  intro all
  have given : ∃ entry ∈ splitComma "sha256:11".toList, trim entry ≠ [] := by decide
  have none' : parseAllowedDigests "sha256:11" = [] := by decide
  obtain ⟨admitted, checked, -⟩ :=
    plainRequest_admitted _ _ 7 _ (loaded_getApplication "sha256:11") (Or.inl none')
  have member := all _ _ _ (fromEnv_environment "sha256:11") rfl given _ _ _ checked
  rw [← mem_parseAllowedDigests, none'] at member
  cases member

end Sample

end SyndDB.Relayer
