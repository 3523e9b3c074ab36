import SyndDB.RiscZero.Forgery
import SyndDB.Stylus.KeyBinding

namespace SyndDB.RiscZero

open Octets
open SyndDB.Contracts (Address UInt256)
open SyndDB.Stylus (PublicValuesStruct base64urlDecode)

section Guest

variable {H : Type} (E : Environment H)

theorem orParseError_ok {α : Type} (message : String) (o : Option α) (a : α) :
    orParseError message o = .ok a ↔ o = some a := by
  cases o with
  | none => simp [orParseError]
  | some b => simp [orParseError]

/-- A parsed token has a header and claims that were read from some bytes. -/
theorem parseJwt_ok (token : Bytes) (parsed : ParsedJwt) (h : parseJwt E token = .ok parsed) :
    ∃ headerBytes payloadBytes, E.parseHeader headerBytes = some parsed.header ∧
      E.parseClaims payloadBytes = some parsed.claims := by
  simp only [parseJwt, Outcome.throw_bind, Outcome.guard_ok, Outcome.bind_ok, orParseError_ok] at h
  obtain ⟨-, parts, -, headerBytes, -, header, hheader, payloadBytes, -, claims, hclaims,
    signature, -, result⟩ := h
  cases result
  exact ⟨headerBytes, payloadBytes, hheader, hclaims⟩

theorem decodeComponent_ok (name : String) (text bytes : Bytes)
    (h : base64urlDecode text = .ok bytes) :
    decodeComponent name text = .ok (fromBigEndian bytes) := by
  rw [decodeComponent, h]

theorem verifyRs256Signature_ok (parsed : ParsedJwt) (jwk : JwkKey) :
    verifyRs256Signature E parsed jwk = .ok () ↔ jwk.kty = ascii "RSA" ∧
      ∃ n, decodeComponent "modulus" jwk.n = .ok n ∧ ∃ e, decodeComponent "exponent" jwk.e = .ok e ∧
        E.rsaPublicKeyNew n e = .ok () ∧ E.signatureTryFrom parsed.signature = .ok () ∧
        E.rsaVerify n e parsed.signingInput parsed.signature = .ok () := by
  simp only [verifyRs256Signature, Outcome.throw_bind, Outcome.guard_ok, Outcome.bind_ok,
    Outcome.mapError_ok, not_not, Unique.exists_iff, PUnit.default_eq_unit]

theorem verifyAttestation_ok (jwtBytes : Bytes) (jwk : JwkKey) (expectedAudience : Option Bytes)
    (currentTime : Option UInt64) (result : ValidationResult) :
    verifyAttestation E jwtBytes jwk expectedAudience currentTime = .ok result ↔
      ∃ parsed, parseJwt E jwtBytes = .ok parsed ∧ parsed.header.alg = ascii "RS256" ∧
        parsed.header.kid = jwk.kid ∧ verifyRs256Signature E parsed jwk = .ok () ∧
        checkClaims parsed.claims expectedAudience currentTime = .ok () ∧
        result = .ofParsed parsed := by
  simp only [verifyAttestation, Outcome.throw_bind, Outcome.guard_ok, Outcome.bind_ok,
    Outcome.mapError_ok, not_not]
  constructor
  · intro h
    obtain ⟨parsed, hparsed, alg, kid, ⟨⟩, signature, ⟨⟩, claims, same⟩ := h
    cases same
    exact ⟨parsed, hparsed, alg, kid, signature, claims, rfl⟩
  · intro h
    obtain ⟨parsed, hparsed, alg, kid, signature, claims, rfl⟩ := h
    exact ⟨parsed, hparsed, alg, kid, (), signature, (), claims, rfl⟩

/-- A journal says nothing about a token beyond its header and claims. -/
theorem guestMain_congr (input input' : GuestInput) (result : ValidationResult)
    (audience : input'.expectedAudience = input.expectedAudience)
    (key : input'.evmPublicKey = input.evmPublicKey)
    (signature : input'.imageSignature = input.imageSignature)
    (verified : verifyAttestation E input.jwtBytes input.jwk (some input.expectedAudience) none =
      .ok result)
    (verified' : verifyAttestation E input'.jwtBytes input'.jwk (some input.expectedAudience) none =
      .ok result) :
    guestMain E input' = guestMain E input := by
  simp only [guestMain, audience, key, signature, verified, verified']

theorem guestMain_ok (input : GuestInput) (journal : Bytes) (h : guestMain E input = .ok journal) :
    ∃ result, verifyAttestation E input.jwtBytes input.jwk (some input.expectedAudience) none =
      .ok result := by
  simp only [guestMain, Outcome.throw_bind, Outcome.guard_ok, Outcome.bind_ok,
    Outcome.mapError_ok] at h
  obtain ⟨-, result, verified, -⟩ := h
  exact ⟨result, verified⟩

/-- The guest commits the debug check of the claims. -/
theorem publicValues_dbgstatDisabled (parsed : ParsedJwt) (evmPublicKey : Bytes)
    (signature : UInt8 × Bytes × Bytes) :
    (publicValues E (.ofParsed parsed) evmPublicKey signature).dbgstatDisabled =
      parsed.claims.isDebugDisabled := by
  have state : (ValidationResult.ofParsed parsed).dbgstat = ascii "disabled-since-boot" ↔
      parsed.claims.dbgstat = some (ascii "disabled-since-boot") := by
    rw [ValidationResult.ofParsed]
    cases parsed.claims.dbgstat with
    | none =>
      have absent : ([] : Bytes) ≠ ascii "disabled-since-boot" := by decide
      exact iff_of_false absent (fun h => nomatch h)
    | some text => simp
  rw [publicValues, GcpCsClaims.isDebugDisabled, decide_eq_decide]
  exact state

/-- The `rsa` crate verifies RSASSA-PKCS1-v1_5 with SHA-256, under odd moduli of up to 4096 bits. -/
structure ImplementsRs256 : Prop where
  digest : ∀ message, (E.sha256 message).length = 32
  publicKey : ∀ n e, n % 2 = 1 → n < 2 ^ 4096 → e % 2 = 1 → 1 < e → e < 2 ^ 33 → e < n →
    E.rsaPublicKeyNew n e = .ok ()
  signature : ∀ bytes, bytes ≠ [] → E.signatureTryFrom bytes = .ok ()
  verify : ∀ k n e message signature, 62 ≤ k → 256 ^ (k - 1) ≤ n → n < 256 ^ k →
    signature.length = k → fromBigEndian signature < n →
    bigEndian k (fromBigEndian signature ^ e % n) = emsaPkcs1v15 k (E.sha256 message) →
    E.rsaVerify n e message signature = .ok ()

def encodedInput (headerBytes payloadBytes : Bytes) : Bytes :=
  base64Encode headerBytes ++ 46 :: base64Encode payloadBytes

def encodedToken (headerBytes payloadBytes signature : Bytes) : Bytes :=
  base64Encode headerBytes ++ 46 :: (base64Encode payloadBytes ++ 46 :: base64Encode signature)

theorem parseJwt_encoded (headerBytes payloadBytes signature : Bytes) (header : JwtHeader)
    (claims : GcpCsClaims) (hheader : E.parseHeader headerBytes = some header)
    (hclaims : E.parseClaims payloadBytes = some claims) :
    parseJwt E (encodedToken headerBytes payloadBytes signature) =
      .ok ⟨header, claims, signature, encodedInput headerBytes payloadBytes⟩ := by
  have noDot (bytes : Bytes) : 46 ∉ base64Encode bytes :=
    fun member => (base64Encode_chars bytes 46 member).2.2.1 rfl
  have parts : splitParts (encodedToken headerBytes payloadBytes signature) =
      some (base64Encode headerBytes, base64Encode payloadBytes, base64Encode signature) := by
    simp only [splitParts, encodedToken, splitDot_append _ _ (noDot _), if_neg (noDot signature)]
  have text : SyndDB.Stylus.isUtf8 (encodedToken headerBytes payloadBytes signature) = true := by
    apply isUtf8_ascii
    intro c hc
    have low (bytes : Bytes) (member : c ∈ base64Encode bytes) : c ≤ 0x7f :=
      (base64Encode_chars bytes c member).1
    simp only [encodedToken, List.mem_append, List.mem_cons] at hc
    rcases hc with member | rfl | member | rfl | member
    · exact low _ member
    · decide
    · exact low _ member
    · decide
    · exact low _ member
  simp only [parseJwt, text, parts, orParseError, base64urlDecode_encode, hheader, hclaims,
    Bool.not_true, Bool.false_eq_true, if_false, Outcome.ok_bind]
  rfl

/-- The padded digest of a token, as a number. -/
def paddedDigest (headerBytes payloadBytes : Bytes) : Nat :=
  fromBigEndian (emsaPkcs1v15 256 (E.sha256 (encodedInput headerBytes payloadBytes)))

/-- The key that the prover makes up for a token. -/
def forgedJwk (jwk : JwkKey) (headerBytes payloadBytes : Bytes) (second : Bool) : JwkKey :=
  { jwk with
    n := base64Encode (bigEndian 256
      (forgedModulus (paddedDigest E headerBytes payloadBytes) second))
    e := base64Encode [3] }

def forgedSignature (headerBytes payloadBytes : Bytes) (second : Bool) : Bytes :=
  bigEndian 256 (forgedRoot (paddedDigest E headerBytes payloadBytes) second)

/-- The same request with the token signed under the key made up for it. -/
def forgedInput (input : GuestInput) (headerBytes payloadBytes : Bytes) (second : Bool) :
    GuestInput :=
  { input with
    jwtBytes := encodedToken headerBytes payloadBytes
      (forgedSignature E headerBytes payloadBytes second)
    jwk := forgedJwk E input.jwk headerBytes payloadBytes second }

theorem rsaKey_decoded (jwk : JwkKey) (n e : Bytes) (hn : base64urlDecode jwk.n = .ok n)
    (he : base64urlDecode jwk.e = .ok e) : rsaKey jwk =
      some (fromBigEndian n, fromBigEndian e) := by
  rw [rsaKey, hn, he]
  rfl

variable {E} (rs256 : ImplementsRs256 E) (jwk : JwkKey) (headerBytes payloadBytes : Bytes)
  (second : Bool)

include rs256

theorem paddedDigest_lt : paddedDigest E headerBytes payloadBytes < 2 ^ 2033 :=
  emsaPkcs1v15_lt _ (rs256.digest _)

omit rs256 in
theorem decode_forged_exponent : fromBigEndian [3] = 3 := rfl

theorem decode_forged_modulus :
    fromBigEndian (bigEndian 256 (forgedModulus (paddedDigest E headerBytes payloadBytes) second)) =
      forgedModulus (paddedDigest E headerBytes payloadBytes) second := by
  have spec := forgedModulus_spec _ second (paddedDigest_lt rs256 headerBytes payloadBytes)
  exact fromBigEndian_bigEndian 256 _ spec.2.2.1

theorem rsaKey_forged :
    rsaKey (forgedJwk E jwk headerBytes payloadBytes second) =
      some (forgedModulus (paddedDigest E headerBytes payloadBytes) second, 3) := by
  rw [rsaKey_decoded _ _ _ (base64urlDecode_encode _) (base64urlDecode_encode _),
    decode_forged_modulus rs256, decode_forged_exponent]

/-- The signature verifies under the key made up for it. -/
theorem verifyRs256Signature_forged (header : JwtHeader) (claims : GcpCsClaims)
    (kty : jwk.kty = ascii "RSA") :
    verifyRs256Signature E ⟨header, claims, forgedSignature E headerBytes payloadBytes second,
      encodedInput headerBytes payloadBytes⟩ (forgedJwk E jwk headerBytes payloadBytes second) =
      .ok () := by
  have bound := paddedDigest_lt rs256 headerBytes payloadBytes
  obtain ⟨-, least, most, odd⟩ := forgedModulus_spec _ second bound
  obtain ⟨smaller, cube⟩ := forgedRoot_spec _ second bound
  have root : fromBigEndian (forgedSignature E headerBytes payloadBytes second) =
      forgedRoot (paddedDigest E headerBytes payloadBytes) second :=
    fromBigEndian_bigEndian 256 _ (by omega)
  have padded : bigEndian 256 (paddedDigest E headerBytes payloadBytes) =
      emsaPkcs1v15 256 (E.sha256 (encodedInput headerBytes payloadBytes)) := by
    have whole := bigEndian_fromBigEndian
      (emsaPkcs1v15 256 (E.sha256 (encodedInput headerBytes payloadBytes)))
    rw [length_emsaPkcs1v15 _ (rs256.digest _)] at whole
    exact whole
  have key := rs256.publicKey (forgedModulus (paddedDigest E headerBytes payloadBytes) second) 3 odd
    (lt_trans most (by decide +kernel)) (by decide) (by decide) (by decide)
    (lt_of_lt_of_le (by decide) least)
  have bytes := rs256.signature (forgedSignature E headerBytes payloadBytes second)
    (by rw [forgedSignature, bigEndian]; exact List.cons_ne_nil _ _)
  have verified := rs256.verify 256 (forgedModulus (paddedDigest E headerBytes payloadBytes) second)
    3 (encodedInput headerBytes payloadBytes) (forgedSignature E headerBytes payloadBytes second)
    (by decide) least most (length_bigEndian 256 _) (by rw [root]; exact smaller)
    (by rw [root, cube]; exact padded)
  have modulus := decodeComponent_ok "modulus" _ _ (base64urlDecode_encode
    (bigEndian 256 (forgedModulus (paddedDigest E headerBytes payloadBytes) second)))
  rw [decode_forged_modulus rs256] at modulus
  have exponent := decodeComponent_ok "exponent" _ _ (base64urlDecode_encode [3])
  exact (verifyRs256Signature_ok E _ _).mpr ⟨kty, _, modulus, 3, exponent, key, bytes, verified⟩

/-- Another input with the same journal and another key. -/
theorem twin_exists (input : GuestInput) (journal : Bytes) (h : guestMain E input = .ok journal) :
    ∃ input', guestMain E input' = .ok journal ∧ rsaKey input'.jwk ≠ rsaKey input.jwk := by
  obtain ⟨result, verified⟩ := guestMain_ok E input journal h
  obtain ⟨parsed, hparsed, alg, kid, signature, claims, same⟩ :=
    (verifyAttestation_ok E _ _ _ _ _).mp verified
  obtain ⟨headerBytes, payloadBytes, hheader, hclaims⟩ := parseJwt_ok E _ parsed hparsed
  have kty := ((verifyRs256Signature_ok E parsed input.jwk).mp signature).1
  have twin (second : Bool) :
      guestMain E (forgedInput E input headerBytes payloadBytes second) = .ok journal := by
    refine (guestMain_congr E input (forgedInput E input headerBytes payloadBytes second)
      result rfl rfl rfl verified ?_).trans h
    refine (verifyAttestation_ok E _ _ _ _ _).mpr
      ⟨_, parseJwt_encoded E _ _ _ _ _ hheader hclaims, alg, kid, ?_, claims, same⟩
    exact verifyRs256Signature_forged rs256 input.jwk headerBytes payloadBytes second _ _ kty
  -- of two made-up keys at most one is the key at hand
  by_cases key : rsaKey (forgedJwk E input.jwk headerBytes payloadBytes false) = rsaKey input.jwk
  · refine ⟨forgedInput E input headerBytes payloadBytes true, twin true, ?_⟩
    intro key'
    change rsaKey (forgedJwk E input.jwk headerBytes payloadBytes true) = _ at key'
    have keys := key.trans key'.symm
    rw [rsaKey_forged rs256, rsaKey_forged rs256, Option.some.injEq, Prod.mk.injEq] at keys
    exact forgedModulus_distinct _ (paddedDigest_lt rs256 headerBytes payloadBytes) keys.1
  · exact ⟨forgedInput E input headerBytes payloadBytes false, twin false, key⟩

end Guest

section Pinning

variable {H : Type} (E : Environment H)

/-- The guest commits a journal with this JWK hash, and the contract accepts it. -/
def Accepted (c : RiscZeroAttestationVerifier H) (jwkHash : H) (input : GuestInput) : Prop :=
  ∃ timestamp journal proofBytes address values, guestMain E input = .ok journal ∧
    E.abiDecode journal = some values ∧ values.jwkKeyHash = jwkHash ∧
    c.verifyAttestationProof E timestamp journal proofBytes = .ok address

/-- All accepted journals with this hash were checked under one key. -/
def KeyPinned (c : RiscZeroAttestationVerifier H) (jwkHash : H) : Prop :=
  ∀ input input', Accepted E c jwkHash input → Accepted E c jwkHash input' →
    rsaKey input.jwk = rsaKey input'.jwk

/-- A JWK hash pins no key: whatever is accepted under it is accepted again with a key that the
prover made up. -/
theorem key_pinned_iff_nothing_accepted (rs256 : ImplementsRs256 E)
    (c : RiscZeroAttestationVerifier H) (jwkHash : H) :
    KeyPinned E c jwkHash ↔ ∀ input, ¬Accepted E c jwkHash input := by
  constructor
  · intro pinned input accepted
    obtain ⟨timestamp, journal, proofBytes, address, values, committed, decoded, hash, verified⟩ :=
      accepted
    obtain ⟨input', committed', key⟩ := twin_exists rs256 input journal committed
    apply key
    exact pinned input' input
      ⟨timestamp, journal, proofBytes, address, values, committed', decoded, hash, verified⟩
      ⟨timestamp, journal, proofBytes, address, values, committed, decoded, hash, verified⟩
  · intro nothing input input' accepted
    exact absurd accepted (nothing input)

end Pinning

namespace Sample

open SyndDB.Stylus.Sample (headerB64 kidHash audienceHash imageDigestHash imageSignatureR
  imageSignatureS imageSigner encodePublicValues decodePublicValues owner)

def headerJson : Bytes := bigEndian 38
  0x7b22616c67223a225253323536222c226b6964223a226b31222c22747970223a224a5754227d

def payloadJson : Bytes := bigEndian 220
  0x7b22697373223a2268747470733a2f2f636f6e666964656e7469616c636f6d707574696e672e676f6f676c65617069732e636f6d222c22737562223a22766d222c22617564223a2273796e646462222c22657870223a313730303030333630302c22696174223a313730303030303030302c22736563626f6f74223a747275652c2264626773746174223a2264697361626c65642d73696e63652d626f6f74222c227375626d6f6473223a7b22636f6e7461696e6572223a7b22696d6167655f646967657374223a227368613235363a6162616261626162227d7d7d

/-- Issued for the audience `synddb` at 1700000000, valid for an hour, with secure boot, debugging
disabled and the image digest `sha256:abababab`. -/
def payloadB64 : Bytes := bigEndian 294
  0x65794a7063334d694f694a6f64485277637a6f764c324e76626d5a705a47567564476c6862474e766258423164476c755a79356e6232396e6247566863476c7a4c6d4e7662534973496e4e3159694936496e5a74496977695958566b496a6f6963336c755a475269496977695a586877496a6f784e7a41774d44417a4e6a41774c434a70595851694f6a45334d4441774d4441774d444173496e4e6c59324a76623351694f6e527964575573496d52695a334e30595851694f694a6b61584e68596d786c5a43317a6157356a5a5331696232393049697769633356696257396b6379493665794a6a6232353059576c755a5849694f6e7369615731685a3256665a476c6e5a584e30496a6f69633268684d6a55324f6d466959574a68596d4669496e31396651

/-- Signature and modulus of a key with two prime factors of 1024 bits. -/
def signatureB64 : Bytes := bigEndian 342
  0x4b782d2d4c6d5f6449485f43556d546651323944316d50684e65303638747978636378626b763130315a6135506a7a317a5f7156666364776932637939316e6d545752545a69466e30777558416359634334433233716e754666364a7273654a536850395a6f355672727853424b6c6271694f3058786e6d34656e347239543258316b684857452d44535f787652785953335751494d3268587262457764784273567a634f7a6b70346f4977764337766d79496e756b2d6d61787642732d364346747a2d34457878773478634c793077596478646e615175534179724a4646444e415949477a42436670326351706c344d6c6564455a53346f71775059635f483651314a314b2d54544b545561434f476c53777463466c69554f626b58397241706d375737326148556e5848587258796574634d4136334e6d3956356a396a6c726d7765326d3943586b534766395770357467647567

def modulusB64 : Bytes := bigEndian 342
  0x78617333465f627747756b5a675979312d546a6f4d535a417a6459396e6347353835656f776e78706b44446c5a4b33535a6253756556674a536a394a7a6b596855334230395348763170472d42324166346a416f675874316174353855367534633830416c4b5831635352516473705036732d376851354e59303267506b69743555553746486b31414f537151424745383772484e54644b7a63666b765574366d745066643778474e325f5052517635695534724c5a3061396f625a6b5f446b716a4552387436735a324941616475745442372d4347733663505450474f446a5f393871614d7275654f746246335646414256496b6c344b6135424d70583450587a7949337966624d41394462714253465a666530413554416f322d6176635662486c7168346255337a4d625257514e61467361515350476f7a4a386956306b755050424b4935746f646d3675304c58304b354d5f51

/-- The root `2 ^ 682` and its modulus. -/
def rootB64 : Bytes := bigEndian 342
  0x414141414141414141414141414141414141414141414141414141414141414141414141414141414141414141414141414141414141414141414141414141414141414141414141414141414141414141414141414141414141414141414141414141414141414141414141414141414141414141414141414141414141414141414141414141414141414141414141414141414141414141414141414141414141414141414141414141414141414141414141414141414141414141414141414141414141414141414141414141414141414141414141414141414141414141414145414141414141414141414141414141414141414141414141414141414141414141414141414141414141414141414141414141414141414141414141414141414141414141414141414141414141414141414141414141414141414141414141414141414141414141414141414141414141

def rootModulusB64 : Bytes := bigEndian 342
  0x505f3441414141414141414141414141414141414141414141414141414141414141414141414141414141414141414141414141414141414141414141414141414141414141414141414141414141414141414141414141414141414141414141414141414141414141414141414141414141414141414141414141414141414141414141414141414141414141414141414141414141414141414141414141414141414141414141414141414141414141414141414141414141414141414141414141414141414141414141414141414141414141414141414141414141414141414141414141414141414141414141414141414141414141414141414141414141414141414141414141414141415f385f4f7a5f4c3539703935745f36615f5076395f76725f2d392d5f475073585f49534f495758786573754555534447373059436d69356a31504b4848305655766f7a6e4b51

def signingInput : Bytes := headerB64 ++ 46 :: payloadB64

def header : JwtHeader := ⟨ascii "RS256", ascii "k1", some (ascii "JWT")⟩

def claims : GcpCsClaims where
  iss := ascii "https://confidentialcomputing.googleapis.com"
  sub := ascii "vm"
  aud := ascii "synddb"
  exp := 1700003600
  iat := 1700000000
  nbf := 0
  secboot := true
  hwmodel := none
  swname := none
  dbgstat := some (ascii "disabled-since-boot")
  eatNonce := none
  submods := some ⟨some ⟨some (ascii "sha256:abababab"), none⟩⟩

def evmPublicKey : Bytes := bigEndian 64
  0x79be667ef9dcbbac55a06295ce870b07029bfcdb2dce28d959f2815b16f81798483ada7726a3c4655da4fbfc0e1108a8fd17b448a68554199c47d08ffb10d4b8

def keccakTable : List (Bytes × Bytes) :=
  [(ascii "k1", kidHash), (ascii "synddb", audienceHash),
   (ascii "sha256:abababab", imageDigestHash), (evmPublicKey, bigEndian 32
    0xc0a6c424ac7157ae408398df7e5f4552091a69125d5dfcb7b8c2659029395bdf)]

def values : PublicValuesStruct Bytes :=
  ⟨kidHash, 1700000000, 1700003600, imageDigestHash,
    0x7e5f4552091a69125d5dfcb7b8c2659029395bdf, true,
    true, audienceHash, 27, imageSignatureR, imageSignatureS⟩

def journal : Bytes := encodePublicValues id values

def sha256 (message : Bytes) : Bytes :=
  if message = signingInput then bigEndian 32
    0x40e704e8037b71de9a0e85347baedf3910b9fd65d19c2b0d78e0baab417318d7
  else if message = journal then bigEndian 32
    0x565701c8b7b00f9d2e19876ac1eaf98bdd87f68770a1dc97dcb91ed5451b7dd7
  else bigEndian 32 0

/-- The number of bytes of a positive number. -/
def byteLength (n : Nat) : Nat := n.log2 / 8 + 1

theorem byteLength_eq (k n : Nat) (low : 256 ^ (k - 1) ≤ n) (high : n < 256 ^ k) :
    byteLength n = k := by
  have power (i : Nat) : 256 ^ i = 2 ^ (8 * i) := by
    rw [Nat.pow_mul]
  have positive : n ≠ 0 := by
    have := Nat.pow_pos (n := k - 1) (show 0 < 256 by decide)
    omega
  rw [power, ← Nat.le_log2 positive] at low
  rw [power, ← Nat.log2_lt positive] at high
  rw [byteLength]
  omega

def environment : Environment Bytes where
  parseHeader bytes := if bytes = headerJson then some header else none
  parseClaims bytes := if bytes = payloadJson then some claims else none
  rsaPublicKeyNew n e :=
    if n % 2 = 1 ∧ n < 2 ^ 4096 ∧ e % 2 = 1 ∧ 1 < e ∧ e < 2 ^ 33 ∧ e < n then .ok ()
    else .error "InvalidModulus"
  signatureTryFrom _ := .ok ()
  rsaVerify n e message signature :=
    let k := byteLength n
    if signature.length = k ∧ fromBigEndian signature < n ∧
        bigEndian k (fromBigEndian signature ^ e % n) = emsaPkcs1v15 k (sha256 message) then .ok ()
    else .error "Verification"
  keccak256 := Shared.tabulated keccakTable
  asSlice := id
  fromSlice := id
  abiEncode := encodePublicValues id
  abiDecode := decodePublicValues id
  sha256 := sha256
  ecrecover hash v r s :=
    if hash = imageDigestHash ∧ v = 27 ∧ r = imageSignatureR ∧ s = imageSignatureS then imageSigner
    else 0
  riscZeroVerify verifier proof imageId digest :=
    verifier = 0x5E ∧ proof = [0x90] ∧ imageId = bigEndian 32 7 ∧ digest = sha256 journal

theorem implements_rs256 : ImplementsRs256 environment where
  digest message := by
    change (sha256 message).length = 32
    unfold sha256
    split
    · exact length_bigEndian 32 _
    · split
      · exact length_bigEndian 32 _
      · exact length_bigEndian 32 _
  publicKey n e odd size exponent large small less :=
    if_pos ⟨odd, size, exponent, large, small, less⟩
  signature _ _ := rfl
  verify k n e message signature _ low high length small padded := by
    have bytes := byteLength_eq k n low high
    exact if_pos ⟨by rw [bytes]; exact length, small, by rw [bytes]; exact padded⟩

theorem keccak_injective : Function.Injective environment.keccak256 :=
  Shared.tabulated_injective keccakTable (by decide) (by decide)

def input (signature modulus : Bytes) : GuestInput where
  jwtBytes := signingInput ++ 46 :: signature
  jwk := ⟨some (ascii "RS256"), ascii "k1", ascii "RSA", modulus, ascii "Aw", some (ascii "sig")⟩
  expectedAudience := ascii "synddb"
  evmPublicKey := evmPublicKey
  imageSignature := imageSignatureR ++ imageSignatureS ++ [27]

/-- The owner trusts the key id, the image and its signer. -/
def trusting : Except (VerifierError Bytes) (RiscZeroAttestationVerifier Bytes) := do
  let c ← RiscZeroAttestationVerifier.construct [] owner 0x5E (bigEndian 32 7) 300
  let c ← c.addTrustedJwkHash owner kidHash
  let c ← c.addAllowedImageDigestHash owner imageDigestHash
  c.addTrustedImageSigner owner imageSigner

def contract : RiscZeroAttestationVerifier Bytes where
  verifier := 0x5E
  imageId := bigEndian 32 7
  expirationTolerance := 300
  owner := owner
  trustedJwkHashes := Function.update (fun _ => false) kidHash true
  allowedImageDigestHashes := Function.update (fun _ => false) imageDigestHash true
  trustedImageSigners := Function.update (fun _ => false) imageSigner true

theorem trusting_reaches : trusting = .ok contract := by
  have image : bigEndian 32 7 ≠ [] := by decide
  simp [trusting, image, RiscZeroAttestationVerifier.construct,
    RiscZeroAttestationVerifier.addTrustedJwkHash,
    RiscZeroAttestationVerifier.addAllowedImageDigestHash,
    RiscZeroAttestationVerifier.addTrustedImageSigner,
    RiscZeroAttestationVerifier.asOwner, contract]

theorem committed : guestMain environment (input signatureB64 modulusB64) = .ok journal ∧
    guestMain environment (input rootB64 rootModulusB64) = .ok journal ∧
    rsaKey (input signatureB64 modulusB64).jwk ≠ rsaKey (input rootB64 rootModulusB64).jwk := by
  decide +kernel

theorem accepted (signature modulus : Bytes)
    (h : guestMain environment (input signature modulus) = .ok journal) :
    Accepted environment contract kidHash (input signature modulus) := by
  refine ⟨1700000100, journal, [0x90], values.teeSigningKey, values, h, ?_, rfl, ?_⟩
  · decide +kernel
  · decide +kernel

/-- The token of the trusted key id, signed with a factored modulus and with a made-up one. -/
theorem one_hash_two_keys :
    Function.Injective environment.keccak256 ∧ trusting = .ok contract ∧
    Accepted environment contract kidHash (input signatureB64 modulusB64) ∧
    Accepted environment contract kidHash (input rootB64 rootModulusB64) ∧
    rsaKey (input signatureB64 modulusB64).jwk ≠ rsaKey (input rootB64 rootModulusB64).jwk :=
  ⟨keccak_injective, trusting_reaches, accepted _ _ committed.1, accepted _ _ committed.2.1,
    committed.2.2⟩

theorem key_pinned_iff_nothing_accepted_trusting : ¬KeyPinned environment contract kidHash := by
  intro pinned
  exact (key_pinned_iff_nothing_accepted environment implements_rs256 contract kidHash).mp pinned
    (input signatureB64 modulusB64) (accepted _ _ committed.1)

end Sample

end SyndDB.RiscZero
