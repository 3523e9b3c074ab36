import SyndDB.Framework.JsonRecord
import SyndDB.RiscZero.Guest
import SyndDB.Stylus.JsonScan

namespace SyndDB.RiscZero

open Json Octets
open SyndDB.Stylus (isUtf8 unsignedOf boolOf)

def text : Document → Option Bytes := textOf isUtf8

namespace JwtHeader

def fieldNames : List Bytes := ["alg", "kid", "typ"].map ascii

def ofDocument (document : Document) : Option JwtHeader := do
  let fields ← fieldsOf isUtf8 fieldNames document
  let alg ← fields.required (ascii "alg") text
  let kid ← fields.required (ascii "kid") text
  let typ ← fields.withDefault (ascii "typ") (optionOf text) none
  return ⟨alg, kid, typ⟩

end JwtHeader

namespace ContainerInfo

def fieldNames : List Bytes := ["image_digest", "image_reference"].map ascii

def ofDocument (document : Document) : Option ContainerInfo := do
  let fields ← fieldsOf isUtf8 fieldNames document
  let imageDigest ← fields.optional (ascii "image_digest") text
  let imageReference ← fields.optional (ascii "image_reference") text
  return ⟨imageDigest, imageReference⟩

end ContainerInfo

def SubMods.ofDocument (document : Document) : Option SubMods := do
  let fields ← fieldsOf isUtf8 [ascii "container"] document
  let container ← fields.optional (ascii "container") ContainerInfo.ofDocument
  return ⟨container⟩

namespace GcpCsClaims

def fieldNames : List Bytes :=
  ["iss", "sub", "aud", "exp", "iat", "nbf", "secboot", "hwmodel", "swname", "dbgstat", "eat_nonce",
    "submods"].map ascii

def ofDocument (document : Document) : Option GcpCsClaims := do
  let fields ← fieldsOf isUtf8 fieldNames document
  let iss ← fields.required (ascii "iss") text
  let sub ← fields.required (ascii "sub") text
  let aud ← fields.required (ascii "aud") text
  let exp ← fields.required (ascii "exp") unsignedOf
  let iat ← fields.required (ascii "iat") unsignedOf
  let nbf ← fields.withDefault (ascii "nbf") unsignedOf 0
  let secboot ← fields.withDefault (ascii "secboot") boolOf false
  let hwmodel ← fields.withDefault (ascii "hwmodel") (optionOf text) none
  let swname ← fields.withDefault (ascii "swname") (optionOf text) none
  let dbgstat ← fields.withDefault (ascii "dbgstat") (optionOf text) none
  let eatNonce ← fields.withDefault (ascii "eat_nonce") (optionOf text) none
  let submods ← fields.withDefault (ascii "submods") (optionOf SubMods.ofDocument) none
  return ⟨iss, sub, aud, exp, iat, nbf, secboot, hwmodel, swname, dbgstat, eatNonce, submods⟩

end GcpCsClaims

/-- `serde_json` reads what is JSON, with the structures' own rules for their fields. -/
structure Environment.ReadsJson {H : Type} (E : Environment H) : Prop where
  header : ∀ bytes, E.parseHeader bytes = parse bytes >>= JwtHeader.ofDocument
  claims : ∀ bytes, E.parseClaims bytes = parse bytes >>= GcpCsClaims.ofDocument

end SyndDB.RiscZero
