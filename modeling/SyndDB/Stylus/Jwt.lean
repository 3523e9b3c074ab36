import SyndDB.Framework.Octets
import Mathlib.Data.List.Basic

namespace SyndDB.Stylus

open Octets

/-- Values of the standard alphabet; `=` is -2 and everything else -1. -/
def BASE64_DECODE_TABLE : List Int :=
  [-1, -1, -1, -1, -1, -1, -1, -1, -1, -1, -1, -1, -1, -1, -1, -1, -1, -1, -1, -1, -1, -1, -1,
   -1, -1, -1, -1, -1, -1, -1, -1, -1, -1, -1, -1, -1, -1, -1, -1, -1, -1, -1, -1, 62, -1, -1,
   -1, 63, 52, 53, 54, 55, 56, 57, 58, 59, 60, 61, -1, -1, -1, -2, -1, -1, -1, 0, 1, 2, 3, 4,
   5, 6, 7, 8, 9, 10, 11, 12, 13, 14, 15, 16, 17, 18, 19, 20, 21, 22, 23, 24, 25, -1, -1, -1,
   -1, -1, -1, 26, 27, 28, 29, 30, 31, 32, 33, 34, 35, 36, 37, 38, 39, 40, 41, 42, 43, 44, 45,
   46, 47, 48, 49, 50, 51, -1, -1, -1, -1, -1]

def base64Value (c : UInt8) : Int := BASE64_DECODE_TABLE.getD c.toNat (-1)

/-- Groups of four characters. A group with `=` as its third character ends there, whatever
the fourth one is. -/
def base64Groups : Bytes → Except String Bytes
  | a :: b :: c :: d :: rest => do
      let va := base64Value a
      let vb := base64Value b
      let vc := base64Value c
      let vd := base64Value d
      if va < 0 ∨ vb < 0 then throw "Invalid base64 character"
      let va := UInt8.ofNat va.toNat
      let vb := UInt8.ofNat vb.toNat
      let first := va <<< 2 ||| vb >>> 4
      if c = 61 then return first :: (← base64Groups rest)
      if vc < 0 then throw "Invalid base64 character"
      let vc := UInt8.ofNat vc.toNat
      let second := vb <<< 4 ||| vc >>> 2
      if d = 61 then return first :: second :: (← base64Groups rest)
      if vd < 0 then throw "Invalid base64 character"
      let third := vc <<< 6 ||| UInt8.ofNat vd.toNat
      return first :: second :: third :: (← base64Groups rest)
  | _ => .ok []

def base64Decode (input : Bytes) : Except String Bytes :=
  if input.length % 4 ≠ 0 then .error "Invalid base64 length" else base64Groups input

/-- The url alphabet is mapped to the standard one and padding is added. -/
def base64urlDecode (input : Bytes) : Except String Bytes :=
  let standard := input.map fun c => if c = 45 then 43 else if c = 95 then 47 else c
  let padding := match standard.length % 4 with
    | 2 => [61, 61]
    | 3 => [61]
    | _ => []
  base64Decode (standard ++ padding)

def isUtf8Tail (b : UInt8) : Bool := 0x80 ≤ b && b ≤ 0xbf

/-- Well-formed UTF-8, as `core::str::from_utf8` accepts it. -/
def isUtf8 : Bytes → Bool
  | [] => true
  | a :: rest =>
      if a ≤ 0x7f then isUtf8 rest
      else match rest with
        | [] => false
        | b :: rest =>
            if 0xc2 ≤ a && a ≤ 0xdf then isUtf8Tail b && isUtf8 rest
            else match rest with
              | [] => false
              | c :: rest =>
                  if a = 0xe0 then 0xa0 ≤ b && b ≤ 0xbf && isUtf8Tail c && isUtf8 rest
                  else if a = 0xed then 0x80 ≤ b && b ≤ 0x9f && isUtf8Tail c && isUtf8 rest
                  else if 0xe1 ≤ a && a ≤ 0xef then isUtf8Tail b && isUtf8Tail c && isUtf8 rest
                  else match rest with
                    | [] => false
                    | d :: rest =>
                        if a = 0xf0 then
                          0x90 ≤ b && b ≤ 0xbf && isUtf8Tail c && isUtf8Tail d && isUtf8 rest
                        else if a = 0xf4 then
                          0x80 ≤ b && b ≤ 0x8f && isUtf8Tail c && isUtf8Tail d && isUtf8 rest
                        else if 0xf1 ≤ a && a ≤ 0xf3 then
                          isUtf8Tail b && isUtf8Tail c && isUtf8Tail d && isUtf8 rest
                        else false

structure ParsedJwt where
  headerJson : Bytes
  payloadJson : Bytes
  signature : Bytes
  /-- The encoded header and payload with the dot between them. -/
  signingInput : Bytes
  deriving DecidableEq

/-- What stands before and after the first dot. -/
def splitDot : Bytes → Option (Bytes × Bytes)
  | [] => none
  | c :: rest =>
      if c = 46 then some ([], rest)
      else (splitDot rest).map fun (before, after) => (c :: before, after)

/-- A token is cut at its first two dots. -/
def parseJwt (jwtBytes : Bytes) : Except String ParsedJwt := do
  if !isUtf8 jwtBytes then throw "Invalid UTF-8"
  match splitDot jwtBytes with
  | none => throw "Missing payload"
  | some (headerB64, rest) =>
      match splitDot rest with
      | none => throw "Missing signature"
      | some (payloadB64, signatureB64) =>
          let headerJson ← base64urlDecode headerB64
          let payloadJson ← base64urlDecode payloadB64
          let signature ← base64urlDecode signatureB64
          return ⟨headerJson, payloadJson, signature, headerB64 ++ 46 :: payloadB64⟩

def isJsonWhitespace (b : UInt8) : Bool := b = 32 || b = 9 || b = 10 || b = 13

def skipWhitespace (json : Bytes) : Bytes := json.dropWhile isJsonWhitespace

/-- What follows the colon after the quoted key, at the first place where there is one. -/
def jsonFindKey (key : Bytes) : Bytes → Option Bytes
  | [] => none
  | c :: rest =>
      let pattern := 34 :: key ++ [34]
      if pattern.isPrefixOf (c :: rest) then
        match skipWhitespace ((c :: rest).drop pattern.length) with
        | 58 :: value => some value
        | _ => jsonFindKey key rest
      else jsonFindKey key rest

/-- The string up to a quote with an even number of backslashes before it. `read` holds what was
read in reverse. -/
def closingQuote (read : Bytes) : Bytes → Option Bytes
  | [] => none
  | c :: rest =>
      if c = 34 ∧ (read.takeWhile (· = 92)).length % 2 = 0 then some read.reverse
      else closingQuote (c :: read) rest

def jsonGetString (json key : Bytes) : Option Bytes := do
  let value ← jsonFindKey key json
  match skipWhitespace value with
  | 34 :: rest => closingQuote [] rest
  | _ => none

def isAsciiDigit (b : UInt8) : Bool := 48 ≤ b && b ≤ 57

/-- Digits with checked arithmetic. -/
def parseDigits (result : UInt64) : Bytes → Option UInt64
  | [] => some result
  | d :: rest =>
      if result.toNat * 10 + (d.toNat - 48) < 2 ^ 64 then
        parseDigits (result * 10 + UInt64.ofNat (d.toNat - 48)) rest
      else none

def jsonGetU64 (json key : Bytes) : Option UInt64 := do
  let value ← jsonFindKey key json
  match (skipWhitespace value).takeWhile isAsciiDigit with
  | [] => none
  | digits => parseDigits 0 digits

def jsonGetBool (json key : Bytes) : Option Bool := do
  let value := skipWhitespace (← jsonFindKey key json)
  if (ascii "true").isPrefixOf value then some true
  else if (ascii "false").isPrefixOf value then some false
  else none

def PKCS1_SHA256_DIGEST_INFO : Bytes :=
  [0x30, 0x31, 0x30, 0x0d, 0x06, 0x09, 0x60, 0x86, 0x48, 0x01, 0x65, 0x03, 0x04, 0x02, 0x01,
   0x05, 0x00, 0x04, 0x20]

/-- The position of the first zero byte from position `i` on, all bytes before it being `0xff`. -/
def separatorPos (i : Nat) : Bytes → Option Nat
  | [] => none
  | byte :: rest =>
      if byte = 0 then some i
      else if byte ≠ 0xff then none
      else separatorPos (i + 1) rest

def verifyPkcs1v15Sha256 (decrypted expectedHash : Bytes) : Bool :=
  if decrypted.length < 62 then false
  else if decrypted.take 2 ≠ [0x00, 0x01] then false
  else match separatorPos 2 (decrypted.drop 2) with
    | none => false
    | some separator =>
        let digestStart := separator + 1
        if separator < 10 then false
        else if decrypted.length - digestStart ≠ PKCS1_SHA256_DIGEST_INFO.length + 32 then false
        else if (decrypted.drop digestStart).take PKCS1_SHA256_DIGEST_INFO.length ≠
            PKCS1_SHA256_DIGEST_INFO then false
        else (decrypted.drop (digestStart + PKCS1_SHA256_DIGEST_INFO.length)).take 32 = expectedHash

end SyndDB.Stylus
