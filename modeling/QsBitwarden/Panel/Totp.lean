import QsBitwarden.Lib.Utf8
import QsBitwarden.Panel.Hashes

/-! Owns the panel's TOTP codes (`TotpModel.js`): its own reader of a key and the code for a time
in milliseconds. Texts are characters; a surrogate pair is one. -/

namespace QsBitwarden.Panel.Totp

open Lib Lib.JsNumber

def base32Chars : Text := "ABCDEFGHIJKLMNOPQRSTUVWXYZ234567".toList

def steamChars : Text := "23456789BCDFGHJKMNPQRTVWXY".toList

def defaultDigits : ℕ := 6

def defaultPeriod : ℕ := 30

inductive Algorithm
  | sha1
  | sha256
  | steam
  deriving DecidableEq

structure Params where
  algorithm : Algorithm
  digits : ℕ
  period : ℕ
  secret : List ℤ

/-! ### Keys -/

/-- `toUpperCase` of a character, as far as it is of ASCII: beside the ASCII letters these are all
characters that have an ASCII letter in upper case. What the others become is left as it is, and
is outside of ASCII in either case. -/
def upperCase (char : Char) : Text :=
  if char.toNat < 128 then [char.toUpper]
  else
    match char.toNat with
    | 0x00DF => ['S', 'S']
    | 0x0131 => ['I']
    | 0x0149 => ['\u02bc', 'N']
    | 0x017F => ['S']
    | 0x01F0 => ['J', '\u030c']
    | 0x1E96 => ['H', '\u0331']
    | 0x1E97 => ['T', '\u0308']
    | 0x1E98 => ['W', '\u030a']
    | 0x1E99 => ['Y', '\u030a']
    | 0x1E9A => ['A', '\u02be']
    | 0xFB00 => ['F', 'F']
    | 0xFB01 => ['F', 'I']
    | 0xFB02 => ['F', 'L']
    | 0xFB03 => ['F', 'F', 'I']
    | 0xFB04 => ['F', 'F', 'L']
    | 0xFB05 => ['S', 'T']
    | 0xFB06 => ['S', 'T']
    | _ => [char]

/-- The buffer, the bits in it that are not pushed yet, and the bytes. -/
structure Bits where
  buffer : ℤ
  bits : ℕ
  bytes : List ℤ

def Bits.read (state : Bits) (char : Char) : Bits :=
  match base32Chars.findIdx? (· = char) with
  | none => state
  | some idx =>
    let buffer := bitAnd (bitOr (shiftLeft state.buffer 5) idx) 0xffff
    let bits := state.bits + 5
    if 8 ≤ bits then
      ⟨buffer, bits - 8, state.bytes ++ [bitAnd (shiftRight buffer (bits - 8)) 0xff]⟩
    else ⟨buffer, bits, state.bytes⟩

def decodeBase32 (s : Text) : List ℤ := ((s.flatMap upperCase).foldl Bits.read ⟨0, 0, []⟩).bytes

/-- The text after the sign of `^\+?[0-9]+$`, if the whole matches. -/
def unsignedDigits (v : Text) : Option Text :=
  let digits := withoutPlus v
  if digits ≠ [] ∧ digits.all isAsciiDigit then some digits else none

/-- `Number` of digits. Past 2 to the 53 it rounds, which keeps it above the bound. -/
def numberOf (digits : Text) : ℕ :=
  digits.foldl (fun value char => value * 10 + (char.toNat - 48)) 0

def parseU32 (v : Option Text) : Option ℕ :=
  match v.bind unsignedDigits with
  | none => none
  | some digits => if numberOf digits ≤ 4294967295 then some (numberOf digits) else none

def hexDigitValue (char : Char) : Option ℕ :=
  let code := char.toNat
  if 48 ≤ code ∧ code ≤ 57 then some (code - 48)
  else if 65 ≤ code ∧ code ≤ 70 then some (code - 55)
  else if 97 ≤ code ∧ code ≤ 102 then some (code - 87)
  else none

/-- An escaped octet at the start, and the text after it. -/
def octet : Text → Option (UInt8 × Text)
  | '%' :: high :: low :: rest =>
    match hexDigitValue high, hexDigitValue low with
    | some high, some low => some (UInt8.ofNat (high * 16 + low), rest)
    | _, _ => none
  | _ => none

/-- So many octets, each escaped. -/
def octets : ℕ → Text → Option (Bytes × Text)
  | 0, text => some ([], text)
  | count + 1, text => do
    let (first, rest) ← octet text
    let (more, rest) ← octets count rest
    return (first :: more, rest)

/-- `decodeURIComponent` as the standard has it; none where it throws. The first octet says how
many belong together, and they must be one character in UTF-8. -/
def decodeFrom : ℕ → Text → Option Text
  | _, [] => some []
  | 0, _ :: _ => none
  | more + 1, char :: rest =>
    if char = '%' then do
      let (first, rest) ← octet (char :: rest)
      let (tail, rest) ← octets (Utf8.width first - 1) rest
      let decoded ← Utf8.character (first :: tail)
      let others ← decodeFrom more rest
      return decoded :: others
    else (decodeFrom more rest).map (char :: ·)

def decodeURIComponent (text : Text) : Option Text := decodeFrom text.length text

def spaceForPlus (char : Char) : Char := if char = '+' then ' ' else char

def formDecode (s : Text) : Option Text := decodeURIComponent (s.map spaceForPlus)

/-- The values of a query by name. -/
abbrev Parts := Text → Option Text

def Parts.readPair (parts : Parts) (pair : Text) : Option Parts :=
  if pair = [] then some parts
  else
    match formDecode (upTo '=' pair), formDecode (past '=' pair) with
    | some name, some value => some fun other => if other = name then some value else parts other
    | _, _ => none

def isHostChar (char : Char) : Bool :=
  let code := char.toNat
  (97 ≤ code ∧ code ≤ 122) ∨ (48 ≤ code ∧ code ≤ 57) ∨ char ∈ ['.', '_', '~', '-']

/-- `[\s\x00-\x1f\x7f]`, on ASCII. -/
def isBlankChar (char : Char) : Bool :=
  let code := char.toNat
  code = 0x20 ∨ (9 ≤ code ∧ code ≤ 13) ∨ code ≤ 0x1f ∨ code = 0x7f

def digitsOf (value : Option Text) : ℕ := ((parseU32 value).map (min · 10)).getD defaultDigits

def periodOf (value : Option Text) : ℕ := ((parseU32 value).map (max · 1)).getD defaultPeriod

/-- The parameters the values of a query give. -/
def Parts.params (parts : Parts) : Option Params :=
  match parts "secret".toList with
  | none => none
  | some secret =>
    if parts "algorithm".toList = some "sha512".toList then none
    else
      let algorithm :=
        if parts "algorithm".toList = some "sha256".toList then Algorithm.sha256 else .sha1
      let digits := digitsOf (parts "digits".toList)
      if digits < 1 ∨ 9 < digits then none
      else some ⟨algorithm, digits, periodOf (parts "period".toList), decodeBase32 secret⟩

def parseOtpauth (k : Text) : Option Params :=
  let rest := upTo '#' (k.drop "otpauth://".toList.length)
  let authority := upTo '/' (upTo '?' rest)
  if !authority.all isHostChar then none
  else if rest.any isBlankChar then none
  else
    (((past '?' rest).splitOn '&').foldlM Parts.readPair (fun _ => none)).bind Parts.params

def parseKey (key : Text) : Option Params :=
  if key = [] ∨ key.any (128 ≤ ·.toNat) then none
  else
    let k := key.map Char.toLower
    if "otpauth://".toList.isPrefixOf k then parseOtpauth k
    else if "steam://".toList.isPrefixOf k then
      some ⟨.steam, 5, defaultPeriod, decodeBase32 (k.drop "steam://".toList.length)⟩
    else some ⟨.sha1, defaultDigits, defaultPeriod, decodeBase32 k⟩

/-! ### Codes -/

def steamCode : ℕ → ℕ → Text
  | 0, _ => []
  | digits + 1, full => steamChars.getD (full % 26) '?' :: steamCode digits (floorQuotient full 26)

/-- Zeros in front until the text is long enough; each round of the loop adds one. -/
def prependZeros (digits : ℕ) : ℕ → Text → Text
  | 0, otp => otp
  | more + 1, otp => if otp.length < digits then prependZeros digits more ('0' :: otp) else otp

/-- The 31 bits of a hash that its last byte points at. -/
def binaryOf (hash : List ℤ) : ℤ :=
  let offset := (bitAnd (element hash (hash.length - 1)) 15).toNat
  bitAnd (element hash offset) 127 * 16777216 + shiftLeft (element hash (offset + 1)) 16 +
    shiftLeft (element hash (offset + 2)) 8 + element hash (offset + 3)

def deriveOtp (params : Params) (counter : ℕ) : Text :=
  let hi := counter / 4294967296
  let lo := counter % 4294967296
  let time := pushedBytes hi ++ pushedBytes lo
  let hash := hmac (if params.algorithm = .sha256 then sha256 else sha1) params.secret time
  let binary := (binaryOf hash).toNat
  if params.algorithm = .steam then steamCode params.digits binary
  else prependZeros params.digits params.digits (Nat.toDigits 10 (binary % 10 ^ params.digits))

/-- The code for a key at a whole millisecond, and its period. -/
def generate (key : Text) (nowMs : ℕ) : Option (Text × ℕ) :=
  (parseKey key).map fun params =>
    let counter := floorQuotient (floorQuotient nowMs 1000) params.period
    (deriveOtp params counter, params.period)

end QsBitwarden.Panel.Totp
