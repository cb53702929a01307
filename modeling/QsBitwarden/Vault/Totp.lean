import QsBitwarden.Lib.Text
import QsBitwarden.Lib.Sha
import QsBitwarden.Lib.Utf8

/-! Owns the helper's TOTP codes: the reader of a key, an `otpauth` address among others, and the
code for a time. The HMAC crates are the standard functions. -/

namespace QsBitwarden.Vault.Totp

open Lib Lib.Sha

def base32Letters : Text := "ABCDEFGHIJKLMNOPQRSTUVWXYZ234567".toList

def steamLetters : Text := "23456789BCDFGHJKMNPQRTVWXY".toList

def defaultDigits : ℕ := 6

def defaultPeriod : ℕ := 30

inductive Algorithm
  | sha1
  | sha256
  | steam
  deriving DecidableEq

structure Params where
  algorithm : Algorithm
  digits : ℕ
  period : ℕ
  secret : Bytes

/-! ### Keys -/

/-- What is read so far: the buffer, the bits in it that are not written yet, and the bytes. -/
structure Bits where
  buffer : ℕ
  bits : ℕ
  out : Bytes

/-- Five more bits. -/
def Bits.push (state : Bits) (index : ℕ) : Bits :=
  let buffer := (state.buffer <<< 5 ||| index) &&& 0xffff
  let bits := state.bits + 5
  if 8 ≤ bits then ⟨buffer, bits - 8, state.out ++ [UInt8.ofNat (buffer >>> (bits - 8))]⟩
  else ⟨buffer, bits, state.out⟩

def toAsciiUppercase (byte : UInt8) : UInt8 :=
  if 97 ≤ byte.toNat ∧ byte.toNat ≤ 122 then byte - 32 else byte

/-- The place of a byte in the alphabet, in either case. -/
def letterIndex (byte : UInt8) : Option ℕ :=
  (base32Letters.map Utf8.byteOf).findIdx? (· = toAsciiUppercase byte)

/-- A byte outside the alphabet is passed over. -/
def Bits.read (state : Bits) (byte : UInt8) : Bits :=
  match letterIndex byte with
  | some index => state.push index
  | none => state

def base32 (input : Text) : Bytes := ((Utf8.encode input).foldl Bits.read ⟨0, 0, []⟩).out

/-- One digit more, unless the number gets too large. -/
def readDigit (read : ℕ) (char : Char) : Option ℕ :=
  if isAsciiDigit char then
    let next := read * 10 + (char.toNat - 48)
    if next < 2 ^ 32 then some next else none
  else none

/-- `str::parse::<u32>`. -/
def parseU32 (value : Text) : Option ℕ :=
  let digits := withoutPlus value
  if digits = [] then none
  else
    digits.foldlM readDigit 0

def hexValue (byte : UInt8) : Option ℕ :=
  let value := byte.toNat
  if 48 ≤ value ∧ value ≤ 57 then some (value - 48)
  else if 97 ≤ value ∧ value ≤ 102 then some (value - 87)
  else if 65 ≤ value ∧ value ≤ 70 then some (value - 55)
  else none

/-- The bytes of a form value; none where an escape lacks its two hex digits. -/
def unescape : Bytes → Option Bytes
  | [] => some []
  | byte :: rest =>
    if byte = 0x2B then (unescape rest).map (0x20 :: ·)
    else if byte = 0x25 then
      match rest with
      | high :: low :: rest =>
        match hexValue high, hexValue low with
        | some high, some low => (unescape rest).map (UInt8.ofNat (high * 16 + low) :: ·)
        | _, _ => none
      | _ => none
    else (unescape rest).map (byte :: ·)

def formDecode (input : Text) : Option Text := (unescape (Utf8.encode input)).bind Utf8.decode

/-- The values of a query, the last of each name. -/
structure Found where
  secret : Option Text
  algorithm : Option Text
  digits : Option Text
  period : Option Text

def Found.put (found : Found) (name value : Text) : Found :=
  if name = "secret".toList then { found with secret := some value }
  else if name = "algorithm".toList then { found with algorithm := some value }
  else if name = "digits".toList then { found with digits := some value }
  else if name = "period".toList then { found with period := some value }
  else found

def Found.readPair (found : Found) (pair : Text) : Option Found := do
  let name ← formDecode (upTo '=' pair)
  let value ← formDecode (past '=' pair)
  return found.put name value

def isHostByte (char : Char) : Bool :=
  let code := char.toNat
  (97 ≤ code ∧ code ≤ 122) ∨ (48 ≤ code ∧ code ≤ 57) ∨ char ∈ ['.', '_', '~', '-']

/-- White space and control characters of ASCII. -/
def isBlankByte (char : Char) : Bool :=
  let code := char.toNat
  code = 0x20 ∨ code < 0x20 ∨ code = 0x7f

/-- The algorithm a value names; SHA-512 is left to `bw`. -/
def algorithmOf (value : Option Text) : Option Algorithm :=
  if value = some "sha256".toList then some .sha256
  else if value = some "sha512".toList then none
  else some .sha1

def digitsOf (value : Option Text) : ℕ := ((value.bind parseU32).map (min · 10)).getD defaultDigits

def periodOf (value : Option Text) : ℕ := ((value.bind parseU32).map (max · 1)).getD defaultPeriod

/-- The parameters the values of a query give. -/
def Found.params (found : Found) : Option Params :=
  found.secret.bind fun secret =>
    (algorithmOf found.algorithm).bind fun algorithm =>
      let digits := digitsOf found.digits
      if digits < 1 ∨ 9 < digits then none
      else some ⟨algorithm, digits, periodOf found.period, base32 secret⟩

def parseOtpauth (rest : Text) : Option Params :=
  let rest := upTo '#' rest
  let path := upTo '?' rest
  let query := past '?' rest
  let authority := upTo '/' path
  if !authority.all isHostByte then none
  else if rest.any isBlankByte then none
  else
    let pairs := (query.splitOn '&').filter (!·.isEmpty)
    (pairs.foldlM Found.readPair ⟨none, none, none, none⟩).bind Found.params

/-- What follows a start, if the text has it. -/
def strip (start text : Text) : Option Text :=
  if start.isPrefixOf text then some (text.drop start.length) else none

def parseKey (key : Text) : Option Params :=
  if key = [] ∨ !key.all (·.toNat < 128) then none
  else
    let lower := key.map Char.toLower
    match strip "otpauth://".toList lower with
    | some rest => parseOtpauth rest
    | none =>
      match strip "steam://".toList lower with
      | some rest => some ⟨.steam, 5, defaultPeriod, base32 rest⟩
      | none => some ⟨.sha1, defaultDigits, defaultPeriod, base32 lower⟩

/-! ### Codes -/

/-- So many letters of the code, the lowest place first. -/
def steamCode : ℕ → ℕ → Text
  | 0, _ => []
  | digits + 1, full => steamLetters.getD (full % 26) '?' :: steamCode digits (full / 26)

/-- The 31 bits of a hash that its last byte points at. -/
def binaryOf (hash : Bytes) : ℕ :=
  let offset := (hash.getD (hash.length - 1) 0).toNat &&& 15
  ((hash.getD offset 0).toNat &&& 127) <<< 24 ||| (hash.getD (offset + 1) 0).toNat <<< 16 |||
    (hash.getD (offset + 2) 0).toNat <<< 8 ||| (hash.getD (offset + 3) 0).toNat

def hashOf (algorithm : Algorithm) (secret time : Bytes) : Bytes :=
  match algorithm with
  | .sha256 => hmac sha256 secret time
  | .sha1 | .steam => hmac sha1 secret time

def derive (params : Params) (counter : ℕ) : Text :=
  let binary := binaryOf (hashOf params.algorithm params.secret (bigEndian 8 counter))
  if params.algorithm = .steam then steamCode params.digits binary
  else (Nat.toDigits 10 (binary % 10 ^ params.digits)).leftpad params.digits '0'

/-- The code for a key at a second, and its period. -/
def generate (key : Text) (nowSecs : ℕ) : Option (Text × ℕ) :=
  (parseKey key).map fun params => (derive params (nowSecs / params.period), params.period)

end QsBitwarden.Vault.Totp
