import QsBitwarden.Lib.Text
import QsBitwarden.Lib.Wire

/-! Owns the quick-unlock envelope (`unlock-key/src/lib.rs`): the master password sealed
under one data key, and that key wrapped for each way of unlocking. The cipher, the key
derivation and base64 are parameters, and random draws are arguments. It does not own the
envelope's JSON or the command line. -/

namespace QsBitwarden.UnlockKey

open Lib

/-! ### Limits -/

def version : ℕ := 1
def keyLen : ℕ := 32
def nonceLen : ℕ := 24
def maxPasswordBytes : ℕ := 4096
def maxFidoWraps : ℕ := 16
def maxTextChars : ℕ := 1024
def argon2MinMemoryKib : ℕ := 64 * 1024
def argon2MinIterations : ℕ := 3
def pinArgon2MinMemoryKib : ℕ := 256 * 1024
def pinArgon2MinIterations : ℕ := 4
def argon2MaxMemoryKib : ℕ := 4 * 1024 * 1024
def argon2MaxIterations : ℕ := 64
def argon2MaxParallelism : ℕ := 16
def argon2SaltMinChars : ℕ := 22
def argon2SaltMaxChars : ℕ := 64
def fidoSaltLen : ℕ := 32
def maxCredentialBytes : ℕ := 1024
def u32Max : ℕ := 4294967295

inductive Error
  | malformed
  | policy
  | accountMismatch
  | wrongKey
  | missing
  | internal
  deriving DecidableEq, Repr

abbrev Key := { bytes : Bytes // bytes.length = keyLen }
abbrev Nonce := { bytes : Bytes // bytes.length = nonceLen }

/-- The crates the envelope rests on: XChaCha20-Poly1305, HKDF-SHA256 and base64. -/
structure Crypto where
  encrypt : Key → Nonce → Bytes → Bytes → Option Bytes
  decrypt : Key → Nonce → Bytes → Bytes → Option Bytes
  expand : Key → Bytes → Option Key
  encode : Bytes → String
  decode : String → Option Bytes

def utf8 (text : String) : Bytes := text.toUTF8.toList

/-- What an operation needs, or the error it fails with. -/
def require (condition : Prop) [Decidable condition] (error : Error) : Except Error Unit :=
  if condition then .ok () else .error error

/-- `ok_or` and `map_err`. -/
def orElse {α : Type} (error : Error) : Option α → Except Error α
  | some value => .ok value
  | none => .error error

/-! ### Checks -/

/-- `char::is_control`: the category Cc. -/
def isControl (char : Char) : Bool := char.toNat ≤ 31 || (127 ≤ char.toNat && char.toNat ≤ 159)

def textOk (text : String) : Except Error Unit :=
  require (text.length ≤ maxTextChars ∧ ¬text.toList.any isControl) .policy

def passwordOk (password : Bytes) : Except Error Unit :=
  require (password ≠ [] ∧ password.length ≤ maxPasswordBytes) .policy

structure Account where
  id : String
  server : String
  deriving DecidableEq, Repr

def Account.validate (account : Account) : Except Error Unit := do
  require (account.id ≠ "") .policy
  textOk account.id
  textOk account.server

/-- Argon2id parameters, as the `argon2` command was run with them. -/
structure Argon2Params where
  alg : String
  salt : String
  m : ℕ
  t : ℕ
  p : ℕ
  deriving DecidableEq, Repr

namespace Argon2Params

def saltOk (params : Argon2Params) : Bool :=
  argon2SaltMinChars ≤ params.salt.length && params.salt.length ≤ argon2SaltMaxChars &&
    params.salt.toList.all fun char => isAsciiAlphanumeric char || char ∈ ['+', '/', '=']

def costOk (params : Argon2Params) : Bool :=
  (argon2MinMemoryKib ≤ params.m && params.m ≤ argon2MaxMemoryKib) &&
    (argon2MinIterations ≤ params.t && params.t ≤ argon2MaxIterations) &&
    (1 ≤ params.p && params.p ≤ argon2MaxParallelism)

def validate (params : Argon2Params) : Except Error Unit := do
  require (params.alg = "argon2id") .malformed
  require (params.saltOk ∧ params.costOk) .policy

def bind (params : Argon2Params) : List Bytes :=
  [utf8 params.alg, utf8 params.salt, utf8 (toString params.m), utf8 (toString params.t),
    utf8 (toString params.p)]

end Argon2Params

/-! ### The envelope -/

structure Sealed where
  n : String
  c : String
  deriving DecidableEq, Repr

structure PasswordWrap where
  kdf : Argon2Params
  n : String
  c : String
  deriving DecidableEq, Repr

structure FidoWrap where
  cred : String
  rp : String
  salt : String
  n : String
  c : String
  deriving DecidableEq, Repr

structure Wraps where
  master : PasswordWrap
  pin : Option PasswordWrap
  /-- The data key itself. -/
  fingerprint : Option String
  fido : List FidoWrap
  deriving DecidableEq, Repr

structure Envelope where
  v : ℕ
  account : Account
  stale : Bool
  ct : Sealed
  wraps : Wraps
  deriving DecidableEq, Repr

/-- How the data key is reached for one operation. -/
inductive Via
  | master (input : Key)
  | pin (input : Key)
  | fingerprint
  | fido (credential : String) (hmac : Key)
  deriving DecidableEq

inductive Method
  | pin
  | fingerprint
  | fido (credential : String)
  deriving DecidableEq, Repr

/-! ### Associated data -/

def domain : Bytes := utf8 "qs-bitwarden-unlock-v1"

/-- The domain and length-prefixed parts. -/
def aad (parts : List Bytes) : Bytes :=
  domain ++ parts.flatMap fun part => putU32 (min part.length u32Max) ++ part

def ctAad (account : Account) : Bytes := aad [utf8 "password", utf8 account.id, utf8 account.server]

def wrapAad (account : Account) (purpose : String) (kdf : Argon2Params) : Bytes :=
  aad ([utf8 "wrap", utf8 purpose, utf8 account.id, utf8 account.server] ++ kdf.bind)

def fidoAad (account : Account) (cred rp salt : String) : Bytes :=
  aad [utf8 "wrap", utf8 "fido", utf8 account.id, utf8 account.server, utf8 cred, utf8 rp,
    utf8 salt]

variable (crypto : Crypto)

/-! ### Sealing -/

/-- One key per purpose, so a key derived from a PIN never opens the master wrap. -/
def deriveKek (input : Key) (purpose : String) : Except Error Key :=
  orElse .internal (crypto.expand input (domain ++ utf8 " kek " ++ utf8 purpose))

/-- `seal`; a draw that failed is none. -/
def sealBytes (key : Key) (plaintext aad : Bytes) (nonce : Option Nonce) : Except Error Sealed := do
  let nonce ← orElse .internal nonce
  let c ← orElse .internal (crypto.encrypt key nonce plaintext aad)
  pure ⟨crypto.encode nonce.1, crypto.encode c⟩

/-- `open`, the opposite of `sealBytes`. -/
def openSealed (key : Key) (n c : String) (aad : Bytes) : Except Error Bytes := do
  let nonce ← orElse .malformed (crypto.decode n)
  let c ← orElse .malformed (crypto.decode c)
  if sized : nonce.length = nonceLen then
    orElse .wrongKey (crypto.decrypt key ⟨nonce, sized⟩ c aad)
  else .error .malformed

def keyFrom (bytes : Bytes) : Except Error Key :=
  if sized : bytes.length = keyLen then .ok ⟨bytes, sized⟩ else .error .malformed

def decodeKey (text : String) : Except Error Key := do
  keyFrom (← orElse .malformed (crypto.decode text))

def passwordWrap (account : Account) (purpose : String) (kdf : Argon2Params) (input dek : Key)
    (nonce : Option Nonce) : Except Error PasswordWrap := do
  let kek ← deriveKek crypto input purpose
  let sealed ← sealBytes crypto kek dek.1 (wrapAad account purpose kdf) nonce
  pure ⟨kdf, sealed.n, sealed.c⟩

def fidoFieldsOk (credential rp salt : String) : Except Error Unit := do
  let cred ← orElse .malformed (crypto.decode credential)
  require (cred ≠ [] ∧ cred.length ≤ maxCredentialBytes) .policy
  require (rp ≠ "") .policy
  textOk rp
  let salt ← orElse .malformed (crypto.decode salt)
  require (salt.length = fidoSaltLen) .policy

namespace Envelope

/-! ### Operations -/

/-- A new envelope: a fresh data key, the password sealed under it, the master wrap only. -/
def create (account : Account) (password : Bytes) (master : Argon2Params) (masterKey : Key)
    (dek : Option Key) (ctNonce wrapNonce : Option Nonce) : Except Error Envelope := do
  account.validate
  master.validate
  passwordOk password
  let dek ← orElse .internal dek
  let ct ← sealBytes crypto dek password (ctAad account) ctNonce
  let wrap ← passwordWrap crypto account "master" master masterKey dek wrapNonce
  pure ⟨version, account, false, ct, ⟨wrap, none, none, []⟩⟩

variable (envelope : Envelope)

def dek : Via → Except Error Key
  | .master input => do
      let wrap := envelope.wraps.master
      let kek ← deriveKek crypto input "master"
      keyFrom (← openSealed crypto kek wrap.n wrap.c (wrapAad envelope.account "master" wrap.kdf))
  | .pin input => do
      let wrap ← orElse .missing envelope.wraps.pin
      let kek ← deriveKek crypto input "pin"
      keyFrom (← openSealed crypto kek wrap.n wrap.c (wrapAad envelope.account "pin" wrap.kdf))
  | .fingerprint => do
      decodeKey crypto (← orElse .missing envelope.wraps.fingerprint)
  | .fido credential hmac => do
      let wrap ← orElse .missing (envelope.wraps.fido.find? (·.cred = credential))
      let kek ← deriveKek crypto hmac "fido"
      keyFrom (← openSealed crypto kek wrap.n wrap.c
        (fidoAad envelope.account wrap.cred wrap.rp wrap.salt))

/-- The master password, through one method. -/
def openVia (via : Via) : Except Error Bytes := do
  let dek ← envelope.dek crypto via
  openSealed crypto dek envelope.ct.n envelope.ct.c (ctAad envelope.account)

/-- The end of an operation whose only assignment is its last step. -/
def assign : Except Error Envelope → Except Error Unit × Envelope
  | .ok changed => (.ok (), changed)
  | .error error => (.error error, envelope)

def withPin (pin : Option PasswordWrap) : Envelope :=
  { envelope with wraps := { envelope.wraps with pin := pin } }

def withFingerprint (fingerprint : Option String) : Envelope :=
  { envelope with wraps := { envelope.wraps with fingerprint := fingerprint } }

def withFido (fido : List FidoWrap) : Envelope :=
  { envelope with wraps := { envelope.wraps with fido := fido } }

def addPin (auth : Via) (params : Argon2Params) (pinKey : Key)
    (nonce : Option Nonce) : Except Error Unit × Envelope :=
  envelope.assign do
    params.validate
    require (pinArgon2MinMemoryKib ≤ params.m ∧ pinArgon2MinIterations ≤ params.t) .policy
    let dek ← envelope.dek crypto auth
    let wrap ← passwordWrap crypto envelope.account "pin" params pinKey dek nonce
    pure (envelope.withPin (some wrap))

def addFingerprint (auth : Via) : Except Error Unit × Envelope :=
  envelope.assign do
    let dek ← envelope.dek crypto auth
    pure (envelope.withFingerprint (some (crypto.encode dek.1)))

/-- The list with a wrap in the place of the one of the same credential, or at its end. -/
def placeFido (fido : List FidoWrap) (wrap : FidoWrap) : List FidoWrap :=
  match fido.findIdx? (·.cred = wrap.cred) with
  | some index => fido.set index wrap
  | none => fido ++ [wrap]

def addFido (auth : Via) (credential rp salt : String) (hmac : Key)
    (nonce : Option Nonce) : Except Error Unit × Envelope :=
  envelope.assign do
    fidoFieldsOk crypto credential rp salt
    let dek ← envelope.dek crypto auth
    require (¬((envelope.wraps.fido.findIdx? (·.cred = credential)).isNone ∧
      maxFidoWraps ≤ envelope.wraps.fido.length)) .policy
    let kek ← deriveKek crypto hmac "fido"
    let sealed ← sealBytes crypto kek dek.1 (fidoAad envelope.account credential rp salt) nonce
    pure (envelope.withFido
      (placeFido envelope.wraps.fido ⟨credential, rp, salt, sealed.n, sealed.c⟩))

/-- Disable one method; the master wrap cannot be removed. -/
def remove : Method → Except Error Unit × Envelope
  | .pin => envelope.assign do
      let _ ← orElse .missing envelope.wraps.pin
      pure (envelope.withPin none)
  | .fingerprint => envelope.assign do
      let _ ← orElse .missing envelope.wraps.fingerprint
      pure (envelope.withFingerprint none)
  | .fido credential => envelope.assign do
      let index ← orElse .missing (envelope.wraps.fido.findIdx? (·.cred = credential))
      pure (envelope.withFido (envelope.wraps.fido.eraseIdx index))

def markStale : Envelope := { envelope with stale := true }

/-- The password under the unchanged data key: the first assignment of `rotate`. -/
def reseal (auth : Via) (password : Bytes) (master : Argon2Params)
    (nonce : Option Nonce) : Except Error (Key × Envelope) := do
  passwordOk password
  master.validate
  let dek ← envelope.dek crypto auth
  let ct ← sealBytes crypto dek password (ctAad envelope.account) nonce
  pure (dek, { envelope with ct := ct })

/-- Re-seal for a new master password. The new ciphertext is in place before the new
master wrap is made. -/
def rotate (auth : Via) (password : Bytes) (master : Argon2Params)
    (masterKey : Key) (ctNonce wrapNonce : Option Nonce) : Except Error Unit × Envelope :=
  match envelope.reseal crypto auth password master ctNonce with
  | .error error => (.error error, envelope)
  | .ok (dek, envelope) => envelope.assign do
      let wrap ← passwordWrap crypto envelope.account "master" master masterKey dek wrapNonce
      pure { envelope with stale := false, wraps := { envelope.wraps with master := wrap } }

end Envelope

/-! ### Sequences of operations -/

/-- The operations on an envelope there is. -/
inductive Change
  | addPin (auth : Via) (params : Argon2Params) (pinKey : Key) (nonce : Option Nonce)
  | addFingerprint (auth : Via)
  | addFido (auth : Via) (credential rp salt : String) (hmac : Key) (nonce : Option Nonce)
  | remove (method : Method)
  | markStale
  | rotate (auth : Via) (password : Bytes) (master : Argon2Params) (masterKey : Key)
      (ctNonce wrapNonce : Option Nonce)

def Envelope.change (envelope : Envelope) : Change → Except Error Unit × Envelope
  | .addPin auth params pinKey nonce => envelope.addPin crypto auth params pinKey nonce
  | .addFingerprint auth => envelope.addFingerprint crypto auth
  | .addFido auth credential rp salt hmac nonce =>
    envelope.addFido crypto auth credential rp salt hmac nonce
  | .remove method => envelope.remove method
  | .markStale => (.ok (), envelope.markStale)
  | .rotate auth password master masterKey ctNonce wrapNonce =>
    envelope.rotate crypto auth password master masterKey ctNonce wrapNonce

end QsBitwarden.UnlockKey
