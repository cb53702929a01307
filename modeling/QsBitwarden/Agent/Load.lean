import Mathlib.Algebra.Ring.Nat
import QsBitwarden.Agent.Protocol

/-! Owns the decoding of one key-load payload (`load.rs`): the load's nonce, the
base64 of a private key and the candidate built from the items. The JSON reader is a
parameter. It does not own when a load starts or settles. -/

namespace QsBitwarden.Agent

open Lib Option

inductive PayloadError
  | invalidNonce
  | closed
  | nonceMismatch
  | malformed
  | load (error : LoadError)
  deriving DecidableEq, Repr

/-- An item as JSON has it; `privateKeyB64` is still encoded. -/
structure EnvelopeItem where
  itemId : String
  name : String
  privateKeyB64 : Bytes
  publicKey : String
  fingerprint : String
  requiresReprompt : Bool
  deriving DecidableEq, Repr

structure Envelope where
  loadId : String
  items : List EnvelopeItem
  deriving DecidableEq, Repr

/-! ### Base64 -/

def sextet (byte : UInt8) : Option ℕ :=
  let code := byte.toNat
  if 65 ≤ code ∧ code ≤ 90 then some (code - 65)
  else if 97 ≤ code ∧ code ≤ 122 then some (code - 97 + 26)
  else if 48 ≤ code ∧ code ≤ 57 then some (code - 48 + 52)
  else if code = 43 then some 62
  else if code = 47 then some 63
  else none

/-- The value of a group's sextets, padding counting as zero bits. -/
def groupBits : List UInt8 → Option ℕ
  | [] => some 0
  | byte :: rest => do
      let value ← sextet byte
      let lower ← groupBits rest
      pure (value * 64 ^ rest.length + lower)

/-- One group of four characters; only the last may be padded, and the unused low bits of
its final sextet must be zero. -/
def decodeGroup (group : List UInt8) (last : Bool) : Option Bytes := do
  let padding := (group.reverse.takeWhile (· = 61)).length
  guard (padding ≤ 2 ∧ (padding = 0 ∨ last))
  let upper ← groupBits (group.take (4 - padding))
  let bits := upper * 64 ^ padding
  let bytes := [UInt8.ofNat (bits / 65536), UInt8.ofNat (bits / 256), UInt8.ofNat bits]
  guard ((bytes.drop (3 - padding)).all (· = 0))
  pure (bytes.take (3 - padding))

def decodeGroups : Bytes → Option Bytes
  | a :: b :: c :: d :: rest => do
      let decoded ← decodeGroup [a, b, c, d] rest.isEmpty
      let following ← decodeGroups rest
      pure (decoded ++ following)
  | [] => some []
  | _ => none

def decodeBase64 (encoded : Bytes) : Option Bytes :=
  if encoded = [] then none else decodeGroups encoded

/-! ### The load window -/

def isHexDigit (byte : UInt8) : Bool :=
  let code := byte.toNat
  (48 ≤ code ∧ code ≤ 57) ∨ (65 ≤ code ∧ code ≤ 70) ∨ (97 ≤ code ∧ code ≤ 102)

/-- `parse_nonce`: thirty-two hexadecimal digits. -/
def parseNonce (nonce : String) : Option Bytes :=
  let bytes := nonce.toUTF8.toList
  if bytes.length = 32 ∧ bytes.all isHexDigit then some bytes else none

/-- A single armed load nonce; every decode attempt consumes it. -/
structure LoadWindow where
  epoch : ℕ
  nonce : Option Bytes
  deriving DecidableEq, Repr

variable {ssh : SshKeyCrate}

def candidateItem (item : EnvelopeItem) (privateKeyPem : Bytes) : CandidateItem :=
  ⟨item.itemId, item.name, privateKeyPem, item.publicKey, item.fingerprint,
    item.requiresReprompt⟩

/-- The items of an envelope with their keys decoded; one bad key refuses the payload. -/
def candidateItems : List EnvelopeItem → Option (List CandidateItem)
  | [] => some []
  | item :: rest => do
      let pem ← decodeBase64 item.privateKeyB64
      let following ← candidateItems rest
      pure (candidateItem item pem :: following)

/-- The payload's load id and items, their keys decoded. -/
def readEnvelope (fromSlice : Bytes → Option Envelope) (bytes : Bytes) :
    Option (String × List CandidateItem) :=
  (fromSlice bytes).bind fun envelope =>
    (candidateItems envelope.items).map fun items => (envelope.loadId, items)

/-- The loop of `decode`, with the candidate as it is left; a hard limit ends it. -/
def addAll (load : CandidateLoad ssh) :
    List CandidateItem → Except LoadError Unit × CandidateLoad ssh
  | [] => (.ok (), load)
  | item :: rest =>
    match load.add item with
    | (.ok _, load) => addAll load rest
    | (.error error, load) => (.error error, load)

namespace LoadWindow

def new (epoch : ℕ) (nonce : String) : Except PayloadError LoadWindow :=
  match parseNonce nonce with
  | some nonce => .ok ⟨epoch, some nonce⟩
  | none => .error .invalidNonce

/-- The window once `decode` took its nonce. -/
def taken (window : LoadWindow) : LoadWindow := { window with nonce := none }

/-- The checks `decode` makes before `begin_load`. The JSON reader gives the payload's load id
and items, or nothing for another shape. -/
def examine (fromSlice : Bytes → Option Envelope) (window : LoadWindow) (bytes : Bytes) :
    Except PayloadError (List CandidateItem) :=
  match window.nonce with
  | none => .error .closed
  | some expected =>
    if bytes.length > maxFilteredBytes then .error (.load .filteredPayloadTooLarge) else
    match readEnvelope fromSlice bytes with
    | none => .error .malformed
    | some (loadId, items) =>
      if parseNonce loadId ≠ some expected then .error .nonceMismatch else .ok items

/-- `begin_load` and the loop over the items. -/
def build (window : LoadWindow) (filteredBytes : ℕ) (items : List CandidateItem)
    (store : KeyStore ssh) : Except PayloadError (CandidateLoad ssh) × KeyStore ssh :=
  match store.beginLoad window.epoch filteredBytes with
  | (.error error, store) => (.error (.load error), store)
  | (.ok candidate, store) =>
    match addAll candidate items with
    | (.error error, _) => (.error (.load error), store)
    | (.ok _, candidate) => (.ok candidate, store)

/-- Every call takes the nonce, whatever becomes of the payload. -/
def decode (fromSlice : Bytes → Option Envelope) (window : LoadWindow) (bytes : Bytes)
    (store : KeyStore ssh) :
    Except PayloadError (CandidateLoad ssh) × LoadWindow × KeyStore ssh :=
  match window.examine fromSlice bytes with
  | .error error => (.error error, window.taken, store)
  | .ok items =>
    let (result, store) := window.build bytes.length items store
    (result, window.taken, store)

end LoadWindow

/-- The payload is the one asked for under this load id. -/
def NamesLoad (fromSlice : Bytes → Option Envelope) (payload : Bytes) (loadId : String) : Prop :=
  ∃ envelope, fromSlice payload = some envelope ∧
    parseNonce envelope.loadId = parseNonce loadId

namespace LoadWindow

variable {fromSlice : Bytes → Option Envelope} {window : LoadWindow} {bytes : Bytes}
  {store : KeyStore ssh} {items : List CandidateItem}

theorem decode_of_refused {error : PayloadError}
    (refused : window.examine fromSlice bytes = .error error) (store : KeyStore ssh) :
    window.decode fromSlice bytes store = (.error error, window.taken, store) := by
  rw [decode, refused]

theorem decode_of_admitted
    (admitted : window.examine fromSlice bytes = .ok items) (store : KeyStore ssh) :
    window.decode fromSlice bytes store = ((window.build bytes.length items store).1,
      window.taken, (window.build bytes.length items store).2) := by
  rw [decode, admitted]

theorem read_of_admitted (admitted : window.examine fromSlice bytes = .ok items) :
    bytes.length ≤ maxFilteredBytes ∧ ∃ loadId expected, window.nonce = some expected ∧
      readEnvelope fromSlice bytes = some (loadId, items) ∧ parseNonce loadId = some expected := by
  unfold examine at admitted
  split at admitted
  · cases admitted
  · next expected armed =>
    split_ifs at admitted with large
    split at admitted
    · cases admitted
    · next loadId items read =>
      split_ifs at admitted with other
      cases admitted
      exact ⟨Nat.le_of_not_lt large, loadId, expected, armed, read, not_not.mp other⟩

/-- A decoded candidate belongs to a payload that names the window's own nonce. -/
theorem decode_eq_ok {candidate : CandidateLoad ssh}
    (decoded : (window.decode fromSlice bytes store).1 = .ok candidate) :
    ∃ envelope expected, window.nonce = some expected ∧ fromSlice bytes = some envelope ∧
      parseNonce envelope.loadId = some expected := by
  cases admitted : window.examine fromSlice bytes with
  | error error =>
    rw [decode_of_refused admitted] at decoded
    cases decoded
  | ok items =>
    obtain ⟨-, loadId, expected, armed, read, named⟩ := read_of_admitted admitted
    obtain ⟨envelope, parsed, pair⟩ := bind_eq_some_iff.mp read
    obtain ⟨_, -, same⟩ := map_eq_some_iff.mp pair
    rw [Prod.mk.injEq] at same
    exact ⟨envelope, expected, armed, parsed, same.1 ▸ named⟩

end LoadWindow

end QsBitwarden.Agent
