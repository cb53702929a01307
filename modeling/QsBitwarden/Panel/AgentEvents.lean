import QsBitwarden.Lib.Js
import QsBitwarden.Lib.JsonSize

/-! Owns how the panel reads one line of the companion's output (`parseAgentEvent`,
`BitwardenModel.js`), with the errors and texts it may answer. `JSON.parse` is a
parameter. It does not own what a message makes the panel do. -/

namespace QsBitwarden.Panel

open Lib

def sshAgentControlVersion : ℕ := 2
def sshAgentMaxLineBytes : ℕ := 64 * 1024

def sshAgentEventTypes : List String :=
  ["ready", "unlock_required", "approval_required", "request_cancelled",
    "keys_loaded", "public_key", "locked", "load_failed", "grants_changed", "state_changed",
    "error"]

inductive AgentErrorCode
  | empty
  | malformed
  | lineTooLong
  | versionMismatch
  | unknownType
  | protocol
  | handshakeTimeout
  | exited
  | crashLoop
  | elsewhere
  deriving DecidableEq, Repr

/-- Every message the user can see is a fixed text chosen by a code; a code without one has
the text of `exited`. -/
def sshAgentErrorMessage : AgentErrorCode → String
  | .malformed => "The SSH agent helper sent something the panel could not read."
  | .lineTooLong => "The SSH agent helper sent an oversized message."
  | .versionMismatch => "The SSH agent helper does not match this version of the plugin."
  | .unknownType => "The SSH agent helper does not match this version of the plugin."
  | .protocol => "The SSH agent helper broke its side of the control protocol."
  | .handshakeTimeout => "The SSH agent helper did not finish starting up."
  | .crashLoop => "The SSH agent helper keeps failing to start, so it has been left off."
  | .elsewhere =>
    "Another process is already serving the SSH agent on this machine -- another " ++
      "Omarchy shell, most likely. This one is standing by and will take over when it stops."
  | .exited => "The SSH agent helper stopped unexpectedly."
  | .empty => "The SSH agent helper stopped unexpectedly."

/-- `text.length`: a character outside the basic plane takes two units. -/
def utf16Length (text : Text) : ℕ :=
  (text.map fun char => if char.toNat < 0x10000 then 1 else 2).sum

/-- A line already over the cap in units is not counted in bytes. -/
def utf8ByteLength (text : Text) : ℕ :=
  if sshAgentMaxLineBytes < utf16Length text then utf16Length text else Json.size text

def withoutLast (last : Char) (text : Text) : Text :=
  if text.getLast? = some last then text.dropLast else text

def messageType (message : Fields) : Option String := (message.get "type").bind Json.asStr

/-- A field that must be a text and not empty. -/
def hasText (message : Fields) (key : String) : Bool :=
  ((message.get key).bind Json.asStr).any (· ≠ "")

/-- The code of a refused line, and whether it closes the gate: only a blank line does not. -/
structure LineRefusal where
  code : AgentErrorCode
  fatal : Bool
  deriving DecidableEq, Repr

def parseAgentEvent (jsonParse : Text → Option Json) (line : Text) : Except LineRefusal Fields :=
  let text := withoutLast '\r' (withoutLast '\n' line)
  if text = [] then .error ⟨.empty, false⟩ else
  if utf8ByteLength text > sshAgentMaxLineBytes then .error ⟨.lineTooLong, true⟩ else
  match jsonParse text with
  | some (.object message) =>
    if !Json.isNumber (Fields.get message "v") sshAgentControlVersion then
      .error ⟨.versionMismatch, true⟩ else
    match messageType message with
    | none => .error ⟨.unknownType, true⟩
    | some type =>
      if type ∉ sshAgentEventTypes then .error ⟨.unknownType, true⟩ else
      if type = "ready" ∧
          !(hasText message "socketPath" && hasText message "fifoPath" &&
            hasText message "agentVersion") then
        .error ⟨.malformed, true⟩
      else .ok message
  | _ => .error ⟨.malformed, true⟩

end QsBitwarden.Panel
