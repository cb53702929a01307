import QsBitwarden.Agent.KeyStore

/-! Owns the SSH-agent wire protocol of the companion (`protocol.rs`): request
decoding, the test for a refused session bind, the classification of signed data
and the response frames. Fingerprints come from a crate and are a parameter. It
does not own connections or authorization. -/

namespace QsBitwarden.Agent

open Lib

def maxFrameLen : ℕ := 256 * 1024
def maxSignDetail : ℕ := 256
def maxSessionId : ℕ := 256
def maxHostKey : ℕ := 16 * 1024

def failureByte : UInt8 := 5
def successByte : UInt8 := 6
def requestIdentitiesByte : UInt8 := 11
def identitiesAnswerByte : UInt8 := 12
def signRequestByte : UInt8 := 13
def signResponseByte : UInt8 := 14
def extensionByte : UInt8 := 27
def userauthRequestByte : UInt8 := 50

/-- ASCII text as bytes. -/
def ascii (text : String) : Bytes := text.toList.map fun c => UInt8.ofNat c.toNat

def sessionBindName : Bytes := ascii "session-bind@openssh.com"

/-! ### Requests -/

structure SessionBinding where
  sessionId : Bytes
  hostKey : String
  deriving DecidableEq, Repr

inductive AgentRequest
  | identities
  | sign (publicBlob message : Bytes) (flags : ℕ)
  | sessionBind (forwarding : Bool) (binding : SessionBinding)
  deriving DecidableEq, Repr

def AgentRequest.isSign : AgentRequest → Bool
  | sign _ _ _ => true
  | _ => false

inductive SignKind
  | sshSig (namespaceName : String)
  | userAuth (user host : String)
  | other
  deriving DecidableEq, Repr

namespace SignKind

def operation : SignKind → String
  | sshSig _ => "sshsig"
  | userAuth _ _ => "ssh-auth"
  | other => "ssh-sign"

def detail : SignKind → String
  | sshSig namespaceName => namespaceName
  | userAuth user _ => user
  | other => ""

def host : SignKind → String
  | userAuth _ host => host
  | _ => ""

end SignKind

/-! ### Text -/

def isInvisible (c : Char) : Bool :=
  let code := c.toNat
  code ≤ 0x1f ∨ (0x7f ≤ code ∧ code ≤ 0x9f) ∨ (0x200b ≤ code ∧ code ≤ 0x200f) ∨
    (0x2028 ≤ code ∧ code ≤ 0x202e) ∨ (0x2066 ≤ code ∧ code ≤ 0x2069) ∨ code = 0xfeff

/-- `\uXXXX`, at least four hexadecimal digits. -/
def escaped (c : Char) : List Char :=
  let digits := Nat.toDigits 16 c.toNat
  '\\' :: 'u' :: (List.replicate (4 - digits.length) '0' ++ digits)

def visibleText (text : String) : String :=
  String.ofList (text.toList.flatMap fun c => if isInvisible c then escaped c else [c])

def displayDetail (bytes : Bytes) : Option String :=
  if bytes = [] ∨ bytes.length > maxSignDetail then none else
  match String.fromUTF8? ⟨bytes.toArray⟩ with
  | some text => if text.toList.any isInvisible then none else some text
  | none => none

/-! ### Classification of signed data -/

section Classification

-- `host_key_fingerprint`: SHA-256 over the raw blob, as `ssh-keygen -l` prints it.
variable (hostKeyFingerprint : Bytes → String)

def sshsigNamespace (message : Bytes) : Option String := do
  guard (ascii "SSHSIG" <+: message)
  let (namespaceName, fields) ← readString (message.drop (ascii "SSHSIG").length)
  let (_, fields) ← readString fields
  let (hash, fields) ← readString fields
  let (_, fields) ← readString fields
  guard (fields = [] ∧ (hash = ascii "sha256" ∨ hash = ascii "sha512"))
  displayDetail namespaceName

/-- Whether a login method is the host-bound one; other methods are not recognised. -/
def hostboundMethod (method : Bytes) : Option Bool :=
  if method = ascii "publickey" then some false
  else if method = ascii "publickey-hostbound-v00@openssh.com" then some true else none

/-- The server named by the host-bound method, and what follows it. -/
def signedHost (hostbound : Bool) (fields : Bytes) : Option (Option String × Bytes) :=
  if hostbound then do
    let (hostKey, fields) ← readString fields
    guard (hostKey ≠ [] ∧ hostKey.length ≤ maxHostKey)
    pure (some (hostKeyFingerprint hostKey), fields)
  else some (none, fields)

/-- The server a login goes to; a bind and the signed data that disagree name none. -/
def agreedHost : Option String → Option String → Option String
  | some bound, some signed => if bound ≠ signed then none else some bound
  | bound, signed => some ((bound.or signed).getD "")

def userauth (publicBlob message : Bytes) (binds : List SessionBinding) : Option SignKind := do
  let (sessionId, fields) ← readString message
  let (kind, fields) ← readU8 fields
  guard (kind = userauthRequestByte)
  let (user, fields) ← readString fields
  let (_, fields) ← readString fields
  let (method, fields) ← readString fields
  let hostbound ← hostboundMethod method
  let (hasSignature, fields) ← readU8 fields
  guard (hasSignature = 1)
  let (_, fields) ← readString fields
  let (key, fields) ← readString fields
  let (signed, fields) ← signedHost hostKeyFingerprint hostbound fields
  guard (fields = [] ∧ key = publicBlob)
  let bound := (binds.reverse.find? fun bind => bind.sessionId = sessionId).map (·.hostKey)
  let host ← agreedHost bound signed
  let user ← displayDetail user
  pure (.userAuth user host)

def classifySign (publicBlob message : Bytes) (binds : List SessionBinding) : SignKind :=
  match sshsigNamespace message with
  | some namespaceName => .sshSig namespaceName
  | none => (userauth hostKeyFingerprint publicBlob message binds).getD .other

/-! ### Decoding -/

def forwardingFlag (flag : UInt8) : Option Bool :=
  if flag = 0 then some false else if flag = 1 then some true else none

def decodeSessionBind (fields : Bytes) : Option AgentRequest := do
  let (name, fields) ← readString fields
  guard (name = sessionBindName)
  let (hostKey, fields) ← readString fields
  let (sessionId, fields) ← readString fields
  let (_, fields) ← readString fields
  let (flag, fields) ← readU8 fields
  let forwarding ← forwardingFlag flag
  guard (fields = [] ∧ hostKey ≠ [] ∧ hostKey.length ≤ maxHostKey ∧ sessionId ≠ [] ∧
    sessionId.length ≤ maxSessionId)
  pure (.sessionBind forwarding ⟨sessionId, hostKeyFingerprint hostKey⟩)

def decodeSignRequest (fields : Bytes) : Option AgentRequest := do
  let (keyBlob, fields) ← readString fields
  let (message, fields) ← readString fields
  let (flags, fields) ← readU32 fields
  guard (fields = [])
  pure (.sign keyBlob message flags)

def decodeRequest (frame : Bytes) : Option AgentRequest :=
  match readU32 frame with
  | none => none
  | some (declared, payload) =>
    if declared = 0 ∨ declared > maxFrameLen ∨ frame.length ≠ declared + 4 then none else
    match payload with
    | [] => none
    | kind :: fields =>
      if kind = requestIdentitiesByte ∧ payload.length = 1 then some .identities
      else if kind = signRequestByte then decodeSignRequest fields
      else if kind = extensionByte then decodeSessionBind hostKeyFingerprint fields
      else none

/-- Whether a refused frame could have been a session bind: an extension request that
names it, or whose name cannot be read. -/
def mayBeSessionBind (frame : Bytes) : Bool :=
  match frame.drop 4 with
  | [] => false
  | kind :: fields =>
    if kind = extensionByte then
      match readString fields with
      | some (name, _) => name = sessionBindName
      | none => true
    else false

/-- An extension request that names `session-bind@openssh.com`. -/
def NamesSessionBind (frame : Bytes) : Prop :=
  ∃ fields rest, frame.drop 4 = extensionByte :: fields ∧
    readString fields = some (sessionBindName, rest)

/-- An extension request whose name cannot be read. -/
def UnreadableExtension (frame : Bytes) : Prop :=
  ∃ fields, frame.drop 4 = extensionByte :: fields ∧ readString fields = none

theorem mayBeSessionBind_iff {frame : Bytes} :
    mayBeSessionBind frame = true ↔ NamesSessionBind frame ∨ UnreadableExtension frame := by
  unfold mayBeSessionBind NamesSessionBind UnreadableExtension
  cases frame.drop 4 with
  | nil => simp
  | cons kind fields =>
    by_cases extension : kind = extensionByte
    · cases name : readString fields with
      | none => simp [extension, name]
      | some read => simp [extension, name, Prod.ext_iff]
    · simp [extension]

end Classification

/-! ### Responses -/

def response (payload : Bytes) : Bytes :=
  if payload.length > maxFrameLen then [0, 0, 0, 1, failureByte]
  else putU32 payload.length ++ payload

def failureResponse : Bytes := response [failureByte]

def successResponse : Bytes := response [successByte]

def signaturePayload {ssh : SshKeyCrate} (signature : ssh.Signature) : Option Bytes := do
  let bytes ← ssh.signatureBytes signature
  let payload := signResponseByte :: putString bytes
  guard (payload.length ≤ maxFrameLen)
  pure payload

def signatureResponse {ssh : SshKeyCrate} (signature : ssh.Signature) : Option Bytes :=
  (signaturePayload signature).map response

/-- The identities of a listing after a payload already written, or `none` once the
frame limit is passed. -/
def identitiesPayload : Bytes → List (Bytes × String) → Option Bytes
  | payload, [] => some payload
  | payload, (blob, comment) :: rest =>
    let payload := payload ++ putString blob ++ putString comment.toUTF8.toList
    if payload.length > maxFrameLen then none else identitiesPayload payload rest

def identitiesResponse (identities : List (Bytes × String)) : Bytes :=
  match identitiesPayload (identitiesAnswerByte :: putU32 identities.length) identities with
  | some payload => response payload
  | none => failureResponse

/-- The message type of a response frame says it carries a signature. -/
def carriesSignature (frame : Bytes) : Bool := frame[4]? = some signResponseByte

theorem carriesSignature_response {payload : Bytes} :
    carriesSignature (response payload) = true → payload.head? = some signResponseByte := by
  unfold carriesSignature response
  split
  · simp [failureByte, signResponseByte]
  · cases payload <;> simp [putU32]

@[simp] theorem carriesSignature_failureResponse : carriesSignature failureResponse = false := by
  decide

theorem identitiesPayload_head {start payload : Bytes} {identities : List (Bytes × String)}
    (nonempty : start ≠ []) (written : identitiesPayload start identities = some payload) :
    payload.head? = start.head? := by
  induction identities generalizing start with
  | nil => simp_all [identitiesPayload]
  | cons identity rest ih =>
    obtain ⟨blob, comment⟩ := identity
    simp only [identitiesPayload] at written
    split at written
    · cases written
    · rw [ih (by simp [nonempty]) written]
      cases start with
      | nil => exact absurd rfl nonempty
      | cons byte bytes => rfl

@[simp] theorem carriesSignature_identitiesResponse (identities : List (Bytes × String)) :
    carriesSignature (identitiesResponse identities) = false := by
  unfold identitiesResponse
  split
  · next payload written =>
    have head := identitiesPayload_head (by simp) written
    by_contra carries
    have signed := carriesSignature_response (by simpa using carries)
    rw [head] at signed
    simp [identitiesAnswerByte, signResponseByte] at signed
  · exact carriesSignature_failureResponse

end QsBitwarden.Agent
