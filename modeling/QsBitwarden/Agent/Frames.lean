import QsBitwarden.Agent.Protocol
import Mathlib.Data.Option.Basic

/-! Owns the exactness of request decoding: the requests of the agent protocol as a
client writes them, their frames, and that the decoder accepts precisely those frames.
It does not own what a decoded request is answered with. -/

namespace QsBitwarden.Agent

open Lib List Option

/-! ### Requests as a client writes them -/

/-- An allowlisted request with every field of its message. -/
inductive WireRequest
  | identities
  | sign (keyBlob message : Bytes) (flags : ℕ)
  | sessionBind (hostKey sessionId signature : Bytes) (forwarding : Bool)
  deriving DecidableEq, Repr

namespace WireRequest

def forwardingByte : Bool → UInt8
  | false => 0
  | true => 1

/-- The fields after the message type. -/
def fields : WireRequest → Bytes
  | identities => []
  | sign keyBlob message flags => putString keyBlob ++ (putString message ++ putU32 flags)
  | sessionBind hostKey sessionId signature forwarding =>
    putString sessionBindName ++ (putString hostKey ++ (putString sessionId ++
      (putString signature ++ [forwardingByte forwarding])))

def kind : WireRequest → UInt8
  | identities => requestIdentitiesByte
  | sign _ _ _ => signRequestByte
  | sessionBind _ _ _ _ => extensionByte

def payload (wire : WireRequest) : Bytes := wire.kind :: wire.fields

def frame (wire : WireRequest) : Bytes := putU32 wire.payload.length ++ wire.payload

/-- The limits on single fields: flags are 32 bits wide, and a bind names a server and a
session of bounded length. -/
def FieldsInLimits : WireRequest → Prop
  | identities => True
  | sign _ _ flags => flags < 4294967296
  | sessionBind hostKey sessionId _ _ =>
    hostKey ≠ [] ∧ hostKey.length ≤ maxHostKey ∧ sessionId ≠ [] ∧
      sessionId.length ≤ maxSessionId

structure WellFormed (wire : WireRequest) : Prop where
  limits : wire.FieldsInLimits
  fits : wire.payload.length ≤ maxFrameLen

instance (wire : WireRequest) : Decidable wire.FieldsInLimits := by
  cases wire <;> unfold FieldsInLimits <;> infer_instance

/-- What the companion keeps of a request: a bind's host key as its fingerprint, and
nothing of its signature. -/
def request (hostKeyFingerprint : Bytes → String) : WireRequest → AgentRequest
  | identities => .identities
  | sign keyBlob message flags => .sign keyBlob message flags
  | sessionBind hostKey sessionId _ forwarding =>
    .sessionBind forwarding ⟨sessionId, hostKeyFingerprint hostKey⟩

end WireRequest

/-! ### The two field decoders -/

theorem forwardingFlag_eq_some_iff {flag : UInt8} {forwarding : Bool} :
    forwardingFlag flag = some forwarding ↔ flag = WireRequest.forwardingByte forwarding := by
  unfold forwardingFlag
  by_cases zero : flag = 0
  · subst zero
    cases forwarding <;> decide
  · by_cases one : flag = 1
    · subst one
      cases forwarding <;> decide
    · rw [if_neg zero, if_neg one]
      cases forwarding <;> simp [WireRequest.forwardingByte, zero, one]

theorem sessionBindName_small : sessionBindName.length < 4294967296 := by decide

variable {request : AgentRequest}

theorem decodeSignRequest_iff {fields : Bytes} :
    decodeSignRequest fields = some request ↔
      ∃ keyBlob message flags, keyBlob.length < 4294967296 ∧ message.length < 4294967296 ∧
        flags < 4294967296 ∧ fields = (WireRequest.sign keyBlob message flags).fields ∧
        request = .sign keyBlob message flags := by
  unfold decodeSignRequest WireRequest.fields
  constructor
  · intro decoded
    simp only [readString_bind_iff] at decoded
    obtain ⟨keyBlob, _, keySmall, rfl, message, _, messageSmall, rfl, decoded⟩ := decoded
    obtain ⟨⟨flags, rest⟩, readFlags, decoded⟩ := bind_eq_some_iff.mp decoded
    obtain ⟨rfl, returned⟩ := guard_bind_iff.mp decoded
    obtain ⟨flagsSmall, rfl⟩ := readU32_eq_some_iff.mp readFlags
    refine ⟨keyBlob, message, flags, keySmall, messageSmall, flagsSmall, ?_, ?_⟩
    · rw [append_nil]
    · exact (Option.some.inj returned).symm
  · rintro ⟨keyBlob, message, flags, keySmall, messageSmall, flagsSmall, rfl, rfl⟩
    have readFlags : readU32 (putU32 flags) = some (flags, []) :=
      readU32_eq_some_iff.mpr ⟨flagsSmall, (append_nil _).symm⟩
    refine readString_bind_iff.mpr ⟨keyBlob, _, keySmall, rfl, ?_⟩
    refine readString_bind_iff.mpr ⟨message, _, messageSmall, rfl, ?_⟩
    exact bind_eq_some_iff.mpr ⟨_, readFlags, rfl⟩

section Fingerprint

variable (hostKeyFingerprint : Bytes → String)

theorem exists_fields_of_decodeSessionBind {fields : Bytes}
    (decoded : decodeSessionBind hostKeyFingerprint fields = some request) :
    ∃ hostKey sessionId signature forwarding,
      (WireRequest.sessionBind hostKey sessionId signature forwarding).FieldsInLimits ∧
      fields = (WireRequest.sessionBind hostKey sessionId signature forwarding).fields ∧
      request = .sessionBind forwarding ⟨sessionId, hostKeyFingerprint hostKey⟩ := by
  unfold decodeSessionBind at decoded
  simp only [readString_bind_iff, readU8_bind_iff, guard_bind_iff] at decoded
  obtain ⟨_, _, -, rfl, rfl, hostKey, _, -, rfl, sessionId, _, -, rfl, signature, _, -, rfl,
    flag, _, rfl, decoded⟩ := decoded
  obtain ⟨forwarding, flagged, decoded⟩ := bind_eq_some_iff.mp decoded
  obtain rfl := forwardingFlag_eq_some_iff.mp flagged
  obtain ⟨⟨rfl, limits⟩, returned⟩ := guard_bind_iff.mp decoded
  exact ⟨hostKey, sessionId, signature, forwarding, limits, rfl,
    (Option.some.inj returned).symm⟩

theorem decodeSessionBind_fields {hostKey sessionId signature : Bytes} {forwarding : Bool}
    (limits : (WireRequest.sessionBind hostKey sessionId signature forwarding).FieldsInLimits)
    (signatureSmall : signature.length < 4294967296) :
    decodeSessionBind hostKeyFingerprint
        (WireRequest.sessionBind hostKey sessionId signature forwarding).fields =
      some (.sessionBind forwarding ⟨sessionId, hostKeyFingerprint hostKey⟩) := by
  unfold decodeSessionBind WireRequest.fields
  unfold WireRequest.FieldsInLimits at limits
  have hostKeySmall : hostKey.length < 4294967296 := by
    have := limits.2.1
    unfold maxHostKey at this
    omega
  have sessionIdSmall : sessionId.length < 4294967296 := by
    have := limits.2.2.2
    unfold maxSessionId at this
    omega
  refine readString_bind_iff.mpr ⟨_, _, sessionBindName_small, rfl, ?_⟩
  refine guard_bind_iff.mpr ⟨rfl, ?_⟩
  refine readString_bind_iff.mpr ⟨hostKey, _, hostKeySmall, rfl, ?_⟩
  refine readString_bind_iff.mpr ⟨sessionId, _, sessionIdSmall, rfl, ?_⟩
  refine readString_bind_iff.mpr ⟨signature, _, signatureSmall, rfl, ?_⟩
  refine readU8_bind_iff.mpr ⟨_, _, rfl, ?_⟩
  refine bind_eq_some_iff.mpr ⟨forwarding, forwardingFlag_eq_some_iff.mpr rfl, ?_⟩
  exact guard_bind_iff.mpr ⟨⟨rfl, limits⟩, rfl⟩

/-! ### Frames -/

/-- A frame splits into a header that counts its payload, a message type and fields. -/
theorem decodeRequest_iff_payload {frame : Bytes} :
    decodeRequest hostKeyFingerprint frame = some request ↔
      ∃ kind fields, frame = putU32 (kind :: fields).length ++ kind :: fields ∧
        (kind :: fields).length ≤ maxFrameLen ∧
        (if kind = requestIdentitiesByte ∧ (kind :: fields).length = 1 then some .identities
          else if kind = signRequestByte then decodeSignRequest fields
          else if kind = extensionByte then decodeSessionBind hostKeyFingerprint fields
          else none) = some request := by
  unfold decodeRequest
  constructor
  · intro decoded
    cases header : readU32 frame with
    | none =>
      rw [header] at decoded
      cases decoded
    | some found =>
      obtain ⟨declared, payload⟩ := found
      rw [header] at decoded
      dsimp only at decoded
      split_ifs at decoded with refused
      obtain ⟨-, rfl⟩ := readU32_eq_some_iff.mp header
      rw [length_append, putU32_length] at refused
      have counted : declared = payload.length := by omega
      cases payload with
      | nil => cases decoded
      | cons kind fields =>
        subst counted
        exact ⟨kind, fields, rfl, by omega, decoded⟩
  · rintro ⟨kind, fields, rfl, fits, decoded⟩
    have small : (kind :: fields).length < 4294967296 := by
      unfold maxFrameLen at fits
      omega
    have nonempty : (kind :: fields).length ≠ 0 := by simp
    rw [readU32_eq_some_iff.mpr ⟨small, rfl⟩]
    dsimp only
    rw [if_neg, decoded]
    rw [length_append, putU32_length]
    omega

/-- No string of a message that fits a frame needs more than its 32-bit length. -/
theorem WireRequest.WellFormed.fields_small {wire : WireRequest} (formed : wire.WellFormed) :
    wire.fields.length < 4294967296 := by
  have fits := formed.fits
  rw [WireRequest.payload, length_cons] at fits
  unfold maxFrameLen at fits
  omega

theorem decodeRequest_frame {wire : WireRequest} (formed : wire.WellFormed) :
    decodeRequest hostKeyFingerprint wire.frame = some (wire.request hostKeyFingerprint) := by
  apply (decodeRequest_iff_payload _).mpr
  refine ⟨wire.kind, wire.fields, rfl, formed.fits, ?_⟩
  have small := formed.fields_small
  cases wire with
  | identities => rfl
  | sign keyBlob message flags =>
    have other : signRequestByte ≠ requestIdentitiesByte := by decide
    rw [WireRequest.kind, if_neg (fun identities => other identities.1), if_pos rfl]
    apply decodeSignRequest_iff.mpr
    rw [WireRequest.fields, length_append, length_append, putString_length,
      putString_length] at small
    exact ⟨keyBlob, message, flags, by omega, by omega, formed.limits, rfl, rfl⟩
  | sessionBind hostKey sessionId signature forwarding =>
    have other : extensionByte ≠ requestIdentitiesByte := by decide
    have unsigned : extensionByte ≠ signRequestByte := by decide
    rw [WireRequest.kind, if_neg (fun identities => other identities.1), if_neg unsigned,
      if_pos rfl]
    rw [WireRequest.fields] at small
    simp only [length_append, putString_length] at small
    exact decodeSessionBind_fields _ formed.limits (by omega)

theorem exists_frame_of_decodeRequest {frame : Bytes}
    (decoded : decodeRequest hostKeyFingerprint frame = some request) :
    ∃ wire : WireRequest, wire.WellFormed ∧ frame = wire.frame ∧
      request = wire.request hostKeyFingerprint := by
  obtain ⟨kind, fields, rfl, fits, dispatched⟩ := (decodeRequest_iff_payload _).mp decoded
  split_ifs at dispatched with identities signs extension
  · obtain ⟨rfl, single⟩ := identities
    have ended : fields = [] := by simpa using single
    subst ended
    exact ⟨.identities, ⟨trivial, fits⟩, rfl, (Option.some.inj dispatched).symm⟩
  · obtain ⟨keyBlob, message, flags, -, -, flagsSmall, rfl, rfl⟩ :=
      decodeSignRequest_iff.mp dispatched
    rw [signs] at fits ⊢
    exact ⟨.sign keyBlob message flags, ⟨flagsSmall, fits⟩, rfl, rfl⟩
  · obtain ⟨hostKey, sessionId, signature, forwarding, limits, rfl, rfl⟩ :=
      exists_fields_of_decodeSessionBind _ dispatched
    rw [extension] at fits ⊢
    exact ⟨.sessionBind hostKey sessionId signature forwarding, ⟨limits, fits⟩, rfl, rfl⟩

theorem WireRequest.drop_frame (wire : WireRequest) : wire.frame.drop 4 = wire.payload :=
  drop_left' (putU32_length _)

/-- The accepting decoder agrees with the test for refused binds: what it accepts is a
bind exactly when the test says it could have been one. -/
theorem mayBeSessionBind_of_decodeRequest {frame : Bytes}
    (decoded : decodeRequest hostKeyFingerprint frame = some request) :
    mayBeSessionBind frame = true ↔
      ∃ forwarding binding, request = .sessionBind forwarding binding := by
  obtain ⟨wire, -, rfl, rfl⟩ := exists_frame_of_decodeRequest _ decoded
  rw [mayBeSessionBind, wire.drop_frame]
  cases wire with
  | identities | sign => simp [WireRequest.payload, WireRequest.kind, WireRequest.request,
      requestIdentitiesByte, signRequestByte, extensionByte]
  | sessionBind =>
    simp [WireRequest.payload, WireRequest.kind, WireRequest.fields, WireRequest.request,
      readString_putString sessionBindName_small]

/-! ### Distinct requests -/

theorem WireRequest.forwardingByte_inj {left right : Bool}
    (same : WireRequest.forwardingByte left = WireRequest.forwardingByte right) :
    left = right := by
  revert same
  cases left <;> cases right <;> decide

theorem WireRequest.payload_inj {first second : WireRequest} (firstFormed : first.WellFormed)
    (secondFormed : second.WellFormed) (same : first.payload = second.payload) :
    first = second := by
  have firstSmall := firstFormed.fields_small
  have secondSmall := secondFormed.fields_small
  obtain ⟨sameKind, sameFields⟩ := List.cons.inj same
  cases first <;> cases second <;> try simp [WireRequest.kind, requestIdentitiesByte,
    signRequestByte, extensionByte] at sameKind
  case identities.identities => rfl
  case sign.sign keyBlob message flags keyBlob' message' flags' =>
    simp only [WireRequest.fields, length_append, putString_length]
      at firstSmall secondSmall sameFields
    obtain ⟨sameKey, rest⟩ := putString_append_inj (by omega) (by omega) sameFields
    obtain ⟨sameMessage, rest⟩ := putString_append_inj (by omega) (by omega) rest
    rw [sameKey, sameMessage, putU32_inj firstFormed.limits secondFormed.limits rest]
  case sessionBind.sessionBind =>
    simp only [WireRequest.fields, length_append, putString_length]
      at firstSmall secondSmall sameFields
    have rest := append_cancel_left sameFields
    obtain ⟨sameHost, rest⟩ := putString_append_inj (by omega) (by omega) rest
    obtain ⟨sameSession, rest⟩ := putString_append_inj (by omega) (by omega) rest
    obtain ⟨sameSignature, rest⟩ := putString_append_inj (by omega) (by omega) rest
    rw [sameHost, sameSession, sameSignature,
      WireRequest.forwardingByte_inj (List.cons.inj rest).1]

theorem WireRequest.frame_inj {first second : WireRequest} (firstFormed : first.WellFormed)
    (secondFormed : second.WellFormed) (same : first.frame = second.frame) :
    first = second := by
  apply WireRequest.payload_inj firstFormed secondFormed
  -- Both headers are four bytes, so the payloads start at the same place.
  exact (append_inj same (by rw [putU32_length, putU32_length])).2

/-! ### Exactness -/

/-- The decoder accepts the frames of well-formed requests and no others, and returns the
fields the companion keeps. Distinct requests have distinct frames. -/
theorem decodeRequest_exact :
    (∀ frame request, decodeRequest hostKeyFingerprint frame = some request ↔
      ∃ wire : WireRequest, wire.WellFormed ∧ frame = wire.frame ∧
        request = wire.request hostKeyFingerprint) ∧
    (∀ wire : WireRequest, wire.WellFormed →
      decodeRequest hostKeyFingerprint wire.frame = some (wire.request hostKeyFingerprint)) ∧
    (∀ first second : WireRequest, first.WellFormed → second.WellFormed →
      first.frame = second.frame → first = second) := by
  refine ⟨fun frame request => ⟨exists_frame_of_decodeRequest _, ?_⟩,
    fun wire => decodeRequest_frame _, fun first second => WireRequest.frame_inj⟩
  rintro ⟨wire, formed, rfl, rfl⟩
  exact decodeRequest_frame _ formed

end Fingerprint

/-- Two binds that differ in their signature are both accepted and decode alike: the
signature is read and dropped. -/
theorem decodeRequest_drops_signature :
    let first : WireRequest := .sessionBind [1] [2] [3] false
    let second : WireRequest := .sessionBind [1] [2] [4] false
    first ≠ second ∧ first.WellFormed ∧ second.WellFormed ∧
      ∀ hostKeyFingerprint : Bytes → String,
        decodeRequest hostKeyFingerprint first.frame =
          some (.sessionBind false ⟨[2], hostKeyFingerprint [1]⟩) ∧
        decodeRequest hostKeyFingerprint second.frame =
          some (.sessionBind false ⟨[2], hostKeyFingerprint [1]⟩) := by
  intro first second
  have firstFormed : first.WellFormed := ⟨by decide, by decide⟩
  have secondFormed : second.WellFormed := ⟨by decide, by decide⟩
  refine ⟨by decide, firstFormed, secondFormed, fun hostKeyFingerprint => ⟨?_, ?_⟩⟩
  · exact decodeRequest_frame hostKeyFingerprint firstFormed
  · exact decodeRequest_frame hostKeyFingerprint secondFormed

end QsBitwarden.Agent
