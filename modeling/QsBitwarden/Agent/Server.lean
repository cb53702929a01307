import QsBitwarden.Agent.Approvals
import QsBitwarden.Agent.Frames
import QsBitwarden.Lib.History

/-! Owns one client connection of the companion's socket (`server.rs`): the frames it
reads, the session binds it records and the requests it passes on to the state loop.
It does not own accepting connections or answering requests. -/

namespace QsBitwarden.Agent

open Lib List

variable (hostKeyFingerprint : Bytes → String)

def maxSessionBinds : ℕ := 16

/-- A request passed on to the state loop; its reply channel is named there. -/
structure ClientEvent where
  peer : PeerContext
  forwarded : Bool
  binds : List SessionBinding
  request : AgentRequest
  deriving DecidableEq, Repr

/-! ### One connection -/

structure Connection where
  peer : PeerContext
  forwarded : Bool
  binds : List SessionBinding
  connected : Bool
  deriving DecidableEq, Repr

/-- A frame read from the socket, with how the world answers while it is served: whether
a response can be written, whether the peer is still the process admitted, whether the
event channel has room, and the state loop's response (`none` when anything arrives on
the socket first). -/
structure FrameRead where
  frame : Bytes
  written : Bool
  peerUnchanged : Bool
  room : Bool
  answer : Option Bytes
  deriving DecidableEq, Repr

/-- What serving a frame did: the response it wrote, the event it passed on. -/
structure Served where
  response : Option Bytes
  event : Option ClientEvent
  deriving DecidableEq, Repr

namespace Connection

def accept (peer : PeerContext) : Connection := ⟨peer, false, [], true⟩

/-- Write a response; a failed write ends the connection. -/
def respond (connection : Connection) (read : FrameRead) (response : Bytes)
    (event : Option ClientEvent) : Served × Connection :=
  (⟨some response, event⟩, { connection with connected := read.written })

/-- `serve_client`, for one frame. -/
def serve (connection : Connection) (read : FrameRead) : Served × Connection :=
  if !connection.connected then (⟨none, none⟩, connection) else
  match decodeRequest hostKeyFingerprint read.frame with
  | none =>
    -- A bind that does not parse may have been the one saying "forwarding".
    let connection :=
      { connection with forwarded := connection.forwarded || mayBeSessionBind read.frame }
    connection.respond read failureResponse none
  | some (.sessionBind forwarding binding) =>
    if connection.binds.length < maxSessionBinds then
      { connection with
        binds := connection.binds ++ [binding]
        forwarded := connection.forwarded || forwarding }.respond read successResponse none
    else { connection with forwarded := true }.respond read failureResponse none
  | some request =>
    if request.isSign && !read.peerUnchanged then
      (⟨none, none⟩, { connection with connected := false })
    else
    if !read.room then connection.respond read failureResponse none else
    let event := ⟨connection.peer, connection.forwarded, connection.binds, request⟩
    match read.answer with
    | some response => connection.respond read response (some event)
    | none => (⟨none, some event⟩, { connection with connected := false })

end Connection

/-! ### One frame -/

/-- Everything serving one frame can do. -/
inductive ServeEffect (connection : Connection) (read : FrameRead) : Served → Connection → Prop
  | gone (closed : connection.connected = false) :
      ServeEffect connection read ⟨none, none⟩ connection
  | refused (opened : connection.connected = true)
      (undecoded : decodeRequest hostKeyFingerprint read.frame = none) :
      ServeEffect connection read ⟨some failureResponse, none⟩
        { connection with
          forwarded := connection.forwarded || mayBeSessionBind read.frame
          connected := read.written }
  | bound (opened : connection.connected = true) (forwarding : Bool) (binding : SessionBinding)
      (decoded : decodeRequest hostKeyFingerprint read.frame =
        some (.sessionBind forwarding binding))
      (room : connection.binds.length < maxSessionBinds) :
      ServeEffect connection read ⟨some successResponse, none⟩
        { connection with
          binds := connection.binds ++ [binding]
          forwarded := connection.forwarded || forwarding
          connected := read.written }
  | overflowed (opened : connection.connected = true) (forwarding : Bool)
      (binding : SessionBinding)
      (decoded : decodeRequest hostKeyFingerprint read.frame =
        some (.sessionBind forwarding binding)) :
      ServeEffect connection read ⟨some failureResponse, none⟩
        { connection with forwarded := true, connected := read.written }
  | request (opened : connection.connected = true) (request : AgentRequest)
      (decoded : decodeRequest hostKeyFingerprint read.frame = some request)
      (notBind : ¬ ∃ forwarding binding, request = .sessionBind forwarding binding)
      (response : Option Bytes) (event : Option ClientEvent)
      (passed : event = none ∨
        event = some ⟨connection.peer, connection.forwarded, connection.binds, request⟩)
      (connected : Bool) :
      ServeEffect connection read ⟨response, event⟩ { connection with connected := connected }

variable {connection : Connection}

theorem serve_effect {after : Connection} {read : FrameRead} {served : Served}
    (step : connection.serve hostKeyFingerprint read = (served, after)) :
    ServeEffect hostKeyFingerprint connection read served after := by
  unfold Connection.serve at step
  split at step
  · next closed =>
    cases step
    exact .gone (by simpa using closed)
  · next opened =>
    have opened : connection.connected = true := by simpa using opened
    split at step
    · next undecoded =>
      cases step
      exact .refused opened undecoded
    · next forwarding binding decoded =>
      split at step
      · next room => cases step; exact .bound opened _ _ decoded room
      · cases step; exact .overflowed opened _ _ decoded
    · next request notBind decoded =>
      have notBind : ¬ ∃ forwarding binding, request = .sessionBind forwarding binding := by
        rintro ⟨forwarding, binding, rfl⟩
        exact notBind _ _ rfl
      split at step
      · cases step; exact .request opened _ decoded notBind _ _ (.inl rfl) _
      · split at step
        · cases step; exact .request opened _ decoded notBind _ _ (.inl rfl) _
        · dsimp only at step
          split at step
          · cases step; exact .request opened _ decoded notBind _ _ (.inr rfl) _
          · cases step; exact .request opened _ decoded notBind _ _ (.inr rfl) _

/-! ### One connection -/

/-- The bind a frame records when it is accepted. -/
def boundBy (frame : Bytes) : Option SessionBinding :=
  match decodeRequest hostKeyFingerprint frame with
  | some (.sessionBind _ binding) => some binding
  | _ => none

/-- A well-formed bind that said not-forwarding and was answered with success. -/
def AcceptedLocalBind (label : FrameRead × Served) : Prop :=
  (∃ binding, decodeRequest hostKeyFingerprint label.1.frame =
    some (.sessionBind false binding)) ∧ label.2.response = some successResponse

/-- Every frame that could have been a bind was an accepted local one, and the binds are
those of the frames, in order. -/
def BindsRecorded (history : List (FrameRead × Served)) (binds : List SessionBinding) : Prop :=
  (∀ label ∈ history, mayBeSessionBind label.1.frame = true →
    AcceptedLocalBind hostKeyFingerprint label) ∧
  binds = history.reverse.filterMap fun label => boundBy hostKeyFingerprint label.1.frame

variable {hostKeyFingerprint}

theorem boundBy_eq_none {frame : Bytes} (plain : mayBeSessionBind frame = false) :
    boundBy hostKeyFingerprint frame = none := by
  unfold boundBy
  split
  · next decoded =>
    have could := (mayBeSessionBind_of_decodeRequest _ decoded).mpr ⟨_, _, rfl⟩
    rw [plain] at could
    cases could
  · rfl

variable {history : List (FrameRead × Served)} {binds : List SessionBinding}

theorem BindsRecorded.plain
    (recorded : BindsRecorded hostKeyFingerprint history binds) {label : FrameRead × Served}
    (plain : mayBeSessionBind label.1.frame = false) :
    BindsRecorded hostKeyFingerprint (label :: history) binds := by
  refine ⟨?_, ?_⟩
  · intro other mem could
    rcases mem_cons.mp mem with rfl | mem
    · rw [plain] at could
      cases could
    · exact recorded.1 other mem could
  · rw [reverse_cons, filterMap_append, ← recorded.2]
    simp [boundBy_eq_none plain]

theorem BindsRecorded.bind
    (recorded : BindsRecorded hostKeyFingerprint history binds) {read : FrameRead}
    {binding : SessionBinding}
    (decoded : decodeRequest hostKeyFingerprint read.frame = some (.sessionBind false binding)) :
    BindsRecorded hostKeyFingerprint ((read, ⟨some successResponse, none⟩) :: history)
      (binds ++ [binding]) := by
  refine ⟨?_, ?_⟩
  · intro other mem could
    rcases mem_cons.mp mem with rfl | mem
    · exact ⟨⟨binding, decoded⟩, rfl⟩
    · exact recorded.1 other mem could
  · rw [reverse_cons, filterMap_append, ← recorded.2]
    simp [boundBy, decoded]

variable {peer : PeerContext}

/-- While a connection is served and not forwarded, its binds are recorded whole. -/
theorem binds_recorded
    (run : Run (machine (Connection.serve hostKeyFingerprint) (.accept peer)) history connection) :
    connection.binds.length ≤ maxSessionBinds ∧
      (connection.connected = true → connection.forwarded = false →
        BindsRecorded hostKeyFingerprint history connection.binds) := by
  refine run.invariant (fun history connection =>
    connection.binds.length ≤ maxSessionBinds ∧
      (connection.connected = true → connection.forwarded = false →
        BindsRecorded hostKeyFingerprint history connection.binds)) ?_ ?_
  · rintro connection rfl
    simp [Connection.accept, BindsRecorded, maxSessionBinds]
  · rintro past before ⟨read, served⟩ after - ⟨bounded, recorded⟩ step
    cases serve_effect _ step with
    | gone closed =>
      refine ⟨bounded, fun opened => ?_⟩
      rw [closed] at opened
      cases opened
    | refused opened undecoded =>
      refine ⟨bounded, fun _ clean => ?_⟩
      obtain ⟨wasClean, plain⟩ := Bool.or_eq_false_iff.mp clean
      exact (recorded opened wasClean).plain plain
    | bound opened forwarding binding decoded room =>
      refine ⟨by rw [length_append]; exact room, fun _ clean => ?_⟩
      obtain ⟨wasClean, rfl⟩ := Bool.or_eq_false_iff.mp clean
      exact (recorded opened wasClean).bind decoded
    | overflowed opened forwarding binding decoded => exact ⟨bounded, nofun⟩
    | request opened request decoded notBind response event passed connected =>
      refine ⟨bounded, fun _ clean => (recorded opened clean).plain ?_⟩
      rw [← Bool.not_eq_true, mayBeSessionBind_of_decodeRequest _ decoded]
      exact notBind

/-- A connection that was forwarded after some of its frames stays so. -/
theorem forwarded_stays
    (run : Run (machine (Connection.serve hostKeyFingerprint) (.accept peer)) history connection) :
    ∀ recent earlier before, history = recent ++ earlier →
      Run (machine (Connection.serve hostKeyFingerprint) (.accept peer)) earlier before →
      before.forwarded = true → connection.forwarded = true := by
  refine run.invariant (fun history connection =>
    ∀ recent earlier before, history = recent ++ earlier →
      Run (machine (Connection.serve hostKeyFingerprint) (.accept peer)) earlier before →
      before.forwarded = true → connection.forwarded = true) ?_ ?_
  · rintro _ rfl recent earlier before split earlierRun
    obtain rfl := (append_eq_nil_iff.mp split.symm).2
    rw [machine_unique earlierRun (.start rfl)]
    exact id
  · rintro past before ⟨read, served⟩ after run stays step recent earlier first split earlierRun was
    rcases cons_eq_append_iff.mp split with ⟨-, rfl⟩ | ⟨others, -, split⟩
    · rwa [machine_unique (run.next step) earlierRun]
    · have before := stays others earlier first split earlierRun was
      cases serve_effect _ step <;> simp [before]

/-- Once an event said forwarded, the connection stays so. -/
theorem forwarded_after_event
    (run : Run (machine (Connection.serve hostKeyFingerprint) (.accept peer)) history connection) :
    ∀ label ∈ history, ∀ event, label.2.event = some event → event.forwarded = true →
      connection.forwarded = true := by
  refine run.invariant (fun history connection =>
    ∀ label ∈ history, ∀ event, label.2.event = some event → event.forwarded = true →
      connection.forwarded = true) ?_ ?_
  · simp
  · rintro past before ⟨read, served⟩ after - stays step label mem event passed forwarded
    have effect := serve_effect _ step
    rcases mem_cons.mp mem with rfl | mem
    · cases effect with
      | request opened request decoded notBind response event passedOn connected =>
        rcases passedOn with rfl | rfl
        · cases passed
        · cases passed
          exact forwarded
      | _ => cases passed
    · have was := stays label mem event passed forwarded
      cases effect <;> simp [was]

/-- At most as many frames could have been binds as were recorded. -/
theorem BindsRecorded.count_le (recorded : BindsRecorded hostKeyFingerprint history binds) :
    history.countP (fun label => mayBeSessionBind label.1.frame) ≤ binds.length := by
  rw [recorded.2, filterMap_reverse, length_reverse, length_filterMap_eq_countP]
  refine countP_mono_left fun label mem could => ?_
  obtain ⟨⟨binding, decoded⟩, -⟩ := recorded.1 label mem could
  simp [boundBy, decoded]

/-- Forwarding fails closed, for every sequence of frames on one connection. -/
theorem forwarding_fails_closed {peer : PeerContext} {past : List (FrameRead × Served)}
    {read : FrameRead} {served : Served} {connection : Connection} {event : ClientEvent}
    (run : Run (machine (Connection.serve hostKeyFingerprint) (.accept peer))
      ((read, served) :: past) connection)
    (passed : served.event = some event) :
    (event.request.isSign = true → event.forwarded = false →
      (∀ label ∈ past, NamesSessionBind label.1.frame ∨ UnreadableExtension label.1.frame →
        AcceptedLocalBind hostKeyFingerprint label) ∧
      event.binds =
        past.reverse.filterMap (fun label => boundBy hostKeyFingerprint label.1.frame) ∧
      past.countP (fun label => mayBeSessionBind label.1.frame) ≤ maxSessionBinds) ∧
    (∀ label ∈ past, ∀ earlier, label.2.event = some earlier → earlier.forwarded = true →
      event.forwarded = true) ∧
    (∀ recent earlier before, past = recent ++ earlier →
      Run (machine (Connection.serve hostKeyFingerprint) (.accept peer)) earlier before →
      before.forwarded = true → event.forwarded = true) := by
  cases run with
  | next earlierRun step =>
    cases serve_effect _ step with
    | request opened request decoded notBind response event passedOn connected =>
      rcases passedOn with rfl | rfl
      · cases passed
      cases passed
      refine ⟨fun _ clean => ?_, forwarded_after_event earlierRun, forwarded_stays earlierRun⟩
      obtain ⟨bounded, recorded⟩ := binds_recorded earlierRun
      have recorded := recorded opened clean
      refine ⟨fun label mem could => ?_, recorded.2, recorded.count_le.trans bounded⟩
      exact recorded.1 label mem (mayBeSessionBind_iff.mpr could)
    | _ => cases passed

/-! A connection that binds one session locally and then asks for a signature. -/

def samplePeer : PeerContext := ⟨7, 11, 13, ascii "/usr/bin/ssh"⟩

/-- A frame as the socket delivers it, served without trouble. -/
def delivered (payload : Bytes) : FrameRead :=
  ⟨putU32 payload.length ++ payload, true, true, true, some failureResponse⟩

def bindPayload (flag : UInt8) : Bytes :=
  extensionByte :: putString sessionBindName ++ putString [3] ++ putString [4] ++ putString [5] ++
    [flag]

def signPayload (publicBlob message : Bytes) : Bytes :=
  signRequestByte :: putString publicBlob ++ putString message ++ putU32 0

def sampleConnection (flag : UInt8) : List (FrameRead × Served) × Connection :=
  replay (Connection.serve fun _ => "host") [] (.accept samplePeer)
    [delivered (bindPayload flag), delivered (signPayload [1] [9])]

def sampleEvent : ClientEvent := ⟨samplePeer, false, [⟨[4], "host"⟩], .sign [1] [9] 0⟩

theorem forwarding_fails_closed_sample :
    ((sampleConnection 0).1.head?.bind fun label => label.2.event) = some sampleEvent ∧
      (sampleConnection 0).1.tail.countP
        (fun label => mayBeSessionBind label.1.frame) ≤ maxSessionBinds := by
  have run : Run (machine (Connection.serve fun _ => "host") (.accept samplePeer))
      (sampleConnection 0).1 (sampleConnection 0).2 := run_replay (.start rfl) _
  have closed := @forwarding_fails_closed (fun _ => "host") samplePeer
    (sampleConnection 0).1.tail _ _ _ sampleEvent run (by decide +kernel)
  exact ⟨by decide +kernel, (closed.1 rfl rfl).2.2⟩

end QsBitwarden.Agent
