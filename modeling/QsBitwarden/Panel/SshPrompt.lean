import QsBitwarden.Agent.Companion
import QsBitwarden.Lib.Duplex

/-! Owns the panel's side of the signing prompts (`Service.qml`, `BitwardenModel.js`): the
prompt and the unlock request on screen, their queues, the promotion of an unlock request to
a prompt, and the lines all of this writes to the companion. Whether the panel may prompt
when a message arrives is the message's own data. What the prompt draws is kept as the
message it was drawn from. It does not own the companion or the channels between them. -/

namespace QsBitwarden.Panel

open Agent
open Lib

/-! ### Messages and prompts -/

/-- An `unlock_required` message as the panel keeps it. -/
structure UnlockMessage where
  reason : UnlockReason
  request : Announcement
  deriving DecidableEq, Repr

def sshAgentApprovalWindowMaxSec : ℕ := 900

/-- What is on screen. Its id may be replaced while it stays; the rest is drawn once. -/
structure Prompt where
  requestId : RequestId
  grantSeconds : ℕ
  grantUntilScreenLock : Bool
  drawnFrom : Announcement
  deriving DecidableEq, Repr

def sshAgentPromptView (message : Announcement) (approvalWindowSec : ℕ) (untilScreenLock : Bool) :
    Prompt :=
  let window := min sshAgentApprovalWindowMaxSec approvalWindowSec
  -- A grant is offered only if the companion did, a window is set, and nothing is forwarded.
  let grantOffered := message.grantOffered && (untilScreenLock || 0 < window) && !message.forwarded
  { requestId := message.requestId
    grantSeconds := if grantOffered && !untilScreenLock then window else 0
    grantUntilScreenLock := grantOffered && untilScreenLock
    drawnFrom := message }

/-- Whether an `approval_required` is the release of the request an `unlock_required` held. The
release issues a new id, so ids are not compared. -/
def sshAgentSameRequest (unlockMessage : Option UnlockMessage) (approvalMessage : Announcement) :
    Bool :=
  match unlockMessage with
  | none => false
  | some message =>
    message.request.fingerprint = approvalMessage.fingerprint &&
    message.request.pid = approvalMessage.pid &&
    message.request.processPath = approvalMessage.processPath &&
    message.request.operation = approvalMessage.operation &&
    message.request.operationDetail = approvalMessage.operationDetail &&
    message.request.hostKey = approvalMessage.hostKey &&
    message.request.forwarded = approvalMessage.forwarded &&
    message.request.grantOffered = approvalMessage.grantOffered &&
    message.request.fingerprint ≠ ""

section Queue

variable {Message : Type*} (idOf : Message → RequestId)

def sshAgentEnqueuePrompt (queue : List Message) (message : Message) (maxQueue : ℕ) :
    List Message :=
  let cap := if 0 < maxQueue then maxQueue else 4
  if queue.any fun item => idOf item = idOf message then queue
  else if cap ≤ queue.length then queue
  else queue ++ [message]

def sshAgentDequeuePrompt (queue : List Message) : Option Message × List Message :=
  match queue with
  | [] => (none, [])
  | next :: remaining => (some next, remaining)

def sshAgentRemovePrompt (queue : List Message) (requestId : RequestId) : List Message :=
  queue.filter fun item => idOf item ≠ requestId

end Queue

/-- A line to the companion. The user's decision carries what the prompt was drawn from. -/
inductive Line
  | decision (requestId : RequestId) (duration : GrantDuration) (shown : Announcement)
  | control (message : ControlMessage)
  deriving DecidableEq, Repr

def Line.message : Line → ControlMessage
  | .decision requestId duration _ => .approve requestId duration
  | .control message => message

/-- `sshAgentApproveLine`, as `control.rs` reads its two fields. -/
def grantDuration (grantSeconds : ℕ) (untilScreenLock : Bool) : GrantDuration :=
  let seconds := min grantSeconds sshAgentApprovalWindowMaxSec
  if untilScreenLock then .untilScreenLock else if seconds = 0 then .once else .seconds seconds

/-! ### State -/

structure SshPrompts where
  sshAgentApprovalWindowSec : ℕ
  sshAgentApprovalUntilScreenLock : Bool
  /-- `status === "unlocked"`. -/
  unlocked : Bool
  stdinEnabled : Bool
  sshPrompt : Option Prompt
  sshPromptQueue : List Announcement
  sshUnlockRequest : Option Prompt
  sshUnlockRaw : Option UnlockMessage
  sshUnlockQueue : List UnlockMessage
  sshPromotedOldId : Option RequestId
  sshPromotedRaw : Option UnlockMessage
  deriving DecidableEq, Repr

namespace SshPrompts

/-- The panel before it has started any companion. -/
def initial : SshPrompts where
  sshAgentApprovalWindowSec := 0
  sshAgentApprovalUntilScreenLock := false
  unlocked := false
  stdinEnabled := true
  sshPrompt := none
  sshPromptQueue := []
  sshUnlockRequest := none
  sshUnlockRaw := none
  sshUnlockQueue := []
  sshPromotedOldId := none
  sshPromotedRaw := none

/-- What a handler leaves: the state, and the lines it wrote, oldest first. -/
abbrev Result := SshPrompts × List Line

variable (panel : SshPrompts)

def sshAgentWrite (message : ControlMessage) : List Line :=
  if panel.stdinEnabled then [.control message] else []

def sshAgentDenyLine (requestId : RequestId) : List Line :=
  panel.sshAgentWrite (.deny requestId)

def sshAgentUnlockCancelledLine (requestId : RequestId) : List Line :=
  panel.sshAgentWrite (.unlockCancelled requestId "user-cancelled")

/-! ### Showing and dismissing -/

def showSshApproval (message : Announcement) : SshPrompts :=
  { panel with
    sshPrompt := some (sshAgentPromptView message panel.sshAgentApprovalWindowSec
      panel.sshAgentApprovalUntilScreenLock) }

def dismissSshApproval : SshPrompts :=
  { panel with
    sshPrompt := none
    sshPromptQueue := []
    sshPromotedOldId := none
    sshPromotedRaw := none
    sshUnlockRequest := none
    sshUnlockRaw := none
    sshUnlockQueue := [] }

def advanceSshPrompt : SshPrompts :=
  let result := sshAgentDequeuePrompt panel.sshPromptQueue
  let panel := { panel with sshPromptQueue := result.2 }
  match result.1 with
  | some next => panel.showSshApproval next
  | none => panel.dismissSshApproval

/-- `sshUnlockRaw` and what is drawn from it, which offers no grant. -/
def showSshUnlock (message : UnlockMessage) : SshPrompts :=
  { panel with
    sshUnlockRaw := some message
    sshUnlockRequest := some (sshAgentPromptView message.request 0 false) }

def advanceSshUnlock : SshPrompts :=
  let result := sshAgentDequeuePrompt panel.sshUnlockQueue
  let panel := { panel with sshUnlockQueue := result.2 }
  match result.1 with
  | some next => panel.showSshUnlock next
  | none => panel.dismissSshApproval

/-! ### The user's answers -/

def approveSshRequest (grantSeconds : ℕ) (untilScreenLock : Bool) : Result :=
  match panel.sshPrompt with
  | none => (panel, [])
  | some prompt =>
    (panel.advanceSshPrompt,
      if panel.stdinEnabled then
        [.decision prompt.requestId
          (grantDuration grantSeconds (untilScreenLock && prompt.grantUntilScreenLock))
          prompt.drawnFrom]
      else [])

def denySshRequest : Result :=
  match panel.sshUnlockRequest with
  | some request => (panel.advanceSshUnlock, panel.sshAgentUnlockCancelledLine request.requestId)
  | none =>
    match panel.sshPrompt with
    | some prompt => (panel.advanceSshPrompt, panel.sshAgentDenyLine prompt.requestId)
    | none => (panel.dismissSshApproval, [])

def denyAllSshRequests : Result :=
  let shown := (panel.sshPrompt.map (panel.sshAgentDenyLine ·.requestId)).getD []
  let queued := (panel.sshPromptQueue.filter (·.requestId ≠ 0)).flatMap
    (panel.sshAgentDenyLine ·.requestId)
  let unlock := (panel.sshUnlockRequest.map (panel.sshAgentUnlockCancelledLine ·.requestId)).getD []
  let unlocks := (panel.sshUnlockQueue.filter (·.request.requestId ≠ 0)).flatMap
    (panel.sshAgentUnlockCancelledLine ·.request.requestId)
  (panel.dismissSshApproval, shown ++ queued ++ unlock ++ unlocks)

/-- The companion expires the request; this just stops showing it. -/
def expireSshRequest : SshPrompts :=
  if panel.sshPrompt.isNone && panel.sshUnlockRequest.isNone then panel
  else panel.dismissSshApproval

/-! ### Messages from the companion -/

/-- The prompt on screen takes the id its request was released under. -/
def adoptSshPrompt (message : Announcement) : Option SshPrompts :=
  match panel.sshPrompt with
  | none => none
  | some prompt =>
    if panel.sshPromotedOldId.isSome && sshAgentSameRequest panel.sshPromotedRaw message then
      some { panel with
        sshPrompt := some { prompt with requestId := message.requestId }
        sshPromotedOldId := none
        sshPromotedRaw := none }
    else none

def onApprovalRequired (mayPrompt : Bool) (message : Announcement) : Result :=
  if !mayPrompt then (panel, panel.sshAgentDenyLine message.requestId) else
  match panel.adoptSshPrompt message with
  | some adopted => (adopted, [])
  | none =>
    if panel.sshPrompt.isSome then
      ({ panel with
        sshPromptQueue := sshAgentEnqueuePrompt Announcement.requestId panel.sshPromptQueue
          message 4 }, [])
    else (panel.showSshApproval message, [])

def onUnlockRequired (mayPrompt : Bool) (message : UnlockMessage) : Result :=
  if !mayPrompt then (panel, panel.sshAgentUnlockCancelledLine message.request.requestId) else
  if panel.sshUnlockRequest.isSome then
    ({ panel with
      sshUnlockQueue := sshAgentEnqueuePrompt (fun item => item.request.requestId)
        panel.sshUnlockQueue message 4 }, [])
  else (panel.showSshUnlock message, [])

/-- `sshPrompt || sshUnlockRequest`. -/
def live : Option Prompt := panel.sshPrompt <|> panel.sshUnlockRequest

/-- A released sign request comes back as an approval, so the prompt stays for it; a released
listing is already answered. -/
def staysForRelease (reason : CancelReason) : Bool :=
  reason = .released &&
    !(panel.sshUnlockRequest.isSome && panel.sshUnlockRaw.any (·.reason = .listIdentities))

def removeQueued (requestId : RequestId) : SshPrompts :=
  { panel with
    sshPromptQueue := sshAgentRemovePrompt Announcement.requestId panel.sshPromptQueue requestId
    sshUnlockQueue := sshAgentRemovePrompt (fun item => item.request.requestId)
      panel.sshUnlockQueue requestId }

def onRequestCancelled (requestId : RequestId) (reason : CancelReason) :
    SshPrompts :=
  if panel.live.any (·.requestId = requestId) then
    if panel.staysForRelease reason then panel
    else if panel.sshPrompt.isSome && !panel.sshPromptQueue.isEmpty then panel.advanceSshPrompt
    else if panel.sshUnlockRequest.isSome && !panel.sshUnlockQueue.isEmpty then
      panel.advanceSshUnlock
    else panel.dismissSshApproval
  else panel.removeQueued requestId

def onSshAgentMessage (mayPrompt : Bool) : Output → Result
  | .approvalRequired _ message => panel.onApprovalRequired mayPrompt message
  | .unlockRequired reason message => panel.onUnlockRequired mayPrompt ⟨reason, message⟩
  | .requestCancelled requestId reason => (panel.onRequestCancelled requestId reason, [])
  | _ => (panel, [])

/-! ### Unlocking -/

/-- Unlocked but keys still loading: ask for approval now. -/
def promoteUnlockToApproval : SshPrompts :=
  match panel.sshUnlockRaw with
  | none => panel
  | some raw =>
    if !panel.unlocked || panel.sshPrompt.isSome || raw.reason = .listIdentities then panel
    else
      { panel with
        sshPromotedOldId := some raw.request.requestId
        sshPromotedRaw := some raw
        sshUnlockRequest := none
        sshUnlockRaw := none
        sshUnlockQueue := [] }.showSshApproval raw.request

/-- `onStatusChanged`, which runs only when the status does change. -/
def onStatusChanged (unlocked : Bool) : SshPrompts :=
  if unlocked = panel.unlocked then panel
  else { panel with unlocked := unlocked }.promoteUnlockToApproval

/-! ### The panel as a party -/

/-- What happens in the panel by itself. `write` is any line of the rest of the panel: it never
answers a request. -/
inductive Event
  | approve (grantSeconds : ℕ) (untilScreenLock : Bool)
  | deny
  | denyAll
  | expire
  | status (unlocked : Bool)
  | configure (approvalWindowSec : ℕ) (approvalUntilScreenLock : Bool)
  | write (message : ControlMessage)
  | stop
  deriving DecidableEq, Repr

/-- The supervisor may drop a line; otherwise the panel may or may not prompt just now. -/
inductive Receipt
  | dropped
  | heard (mayPrompt : Bool)
  deriving DecidableEq, Repr

/-- The control messages that answer a request. -/
def answers : ControlMessage → Bool
  | .approve _ _ => true
  | .deny _ => true
  | .unlockCancelled _ _ => true
  | _ => false

def stopSshAgentHelper : Result :=
  ({ panel with stdinEnabled := false }, panel.sshAgentWrite .shutdown)

def act : Event → Option Result
  | .approve grantSeconds untilScreenLock =>
    some (panel.approveSshRequest grantSeconds untilScreenLock)
  | .deny => some panel.denySshRequest
  | .denyAll => some panel.denyAllSshRequests
  | .expire => some (panel.expireSshRequest, [])
  | .status unlocked => some (panel.onStatusChanged unlocked, [])
  | .configure approvalWindowSec approvalUntilScreenLock =>
    some ({ panel with
      sshAgentApprovalWindowSec := approvalWindowSec
      sshAgentApprovalUntilScreenLock := approvalUntilScreenLock }, [])
  | .write message => if answers message then none else some (panel, panel.sshAgentWrite message)
  | .stop => some panel.stopSshAgentHelper

def receive (receipt : Receipt) (message : Output) : Option Result :=
  match receipt with
  | .dropped => some (panel, [])
  | .heard mayPrompt => some (panel.onSshAgentMessage mayPrompt message)

def party : Party SshPrompts Event Receipt Output Line := ⟨act, receive⟩

end SshPrompts

end QsBitwarden.Panel
