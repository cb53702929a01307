import QsBitwarden.Agent.LoadTurns
import QsBitwarden.Lib.Js
import QsBitwarden.Panel.Supervisor

/-! Owns the panel's side of a key load (`Service.qml`): the vault list read that carries it,
the nonce primed for it, the epoch, what a lock, a logout and a supervised helper do to it, and
the control lines all of this writes to the helper that is running. The guards that read data
kept elsewhere (the session, the tools, whether a load is owed) come with the event. It does
not own the companion. -/

namespace QsBitwarden.Panel

open Agent
open Lib

/-! ### Lines and state -/

/-- What the panel writes about requests and grants. -/
def isAnswer : ControlMessage → Bool
  | .approve _ _ => true
  | .deny _ => true
  | .unlockCancelled _ _ => true
  | .options _ => true
  | .revokeGrants => true
  | .revokeGrant _ => true
  | _ => false

abbrev Answer := { message : ControlMessage // isAnswer message = true }

/-- A line to the companion. An epoch is written as it stands, also a negative one. -/
inductive LoadLine
  | hello
  | options (unlockOnDemand : Bool)
  | keyLoadBegin (epoch : ℤ) (loadId : String)
  | keyLoadEnd (epoch : ℤ) (ok : Bool)
  | vaultLocked (epoch : ℤ)
  | vaultLoggedOut
  | shutdown
  | answer (message : Answer)
  deriving DecidableEq, Repr

/-- The message `control.rs` reads from a line; its epochs are not negative. -/
def LoadLine.message : LoadLine → Option ControlMessage
  | .hello => some .hello
  | .options on => some (.options on)
  | .keyLoadBegin epoch loadId =>
    if 0 ≤ epoch then some (.keyLoadBegin epoch.toNat loadId) else none
  | .keyLoadEnd epoch ok =>
    if 0 ≤ epoch then some (.keyLoadEnd epoch.toNat (if ok then .ok else .failed)) else none
  | .vaultLocked epoch => if 0 ≤ epoch then some (.vaultLocked epoch.toNat) else none
  | .vaultLoggedOut => some .vaultLoggedOut
  | .shutdown => some .shutdown
  | .answer message => some message.1

def LoadLine.input (line : LoadLine) : Input :=
  match line.message with
  | some message => .control message
  | none => .malformedControl

/-- The process that reads a nonce; its text is finished before it has exited. -/
inductive LoadIdProc
  | idle
  | reading
  | exiting
  deriving DecidableEq, Repr

/-- `written` holds every line written to the helper that is running, or ran last. -/
structure KeyLoads where
  supervisor : Supervisor
  unlockOnDemand : Bool
  /-- `sshAgentProc.running`. -/
  helperRunning : Bool
  /-- The running helper's `onStarted` has come. -/
  helperStarted : Bool
  stdinEnabled : Bool
  launches : ℕ
  written : List LoadLine
  sshAgentEpoch : ℤ
  sshAgentLoadId : String
  sshAgentLoadActive : Bool
  sshAgentNextLoadId : String
  loadIdProc : LoadIdProc
  /-- `status === "unlocked"`. -/
  unlocked : Bool
  listRunning : Bool
  listReadEarly : Bool
  listAgentBranchActive : Bool
  listRetriedWithoutAgent : Bool
  deriving DecidableEq, Repr

/-- What a guard reads that is kept elsewhere. -/
structure ReadContext where
  session : Bool
  /-- `listReadMode === "blocked"`. -/
  blocked : Bool
  /-- `vaultReadIsStale("items")`. -/
  stale : Bool
  /-- `sshAgentLoadedForVaultEpoch !== vaultEpoch`. -/
  owed : Bool
  deriving DecidableEq, Repr

/-- A QML `int` keeps the low 32 bits. -/
def toInt32 (value : ℤ) : ℤ := (value + 2147483648) % 4294967296 - 2147483648

def isHexLower (char : Char) : Bool := ('0' ≤ char && char ≤ '9') || ('a' ≤ char && char ≤ 'f')

/-- `LOAD_ID_RE`. -/
def isValidLoadId (value : String) : Bool := value.toList.length = 32 && value.toList.all isHexLower

namespace KeyLoads

def initial : KeyLoads where
  supervisor := sshAgentInitialState
  unlockOnDemand := false
  helperRunning := false
  helperStarted := false
  stdinEnabled := true
  launches := 0
  written := []
  sshAgentEpoch := 0
  sshAgentLoadId := ""
  sshAgentLoadActive := false
  sshAgentNextLoadId := ""
  loadIdProc := .idle
  unlocked := false
  listRunning := false
  listReadEarly := false
  listAgentBranchActive := false
  listRetriedWithoutAgent := false

variable (panel : KeyLoads)

def gateOpen : Bool := panel.supervisor.gateOpen

/-- `sshAgentProc.write`, to a helper that runs with its stdin open. -/
def write (line : LoadLine) : KeyLoads :=
  { panel with
    written := if panel.helperRunning && panel.stdinEnabled then panel.written ++ [line]
      else panel.written }

/-! ### The nonce and the load window -/

def primeSshAgentLoadId : KeyLoads :=
  if panel.loadIdProc ≠ .idle ∨ panel.sshAgentNextLoadId ≠ "" then panel
  else { panel with loadIdProc := .reading }

def endSshAgentLoad (ok : Bool) : KeyLoads :=
  if !panel.sshAgentLoadActive then panel else
  let panel := { panel with sshAgentLoadActive := false, sshAgentLoadId := "" }
  (panel.write (.keyLoadEnd panel.sshAgentEpoch ok)).primeSshAgentLoadId

def cancelSshAgentLoad : KeyLoads :=
  { ({ panel with listRunning := false }.endSshAgentLoad false) with
    listAgentBranchActive := false, listRetriedWithoutAgent := false }

/-! ### The item read -/

/-- The only launcher of the item read, with or without the agent branch. -/
def startVaultListRead (retrying : Bool) : KeyLoads :=
  let panel := { panel with listReadEarly := !panel.unlocked }
  let useAgent := !retrying && !panel.listReadEarly && panel.gateOpen &&
    isValidLoadId panel.sshAgentNextLoadId
  let panel := if useAgent then
      let panel := { panel with
        sshAgentEpoch := toInt32 (panel.sshAgentEpoch + 1)
        sshAgentLoadId := panel.sshAgentNextLoadId
        sshAgentNextLoadId := ""
        sshAgentLoadActive := true }
      panel.write (.keyLoadBegin panel.sshAgentEpoch panel.sshAgentLoadId)
    else panel
  { panel with listAgentBranchActive := useAgent, listRunning := true }

def loadItems (context : ReadContext) : KeyLoads :=
  if !context.session then panel else
  -- The early read for this vault is still running: it serves this request.
  if panel.listRunning && panel.listReadEarly && !context.stale then panel else
  if context.blocked then panel else panel.startVaultListRead false

/-! ### The vault's transitions -/

inductive LifecycleEvent
  | lock
  | screenLock
  | suspend
  | logout
  | accountChange
  | unlock
  | sync
  | startup
  | disable
  | shutdown
  deriving DecidableEq, Repr

structure LifecycleAction where
  controlLines : List LoadLine
  cancelLoad : Bool
  startLoad : Bool
  stopHelper : Bool
  advanceEpoch : Bool
  deriving DecidableEq, Repr

/-- `live`: the agent is enabled and its helper serves. -/
def sshAgentLifecycleTransition (live unlocked : Bool) (epoch : ℤ) :
    LifecycleEvent → LifecycleAction
  | .disable | .shutdown => ⟨[], true, false, true, false⟩
  | .lock | .screenLock | .suspend =>
    ⟨if live then [.vaultLocked epoch] else [], true, false, false, false⟩
  -- The companion moves its epoch past the last one on logout, so the next load must start
  -- beyond that.
  | .logout | .accountChange => ⟨if live then [.vaultLoggedOut] else [], true, false, false, live⟩
  | .unlock | .sync | .startup => ⟨[], false, live && unlocked, false, false⟩

def stopSshAgentHelper : KeyLoads :=
  if !panel.helperRunning then panel
  else { (panel.write .shutdown) with stdinEnabled := false }

/-- Every vault transition reaches the companion here: work in flight is cancelled, then the
lines are written. -/
def applySshAgentLifecycle (event : LifecycleEvent) (context : ReadContext) :
    KeyLoads :=
  let action := sshAgentLifecycleTransition panel.gateOpen panel.unlocked panel.sshAgentEpoch event
  let panel := if action.cancelLoad then panel.cancelSshAgentLoad else panel
  let panel := action.controlLines.foldl write panel
  let panel := if action.advanceEpoch then
      { panel with sshAgentEpoch := toInt32 (panel.sshAgentEpoch + 1) }
    else panel
  let panel := if action.stopHelper then panel.stopSshAgentHelper else panel
  if action.startLoad && !panel.listRunning then panel.loadItems context else panel

/-- Once per vault epoch, when the helper serves and the vault is unlocked. -/
def maybeStartupLoad (context : ReadContext) : KeyLoads :=
  if !panel.gateOpen || !panel.unlocked then panel else
  if panel.sshAgentLoadActive || panel.listRunning then panel else
  if !context.owed then panel else
  if !isValidLoadId panel.sshAgentNextLoadId then panel.primeSshAgentLoadId else
  panel.applySshAgentLifecycle .startup context

def keepNonce (candidate : String) : KeyLoads :=
  { panel with
    loadIdProc := .exiting
    sshAgentNextLoadId := if isValidLoadId candidate then candidate else "" }

def onSshAgentLoadIdRead (raw : String) (context : ReadContext) : KeyLoads :=
  let panel := panel.keepNonce (trimText raw)
  if panel.sshAgentNextLoadId ≠ "" then panel.maybeStartupLoad context else panel

def listEnded : KeyLoads :=
  { panel with listRunning := false, listAgentBranchActive := false, listReadEarly := false }

def setRetried (value : Bool) : KeyLoads :=
  { panel with listRetriedWithoutAgent := value }

def onListProcessExited (success : Bool) (context : ReadContext) : KeyLoads :=
  let hadAgentBranch := panel.listAgentBranchActive
  let wasEarly := panel.listReadEarly
  let panel := panel.listEnded.endSshAgentLoad success
  if success then
    let panel := panel.setRetried false
    if context.stale then panel else panel.maybeStartupLoad context
  -- The agent must never cost the item list: retry once without it.
  else if hadAgentBranch && !panel.listRetriedWithoutAgent && !context.stale then
    (panel.setRetried true).startVaultListRead true
  else
    let panel := panel.setRetried false
    if wasEarly && panel.unlocked && !context.stale then panel.startVaultListRead false else panel

/-! ### The supervised helper -/

def onSshAgentGateOpenChanged : KeyLoads :=
  if panel.gateOpen then
    (panel.write (.options panel.unlockOnDemand)).primeSshAgentLoadId
  else panel.endSshAgentLoad false

/-- A new process reads from a new stdin. -/
def startSshAgentHelper : KeyLoads :=
  let panel := { panel with stdinEnabled := true }
  if panel.helperRunning then panel
  else { panel with
    helperRunning := true, helperStarted := false, launches := panel.launches + 1, written := [] }

/-- The state is committed first, and the gate's handler runs with it. -/
def commit (supervisor : Supervisor) : KeyLoads :=
  if supervisor.gateOpen ≠ panel.gateOpen then
    ({ panel with supervisor := supervisor } : KeyLoads).onSshAgentGateOpenChanged
  else { panel with supervisor := supervisor }

def applySshAgentEvent (jsonParse : Text → Option Json) (panel : KeyLoads)
    (event : SupervisorEvent) : KeyLoads :=
  let step := sshAgentReduce jsonParse panel.supervisor event
  let panel := panel.commit step.1
  let panel := if step.2.stop then panel.stopSshAgentHelper else panel
  let panel := if step.2.writeHello then panel.write .hello else panel
  if step.2.start then panel.startSshAgentHelper else panel

/-! ### Events -/

inductive PanelEvent
  | supervisable (value : Bool) (nowMs : ℤ)
  | started (nowMs : ℤ)
  | handshakeTimeout (nowMs : ℤ)
  | line (text : Text) (nowMs : ℤ)
  /-- The helper's process is gone. -/
  | helperGone
  /-- Its exit is told, at once or after the lock has been probed. -/
  | exited (lockHeld : Bool) (nowMs : ℤ)
  | restartTimer (nowMs : ℤ)
  | loadItems (context : ReadContext)
  | listExited (success : Bool) (context : ReadContext)
  | loadIdRead (raw : String) (context : ReadContext)
  | loadIdExited
  | maybeStartupLoad (context : ReadContext)
  | status (unlocked : Bool)
  | lifecycle (event : LifecycleEvent) (context : ReadContext)
  | unlockOnDemand (value : Bool)
  /-- The screen is locked: no grant outlives it. -/
  | screenLocked
  | answer (message : Answer)
  deriving DecidableEq, Repr

/-- When an event can come: a process starts once and writes nothing before, a process is gone
that was there, and a nonce is read by the process that reads one. -/
def possible : PanelEvent → Bool
  | .started _ => panel.helperRunning && !panel.helperStarted
  | .line _ _ => panel.helperStarted
  | .helperGone => panel.helperRunning
  | .loadIdRead _ _ => panel.loadIdProc = .reading
  | _ => true

def handle (jsonParse : Text → Option Json) (panel : KeyLoads) : PanelEvent → KeyLoads
  | .supervisable value nowMs => panel.applySshAgentEvent jsonParse ⟨.enabled value, nowMs⟩
  | .started nowMs =>
    { panel with helperStarted := true }.applySshAgentEvent jsonParse ⟨.started, nowMs⟩
  | .handshakeTimeout nowMs => panel.applySshAgentEvent jsonParse ⟨.handshakeTimeout, nowMs⟩
  | .line text nowMs => panel.applySshAgentEvent jsonParse ⟨.line text, nowMs⟩
  | .helperGone => { panel with helperRunning := false }
  | .exited lockHeld nowMs => panel.applySshAgentEvent jsonParse ⟨.exited lockHeld, nowMs⟩
  | .restartTimer nowMs => panel.applySshAgentEvent jsonParse ⟨.restartTimer, nowMs⟩
  | .loadItems context => panel.loadItems context
  | .listExited success context => panel.onListProcessExited success context
  | .loadIdRead raw context => panel.onSshAgentLoadIdRead raw context
  | .loadIdExited => { panel with loadIdProc := .idle }
  | .maybeStartupLoad context => panel.maybeStartupLoad context
  | .status unlocked => { panel with unlocked := unlocked }
  | .lifecycle event context => panel.applySshAgentLifecycle event context
  | .unlockOnDemand value => { panel with unlockOnDemand := value }.write (.options value)
  | .screenLocked => panel.write (.answer ⟨.revokeGrants, rfl⟩)
  | .answer message => panel.write (.answer message)

end KeyLoads

end QsBitwarden.Panel
