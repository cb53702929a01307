import QsBitwarden.Lib.Maps

/-! Owns the panel's vault reads (`VaultProcess.qml` and the readers of `Service.qml`): the
processes that run them in the helper, the epoch stamps, the scrub a lock starts, and the
handlers that apply an answer. What a handler shows is recorded as the epochs its runs were
started under. It does not own what the answers contain or the sends, codes and deletes. -/

namespace QsBitwarden.Panel

open Lib

/-! ### Readers and their processes -/

/-- The names the stamps are kept under. -/
inductive Reader
  | items
  | organizations
  | folders
  | allCollections
  | detail
  | attachment
  | itemSave
  deriving DecidableEq, Repr

inductive Proc
  | list
  | listOrgs
  | listFolders
  | listCollections
  | getItem
  | attachment
  | createItem
  | editItem
  deriving DecidableEq, Repr

/-- The stamp a process's answer is checked against. -/
def Proc.reader : Proc → Reader
  | .list => .items
  | .listOrgs => .organizations
  | .listFolders => .folders
  | .listCollections => .allCollections
  | .getItem => .detail
  | .attachment => .attachment
  | .createItem => .itemSave
  | .editItem => .itemSave

/-- The readers' part of `secretProcesses`, in its order. -/
def secretProcesses : List Proc :=
  [.list, .listOrgs, .listFolders, .listCollections, .getItem, .createItem, .editItem, .attachment]

/-- All that matters of a command line. -/
inductive CommandLine
  | read
  | scrub
  deriving DecidableEq, Repr

/-- The run in flight: none, a scrub run here (with the epoch it started under), or the
helper's run of this id. -/
inductive RunId
  | none
  | here (started : ℕ)
  | helper (id : ℕ)
  deriving DecidableEq, Repr

structure VaultProcess where
  command : CommandLine
  running : Bool
  runId : RunId
  deriving DecidableEq, Repr

inductive HelperState
  | pending
  | starting
  | active
  | stopped
  deriving DecidableEq, Repr

/-- What the panel shows of the vault. -/
inductive View
  | items
  | organizations
  | folders
  | collections
  | detail
  deriving DecidableEq, Repr

/-- What a run of the panel leaves on record, most recent first. -/
inductive Entry
  /-- A reader was stamped while runs started under these epochs were in flight for it. -/
  | stamped (reader : Reader) (epoch : ℕ) (inFlight : List ℕ)
  /-- An answer of a run started under one epoch was taken under another. -/
  | applied (reader : Reader) (started epoch : ℕ)
  /-- The vault state was dropped; the epoch after it. -/
  | dropped (epoch : ℕ)
  deriving DecidableEq, Repr

structure VaultReads where
  vaultEpoch : ℕ
  /-- There is a session key. -/
  session : Bool
  unlocked : Bool
  readEpochs : Reader → Option ℤ
  procs : Proc → VaultProcess
  /-- Run id to its process and the epoch it was started under. -/
  vaultRuns : AList fun _ : ℕ => Proc × ℕ
  vaultRunSeq : ℕ
  vaultWaiting : List Proc
  vaultHelperState : HelperState
  /-- The helper's process is there. -/
  vaultHelperRunning : Bool
  scrubPending : List Proc
  listReadEarly : Bool
  listAgentBranchActive : Bool
  listRetriedWithoutAgent : Bool
  pendingSave : Bool
  attachmentBusy : Bool
  /-- The epochs under which the runs were started whose output is shown. -/
  shown : View → List ℕ
  log : List Entry

namespace VaultReads

def initial : VaultReads where
  vaultEpoch := 0
  session := false
  unlocked := false
  readEpochs _ := none
  procs _ := ⟨.read, false, .none⟩
  vaultRuns := ∅
  vaultRunSeq := 0
  vaultWaiting := []
  vaultHelperState := .pending
  vaultHelperRunning := false
  scrubPending := []
  listReadEarly := false
  listAgentBranchActive := false
  listRetriedWithoutAgent := false
  pendingSave := false
  attachmentBusy := false
  shown _ := []
  log := []

variable (panel : VaultReads)

def setProc (proc : Proc) (state : VaultProcess) : VaultReads :=
  { panel with procs := fun other => if other = proc then state else panel.procs other }

def display (view : View) (epochs : List ℕ) : VaultReads :=
  { panel with shown := fun other => if other = view then epochs else panel.shown other }

def record (panel : VaultReads) (entry : Entry) : VaultReads :=
  { panel with log := entry :: panel.log }

/-! ### Stamps -/

def setStamp (reader : Reader) (stamp : ℤ) : VaultReads :=
  { panel with readEpochs := fun other =>
      if other = reader then some stamp else panel.readEpochs other }

/-- The epochs under which a process's runs in flight were started. -/
def inFlight (proc : Proc) : List ℕ :=
  (match (panel.procs proc).runId with
    | .here started => [started]
    | _ => []) ++
  panel.vaultRuns.entries.filterMap fun entry => if entry.2.1 = proc then some entry.2.2 else none

def beginVaultRead (reader : Reader) : VaultReads :=
  (panel.setStamp reader panel.vaultEpoch).record
    (.stamped reader panel.vaultEpoch
      ((secretProcesses.filter (·.reader = reader)).flatMap panel.inFlight))

def invalidateEpochOperation (reader : Reader) : VaultReads :=
  panel.setStamp reader (panel.vaultEpoch - 1)

def vaultReadIsStale (reader : Reader) : Bool :=
  panel.readEpochs reader ≠ some (panel.vaultEpoch : ℤ) || !panel.session

/-! ### Runs -/

/-- Until the helper is up, runs wait. -/
def vaultStart (proc : Proc) : VaultReads :=
  if panel.vaultHelperState = .active ∧ panel.vaultHelperRunning then
    let id := panel.vaultRunSeq + 1
    { panel with
      vaultRunSeq := id
      vaultRuns := panel.vaultRuns.insert id (proc, panel.vaultEpoch) }.setProc proc
      { panel.procs proc with runId := .helper id }
  else if proc ∈ panel.vaultWaiting then panel
  else { panel with vaultWaiting := panel.vaultWaiting ++ [proc] }

/-- A scrub runs here; anything else goes to the helper. -/
def start (proc : Proc) : VaultReads :=
  if (panel.procs proc).command = .scrub then
    panel.setProc proc { panel.procs proc with runId := .here panel.vaultEpoch }
  else panel.vaultStart proc

/-- A stopped run ends when its exit arrives. -/
def vaultKill (proc : Proc) : VaultReads :=
  match (panel.procs proc).runId with
  | .none => { panel with vaultWaiting := panel.vaultWaiting.filter (· ≠ proc) }
  | _ => panel

/-- Assigning `running` does something only when it changes, and a start only when no run
is in flight. -/
def setRunning (proc : Proc) (running : Bool) : VaultReads :=
  if (panel.procs proc).running = running then panel
  else
    let panel := panel.setProc proc { panel.procs proc with running := running }
    if running ∧ (panel.procs proc).runId = .none then panel.start proc
    else if ¬running ∧ (panel.procs proc).runId ≠ .none then panel.vaultKill proc
    else panel

/-- A command and then `running = true`, as every reader starts its process. -/
def launch (proc : Proc) (command : CommandLine) : VaultReads :=
  (panel.setProc proc { panel.procs proc with command := command }).setRunning proc true

/-! ### Scrubs -/

/-- One process of a pass: those that run are left for the next. -/
def scrubOne (proc : Proc) : VaultReads :=
  if (panel.procs proc).running ∨ (panel.procs proc).command = .scrub then panel
  else panel.launch proc .scrub

/-- The processes left over are those that run and those just started. -/
def scrubStep : VaultReads :=
  let waiting := panel.scrubPending.filter fun proc =>
    (panel.procs proc).running || (panel.procs proc).command ≠ .scrub
  { panel.scrubPending.foldl scrubOne panel with scrubPending := waiting }

def scrubSecretBuffers : VaultReads :=
  { panel with scrubPending := secretProcesses }.scrubStep

/-! ### Reading the vault -/

/-- `useAgent` says whether the agent's gate is open with a load id ready. -/
def startVaultListRead (retrying useAgent : Bool) : VaultReads :=
  let early := !panel.unlocked
  { panel with
    listReadEarly := early
    listAgentBranchActive := !retrying && !early && useAgent }.launch .list .read

def loadItems (blocked useAgent : Bool) : VaultReads :=
  if !panel.session then panel
  else if (panel.procs .list).running ∧ panel.listReadEarly ∧ ¬panel.vaultReadIsStale .items then
    panel
  else
    let panel := panel.beginVaultRead .items
    if blocked then panel else panel.startVaultListRead false useAgent

/-- `loadOrganizations`, `loadFolders` and `loadCollections`; `fresh` if what is shown is
recent and nothing forces a read. -/
def loadMetadata (proc : Proc) (fresh : Bool) : VaultReads :=
  if !panel.session ∨ fresh then panel
  else (panel.beginVaultRead proc.reader).launch proc .read

def loadOrganizations (fresh : Bool) : VaultReads := panel.loadMetadata .listOrgs fresh
def loadFolders (fresh : Bool) : VaultReads := panel.loadMetadata .listFolders fresh
def loadCollections (fresh : Bool) : VaultReads :=
  panel.loadMetadata .listCollections fresh

/-- How a row's detail is had: from the list's own object, not at all for an SSH record,
from the row while the helper keeps the secrets, or from a read. -/
inductive DetailSource
  | listed
  | sshRecord
  | held
  | fetched
  deriving DecidableEq, Repr

def openDetail (source : DetailSource) : VaultReads :=
  let panel := panel.display .detail []
  match source with
  | .listed => panel.display .detail (panel.shown .items)
  | .sshRecord => panel.beginVaultRead .detail
  | .held => (panel.beginVaultRead .detail).display .detail (panel.shown .items)
  | .fetched => (panel.beginVaultRead .detail).launch .getItem .read

def pumpAttachmentQueue : VaultReads :=
  if panel.attachmentBusy ∨ !panel.session then panel
  else ({ panel with attachmentBusy := true }.beginVaultRead .attachment).launch .attachment .read

def cancelAttachmentDownloads : VaultReads :=
  ({ panel with attachmentBusy := false }.invalidateEpochOperation .attachment).setRunning
    .attachment false

/-- One save at a time, whichever process runs it. -/
def saveItemForm (editing : Bool) : VaultReads :=
  if panel.pendingSave then panel
  else
    let panel := { panel.beginVaultRead .itemSave with pendingSave := true }
    panel.launch (if editing then .editItem else .createItem) .read

/-! ### Answers -/

/-- An answer is taken, and what it says is shown. -/
def apply (reader : Reader) (started : ℕ) : VaultReads :=
  panel.record (.applied reader started panel.vaultEpoch)

def onListProcessExited (started : ℕ) (code : ℤ) (useAgent : Bool) : VaultReads :=
  let hadAgentBranch := panel.listAgentBranchActive
  let wasEarly := panel.listReadEarly
  let panel := { panel with listAgentBranchActive := false, listReadEarly := false }
  if code = 0 then
    let panel := { panel with listRetriedWithoutAgent := false }
    if panel.vaultReadIsStale .items then panel
    else (panel.apply .items started).display .items [started]
  else if hadAgentBranch ∧ ¬panel.listRetriedWithoutAgent ∧ ¬panel.vaultReadIsStale .items then
    ({ panel with listRetriedWithoutAgent := true }.beginVaultRead .items).startVaultListRead
      true useAgent
  else
    let panel := { panel with listRetriedWithoutAgent := false }
    if wasEarly ∧ panel.unlocked ∧ ¬panel.vaultReadIsStale .items then
      (panel.beginVaultRead .items).startVaultListRead false useAgent
    else panel

/-- `onListOrgsFinished`, `onListFoldersFinished`, `onListCollectionsFinished` and
`onDetailFinished`, which are called for code 0; an unreadable detail shows nothing. -/
def onRead (reader : Reader) (view : View) (started : ℕ) (code : ℤ)
    (readable : Bool) : VaultReads :=
  if code ≠ 0 ∨ panel.vaultReadIsStale reader then panel
  else
    let panel := panel.apply reader started
    if readable then panel.display view [started] else panel

def onAttachmentDownloaded (started : ℕ) : VaultReads :=
  let panel := { panel with attachmentBusy := false }
  if panel.vaultReadIsStale .attachment then panel else panel.apply .attachment started

/-- A saved item is put into the list; if its text is not recognised the list is read
again. -/
def onSaveItemFinished (started : ℕ) (code : ℤ) (readable blocked useAgent : Bool) : VaultReads :=
  let panel := { panel with pendingSave := false }
  if panel.vaultReadIsStale .itemSave then panel
  else
    let panel := panel.apply .itemSave started
    if code ≠ 0 then panel
    else if readable then panel.display .items (started :: panel.shown .items)
    else panel.loadItems blocked useAgent

/-- What comes with an exit: whether the text is recognised, and what a list read that
follows finds. -/
structure Answer where
  code : ℤ
  readable : Bool
  blocked : Bool
  useAgent : Bool
  deriving DecidableEq, Repr

/-- The `exited` handler of each process: a scrub's answer is asked about first. -/
def onExited (proc : Proc) (started : ℕ) (answer : Answer) : VaultReads :=
  if (panel.procs proc).command = .scrub then
    { panel with scrubPending := panel.scrubPending.filter (· ≠ proc) }
  else match proc with
    | .list => panel.onListProcessExited started answer.code answer.useAgent
    | .listOrgs => panel.onRead .organizations .organizations started answer.code true
    | .listFolders => panel.onRead .folders .folders started answer.code true
    | .listCollections => panel.onRead .allCollections .collections started answer.code true
    | .getItem => panel.onRead .detail .detail started answer.code answer.readable
    | .attachment => panel.onAttachmentDownloaded started
    | .createItem =>
      panel.onSaveItemFinished started answer.code answer.readable answer.blocked answer.useAgent
    | .editItem =>
      panel.onSaveItemFinished started answer.code answer.readable answer.blocked answer.useAgent

/-- The process is idle before its handler is called. -/
def finish (proc : Proc) (started : ℕ) (answer : Answer) : VaultReads :=
  (panel.setProc proc { panel.procs proc with running := false, runId := .none }).onExited proc
    started answer

/-- The helper's `exit` message. -/
def onRunExited (id : ℕ) (answer : Answer) : VaultReads :=
  match panel.vaultRuns.lookup id with
  | none => panel
  | some (proc, started) =>
    { panel with vaultRuns := panel.vaultRuns.erase id }.finish proc started answer

/-- The end of a scrub run here, ignored if another run took its place. -/
def onLocalExited (proc : Proc) (answer : Answer) : VaultReads :=
  match (panel.procs proc).runId with
  | .here started => panel.finish proc started answer
  | _ => panel

/-! ### The vault's life -/

def dropVaultState : VaultReads :=
  let panel := panel.cancelAttachmentDownloads
  { panel with
    session := false
    vaultEpoch := panel.vaultEpoch + 1
    readEpochs := fun _ => none
    shown := fun _ => []
    log := .dropped (panel.vaultEpoch + 1) :: panel.log }.scrubSecretBuffers

/-- Lock, logout, a switch of account, or a status that finds the vault closed. -/
def closeVault : VaultReads := { panel.dropVaultState with unlocked := false }

/-- An unlock, a sign-in handed over by a terminal (both confirmed), or a remembered
session that `bw status` has not confirmed yet. -/
def adoptSession (confirmed : Bool) : VaultReads :=
  { panel with
    session := true
    vaultEpoch := panel.vaultEpoch + 1
    unlocked := panel.unlocked || confirmed }

/-- A password check that minted a new key for the unlocked vault. -/
def replaceSession : VaultReads :=
  if panel.unlocked then { panel with session := true } else panel

def confirmSession : VaultReads := { panel with unlocked := true }

/-! ### The helper's life -/

def flushOne (proc : Proc) : VaultReads :=
  if (panel.procs proc).running then panel.vaultStart proc else panel

def onHelperReady : VaultReads :=
  if panel.vaultHelperState = .starting then
    panel.vaultWaiting.foldl flushOne { panel with vaultHelperState := .active, vaultWaiting := [] }
  else panel

/-- Runs of a helper that is gone fail. Each leaves the list as it fails: nothing reads the
list in between. -/
def failRuns (ids : List ℕ) : VaultReads :=
  ids.foldl (fun panel id => panel.onRunExited id ⟨1, false, false, false⟩) panel

/-- The vault is locked before the runs fail. -/
def onHelperExited : VaultReads :=
  let unexpected := panel.vaultHelperState = .active ∨ panel.vaultHelperState = .starting
  let panel := if unexpected then { panel with vaultHelperState := .starting } else panel
  let panel := { panel with vaultHelperRunning := false }
  let panel := if unexpected ∧ panel.session then panel.closeVault else panel
  panel.failRuns panel.vaultRuns.keys

/-! ### Events -/

inductive Event
  | loadItems (blocked useAgent : Bool)
  | loadOrganizations (fresh : Bool)
  | loadFolders (fresh : Bool)
  | loadCollections (fresh : Bool)
  | openDetail (source : DetailSource)
  | pumpAttachmentQueue
  | cancelAttachmentDownloads
  | saveItemForm (editing : Bool)
  /-- The agent's load is cancelled and with it the list read. -/
  | cancelSshAgentLoad
  | scrubRetry
  | closeVault
  | adoptSession (confirmed : Bool)
  | replaceSession
  | confirmSession
  | runExited (id : ℕ) (answer : Answer)
  | localExited (proc : Proc) (answer : Answer)
  | helperStarting
  | helperReady
  /-- The helper's process ends; the panel hears of it later. -/
  | helperDied
  | helperExited
  /-- Given up on, or asked to be checked again. -/
  | helperStopped
  | helperPending
  deriving DecidableEq, Repr

def handle : Event → VaultReads
  | .loadItems blocked useAgent => panel.loadItems blocked useAgent
  | .loadOrganizations fresh => panel.loadOrganizations fresh
  | .loadFolders fresh => panel.loadFolders fresh
  | .loadCollections fresh => panel.loadCollections fresh
  | .openDetail source => panel.openDetail source
  | .pumpAttachmentQueue => panel.pumpAttachmentQueue
  | .cancelAttachmentDownloads => panel.cancelAttachmentDownloads
  | .saveItemForm editing => panel.saveItemForm editing
  | .cancelSshAgentLoad =>
    { panel.setRunning .list false with
      listAgentBranchActive := false
      listRetriedWithoutAgent := false }
  | .scrubRetry => panel.scrubStep
  | .closeVault => panel.closeVault
  | .adoptSession confirmed => panel.adoptSession confirmed
  | .replaceSession => panel.replaceSession
  | .confirmSession => panel.confirmSession
  | .runExited id answer => panel.onRunExited id answer
  | .localExited proc answer => panel.onLocalExited proc answer
  | .helperStarting => { panel with vaultHelperState := .starting, vaultHelperRunning := true }
  | .helperReady => panel.onHelperReady
  | .helperDied => { panel with vaultHelperRunning := false }
  | .helperExited => panel.onHelperExited
  | .helperStopped => { panel with vaultHelperState := .stopped }
  | .helperPending => { panel with vaultHelperState := .pending }

end VaultReads

end QsBitwarden.Panel
