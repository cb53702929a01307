import QsBitwarden.Lib.History
import Mathlib.Tactic.SplitIfs

/-! Owns `VaultProcess.qml` and what the service keeps for one such process: its place in
`vaultWaiting` and in `vaultRuns`, and the helper's coming and going. A signal handler may write
to the process wherever one runs, so the two loops over processes are taken step by step. It does
not own what the commands are or what becomes of their output. -/

namespace QsBitwarden.Runs

open Lib List Option

/-- `vaultHelperState`. -/
inductive HelperState
  | pending
  | starting
  | active
  | fallback
  | stopped
  deriving DecidableEq, Repr

/-- `runId`: 0, the helper's id, or -1. -/
inductive RunId
  | none
  | helper (id : ℕ)
  | here
  deriving DecidableEq, Repr

/-- Calls that wait in `Qt.callLater`. -/
inductive Deferred
  | launchLocal (scrub : Bool) (seq launch : ℕ)
  | missingPinentry (launch : ℕ)
  | clearCollectors
  | startVaultHelper
  | retryVaultHelper
  deriving DecidableEq, Repr

/-- The launch that a call begins or ends. -/
def Deferred.launch : Deferred → Option ℕ
  | .launchLocal _ _ launch => some launch
  | .missingPinentry launch => some launch
  | _ => none

/-- A run is known by its launch: how often the caller had turned `running` on by then. -/
structure VaultProcess where
  running : Bool
  /-- Whether `command` is a scrub and `capture` a pinentry's. -/
  scrub : Bool
  pinentry : Bool
  runId : RunId
  startSeq : ℕ
  /-- The launch of the process that runs here, 0 for the clearing of its collectors, and
  whether the command set last is a scrub. -/
  localRun : Option ℕ
  localScrub : Bool
  helper : HelperState
  helperRunning : Bool
  readyTimedOut : Bool
  retryPending : Bool
  restarts : ℕ
  shuttingDown : Bool
  vaultRunSeq : ℕ
  vaultRuns : List (ℕ × ℕ)
  vaultWaiting : Bool
  /-- What the loops have yet to do: a place in `flushVaultWaiting`, and the runs that
  `onVaultHelperExited` fails, with whether the exit was unexpected. -/
  flushing : Bool
  failing : List (ℕ × ℕ)
  exiting : Option Bool
  later : List Deferred
  /-- How often the caller has turned `running` on. -/
  changes : ℕ
  deriving DecidableEq, Repr

namespace VaultProcess

def initial : VaultProcess where
  running := false
  scrub := false
  pinentry := false
  runId := .none
  startSeq := 0
  localRun := none
  localScrub := false
  helper := .pending
  helperRunning := false
  readyTimedOut := false
  retryPending := false
  restarts := 0
  shuttingDown := false
  vaultRunSeq := 0
  vaultRuns := []
  vaultWaiting := false
  flushing := false
  failing := []
  exiting := none
  later := []
  changes := 0

/-- Lines to the helper, and the signal with the launch whose end it reports. -/
inductive Emitted
  | exec (id : ℕ)
  | kill (id : ℕ)
  | exited (launch : ℕ)
  deriving DecidableEq, Repr

inductive Event
  /-- The caller writes `running`, or sets the command and the capture. -/
  | write (value : Bool)
  | configure (scrub pinentry : Bool)
  | inspected (ready path : Bool)
  | ready
  | exit (id : ℕ)
  | helperExited
  | readyTimeout
  | settled
  | retry
  | localExited
  /-- The next call of `Qt.callLater`. -/
  | deferred (path : Bool)
  | flushNext
  | failNext
  | exitHandled
  /-- Another process starts a run. -/
  | otherStarted
  | shutDown
  deriving DecidableEq, Repr

def vaultHelperMaxRestarts : ℕ := 3

section Functions

variable (proc : VaultProcess)

/-! ### The process -/

def finish (launch : ℕ) : List Emitted × VaultProcess :=
  ([.exited launch], { proc with runId := .none, running := false })

def launchLocal (scrub : Bool) (seq launch : ℕ) : List Emitted × VaultProcess :=
  if seq ≠ proc.startSeq then ([], proc)
  else if !proc.running then proc.finish launch
  else if proc.localRun.isSome then
    ([], { proc with later := proc.later ++ [.launchLocal scrub seq launch] })
  else ([], { proc with runId := .here, localRun := some launch, localScrub := scrub })

def waits : Bool :=
  match proc.helper with
  | .pending | .starting | .stopped => true
  | .active => !proc.helperRunning
  | .fallback => false

def vaultStart : List Emitted × VaultProcess :=
  if proc.waits then ([], { proc with vaultWaiting := true })
  else if proc.helper ≠ .active then
    if proc.pinentry then
      ([], { proc with later := proc.later ++ [.missingPinentry proc.changes] })
    else proc.launchLocal proc.scrub proc.startSeq proc.changes
  else
    ([.exec (proc.vaultRunSeq + 1)],
      { proc with
        vaultRunSeq := proc.vaultRunSeq + 1
        vaultRuns := (proc.vaultRunSeq + 1, proc.changes) :: proc.vaultRuns
        runId := .helper (proc.vaultRunSeq + 1) })

/-- Starting a process that already runs changes nothing but the command. -/
def startScrub : VaultProcess :=
  { proc with
    runId := .here
    localScrub := true
    localRun := if proc.localRun.getD 0 = 0 then some proc.changes else proc.localRun }

def start : List Emitted × VaultProcess :=
  let proc := { proc with startSeq := proc.startSeq + 1 }
  if proc.scrub then ([], proc.startScrub) else proc.vaultStart

def vaultKill : List Emitted × VaultProcess :=
  match proc.runId with
  | .helper id => (if proc.helper = .active then [.kill id] else [], proc)
  | .here => ([], proc)
  | .none => ([], { proc with vaultWaiting := false })

/-- A write that changes `running`, and `onRunningChanged`. -/
def turnOn : List Emitted × VaultProcess :=
  let proc := { proc with running := true, changes := proc.changes + 1 }
  if proc.runId = .none then proc.start else ([], proc)

def turnOff : List Emitted × VaultProcess :=
  let proc := { proc with running := false }
  if proc.runId ≠ .none then proc.vaultKill else ([], proc)

def write (value : Bool) : List Emitted × VaultProcess :=
  if proc.running = value then ([], proc)
  else if value then proc.turnOn
  else proc.turnOff

/-- `onExited` of the process that runs here. -/
def localExited : List Emitted × VaultProcess :=
  match proc.localRun with
  | none => ([], proc)
  | some launch =>
    let ended := { proc with
      localRun := none
      later := if proc.localScrub then proc.later else proc.later ++ [.clearCollectors] }
    if proc.localScrub ∧ proc.runId ≠ .here then ([], ended) else ended.finish launch

/-! ### The helper -/

/-- The loop's list is taken; `flushNext` is one turn of the loop. -/
def flushVaultWaiting : VaultProcess :=
  { proc with flushing := proc.vaultWaiting, vaultWaiting := false }

def flushNext : List Emitted × VaultProcess :=
  if proc.flushing then
    let proc := { proc with flushing := false }
    if proc.running then proc.vaultStart else ([], proc)
  else ([], proc)

variable (allowVaultWithoutHelper : Bool)

def useVaultFallback : VaultProcess :=
  if allowVaultWithoutHelper then flushVaultWaiting { proc with helper := .fallback }
  else { proc with helper := .stopped }

def startVaultHelper (path : Bool) : VaultProcess :=
  if path then { proc with helper := .starting, helperRunning := true }
  else proc.useVaultFallback allowVaultWithoutHelper

def inspected (ready path : Bool) : VaultProcess :=
  if proc.helper ≠ .pending then proc
  else if ready then proc.startVaultHelper allowVaultWithoutHelper path
  else proc.useVaultFallback allowVaultWithoutHelper

def retryVaultHelper : VaultProcess :=
  if proc.helper ≠ .stopped then proc
  else if proc.readyTimedOut ∧ proc.helperRunning then { proc with retryPending := true }
  else
    { proc with
      readyTimedOut := false
      retryPending := false
      restarts := 0
      helper := .pending }

def readyTimeout : VaultProcess :=
  if proc.helper ≠ .starting then proc
  else { proc with readyTimedOut := proc.helperRunning, helper := .stopped }

def ready : VaultProcess :=
  if proc.helper ≠ .starting ∨ proc.readyTimedOut then proc
  else flushVaultWaiting { proc with helper := .active }

def exit (id : ℕ) : List Emitted × VaultProcess :=
  match proc.vaultRuns.find? (·.1 = id) with
  | none => ([], proc)
  | some run => finish { proc with vaultRuns := proc.vaultRuns.erase run } run.2

/-- The runs it had are failed by `failNext`, one a turn; `exitHandled` is what follows the
loop. -/
def helperExited : VaultProcess :=
  let proc := { proc with helperRunning := false }
  if proc.readyTimedOut then
    { proc with
      readyTimedOut := false
      later := if proc.retryPending ∧ !proc.shuttingDown then proc.later ++ [.retryVaultHelper]
        else proc.later }
  else
    let unexpected : Bool := (proc.helper = .active ∨ proc.helper = .starting) ∧ !proc.shuttingDown
    { proc with
      helper := if unexpected then .starting else proc.helper
      failing := proc.vaultRuns
      vaultRuns := []
      exiting := some unexpected }

def failNext : List Emitted × VaultProcess :=
  match proc.failing with
  | [] => ([], proc)
  | run :: rest => finish { proc with failing := rest } run.2

def exitHandled : VaultProcess :=
  match proc.exiting, proc.failing with
  | some unexpected, [] =>
    let proc := { proc with exiting := none }
    if !unexpected then proc
    else if proc.restarts < vaultHelperMaxRestarts then
      { proc with
        restarts := proc.restarts + 1
        later := proc.later ++ [.startVaultHelper] }
    else { proc with helper := .stopped }
  | _, _ => proc

def settled : VaultProcess := if proc.helper = .active then { proc with restarts := 0 } else proc

/-! ### Events -/

def call (path : Bool) : Deferred → List Emitted × VaultProcess
  | .launchLocal scrub seq launch => proc.launchLocal scrub seq launch
  | .missingPinentry launch => proc.finish launch
  | .clearCollectors =>
    if proc.localRun.isSome then ([], proc)
    else ([], { proc with localRun := some 0, localScrub := true })
  | .startVaultHelper => ([], proc.startVaultHelper allowVaultWithoutHelper path)
  | .retryVaultHelper => ([], proc.retryVaultHelper)

def deferred (path : Bool) : List Emitted × VaultProcess :=
  match proc.later with
  | [] => ([], proc)
  | next :: rest => call { proc with later := rest } allowVaultWithoutHelper path next

/-- What only a new turn of the event loop brings. -/
def turn : Event → List Emitted × VaultProcess
  | .inspected ready path => ([], proc.inspected allowVaultWithoutHelper ready path)
  | .ready => ([], proc.ready)
  | .exit id => proc.exit id
  | .helperExited => ([], proc.helperExited)
  | .readyTimeout => ([], proc.readyTimeout)
  | .settled => ([], proc.settled)
  | .retry => ([], proc.retryVaultHelper)
  | .localExited => proc.localExited
  | .deferred path => proc.deferred allowVaultWithoutHelper path
  | _ => ([], proc)

/-- A loop over processes runs to its end before anything else; handlers write in between. -/
def perform : Event → List Emitted × VaultProcess
  | .write value => proc.write value
  | .configure scrub pinentry => ([], { proc with scrub := scrub, pinentry := pinentry })
  | .flushNext => proc.flushNext
  | .failNext => proc.failNext
  | .exitHandled => ([], proc.exitHandled)
  | .otherStarted => ([], { proc with vaultRunSeq := proc.vaultRunSeq + 1 })
  | .shutDown => ([], { proc with shuttingDown := true })
  | event =>
    if proc.flushing ∨ proc.exiting.isSome then ([], proc)
    else proc.turn allowVaultWithoutHelper event

end Functions

/-! ### Runs that have not been reported -/

/-- The launch that runs here, 0 if there is none. -/
def localLaunch (proc : VaultProcess) : ℕ := proc.localRun.getD 0

/-- The launches in flight or waiting. -/
def pending (proc : VaultProcess) : List ℕ :=
  (if proc.vaultWaiting then [proc.changes] else []) ++
    (if proc.flushing then [proc.changes] else []) ++
    proc.vaultRuns.map (·.2) ++ proc.failing.map (·.2) ++
    (if proc.localLaunch = 0 then [] else [proc.localLaunch]) ++
    proc.later.filterMap Deferred.launch

def Emitted.launch : Emitted → Option ℕ
  | .exited launch => some launch
  | _ => none

/-- The launches whose end is reported. -/
def reports (emitted : List Emitted) : List ℕ := emitted.filterMap Emitted.launch

/-- Every write keeps to the order in which a run ends before the next starts. -/
def Orderly (proc : VaultProcess) (event : Event) : Prop :=
  (event = .write true → proc.running ∨ proc.pending = []) ∧
    (event = .write false → ¬(proc.vaultWaiting ∨ proc.flushing))

instance (proc : VaultProcess) (event : Event) : Decidable (Orderly proc event) :=
  inferInstanceAs (Decidable (_ ∧ _))

/-- The fields agree on where a run is. -/
structure Placed (proc : VaultProcess) : Prop where
  helped : ∀ id, proc.runId = .helper id → proc.vaultRuns ++ proc.failing ≠ []
  here : proc.runId = .here ↔ proc.localLaunch ≠ 0
  clears : proc.localRun = some 0 → proc.localScrub = true
  newest : ∀ scrub seq launch, Deferred.launchLocal scrub seq launch ∈ proc.later →
    seq = proc.startSeq
  wanted : proc.vaultWaiting ∨ proc.flushing → proc.running = true
  handled : proc.exiting = none → proc.failing = []

/-- There is one run at most, that of the latest launch. -/
structure Matched (proc : VaultProcess) : Prop extends Placed proc where
  few : proc.pending.length ≤ 1
  latest : ∀ launch ∈ proc.pending, launch = proc.changes
  counted : proc.pending ≠ [] → 0 < proc.changes

variable {proc : VaultProcess}

theorem pending_eq_nil : proc.pending = [] ↔
    proc.vaultWaiting = false ∧ proc.flushing = false ∧ proc.vaultRuns = [] ∧
      proc.failing = [] ∧ proc.localLaunch = 0 ∧ ∀ call ∈ proc.later, call.launch = none := by
  unfold pending
  simp only [append_eq_nil_iff, map_eq_nil_iff, filterMap_eq_nil_iff,
    ite_eq_right_iff, ite_eq_left_iff, cons_ne_nil, imp_false, Bool.not_eq_true, not_not,
    and_assoc]

theorem placed_of_idle (idle : proc.pending = [])
    (free : proc.runId = .none) (clears : proc.localRun = some 0 → proc.localScrub = true) :
    Placed proc := by
  obtain ⟨waiting, flushing, -, failing, here, calls⟩ := pending_eq_nil.mp idle
  constructor
  case helped => intro id taken; rw [free] at taken; cases taken
  case here =>
    rw [free, here]
    exact ⟨fun taken => RunId.noConfusion taken, fun nonzero => absurd rfl nonzero⟩
  case clears => exact clears
  case newest => intro scrub seq launch mem; cases calls _ mem
  case wanted =>
    rw [waiting, flushing]
    exact fun waits => absurd waits (by decide)
  case handled => exact fun _ => failing

/-- With no run there is nothing to match. -/
theorem matched_of_idle (idle : proc.pending = []) (placed : Placed proc) :
    Matched proc where
  toPlaced := placed
  few := by rw [idle]; exact Nat.zero_le 1
  latest := by rw [idle]; intro launch mem; cases mem
  counted := fun some => absurd idle some

/-- What a step may do: nothing is reported but the latest launch, and no launch is lost. -/
structure Kept (proc : VaultProcess) (outcome : List Emitted × VaultProcess) : Prop where
  matched : Matched outcome.2
  latest : ∀ launch ∈ reports outcome.1, launch = outcome.2.changes
  balance : (reports outcome.1).length + outcome.2.pending.length + proc.changes =
    proc.pending.length + outcome.2.changes

theorem Kept.trans {proc between : VaultProcess} {outcome : List Emitted × VaultProcess}
    (first : Kept proc ([], between)) (second : Kept between outcome) : Kept proc outcome where
  matched := second.matched
  latest := second.latest
  balance := by
    have one := first.balance
    have two := second.balance
    change 0 + between.pending.length + proc.changes =
      proc.pending.length + between.changes at one
    omega

/-- The same for a step that begins with one launch taken from where it waited. -/
structure Begun (proc : VaultProcess) (outcome : List Emitted × VaultProcess) : Prop where
  matched : Matched outcome.2
  latest : ∀ launch ∈ reports outcome.1, launch = proc.changes
  balance : (reports outcome.1).length + outcome.2.pending.length = 1
  changes : outcome.2.changes = proc.changes

theorem Begun.kept {proc proc' : VaultProcess} {outcome : List Emitted × VaultProcess}
    (begun : Begun proc' outcome) (changes : proc'.changes = proc.changes)
    (one : proc.pending.length = 1) : Kept proc outcome where
  matched := begun.matched
  latest := by
    rw [begun.changes]
    exact begun.latest
  balance := by rw [begun.balance, begun.changes, changes, one]

/-- One launch is pending afterwards. -/
theorem begun_of_one {proc after : VaultProcess} {emitted : List Emitted}
    (quiet : reports emitted = []) (one : after.pending = [proc.changes])
    (changes : after.changes = proc.changes) (counted : 0 < proc.changes)
    (placed : Placed after) : Begun proc (emitted, after) where
  matched :=
    { placed with
      few := by rw [one]; exact Nat.le_refl 1
      latest := by rw [one, changes]; exact fun launch mem => mem_singleton.mp mem
      counted := by rw [changes]; exact fun _ => counted }
  latest := by dsimp only; rw [quiet]; intro launch mem; cases mem
  balance := by dsimp only; rw [quiet, one]; rfl
  changes := changes

section Idle

variable {proc : VaultProcess} (idle : proc.pending = [])
  (clears : proc.localRun = some 0 → proc.localScrub = true)

include idle clears

theorem begun_finish : Begun proc (proc.finish proc.changes) where
  matched := matched_of_idle idle (placed_of_idle idle rfl clears)
  latest := by
    intro launch mem
    exact mem_singleton.mp mem
  balance := by
    have none : (proc.finish proc.changes).2.pending = [] := idle
    rw [none]
    rfl
  changes := rfl

variable (free : proc.runId = .none) (counted : 0 < proc.changes)

include free counted

/-- A process that runs here. -/
theorem begun_here (scrub : Bool) :
    Begun proc
      ([], { proc with runId := .here, localRun := some proc.changes, localScrub := scrub }) := by
  obtain ⟨waiting, flushing, runs, failing, -, calls⟩ := pending_eq_nil.mp idle
  have nonzero : proc.changes ≠ 0 := Nat.ne_of_gt counted
  refine begun_of_one rfl ?_ rfl counted
    { placed_of_idle idle free clears with
      helped := nofun
      here := ⟨fun _ => nonzero, fun _ => rfl⟩
      clears := fun clearing => absurd (Option.some.inj clearing) nonzero }
  unfold VaultProcess.pending localLaunch
  dsimp only [getD_some]
  rw [waiting, flushing, runs, failing, if_neg nonzero, filterMap_eq_nil_iff.mpr calls]
  rfl

/-- The scrub takes over a clearing that already runs. -/
theorem begun_startScrub : Begun proc ([], proc.startScrub) := by
  have adopted : proc.localRun.getD 0 = 0 := by
    obtain ⟨-, -, -, -, here, -⟩ := pending_eq_nil.mp idle
    exact here
  unfold startScrub
  rw [if_pos adopted]
  exact begun_here idle clears free counted true

/-- A call that waits. -/
theorem begun_deferred {call : Deferred} (launch : call.launch = some proc.changes)
    (newest : ∀ scrub seq launch, call = .launchLocal scrub seq launch → seq = proc.startSeq) :
    Begun proc ([], { proc with later := proc.later ++ [call] }) := by
  have placed := placed_of_idle idle free clears
  refine begun_of_one rfl ?_ rfl counted { placed with newest := ?_ }
  · have before := idle
    unfold VaultProcess.pending localLaunch at before ⊢
    dsimp only
    rw [filterMap_append, ← append_assoc, before]
    simp [launch]
  · intro scrub seq launch mem
    rcases mem_append.mp mem with before | last
    · exact placed.newest scrub seq launch before
    · exact newest scrub seq launch (mem_singleton.mp last).symm

theorem begun_launchLocal (scrub : Bool) :
    Begun proc (proc.launchLocal scrub proc.startSeq proc.changes) := by
  unfold launchLocal
  rw [if_neg (not_not.mpr rfl)]
  split_ifs
  · exact begun_finish idle clears
  · apply begun_deferred idle clears free counted rfl
    intro scrub seq launch same
    cases same
    rfl
  · exact begun_here idle clears free counted scrub

theorem begun_vaultStart (on : proc.running = true) : Begun proc proc.vaultStart := by
  obtain ⟨waiting, flushing, runs, failing, here, calls⟩ := pending_eq_nil.mp idle
  have placed := placed_of_idle idle free clears
  unfold vaultStart
  split_ifs
  · refine begun_of_one rfl ?_ rfl counted { placed with wanted := fun _ => on }
    unfold VaultProcess.pending
    simp [flushing, runs, failing]
    exact ⟨here, calls⟩
  · apply begun_deferred idle clears free counted rfl
    intro scrub seq launch same
    cases same
  · exact begun_launchLocal idle clears free counted proc.scrub
  · refine begun_of_one rfl ?_ rfl counted
      { placed with
        helped := fun _ _ => cons_ne_nil _ _
        here := ⟨nofun, fun nonzero => absurd here nonzero⟩ }
    unfold VaultProcess.pending
    simp [waiting, flushing, runs, failing]
    exact ⟨here, calls⟩

end Idle

section Steps

variable {proc : VaultProcess} (matched : Matched proc)

include matched

variable {rest : VaultProcess}

theorem Matched.taken (less : proc.pending.length = rest.pending.length + 1) :
    rest.pending = [] ∧ proc.pending.length = 1 ∧ 0 < proc.changes := by
  have few := matched.few
  have none : rest.pending.length = 0 := by omega
  refine ⟨eq_nil_of_length_eq_zero none, by omega, matched.counted ?_⟩
  apply ne_nil_of_length_pos
  omega

/-- Nothing runs while the one launch waits. -/
theorem Matched.free (idle : rest.pending = [])
    (runs : rest.vaultRuns = proc.vaultRuns) (failing : rest.failing = proc.failing)
    (here : rest.localLaunch = proc.localLaunch) : proc.runId = .none := by
  obtain ⟨-, -, noRuns, noFailing, clearing, -⟩ := pending_eq_nil.mp idle
  cases taken : proc.runId with
  | none => rfl
  | helper id =>
    apply absurd _ (matched.helped id taken)
    rw [← runs, ← failing, noRuns, noFailing]
    rfl
  | here =>
    have nonzero := matched.here.mp taken
    rw [← here] at nonzero
    exact absurd clearing nonzero

/-- A step that leaves the runs where they are. -/
theorem Matched.framed {after : VaultProcess} (placed : Placed after)
    (pending : after.pending = proc.pending) (changes : after.changes = proc.changes) :
    Kept proc ([], after) where
  matched :=
    { placed with
      few := by rw [pending]; exact matched.few
      latest := by rw [pending, changes]; exact matched.latest
      counted := by rw [pending, changes]; exact matched.counted }
  latest := by
    intro launch mem
    cases mem
  balance := by
    dsimp only
    rw [pending, changes]
    exact Nat.zero_add _ ▸ rfl

theorem Matched.still : Kept proc ([], proc) := matched.framed matched.toPlaced rfl rfl

theorem Matched.turnOn (idle : proc.pending = []) : Kept proc proc.turnOn := by
  obtain ⟨waiting, flushing, runs, failing, here, calls⟩ := pending_eq_nil.mp idle
  have free : proc.runId = .none := matched.free idle rfl rfl rfl
  have started : ∀ outcome, Begun { proc with
      running := true, changes := proc.changes + 1, startSeq := proc.startSeq + 1 } outcome →
      Kept proc outcome := by
    intro outcome begun
    constructor
    case matched => exact begun.matched
    case latest => rw [begun.changes]; exact begun.latest
    case balance =>
      have balance := begun.balance
      have changes := begun.changes
      dsimp only at changes
      rw [idle, length_nil]
      omega
  have still : pending { proc with
      running := true, changes := proc.changes + 1, startSeq := proc.startSeq + 1 } = [] :=
    pending_eq_nil.mpr ⟨waiting, flushing, runs, failing, here, calls⟩
  unfold VaultProcess.turnOn
  dsimp only
  rw [if_pos free]
  unfold start
  dsimp only
  apply started
  split_ifs
  · exact begun_startScrub still matched.clears free (Nat.succ_pos _)
  · exact begun_vaultStart still matched.clears free (Nat.succ_pos _) rfl

theorem Matched.turnOff (unqueued : ¬(proc.vaultWaiting ∨ proc.flushing)) :
    Kept proc proc.turnOff := by
  have off : Kept proc ([], { proc with running := false }) :=
    matched.framed { matched.toPlaced with wanted := fun waits => absurd waits unqueued } rfl rfl
  unfold VaultProcess.turnOff
  dsimp only
  split_ifs with taken
  · unfold vaultKill
    dsimp only
    split
    · constructor
      case matched => exact off.matched
      case latest => split_ifs <;> exact off.latest
      case balance => split_ifs <;> exact off.balance
    · exact off
    · next free => exact absurd free taken
  · exact off

theorem Matched.write {value : Bool} (orderly : Orderly proc (.write value)) :
    Kept proc (proc.write value) := by
  unfold VaultProcess.write
  split_ifs with same on
  · exact matched.still
  · subst on
    exact matched.turnOn ((orderly.1 rfl).resolve_left same)
  · rw [Bool.not_eq_true] at on
    subst on
    exact matched.turnOff (orderly.2 rfl)

theorem Matched.flushNext : Kept proc proc.flushNext := by
  unfold VaultProcess.flushNext
  by_cases flushing : proc.flushing = true
  · rw [if_pos flushing]
    have on := matched.wanted (Or.inr flushing)
    have less : proc.pending.length = (pending { proc with flushing := false }).length + 1 := by
      unfold pending localLaunch
      simp [flushing]
      omega
    obtain ⟨idle, one, counted⟩ := matched.taken less
    have free : proc.runId = .none := matched.free idle rfl rfl rfl
    dsimp only
    rw [if_pos on]
    exact (begun_vaultStart idle matched.clears free counted on).kept rfl one
  · rw [if_neg flushing]
    exact matched.still

theorem Matched.finished {launch : ℕ} (mem : launch ∈ proc.pending)
    (less : proc.pending.length = rest.pending.length + 1)
    (changes : rest.changes = proc.changes)
    (clears : rest.localRun = some 0 → rest.localScrub = true) :
    Kept proc (rest.finish launch) := by
  obtain ⟨idle, one, -⟩ := matched.taken less
  rw [matched.latest launch mem, ← changes]
  exact (begun_finish idle clears).kept changes one

theorem Matched.exit (id : ℕ) : Kept proc (proc.exit id) := by
  unfold VaultProcess.exit
  split
  · exact matched.still
  · next run found =>
    have listed := mem_of_find?_eq_some found
    refine matched.finished ?_ ?_ rfl matched.clears
    · unfold pending
      simp only [mem_append, List.mem_map]
      exact .inl (.inl (.inl (.inr ⟨run, listed, rfl⟩)))
    · have length := length_erase_of_mem listed
      have some := length_pos_of_mem listed
      unfold pending localLaunch
      simp only [length_append, length_map]
      omega

theorem Matched.failNext : Kept proc proc.failNext := by
  unfold VaultProcess.failNext
  split
  · exact matched.still
  · next run rest failing =>
    refine matched.finished ?_ ?_ rfl matched.clears
    · unfold pending
      simp [failing]
    · unfold pending localLaunch
      simp only [failing, length_append, length_map, length_cons]
      omega

theorem Matched.localExited : Kept proc proc.localExited := by
  unfold VaultProcess.localExited
  split
  · exact matched.still
  · next launch running =>
    have calls : (if proc.localScrub then proc.later
        else proc.later ++ [.clearCollectors]).filterMap Deferred.launch =
          proc.later.filterMap Deferred.launch := by
      split_ifs
      · rfl
      · simp [Deferred.launch]
    have here : proc.localLaunch = launch := by
      unfold localLaunch
      rw [running]
      rfl
    by_cases clearing : launch = 0
    · subst clearing
      have away : proc.runId ≠ .here := by
        intro taken
        exact absurd here (matched.here.mp taken)
      have scrub := matched.clears running
      dsimp only
      rw [if_pos ⟨scrub, away⟩]
      refine matched.framed { matched.toPlaced with here := ?_, clears := nofun, newest := ?_ }
        ?_ rfl
      · exact ⟨fun taken => absurd taken away, fun nonzero => absurd rfl nonzero⟩
      · intro scrub' seq launch mem
        rw [if_pos scrub] at mem
        exact matched.newest scrub' seq launch mem
      · unfold pending
        rw [here]
        dsimp only
        rw [calls]
        rfl
    · have taken : proc.runId = .here := matched.here.mpr (by rw [here]; exact clearing)
      dsimp only
      rw [if_neg (fun both => both.2 taken)]
      refine matched.finished ?_ ?_ rfl ?_
      · unfold pending
        rw [here]
        simp [clearing]
      · unfold pending
        rw [here]
        dsimp only
        rw [calls, if_neg clearing]
        have gone : localLaunch { proc with
            localRun := none
            later := if proc.localScrub then proc.later
              else proc.later ++ [.clearCollectors] } = 0 := rfl
        rw [gone, if_pos rfl]
        simp only [length_append, length_singleton, length_nil]
        omega
      · intro cleared
        cases cleared

theorem Matched.flushVaultWaiting (unflushed : proc.flushing = false) :
    Kept proc ([], proc.flushVaultWaiting) := by
  refine matched.framed { matched.toPlaced with wanted := ?_ } ?_ rfl
  · rintro (waits | waits)
    · cases waits
    · exact matched.wanted (Or.inl waits)
  · unfold VaultProcess.flushVaultWaiting pending localLaunch
    dsimp only
    rw [unflushed]
    simp

/-- Only the helper's state changes. -/
theorem Matched.withHelper (helper : HelperState) (running timedOut retry : Bool) (restarts : ℕ) :
    Kept proc ([], { proc with
      helper := helper
      helperRunning := running
      readyTimedOut := timedOut
      retryPending := retry
      restarts := restarts }) :=
  matched.framed { matched.toPlaced with } rfl rfl

section

variable (unflushed : proc.flushing = false)

include unflushed

theorem Matched.flushed (helper : HelperState) :
    Kept proc ([], VaultProcess.flushVaultWaiting { proc with helper := helper }) := by
  have changed := matched.withHelper helper proc.helperRunning proc.readyTimedOut
    proc.retryPending proc.restarts
  exact changed.trans (changed.matched.flushVaultWaiting unflushed)

theorem Matched.useVaultFallback (allow : Bool) :
    Kept proc ([], proc.useVaultFallback allow) := by
  unfold VaultProcess.useVaultFallback
  split_ifs
  · exact matched.flushed unflushed .fallback
  · exact matched.withHelper .stopped _ _ _ _

theorem Matched.startVaultHelper (allow path : Bool) :
    Kept proc ([], proc.startVaultHelper allow path) := by
  unfold VaultProcess.startVaultHelper
  split_ifs
  · exact matched.withHelper .starting true _ _ _
  · exact matched.useVaultFallback unflushed allow

theorem Matched.inspected (allow ready path : Bool) :
    Kept proc ([], proc.inspected allow ready path) := by
  unfold VaultProcess.inspected
  split_ifs
  · exact matched.still
  · exact matched.startVaultHelper unflushed allow path
  · exact matched.useVaultFallback unflushed allow

end

theorem Matched.retryVaultHelper : Kept proc ([], proc.retryVaultHelper) := by
  unfold VaultProcess.retryVaultHelper
  split_ifs
  · exact matched.still
  · exact matched.withHelper _ _ _ true _
  · exact matched.withHelper .pending _ false false 0

theorem Matched.readyTimeout : Kept proc ([], proc.readyTimeout) := by
  unfold VaultProcess.readyTimeout
  split_ifs
  · exact matched.still
  · exact matched.withHelper .stopped _ _ _ _

theorem Matched.ready (unflushed : proc.flushing = false) : Kept proc ([], proc.ready) := by
  unfold VaultProcess.ready
  split_ifs
  · exact matched.still
  · exact matched.flushed unflushed .active

theorem Matched.settled : Kept proc ([], proc.settled) := by
  unfold VaultProcess.settled
  split_ifs
  · exact matched.withHelper _ _ _ _ 0
  · exact matched.still

theorem Matched.withLater {call : Deferred} (launch : call.launch = none) :
    Kept proc ([], { proc with later := proc.later ++ [call] }) := by
  refine matched.framed { matched.toPlaced with newest := ?_ } ?_ rfl
  · intro scrub seq other mem
    rcases mem_append.mp mem with before | last
    · exact matched.newest scrub seq other before
    · rw [mem_singleton] at last
      rw [← last] at launch
      cases launch
  · unfold pending localLaunch
    simp [launch]

theorem Matched.helperExited (unhandled : proc.exiting = none) :
    Kept proc ([], proc.helperExited) := by
  have idle := matched.handled unhandled
  unfold VaultProcess.helperExited
  dsimp only
  split_ifs with timedOut again
  · have changed := matched.withHelper proc.helper false false proc.retryPending proc.restarts
    exact changed.trans (changed.matched.withLater rfl)
  · exact matched.withHelper _ false false _ _
  all_goals
    refine matched.framed { matched.toPlaced with helped := ?_, handled := nofun } ?_ rfl
    · simpa [idle] using matched.helped
    · unfold pending localLaunch
      simp [idle]

theorem Matched.exitHandled : Kept proc ([], proc.exitHandled) := by
  unfold VaultProcess.exitHandled
  split
  · next unexpected exiting failing =>
    have done : Kept proc ([], { proc with exiting := none }) :=
      matched.framed { matched.toPlaced with handled := fun _ => failing } rfl rfl
    dsimp only
    split_ifs
    · exact done
    · have counted := done.matched.withHelper proc.helper proc.helperRunning proc.readyTimedOut
        proc.retryPending (proc.restarts + 1)
      exact done.trans (counted.trans (counted.matched.withLater rfl))
    · exact done.trans (done.matched.withHelper .stopped _ _ _ _)
  · exact matched.still

/-- The next call is taken. A launch that waited was the only one. -/
theorem Matched.deferred (unflushed : proc.flushing = false) (allow path : Bool) :
    Kept proc (proc.deferred allow path) := by
  unfold VaultProcess.deferred
  split
  · exact matched.still
  · next next rest later =>
    have taken : ∀ launch, next.launch = some launch →
        launch ∈ proc.pending ∧
          proc.pending.length = (pending { proc with later := rest }).length + 1 := by
      intro launch called
      unfold pending localLaunch
      simp only [later, filterMap_cons_some called]
      constructor
      · simp
      · simp only [length_append, length_cons]
        omega
    have dropped : next.launch = none → Kept proc ([], { proc with later := rest }) := by
      intro called
      refine matched.framed { matched.toPlaced with newest := ?_ } ?_ rfl
      · intro scrub seq launch mem
        exact matched.newest scrub seq launch (later ▸ mem_cons_of_mem _ mem)
      · unfold pending localLaunch
        simp only [later, filterMap_cons_none called]
    cases next with
    | launchLocal scrub seq launch =>
      obtain ⟨mem, less⟩ := taken launch rfl
      obtain ⟨idle, one, counted⟩ := matched.taken less
      have free : proc.runId = .none := matched.free idle rfl rfl rfl
      have newest := matched.newest scrub seq launch (by rw [later]; exact mem_cons_self)
      have latest := matched.latest launch mem
      subst newest latest
      exact (begun_launchLocal idle matched.clears free counted scrub).kept rfl one
    | missingPinentry launch =>
      obtain ⟨mem, less⟩ := taken launch rfl
      exact matched.finished mem less rfl matched.clears
    | clearCollectors =>
      refine (dropped rfl).trans ?_
      have matched := (dropped rfl).matched
      unfold call
      dsimp only
      split_ifs with running
      · exact matched.still
      · rw [not_isSome_iff_eq_none] at running
        refine matched.framed { matched.toPlaced with here := ?_, clears := fun _ => rfl } ?_ rfl
        · have here := matched.here
          unfold localLaunch at here ⊢
          simpa [running] using here
        · unfold pending localLaunch
          simp [running]
    | startVaultHelper =>
      exact (dropped rfl).trans ((dropped rfl).matched.startVaultHelper unflushed allow path)
    | retryVaultHelper => exact (dropped rfl).trans (dropped rfl).matched.retryVaultHelper

theorem Matched.turn (unflushed : proc.flushing = false) (unhandled : proc.exiting = none)
    (allow : Bool) (event : Event) : Kept proc (proc.turn allow event) := by
  cases event with
  | inspected ready path => exact matched.inspected unflushed allow ready path
  | ready => exact matched.ready unflushed
  | exit id => exact matched.exit id
  | helperExited => exact matched.helperExited unhandled
  | readyTimeout => exact matched.readyTimeout
  | settled => exact matched.settled
  | retry => exact matched.retryVaultHelper
  | localExited => exact matched.localExited
  | deferred path => exact matched.deferred unflushed allow path
  | _ => exact matched.still

theorem Matched.perform {event : Event} (orderly : Orderly proc event) (allow : Bool) :
    Kept proc (proc.perform allow event) := by
  have guarded : ∀ event : Event, Kept proc
      (if proc.flushing ∨ proc.exiting.isSome then ([], proc) else proc.turn allow event) := by
    intro event
    split_ifs with under
    · exact matched.still
    · rw [not_or, Bool.not_eq_true, not_isSome_iff_eq_none] at under
      exact matched.turn under.1 under.2 allow event
  cases event with
  | write value => exact matched.write orderly
  | configure scrub pinentry =>
    exact matched.framed { matched.toPlaced with } rfl rfl
  | flushNext => exact matched.flushNext
  | failNext => exact matched.failNext
  | exitHandled => exact matched.exitHandled
  | otherStarted =>
    exact matched.framed { matched.toPlaced with } rfl rfl
  | shutDown =>
    exact matched.framed { matched.toPlaced with } rfl rfl
  | _ => exact guarded _

end Steps

theorem matched_initial : Matched initial :=
  matched_of_idle rfl (placed_of_idle rfl rfl nofun)

/-! ### Whole runs -/

/-- The launches reported so far, the latest first. -/
def reported (history : List (Event × List Emitted)) : List ℕ :=
  history.flatMap fun entry => reports entry.2

section Runs

variable {allow : Bool} {history : List (Event × List Emitted)} {proc : VaultProcess}

theorem counted_of_run
    (run : Run ((machine (fun proc event => proc.perform allow event) initial).restrict
      fun before label _ => Orderly before label.1) history proc) :
    Matched proc ∧ (reported history).length + proc.pending.length = proc.changes := by
  apply run.invariant fun history proc =>
    Matched proc ∧ (reported history).length + proc.pending.length = proc.changes
  · rintro state rfl
    exact ⟨matched_initial, rfl⟩
  · rintro history state ⟨event, emitted⟩ after _ ⟨matched, counted⟩ ⟨step, orderly⟩
    have kept := matched.perform orderly allow
    change state.perform allow event = (emitted, after) at step
    rw [step] at kept
    refine ⟨kept.matched, ?_⟩
    have balance := kept.balance
    dsimp only at balance
    unfold reported
    rw [flatMap_cons, length_append]
    change (reports emitted).length + (reported history).length + _ = _
    omega

/-- Where each run ends before the next is started, and none is stopped while it waits for the
helper: an exit reports the launch of the latest change of `running`, and every change has had
its exit once no run is in flight or waiting. -/
theorem exits_belong_to_runs
    (run : Run ((machine (fun proc event => proc.perform allow event) initial).restrict
      fun before label _ => Orderly before label.1) history proc) :
    (∀ event, Orderly proc event → ∀ launch ∈ reports (proc.perform allow event).1,
      launch = (proc.perform allow event).2.changes) ∧
    (proc.pending = [] → (reported history).length = proc.changes) := by
  obtain ⟨matched, counted⟩ := counted_of_run run
  constructor
  · intro event orderly
    exact (matched.perform orderly allow).latest
  · intro idle
    rw [idle] at counted
    exact counted

end Runs

/-- The helper starts and the process runs in it; the caller stops it and starts the next. -/
def stopAndStart : List Event :=
  [.inspected true true, .ready, .flushNext, .write true, .write false, .write true]

/-- The stopped run still has its id, so the second start does nothing: the first run's exit is
reported as the second's, and the second never runs. -/
theorem restart_takes_the_stopped_exit :
    ∃ history proc,
      Run (machine (fun proc event => VaultProcess.perform proc false event) initial)
        history proc ∧
      (∃ launch ∈ reports (proc.perform false (.exit 1)).1,
        launch ≠ (proc.perform false (.exit 1)).2.changes) ∧
      (proc.perform false (.exit 1)).2.pending = [] ∧
      (reported ((.exit 1, (proc.perform false (.exit 1)).1) :: history)).length ≠
        (proc.perform false (.exit 1)).2.changes := by
  have run : Run (machine (fun proc event => VaultProcess.perform proc false event) initial)
      [] initial := .start rfl
  refine ⟨_, _, run_replay run stopAndStart, ?_⟩
  decide +kernel

/-- A run is stopped and reports its end; the next is failed with the helper. -/
def inTurn : List Event :=
  [.inspected true true, .ready, .flushNext, .write true, .write false, .exit 1, .write true,
    .helperExited, .failNext, .exitHandled]

theorem exits_belong_to_runs_in_turn :
    reported (replay (fun proc event => VaultProcess.perform proc false event) [] initial
      inTurn).1 = [2, 1] ∧
    (reported (replay (fun proc event => VaultProcess.perform proc false event) [] initial
      inTurn).1).length =
      (replay (fun proc event => VaultProcess.perform proc false event) [] initial
        inTurn).2.changes := by
  have start : Run ((machine (fun proc event => VaultProcess.perform proc false event)
      initial).restrict fun before label _ => Orderly before label.1) [] initial := .start rfl
  have orderly : Permits (fun proc event => VaultProcess.perform proc false event)
      (fun before label _ => Orderly before label.1) initial inTurn := by decide +kernel
  have belongs := exits_belong_to_runs (run_replay_restrict start orderly)
  exact ⟨by decide +kernel, belongs.2 (by decide +kernel)⟩

end VaultProcess

end QsBitwarden.Runs
