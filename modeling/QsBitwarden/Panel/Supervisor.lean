import QsBitwarden.Lib.History
import QsBitwarden.Panel.AgentEvents

/-! Owns the supervisor of the companion (`sshAgentReduce`, `BitwardenModel.js`): its phases,
the events it takes and the actions it answers, over whole event sequences. It does not own
the process, its timers or what a message makes the panel do. -/

namespace QsBitwarden.Panel

open Lib List

/-! ### States, events and actions -/

inductive Phase
  | disabled
  | starting
  | handshaking
  | ready
  | restarting
  | backoff
  | elsewhere
  | failed
  deriving DecidableEq, Repr

/-- `errorCode` is `none` for the source's empty code. -/
structure Supervisor where
  phase : Phase
  gateOpen : Bool
  socketPath : String
  fifoPath : String
  agentVersion : String
  failures : ℕ
  readyAtMs : ℤ
  errorCode : Option AgentErrorCode
  errorMessage : String
  deriving DecidableEq, Repr

def sshAgentInitialState : Supervisor := ⟨.disabled, false, "", "", "", 0, 0, none, ""⟩

/-- `restartInMs` is -1 when no restart is scheduled. -/
structure SupervisorAction where
  start : Bool
  stop : Bool
  writeHello : Bool
  cancelRestart : Bool
  restartInMs : ℤ
  message : Option Fields

def sshAgentNoAction : SupervisorAction := ⟨false, false, false, false, -1, none⟩

inductive EventKind
  | enabled (value : Bool)
  | started
  | handshakeTimeout
  | line (text : Text)
  | exited (lockHeld : Bool)
  | restartTimer
  | other
  deriving DecidableEq, Repr

structure SupervisorEvent where
  kind : EventKind
  nowMs : ℤ
  deriving DecidableEq, Repr

/-! ### The transition -/

def sshAgentMaxRestarts : ℕ := 5
def sshAgentHealthyMs : ℤ := 60 * 1000
def sshAgentElsewhereRetryMs : ℤ := 30 * 1000

/-- 500 ms doubling to 30 s. -/
def sshAgentRestartDelayMs (failures : ℕ) : ℤ :=
  if failures < 1 then 500 else min 30000 (500 * 2 ^ (failures - 1))

/-- A failure noticed while the child is alive: the restart is decided at its exit. -/
def sshAgentFailMidRun (current : Supervisor) (code : AgentErrorCode) :
    Supervisor × SupervisorAction :=
  ({ current with
      gateOpen := false, phase := .restarting, errorCode := some code
      errorMessage := sshAgentErrorMessage code },
    { sshAgentNoAction with stop := true, cancelRestart := true })

def wasHealthy (current : Supervisor) (nowMs : ℤ) : Bool :=
  0 < current.readyAtMs ∧ sshAgentHealthyMs ≤ nowMs - current.readyAtMs

/-- The failures counted once a run has ended now. -/
def failuresAfter (current : Supervisor) (nowMs : ℤ) : ℕ :=
  (if wasHealthy current nowMs then 0 else current.failures) + 1

/-- A run has ended. One that lasted clears the history behind it; any other advances the
backoff, and passing the cap turns the feature off. -/
def sshAgentFailOnExit (current : Supervisor) (nowMs : ℤ) : Supervisor × SupervisorAction :=
  let code := current.errorCode.getD .exited
  let message := if current.errorCode.isNone then sshAgentErrorMessage .exited
    else current.errorMessage
  let failures := failuresAfter current nowMs
  if sshAgentMaxRestarts < failures then
    (⟨.failed, false, "", "", "", failures, 0, some .crashLoop,
      sshAgentErrorMessage .crashLoop⟩, sshAgentNoAction)
  else
    (⟨.backoff, false, "", "", "", failures, 0, some code, message⟩,
      { sshAgentNoAction with restartInMs := sshAgentRestartDelayMs failures })

def messageText (message : Fields) (key : String) : String :=
  ((message.get key).bind Json.asStr).getD ""

/-- The state after the companion's `ready`. -/
def Supervisor.greeted (current : Supervisor) (message : Fields) (nowMs : ℤ) : Supervisor :=
  { current with
    phase := .ready, gateOpen := true, socketPath := messageText message "socketPath"
    fifoPath := messageText message "fifoPath", agentVersion := messageText message "agentVersion"
    readyAtMs := nowMs, errorCode := none, errorMessage := "" }

def onLine (jsonParse : Text → Option Json) (current : Supervisor) (line : Text) (nowMs : ℤ) :
    Supervisor × SupervisorAction :=
  match parseAgentEvent jsonParse line with
  | .error refusal =>
    if refusal.fatal then sshAgentFailMidRun current refusal.code
    else (current, sshAgentNoAction)
  | .ok message =>
    let isReady := messageType message = some "ready"
    -- `ready` answers `hello` exactly once; anything out of order fails.
    if decide isReady ≠ decide (current.phase = .handshaking) then
      sshAgentFailMidRun current .protocol
    else if isReady then
      (current.greeted message nowMs, sshAgentNoAction)
    else (current, { sshAgentNoAction with message := some message })

def sshAgentReduce (jsonParse : Text → Option Json) (current : Supervisor)
    (event : SupervisorEvent) : Supervisor × SupervisorAction :=
  match event.kind with
  | .enabled false =>
    if current.phase = .disabled then (current, sshAgentNoAction)
    else (sshAgentInitialState, { sshAgentNoAction with stop := true, cancelRestart := true })
  | .enabled true =>
    -- Re-enabling is the deliberate reset: nothing else clears a crash-loop verdict.
    if current.phase ≠ .disabled ∧ current.phase ≠ .failed then (current, sshAgentNoAction)
    else ({ sshAgentInitialState with phase := .starting },
      { sshAgentNoAction with start := true })
  | kind =>
    if current.phase = .disabled ∨ current.phase = .failed then (current, sshAgentNoAction) else
    match kind with
    | .started =>
      if current.phase ≠ .starting then (current, sshAgentNoAction)
      else ({ current with phase := .handshaking }, { sshAgentNoAction with writeHello := true })
    | .handshakeTimeout =>
      if current.phase ≠ .starting ∧ current.phase ≠ .handshaking then
        (current, sshAgentNoAction)
      else sshAgentFailMidRun current .handshakeTimeout
    | .line text =>
      if current.phase ≠ .handshaking ∧ current.phase ≠ .ready then (current, sshAgentNoAction)
      else onLine jsonParse current text event.nowMs
    | .exited lockHeld =>
      -- An exit before `ready` with the runtime lock held elsewhere is a wait, not a crash.
      if lockHeld ∧ current.readyAtMs = 0 then
        (⟨.elsewhere, false, "", "", "", current.failures, current.readyAtMs, some .elsewhere,
          sshAgentErrorMessage .elsewhere⟩,
          { sshAgentNoAction with restartInMs := sshAgentElsewhereRetryMs })
      else sshAgentFailOnExit current event.nowMs
    | .restartTimer =>
      if current.phase ≠ .backoff ∧ current.phase ≠ .elsewhere then (current, sshAgentNoAction)
      else ({ current with phase := .starting }, { sshAgentNoAction with start := true })
    | _ => (current, sshAgentNoAction)

/-! ### What a transition can do -/

/-- The phases in which an event may pass without effect: an exit, a timeout or disabling ends
the launch under way. -/
def EventKind.passes : EventKind → Phase → Bool
  | .exited _, phase => phase = .disabled ∨ phase = .failed
  | .handshakeTimeout, phase => phase ≠ .starting ∧ phase ≠ .handshaking
  | .enabled false, phase => phase = .disabled
  | _, _ => true

/-- The outcomes of the transition. -/
inductive Reduced (jsonParse : Text → Option Json) (before : Supervisor)
    (event : SupervisorEvent) : Supervisor → SupervisorAction → Prop
  | ignored (passes : event.kind.passes before.phase = true) :
      Reduced jsonParse before event before sshAgentNoAction
  | turnedOff (off : event.kind = .enabled false) :
      Reduced jsonParse before event sshAgentInitialState
        { sshAgentNoAction with stop := true, cancelRestart := true }
  | turnedOn (on : event.kind = .enabled true)
      (idle : before.phase = .disabled ∨ before.phase = .failed) :
      Reduced jsonParse before event { sshAgentInitialState with phase := .starting }
        { sshAgentNoAction with start := true }
  | greeted (started : event.kind = .started) (launched : before.phase = .starting) :
      Reduced jsonParse before event { before with phase := .handshaking }
        { sshAgentNoAction with writeHello := true }
  | failedMidRun (code : AgentErrorCode)
      (cause : event.kind = .handshakeTimeout ∨ ∃ text, event.kind = .line text)
      (running : before.phase = .starting ∨ before.phase = .handshaking ∨ before.phase = .ready) :
      Reduced jsonParse before event (sshAgentFailMidRun before code).1
        (sshAgentFailMidRun before code).2
  | readied (text : Text) (message : Fields) (line : event.kind = .line text)
      (parsed : parseAgentEvent jsonParse text = .ok message)
      (ready : messageType message = some "ready") (awaited : before.phase = .handshaking) :
      Reduced jsonParse before event
        (before.greeted message event.nowMs) sshAgentNoAction
  | handedOn (text : Text) (message : Fields) (line : event.kind = .line text)
      (parsed : parseAgentEvent jsonParse text = .ok message) (ready : before.phase = .ready) :
      Reduced jsonParse before event before { sshAgentNoAction with message := some message }
  | parked (exited : event.kind = .exited true) (unready : before.readyAtMs = 0)
      (alive : before.phase ≠ .disabled ∧ before.phase ≠ .failed) :
      Reduced jsonParse before event
        ⟨.elsewhere, false, "", "", "", before.failures, before.readyAtMs, some .elsewhere,
          sshAgentErrorMessage .elsewhere⟩
        { sshAgentNoAction with restartInMs := sshAgentElsewhereRetryMs }
  | ended (lockHeld : Bool) (exited : event.kind = .exited lockHeld)
      (alive : before.phase ≠ .disabled ∧ before.phase ≠ .failed) :
      Reduced jsonParse before event (sshAgentFailOnExit before event.nowMs).1
        (sshAgentFailOnExit before event.nowMs).2
  | restarted (timer : event.kind = .restartTimer)
      (waiting : before.phase = .backoff ∨ before.phase = .elsewhere) :
      Reduced jsonParse before event { before with phase := .starting }
        { sshAgentNoAction with start := true }

variable {jsonParse : Text → Option Json}

theorem onLine_reduced {before : Supervisor} {event : SupervisorEvent} {text : Text}
    (line : event.kind = .line text)
    (running : before.phase = .handshaking ∨ before.phase = .ready) :
    Reduced jsonParse before event (onLine jsonParse before text event.nowMs).1
      (onLine jsonParse before text event.nowMs).2 := by
  have alive : before.phase = .starting ∨ before.phase = .handshaking ∨ before.phase = .ready :=
    .inr running
  unfold onLine
  split
  · next refusal refused =>
    split_ifs with fatal
    · exact .failedMidRun _ (.inr ⟨text, line⟩) alive
    · exact .ignored (by rw [line]; rfl)
  · next message parsed =>
    dsimp only
    split_ifs with order ready
    · exact .failedMidRun _ (.inr ⟨text, line⟩) alive
    · refine .readied text message line parsed ready ?_
      simpa [ready] using order
    · refine .handedOn text message line parsed ?_
      have later : before.phase ≠ .handshaking := by simpa [ready] using order
      exact running.resolve_left later

/-- The transition, case by case. -/
theorem sshAgentReduce_reduced (before : Supervisor) (event : SupervisorEvent) :
    Reduced jsonParse before event (sshAgentReduce jsonParse before event).1
      (sshAgentReduce jsonParse before event).2 := by
  obtain ⟨kind, nowMs⟩ := event
  unfold sshAgentReduce
  cases kind with
  | enabled value =>
    cases value with
    | false =>
      dsimp only
      split_ifs with off
      · exact .ignored (decide_eq_true off)
      · exact .turnedOff rfl
    | true =>
      dsimp only
      split_ifs with running
      · exact .ignored rfl
      · exact .turnedOn rfl (or_iff_not_and_not.mpr running)
  | started =>
    dsimp only
    split_ifs with idle other
    · exact .ignored rfl
    · exact .ignored rfl
    · exact .greeted rfl (not_not.mp other)
  | handshakeTimeout =>
    dsimp only
    split_ifs with idle other
    · refine .ignored (decide_eq_true ?_)
      rcases idle with phase | phase <;> simp [phase]
    · exact .ignored (decide_eq_true other)
    · exact .failedMidRun _ (.inl rfl) ((or_iff_not_and_not.mpr other).imp_right .inl)
  | line text =>
    dsimp only
    split_ifs with idle other
    · exact .ignored rfl
    · exact .ignored rfl
    · exact @onLine_reduced jsonParse before ⟨.line text, nowMs⟩ text rfl
        (or_iff_not_and_not.mpr other)
  | exited lockHeld =>
    dsimp only
    split_ifs with idle held
    · exact .ignored (decide_eq_true idle)
    · obtain ⟨rfl, unready⟩ := held
      exact .parked rfl unready (not_or.mp idle)
    · exact .ended lockHeld rfl (not_or.mp idle)
  | restartTimer =>
    dsimp only
    split_ifs with idle other
    · exact .ignored rfl
    · exact .ignored rfl
    · exact .restarted rfl (or_iff_not_and_not.mpr other)
  | other =>
    dsimp only
    split_ifs with idle
    · exact .ignored rfl
    · exact .ignored rfl

/-! ### Histories -/

/-- One event with the state it met, the action it was answered with and the state it left. -/
structure Transition where
  before : Supervisor
  event : SupervisorEvent
  action : SupervisorAction
  after : Supervisor

/-- Every sequence of events given to the reducer from its initial state. -/
def supervision (jsonParse : Text → Option Json) : System Supervisor Transition where
  init state := state = sshAgentInitialState
  step before transition after :=
    transition.before = before ∧ transition.after = after ∧
      sshAgentReduce jsonParse before transition.event = (after, transition.action)

namespace Transition

def isExit (transition : Transition) : Bool :=
  match transition.event.kind with
  | .exited _ => true
  | _ => false

def isEnabled (transition : Transition) : Bool :=
  match transition.event.kind with
  | .enabled _ => true
  | _ => false

/-- An accepted `started` event: `hello` is written. -/
def greets (transition : Transition) : Bool :=
  transition.event.kind = .started ∧ transition.action.writeHello

def entersReady (transition : Transition) : Bool :=
  transition.before.phase ≠ .ready ∧ transition.after.phase = .ready

/-- A line that is a well-formed `ready`. -/
def IsReadyLine (jsonParse : Text → Option Json) (transition : Transition) : Prop :=
  ∃ text message, transition.event.kind = .line text ∧
    parseAgentEvent jsonParse text = .ok message ∧ messageType message = some "ready"

def startsFromBackoff (transition : Transition) : Bool :=
  transition.action.start ∧ transition.before.phase = .backoff

/-- No exit, no failure and no disabling: a failure stops the helper or is a timeout. -/
def Undisturbed (transition : Transition) : Prop :=
  transition.isExit = false ∧ transition.event.kind ≠ .handshakeTimeout ∧
    transition.event.kind ≠ .enabled false ∧ transition.action.stop = false

end Transition

/-- Since its latest start the helper was greeted this often and nothing ended the launch. -/
def LaunchedSince (greetings : ℕ) (history : List Transition) : Prop :=
  ∃ recent launch older, history = recent ++ launch :: older ∧ launch.action.start = true ∧
    (∀ transition ∈ recent, transition.action.start = false ∧ transition.Undisturbed) ∧
    recent.countP Transition.greets = greetings

/-- When the current run became ready: the clock of its `ready` line, until it exits or a
helper is started. -/
def readySince : List Transition → Option ℤ
  | [] => none
  | transition :: past =>
    if transition.action.start ∨ transition.isExit then none
    else if transition.entersReady then some transition.event.nowMs
    else readySince past

/-- An enabled event that starts the helper, or the exit of a run that had been ready for at
least a minute. -/
def resets (transition : Transition) (past : List Transition) : Bool :=
  (transition.isEnabled && transition.action.start) ||
    (transition.isExit && (readySince past).any fun readyAt =>
      sshAgentHealthyMs ≤ transition.event.nowMs - readyAt)

/-- The starts made out of backoff since the latest reset. -/
def startsSinceReset : List Transition → ℕ
  | [] => 0
  | transition :: past =>
    if resets transition past then 0
    else (if transition.startsFromBackoff then 1 else 0) + startsSinceReset past

/-! ### What holds along every run -/

/-- The failures of a state against the starts of its history. -/
structure Counted (history : List Transition) (state : Supervisor) : Prop where
  starts : startsSinceReset history ≤ sshAgentMaxRestarts
  budget : state.phase ≠ .disabled →
    startsSinceReset history + (if state.phase = .backoff then 1 else 0) ≤ state.failures
  cap : state.phase ≠ .failed → state.failures ≤ sshAgentMaxRestarts

/-- What a state says of its history. -/
structure Supervised (history : List Transition) (state : Supervisor) : Prop
    extends Counted history state where
  gate : state.gateOpen = true ↔ state.phase = .ready
  unready : state.phase = .ready ∨ state.phase = .restarting ∨ state.readyAtMs = 0
  readyAt : state.readyAtMs ≠ 0 → readySince history = some state.readyAtMs
  launched : state.phase = .starting → LaunchedSince 0 history
  greeted : state.phase = .handshaking → LaunchedSince 1 history

/-- What one transition of a run must satisfy against its past. -/
structure Proper (jsonParse : Text → Option Json) (transition : Transition)
    (past : List Transition) : Prop where
  readied : transition.entersReady = true →
    transition.IsReadyLine jsonParse ∧ LaunchedSince 1 past
  handsOn : transition.action.message.isSome = true → transition.before.phase = .ready
  leaves : transition.before.phase = .disabled ∨ transition.before.phase = .failed →
    transition.after.phase ≠ transition.before.phase → transition.isEnabled = true

theorem supervised_initial : Supervised [] sshAgentInitialState where
  gate := by simp [sshAgentInitialState]
  unready := .inr (.inr rfl)
  readyAt := by simp [sshAgentInitialState]
  launched := by simp [sshAgentInitialState]
  greeted := by simp [sshAgentInitialState]
  starts := Nat.zero_le _
  budget := by simp [sshAgentInitialState]
  cap := fun _ => Nat.zero_le _

/-- A transition that neither starts nor disturbs a launch is counted with it. -/
theorem LaunchedSince.cons {greetings : ℕ} {history : List Transition} {transition : Transition}
    (since : LaunchedSince greetings history) (calm : transition.Undisturbed)
    (quiet : transition.action.start = false) :
    LaunchedSince (greetings + if transition.greets then 1 else 0) (transition :: history) := by
  obtain ⟨recent, launch, older, rfl, started, each, counted⟩ := since
  refine ⟨transition :: recent, launch, older, rfl, started, ?_, ?_⟩
  · intro other mem
    rcases mem_cons.mp mem with rfl | later
    · exact ⟨quiet, calm⟩
    · exact each other later
  · rw [countP_cons, counted]

theorem launchedSince_start {transition : Transition} (started : transition.action.start = true)
    (past : List Transition) : LaunchedSince 0 (transition :: past) :=
  ⟨[], transition, past, rfl, started, by simp, rfl⟩

section Steps

variable {history : List Transition} {transition : Transition} {before : Supervisor}

theorem startsSinceReset_le (quiet : transition.action.start = false) :
    startsSinceReset (transition :: history) ≤ startsSinceReset history := by
  have none : transition.startsFromBackoff = false := by simp [Transition.startsFromBackoff, quiet]
  rw [startsSinceReset, none, if_neg Bool.false_ne_true]
  split_ifs
  · exact Nat.zero_le _
  · omega

/-- A transition that starts nothing and leaves the failures alone, outside the backoff. -/
theorem Counted.keep (inv : Counted history transition.before)
    (quiet : transition.action.start = false)
    (alive : transition.before.phase ≠ .disabled ∧ transition.before.phase ≠ .failed)
    {after : Supervisor} (outside : after.phase ≠ .backoff)
    (same : after.failures = transition.before.failures) :
    Counted (transition :: history) after := by
  have fewer := @startsSinceReset_le history transition quiet
  have within := inv.budget alive.1
  rw [← same] at within
  refine ⟨fewer.trans inv.starts, fun _ => ?_, fun _ => same ▸ inv.cap alive.2⟩
  rw [if_neg outside]
  omega

theorem startsSinceReset_of_resets (reset : resets transition history = true) :
    startsSinceReset (transition :: history) = 0 := by
  rw [startsSinceReset, if_pos reset]

theorem readySince_calm (quiet : transition.action.start = false)
    (stays : transition.isExit = false) (unready : transition.entersReady = false) :
    readySince (transition :: history) = readySince history := by
  rw [readySince, quiet, stays, unready, if_neg (by simp), if_neg (by simp)]

/-- The gate is shut outside `ready`. -/
theorem Supervised.shut (inv : Supervised history before) (outside : before.phase ≠ .ready) :
    before.gateOpen = false := by
  cases opened : before.gateOpen with
  | false => rfl
  | true => exact absurd (inv.gate.mp opened) outside

theorem Supervised.readyAtMs_eq_zero (inv : Supervised history before)
    (outside : before.phase ≠ .ready ∧ before.phase ≠ .restarting) : before.readyAtMs = 0 := by
  rcases inv.unready with ready | restarting | zero
  · exact absurd ready outside.1
  · exact absurd restarting outside.2
  · exact zero

section

variable (inv : Supervised history transition.before)

include inv

/-- A transition without effect. While a launch is under way it is none that would end it. -/
theorem Supervised.ignored
    (same : transition.after = transition.before) (quiet : transition.action.start = false)
    (silent : transition.action.writeHello = false) (goes : transition.action.stop = false)
    (passes : transition.event.kind.passes transition.before.phase = true) :
    Supervised (transition :: history) transition.after := by
  have fewer := @startsSinceReset_le history transition quiet
  have ungreeted : transition.greets = false := by simp [Transition.greets, silent]
  have calm : transition.before.phase = .starting ∨ transition.before.phase = .handshaking →
      transition.Undisturbed := by
    intro launching
    unfold EventKind.passes at passes
    unfold Transition.Undisturbed Transition.isExit
    rcases launching with phase | phase <;> split at passes <;> simp_all
  rw [same]
  refine { inv with
    starts := fewer.trans inv.starts, budget := ?_, readyAt := ?_, launched := ?_, greeted := ?_ }
  · intro enabled
    have within := inv.budget enabled
    omega
  · intro nonzero
    rw [← inv.readyAt nonzero]
    apply readySince_calm quiet
    · unfold Transition.isExit
      split
      · next exited =>
        rw [exited] at passes
        rcases of_decide_eq_true passes with phase | phase <;>
          exact absurd (inv.readyAtMs_eq_zero (by simp [phase])) nonzero
      · rfl
    · simp [Transition.entersReady, same]
  · intro phase
    have since := (inv.launched phase).cons (calm (.inl phase)) quiet
    rwa [ungreeted] at since
  · intro phase
    have since := (inv.greeted phase).cons (calm (.inr phase)) quiet
    rwa [ungreeted] at since

/-- The exit of a run: one that had been ready for a minute resets the count, any other is one
failure more. -/
theorem Supervised.ended
    (exits : transition.isExit = true) (quiet : transition.action.start = false)
    (alive : transition.before.phase ≠ .disabled ∧ transition.before.phase ≠ .failed)
    (left : transition.after = (sshAgentFailOnExit transition.before transition.event.nowMs).1) :
    Supervised (transition :: history) transition.after := by
  have fewer := @startsSinceReset_le history transition quiet
  have within := inv.budget alive.1
  -- The count is within the failures the exit leaves, with one start to spare in backoff.
  have budget : startsSinceReset (transition :: history) + 1 ≤
      failuresAfter transition.before transition.event.nowMs := by
    unfold failuresAfter
    split_ifs with healthy
    · obtain ⟨positive, long⟩ := of_decide_eq_true healthy
      have since := inv.readyAt positive.ne'
      have reset : resets transition history = true := by simp [resets, exits, since, long]
      rw [startsSinceReset_of_resets reset]
    · omega
  rw [left, sshAgentFailOnExit]
  dsimp only
  by_cases capped : sshAgentMaxRestarts < failuresAfter transition.before transition.event.nowMs
  · rw [if_pos capped]
    refine ⟨⟨fewer.trans inv.starts, fun _ => (Nat.le_succ _).trans budget, fun running => ?_⟩,
      by simp, .inr (.inr rfl), by simp, by simp, by simp⟩
    exact absurd rfl running
  · rw [if_neg capped]
    exact ⟨⟨fewer.trans inv.starts, fun _ => budget, fun _ => Nat.le_of_not_lt capped⟩, by simp,
      .inr (.inr rfl), by simp, by simp, by simp⟩

/-- A start out of backoff or from waiting on another process. -/
theorem Supervised.restarted
    (timer : transition.event.kind = .restartTimer) (started : transition.action.start = true)
    (waiting : transition.before.phase = .backoff ∨ transition.before.phase = .elsewhere)
    (left : transition.after = { transition.before with phase := .starting }) :
    Supervised (transition :: history) transition.after := by
  have unreset : resets transition history = false := by
    simp [resets, Transition.isEnabled, Transition.isExit, timer]
  have outside : transition.before.phase ≠ .ready ∧ transition.before.phase ≠ .restarting := by
    rcases waiting with phase | phase <;> simp [phase]
  have counted : startsSinceReset (transition :: history) ≤ transition.before.failures := by
    have within := inv.budget (by rcases waiting with phase | phase <;> simp [phase])
    rw [startsSinceReset, unreset, if_neg Bool.false_ne_true]
    rcases waiting with phase | phase
    · rw [if_pos phase] at within
      simp only [Transition.startsFromBackoff, started, phase, and_self, decide_true, if_true]
      omega
    · simp [Transition.startsFromBackoff, phase]
      omega
  have cap := inv.cap (by rcases waiting with phase | phase <;> simp [phase])
  rw [left]
  have zero := inv.readyAtMs_eq_zero outside
  refine ⟨⟨counted.trans cap, fun _ => ?_, fun _ => cap⟩, by simp [inv.shut outside.1],
    .inr (.inr zero), fun nonzero => absurd zero nonzero,
    fun _ => launchedSince_start started history, by simp⟩
  rw [if_neg (by simp)]
  exact counted

theorem Supervised.turnedOff
    (quiet : transition.action.start = false) (left : transition.after = sshAgentInitialState) :
    Supervised (transition :: history) transition.after := by
  have fewer := @startsSinceReset_le history transition quiet
  rw [left]
  exact { supervised_initial with
    starts := fewer.trans inv.starts, budget := by simp [sshAgentInitialState]
    readyAt := by simp [sshAgentInitialState], launched := by simp [sshAgentInitialState]
    greeted := by simp [sshAgentInitialState] }

end

theorem Supervised.turnedOn (on : transition.isEnabled = true)
    (started : transition.action.start = true)
    (left : transition.after = { sshAgentInitialState with phase := .starting }) :
    Supervised (transition :: history) transition.after := by
  have fresh : startsSinceReset (transition :: history) = 0 :=
    startsSinceReset_of_resets (by simp [resets, on, started])
  rw [left]
  refine ⟨⟨?_, fun _ => ?_, fun _ => Nat.zero_le _⟩, by simp [sshAgentInitialState],
    .inr (.inr rfl), by simp [sshAgentInitialState],
    fun _ => launchedSince_start started history, by simp⟩
  · rw [fresh]
    exact Nat.zero_le _
  · rw [fresh]
    exact Nat.zero_le _

section

variable (inv : Supervised history transition.before)

include inv

theorem Supervised.greet
    (started : transition.event.kind = .started) (launched : transition.before.phase = .starting)
    (acted : transition.action = { sshAgentNoAction with writeHello := true })
    (left : transition.after = { transition.before with phase := .handshaking }) :
    Supervised (transition :: history) transition.after := by
  have quiet : transition.action.start = false := by rw [acted]; rfl
  have zero := inv.readyAtMs_eq_zero (by simp [launched])
  have calm : transition.Undisturbed := by
    simp [Transition.Undisturbed, Transition.isExit, started, acted, sshAgentNoAction]
  have greets : transition.greets = true := by simp [Transition.greets, started, acted]
  rw [left]
  refine ⟨inv.keep quiet (by simp [launched]) (by simp) rfl, ?_, .inr (.inr zero),
    fun nonzero => absurd zero nonzero, by simp, ?_⟩
  · simp [inv.shut (by simp [launched])]
  · intro _
    have since := (inv.launched launched).cons calm quiet
    rwa [greets] at since

theorem Supervised.failMidRun
    (running : transition.before.phase = .starting ∨ transition.before.phase = .handshaking ∨
      transition.before.phase = .ready) (stays : transition.isExit = false)
    (quiet : transition.action.start = false) {code : AgentErrorCode}
    (left : transition.after = (sshAgentFailMidRun transition.before code).1) :
    Supervised (transition :: history) transition.after := by
  have alive : transition.before.phase ≠ .disabled ∧ transition.before.phase ≠ .failed := by
    rcases running with phase | phase | phase <;> simp [phase]
  have unready : transition.entersReady = false := by
    simp [Transition.entersReady, left, sshAgentFailMidRun]
  have since : readySince (transition :: history) = readySince history :=
    readySince_calm quiet stays unready
  rw [left, sshAgentFailMidRun]
  refine ⟨inv.keep quiet alive (by simp) rfl, by simp, .inr (.inl rfl), ?_, by simp, by simp⟩
  intro nonzero
  rw [since]
  exact inv.readyAt nonzero

theorem Supervised.becomeReady
    (awaited : transition.before.phase = .handshaking) (stays : transition.isExit = false)
    (quiet : transition.action.start = false) {message : Fields}
    (left : transition.after = { transition.before with
      phase := .ready, gateOpen := true, socketPath := messageText message "socketPath"
      fifoPath := messageText message "fifoPath", agentVersion := messageText message "agentVersion"
      readyAtMs := transition.event.nowMs, errorCode := none, errorMessage := "" }) :
    Supervised (transition :: history) transition.after := by
  have enters : transition.entersReady = true := by simp [Transition.entersReady, awaited, left]
  have since : readySince (transition :: history) = some transition.event.nowMs := by
    rw [readySince, quiet, stays, enters, if_neg (by simp), if_pos rfl]
  rw [left]
  exact ⟨inv.keep quiet (by simp [awaited]) (by simp) rfl, by simp, .inl rfl, fun _ => since,
    by simp, by simp⟩

theorem Supervised.park (unready : transition.before.readyAtMs = 0)
    (alive : transition.before.phase ≠ .disabled ∧ transition.before.phase ≠ .failed)
    (quiet : transition.action.start = false)
    (left : transition.after = ⟨.elsewhere, false, "", "", "", transition.before.failures,
      transition.before.readyAtMs, some .elsewhere, sshAgentErrorMessage .elsewhere⟩) :
    Supervised (transition :: history) transition.after := by
  rw [left]
  exact ⟨inv.keep quiet alive (by simp) rfl, by simp, .inr (.inr unready),
    fun nonzero => absurd unready nonzero, by simp, by simp⟩

end

/-- The end of a run starts nothing, hands nothing on and is not ready. -/
theorem sshAgentFailOnExit_quiet (current : Supervisor) (nowMs : ℤ) :
    (sshAgentFailOnExit current nowMs).2.start = false ∧
      (sshAgentFailOnExit current nowMs).2.message = none ∧
      (sshAgentFailOnExit current nowMs).1.phase ≠ .ready := by
  unfold sshAgentFailOnExit
  dsimp only
  split
  · exact ⟨rfl, rfl, by simp⟩
  · exact ⟨rfl, rfl, by simp⟩

/-- Every transition keeps what a state says of its history. -/
theorem Supervised.step (inv : Supervised history transition.before)
    (reduced : Reduced jsonParse transition.before transition.event transition.after
      transition.action) :
    Supervised (transition :: history) transition.after := by
  obtain ⟨before, event, action, after⟩ := transition
  dsimp only at *
  cases reduced with
  | ignored passes => exact inv.ignored rfl rfl rfl rfl passes
  | turnedOff off => exact inv.turnedOff rfl rfl
  | turnedOn on idle => exact Supervised.turnedOn (by simp [Transition.isEnabled, on]) rfl rfl
  | greeted started launched => exact inv.greet started launched rfl rfl
  | failedMidRun code cause running =>
    refine inv.failMidRun running ?_ rfl rfl
    rcases cause with late | ⟨text, line⟩
    · simp [Transition.isExit, late]
    · simp [Transition.isExit, line]
  | readied text message line parsed ready awaited =>
    exact inv.becomeReady awaited (by simp [Transition.isExit, line]) rfl rfl
  | handedOn text message line parsed ready =>
    exact inv.ignored rfl rfl rfl rfl (by rw [line]; rfl)
  | parked exited unready alive => exact inv.park unready alive rfl rfl
  | ended lockHeld exited alive =>
    exact inv.ended (by simp [Transition.isExit, exited]) (sshAgentFailOnExit_quiet _ _).1 alive rfl
  | restarted timer waiting => exact inv.restarted timer rfl waiting rfl

/-- `ready` is entered from `handshaking` only. -/
theorem Supervised.readied (inv : Supervised history transition.before)
    (reduced : Reduced jsonParse transition.before transition.event transition.after
      transition.action) (enters : transition.entersReady = true) :
    transition.IsReadyLine jsonParse ∧ LaunchedSince 1 history := by
  obtain ⟨outside, within⟩ := of_decide_eq_true enters
  obtain ⟨before, event, action, after⟩ := transition
  dsimp only at *
  cases reduced with
  | ignored passes => exact absurd within outside
  | readied text message line parsed ready awaited =>
    exact ⟨⟨text, message, line, parsed, ready⟩, inv.greeted awaited⟩
  | handedOn text message line parsed ready => exact absurd ready outside
  | ended lockHeld exited alive => exact absurd within (sshAgentFailOnExit_quiet _ _).2.2
  | _ => cases within

theorem Reduced.handsOn (reduced : Reduced jsonParse transition.before transition.event
      transition.after transition.action) (handed : transition.action.message.isSome = true) :
    transition.before.phase = .ready := by
  obtain ⟨before, event, action, after⟩ := transition
  dsimp only at *
  cases reduced with
  | handedOn text message line parsed ready => exact ready
  | ended lockHeld exited alive =>
    rw [(sshAgentFailOnExit_quiet _ _).2.1] at handed
    cases handed
  | _ => cases handed

theorem Reduced.leaves (reduced : Reduced jsonParse transition.before transition.event
      transition.after transition.action)
    (idle : transition.before.phase = .disabled ∨ transition.before.phase = .failed)
    (moves : transition.after.phase ≠ transition.before.phase) : transition.isEnabled = true := by
  obtain ⟨before, event, action, after⟩ := transition
  dsimp only at *
  cases reduced with
  | ignored passes => exact absurd rfl moves
  | turnedOff off => simp [Transition.isEnabled, off]
  | turnedOn on idle => simp [Transition.isEnabled, on]
  | handedOn text message line parsed ready => exact absurd rfl moves
  -- The rest takes a phase that is neither.
  | _ => rcases idle with phase | phase <;> simp_all

end Steps

/-! ### Runs -/

theorem supervised_run {history : List Transition} {state : Supervisor}
    (run : Run (supervision jsonParse) history state) :
    Supervised history state ∧ Throughout (Proper jsonParse) history := by
  refine Run.invariant (fun history state =>
    Supervised history state ∧ Throughout (Proper jsonParse) history) ?_ ?_ run
  · rintro state rfl
    exact ⟨supervised_initial, trivial⟩
  · rintro history before transition after - ⟨inv, proper⟩ ⟨rfl, rfl, reduces⟩
    have reduced := @sshAgentReduce_reduced jsonParse transition.before transition.event
    rw [reduces] at reduced
    exact ⟨inv.step reduced, ⟨inv.readied reduced, reduced.handsOn, reduced.leaves⟩, proper⟩

/-- The supervisor over every sequence of events. The gate is open exactly in `ready`; `ready`
is entered by a well-formed `ready` line alone, in a launch that was greeted once and not
disturbed since; messages are handed on in `ready` only; the resting phases are left by an
enabled event only; and since the latest reset at most five starts were made out of backoff. -/
theorem supervisor_contract {history : List Transition} {state : Supervisor}
    (run : Run (supervision jsonParse) history state) :
    (state.gateOpen = true ↔ state.phase = .ready) ∧
    (∀ recent transition past, history = recent ++ transition :: past →
      (transition.entersReady = true →
        transition.IsReadyLine jsonParse ∧ LaunchedSince 1 past) ∧
      (transition.action.message.isSome = true → transition.before.phase = .ready) ∧
      (transition.before.phase = .disabled ∨ transition.before.phase = .failed →
        transition.after.phase ≠ transition.before.phase → transition.isEnabled = true)) ∧
    startsSinceReset history ≤ 5 := by
  obtain ⟨supervised, proper⟩ := supervised_run run
  refine ⟨supervised.gate, ?_, supervised.starts⟩
  intro recent transition past split
  have each := throughout_iff_split.mp proper recent transition past split
  exact ⟨each.readied, each.handsOn, each.leaves⟩

/-- The history and state after further events, given in the order they arrive. -/
def supervise (jsonParse : Text → Option Json) :
    List Transition → Supervisor → List SupervisorEvent → List Transition × Supervisor
  | history, state, [] => (history, state)
  | history, state, event :: rest =>
    let reduced := sshAgentReduce jsonParse state event
    supervise jsonParse (⟨state, event, reduced.2, reduced.1⟩ :: history) reduced.1 rest

theorem run_supervise {history : List Transition} {state : Supervisor}
    (run : Run (supervision jsonParse) history state) (events : List SupervisorEvent) :
    Run (supervision jsonParse) (supervise jsonParse history state events).1
      (supervise jsonParse history state events).2 := by
  induction events generalizing history state with
  | nil => exact run
  | cons event rest ih =>
    apply ih
    exact run.next ⟨rfl, rfl, rfl⟩

def readyLine : Text :=
  Json.write (fun _ => []) (.object [("v", .number (.natural 2)), ("type", .string "ready"),
    ("socketPath", .string "s"), ("fifoPath", .string "f"), ("agentVersion", .string "1")])

/-- A helper that exits once before it becomes ready. -/
def oneRestart : List Transition × Supervisor :=
  supervise (Json.read fun _ => 0) [] sshAgentInitialState
    [⟨.enabled true, 1⟩, ⟨.started, 2⟩, ⟨.exited false, 3⟩, ⟨.restartTimer, 503⟩, ⟨.started, 504⟩,
      ⟨.line readyLine, 505⟩]

theorem supervisor_contract_restart :
    oneRestart.2.phase = .ready ∧ oneRestart.2.gateOpen = true ∧
      startsSinceReset oneRestart.1 = 1 ∧ startsSinceReset oneRestart.1 ≤ 5 := by
  have run := run_supervise (.start rfl : Run (supervision (Json.read fun _ => 0)) [] _)
    [⟨.enabled true, 1⟩, ⟨.started, 2⟩, ⟨.exited false, 3⟩, ⟨.restartTimer, 503⟩, ⟨.started, 504⟩,
      ⟨.line readyLine, 505⟩]
  have ready : oneRestart.2.phase = .ready := by decide +kernel
  obtain ⟨gate, -, starts⟩ := supervisor_contract run
  exact ⟨ready, gate.mpr ready, by decide +kernel, starts⟩

end QsBitwarden.Panel
