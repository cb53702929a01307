import QsBitwarden.Panel.LoadSession

/-! Owns the epochs of the panel and of the helper it started: as long as the panel's counter has
not wrapped around, the helper is never ahead of it, and a load that begins is newer than
anything the helper has seen. -/

namespace QsBitwarden.Panel

open Agent
open Lib List Option

/-! ### Lines on their way -/

/-- How far a line can take the helper's epoch. -/
def raise (ceiling : ℤ) : LoadLine → ℤ
  | .keyLoadBegin epoch _ => max ceiling epoch
  | .vaultLocked epoch => max ceiling epoch
  | .vaultLoggedOut => ceiling + 1
  | _ => ceiling

theorem le_raise (ceiling : ℤ) (line : LoadLine) : ceiling ≤ raise ceiling line := by
  cases line <;> simp [raise]

theorem raise_mono {low high : ℤ} (le : low ≤ high) (line : LoadLine) :
    raise low line ≤ raise high line := by
  cases line <;> simp only [raise] <;> omega

/-- From this ceiling on, every load that begins is newer, and the lines lead to `top` at
most. -/
def Fresh (top : ℤ) : ℤ → List LoadLine → Prop
  | ceiling, [] => ceiling ≤ top
  | ceiling, line :: rest =>
    (∀ epoch loadId, line = .keyLoadBegin epoch loadId → ceiling < epoch) ∧
      Fresh top (raise ceiling line) rest

variable {lines : List LoadLine}

theorem Fresh.le {top ceiling : ℤ} (fresh : Fresh top ceiling lines) :
    ceiling ≤ top := by
  induction lines generalizing ceiling with
  | nil => exact fresh
  | cons line rest ih => exact (le_raise ceiling line).trans (ih fresh.2)

theorem Fresh.mono {top low high : ℤ} (le : low ≤ high)
    (fresh : Fresh top high lines) : Fresh top low lines := by
  induction lines generalizing low high with
  | nil => exact le.trans fresh
  | cons line rest ih =>
    refine ⟨?_, ih (raise_mono le line) fresh.2⟩
    intro epoch loadId begins
    exact lt_of_le_of_lt le (fresh.1 epoch loadId begins)

/-- One more line, which moves the top from one epoch to the next. -/
theorem Fresh.snoc {top top' ceiling : ℤ} {line : LoadLine} (fresh : Fresh top ceiling lines)
    (newer : ∀ epoch loadId, line = .keyLoadBegin epoch loadId → top < epoch)
    (raised : raise top line ≤ top') : Fresh top' ceiling (lines ++ [line]) := by
  induction lines generalizing ceiling with
  | nil =>
    refine ⟨?_, (raise_mono fresh line).trans raised⟩
    intro epoch loadId begins
    exact lt_of_le_of_lt fresh (newer epoch loadId begins)
  | cons first rest ih => exact ⟨fresh.1, ih fresh.2⟩

theorem Fresh.widen {top top' ceiling : ℤ}
    (fresh : Fresh top ceiling lines) (le : top ≤ top') : Fresh top' ceiling lines := by
  induction lines generalizing ceiling with
  | nil => exact fresh.trans le
  | cons line rest ih => exact ⟨fresh.1, ih fresh.2⟩

theorem LoadLine.Within.raise_le {epoch : ℤ} {line : LoadLine} (within : line.Within epoch) :
    raise epoch line ≤ epoch := by
  cases line with
  | keyLoadBegin named loadId => exact within.elim
  | vaultLoggedOut => exact within.elim
  | vaultLocked named => exact max_le le_rfl within
  | hello => exact le_rfl
  | options on => exact le_rfl
  | keyLoadEnd named ok => exact le_rfl
  | shutdown => exact le_rfl
  | answer message => exact le_rfl

theorem Fresh.append_within {top ceiling : ℤ} {lines more : List LoadLine}
    (fresh : Fresh top ceiling lines) (within : ∀ line ∈ more, line.Within top) :
    Fresh top ceiling (lines ++ more) := by
  induction more generalizing lines with
  | nil =>
    rw [append_nil]
    exact fresh
  | cons line rest ih =>
    have first : line.Within top := within line (by simp)
    have one : Fresh top ceiling (lines ++ [line]) := by
      refine fresh.snoc ?_ first.raise_le
      rintro epoch loadId rfl
      exact first.elim
    have all := ih one fun other mem => within other (by simp [mem])
    rwa [append_assoc] at all

/-! ### The helper's ceiling -/

section Companion

variable {env : Env} {c c' : Companion env} {line : LoadLine}

/-- The latest epoch the helper knows of. -/
def ceiling (c : Companion env) : ℕ := max c.store.epoch (c.activeLoad.elim 0 ActiveLoad.epoch)

/-- The active load is read under its own epoch, which is newer than the store's. -/
def Newer (c : Companion env) : Prop :=
  ∀ load, c.activeLoad = some load →
    load.window.epoch = load.epoch ∧ c.store.epoch < load.epoch

theorem ceiling_of_idle (idle : c.activeLoad = none) : ceiling c = c.store.epoch := by
  simp [ceiling, idle]

theorem ceiling_of_active {load : ActiveLoad} (active : c.activeLoad = some load) :
    ceiling c = max c.store.epoch load.epoch := by
  simp [ceiling, active]

theorem newer_of_idle (idle : c.activeLoad = none) : Newer c := by
  simp [Newer, idle]

theorem newer_of_active {load : ActiveLoad} (active : c.activeLoad = some load)
    (newer : load.window.epoch = load.epoch ∧ c.store.epoch < load.epoch) : Newer c := by
  simpa [Newer, active] using newer

theorem ceiling_of_kept (kept : LoadKept c c') : ceiling c' = ceiling c := by
  have epochs : c'.activeLoad.elim 0 ActiveLoad.epoch = c.activeLoad.elim 0 ActiveLoad.epoch := by
    simpa [Function.comp_def, ActiveLoad.terms] using
      congrArg (fun terms => terms.elim 0 Prod.fst) kept.load
  rw [ceiling, epochs, kept.store, ceiling]

theorem Newer.kept (newer : Newer c) (kept : LoadKept c c') : Newer c' := by
  intro load' active'
  obtain ⟨load, active, terms⟩ := kept.active active'
  simp only [ActiveLoad.terms, Prod.mk.injEq] at terms
  obtain ⟨epoch, window, -⟩ := terms
  rw [← window, ← epoch, kept.store]
  exact newer load active

/-- The helper's own turns do not raise it. -/
theorem Newer.own (newer : Newer c) (turn : OwnTurn c c') : Newer c' ∧ ceiling c' ≤ ceiling c := by
  rcases turn with kept | ⟨load, active, settled⟩
  · exact ⟨newer.kept kept, (ceiling_of_kept kept).le⟩
  · obtain ⟨own, -⟩ := newer load active
    refine ⟨newer_of_idle settled.idle, ?_⟩
    have bound := settled.epoch
    rw [ceiling_of_idle settled.idle, ceiling_of_active active]
    omega

/-- A line that is read raises the ceiling no further than it can, if a load it begins is newer
than the ceiling. -/
theorem Newer.turn (newer : Newer c)
    (fresh : ∀ epoch loadId, line = .keyLoadBegin epoch loadId → (ceiling c : ℤ) < epoch)
    (running : (c.turn line.input).running = true) :
    Newer (c.turn line.input) ∧ (ceiling (c.turn line.input) : ℤ) ≤ raise (ceiling c) line := by
  have store : c.store.epoch ≤ ceiling c := Nat.le_max_left _ _
  obtain ⟨message, reads, effect⟩ := effect_of_running running
  generalize c.turn line.input = after at effect running ⊢
  have quiet : Steady c after → Newer after ∧ (ceiling after : ℤ) ≤ raise (ceiling c) line := by
    intro steady
    refine ⟨newer.kept steady.toLoadKept, ?_⟩
    rw [ceiling_of_kept steady.toLoadKept]
    exact le_raise _ line
  cases line with
  | hello =>
    cases reads
    obtain ⟨active, same, -⟩ := effect
    refine ⟨by rw [Newer, active, same]; exact newer, ?_⟩
    rw [ceiling, active, same]
    exact le_rfl
  | options on =>
    cases reads
    exact quiet effect
  | keyLoadBegin epoch loadId =>
    rw [LoadLine.message] at reads
    obtain ⟨nonnegative, same⟩ := ite_none_right_eq_some.mp reads
    cases same
    obtain ⟨⟨nonce, active⟩, same, -⟩ := effect
    have ahead := fresh epoch loadId rfl
    refine ⟨newer_of_active active ⟨rfl, ?_⟩, ?_⟩
    · rw [same]
      dsimp only
      omega
    · rw [ceiling_of_active active, same, raise]
      dsimp only
      omega
  | keyLoadEnd epoch ok =>
    rw [LoadLine.message] at reads
    obtain ⟨nonnegative, same⟩ := ite_none_right_eq_some.mp reads
    cases same
    obtain ⟨⟨load, active, ends⟩, -⟩ := effect
    obtain ⟨own, older⟩ := newer load active
    show Newer after ∧ (ceiling after : ℤ) ≤ ceiling c
    rw [ceiling_of_active active]
    rcases ends with ⟨-, same, -, load', active', epoch', window', -⟩ | ⟨idle, bound⟩
    · refine ⟨newer_of_active active' ?_, ?_⟩
      · rw [window', epoch', same]
        exact ⟨own, older⟩
      · rw [ceiling_of_active active', same, epoch']
    · refine ⟨newer_of_idle idle, ?_⟩
      rw [ceiling_of_idle idle]
      omega
  | vaultLocked epoch =>
    rw [LoadLine.message] at reads
    obtain ⟨nonnegative, same⟩ := ite_none_right_eq_some.mp reads
    cases same
    obtain ⟨idle, locked, -⟩ := effect
    refine ⟨newer_of_idle idle, ?_⟩
    rw [ceiling_of_idle idle, locked, raise]
    omega
  | vaultLoggedOut =>
    cases reads
    obtain ⟨idle, out, -⟩ := effect
    refine ⟨newer_of_idle idle, ?_⟩
    rw [ceiling_of_idle idle, raise]
    omega
  | shutdown =>
    cases reads
    exact absurd (running.symm.trans effect) (by simp)
  | answer answer =>
    cases reads
    exact quiet (steady_of_isAnswer answer.2 effect)

end Companion

namespace LoadSession

variable {jsonParse : Text → Option Json} {envs : ℕ → Env} {session session' : LoadSession}
  {history : List LoadMove} {move : LoadMove}

/-! ### The two together -/

/-- The lines on their way lead from what the helper has seen to the panel's epoch. -/
structure Leading (session : LoadSession) : Prop where
  nonnegative : 0 ≤ session.panel.sshAgentEpoch
  bounded : session.panel.sshAgentEpoch ≤ 2147483647
  bound : session.delivered ≤ session.panel.written.length
  fresh : session.helper.companion.running = true →
    Fresh session.panel.sshAgentEpoch (ceiling session.helper.companion)
      (session.panel.written.drop session.delivered)
  newer : session.helper.companion.running = true → Newer session.helper.companion

theorem initial_leading (envs : ℕ → Env) : Leading (initial envs) where
  nonnegative := le_rfl
  bounded := Int.le_of_lt (by decide : (0 : ℤ) < 2147483647)
  bound := le_rfl
  fresh _ := show (ceiling (Companion.initial (envs 0)) : ℤ) ≤ 0 from le_rfl
  newer _ := newer_of_idle rfl

theorem toInt32_le (value : ℤ) : toInt32 value ≤ 2147483647 := by
  unfold toInt32
  omega

/-- The counter moves by one, or wraps around. -/
theorem toInt32_succ {value : ℤ} (nonnegative : 0 ≤ value) (bounded : value ≤ 2147483647)
    (unwrapped : 0 ≤ toInt32 (value + 1)) : toInt32 (value + 1) = value + 1 := by
  unfold toInt32 at *
  omega

/-- What the panel says keeps the lines fresh. -/
theorem fresh_handled {panel panel' : KeyLoads} {delivered : ℕ} {ceiling : ℤ}
    (fresh : Fresh panel.sshAgentEpoch ceiling (panel.written.drop delivered))
    (bound : delivered ≤ panel.written.length) (nonnegative : 0 ≤ panel.sshAgentEpoch)
    (bounded : panel.sshAgentEpoch ≤ 2147483647) (handled : KeyLoads.Handled panel panel')
    (unwrapped : 0 ≤ panel'.sshAgentEpoch) (same : panel'.launches = panel.launches) :
    Fresh panel'.sshAgentEpoch ceiling (panel'.written.drop delivered) := by
  have spoken : ∀ between, KeyLoads.Spoke panel between →
      Fresh panel.sshAgentEpoch ceiling (between.written.drop delivered) := by
    intro between spoke
    obtain ⟨lines, written, within⟩ := spoke.lines
    rw [written, drop_append_of_le_length bound]
    exact fresh.append_within within
  cases handled with
  | spoke spoke =>
    rw [spoke.epoch]
    exact spoken panel' spoke
  | advanced between spoke advanced =>
    have epoch : panel'.sshAgentEpoch = panel.sshAgentEpoch + 1 := by
      have moved := advanced.epoch
      rw [spoke.epoch] at moved
      rw [moved] at unwrapped ⊢
      exact toInt32_succ nonnegative bounded unwrapped
    have told := spoken between spoke
    obtain ⟨lines, written, -⟩ := spoke.lines
    have longer : delivered ≤ between.written.length := by
      rw [written, length_append]
      omega
    rcases advanced.lines with silent | ⟨loadId, begun⟩ | out
    · rw [silent, epoch]
      exact told.widen (by omega)
    · rw [begun, drop_append_of_le_length longer, epoch]
      refine told.snoc ?_ ?_
      · intro named loadId' begins
        cases begins
        omega
      · exact max_le (by omega) le_rfl
    · rw [out, drop_append_of_le_length longer, epoch]
      exact told.snoc (by simp) le_rfl
  | launched launches written epoch => omega

theorem epoch_le_of_handled {panel panel' : KeyLoads} (handled : KeyLoads.Handled panel panel')
    (bounded : panel.sshAgentEpoch ≤ 2147483647) : panel'.sshAgentEpoch ≤ 2147483647 := by
  cases handled with
  | spoke spoke => exact spoke.epoch ▸ bounded
  | advanced between spoke advanced =>
    rw [advanced.epoch]
    exact toInt32_le _
  | launched launches written epoch => exact epoch ▸ bounded

theorem step_leading (leading : Leading session)
    (performed : session.perform jsonParse envs move = some session')
    (unwrapped : Unwrapped session move session') : Leading session' := by
  cases perform_performed performed with
  | told event possible same lines written =>
    have handled := @KeyLoads.handle_handled jsonParse session.panel event
    refine ⟨unwrapped, epoch_le_of_handled handled leading.bounded, ?_, fun running => ?_,
      leading.newer⟩
    · rw [written, length_append]
      exact leading.bound.trans (Nat.le_add_right _ _)
    · exact fresh_handled (leading.fresh running) leading.bound leading.nonnegative
        leading.bounded handled unwrapped same
  | launched event possible written launches =>
    have handled := @KeyLoads.handle_handled jsonParse session.panel event
    refine ⟨unwrapped, epoch_le_of_handled handled leading.bounded, Nat.zero_le _, fun _ => ?_,
      fun _ => newer_of_idle rfl⟩
    rw [written]
    exact unwrapped
  | heard line reads =>
    obtain ⟨live, here⟩ := next_eq_some reads
    simp only [LoadSession.live, Bool.and_eq_true] at live
    obtain ⟨inside, at'⟩ := List.getElem?_eq_some_iff.mp here
    have fresh := leading.fresh live.2
    rw [drop_eq_getElem_cons inside, at'] at fresh
    have turned := fun running => (leading.newer live.2).turn fresh.1 running
    refine ⟨leading.nonnegative, leading.bounded, inside, fun running => ?_, fun running => ?_⟩
    · exact Fresh.mono (turned running).2 fresh.2
    · exact (turned running).1
  | closed live =>
    refine ⟨leading.nonnegative, leading.bounded, leading.bound, fun running => ?_,
      fun running => ?_⟩
    · exact absurd (running.symm.trans (turn_controlClosed _)) (by simp)
    · exact absurd (running.symm.trans (turn_controlClosed _)) (by simp)
  | turned input live =>
    simp only [LoadSession.live, Bool.and_eq_true] at live
    have turned := fun running => (leading.newer live.2).own (turn_own _ input running)
    refine ⟨leading.nonnegative, leading.bounded, leading.bound, fun running => ?_,
      fun running => (turned running).1⟩
    exact Fresh.mono (by exact_mod_cast (turned running).2) (leading.fresh live.2)

theorem run_leading (run : Run ((system jsonParse envs).restrict Unwrapped) history session) :
    Leading session := by
  refine Run.invariant (fun _ session => Leading session) ?_ ?_ run
  · rintro session rfl
    exact initial_leading envs
  · intro history session move session' run leading step
    exact step_leading leading step.1 step.2

/-- The helper's epoch never exceeds the panel's; a load that begins is newer than the epoch of
the helper that reads it; and no payload of the load that is active is refused as stale, neither
when it is decoded nor when its keys are published. -/
theorem load_epochs_stay_fresh
    (run : Run ((system jsonParse envs).restrict Unwrapped) history session)
    (running : session.helper.companion.running = true) :
    (session.helper.companion.store.epoch : ℤ) ≤ session.panel.sshAgentEpoch ∧
      (∀ epoch loadId, session.next = some (.keyLoadBegin epoch loadId) →
        (session.helper.companion.store.epoch : ℤ) < epoch) ∧
      ∀ load, session.helper.companion.activeLoad = some load →
        ∀ bytes result closed after, load.window.decode session.helper.env.fromSlice bytes
            session.helper.companion.store = (result, closed, after) →
          result ≠ .error (.load .staleEpoch) ∧
            ∀ candidate, result = .ok candidate →
              (after.publish candidate).1 ≠ .error .staleEpoch := by
  have leading := run_leading run
  have fresh := leading.fresh running
  have store : session.helper.companion.store.epoch ≤ ceiling session.helper.companion :=
    Nat.le_max_left _ _
  refine ⟨?_, ?_, ?_⟩
  · have top := fresh.le
    omega
  · intro epoch loadId reads
    obtain ⟨-, here⟩ := next_eq_some reads
    obtain ⟨inside, at'⟩ := List.getElem?_eq_some_iff.mp here
    rw [drop_eq_getElem_cons inside, at'] at fresh
    have ahead := fresh.1 epoch loadId rfl
    omega
  · intro load active bytes result closed after decoded
    obtain ⟨own, older⟩ := leading.newer running load active
    exact LoadWindow.not_stale (own.symm ▸ older) decoded

theorem load_epochs_stay_fresh_first :
    ∃ session : LoadSession, session.next = some (.keyLoadBegin 1 (nonceOf 'a')) ∧
      (session.helper.companion.store.epoch : ℤ) < 1 := by
  obtain ⟨session, here, next, running⟩ : ∃ session ∈ played firstLoad,
      session.next = some (.keyLoadBegin 1 (nonceOf 'a')) ∧
        session.helper.companion.running = true := by
    decide +kernel
  have run : Run ((system alwaysReady fun _ => listening).restrict Unwrapped) _ session :=
    (run_played here).weaken fun _ _ _ timely => timely.1
  exact ⟨session, next, (load_epochs_stay_fresh run running).2.1 1 (nonceOf 'a') next⟩

/-! ### A counter that wraps around -/

def readied : Supervisor := ⟨.ready, true, "s", "f", "1", 0, 3, none, ""⟩

/-- A panel whose helper serves, with a nonce at hand. -/
def servingPanel (epoch : ℤ) (lines : List LoadLine) : KeyLoads :=
  { KeyLoads.initial with
    supervisor := readied
    helperRunning := true
    helperStarted := true
    launches := 1
    written := lines
    sshAgentEpoch := epoch
    sshAgentNextLoadId := nonceOf 'a'
    unlocked := true }

/-- The helper has read nothing but the greeting and the options. -/
def servingSession (helper : Helper) (epoch : ℤ) (lines : List LoadLine) : LoadSession :=
  ⟨servingPanel epoch lines, helper, 2⟩

theorem logout_servingPanel (epoch : ℤ) (lines : List LoadLine) :
    (servingPanel epoch lines).handle alwaysReady (.lifecycle .logout calm) =
      servingPanel (toInt32 (epoch + 1)) (lines ++ [.vaultLoggedOut]) := rfl

theorem perform_logout (helper : Helper) (epoch : ℤ) (lines : List LoadLine) :
    (servingSession helper epoch lines).perform alwaysReady (fun _ => listening)
        (.panel (.lifecycle .logout calm)) =
      some (servingSession helper (toInt32 (epoch + 1)) (lines ++ [.vaultLoggedOut])) := by
  show some ((servingSession helper epoch lines).attend _
    ((servingPanel epoch lines).handle alwaysReady (.lifecycle .logout calm))) = _
  rw [logout_servingPanel]
  rfl

/-- As many logouts as the counter has values above zero. -/
theorem run_logouts {history : List LoadMove} {helper : Helper}
    (run : Run (system alwaysReady fun _ => listening) history (servingSession helper 0 lines))
    (count : ℕ) (fits : count ≤ 2147483647) :
    ∃ history lines, Run (system alwaysReady fun _ => listening) history
      (servingSession helper count lines) := by
  induction count with
  | zero => exact ⟨history, lines, run⟩
  | succ count ih =>
    obtain ⟨history, lines, run⟩ := ih (by omega)
    have moved : toInt32 (count + 1) = ((count + 1 : ℕ) : ℤ) := by
      unfold toInt32
      omega
    have step : (system alwaysReady fun _ => listening).step (servingSession helper count lines)
        (.panel (.lifecycle .logout calm))
        (servingSession helper ((count + 1 : ℕ) : ℤ) (lines ++ [.vaultLoggedOut])) := by
      rw [← moved]
      exact perform_logout helper count lines
    exact ⟨_, _, run.next step⟩

/-- The panel once its helper is gone, with the supervisor in this state. -/
def gonePanel (supervisor : Supervisor) (epoch : ℤ) (lines : List LoadLine) : KeyLoads :=
  { servingPanel epoch lines with supervisor := supervisor, helperRunning := false }

def backedOff : Supervisor :=
  ⟨.backoff, false, "", "", "", 1, 0, some .exited, sshAgentErrorMessage .exited⟩

/-- Its successor, launched and told nothing yet. -/
def launchedPanel (epoch : ℤ) : KeyLoads :=
  { servingPanel epoch [] with
    supervisor := { backedOff with phase := .starting }, helperStarted := false, launches := 2 }

theorem exit_gonePanel (epoch : ℤ) (lines : List LoadLine) :
    (gonePanel readied epoch lines).handle alwaysReady (.exited false 4) =
      gonePanel backedOff epoch lines := by
  have reduced : sshAgentReduce alwaysReady (gonePanel readied epoch lines).supervisor
      ⟨.exited false, 4⟩ = (backedOff,
        { sshAgentNoAction with restartInMs := sshAgentRestartDelayMs 1 }) := rfl
  exact (KeyLoads.applySshAgentEvent_eq reduced).trans rfl

theorem restart_gonePanel (epoch : ℤ) (lines : List LoadLine) :
    (gonePanel backedOff epoch lines).handle alwaysReady (.restartTimer 504) =
      launchedPanel epoch := by
  have reduced : sshAgentReduce alwaysReady (gonePanel backedOff epoch lines).supervisor
      ⟨.restartTimer, 504⟩ = ({ backedOff with phase := .starting },
        { sshAgentNoAction with start := true }) := rfl
  exact (KeyLoads.applySshAgentEvent_eq reduced).trans rfl

/-- The helper that served is gone, and its successor launched under the same epoch: nothing of
what was written is left. -/
theorem run_relaunch {history : List LoadMove} {helper : Helper} {epoch : ℤ}
    (run : Run (system alwaysReady fun _ => listening) history
      (servingSession helper epoch lines)) :
    ∃ history, Run (system alwaysReady fun _ => listening) history
      ⟨launchedPanel epoch, .launch listening, 0⟩ := by
  have gone : (system alwaysReady fun _ => listening).step (servingSession helper epoch lines)
      (.panel .helperGone) ⟨gonePanel readied epoch lines, helper, 2⟩ := rfl
  have exited : (system alwaysReady fun _ => listening).step
      ⟨gonePanel readied epoch lines, helper, 2⟩ (.panel (.exited false 4))
      ⟨gonePanel backedOff epoch lines, helper, 2⟩ := by
    show some (LoadSession.attend _ _ _) = _
    rw [exit_gonePanel]
    rfl
  have restarted : (system alwaysReady fun _ => listening).step
      ⟨gonePanel backedOff epoch lines, helper, 2⟩ (.panel (.restartTimer 504))
      ⟨launchedPanel epoch, .launch listening, 0⟩ := by
    show some (LoadSession.attend _ _ _) = _
    rw [restart_gonePanel]
    rfl
  exact ⟨_, ((run.next gone).next exited).next restarted⟩

def freely : LoadSession → LoadMove → LoadSession → Prop := fun _ _ _ => True

instance (before : LoadSession) (move : LoadMove) (after : LoadSession) :
    Decidable (freely before move after) := .isTrue trivial

/-- The successor is greeted, and the list is read again. -/
def reload : Option LoadSession :=
  playAll (perform alwaysReady fun _ => listening) freely
    ⟨launchedPanel 2147483647, .launch listening, 0⟩
    [.panel (.started 505), .deliver, .panel (.line ['r'] 506), .deliver, .panel (.loadItems calm)]

/-- After `2 ^ 31 - 1` logouts the panel begins a load under an epoch below that of the helper,
which has seen none of them. -/
theorem wrapped_epoch_is_behind :
    ∃ (session : LoadSession) (history : List LoadMove),
      Run (system alwaysReady fun _ => listening) history session ∧
        session.helper.companion.running = true ∧
        session.next = some (.keyLoadBegin (-2147483648) (nonceOf 'a')) ∧
        ¬ (session.helper.companion.store.epoch : ℤ) < -2147483648 ∧
        ¬ (session.helper.companion.store.epoch : ℤ) ≤ session.panel.sshAgentEpoch := by
  obtain ⟨served, here, panel, delivered⟩ : ∃ served ∈ played (firstLoad.take 8),
      served.panel = servingPanel 0 [.hello, .options false] ∧ served.delivered = 2 := by
    decide +kernel
  have serving : served = servingSession served.helper 0 [.hello, .options false] := by
    rw [servingSession, ← panel, ← delivered]
  have start := (run_played here).of_restrict
  rw [serving] at start
  obtain ⟨_, _, out⟩ := run_logouts start 2147483647 le_rfl
  obtain ⟨_, launched⟩ := run_relaunch out
  obtain ⟨session, again, epoch, running, next⟩ : ∃ session ∈ reload,
      session.panel.sshAgentEpoch = -2147483648 ∧ session.helper.companion.running = true ∧
        session.next = some (.keyLoadBegin (-2147483648) (nonceOf 'a')) := by
    decide +kernel
  have store : (0 : ℤ) ≤ session.helper.companion.store.epoch := Int.natCast_nonneg _
  have run := (run_playAll (launched.restrict fun _ _ _ => trivial) again).of_restrict
  exact ⟨session, _, run, running, next, by omega, by omega⟩

end LoadSession

end QsBitwarden.Panel
