import QsBitwarden.Panel.ControlLines

/-! Owns the order of the lines the panel writes to one helper, and the invariant under which a
load is begun when none is, ended under its own epoch, and `hello` said once and first. It does
not own what the companion does with the lines. -/

namespace QsBitwarden.Panel

open Agent
open Lib List

/-! ### The talk -/

/-- How far the lines have come: whether `hello` is said, and where the load stands. -/
inductive Talk
  | fresh
  | idle
  | begun (epoch : ℤ)
  | ended
  | closed
  | broken
  deriving DecidableEq, Repr

namespace Talk

/-- After `shutdown` nothing is read; a line out of its place breaks the talk. -/
def hear : Talk → LoadLine → Talk
  | .closed, _ => .closed
  | .broken, _ => .broken
  | .fresh, .hello => .idle
  | .fresh, _ => .broken
  | _, .hello => .broken
  | talk, .options _ => talk
  | talk, .answer _ => talk
  | _, .vaultLocked epoch => if 0 ≤ epoch then .idle else .broken
  | _, .vaultLoggedOut => .idle
  | _, .shutdown => .closed
  | .begun _, .keyLoadBegin _ _ => .broken
  | _, .keyLoadBegin epoch loadId =>
    if 0 ≤ epoch ∧ isValidLoadId loadId then .begun epoch else .broken
  | .begun epoch, .keyLoadEnd named ok =>
    if 0 ≤ epoch ∧ named = epoch then if ok then .ended else .idle else .broken
  | _, .keyLoadEnd _ _ => .broken

def read (lines : List LoadLine) : Talk := lines.foldl hear .fresh

theorem read_append (lines later : List LoadLine) :
    read (lines ++ later) = later.foldl hear (read lines) :=
  foldl_append

theorem foldl_broken (lines : List LoadLine) : lines.foldl hear .broken = .broken := by
  induction lines with
  | nil => rfl
  | cons line rest ih => exact ih

/-- A talk that is in order was in order all along. -/
theorem read_ne_broken_of_append {lines later : List LoadLine}
    (order : read (lines ++ later) ≠ .broken) : read lines ≠ .broken := by
  intro broken
  rw [read_append, broken, foldl_broken] at order
  exact order rfl

theorem hear_ne_fresh (talk : Talk) (line : LoadLine) : talk.hear line ≠ .fresh := by
  cases talk <;> cases line <;> simp [hear] <;> split_ifs <;> simp

theorem read_eq_fresh_iff {lines : List LoadLine} : read lines = .fresh ↔ lines = [] := by
  constructor
  · intro fresh
    rcases eq_nil_or_concat lines with rfl | ⟨rest, line, rfl⟩
    · rfl
    · rw [read, concat_eq_append, foldl_append] at fresh
      exact absurd fresh (hear_ne_fresh _ line)
  · rintro rfl
    rfl

/-- `hello` and nothing else opens the talk. -/
theorem hear_fresh {line : LoadLine} (order : Talk.fresh.hear line ≠ .broken) :
    line = .hello := by
  cases line <;> first | rfl | exact absurd rfl order

theorem hear_answer {talk : Talk} {message : Answer} (opened : talk ≠ .fresh) :
    talk.hear (.answer message) = talk := by
  cases talk <;> simp_all [hear]

theorem hear_options {talk : Talk} {on : Bool} (opened : talk ≠ .fresh) :
    talk.hear (.options on) = talk := by
  cases talk <;> simp_all [hear]

/-- A line in its place, and where the talk is after it. -/
inductive Hears : Talk → LoadLine → Talk → Prop
  | greeted : Hears .fresh .hello .idle
  | chose {talk : Talk} (on : Bool) : Hears talk (.options on) talk
  | answered {talk : Talk} (message : Answer) : Hears talk (.answer message) talk
  | begun {talk : Talk} {epoch : ℤ} {loadId : String} (resting : talk = .idle ∨ talk = .ended)
      (nonnegative : 0 ≤ epoch) (valid : isValidLoadId loadId = true) :
      Hears talk (.keyLoadBegin epoch loadId) (.begun epoch)
  | ended {epoch : ℤ} (ok : Bool) (nonnegative : 0 ≤ epoch) :
      Hears (.begun epoch) (.keyLoadEnd epoch ok) (if ok then .ended else .idle)
  | locked {talk : Talk} {epoch : ℤ} (nonnegative : 0 ≤ epoch) :
      Hears talk (.vaultLocked epoch) .idle
  | loggedOut {talk : Talk} : Hears talk .vaultLoggedOut .idle
  | shut {talk : Talk} : Hears talk .shutdown .closed

theorem hears_of_order {talk : Talk} {line : LoadLine} (alive : talk ≠ .closed)
    (order : talk.hear line ≠ .broken) : Hears talk line (talk.hear line) := by
  have unbroken : talk ≠ .broken := by
    rintro rfl
    exact order rfl
  by_cases fresh : talk = .fresh
  · subst fresh
    cases hear_fresh order
    exact .greeted
  · cases line with
    | hello => cases talk <;> simp_all [hear]
    | options on =>
      rw [hear_options fresh]
      exact .chose on
    | answer message =>
      rw [hear_answer fresh]
      exact .answered message
    | keyLoadBegin epoch loadId =>
      have begins : (0 ≤ epoch ∧ isValidLoadId loadId = true) ∧ (talk = .idle ∨ talk = .ended) := by
        cases talk <;> simp_all [hear]
      have heard : talk.hear (.keyLoadBegin epoch loadId) = .begun epoch := by
        rcases begins.2 with rfl | rfl <;> simp [hear, begins.1]
      rw [heard]
      exact .begun begins.2 begins.1.1 begins.1.2
    | keyLoadEnd epoch ok =>
      cases talk <;> simp_all [hear]
      exact .ended ok order.1
    | vaultLocked epoch =>
      have nonnegative : 0 ≤ epoch := by
        cases talk <;> simp_all [hear]
      have heard : talk.hear (.vaultLocked epoch) = .idle := by
        cases talk <;> simp_all [hear]
      rw [heard]
      exact .locked nonnegative
    | vaultLoggedOut =>
      have heard : talk.hear .vaultLoggedOut = .idle := by cases talk <;> simp_all [hear]
      rw [heard]
      exact .loggedOut
    | shutdown =>
      have heard : talk.hear .shutdown = .closed := by cases talk <;> simp_all [hear]
      rw [heard]
      exact .shut

end Talk

namespace KeyLoads

variable {panel panel' panel'' : KeyLoads} {jsonParse : Text → Option Json}

/-- What the helper that runs has been told; one that is gone hears nothing more. -/
def channel (panel : KeyLoads) : Talk :=
  if panel.helperRunning then Talk.read panel.written else .closed

/-- `hello` once and first. -/
def Greeting (lines : List LoadLine) : Prop :=
  lines = [] ∨ ∃ rest, lines = .hello :: rest ∧ .hello ∉ rest

/-- The lines are in order. -/
structure Told (panel : KeyLoads) : Prop where
  greeting : Greeting panel.written
  started : panel.written ≠ [] → panel.helperStarted = true
  order : Talk.read panel.written ≠ .broken
  stopped : panel.helperRunning = true → panel.stdinEnabled = false →
    Talk.read panel.written = .closed

/-- The lines are in order, and follow the load the panel thinks active. -/
structure Sound (panel : KeyLoads) : Prop extends Told panel where
  epoch : 0 ≤ panel.sshAgentEpoch
  nonce : panel.loadIdProc = .reading → panel.sshAgentNextLoadId = ""
  primed : panel.sshAgentLoadActive = true →
    panel.sshAgentNextLoadId = "" ∧ panel.loadIdProc ≠ .reading
  loading : panel.sshAgentLoadActive = true →
    panel.channel = .closed ∨ panel.channel = .begun panel.sshAgentEpoch
  resting : panel.sshAgentLoadActive = false → ∀ epoch, panel.channel ≠ .begun epoch

/-- A load is active only while the gate is open, and the gate opens only for a helper that has
been greeted. -/
structure Gated (panel : KeyLoads) : Prop where
  ready : panel.gateOpen = true → panel.supervisor.phase = .ready
  serving : panel.sshAgentLoadActive = true → panel.gateOpen = true
  greeted : panel.helperRunning = true →
    panel.supervisor.phase = .handshaking ∨ panel.supervisor.phase = .ready → panel.written ≠ []

/-- The channel after a line, whether or not it could be written. -/
theorem Told.channel_write (told : Told panel) (line : LoadLine) :
    (panel.write line).channel = panel.channel.hear line := by
  unfold channel
  by_cases running : panel.helperRunning
  · by_cases enabled : panel.stdinEnabled
    · simp [write, running, enabled, Talk.read_append]
    · have closed := told.stopped running (by simpa using enabled)
      simp [write, running, enabled, closed, Talk.hear]
  · simp [write, running, Talk.hear]

theorem channel_ne_fresh (greeted : panel.helperRunning = true → panel.written ≠ []) :
    panel.channel ≠ .fresh := by
  unfold channel
  split_ifs with running
  · rw [ne_eq, Talk.read_eq_fresh_iff]
    exact greeted running
  · simp

theorem Greeting.append {lines : List LoadLine} {line : LoadLine} (greeting : Greeting lines)
    (greeted : lines ≠ []) (other : line ≠ .hello) : Greeting (lines ++ [line]) := by
  rcases greeting with empty | ⟨rest, rfl, once⟩
  · exact absurd empty greeted
  · exact .inr ⟨rest ++ [line], rfl, by simp [once, other.symm]⟩

variable {line : LoadLine}

/-- A line in its place keeps the lines in order. -/
theorem Told.said (told : Told panel) (other : line ≠ .hello)
    (order : panel.channel.hear line ≠ .broken) : Told (panel.write line) := by
  have greeted : panel.helperRunning = true → panel.written ≠ [] := by
    intro running empty
    apply order
    simp only [channel, running, if_true, empty]
    by_contra unbroken
    exact other (Talk.hear_fresh unbroken)
  by_cases writable : (panel.helperRunning && panel.stdinEnabled) = true
  · have written : (panel.write line).written = panel.written ++ [line] := by simp [write, writable]
    have running : panel.helperRunning = true := (Bool.and_eq_true_iff.mp writable).1
    refine ⟨?_, fun _ => told.started (greeted running), ?_, fun _ disabled => ?_⟩
    · rw [written]
      exact told.greeting.append (greeted running) other
    · rwa [written, Talk.read_append, foldl_cons, foldl_nil, ← show panel.channel = _ from
        if_pos running]
    · exact absurd ((Bool.and_eq_true_iff.mp writable).2.symm.trans disabled) (by simp)
  · rw [write, if_neg writable]
    exact told

theorem Gated.same (gated : Gated panel) (supervisor : panel'.supervisor = panel.supervisor)
    (running : panel'.helperRunning = panel.helperRunning)
    (serving : panel'.sshAgentLoadActive = true →
      panel.sshAgentLoadActive = true ∨ panel.gateOpen = true)
    (written : panel.written ≠ [] → panel'.written ≠ []) : Gated panel' := by
  have gate : panel'.gateOpen = panel.gateOpen := by simp [gateOpen, supervisor]
  constructor
  · rw [gate, supervisor]
    exact gated.ready
  · intro active
    rw [gate]
    rcases serving active with before | opened
    · exact gated.serving before
    · exact opened
  · rw [running, supervisor]
    intro runs phase
    exact written (gated.greeted runs phase)

theorem Spoke.written_ne_nil (spoke : Spoke panel panel') (told : panel.written ≠ []) :
    panel'.written ≠ [] := by
  obtain ⟨lines, written, -⟩ := spoke.lines
  simp [written, told]

theorem write_ne_nil (line : LoadLine) (told : panel.written ≠ []) :
    (panel.write line).written ≠ [] := by
  rcases write_written panel line with more | same
  · simp [more]
  · rwa [same]

/-! ### Functions that keep the order -/

theorem primeSshAgentLoadId_sound (sound : Sound panel)
    (inactive : panel.sshAgentLoadActive = false) : Sound panel.primeSshAgentLoadId := by
  unfold primeSshAgentLoadId
  split_ifs with busy
  · exact sound
  · simp only [not_or, ne_eq, not_not] at busy
    exact { sound with
      nonce := fun _ => busy.2
      primed := fun active => absurd (inactive.symm.trans active) (by simp) }

theorem primeSshAgentLoadId_gated (gated : Gated panel) : Gated panel.primeSshAgentLoadId := by
  unfold primeSshAgentLoadId
  split_ifs
  · exact gated
  · exact { gated with }

theorem primeSshAgentLoadId_frame (panel : KeyLoads) :
    panel.primeSshAgentLoadId.supervisor = panel.supervisor ∧
      panel.primeSshAgentLoadId.helperRunning = panel.helperRunning ∧
      panel.primeSshAgentLoadId.sshAgentLoadActive = panel.sshAgentLoadActive := by
  unfold primeSshAgentLoadId
  split_ifs
  · exact ⟨rfl, rfl, rfl⟩
  · exact ⟨rfl, rfl, rfl⟩

theorem endSshAgentLoad_sound (sound : Sound panel) (ok : Bool) :
    Sound (panel.endSshAgentLoad ok) := by
  unfold endSshAgentLoad
  split_ifs with inactive
  · exact sound
  · have active : panel.sshAgentLoadActive = true := by simpa using inactive
    -- The load the panel ends is the one the helper was told to begin.
    have heard : panel.channel.hear (.keyLoadEnd panel.sshAgentEpoch ok) = .closed ∨
        panel.channel.hear (.keyLoadEnd panel.sshAgentEpoch ok) = .ended ∨
        panel.channel.hear (.keyLoadEnd panel.sshAgentEpoch ok) = .idle := by
      rcases sound.loading active with closed | begun
      · rw [closed]
        exact .inl rfl
      · rw [begun]
        cases ok <;> simp [Talk.hear, sound.epoch]
    have told : Told (panel.write (.keyLoadEnd panel.sshAgentEpoch ok)) := by
      refine sound.said (by simp) ?_
      rcases heard with heard | heard | heard <;> simp [heard]
    refine primeSshAgentLoadId_sound { told with
      epoch := sound.epoch
      nonce := sound.nonce
      primed := fun loads => absurd loads Bool.false_ne_true
      loading := fun loads => absurd loads Bool.false_ne_true
      resting := fun _ epoch begun => ?_ } rfl
    rw [← sound.channel_write] at heard
    rcases heard with heard | heard | heard <;> cases heard.symm.trans begun

theorem endSshAgentLoad_frame (panel : KeyLoads) (ok : Bool) :
    (panel.endSshAgentLoad ok).supervisor = panel.supervisor ∧
      (panel.endSshAgentLoad ok).helperRunning = panel.helperRunning ∧
      (panel.endSshAgentLoad ok).sshAgentLoadActive = false := by
  unfold endSshAgentLoad
  split_ifs with inactive
  · exact ⟨rfl, rfl, by simpa using inactive⟩
  · exact primeSshAgentLoadId_frame _

theorem endSshAgentLoad_gated (gated : Gated panel) (ok : Bool) :
    Gated (panel.endSshAgentLoad ok) := by
  obtain ⟨supervisor, running, inactive⟩ := panel.endSshAgentLoad_frame ok
  refine gated.same supervisor running (by simp [inactive]) ?_
  exact (endSshAgentLoad_spoke panel ok).written_ne_nil

/-- Both invariants. -/
structure Orderly (panel : KeyLoads) : Prop extends Sound panel, Gated panel

theorem Orderly.ends (orderly : Orderly panel) (ok : Bool) : Orderly (panel.endSshAgentLoad ok) :=
  ⟨endSshAgentLoad_sound orderly.toSound ok, endSshAgentLoad_gated orderly.toGated ok⟩

theorem Orderly.primes (orderly : Orderly panel) (inactive : panel.sshAgentLoadActive = false) :
    Orderly panel.primeSshAgentLoadId :=
  ⟨primeSshAgentLoadId_sound orderly.toSound inactive, primeSshAgentLoadId_gated orderly.toGated⟩

theorem Orderly.cancels (orderly : Orderly panel) : Orderly panel.cancelSshAgentLoad := by
  have freed : Orderly { panel with listRunning := false } := { orderly with }
  exact { freed.ends false with }

theorem cancelSshAgentLoad_frame (panel : KeyLoads) :
    panel.cancelSshAgentLoad.supervisor = panel.supervisor ∧
      panel.cancelSshAgentLoad.helperRunning = panel.helperRunning ∧
      panel.cancelSshAgentLoad.sshAgentLoadActive = false :=
  endSshAgentLoad_frame { panel with listRunning := false } false

/-- An open gate is one for a helper that has been greeted. -/
theorem Orderly.channel_ne_fresh (orderly : Orderly panel) (opened : panel.gateOpen = true) :
    panel.channel ≠ .fresh :=
  KeyLoads.channel_ne_fresh fun running =>
    orderly.greeted running (.inr (orderly.ready opened))

theorem channel_ne_broken (sound : Sound panel) : panel.channel ≠ .broken := by
  unfold channel
  split_ifs
  · exact sound.order
  · simp

/-- A load is begun with a nonce, so none is active; and under an epoch that has not wrapped. -/
theorem Orderly.starts (orderly : Orderly panel) {retrying : Bool}
    (fits : 0 ≤ (panel.startVaultListRead retrying).sshAgentEpoch) :
    Orderly (panel.startVaultListRead retrying) := by
  unfold startVaultListRead at fits ⊢
  dsimp only at fits ⊢
  split_ifs at fits ⊢ with useAgent
  · simp only [Bool.and_eq_true] at useAgent
    obtain ⟨⟨-, opened⟩, valid⟩ := useAgent
    have primed : panel.sshAgentNextLoadId ≠ "" := by
      intro empty
      rw [empty] at valid
      exact absurd valid (by decide)
    have inactive : panel.sshAgentLoadActive = false := by
      cases active : panel.sshAgentLoadActive with
      | false => rfl
      | true => exact absurd (orderly.primed active).1 primed
    have heard : panel.channel.hear (.keyLoadBegin (toInt32 (panel.sshAgentEpoch + 1))
        panel.sshAgentNextLoadId) = .closed ∨
        panel.channel.hear (.keyLoadBegin (toInt32 (panel.sshAgentEpoch + 1))
          panel.sshAgentNextLoadId) = .begun (toInt32 (panel.sshAgentEpoch + 1)) := by
      have greeted := orderly.channel_ne_fresh opened
      have unbroken := channel_ne_broken orderly.toSound
      have resting := orderly.resting inactive
      have nonnegative : 0 ≤ toInt32 (panel.sshAgentEpoch + 1) := fits
      cases talk : panel.channel <;> simp_all [Talk.hear]
    have told : Told (panel.write (.keyLoadBegin (toInt32 (panel.sshAgentEpoch + 1))
        panel.sshAgentNextLoadId)) := by
      refine orderly.said (by simp) ?_
      rcases heard with heard | heard <;> simp [heard]
    rw [← orderly.channel_write] at heard
    refine ⟨{ told with
      epoch := fits
      nonce := fun _ => rfl
      primed := fun _ => ⟨rfl, fun reading => primed (orderly.nonce reading)⟩
      loading := fun _ => heard
      resting := fun idle => absurd idle.symm Bool.false_ne_true }, ?_⟩
    exact orderly.toGated.same rfl rfl (fun _ => .inr opened) (@write_ne_nil panel _)
  · exact { orderly with }

variable {context : ReadContext}

theorem Orderly.loads (orderly : Orderly panel)
    (fits : 0 ≤ (panel.loadItems context).sshAgentEpoch) : Orderly (panel.loadItems context) := by
  unfold loadItems at fits ⊢
  split_ifs at fits ⊢
  · exact orderly
  · exact orderly
  · exact orderly
  · exact orderly.starts fits

/-- A line about requests, grants or options leaves the load where it is. -/
theorem Orderly.tells (orderly : Orderly panel) (other : line ≠ .hello)
    (kept : panel.channel.hear line = panel.channel) : Orderly (panel.write line) := by
  have told := orderly.said other (kept.symm ▸ channel_ne_broken orderly.toSound)
  rw [← orderly.channel_write] at kept
  refine ⟨{ told, orderly with loading := ?_, resting := ?_ },
    orderly.toGated.same rfl rfl .inl (write_ne_nil line)⟩
  · rw [kept]
    exact orderly.loading
  · rw [kept]
    exact orderly.resting

theorem hear_shutdown (sound : Sound panel) (greeted : panel.channel ≠ .fresh) :
    panel.channel.hear .shutdown = .closed := by
  have unbroken := channel_ne_broken sound
  cases talk : panel.channel <;> simp_all [Talk.hear]

theorem stopSshAgentHelper_sound (sound : Sound panel) (greeted : panel.channel ≠ .fresh) :
    Sound panel.stopSshAgentHelper := by
  have closed := hear_shutdown sound greeted
  unfold stopSshAgentHelper
  split_ifs with gone
  · exact sound
  · have running : panel.helperRunning = true := by simpa using gone
    have told : Told (panel.write .shutdown) := sound.said (by simp) (by simp [closed])
    have channel := (sound.channel_write .shutdown).trans closed
    refine { told, sound with
      stopped := fun _ _ => ?_
      loading := fun _ => .inl channel
      resting := fun _ epoch begun => by cases channel.symm.trans begun }
    unfold KeyLoads.channel at channel
    rwa [if_pos (show (panel.write .shutdown).helperRunning = true from running)] at channel

theorem stopSshAgentHelper_frame (panel : KeyLoads) :
    panel.stopSshAgentHelper.supervisor = panel.supervisor ∧
      panel.stopSshAgentHelper.helperRunning = panel.helperRunning ∧
      panel.stopSshAgentHelper.sshAgentLoadActive = panel.sshAgentLoadActive := by
  unfold stopSshAgentHelper
  split_ifs
  · exact ⟨rfl, rfl, rfl⟩
  · exact ⟨rfl, rfl, rfl⟩

theorem stopSshAgentHelper_gated (gated : Gated panel) : Gated panel.stopSshAgentHelper := by
  obtain ⟨supervisor, running, active⟩ := panel.stopSshAgentHelper_frame
  refine gated.same supervisor running ?_ (stopSshAgentHelper_spoke panel).written_ne_nil
  rw [active]
  exact .inl

/-- A lock or a logout, once the load is cancelled. -/
theorem Orderly.closes (orderly : Orderly panel) (opened : panel.gateOpen = true)
    (inactive : panel.sshAgentLoadActive = false) (other : line ≠ .hello)
    (idle : ∀ talk : Talk, talk ≠ .fresh → talk ≠ .broken →
      talk.hear line = .idle ∨ talk.hear line = .closed)
    {epoch : ℤ} (fits : 0 ≤ epoch) :
    Orderly { panel.write line with sshAgentEpoch := epoch } := by
  have heard := idle panel.channel (orderly.channel_ne_fresh opened)
    (channel_ne_broken orderly.toSound)
  have told : Told (panel.write line) := by
    refine orderly.said other ?_
    rcases heard with heard | heard <;> simp [heard]
  rw [← orderly.channel_write] at heard
  refine ⟨{ told, orderly with
    epoch := fits
    loading := fun active => absurd (inactive.symm.trans active) (by simp)
    resting := fun _ epoch begun => ?_ },
    orderly.toGated.same rfl rfl .inl (write_ne_nil line)⟩
  rcases heard with heard | heard <;> cases heard.symm.trans begun

/-- The helper has been greeted, unless it is gone. -/
def Spoken (panel : KeyLoads) : Prop := panel.helperRunning = true → panel.written ≠ []

section

variable (orderly : Orderly panel)

include orderly

theorem Orderly.lives {event : LifecycleEvent}
    (spoken : event = .disable ∨ event = .shutdown → Spoken panel)
    (fits : 0 ≤ (panel.applySshAgentLifecycle event context).sshAgentEpoch) :
    Orderly (panel.applySshAgentLifecycle event context) := by
  have cancelled := orderly.cancels
  obtain ⟨supervisor, running, inactive⟩ := panel.cancelSshAgentLoad_frame
  have gate : panel.cancelSshAgentLoad.gateOpen = panel.gateOpen := by
    rw [gateOpen, supervisor, gateOpen]
  unfold applySshAgentLifecycle at fits ⊢
  have asked := sshAgentLifecycleTransition_asked panel.gateOpen panel.unlocked
    panel.sshAgentEpoch event
  generalize transition : sshAgentLifecycleTransition panel.gateOpen panel.unlocked
    panel.sshAgentEpoch event = action at asked fits
  cases asked with
  | stops =>
    have ending : event = .disable ∨ event = .shutdown := by
      cases event <;> simp_all [sshAgentLifecycleTransition]
    refine ⟨stopSshAgentHelper_sound cancelled.toSound ?_,
      stopSshAgentHelper_gated cancelled.toGated⟩
    refine KeyLoads.channel_ne_fresh fun runs => ?_
    exact (cancelSshAgentLoad_spoke panel).written_ne_nil (spoken ending (running ▸ runs))
  | locks =>
    cases opened : panel.gateOpen with
    | false => exact cancelled
    | true =>
      refine cancelled.closes (gate.trans opened) inactive (by simp) ?_ cancelled.epoch
      intro talk greeted unbroken
      cases talk <;> simp_all [Talk.hear, orderly.epoch]
  | logsOut =>
    cases opened : panel.gateOpen with
    | false => exact cancelled
    | true =>
      rw [opened] at fits
      refine cancelled.closes (gate.trans opened) inactive (by simp) ?_ fits
      intro talk greeted unbroken
      cases talk <;> simp_all [Talk.hear]
  | loads =>
    simp only [Bool.false_eq_true, if_false, foldl_nil] at fits ⊢
    split_ifs at fits ⊢
    · exact orderly.loads fits
    · exact orderly

theorem Orderly.startsUp (fits : 0 ≤ (panel.maybeStartupLoad context).sshAgentEpoch) :
    Orderly (panel.maybeStartupLoad context) := by
  unfold maybeStartupLoad at fits ⊢
  split_ifs at fits ⊢ with closed busy
  · exact orderly
  · exact orderly
  · exact orderly
  · exact orderly.primes (by simp_all)
  · exact orderly.lives (by simp) fits

/-- The nonce that was asked for has come. -/
theorem Orderly.keeps (reading : panel.loadIdProc = .reading)
    (candidate : String) : Orderly (panel.keepNonce candidate) := by
  unfold keepNonce
  generalize (if isValidLoadId candidate then candidate else "") = next
  exact { orderly with
    nonce := by simp
    primed := fun active => absurd reading (orderly.primed active).2 }

theorem Orderly.reads (reading : panel.loadIdProc = .reading)
    {raw : String} (fits : 0 ≤ (panel.onSshAgentLoadIdRead raw context).sshAgentEpoch) :
    Orderly (panel.onSshAgentLoadIdRead raw context) := by
  have kept := orderly.keeps reading (trimText raw)
  unfold onSshAgentLoadIdRead at fits ⊢
  dsimp only at fits ⊢
  split_ifs at fits ⊢
  · exact kept.startsUp fits
  · exact kept

theorem Orderly.exits {success : Bool}
    (fits : 0 ≤ (panel.onListProcessExited success context).sshAgentEpoch) :
    Orderly (panel.onListProcessExited success context) := by
  have freed : Orderly panel.listEnded := { orderly with }
  have marked : ∀ value, Orderly ((panel.listEnded.endSshAgentLoad success).setRetried value) :=
    fun _ => { freed.ends success with }
  unfold onListProcessExited at fits ⊢
  dsimp only at fits ⊢
  split_ifs at fits ⊢
  · exact marked false
  · exact (marked false).startsUp fits
  · exact (marked true).starts fits
  · exact (marked false).starts fits
  · exact marked false

/-! ### The supervised helper -/

theorem startSshAgentHelper_orderly
    (inactive : panel.sshAgentLoadActive = false) (starting : panel.supervisor.phase = .starting) :
    Orderly panel.startSshAgentHelper := by
  unfold startSshAgentHelper
  dsimp only
  split_ifs with running
  · exact { orderly with stopped := fun _ disabled => absurd disabled.symm Bool.false_ne_true }
  · exact { orderly with
      greeting := .inl rfl
      started := fun told => absurd rfl told
      order := by simp [Talk.read]
      stopped := fun _ disabled => absurd disabled.symm Bool.false_ne_true
      loading := fun active => absurd (inactive.symm.trans active) (by simp)
      resting := by simp [channel, Talk.read]
      greeted := fun _ phase => by
        rcases phase with phase | phase <;> cases starting.symm.trans phase }

end

variable {supervisor : Supervisor}

theorem applySshAgentEvent_eq {event : SupervisorEvent} {action : SupervisorAction}
    (reduced : sshAgentReduce jsonParse panel.supervisor event = (supervisor, action)) :
    panel.applySshAgentEvent jsonParse event =
      (let panel := panel.commit supervisor
      let panel := if action.stop then panel.stopSshAgentHelper else panel
      let panel := if action.writeHello then panel.write .hello else panel
      if action.start then panel.startSshAgentHelper else panel) := by
  unfold applySshAgentEvent
  rw [reduced]

theorem Sound.commits (sound : Sound panel) (supervisor : Supervisor) :
    Sound { panel with supervisor := supervisor } :=
  { sound with }

/-- The gate is closed, or stays closed, and with it goes the load. -/
theorem Orderly.shuts (orderly : Orderly panel)
    (closed : supervisor.gateOpen = false) (handshake : supervisor.phase ≠ .handshaking)
    (ready : supervisor.phase ≠ .ready) :
    Orderly (panel.commit supervisor) ∧ (panel.commit supervisor).sshAgentLoadActive = false ∧
      (panel.commit supervisor).supervisor = supervisor ∧
      (panel.commit supervisor).helperRunning = panel.helperRunning := by
  have committed := orderly.toSound.commits supervisor
  have gated : ∀ after : KeyLoads, after.supervisor = supervisor →
      after.sshAgentLoadActive = false → Gated after := by
    intro after same inactive
    refine ⟨by simp [gateOpen, same, closed], by simp [inactive], ?_⟩
    rw [same]
    intro _ phase
    rcases phase with phase | phase
    · exact absurd phase handshake
    · exact absurd phase ready
  unfold commit
  split_ifs with changed
  · have handler : ({ panel with supervisor := supervisor } : KeyLoads).onSshAgentGateOpenChanged =
        ({ panel with supervisor := supervisor } : KeyLoads).endSshAgentLoad false := by
      unfold onSshAgentGateOpenChanged
      rw [if_neg (by simp [gateOpen, closed])]
    obtain ⟨same, running, inactive⟩ :=
      ({ panel with supervisor := supervisor } : KeyLoads).endSshAgentLoad_frame false
    rw [handler]
    exact ⟨⟨endSshAgentLoad_sound committed false, gated _ same inactive⟩, inactive, same, running⟩
  · have inactive : panel.sshAgentLoadActive = false := by
      cases active : panel.sshAgentLoadActive with
      | false => rfl
      | true =>
        have opened := orderly.serving active
        exact absurd (not_not.mp changed) (by simp [closed, opened])
    exact ⟨⟨committed, gated _ rfl inactive⟩, inactive, rfl, rfl⟩

theorem Orderly.stops (orderly : Orderly panel) (spoken : Spoken panel) :
    Orderly panel.stopSshAgentHelper :=
  ⟨stopSshAgentHelper_sound orderly.toSound (KeyLoads.channel_ne_fresh spoken),
    stopSshAgentHelper_gated orderly.toGated⟩

theorem Gated.inactive (gated : Gated panel) (closed : panel.gateOpen = false) :
    panel.sshAgentLoadActive = false := by
  cases active : panel.sshAgentLoadActive with
  | false => rfl
  | true => exact absurd (closed.symm.trans (gated.serving active)) (by simp)

/-- A helper that has just started, and was told nothing, is greeted. -/
theorem Orderly.greets (orderly : Orderly panel) (untold : panel.written = [])
    (started : panel.helperStarted = true) (closed : panel.gateOpen = false)
    (same : supervisor.gateOpen = panel.gateOpen) :
    Orderly ((panel.commit supervisor).write .hello) := by
  have inactive := orderly.toGated.inactive closed
  have sound := orderly.toSound.commits supervisor
  have committed : panel.commit supervisor = { panel with supervisor := supervisor } := by
    rw [commit, if_neg (by simp [same])]
  have shut : supervisor.gateOpen = false := same.trans closed
  have gated : ∀ written : List LoadLine, (panel.helperRunning = true → written ≠ []) →
      Gated { panel with supervisor := supervisor, written := written } := fun _ greeted =>
    ⟨fun opened => absurd (shut.symm.trans opened) (by simp),
      fun active => absurd (inactive.symm.trans active) (by simp), fun running _ => greeted running⟩
  rw [committed]
  unfold write
  split_ifs with writable
  · rw [Bool.and_eq_true] at writable
    have told : panel.written ++ [.hello] = [.hello] := by rw [untold, nil_append]
    change Orderly { panel with supervisor := supervisor, written := panel.written ++ [.hello] }
    rw [told]
    refine ⟨{ sound with
      greeting := .inr ⟨[], rfl, by simp⟩
      started := fun _ => started
      order := by simp [Talk.read, Talk.hear]
      stopped := fun _ disabled => absurd (writable.2.symm.trans disabled) (by simp)
      loading := fun active => absurd (inactive.symm.trans active) (by simp)
      resting := fun _ epoch => ?_ }, gated _ fun _ => by simp⟩
    unfold channel
    split_ifs <;> simp [Talk.read, Talk.hear]
  · refine ⟨sound, gated _ fun running empty => ?_⟩
    have closed := sound.stopped running (by
      simpa [show panel.helperRunning = true from running] using writable)
    rw [show ({ panel with supervisor := supervisor } : KeyLoads).written = [] from empty] at closed
    exact absurd closed (by decide)

/-- The gate opens: the helper is told the options, and a nonce is asked for. -/
theorem Orderly.opens (orderly : Orderly panel) (closed : panel.gateOpen = false)
    (awaited : panel.supervisor.phase = .handshaking)
    (opened : supervisor.gateOpen = true) (ready : supervisor.phase = .ready) :
    Orderly (panel.commit supervisor) := by
  have inactive := orderly.toGated.inactive closed
  have committed : Orderly { panel with supervisor := supervisor } := { orderly with
    ready := fun _ => ready
    serving := fun _ => opened
    greeted := fun running _ => orderly.greeted running (.inl awaited) }
  unfold commit
  rw [if_pos (by simp [opened, closed])]
  unfold onSshAgentGateOpenChanged
  rw [if_pos (show ({ panel with supervisor := supervisor } : KeyLoads).gateOpen = true
    from opened)]
  refine (committed.tells (by simp) ?_).primes inactive
  exact Talk.hear_options (committed.channel_ne_fresh opened)

theorem Gated.closed_of_phase (gated : Gated panel) (unready : panel.supervisor.phase ≠ .ready) :
    panel.gateOpen = false := by
  cases opened : panel.gateOpen with
  | false => rfl
  | true => exact absurd (gated.ready opened) unready

theorem Orderly.relaunches (orderly : Orderly panel)
    (closed : supervisor.gateOpen = false) (starting : supervisor.phase = .starting) :
    Orderly (panel.commit supervisor).startSshAgentHelper := by
  obtain ⟨shut, inactive, same, -⟩ := orderly.shuts closed (by simp [starting]) (by simp [starting])
  exact startSshAgentHelper_orderly shut inactive (same.symm ▸ starting)

theorem Orderly.halts (orderly : Orderly panel)
    (closed : supervisor.gateOpen = false) (handshake : supervisor.phase ≠ .handshaking)
    (ready : supervisor.phase ≠ .ready) (spoken : Spoken panel) :
    Orderly (panel.commit supervisor).stopSshAgentHelper := by
  obtain ⟨shut, -, -, running⟩ := orderly.shuts closed handshake ready
  refine shut.stops fun runs => ?_
  exact (commit_spoke panel supervisor).written_ne_nil (spoken (running ▸ runs))

/-- What the supervisor does keeps the order, if it stops no helper that was told nothing and
greets only such a one. -/
theorem Orderly.supervised (orderly : Orderly panel) {event : SupervisorEvent}
    (spoken : event.kind = .handshakeTimeout ∨ event.kind = .enabled false → Spoken panel)
    (untold : event.kind = .started → panel.written = [] ∧ panel.helperStarted = true) :
    Orderly (panel.applySshAgentEvent jsonParse event) := by
  have reduced := @sshAgentReduce_reduced jsonParse panel.supervisor event
  generalize step : sshAgentReduce jsonParse panel.supervisor event = result at reduced
  obtain ⟨supervisor, action⟩ := result
  dsimp only at reduced
  have stays : panel.commit panel.supervisor = panel := by rw [commit, if_neg (by simp [gateOpen])]
  rw [applySshAgentEvent_eq step]
  cases reduced with
  | ignored passes =>
    rw [stays]
    exact orderly
  | turnedOff off =>
    exact orderly.halts rfl (by decide) (by decide) (spoken (.inr off))
  | turnedOn on idle =>
    exact orderly.relaunches rfl rfl
  | greeted started launched =>
    obtain ⟨empty, started⟩ := untold started
    have closed := orderly.toGated.closed_of_phase (by simp [launched])
    exact orderly.greets empty started closed rfl
  | failedMidRun code cause running =>
    refine orderly.halts rfl (by simp [sshAgentFailMidRun]) (by simp [sshAgentFailMidRun]) ?_
    rcases cause with timeout | ⟨text, line⟩
    · exact spoken (.inl timeout)
    · intro runs
      rcases running with starting | greeted
      · -- A line is not read before the helper is greeted.
        have ignored : sshAgentReduce jsonParse panel.supervisor event =
            (panel.supervisor, sshAgentNoAction) := by
          simp [sshAgentReduce, line, starting]
        rw [ignored] at step
        have action := congrArg (fun result => result.2.stop) step
        exact absurd action Bool.false_ne_true
      · exact orderly.greeted runs greeted
  | readied text message line parsed ready awaited =>
    have closed := orderly.toGated.closed_of_phase (by simp [awaited])
    exact orderly.opens closed awaited rfl rfl
  | handedOn text message line parsed ready =>
    rw [stays]
    exact orderly
  | parked exited unready alive =>
    exact (orderly.shuts rfl (by simp) (by simp)).1
  | ended lockHeld exited alive =>
    rw [← applySshAgentEvent_eq step]
    unfold sshAgentFailOnExit at step
    dsimp only at step
    split_ifs at step <;>
      · rw [applySshAgentEvent_eq step]
        exact (orderly.shuts rfl (by simp) (by simp)).1
  | restarted timer waiting =>
    have closed := orderly.toGated.closed_of_phase (by
      rcases waiting with phase | phase <;> simp [phase])
    exact orderly.relaunches closed rfl

/-- An event that is told to a helper whether or not it has been greeted. -/
def PanelEvent.heedless : PanelEvent → Bool
  | .supervisable value _ => !value
  | .handshakeTimeout _ => true
  | .lifecycle event _ => event = .disable || event = .shutdown
  | .unlockOnDemand _ => true
  | .screenLocked => true
  | .answer _ => true
  | _ => false

/-- The panel is orderly through every event that can come, as long as the epoch has not wrapped
and a helper that was told nothing is not told of anything else before it has started. -/
theorem handle_orderly (orderly : Orderly panel) {event : PanelEvent}
    (possible : panel.possible event = true)
    (heeds : event.heedless = true → Spoken panel)
    (fits : 0 ≤ (panel.handle jsonParse event).sshAgentEpoch) :
    Orderly (panel.handle jsonParse event) := by
  cases event with
  | supervisable value nowMs =>
    refine orderly.supervised ?_ (by simp)
    intro off
    apply heeds
    simpa [PanelEvent.heedless] using off
  | started nowMs =>
    simp only [KeyLoads.possible, Bool.and_eq_true, Bool.not_eq_true'] at possible
    have untold : panel.written = [] := by
      by_contra told
      exact absurd (possible.2.symm.trans (orderly.started told)) (by simp)
    have known : Orderly { panel with helperStarted := true } :=
      { orderly with started := fun _ => rfl }
    exact known.supervised (by simp) fun _ => ⟨untold, rfl⟩
  | handshakeTimeout nowMs => exact orderly.supervised (fun _ => heeds rfl) (by simp)
  | line text nowMs => exact orderly.supervised (by simp) (by simp)
  | helperGone =>
    exact { orderly with
      stopped := fun running => absurd running Bool.false_ne_true
      loading := fun _ => .inl rfl
      resting := fun _ _ => by simp [handle, channel]
      greeted := fun running => absurd running Bool.false_ne_true }
  | exited lockHeld nowMs => exact orderly.supervised (by simp) (by simp)
  | restartTimer nowMs => exact orderly.supervised (by simp) (by simp)
  | loadItems context => exact orderly.loads fits
  | listExited success context => exact orderly.exits fits
  | loadIdRead raw context =>
    have reading : panel.loadIdProc = .reading := by simpa [KeyLoads.possible] using possible
    rw [handle] at fits ⊢
    exact orderly.reads reading fits
  | loadIdExited =>
    exact { orderly with
      nonce := by simp [handle]
      primed := fun active => ⟨(orderly.primed active).1, by simp [handle]⟩ }
  | maybeStartupLoad context => exact orderly.startsUp fits
  | status unlocked => exact { orderly with }
  | lifecycle event context =>
    refine orderly.lives (fun ending => heeds ?_) fits
    simpa [PanelEvent.heedless] using ending
  | unlockOnDemand value =>
    have kept : Orderly { panel with unlockOnDemand := value } := { orderly with }
    refine kept.tells (by simp) (Talk.hear_options ?_)
    exact channel_ne_fresh (heeds rfl)
  | screenLocked =>
    refine orderly.tells (by simp) (Talk.hear_answer ?_)
    exact channel_ne_fresh (heeds rfl)
  | answer message =>
    refine orderly.tells (by simp) (Talk.hear_answer ?_)
    exact channel_ne_fresh (heeds rfl)

end KeyLoads

end QsBitwarden.Panel
