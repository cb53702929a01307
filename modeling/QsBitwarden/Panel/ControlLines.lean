import QsBitwarden.Panel.KeyLoads

/-! Owns what an event can add to the lines of one helper, and how far it moves the epoch. It
does not own the order the lines come in. -/

namespace QsBitwarden.Panel

open Agent
open Lib List

/-- A line that moves no epoch, and names none later than the panel's. -/
def LoadLine.Within (epoch : ℤ) : LoadLine → Prop
  | .keyLoadBegin _ _ => False
  | .vaultLoggedOut => False
  | .keyLoadEnd named _ => named ≤ epoch
  | .vaultLocked named => named ≤ epoch
  | _ => True

namespace KeyLoads

variable {panel panel' panel'' : KeyLoads} {jsonParse : Text → Option Json}

/-- The same helper, told lines that move no epoch. -/
structure Spoke (panel panel' : KeyLoads) : Prop where
  launches : panel'.launches = panel.launches
  epoch : panel'.sshAgentEpoch = panel.sshAgentEpoch
  lines : ∃ lines, panel'.written = panel.written ++ lines ∧
    ∀ line ∈ lines, line.Within panel.sshAgentEpoch

/-- The epoch moved on, for a load that begins or for a logout. -/
structure Advanced (panel panel' : KeyLoads) : Prop where
  launches : panel'.launches = panel.launches
  epoch : panel'.sshAgentEpoch = toInt32 (panel.sshAgentEpoch + 1)
  lines : panel'.written = panel.written ∨
    (∃ loadId, panel'.written = panel.written ++ [.keyLoadBegin panel'.sshAgentEpoch loadId]) ∨
    panel'.written = panel.written ++ [.vaultLoggedOut]

/-- What an event does to the lines and the epoch. -/
inductive Handled (panel panel' : KeyLoads) : Prop
  | spoke (spoke : Spoke panel panel')
  | advanced (between : KeyLoads) (spoke : Spoke panel between)
      (advanced : Advanced between panel')
  | launched (launches : panel'.launches = panel.launches + 1) (written : panel'.written = [])
      (epoch : panel'.sshAgentEpoch = panel.sshAgentEpoch)

theorem Spoke.silent (launches : panel'.launches = panel.launches)
    (epoch : panel'.sshAgentEpoch = panel.sshAgentEpoch)
    (written : panel'.written = panel.written) : Spoke panel panel' :=
  ⟨launches, epoch, [], by simp [written], by simp⟩

theorem Spoke.refl (panel : KeyLoads) : Spoke panel panel := .silent rfl rfl rfl

theorem Spoke.trans (first : Spoke panel panel') (second : Spoke panel' panel'') :
    Spoke panel panel'' := by
  obtain ⟨lines, written, within⟩ := first.lines
  obtain ⟨later, writtenLater, withinLater⟩ := second.lines
  refine ⟨second.launches.trans first.launches, second.epoch.trans first.epoch,
    lines ++ later, by rw [writtenLater, written, append_assoc], ?_⟩
  intro line mem
  rcases mem_append.mp mem with early | late
  · exact within line early
  · exact first.epoch ▸ withinLater line late

theorem Handled.after (first : Spoke panel panel') (second : Handled panel' panel'') :
    Handled panel panel'' := by
  cases second with
  | spoke spoke => exact .spoke (first.trans spoke)
  | advanced between spoke advanced => exact .advanced between (first.trans spoke) advanced
  | launched launches written epoch =>
    exact .launched (launches.trans (by rw [first.launches])) written (epoch.trans first.epoch)

theorem write_spoke {line : LoadLine} (within : line.Within panel.sshAgentEpoch) :
    Spoke panel (panel.write line) := by
  refine ⟨rfl, rfl, if panel.helperRunning && panel.stdinEnabled then [line] else [], ?_, ?_⟩
  · unfold write
    split_ifs
    · rfl
    · simp
  · split_ifs
    · simpa using within
    · simp

section

variable (panel : KeyLoads)

theorem write_written (line : LoadLine) : (panel.write line).written = panel.written ++ [line] ∨
      (panel.write line).written = panel.written := by
  unfold write
  split_ifs
  · exact .inl rfl
  · exact .inr rfl

theorem primeSshAgentLoadId_spoke : Spoke panel panel.primeSshAgentLoadId := by
  unfold primeSshAgentLoadId
  split_ifs
  · exact .refl panel
  · exact .silent rfl rfl rfl

theorem endSshAgentLoad_spoke (ok : Bool) :
    Spoke panel (panel.endSshAgentLoad ok) := by
  unfold endSshAgentLoad
  split_ifs
  · exact .refl panel
  · have idle : Spoke panel { panel with sshAgentLoadActive := false, sshAgentLoadId := "" } :=
      .silent rfl rfl rfl
    have told := idle.trans (@write_spoke _ (.keyLoadEnd panel.sshAgentEpoch ok) le_rfl)
    exact told.trans (primeSshAgentLoadId_spoke _)

theorem cancelSshAgentLoad_spoke : Spoke panel panel.cancelSshAgentLoad := by
  have stopped : Spoke panel { panel with listRunning := false } := .silent rfl rfl rfl
  exact (stopped.trans (endSshAgentLoad_spoke _ false)).trans (.silent rfl rfl rfl)

theorem startVaultListRead_handled (retrying : Bool) :
    Handled panel (panel.startVaultListRead retrying) := by
  unfold startVaultListRead
  dsimp only
  split_ifs
  · refine .advanced panel (.refl panel) ⟨rfl, rfl, ?_⟩
    dsimp only [write]
    split_ifs
    · exact .inr (.inl ⟨_, rfl⟩)
    · exact .inl rfl
  · exact .spoke (.silent rfl rfl rfl)

theorem loadItems_handled (context : ReadContext) :
    Handled panel (panel.loadItems context) := by
  unfold loadItems
  split_ifs
  · exact .spoke (.refl panel)
  · exact .spoke (.refl panel)
  · exact .spoke (.refl panel)
  · exact startVaultListRead_handled panel false

theorem stopSshAgentHelper_spoke : Spoke panel panel.stopSshAgentHelper := by
  unfold stopSshAgentHelper
  split_ifs
  · exact .refl panel
  · exact (@write_spoke panel .shutdown trivial).trans (.silent rfl rfl rfl)

end

/-- The four things a vault transition can ask for. -/
inductive Asked (live unlocked : Bool) (epoch : ℤ) : LifecycleAction → Prop
  | stops : Asked live unlocked epoch ⟨[], true, false, true, false⟩
  | locks : Asked live unlocked epoch
      ⟨if live then [.vaultLocked epoch] else [], true, false, false, false⟩
  | logsOut : Asked live unlocked epoch
      ⟨if live then [.vaultLoggedOut] else [], true, false, false, live⟩
  | loads : Asked live unlocked epoch ⟨[], false, live && unlocked, false, false⟩

theorem sshAgentLifecycleTransition_asked (live unlocked : Bool) (epoch : ℤ)
    (event : LifecycleEvent) :
    Asked live unlocked epoch (sshAgentLifecycleTransition live unlocked epoch event) := by
  cases event <;> constructor

section

variable (panel : KeyLoads)

theorem applySshAgentLifecycle_handled (event : LifecycleEvent)
    (context : ReadContext) : Handled panel (panel.applySshAgentLifecycle event context) := by
  have cancelled := cancelSshAgentLoad_spoke panel
  unfold applySshAgentLifecycle
  have asked := sshAgentLifecycleTransition_asked panel.gateOpen panel.unlocked
    panel.sshAgentEpoch event
  generalize sshAgentLifecycleTransition panel.gateOpen panel.unlocked panel.sshAgentEpoch event =
    action at asked
  cases asked with
  | stops => exact .spoke (cancelled.trans (stopSshAgentHelper_spoke _))
  | locks =>
    cases panel.gateOpen with
    | false => exact .spoke cancelled
    | true =>
      refine .spoke (cancelled.trans (write_spoke ?_))
      exact cancelled.epoch.ge
  | logsOut =>
    cases panel.gateOpen with
    | false => exact .spoke cancelled
    | true =>
      refine .advanced _ cancelled ⟨rfl, rfl, ?_⟩
      rcases write_written panel.cancelSshAgentLoad .vaultLoggedOut with told | gone
      · exact .inr (.inr told)
      · exact .inl gone
  | loads =>
    dsimp only
    simp only [Bool.false_eq_true, if_false, foldl_nil]
    split_ifs
    · exact loadItems_handled panel context
    · exact .spoke (.refl panel)

theorem maybeStartupLoad_handled (context : ReadContext) :
    Handled panel (panel.maybeStartupLoad context) := by
  unfold maybeStartupLoad
  split_ifs
  · exact .spoke (.refl panel)
  · exact .spoke (.refl panel)
  · exact .spoke (.refl panel)
  · exact .spoke (primeSshAgentLoadId_spoke panel)
  · exact applySshAgentLifecycle_handled panel .startup context

theorem keepNonce_spoke (candidate : String) :
    Spoke panel (panel.keepNonce candidate) := by
  unfold keepNonce
  generalize (if isValidLoadId candidate then candidate else "") = next
  exact .silent rfl rfl rfl

theorem onSshAgentLoadIdRead_handled (raw : String) (context : ReadContext) :
    Handled panel (panel.onSshAgentLoadIdRead raw context) := by
  have read := keepNonce_spoke panel (trimText raw)
  unfold onSshAgentLoadIdRead
  dsimp only
  split_ifs
  · exact Handled.after read (maybeStartupLoad_handled _ context)
  · exact .spoke read

theorem onListProcessExited_handled (success : Bool) (context : ReadContext) :
    Handled panel (panel.onListProcessExited success context) := by
  have freed : Spoke panel panel.listEnded := .silent rfl rfl rfl
  have ended := freed.trans (endSshAgentLoad_spoke _ success)
  have marked : ∀ value, Spoke panel
      ((panel.listEnded.endSshAgentLoad success).setRetried value) :=
    fun _ => ended.trans (.silent rfl rfl rfl)
  unfold onListProcessExited
  dsimp only
  split_ifs
  · exact .spoke (marked false)
  · exact Handled.after (marked false) (maybeStartupLoad_handled _ context)
  · exact Handled.after (marked true) (startVaultListRead_handled _ true)
  · exact Handled.after (marked false) (startVaultListRead_handled _ false)
  · exact .spoke (marked false)

theorem onSshAgentGateOpenChanged_spoke :
    Spoke panel panel.onSshAgentGateOpenChanged := by
  unfold onSshAgentGateOpenChanged
  split_ifs
  · exact (@write_spoke panel (.options panel.unlockOnDemand) trivial).trans
      (primeSshAgentLoadId_spoke _)
  · exact endSshAgentLoad_spoke panel false

theorem startSshAgentHelper_handled :
    Handled panel panel.startSshAgentHelper := by
  unfold startSshAgentHelper
  dsimp only
  split_ifs
  · exact .spoke (.silent rfl rfl rfl)
  · exact .launched rfl rfl rfl

theorem commit_spoke (supervisor : Supervisor) :
    Spoke panel (panel.commit supervisor) := by
  have committed : Spoke panel { panel with supervisor := supervisor } := .silent rfl rfl rfl
  unfold commit
  split_ifs
  · exact committed.trans (onSshAgentGateOpenChanged_spoke _)
  · exact committed

theorem applySshAgentEvent_handled (event : SupervisorEvent) :
    Handled panel (panel.applySshAgentEvent jsonParse event) := by
  unfold applySshAgentEvent
  generalize sshAgentReduce jsonParse panel.supervisor event = step
  have committed := commit_spoke panel step.1
  dsimp only
  generalize panel.commit step.1 = opened at committed ⊢
  have stopped : Spoke panel (if step.2.stop then opened.stopSshAgentHelper else opened) := by
    split_ifs
    · exact committed.trans (stopSshAgentHelper_spoke opened)
    · exact committed
  generalize (if step.2.stop then opened.stopSshAgentHelper else opened) = closed at stopped ⊢
  have greeted : Spoke panel (if step.2.writeHello then closed.write .hello else closed) := by
    split_ifs
    · exact stopped.trans (write_spoke trivial)
    · exact stopped
  generalize (if step.2.writeHello then closed.write .hello else closed) = said at greeted ⊢
  split_ifs
  · exact Handled.after greeted (startSshAgentHelper_handled said)
  · exact .spoke greeted

end

/-- What the panel does with an event, as far as lines and epochs go. -/
theorem handle_handled (panel : KeyLoads) (event : PanelEvent) :
    Handled panel (panel.handle jsonParse event) := by
  cases event with
  | supervisable value nowMs => exact applySshAgentEvent_handled panel _
  | started nowMs =>
    have known : Spoke panel { panel with helperStarted := true } := .silent rfl rfl rfl
    exact Handled.after known (applySshAgentEvent_handled _ _)
  | handshakeTimeout nowMs => exact applySshAgentEvent_handled panel _
  | line text nowMs => exact applySshAgentEvent_handled panel _
  | helperGone => exact .spoke (.silent rfl rfl rfl)
  | exited lockHeld nowMs => exact applySshAgentEvent_handled panel _
  | restartTimer nowMs => exact applySshAgentEvent_handled panel _
  | loadItems context => exact loadItems_handled panel context
  | listExited success context => exact onListProcessExited_handled panel success context
  | loadIdRead raw context => exact onSshAgentLoadIdRead_handled panel raw context
  | loadIdExited => exact .spoke (.silent rfl rfl rfl)
  | maybeStartupLoad context => exact maybeStartupLoad_handled panel context
  | status unlocked => exact .spoke (.silent rfl rfl rfl)
  | lifecycle event context => exact applySshAgentLifecycle_handled panel event context
  | unlockOnDemand value =>
    have kept : Spoke panel { panel with unlockOnDemand := value } := .silent rfl rfl rfl
    exact .spoke (kept.trans (@write_spoke _ (.options value) trivial))
  | screenLocked => exact .spoke (write_spoke trivial)
  | answer message => exact .spoke (write_spoke trivial)

/-- The same helper has been told more, or a new one nothing yet. -/
theorem Handled.lines (handled : Handled panel panel') :
    (panel'.launches = panel.launches ∧ ∃ lines, panel'.written = panel.written ++ lines) ∨
      (panel'.launches = panel.launches + 1 ∧ panel'.written = []) := by
  cases handled with
  | spoke spoke =>
    obtain ⟨lines, written, -⟩ := spoke.lines
    exact .inl ⟨spoke.launches, lines, written⟩
  | advanced between spoke advanced =>
    obtain ⟨lines, written, -⟩ := spoke.lines
    refine .inl ⟨advanced.launches.trans spoke.launches, ?_⟩
    rcases advanced.lines with same | ⟨loadId, begun⟩ | out
    · exact ⟨lines, same.trans written⟩
    · exact ⟨lines ++ [.keyLoadBegin panel'.sshAgentEpoch loadId],
        by rw [begun, written, append_assoc]⟩
    · exact ⟨lines ++ [.vaultLoggedOut], by rw [out, written, append_assoc]⟩
  | launched launches written epoch => exact .inr ⟨launches, written⟩

end KeyLoads

end QsBitwarden.Panel
