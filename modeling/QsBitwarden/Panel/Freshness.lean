import QsBitwarden.Lib.History
import QsBitwarden.Panel.VaultReads

/-! Owns the freshness of what the panel shows: an answer is taken under the epoch its run
was started under, in every run of the panel that stamps no reader while a run of an
earlier epoch is in flight for it, and not in every run. It does not own the helper's own
generations. -/

namespace QsBitwarden.Panel

open Lib List

namespace VaultReads

/-! ### The invariant -/

/-- No reader was stamped while a run started under another epoch was in flight for it. -/
def Clean (log : List Entry) : Prop :=
  ∀ reader epoch inFlight, Entry.stamped reader epoch inFlight ∈ log →
    ∀ started ∈ inFlight, started = epoch

theorem Clean.tail {entry : Entry} {log : List Entry} (clean : Clean (entry :: log)) :
    Clean log :=
  fun reader epoch inFlight mem => clean reader epoch inFlight (mem_cons_of_mem _ mem)

/-- The epoch after the latest drop of the vault state. -/
def lastDrop : List Entry → ℕ
  | [] => 0
  | .dropped epoch :: _ => epoch
  | _ :: log => lastDrop log

/-- What holds of the parts of the panel that the stamps are about. -/
structure Sound (epoch : ℕ) (stampOf : Reader → Option ℤ) (flying : Proc → List ℕ)
    (shownBy : View → List ℕ) (log : List Entry) : Prop where
  stamps : ∀ reader stamp, stampOf reader = some stamp → stamp ≤ epoch
  /-- A reader stamped in this epoch has only runs of this epoch in flight. -/
  fresh : ∀ proc, stampOf proc.reader = some (epoch : ℤ) → ∀ started ∈ flying proc, started = epoch
  applied : ∀ reader started epoch, Entry.applied reader started epoch ∈ log → started = epoch
  dropped : lastDrop log ≤ epoch
  shown : ∀ view, ∀ started ∈ shownBy view, lastDrop log ≤ started

/-- Sound as long as the stamps were clean. -/
def Guarded (panel : VaultReads) : Prop :=
  Clean panel.log →
    Sound panel.vaultEpoch panel.readEpochs panel.inFlight panel.shown panel.log

theorem guarded_initial : Guarded initial := by
  intro clean
  refine ⟨?_, ?_, ?_, Nat.le_refl 0, ?_⟩
  · intro reader stamp found
    cases found
  · intro proc found
    cases found
  · intro reader started epoch mem
    cases mem
  · intro view started mem
    cases mem

/-! ### Steps that only start and end runs -/

/-- Nothing changes but the runs in flight, and new ones start under this epoch. -/
structure Quiet (before after : VaultReads) : Prop where
  epoch : after.vaultEpoch = before.vaultEpoch
  stamps : after.readEpochs = before.readEpochs
  shown : after.shown = before.shown
  log : after.log = before.log
  runs : ∀ proc, ∀ started ∈ after.inFlight proc,
    started ∈ before.inFlight proc ∨ started = before.vaultEpoch

section Quiet

variable {panel after later : VaultReads}

theorem Quiet.refl (panel : VaultReads) : Quiet panel panel :=
  ⟨rfl, rfl, rfl, rfl, fun _ _ mem => Or.inl mem⟩

theorem Quiet.trans (first : Quiet panel after) (second : Quiet after later) :
    Quiet panel later where
  epoch := second.epoch.trans first.epoch
  stamps := second.stamps.trans first.stamps
  shown := second.shown.trans first.shown
  log := second.log.trans first.log
  runs proc started mem := by
    rcases second.runs proc started mem with known | new
    · exact first.runs proc started known
    · rw [first.epoch] at new
      exact Or.inr new

theorem Quiet.guarded (quiet : Quiet panel after) (guarded : Guarded panel) : Guarded after := by
  unfold Guarded
  rw [quiet.epoch, quiet.stamps, quiet.shown, quiet.log]
  intro clean
  have sound := guarded clean
  refine { sound with fresh := fun proc current started mem => ?_ }
  rcases quiet.runs proc started mem with known | new
  · exact sound.fresh proc current started known
  · exact new

/-- The runs in flight of a process, as its own run here and its runs in the helper. -/
theorem mem_inFlight {proc : Proc} {started : ℕ} :
    started ∈ panel.inFlight proc ↔
      (panel.procs proc).runId = .here started ∨
        ∃ id, ⟨id, (proc, started)⟩ ∈ panel.vaultRuns.entries := by
  have helperRuns : started ∈ (panel.vaultRuns.entries.filterMap fun entry =>
      if entry.2.1 = proc then some entry.2.2 else none) ↔
      ∃ id, ⟨id, (proc, started)⟩ ∈ panel.vaultRuns.entries := by
    rw [mem_filterMap]
    constructor
    · rintro ⟨⟨id, other, epoch⟩, mem, found⟩
      by_cases same : other = proc
      · rw [if_pos same] at found
        cases found
        exact ⟨id, same ▸ mem⟩
      · rw [if_neg same] at found
        cases found
    · rintro ⟨id, mem⟩
      exact ⟨_, mem, if_pos rfl⟩
  unfold inFlight
  rw [mem_append, helperRuns]
  cases (panel.procs proc).runId with
  | none => simp
  | here epoch => simp [eq_comm]
  | helper id => simp

section

variable (proc : Proc)

/-- A process that keeps its run, or has none here, starts nothing. -/
theorem quiet_setProc (state : VaultProcess) (keeps : state.runId = (panel.procs proc).runId ∨
      ∀ started, state.runId = .here started → started = panel.vaultEpoch) :
    Quiet panel (panel.setProc proc state) := by
  refine { Quiet.refl panel with runs := fun other started mem => ?_ }
  rw [mem_inFlight] at mem ⊢
  rcases mem with here | run
  · unfold setProc at here
    dsimp only at here
    by_cases named : other = proc
    · rw [if_pos named] at here
      rcases keeps with same | new
      · rw [named, ← same]
        exact .inl (.inl here)
      · exact .inr (new started here)
    · rw [if_neg named] at here
      exact .inl (.inl here)
  · exact .inl (.inr run)

theorem quiet_insertRun (id : ℕ) :
    Quiet panel
      { panel with
        vaultRunSeq := id
        vaultRuns := panel.vaultRuns.insert id (proc, panel.vaultEpoch) } := by
  refine { Quiet.refl panel with runs := fun other started mem => ?_ }
  rw [mem_inFlight] at mem ⊢
  rcases mem with here | ⟨id, inserted⟩
  · exact .inl (.inl here)
  · rcases mem_entries_insert inserted with new | known
    · cases new
      exact .inr rfl
    · exact .inl (.inr ⟨id, known⟩)

theorem quiet_vaultStart : Quiet panel (panel.vaultStart proc) := by
  unfold vaultStart
  split
  · refine (quiet_insertRun proc (panel.vaultRunSeq + 1)).trans (quiet_setProc proc _ (Or.inr ?_))
    intro started here
    cases here
  · split
    · exact Quiet.refl panel
    · exact { Quiet.refl panel with }

theorem quiet_start : Quiet panel (panel.start proc) := by
  unfold start
  split
  · refine quiet_setProc proc _ (Or.inr ?_)
    intro started here
    cases here
    rfl
  · exact quiet_vaultStart proc

theorem quiet_vaultKill : Quiet panel (panel.vaultKill proc) := by
  unfold vaultKill
  split
  · exact { Quiet.refl panel with }
  · exact Quiet.refl panel

theorem quiet_setRunning (running : Bool) :
    Quiet panel (panel.setRunning proc running) := by
  unfold setRunning
  split
  · exact Quiet.refl panel
  · dsimp only
    refine (quiet_setProc proc { panel.procs proc with running := running } (Or.inl rfl)).trans ?_
    split
    · exact quiet_start proc
    · split
      · exact quiet_vaultKill proc
      · exact Quiet.refl _

theorem quiet_launch (command : CommandLine) :
    Quiet panel (panel.launch proc command) :=
  (quiet_setProc proc { panel.procs proc with command := command } (Or.inl rfl)).trans
    (quiet_setRunning proc true)

end

theorem quiet_foldl {step : VaultReads → Proc → VaultReads}
    (each : ∀ panel proc, Quiet panel (step panel proc)) (procs : List Proc) :
    Quiet panel (procs.foldl step panel) := by
  induction procs generalizing panel with
  | nil => exact Quiet.refl panel
  | cons proc rest ih =>
    rw [foldl_cons]
    exact (each panel proc).trans ih

theorem quiet_scrubOne (panel : VaultReads) (proc : Proc) : Quiet panel (panel.scrubOne proc) := by
  unfold scrubOne
  split
  · exact Quiet.refl panel
  · exact quiet_launch proc .scrub

theorem quiet_scrubStep : Quiet panel panel.scrubStep := by
  have folded : Quiet panel (panel.scrubPending.foldl scrubOne panel) :=
    quiet_foldl quiet_scrubOne panel.scrubPending
  exact { folded with }

theorem quiet_flushOne (panel : VaultReads) (proc : Proc) : Quiet panel (panel.flushOne proc) := by
  unfold flushOne
  split
  · exact quiet_vaultStart proc
  · exact Quiet.refl panel

theorem quiet_startVaultListRead (retrying useAgent : Bool) :
    Quiet panel (panel.startVaultListRead retrying useAgent) := by
  have launched : Quiet { panel with
      listReadEarly := !panel.unlocked
      listAgentBranchActive := !retrying && !(!panel.unlocked) && useAgent }
      (panel.startVaultListRead retrying useAgent) := quiet_launch .list .read
  exact { launched with }

end Quiet

/-! ### Stamps and answers -/

section Steps

variable {panel : VaultReads}

theorem mem_secretProcesses (proc : Proc) : proc ∈ secretProcesses := by
  cases proc <;> decide

theorem guarded_beginVaultRead (guarded : Guarded panel) (reader : Reader) :
    Guarded (panel.beginVaultRead reader) := by
  intro clean
  have sound := guarded clean.tail
  refine { sound with stamps := ?_, fresh := ?_, applied := ?_ }
  · intro other stamp found
    change (if other = reader then some (panel.vaultEpoch : ℤ) else panel.readEpochs other) =
      some stamp at found
    by_cases same : other = reader
    · rw [if_pos same] at found
      exact le_of_eq (Option.some.inj found).symm
    · rw [if_neg same] at found
      exact sound.stamps other stamp found
  · intro proc current started mem
    change (if proc.reader = reader then some (panel.vaultEpoch : ℤ)
      else panel.readEpochs proc.reader) = _ at current
    by_cases same : proc.reader = reader
    · refine clean reader panel.vaultEpoch _ mem_cons_self started ?_
      refine mem_flatMap.mpr ⟨proc, ?_, mem⟩
      exact mem_filter.mpr ⟨mem_secretProcesses proc, decide_eq_true same⟩
    · rw [if_neg same] at current
      exact sound.fresh proc current started mem
  · intro other started epoch mem
    rcases mem_cons.mp mem with here | below
    · cases here
    · exact sound.applied other started epoch below

theorem guarded_invalidate (guarded : Guarded panel) (reader : Reader) :
    Guarded (panel.invalidateEpochOperation reader) := by
  intro clean
  have sound := guarded clean
  refine { sound with stamps := ?_, fresh := ?_ }
  · intro other stamp found
    change (if other = reader then some ((panel.vaultEpoch : ℤ) - 1)
      else panel.readEpochs other) = some stamp at found
    by_cases same : other = reader
    · rw [if_pos same] at found
      have below := Option.some.inj found
      show stamp ≤ (panel.vaultEpoch : ℤ)
      omega
    · rw [if_neg same] at found
      exact sound.stamps other stamp found
  · intro proc current started mem
    change (if proc.reader = reader then some ((panel.vaultEpoch : ℤ) - 1)
      else panel.readEpochs proc.reader) = some (panel.vaultEpoch : ℤ) at current
    by_cases same : proc.reader = reader
    · rw [if_pos same] at current
      have impossible := Option.some.inj current
      omega
    · rw [if_neg same] at current
      exact sound.fresh proc current started mem

/-- If the reader is stamped in this epoch, the run that answers was started in it. -/
def Arrived (panel : VaultReads) (reader : Reader) (started : ℕ) : Prop :=
  Clean panel.log → panel.readEpochs reader = some (panel.vaultEpoch : ℤ) →
    started = panel.vaultEpoch

variable {reader : Reader}

theorem stamped_of_not_stale (current : ¬panel.vaultReadIsStale reader) :
    panel.readEpochs reader = some (panel.vaultEpoch : ℤ) := by
  by_contra stale
  exact current (by simp [vaultReadIsStale, stale])

section

variable (guarded : Guarded panel)

include guarded

variable {started : ℕ}

theorem guarded_apply
    (arrived : Arrived panel reader started) (current : ¬panel.vaultReadIsStale reader) :
    Guarded (panel.apply reader started) := by
  intro clean
  have sound := guarded clean.tail
  refine { sound with applied := fun other began epoch mem => ?_ }
  rcases mem_cons.mp mem with here | below
  · cases here
    exact arrived clean.tail (stamped_of_not_stale current)
  · exact sound.applied other began epoch below

theorem guarded_display (view : View) {epochs : List ℕ}
    (recent : Clean panel.log → ∀ started ∈ epochs, lastDrop panel.log ≤ started) :
    Guarded (panel.display view epochs) := by
  intro clean
  have sound := guarded clean
  refine { sound with shown := fun other started mem => ?_ }
  change started ∈ (if other = view then epochs else panel.shown other) at mem
  by_cases same : other = view
  · rw [if_pos same] at mem
    exact recent clean started mem
  · rw [if_neg same] at mem
    exact sound.shown other started mem

theorem guarded_display_shown (view other : View) :
    Guarded (panel.display view (panel.shown other)) :=
  guarded_display guarded view fun clean => (guarded clean).shown other

/-- An answer just taken is from after the latest drop. -/
theorem recent_of_arrived
    (arrived : Arrived panel reader started) (current : ¬panel.vaultReadIsStale reader) :
    Clean (panel.apply reader started).log →
      lastDrop (panel.apply reader started).log ≤ started := by
  intro clean
  have sound := guarded clean.tail
  rw [arrived clean.tail (stamped_of_not_stale current)]
  exact sound.dropped

theorem guarded_apply_display
    (arrived : Arrived panel reader started) (current : ¬panel.vaultReadIsStale reader)
    (view : View) : Guarded ((panel.apply reader started).display view [started]) := by
  refine guarded_display (guarded_apply guarded arrived current) view ?_
  intro clean other mem
  rw [mem_singleton.mp mem]
  exact recent_of_arrived guarded arrived current clean

/-! ### Readers -/

theorem guarded_launch (proc : Proc) (command : CommandLine) :
    Guarded (panel.launch proc command) :=
  (quiet_launch proc command).guarded guarded

theorem guarded_loadItems (blocked useAgent : Bool) :
    Guarded (panel.loadItems blocked useAgent) := by
  have begun := guarded_beginVaultRead guarded .items
  unfold loadItems
  split
  · exact guarded
  · split
    · exact guarded
    · dsimp only
      split
      · exact begun
      · exact (quiet_startVaultListRead false useAgent).guarded begun

theorem guarded_loadMetadata (proc : Proc) (fresh : Bool) :
    Guarded (panel.loadMetadata proc fresh) := by
  unfold loadMetadata
  split
  · exact guarded
  · exact guarded_launch (guarded_beginVaultRead guarded proc.reader) proc .read

theorem guarded_openDetail (source : DetailSource) :
    Guarded (panel.openDetail source) := by
  have cleared : Guarded (panel.display .detail []) := guarded_display guarded .detail nofun
  have begun := guarded_beginVaultRead cleared .detail
  cases source with
  | listed => exact guarded_display_shown cleared .detail .items
  | sshRecord => exact begun
  | held => exact guarded_display_shown begun .detail .items
  | fetched => exact guarded_launch begun .getItem .read

theorem guarded_pumpAttachmentQueue :
    Guarded panel.pumpAttachmentQueue := by
  have busy : Guarded { panel with attachmentBusy := true } := guarded
  unfold pumpAttachmentQueue
  split
  · exact guarded
  · exact guarded_launch (guarded_beginVaultRead busy .attachment) .attachment .read

theorem guarded_cancelAttachmentDownloads :
    Guarded panel.cancelAttachmentDownloads := by
  have idle : Guarded { panel with attachmentBusy := false } := guarded
  exact (quiet_setRunning .attachment false).guarded (guarded_invalidate idle .attachment)

theorem guarded_saveItemForm (editing : Bool) :
    Guarded (panel.saveItemForm editing) := by
  have begun := guarded_beginVaultRead guarded .itemSave
  have pending : Guarded { panel.beginVaultRead .itemSave with pendingSave := true } := begun
  unfold saveItemForm
  split
  · exact guarded
  · exact guarded_launch pending _ .read

/-! ### Handlers -/

theorem guarded_onListProcessExited
    (arrived : Arrived panel .items started) (code : ℤ) (useAgent : Bool) :
    Guarded (panel.onListProcessExited started code useAgent) := by
  have reset : ∀ retried, Guarded { panel with
      listAgentBranchActive := false
      listReadEarly := false
      listRetriedWithoutAgent := retried } := fun _ => guarded
  unfold onListProcessExited
  dsimp only
  split
  · split
    · exact reset false
    · next current => exact guarded_apply_display (reset false) arrived current .items
  · split
    · exact (quiet_startVaultListRead true useAgent).guarded
        (guarded_beginVaultRead (reset true) .items)
    · split
      · exact (quiet_startVaultListRead false useAgent).guarded
          (guarded_beginVaultRead (reset false) .items)
      · exact reset false

theorem guarded_onRead
    (arrived : Arrived panel reader started) (view : View) (code : ℤ) (readable : Bool) :
    Guarded (panel.onRead reader view started code readable) := by
  unfold onRead
  split
  · exact guarded
  · next taken =>
    have current : ¬panel.vaultReadIsStale reader := fun stale => taken (Or.inr stale)
    dsimp only
    split
    · exact guarded_apply_display guarded arrived current view
    · exact guarded_apply guarded arrived current

theorem guarded_onAttachmentDownloaded (arrived : Arrived panel .attachment started) :
    Guarded (panel.onAttachmentDownloaded started) := by
  have idle : Guarded { panel with attachmentBusy := false } := guarded
  unfold onAttachmentDownloaded
  dsimp only
  split
  · exact idle
  · next current => exact guarded_apply idle arrived current

theorem guarded_onSaveItemFinished
    (arrived : Arrived panel .itemSave started) (code : ℤ) (readable blocked useAgent : Bool) :
    Guarded (panel.onSaveItemFinished started code readable blocked useAgent) := by
  have idle : Guarded { panel with pendingSave := false } := guarded
  unfold onSaveItemFinished
  dsimp only
  split
  · exact idle
  · next current =>
    have applied := guarded_apply idle arrived current
    split
    · exact applied
    · split
      · refine guarded_display applied .items ?_
        intro clean other mem
        rcases mem_cons.mp mem with here | known
        · rw [here]
          exact recent_of_arrived idle arrived current clean
        · exact (applied clean).shown .items other known
      · exact guarded_loadItems applied blocked useAgent

end

variable {proc : Proc}

section

variable (guarded : Guarded panel)

include guarded

theorem guarded_onExited {started : ℕ}
    (arrived : Arrived panel proc.reader started) (answer : Answer) :
    Guarded (panel.onExited proc started answer) := by
  unfold onExited
  split
  · exact guarded
  · cases proc with
    | list => exact guarded_onListProcessExited guarded arrived _ _
    | listOrgs => exact guarded_onRead guarded arrived _ _ _
    | listFolders => exact guarded_onRead guarded arrived _ _ _
    | listCollections => exact guarded_onRead guarded arrived _ _ _
    | getItem => exact guarded_onRead guarded arrived _ _ _
    | attachment => exact guarded_onAttachmentDownloaded guarded arrived
    | createItem => exact guarded_onSaveItemFinished guarded arrived _ _ _ _
    | editItem => exact guarded_onSaveItemFinished guarded arrived _ _ _ _

theorem guarded_finish {started : ℕ}
    (arrived : Arrived panel proc.reader started) (answer : Answer) :
    Guarded (panel.finish proc started answer) := by
  have idle : Quiet panel
      (panel.setProc proc { panel.procs proc with running := false, runId := .none }) :=
    quiet_setProc proc _ (Or.inr fun _ here => by cases here)
  exact guarded_onExited (idle.guarded guarded) arrived answer

theorem arrived_of_inFlight {started : ℕ}
    (flying : started ∈ panel.inFlight proc) : Arrived panel proc.reader started :=
  fun clean current => (guarded clean).fresh proc current started flying

theorem guarded_onRunExited (id : ℕ) (answer : Answer) :
    Guarded (panel.onRunExited id answer) := by
  unfold onRunExited
  cases found : panel.vaultRuns.lookup id with
  | none => exact guarded
  | some run =>
    obtain ⟨proc, started⟩ := run
    have mem : (⟨id, (proc, started)⟩ : (_ : ℕ) × Proc × ℕ) ∈ panel.vaultRuns.entries :=
      AList.mem_lookup_iff.mp found
    have arrived := arrived_of_inFlight guarded (mem_inFlight.mpr (Or.inr ⟨id, mem⟩))
    have erased : Quiet panel { panel with vaultRuns := panel.vaultRuns.erase id } := by
      refine { Quiet.refl panel with runs := fun other began flying => .inl ?_ }
      rw [mem_inFlight] at flying ⊢
      exact flying.imp_right fun ⟨kept, inside⟩ => ⟨kept, (kerase_sublist id _).subset inside⟩
    exact guarded_finish (erased.guarded guarded) arrived answer

theorem guarded_onLocalExited (proc : Proc) (answer : Answer) :
    Guarded (panel.onLocalExited proc answer) := by
  unfold onLocalExited
  split
  · next started here =>
    exact guarded_finish guarded
      (arrived_of_inFlight guarded (mem_inFlight.mpr (Or.inl here))) answer
  · exact guarded

/-! ### The vault and the helper -/

theorem guarded_dropVaultState : Guarded panel.dropVaultState := by
  have cancelled := guarded_cancelAttachmentDownloads guarded
  let before := panel.cancelAttachmentDownloads
  have dropped : Guarded { before with
      session := false
      vaultEpoch := before.vaultEpoch + 1
      readEpochs := fun _ => none
      shown := fun _ => []
      log := .dropped (before.vaultEpoch + 1) :: before.log
      scrubPending := secretProcesses } := by
    intro clean
    have sound := cancelled clean.tail
    refine ⟨?_, ?_, ?_, Nat.le_refl _, ?_⟩
    · intro reader stamp found
      cases found
    · intro proc found
      cases found
    · intro reader started epoch mem
      rcases mem_cons.mp mem with here | below
      · cases here
      · exact sound.applied reader started epoch below
    · intro view started mem
      cases mem
  exact quiet_scrubStep.guarded dropped

theorem guarded_adoptSession (confirmed : Bool) :
    Guarded (panel.adoptSession confirmed) := by
  intro clean
  have sound := guarded clean
  refine ⟨?_, ?_, sound.applied, Nat.le_succ_of_le sound.dropped, sound.shown⟩
  · intro reader stamp found
    have bound := sound.stamps reader stamp found
    show stamp ≤ ((panel.vaultEpoch + 1 : ℕ) : ℤ)
    omega
  · intro proc current started mem
    -- a stamp from before the new epoch is not the new epoch
    have bound : ((panel.vaultEpoch + 1 : ℕ) : ℤ) ≤ panel.vaultEpoch :=
      sound.stamps proc.reader _ current
    omega

theorem guarded_failRuns (ids : List ℕ) :
    Guarded (panel.failRuns ids) := by
  unfold failRuns
  induction ids generalizing panel with
  | nil => exact guarded
  | cons id rest ih => exact ih (guarded_onRunExited guarded id _)

theorem guarded_onHelperReady : Guarded panel.onHelperReady := by
  have active : Guarded { panel with vaultHelperState := .active, vaultWaiting := [] } := guarded
  unfold onHelperReady
  split
  · exact (quiet_foldl quiet_flushOne panel.vaultWaiting).guarded active
  · exact guarded

theorem guarded_onHelperExited : Guarded panel.onHelperExited := by
  unfold onHelperExited
  dsimp only
  refine guarded_failRuns ?_ _
  have noted : ∀ state, Guarded { panel with
      vaultHelperState := state
      vaultHelperRunning := false } := fun _ => guarded
  split
  · split
    · exact guarded_dropVaultState (noted .starting)
    · exact noted .starting
  · split
    · exact guarded_dropVaultState (noted panel.vaultHelperState)
    · exact noted panel.vaultHelperState

theorem guarded_handle (event : Event) :
    Guarded (panel.handle event) := by
  cases event with
  | loadItems blocked useAgent => exact guarded_loadItems guarded blocked useAgent
  | loadOrganizations fresh => exact guarded_loadMetadata guarded .listOrgs fresh
  | loadFolders fresh => exact guarded_loadMetadata guarded .listFolders fresh
  | loadCollections fresh => exact guarded_loadMetadata guarded .listCollections fresh
  | openDetail source => exact guarded_openDetail guarded source
  | pumpAttachmentQueue => exact guarded_pumpAttachmentQueue guarded
  | cancelAttachmentDownloads => exact guarded_cancelAttachmentDownloads guarded
  | saveItemForm editing => exact guarded_saveItemForm guarded editing
  | cancelSshAgentLoad => exact (quiet_setRunning .list false).guarded guarded
  | scrubRetry => exact quiet_scrubStep.guarded guarded
  | closeVault => exact guarded_dropVaultState guarded
  | adoptSession confirmed => exact guarded_adoptSession guarded confirmed
  | replaceSession =>
    change Guarded (if panel.unlocked then { panel with session := true } else panel)
    split <;> exact guarded
  | runExited id answer => exact guarded_onRunExited guarded id answer
  | localExited proc answer => exact guarded_onLocalExited guarded proc answer
  | helperReady => exact guarded_onHelperReady guarded
  | helperExited => exact guarded_onHelperExited guarded
  | _ => exact guarded

end

end Steps

/-! ### Runs -/

/-- The panel under any order of events. -/
abbrev vaultReads : System VaultReads Event := automaton handle initial

theorem run_guarded {history : List Event} {panel : VaultReads}
    (run : Run vaultReads history panel) : Guarded panel := by
  refine run.invariant (fun _ panel => Guarded panel) ?_ ?_
  · intro state start
    rw [show state = initial from start]
    exact guarded_initial
  · intro past before event after _ guarded taken
    rw [← show before.handle event = after from taken]
    exact guarded_handle guarded event

/-- Where no reader is stamped while a run of an earlier epoch is in flight for it, every
answer taken is from a run started under the epoch it is taken in, and everything shown
is from runs started after the vault was last dropped. -/
theorem reads_are_fresh {history : List Event} {panel : VaultReads}
    (run : Run vaultReads history panel) (clean : Clean panel.log) :
    (∀ reader started epoch, Entry.applied reader started epoch ∈ panel.log → started = epoch) ∧
      ∀ view, ∀ started ∈ panel.shown view, lastDrop panel.log ≤ started := by
  have sound := run_guarded run clean
  exact ⟨sound.applied, sound.shown⟩

/-- A read of the organizations that is answered before the lock. -/
def answeredRead : List Event :=
  [.helperStarting, .helperReady, .adoptSession true, .loadOrganizations false,
    .runExited 1 ⟨0, true, false, false⟩]

theorem reads_are_fresh_answered :
    Entry.applied .organizations 1 1 ∈ (answeredRead.foldl handle initial).log ∧
      ∀ view, ∀ started ∈ (answeredRead.foldl handle initial).shown view,
        lastDrop (answeredRead.foldl handle initial).log ≤ started := by
  have clean : Clean (answeredRead.foldl handle initial).log := by
    intro reader epoch inFlight mem
    have logged : (answeredRead.foldl handle initial).log =
        [.applied .organizations 1 1, .stamped .organizations 1 []] := by decide +kernel
    rw [logged] at mem
    simp only [mem_cons, not_mem_nil, or_false, reduceCtorEq, false_or,
      Entry.stamped.injEq] at mem
    rw [mem.2.2]
    simp
  exact ⟨by decide +kernel, (reads_are_fresh (run_foldl (.start rfl) answeredRead) clean).2⟩

/-- The same read, still in flight when the vault is locked and unlocked again: the reader
is stamped anew, no new run starts, and the old one's answer is taken. -/
def outlivedRead : List Event :=
  [.helperStarting, .helperReady, .adoptSession true, .loadOrganizations false, .closeVault,
    .adoptSession true, .loadOrganizations false, .runExited 1 ⟨0, true, false, false⟩]

theorem outlived_read_is_shown :
    ∃ history panel, Run vaultReads history panel ∧
      Entry.applied .organizations 1 3 ∈ panel.log ∧ panel.vaultEpoch = 3 ∧
      panel.shown .organizations = [1] ∧ lastDrop panel.log = 2 :=
  ⟨_, _, run_foldl (.start rfl) outlivedRead, by decide +kernel, by decide +kernel,
    by decide +kernel, by decide +kernel⟩

end VaultReads

end QsBitwarden.Panel
