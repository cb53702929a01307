import QsBitwarden.Agent.Requests
import QsBitwarden.Agent.Signatures
import QsBitwarden.Panel.SshPrompt

/-! Owns one companion process and the panel that started it, joined by the two pipes
between them, and that what the user approves is what the prompt showed. It does not own
either party. -/

namespace QsBitwarden.Agent

open Lib List Option

/-! ### The companion as a party -/

/-- The inputs of the loop that the panel's lines have no part in. -/
def Input.own : Input → Bool
  | .control _ => false
  | .malformedControl => false
  | _ => true

namespace Companion

variable {env : Env}

/-- The companion reads a line at a time; a stopped one reads nothing. -/
def party (env : Env) (Line : Type) (message : Line → ControlMessage) :
    Party (Companion env) Input Unit Line Output where
  act c input :=
    if c.running && input.own then some (c.turn input, c.spoken (c.turn input)) else none
  receive c _ line :=
    if c.running then
      some (c.turn (.control (message line)), c.spoken (c.turn (.control (message line))))
    else none

/-- Every announcement there was. -/
def Announced (c : Companion env) (request : Announcement) : Prop :=
  ∃ message, .emitted message ∈ c.log ∧ message.announcement? = some request

end Companion

/-- An id is announced once, so its announcements agree. -/
theorem announced_unique {env : Env} {c : Companion env} {inputs : List Input}
    (run : Run (Companion.system env) inputs c) {request other : Announcement}
    (announced : c.Announced request) (again : c.Announced other)
    (same : request.requestId = other.requestId) : request = other := by
  obtain ⟨message, emitted, reads⟩ := announced
  obtain ⟨message', emitted', reads'⟩ := again
  have read : ∀ {message : Output} {request : Announcement},
      message.announcement? = some request →
        (Entry.emitted message).announcedId = some request.requestId := by
    intro message request reads
    cases message <;> cases reads <;> rfl
  have one := eq_of_nodup_filterMap (run_live run).1.announcedOnce emitted emitted'
    (read reads) (same ▸ read reads')
  injection one with one
  rw [one, reads'] at reads
  exact (Option.some.inj reads).symm

end QsBitwarden.Agent

namespace QsBitwarden.Panel

open Agent
open Lib List Option

variable {env : Env}

/-! ### The session -/

/-- A companion, the panel, the messages and the lines between them. -/
abbrev Session (env : Env) := Duplex (Companion env) SshPrompts Output Line

abbrev SessionMove := Move Input Unit SshPrompts.Event SshPrompts.Receipt

namespace Session

def system (env : Env) : System (Session env) SessionMove :=
  Duplex.system (Companion.party env Line Line.message) SshPrompts.party (.initial env) .initial

variable {session : Session env} {history : List SessionMove}

/-- The companion of a session goes through a run of its own, and has sent what it emitted. -/
theorem companion_run (run : Run (system env) history session) :
    (∃ inputs, Run (Companion.system env) inputs session.left) ∧
      session.sent = session.left.log.filterMap Entry.output? := by
  have turned : ∀ (sent : List Output) (c : Companion env) (input : Input),
      ((∃ inputs, Run (Companion.system env) inputs c) ∧
        sent = c.log.filterMap Entry.output?) → c.running = true →
      (∃ inputs, Run (Companion.system env) inputs (c.turn input)) ∧
        (c.spoken (c.turn input)).reverse ++ sent =
          (c.turn input).log.filterMap Entry.output? := by
    intro sent c input ⟨⟨inputs, run⟩, heard⟩ running
    obtain ⟨new, grown⟩ := turn_grows (run_ticketed run) input
    rw [heard]
    exact ⟨⟨input :: inputs, run.next ⟨running, rfl⟩⟩, Companion.reverse_spoken grown⟩
  refine Duplex.run_left (fun sent c => (∃ inputs, Run (Companion.system env) inputs c) ∧
    sent = c.log.filterMap Entry.output?) ⟨⟨[], .start rfl⟩, rfl⟩ ?_ ?_ run
  · intro sent c input result holds acts
    dsimp only [Companion.party] at acts
    split at acts
    · next able =>
      cases acts
      exact turned sent c input holds (Bool.and_eq_true_iff.mp able).1
    · cases acts
  · intro sent c _ line result holds receives
    dsimp only [Companion.party] at receives
    split at receives
    · next running =>
      cases receives
      exact turned sent c _ holds running
    · cases receives

theorem announced_of_sent (run : Run (system env) history session) {message : Output}
    (sent : message ∈ session.sent) {request : Announcement}
    (reads : message.announcement? = some request) : session.left.Announced request := by
  rw [(companion_run run).2] at sent
  obtain ⟨entry, mem, emitted⟩ := mem_filterMap.mp sent
  cases entry with
  | emitted message' =>
    cases emitted
    exact ⟨message, mem, reads⟩
  | _ => cases emitted

end Session

/-! ### What the panel knows -/

/-- The key, the program and the kind of request two announcements tell of are the same. -/
structure SameRequest (request other : Announcement) : Prop where
  fingerprint : request.fingerprint = other.fingerprint
  processPath : request.processPath = other.processPath
  pid : request.pid = other.pid
  operation : request.operation = other.operation
  operationDetail : request.operationDetail = other.operationDetail
  hostKey : request.hostKey = other.hostKey
  forwarded : request.forwarded = other.forwarded

theorem SameRequest.refl (request : Announcement) : SameRequest request request :=
  ⟨rfl, rfl, rfl, rfl, rfl, rfl, rfl⟩

variable {message : Announcement}

theorem sameRequest_of_agent {raw : Option UnlockMessage}
    (same : sshAgentSameRequest raw message = true) :
    ∃ unlock, raw = some unlock ∧ SameRequest message unlock.request := by
  cases raw with
  | none => cases same
  | some unlock =>
    simp only [sshAgentSameRequest, Bool.and_eq_true, decide_eq_true_eq] at same
    obtain ⟨⟨⟨⟨⟨⟨⟨⟨fingerprint, pid⟩, processPath⟩, operation⟩, operationDetail⟩, hostKey⟩,
      forwarded⟩, -⟩, -⟩ := same
    exact ⟨unlock, rfl, fingerprint.symm, processPath.symm, pid.symm, operation.symm,
      operationDetail.symm, hostKey.symm, forwarded.symm⟩

/-- The companion has told the panel of this request. -/
def Told (sent : List Output) (request : Announcement) : Prop :=
  ∃ message ∈ sent, message.announcement? = some request

/-- The request an id was announced for is the one that was shown. -/
def ShownAs (sent : List Output) (requestId : RequestId) (shown : Announcement) : Prop :=
  ∃ request, Told sent request ∧ request.requestId = requestId ∧ SameRequest request shown

variable {sent : List Output}

theorem Told.grow {request : Announcement} (told : Told sent request)
    (more : List Output) : Told (more ++ sent) request := by
  obtain ⟨message, mem, reads⟩ := told
  exact ⟨message, mem_append_right _ mem, reads⟩

theorem ShownAs.grow {requestId : RequestId} {shown : Announcement}
    (as : ShownAs sent requestId shown) (more : List Output) :
    ShownAs (more ++ sent) requestId shown := by
  obtain ⟨request, told, id, same⟩ := as
  exact ⟨request, told.grow more, id, same⟩

theorem Told.shownAs {request : Announcement} (told : Told sent request) :
    ShownAs sent request.requestId request :=
  ⟨request, told, rfl, .refl request⟩

namespace SshPrompts

variable {sent : List Output} {panel : SshPrompts}

/-- Everything the panel keeps was told by the companion; the prompt on screen has the id of
the request it shows; and while a promotion is open, it is the prompt on screen. -/
structure Known (sent : List Output) (panel : SshPrompts) : Prop where
  prompt : ∀ prompt, panel.sshPrompt = some prompt →
    ShownAs sent prompt.requestId prompt.drawnFrom
  queue : ∀ message ∈ panel.sshPromptQueue, Told sent message
  unlockRaw : ∀ message, panel.sshUnlockRaw = some message → Told sent message.request
  unlockQueue : ∀ message ∈ panel.sshUnlockQueue, Told sent message.request
  promoted : panel.sshPromotedOldId.isSome = true → ∀ raw, panel.sshPromotedRaw = some raw →
    ∃ prompt, panel.sshPrompt = some prompt ∧ prompt.drawnFrom = raw.request

/-- No step draws another prompt while a promotion stays open. -/
def KeepsPromoted (before after : SshPrompts) : Prop :=
  before.sshPromotedOldId.isSome = true → after.sshPromotedOldId.isSome = true →
    after.sshPrompt = before.sshPrompt

theorem Known.grow (known : Known sent panel) (more : List Output) :
    Known (more ++ sent) panel where
  prompt prompt shown := (known.prompt prompt shown).grow more
  queue message mem := (known.queue message mem).grow more
  unlockRaw message kept := (known.unlockRaw message kept).grow more
  unlockQueue message mem := (known.unlockQueue message mem).grow more
  promoted := known.promoted

theorem known_dismiss (panel : SshPrompts) : Known sent panel.dismissSshApproval where
  prompt _ shown := by cases shown
  queue _ mem := by cases mem
  unlockRaw _ kept := by cases kept
  unlockQueue _ mem := by cases mem
  promoted isSome := by cases isSome

theorem known_initial : Known [] .initial := known_dismiss .initial

theorem enqueue_outcome {Message : Type*} (idOf : Message → RequestId) (queue : List Message)
    (message : Message) (maxQueue : ℕ) :
    sshAgentEnqueuePrompt idOf queue message maxQueue = queue ∨
      sshAgentEnqueuePrompt idOf queue message maxQueue = queue ++ [message] := by
  unfold sshAgentEnqueuePrompt
  dsimp only
  split_ifs <;> simp

theorem mem_of_enqueue {Message : Type*} {idOf : Message → RequestId} {queue : List Message}
    {message item : Message} {maxQueue : ℕ}
    (mem : item ∈ sshAgentEnqueuePrompt idOf queue message maxQueue) :
    item ∈ queue ∨ item = message := by
  rcases enqueue_outcome idOf queue message maxQueue with same | appended
  · exact .inl (same ▸ mem)
  · rw [appended] at mem
    simpa using mem

section

variable (known : Known sent panel)

include known

/-- A prompt is drawn: on an open promotion, only the very prompt that is there already. -/
theorem Known.show (told : Told sent message)
    (keeps : KeepsPromoted panel (panel.showSshApproval message)) :
    Known sent (panel.showSshApproval message) where
  prompt prompt shown := by
    cases shown
    exact told.shownAs
  queue := known.queue
  unlockRaw := known.unlockRaw
  unlockQueue := known.unlockQueue
  promoted isSome raw promoted := by
    obtain ⟨prompt, shown, drawn⟩ := known.promoted isSome raw promoted
    exact ⟨prompt, (keeps isSome isSome).trans shown, drawn⟩

theorem Known.setQueue {queue : List Announcement} (subset : ∀ message ∈ queue, Told sent message) :
    Known sent { panel with sshPromptQueue := queue } :=
  { known with queue := subset }

theorem Known.setUnlockQueue {queue : List UnlockMessage}
    (subset : ∀ message ∈ queue, Told sent message.request) :
    Known sent { panel with sshUnlockQueue := queue } :=
  { known with unlockQueue := subset }

theorem Known.advance (keeps : KeepsPromoted panel panel.advanceSshPrompt) :
    Known sent panel.advanceSshPrompt := by
  unfold advanceSshPrompt at keeps ⊢
  cases queued : panel.sshPromptQueue with
  | nil => exact known_dismiss _
  | cons next remaining =>
    rw [queued] at keeps
    have told := known.queue
    rw [queued] at told
    exact (known.setQueue fun message mem =>
      told message (mem_cons_of_mem _ mem)).show (told next mem_cons_self) keeps

theorem Known.showUnlock {message : UnlockMessage}
    (told : Told sent message.request) : Known sent (panel.showSshUnlock message) :=
  { known with
    unlockRaw := fun kept same => by
      cases same
      exact told }

theorem Known.advanceUnlock : Known sent panel.advanceSshUnlock := by
  unfold advanceSshUnlock
  cases queued : panel.sshUnlockQueue with
  | nil => exact known_dismiss _
  | cons next remaining =>
    have told := known.unlockQueue
    rw [queued] at told
    exact (known.setUnlockQueue fun message mem =>
      told message (mem_cons_of_mem _ mem)).showUnlock (told next mem_cons_self)

/-- The id an open promotion adopts is that of the same request, and the prompt on screen is
the promoted one. -/
theorem Known.adopt {adopted : SshPrompts}
    (told : Told sent message) (adopts : panel.adoptSshPrompt message = some adopted) :
    Known sent adopted := by
  unfold adoptSshPrompt at adopts
  split at adopts
  · cases adopts
  · next prompt shown =>
    split at adopts
    · next guard =>
      cases adopts
      obtain ⟨isSome, same⟩ := Bool.and_eq_true_iff.mp guard
      obtain ⟨raw, promoted, same⟩ := sameRequest_of_agent same
      obtain ⟨current, shown', drawn⟩ := known.promoted isSome raw promoted
      rw [shown] at shown'
      cases shown'
      exact
        { known with
          prompt := fun _ replaced => by
            cases replaced
            exact ⟨message, told, rfl, drawn ▸ same⟩
          promoted := nofun }
    · cases adopts

theorem Known.approvalRequired (told : Told sent message) (mayPrompt : Bool)
    (keeps : KeepsPromoted panel (panel.onApprovalRequired mayPrompt message).1) :
    Known sent (panel.onApprovalRequired mayPrompt message).1 := by
  unfold onApprovalRequired at keeps ⊢
  split at keeps
  · next refused =>
    rw [if_pos refused]
    exact known
  · next asked =>
    rw [if_neg asked]
    split at keeps
    · next adopted adopts => exact known.adopt told adopts
    · next kept =>
      split at keeps
      · next shown =>
        rw [if_pos shown]
        refine known.setQueue fun item mem => ?_
        rcases mem_of_enqueue mem with queued | rfl
        · exact known.queue item queued
        · exact told
      · next free =>
        rw [if_neg free]
        exact known.show told keeps

theorem Known.unlockRequired {message : UnlockMessage}
    (told : Told sent message.request) (mayPrompt : Bool) :
    Known sent (panel.onUnlockRequired mayPrompt message).1 := by
  unfold onUnlockRequired
  split
  · exact known
  · split
    · refine known.setUnlockQueue fun item mem => ?_
      rcases mem_of_enqueue mem with queued | rfl
      · exact known.unlockQueue item queued
      · exact told
    · exact known.showUnlock told

theorem Known.cancelled (requestId : RequestId) (reason : CancelReason)
    (keeps : KeepsPromoted panel (panel.onRequestCancelled requestId reason)) :
    Known sent (panel.onRequestCancelled requestId reason) := by
  unfold onRequestCancelled at keeps ⊢
  by_cases live : (panel.live.any (·.requestId = requestId)) = true
  · rw [if_pos live] at keeps ⊢
    by_cases stays : panel.staysForRelease reason = true
    · rw [if_pos stays]
      exact known
    · rw [if_neg stays] at keeps ⊢
      by_cases prompts : (panel.sshPrompt.isSome && !panel.sshPromptQueue.isEmpty) = true
      · rw [if_pos prompts] at keeps ⊢
        exact known.advance keeps
      · rw [if_neg prompts]
        split
        · exact known.advanceUnlock
        · exact known_dismiss panel
  · rw [if_neg live]
    exact (known.setQueue fun message mem =>
      known.queue message (mem_of_mem_filter mem)).setUnlockQueue fun message mem =>
        known.unlockQueue message (mem_of_mem_filter mem)

theorem Known.status (unlocked : Bool) :
    Known sent (panel.onStatusChanged unlocked) := by
  unfold onStatusChanged
  split
  · exact known
  · unfold promoteUnlockToApproval
    split
    · exact { known with }
    · next raw kept =>
      split
      · exact { known with }
      · have told := known.unlockRaw raw kept
        exact
          { prompt := fun prompt shown => by
              cases shown
              exact told.shownAs
            queue := known.queue
            unlockRaw := nofun
            unlockQueue := nofun
            promoted := fun _ _ same => by
              cases same
              exact ⟨_, rfl, rfl⟩ }

end

/-! ### The lines it writes -/

/-- A decision rests on what was shown under its id. -/
def Grounded (sent : List Output) (line : Line) : Prop :=
  ∀ requestId duration shown, line = .decision requestId duration shown →
    ShownAs sent requestId shown

variable {line : Line}

theorem grounded_write {message : ControlMessage}
    (mem : line ∈ panel.sshAgentWrite message) : Grounded sent line := by
  unfold sshAgentWrite at mem
  split at mem
  · rw [mem_singleton.mp mem]
    intro _ _ _ same
    cases same
  · cases mem

theorem grounded_deny (mem : line ∈ panel.denySshRequest.2) :
    Grounded sent line := by
  unfold denySshRequest at mem
  split at mem
  · exact grounded_write mem
  · split at mem
    · exact grounded_write mem
    · cases mem

theorem mem_getD_map {prompt : Option Prompt} {lines : Prompt → List Line}
    (mem : line ∈ (prompt.map lines).getD []) :
    ∃ shown, prompt = some shown ∧ line ∈ lines shown := by
  cases prompt with
  | none => cases mem
  | some shown => exact ⟨shown, rfl, mem⟩

theorem grounded_denyAll (mem : line ∈ panel.denyAllSshRequests.2) :
    Grounded sent line := by
  simp only [denyAllSshRequests, mem_append, mem_flatMap] at mem
  rcases mem with ((shown | ⟨item, -, written⟩) | unlock) | ⟨item, -, written⟩
  · obtain ⟨_, -, written⟩ := mem_getD_map shown
    exact grounded_write written
  · exact grounded_write written
  · obtain ⟨_, -, written⟩ := mem_getD_map unlock
    exact grounded_write written
  · exact grounded_write written

section

variable (known : Known sent panel)

include known

theorem Known.approve (grantSeconds : ℕ) (untilScreenLock : Bool)
    (keeps : KeepsPromoted panel (panel.approveSshRequest grantSeconds untilScreenLock).1) :
    Known sent (panel.approveSshRequest grantSeconds untilScreenLock).1 ∧
      ∀ line ∈ (panel.approveSshRequest grantSeconds untilScreenLock).2, Grounded sent line := by
  unfold approveSshRequest at keeps ⊢
  split at keeps
  · exact ⟨known, by simp⟩
  · next prompt shown =>
    refine ⟨known.advance keeps, fun line mem => ?_⟩
    dsimp only at mem
    split at mem
    · rw [mem_singleton.mp mem]
      intro _ _ _ same
      cases same
      exact known.prompt prompt shown
    · cases mem

theorem Known.deny
    (keeps : KeepsPromoted panel panel.denySshRequest.1) : Known sent panel.denySshRequest.1 := by
  unfold denySshRequest at keeps ⊢
  split at keeps
  · exact known.advanceUnlock
  · split at keeps
    · exact known.advance keeps
    · exact known_dismiss panel

/-- What the panel does by itself keeps what it knows, and its decisions rest on it. -/
theorem Known.act {event : Event} {result : Result}
    (acts : panel.act event = some result) (keeps : KeepsPromoted panel result.1) :
    Known sent result.1 ∧ ∀ line ∈ result.2, Grounded sent line := by
  cases event with
  | approve grantSeconds untilScreenLock =>
    cases acts
    exact known.approve grantSeconds untilScreenLock keeps
  | deny =>
    cases acts
    exact ⟨known.deny keeps, fun line mem => grounded_deny mem⟩
  | denyAll =>
    cases acts
    exact ⟨known_dismiss panel, fun line mem => grounded_denyAll mem⟩
  | expire =>
    cases acts
    refine ⟨?_, by simp⟩
    unfold expireSshRequest
    split
    · exact known
    · exact known_dismiss panel
  | status unlocked =>
    cases acts
    exact ⟨known.status unlocked, by simp⟩
  | configure approvalWindowSec approvalUntilScreenLock =>
    cases acts
    exact ⟨{ known with }, by simp⟩
  | write message =>
    dsimp only [SshPrompts.act] at acts
    split at acts
    · cases acts
    · cases acts
      exact ⟨known, fun line mem => grounded_write mem⟩
  | stop =>
    cases acts
    exact ⟨{ known with }, fun line mem => grounded_write mem⟩

theorem Known.receive {receipt : Receipt} {message : Output}
    {result : Result} (told : message ∈ sent)
    (receives : panel.receive receipt message = some result)
    (keeps : KeepsPromoted panel result.1) :
    Known sent result.1 ∧ ∀ line ∈ result.2, Grounded sent line := by
  cases receipt with
  | dropped =>
    cases receives
    exact ⟨known, by simp⟩
  | heard mayPrompt =>
    cases receives
    cases message with
    | approvalRequired keyId request =>
      refine ⟨known.approvalRequired ⟨_, told, rfl⟩ mayPrompt keeps, fun line mem => ?_⟩
      dsimp only [onSshAgentMessage, onApprovalRequired] at mem
      split at mem
      · exact grounded_write mem
      · split at mem
        · cases mem
        · split at mem <;> cases mem
    | unlockRequired reason request =>
      refine ⟨known.unlockRequired ⟨_, told, rfl⟩ mayPrompt, fun line mem => ?_⟩
      dsimp only [onSshAgentMessage, onUnlockRequired] at mem
      split at mem
      · exact grounded_write mem
      · split at mem <;> cases mem
    | requestCancelled requestId reason =>
      exact ⟨known.cancelled requestId reason keeps, by simp [onSshAgentMessage]⟩
    | _ => exact ⟨known, by simp [onSshAgentMessage]⟩

end

end SshPrompts

namespace Session

variable {session : Session env} {history : List SessionMove}

/-- The runs in which no step of the panel draws another prompt while a promotion stays
open. -/
def promptKept (env : Env) : System (Session env) SessionMove :=
  (system env).restrict fun before _ after => SshPrompts.KeepsPromoted before.right after.right

/-- What is approved is what was shown: the id of every decision on its way to the companion
was announced, and announced for the very key, program and kind of request that the prompt
on screen was drawn from when the user decided. -/
theorem approved_is_shown (run : Run (promptKept env) history session) {requestId : RequestId}
    {duration : GrantDuration} {shown : Announcement}
    (decided : .decision requestId duration shown ∈ session.leftward) :
    (∃ request, session.left.Announced request ∧ request.requestId = requestId) ∧
      ∀ request, session.left.Announced request → request.requestId = requestId →
        SameRequest request shown := by
  have whole : Run (system env) history session := run.of_restrict
  obtain ⟨-, grounded, -⟩ := Duplex.run_right SshPrompts.Known SshPrompts.Grounded
    SshPrompts.known_initial (fun _ more _ known => known.grow more)
    (fun _ more _ grounded requestId duration shown same =>
      (grounded requestId duration shown same).grow more)
    (fun _ _ _ _ known acts keeps => known.act acts keeps)
    (fun _ _ _ _ _ known told receives keeps => known.receive told receives keeps) run
  obtain ⟨request, ⟨message, sent, reads⟩, id, same⟩ := grounded _ decided _ _ _ rfl
  have announced := announced_of_sent whole sent reads
  refine ⟨⟨request, announced, id⟩, fun other again otherId => ?_⟩
  obtain ⟨⟨inputs, run⟩, -⟩ := companion_run whole
  rw [announced_unique run again announced (otherId.trans id.symm)]
  exact same

/-! ### Sample runs -/

/-- A condition on a step of the session. -/
abbrev Permission (env : Env) := Session env → SessionMove → Session env → Prop

def anyStep (env : Env) : Permission env := fun _ _ _ => True

def keepsPromoted (env : Env) : Permission env := fun before _ after =>
  SshPrompts.KeepsPromoted before.right after.right

instance (before : Session env) (label : SessionMove) (after : Session env) :
    Decidable (keepsPromoted env before label after) := by
  unfold keepsPromoted SshPrompts.KeepsPromoted
  infer_instance

instance (before : Session env) (label : SessionMove) (after : Session env) :
    Decidable (anyStep env before label after) := .isTrue trivial

abbrev sampleSession (permitted : Permission (sampleEnv 1000))
    [∀ before label after, Decidable (permitted before label after)]
    (moves : List SessionMove) : Option (Session (sampleEnv 1000)) :=
  playAll (Duplex.move (Companion.party (sampleEnv 1000) Line Line.message) SshPrompts.party)
    permitted ⟨.initial _, .initial, [], [], []⟩ moves

theorem run_sampleSession {permitted : Permission (sampleEnv 1000)}
    [∀ before label after, Decidable (permitted before label after)]
    {moves : List SessionMove} {session : Session (sampleEnv 1000)}
    (played : sampleSession permitted moves = some session) :
    Run ((system (sampleEnv 1000)).restrict permitted) (moves.reverse ++ []) session :=
  run_playAll (.start rfl) played

/-- The panel writes a line and the companion reads it. -/
def tell (message : ControlMessage) : List SessionMove := [.right (.write message), .toLeft ()]

/-- The panel hears this many messages, free to prompt. -/
def hear (count : ℕ) : List SessionMove := List.replicate count (.toRight (.heard true))

def loadKeys (epoch : ℕ) : List SessionMove :=
  tell (.keyLoadBegin epoch sampleNonce) ++ tell (.keyLoadEnd epoch .ok) ++
    [.left (.loadResult epoch (.ok [1]))]

/-- A program asks for a signature while the vault is locked, and the vault is unlocked: its
request is promoted to a prompt. -/
def promotedPrompt : List SessionMove :=
  tell .hello ++ [.right (.status true)] ++ loadKeys 1 ++ [.right (.status false)] ++
    tell (.vaultLocked 1) ++ [.left (.client sampleSign)] ++ hear 5 ++ [.right (.status true)]

/-- What the companion announces for a program with this pid. -/
def sampleAnnouncement (requestId : RequestId) (pid : ℕ) : Announcement :=
  ⟨requestId, "name", "f", pid, "/usr/bin/ssh", "sshsig", "git", "", false, true⟩

/-- The promoted prompt is approved before the keys are loaded. -/
theorem approved_is_shown_promoted :
    ∃ (session : Session (sampleEnv 1000)) (shown request : Announcement),
      session.leftward = [.decision 1 .once shown] ∧ session.left.held.keys = [1] ∧
      session.left.Announced request ∧ request.requestId = 1 ∧ SameRequest request shown := by
  obtain ⟨session, played, flight, held⟩ : ∃ session ∈ sampleSession (keepsPromoted _)
      (promotedPrompt ++ [.right (.approve 0 false)]),
      session.leftward = [.decision 1 .once (sampleAnnouncement 1 11)] ∧
        session.left.held.keys = [1] := by
    decide +kernel
  have run : Run (promptKept (sampleEnv 1000)) _ session :=
    @run_sampleSession (keepsPromoted _) _ _ _ played
  obtain ⟨⟨request, announced, id⟩, same⟩ := approved_is_shown run
    (flight ▸ mem_singleton_self (Line.decision 1 .once (sampleAnnouncement 1 11)))
  exact ⟨session, _, request, flight, held, announced, id, same request announced id⟩

/-- Another program's commit to sign. -/
def otherSign : ClientEvent := { sampleSign with peer := ⟨7, 12, 14, ascii "/usr/bin/git"⟩ }

/-- The first program's request comes back while the screen is locked and is refused, but its
promoted prompt stays. Another program asks, the user denies the first prompt, and the first
program asks again. -/
def adoptedByOther : List SessionMove :=
  promotedPrompt ++ loadKeys 2 ++ hear 3 ++ [.toRight (.heard false), .toLeft (),
    .left (.client otherSign)] ++ hear 1 ++ [.right .deny, .toLeft (),
    .left (.client sampleSign)] ++ hear 1 ++ [.right (.approve 0 false)]

def deniedId : ControlMessage → Option RequestId
  | .deny requestId => some requestId
  | _ => none

/-- The prompt of the other program has adopted the id of the first one's new request, although
the user has denied that program: approving what is shown approves what was denied. -/
theorem denied_request_is_approved :
    ∃ (session : Session (sampleEnv 1000)) (history : List SessionMove) (requestId : RequestId)
      (duration : GrantDuration) (shown request denied : Announcement),
      Run (system (sampleEnv 1000)) history session ∧
      session.leftward = [.decision requestId duration shown] ∧
      requestId ∈ session.left.pending.keys ∧
      session.left.Announced request ∧ request.requestId = requestId ∧ request.pid ≠ shown.pid ∧
      session.left.Announced denied ∧ SameRequest denied request ∧
      denied.requestId ∈ (controls session.left.log).filterMap deniedId := by
  obtain ⟨session, played, flight, pending, asked, told, denials⟩ :
      ∃ session ∈ sampleSession (anyStep _) adoptedByOther,
        session.leftward = [.decision 4 .once (sampleAnnouncement 3 12)] ∧
        4 ∈ session.left.pending.keys ∧
        .approvalRequired "item" (sampleAnnouncement 4 11) ∈ session.sent ∧
        .unlockRequired .sign (sampleAnnouncement 1 11) ∈ session.sent ∧
        1 ∈ (controls session.left.log).filterMap deniedId := by
    decide +kernel
  have run : Run (system (sampleEnv 1000)) _ session := (run_sampleSession played).of_restrict
  exact ⟨session, _, 4, .once, sampleAnnouncement 3 12, sampleAnnouncement 4 11,
    sampleAnnouncement 1 11, run, flight, pending, announced_of_sent run asked rfl, rfl, by decide,
    announced_of_sent run told rfl, ⟨rfl, rfl, rfl, rfl, rfl, rfl, rfl⟩, denials⟩

end Session

end QsBitwarden.Panel
