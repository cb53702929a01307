import QsBitwarden.Panel.SshSession

/-! Owns how far the panel's prompts mirror the requests the companion keeps: which of them
the panel shows or queues without the companion keeping them, and which the companion keeps
pending without the panel showing or queueing them. It does not own what an approval
stands for. -/

namespace QsBitwarden.Panel

open Agent SshPrompts
open Lib List Option

variable {env : Env}

/-! ### The ids on the panel -/

namespace SshPrompts

variable {panel : SshPrompts}

/-- The prompt on screen and those queued behind it. -/
def promptIds (panel : SshPrompts) : List RequestId :=
  panel.sshPrompt.toList.map Prompt.requestId ++
    panel.sshPromptQueue.map Announcement.requestId

/-- The unlock request on screen and those queued behind it. -/
def unlockIds (panel : SshPrompts) : List RequestId :=
  panel.sshUnlockRequest.toList.map Prompt.requestId ++
    panel.sshUnlockQueue.map fun message => message.request.requestId

def ids (panel : SshPrompts) : List RequestId := panel.promptIds ++ panel.unlockIds

/-- The unlock request is drawn from the message it is promoted from, and nothing is queued
behind a prompt that is not there. -/
structure Kempt (panel : SshPrompts) : Prop where
  unlockRaw : panel.sshUnlockRequest.map Prompt.requestId =
    panel.sshUnlockRaw.map fun message => message.request.requestId
  queue : panel.sshPrompt = none → panel.sshPromptQueue = []

/-- What the lines answer is among these. -/
def AnswersIn (gone : List RequestId) (lines : List Line) : Prop :=
  ∀ line ∈ lines, ∀ id, line.message.answeredId = some id → id ∈ gone

/-- A result in good order. Every id that was shown, queued or just told of is so afterwards, or
has been let go; what is answered has been let go. -/
structure LetsGo (told : List RequestId) (panel : SshPrompts) (result : Result) : Prop where
  kempt : Kempt result.1
  goes : ∃ gone, (panel.ids ++ told).Perm (gone ++ result.1.ids) ∧ AnswersIn gone result.2

theorem kempt_dismiss (panel : SshPrompts) : Kempt panel.dismissSshApproval := ⟨rfl, fun _ => rfl⟩

theorem Kempt.advance (kempt : Kempt panel) : Kempt panel.advanceSshPrompt := by
  unfold advanceSshPrompt
  cases queued : panel.sshPromptQueue with
  | nil => exact kempt_dismiss _
  | cons next remaining => exact ⟨kempt.unlockRaw, nofun⟩

theorem Kempt.advanceUnlock (kempt : Kempt panel) : Kempt panel.advanceSshUnlock := by
  unfold advanceSshUnlock
  cases queued : panel.sshUnlockQueue with
  | nil => exact kempt_dismiss _
  | cons next remaining => exact ⟨rfl, kempt.queue⟩

/-- What goes when one id is answered is a part of the rest. -/
theorem letsGo_of_sublist {told kept : List RequestId} {result : Result} (kempt : Kempt result.1)
    (gone : List RequestId) (split : (panel.ids ++ told).Perm (gone ++ kept))
    (sublist : result.1.ids.Sublist kept) (answered : AnswersIn gone result.2) :
    LetsGo told panel result := by
  obtain ⟨more, perm⟩ := sublist.exists_perm_append
  refine ⟨kempt, gone ++ more, split.trans ?_, fun line mem id answers =>
    mem_append_left _ (answered line mem id answers)⟩
  rw [append_assoc]
  exact (perm.trans perm_append_comm).append_left gone

theorem letsGo_silent {after : SshPrompts} (kempt : Kempt after)
    (sublist : after.ids.Sublist panel.ids) : LetsGo [] panel (after, []) := by
  have whole : (panel.ids ++ []).Perm ([] ++ panel.ids) := by simp
  exact letsGo_of_sublist kempt [] whole sublist (by simp [AnswersIn])

theorem Kempt.same (kempt : Kempt panel) : LetsGo [] panel (panel, []) :=
  letsGo_silent kempt (List.Sublist.refl _)

theorem dismiss_letsGo (panel : SshPrompts) : LetsGo [] panel (panel.dismissSshApproval, []) :=
  letsGo_silent (kempt_dismiss panel) (nil_sublist _)

theorem ids_of_prompt {prompt : Prompt} (shown : panel.sshPrompt = some prompt) :
    panel.ids = prompt.requestId ::
      (panel.sshPromptQueue.map Announcement.requestId ++ panel.unlockIds) := by
  rw [ids, promptIds, shown]
  rfl

theorem ids_of_unlock {request : Prompt} (shown : panel.sshUnlockRequest = some request) :
    panel.ids.Perm (request.requestId :: (panel.promptIds ++
      panel.sshUnlockQueue.map fun message => message.request.requestId)) := by
  rw [ids, unlockIds, shown]
  exact perm_middle

theorem advance_ids (panel : SshPrompts) :
    panel.advanceSshPrompt.ids.Sublist
      (panel.sshPromptQueue.map Announcement.requestId ++ panel.unlockIds) := by
  unfold advanceSshPrompt
  cases queued : panel.sshPromptQueue with
  | nil => exact nil_sublist _
  | cons next remaining => exact List.Sublist.refl _

theorem advanceUnlock_ids (panel : SshPrompts) :
    panel.advanceSshUnlock.ids.Sublist
      (panel.promptIds ++ panel.sshUnlockQueue.map fun message => message.request.requestId) := by
  unfold advanceSshUnlock
  cases queued : panel.sshUnlockQueue with
  | nil => exact nil_sublist _
  | cons next remaining => exact List.Sublist.refl _

/-- A line is written only to a helper that listens. -/
theorem answered_of_write {own line : Line} {enabled : Bool} {id : RequestId}
    (mem : line ∈ if enabled then [own] else []) (answers : line.message.answeredId = some id) :
    own.message.answeredId = some id := by
  split at mem
  · rwa [mem_singleton.mp mem] at answers
  · cases mem

theorem answersIn_own {own : Line} {enabled : Bool} {id : RequestId}
    (names : own.message.answeredId = some id) :
    AnswersIn [id] (if enabled then [own] else []) := by
  intro line mem other answers
  rw [answered_of_write mem answers] at names
  exact mem_singleton.mpr (Option.some.inj names)

theorem answeredId_of_silent {message : ControlMessage} (silent : ¬ answers message = true) :
    message.answeredId = none := by
  cases message <;> first | rfl | exact absurd rfl silent

/-- The prompt on screen is answered and the next one shown. -/
theorem answered_letsGo (kempt : Kempt panel) {prompt : Prompt} {lines : List Line}
    (shown : panel.sshPrompt = some prompt) (answered : AnswersIn [prompt.requestId] lines) :
    LetsGo [] panel (panel.advanceSshPrompt, lines) := by
  refine letsGo_of_sublist kempt.advance [prompt.requestId] ?_ panel.advance_ids answered
  rw [append_nil, ids_of_prompt shown]
  exact List.Perm.refl _

theorem approve_letsGo (kempt : Kempt panel) (grantSeconds : ℕ) (untilScreenLock : Bool) :
    LetsGo [] panel (panel.approveSshRequest grantSeconds untilScreenLock) := by
  unfold approveSshRequest
  split
  · exact kempt.same
  · next prompt shown => exact answered_letsGo kempt shown (answersIn_own rfl)

theorem deny_letsGo (kempt : Kempt panel) : LetsGo [] panel panel.denySshRequest := by
  unfold denySshRequest
  split
  · next request shown =>
    refine letsGo_of_sublist kempt.advanceUnlock [request.requestId] ?_ panel.advanceUnlock_ids
      (answersIn_own rfl)
    rw [append_nil]
    exact ids_of_unlock shown
  · split
    · next prompt shown => exact answered_letsGo kempt shown (answersIn_own rfl)
    · exact panel.dismiss_letsGo

theorem denyAll_letsGo (panel : SshPrompts) : LetsGo [] panel panel.denyAllSshRequests := by
  refine ⟨kempt_dismiss panel, panel.ids, List.Perm.refl _, fun line mem id answers => ?_⟩
  simp only [denyAllSshRequests, mem_append, mem_flatMap] at mem
  simp only [ids, promptIds, unlockIds, mem_append, List.mem_map, mem_toList]
  rcases mem with ((shown | ⟨item, kept, written⟩) | unlock) | ⟨item, kept, written⟩
  · obtain ⟨prompt, shown, written⟩ := mem_getD_map shown
    exact .inl (.inl ⟨prompt, shown, Option.some.inj (answered_of_write written answers)⟩)
  · exact .inl (.inr ⟨item, mem_of_mem_filter kept,
      Option.some.inj (answered_of_write written answers)⟩)
  · obtain ⟨request, shown, written⟩ := mem_getD_map unlock
    exact .inr (.inl ⟨request, shown, Option.some.inj (answered_of_write written answers)⟩)
  · exact .inr (.inr ⟨item, mem_of_mem_filter kept,
      Option.some.inj (answered_of_write written answers)⟩)

/-- An unlock request that is promoted is on screen, and there is no prompt. -/
theorem Kempt.promoted (kempt : Kempt panel) {raw : UnlockMessage} {unlocked listing : Bool}
    (kept : panel.sshUnlockRaw = some raw)
    (free : ¬ (!unlocked || panel.sshPrompt.isSome || listing) = true) :
    panel.sshPrompt = none ∧ ∃ request, panel.sshUnlockRequest = some request ∧
      request.requestId = raw.request.requestId := by
  have raised := kempt.unlockRaw
  rw [kept] at raised
  exact ⟨by simp_all, map_eq_some_iff.mp raised⟩

/-- A promotion turns the unlock request on screen into the prompt. -/
theorem status_letsGo (kempt : Kempt panel) (unlocked : Bool) :
    LetsGo [] panel (panel.onStatusChanged unlocked, []) := by
  unfold onStatusChanged
  split
  · exact kempt.same
  · unfold promoteUnlockToApproval
    split
    · exact { kempt.same with kempt := { kempt with } }
    · next raw kept =>
      split
      · exact { kempt.same with kempt := { kempt with } }
      · next free =>
        obtain ⟨none, request, shown, same⟩ := kempt.promoted kept free
        refine letsGo_silent ⟨rfl, nofun⟩ ?_
        have before : panel.ids = raw.request.requestId ::
            panel.sshUnlockQueue.map fun message => message.request.requestId := by
          rw [ids, promptIds, unlockIds, none, kempt.queue none, shown, ← same]
          rfl
        rw [before]
        change ([raw.request.requestId] ++
          panel.sshPromptQueue.map Announcement.requestId ++ []).Sublist _
        rw [kempt.queue none]
        exact (nil_sublist _).cons_cons _

theorem act_letsGo (kempt : Kempt panel) {event : Event} {result : Result}
    (acts : panel.act event = some result) : LetsGo [] panel result := by
  cases event with
  | approve grantSeconds untilScreenLock =>
    cases acts
    exact approve_letsGo kempt grantSeconds untilScreenLock
  | deny =>
    cases acts
    exact deny_letsGo kempt
  | denyAll =>
    cases acts
    exact denyAll_letsGo panel
  | expire =>
    cases acts
    unfold expireSshRequest
    split
    · exact kempt.same
    · exact panel.dismiss_letsGo
  | status unlocked =>
    cases acts
    exact status_letsGo kempt unlocked
  | configure approvalWindowSec approvalUntilScreenLock =>
    cases acts
    exact { kempt.same with kempt := { kempt with } }
  | write message =>
    dsimp only [act] at acts
    split at acts
    · cases acts
    · next silent =>
      cases acts
      refine ⟨kempt, [], by simp, fun line mem id answers => ?_⟩
      have names := answered_of_write mem answers
      rw [Line.message, answeredId_of_silent silent] at names
      cases names
  | stop =>
    cases acts
    refine ⟨{ kempt with }, [], by simp [stopSshAgentHelper, ids, promptIds, unlockIds],
      fun line mem id answers => ?_⟩
    cases answered_of_write mem answers

/-! ### Messages from the companion -/

/-- The id a message announces. -/
def toldId (message : Output) : Option RequestId := message.announcement?.map Announcement.requestId

/-- A queue between other ids takes a message at its end or not at all. -/
theorem enqueue_perm {Message : Type*} (idOf : Message → RequestId) (queue : List Message)
    (message : Message) (maxQueue : ℕ) (front back : List RequestId) :
    ∃ gone, (front ++ queue.map idOf ++ back ++ [idOf message]).Perm
      (gone ++
        (front ++ (sshAgentEnqueuePrompt idOf queue message maxQueue).map idOf ++ back)) := by
  rcases enqueue_outcome idOf queue message maxQueue with same | appended
  · rw [same]
    exact ⟨[idOf message], perm_append_comm⟩
  · rw [appended, map_append]
    refine ⟨[], ?_⟩
    grind

section

variable (kempt : Kempt panel)

include kempt

/-- An id that is refused as soon as it is told of. -/
theorem Kempt.refuse {id : RequestId} {message : ControlMessage}
    (answers : message.answeredId = some id) :
    LetsGo [id] panel (panel, panel.sshAgentWrite message) :=
  ⟨kempt, [id], perm_append_comm, answersIn_own answers⟩

theorem Kempt.adopt {message : Announcement} {adopted : SshPrompts}
    (adopts : panel.adoptSshPrompt message = some adopted) :
    Kempt adopted ∧ ∃ prompt, panel.sshPrompt = some prompt ∧
      (panel.ids ++ [message.requestId]).Perm (prompt.requestId :: adopted.ids) := by
  unfold adoptSshPrompt at adopts
  split at adopts
  · cases adopts
  · next prompt shown =>
    split at adopts
    · cases adopts
      refine ⟨⟨kempt.unlockRaw, nofun⟩, prompt, shown, ?_⟩
      rw [ids_of_prompt shown]
      exact List.Perm.cons prompt.requestId perm_append_comm
    · cases adopts

theorem approvalRequired_letsGo (mayPrompt : Bool) (message : Announcement) :
    LetsGo [message.requestId] panel (panel.onApprovalRequired mayPrompt message) := by
  unfold onApprovalRequired
  split
  · exact kempt.refuse rfl
  · split
    · next adopted adopts =>
      obtain ⟨kempt', prompt, -, perm⟩ := kempt.adopt adopts
      exact ⟨kempt', [prompt.requestId], perm, by simp [AnswersIn]⟩
    · split
      · next shown =>
        refine ⟨⟨kempt.unlockRaw, fun missing => ?_⟩, ?_⟩
        · rw [show panel.sshPrompt = none from missing] at shown
          cases shown
        · obtain ⟨gone, perm⟩ := enqueue_perm Announcement.requestId panel.sshPromptQueue
            message 4 (panel.sshPrompt.toList.map Prompt.requestId) panel.unlockIds
          exact ⟨gone, perm, by simp [AnswersIn]⟩
      · next free =>
        have missing : panel.sshPrompt = none := not_isSome_iff_eq_none.mp free
        refine ⟨⟨kempt.unlockRaw, nofun⟩, [], ?_, by simp [AnswersIn]⟩
        have before : panel.ids = panel.unlockIds := by
          rw [ids, promptIds, missing, kempt.queue missing]
          rfl
        rw [before]
        change (panel.unlockIds ++ [message.requestId]).Perm
          ([message.requestId] ++ panel.sshPromptQueue.map Announcement.requestId ++
            panel.unlockIds)
        rw [kempt.queue missing]
        exact perm_append_comm

theorem unlockRequired_letsGo (mayPrompt : Bool) (message : UnlockMessage) :
    LetsGo [message.request.requestId] panel (panel.onUnlockRequired mayPrompt message) := by
  unfold onUnlockRequired
  split
  · exact kempt.refuse rfl
  · split
    · obtain ⟨gone, perm⟩ := enqueue_perm (fun item : UnlockMessage => item.request.requestId)
        panel.sshUnlockQueue message 4
        (panel.promptIds ++ panel.sshUnlockRequest.toList.map Prompt.requestId) []
      refine ⟨{ kempt with }, gone, ?_, by simp [AnswersIn]⟩
      simpa [ids, promptIds, unlockIds] using perm
    · next free =>
      refine ⟨⟨rfl, kempt.queue⟩, [], ?_, by simp [AnswersIn]⟩
      rw [ids, unlockIds, not_isSome_iff_eq_none.mp free]
      change List.Perm _ (panel.promptIds ++ ([message.request.requestId] ++ _))
      rw [append_assoc]
      exact perm_append_comm.append_left panel.promptIds

theorem removeQueued_letsGo (requestId : RequestId) :
    LetsGo [] panel (panel.removeQueued requestId, []) := by
  refine letsGo_silent ⟨kempt.unlockRaw, fun missing => ?_⟩ ?_
  · change sshAgentRemovePrompt _ panel.sshPromptQueue _ = []
    rw [kempt.queue missing]
    rfl
  · exact ((List.Sublist.refl _).append (filter_sublist.map _)).append
      ((List.Sublist.refl _).append (filter_sublist.map _))

theorem cancelled_letsGo (requestId : RequestId) (reason : CancelReason) :
    LetsGo [] panel (panel.onRequestCancelled requestId reason, []) := by
  unfold onRequestCancelled
  split
  · split
    · exact kempt.same
    · split
      · refine letsGo_silent kempt.advance (panel.advance_ids.trans ?_)
        rw [ids, promptIds, append_assoc]
        exact sublist_append_right _ _
      · split
        · refine letsGo_silent kempt.advanceUnlock (panel.advanceUnlock_ids.trans ?_)
          exact (List.Sublist.refl _).append (sublist_append_right _ _)
        · exact panel.dismiss_letsGo
  · exact removeQueued_letsGo kempt requestId

/-- What the panel does with a message it hears. -/
theorem heard_letsGo (mayPrompt : Bool) (message : Output) :
    LetsGo (toldId message).toList panel (panel.onSshAgentMessage mayPrompt message) := by
  cases message with
  | approvalRequired keyId request => exact approvalRequired_letsGo kempt mayPrompt request
  | unlockRequired reason request => exact unlockRequired_letsGo kempt mayPrompt ⟨reason, request⟩
  | requestCancelled requestId reason => exact cancelled_letsGo kempt requestId reason
  | _ => exact kempt.same

end

/-! ### Cancelled and released -/

/-- A cancelled id that stays on the panel: it is shown until its request comes back, or a prompt
and an unlock request are up at once and the cancellation moves the other one. -/
def lingers (panel : SshPrompts) (requestId : RequestId) (reason : CancelReason) : Bool :=
  if panel.live.any (·.requestId = requestId) then
    panel.staysForRelease reason || (panel.sshPrompt.isSome && panel.sshPromptQueue.isEmpty &&
      panel.sshUnlockRequest.isSome && !panel.sshUnlockQueue.isEmpty)
  else panel.sshUnlockRequest.any (·.requestId = requestId)

theorem cancelled_gone (once : panel.ids.Nodup) {requestId : RequestId} {reason : CancelReason}
    (leaves : panel.lingers requestId reason = false) :
    requestId ∉ (panel.onRequestCancelled requestId reason).ids := by
  unfold lingers at leaves
  unfold onRequestCancelled
  split_ifs at leaves ⊢ with here stays behind next
  · simp [stays] at leaves
  · -- The prompt on screen goes, and those behind it have other ids.
    obtain ⟨prompt, shown⟩ := isSome_iff_exists.mp (Bool.and_eq_true_iff.mp behind).1
    have same : prompt.requestId = requestId := by simpa [live, shown] using here
    rw [ids_of_prompt shown, same] at once
    exact fun mem => (nodup_cons.mp once).1 (panel.advance_ids.subset mem)
  · have free : panel.sshPrompt = none := by
      by_contra shown
      have queued : panel.sshPromptQueue = [] := by
        simpa [isSome_iff_ne_none.mpr shown] using behind
      simp_all [isSome_iff_ne_none]
    obtain ⟨request, shown⟩ := isSome_iff_exists.mp (Bool.and_eq_true_iff.mp next).1
    have same : request.requestId = requestId := by simpa [live, free, shown] using here
    have once' := (ids_of_unlock shown).nodup_iff.mp once
    rw [same] at once'
    exact fun mem => (nodup_cons.mp once').1 (panel.advanceUnlock_ids.subset mem)
  · exact not_mem_nil
  · intro mem
    simp only [ids, promptIds, unlockIds, removeQueued, sshAgentRemovePrompt, mem_append,
      List.mem_map, mem_toList, mem_filter, decide_eq_true_eq] at mem
    rcases mem with (⟨prompt, shown, same⟩ | ⟨_, ⟨-, other⟩, same⟩) |
      (⟨request, shown, same⟩ | ⟨_, ⟨-, other⟩, same⟩)
    · exact here (by simpa [live, show panel.sshPrompt = some prompt from shown] using same)
    · exact other same
    · rw [show panel.sshUnlockRequest = some request from shown] at leaves
      exact absurd same (by simpa using leaves)
    · exact other same

/-- The message is an approval whose id the prompt on screen takes. -/
def adopts (panel : SshPrompts) : Output → Bool
  | .approvalRequired _ message => (panel.adoptSshPrompt message).isSome
  | _ => false

theorem adopts_of_same {panel' : SshPrompts} (prompt : panel'.sshPrompt = panel.sshPrompt)
    (old : panel'.sshPromotedOldId = panel.sshPromotedOldId)
    (raw : panel'.sshPromotedRaw = panel.sshPromotedRaw) : panel'.adopts = panel.adopts := by
  funext message
  cases message with
  | approvalRequired keyId request =>
    unfold adopts adoptSshPrompt
    rw [prompt, old, raw]
    cases panel.sshPrompt with
    | none => rfl
    | some shown =>
      dsimp only
      split_ifs <;> rfl
  | _ => rfl

/-- Whatever the user does, the prompt on screen goes or stays as it is. -/
theorem act_prompt (once : panel.ids.Nodup) {prompt : Prompt}
    (shown : panel.sshPrompt = some prompt)
    {event : Event} {result : Result} (acts : panel.act event = some result) :
    prompt.requestId ∉ result.1.ids ∨
      (result.1.sshPrompt = some prompt ∧ result.1.adopts = panel.adopts) := by
  rw [ids_of_prompt shown] at once
  have advanced : prompt.requestId ∉ panel.advanceSshPrompt.ids :=
    fun mem => (nodup_cons.mp once).1 (panel.advance_ids.subset mem)
  cases event with
  | approve grantSeconds untilScreenLock =>
    cases acts
    rw [approveSshRequest, shown]
    exact .inl advanced
  | deny =>
    cases acts
    rw [denySshRequest, shown]
    split
    · unfold advanceSshUnlock
      cases panel.sshUnlockQueue with
      | nil => exact .inl not_mem_nil
      | cons next remaining => exact .inr ⟨shown, adopts_of_same rfl rfl rfl⟩
    · exact .inl advanced
  | denyAll =>
    cases acts
    exact .inl not_mem_nil
  | expire =>
    cases acts
    rw [expireSshRequest, shown]
    exact .inl not_mem_nil
  | status unlocked =>
    cases acts
    refine .inr ?_
    unfold onStatusChanged promoteUnlockToApproval
    split
    · exact ⟨shown, adopts_of_same rfl rfl rfl⟩
    · split
      · exact ⟨shown, adopts_of_same rfl rfl rfl⟩
      · rw [if_pos (by simp [shown])]
        exact ⟨shown, adopts_of_same rfl rfl rfl⟩
  | configure approvalWindowSec approvalUntilScreenLock =>
    cases acts
    exact .inr ⟨shown, adopts_of_same rfl rfl rfl⟩
  | write message =>
    dsimp only [act] at acts
    split at acts
    · cases acts
    · cases acts
      exact .inr ⟨shown, adopts_of_same rfl rfl rfl⟩
  | stop =>
    cases acts
    exact .inr ⟨shown, adopts_of_same rfl rfl rfl⟩

/-- The prompt has this id and takes another from the next message. -/
def Adopting (panel : SshPrompts) (unheard : List Output) (id : RequestId) : Prop :=
  panel.sshPrompt.any (·.requestId = id) = true ∧ unheard.head?.any panel.adopts = true

/-- What is about to be heard can be: a cancelled id leaves, or belongs to the prompt that stays
for its release and takes its new id from the very next message; and where a message is taken that
way, the panel may prompt. -/
def listens (panel : SshPrompts) (mayPrompt : Bool) : List Output → Bool
  | .requestCancelled requestId reason :: unheard =>
    !panel.lingers requestId reason || (panel.staysForRelease reason &&
      panel.sshPrompt.any (·.requestId = requestId) && unheard.head?.any panel.adopts)
  | message :: _ => !panel.adopts message || mayPrompt
  | [] => true

end SshPrompts

/-! ### Steps of the session -/

namespace Session

variable {session after : Session env} {history : List SessionMove} {label : SessionMove}

/-- The session once the companion has taken this input, with these lines still to read. -/
def turned (session : Session env) (input : Input) (unread : List Line) : Session env :=
  { session with leftward := unread }.afterLeft
    (session.left.turn input, session.left.spoken (session.left.turn input))

/-- What a move of the session is. -/
inductive Stepped (session : Session env) : SessionMove → Session env → Prop
  | takes {input : Input} (running : session.left.running = true) (own : input.own = true) :
      Stepped session (.left input) (session.turned input session.leftward)
  | reads {line : Line} {unread : List Line} (inFlight : session.leftward = line :: unread)
      (running : session.left.running = true) :
      Stepped session (.toLeft ()) (session.turned (.control line.message) unread)
  | acts {event : SshPrompts.Event} {result : SshPrompts.Result}
      (acts : session.right.act event = some result) :
      Stepped session (.right event) (session.afterRight result)
  | drops {message : Output} {unheard : List Output}
      (inFlight : session.rightward = message :: unheard) :
      Stepped session (.toRight .dropped)
        ({ session with rightward := unheard }.afterRight (session.right, []))
  | hears {mayPrompt : Bool} {message : Output} {unheard : List Output}
      (inFlight : session.rightward = message :: unheard) :
      Stepped session (.toRight (.heard mayPrompt))
        ({ session with rightward := unheard }.afterRight
          (session.right.onSshAgentMessage mayPrompt message))

theorem stepped (step : (system env).step session label after) :
    Stepped session label after := by
  cases Duplex.move_effect step with
  | leftActs acts =>
    dsimp only [Companion.party] at acts
    split_ifs at acts with able
    cases acts
    exact .takes (Bool.and_eq_true_iff.mp able).1 (Bool.and_eq_true_iff.mp able).2
  | rightActs acts => exact .acts acts
  | leftReceives inFlight receives =>
    dsimp only [Companion.party] at receives
    split_ifs at receives with running
    cases receives
    exact .reads inFlight running
  | @rightReceives receipt _ _ _ inFlight receives =>
    cases receipt <;> cases receives
    · exact .drops inFlight
    · exact .hears inFlight

/-- A companion that runs after a step ran before it. -/
theorem Stepped.running (step : Stepped session label after) (running : after.left.running = true) :
    session.left.running = true := by
  cases step with
  | takes was own => exact was
  | reads inFlight was => exact was
  | acts acts => exact running
  | drops inFlight => exact running
  | hears inFlight => exact running

/-! ### What is shown is kept -/

/-- The ids announced on the way to the panel. -/
def flightIds (session : Session env) : List RequestId :=
  session.rightward.filterMap toldId

/-- Some line on the way to the companion answers this request. -/
def Answering (session : Session env) (id : RequestId) : Prop :=
  ∃ line ∈ session.leftward, line.message.answeredId = some id

/-- All that the panel shows or will hear of the companion keeps, or a cancellation or a new id is
on its way behind it; an id is there once, and not there once it is answered. -/
structure Mirrored (session : Session env) : Prop where
  kempt : session.right.Kempt
  once : (session.right.ids ++ session.flightIds).Nodup
  below : ∀ id ∈ session.right.ids ++ session.flightIds, id < session.left.approvals.nextId
  answered : ∀ id, session.Answering id →
    id < session.left.approvals.nextId ∧ id ∉ session.right.ids ++ session.flightIds
  shown : ∀ id ∈ session.right.ids, session.left.Keeps id ∨
    (∃ reason, .requestCancelled id reason ∈ session.rightward) ∨
      session.right.Adopting session.rightward id
  told : ∀ id ∈ session.flightIds, session.left.Keeps id ∨ CancelledAfter session.rightward id

theorem mem_flightIds {id : RequestId} : id ∈ session.flightIds ↔
    ∃ message ∈ session.rightward, ∃ request, message.announcement? = some request ∧
      request.requestId = id := by
  simp only [flightIds, toldId, mem_filterMap, map_eq_some_iff]

theorem flightIds_turned (session : Session env) (input : Input) (unread : List Line) :
    (session.turned input unread).flightIds = session.flightIds ++
      (session.left.spoken (session.left.turn input)).filterMap toldId :=
  filterMap_append

variable {inputs : List Input}

/-- What a turn announces has ids of its own. -/
theorem spoken_once {c : Companion env}
    (run : Run (Companion.system env) inputs c) {input : Input} (running : c.running = true) :
    ((c.spoken (c.turn input)).filterMap toldId).Nodup := by
  have next : Run (Companion.system env) (input :: inputs) (c.turn input) := run.next ⟨running, rfl⟩
  obtain ⟨new, grown⟩ := turn_grows (run_ticketed run) input
  have once := (run_live next).1.announcedOnce
  rw [grown, filterMap_append] at once
  have reads : new.filterMap Entry.announcedId =
      (new.filterMap Entry.output?).filterMap toldId := by
    rw [filterMap_filterMap]
    refine filterMap_congr fun entry _ => ?_
    cases entry with
    | emitted message => cases message <;> rfl
    | _ => rfl
  rw [Companion.spoken_of_grown grown, filterMap_reverse, nodup_reverse, ← reads]
  exact (nodup_append.mp once).1

/-- A turn that lets no request go silently which the panel shows or is told of. -/
theorem Mirrored.turned (mirrored : Mirrored session)
    (run : Run (Companion.system env) inputs session.left) (was : session.left.running = true)
    {input : Input} {unread : List Line} (unreadOf : unread ⊆ session.leftward)
    (spares : ∀ id, input.silences session.left id → id < session.left.approvals.nextId ∧
      id ∉ session.right.ids ++ session.flightIds)
    (running : (session.left.turn input).running = true) :
    Mirrored (session.turned input unread) := by
  have filed := turn_filed (run_sorted run was) running
  have fresh : ∀ id ∈ (session.left.spoken (session.left.turn input)).filterMap
      toldId, session.left.approvals.nextId ≤ id ∧
        id < (session.left.turn input).approvals.nextId := by
    intro id mem
    obtain ⟨message, said, tells⟩ := mem_filterMap.mp mem
    obtain ⟨request, announces, rfl⟩ := map_eq_some_iff.mp tells
    exact filed.announced message said request announces
  have goes : ∀ id ∈ session.right.ids ++ session.flightIds, session.left.Keeps id →
      (session.left.turn input).Keeps id ∨ ∃ reason,
        .requestCancelled id reason ∈ session.left.spoken (session.left.turn input) := by
    intro id mem keeps
    rcases filed.kept id keeps with kept | inHand | cancelled | silent
    · exact .inl kept
    · cases inHand
    · exact .inr cancelled
    · exact absurd mem (spares id silent).2
  refine ⟨mirrored.kempt, ?_, ?_, ?_, ?_, ?_⟩
  · rw [flightIds_turned, ← append_assoc]
    refine nodup_append.mpr ⟨mirrored.once, spoken_once run was, ?_⟩
    intro id old id' new same
    rw [← same] at new
    exact absurd (fresh id new).1 (not_le.mpr (mirrored.below id old))
  · intro id mem
    rw [flightIds_turned, ← append_assoc] at mem
    change id < (session.left.turn input).approvals.nextId
    rcases mem_append.mp mem with old | new
    · exact (mirrored.below id old).trans_le filed.nextId
    · exact (fresh id new).2
  · intro id ⟨line, mem, answers⟩
    obtain ⟨below, apart⟩ := mirrored.answered id ⟨line, unreadOf mem, answers⟩
    refine ⟨below.trans_le filed.nextId, fun again => ?_⟩
    rw [flightIds_turned, ← append_assoc] at again
    rcases mem_append.mp again with old | new
    · exact apart old
    · exact absurd (fresh id new).1 (not_le.mpr below)
  · intro id mem
    rcases mirrored.shown id mem with keeps | ⟨reason, cancelled⟩ | ⟨prompt, adopts⟩
    · refine (goes id (mem_append_left _ mem) keeps).imp_right fun ⟨reason, said⟩ => ?_
      exact .inl ⟨reason, mem_append_right _ said⟩
    · exact .inr (.inl ⟨reason, mem_append_left _ cancelled⟩)
    · refine .inr (.inr ⟨prompt, ?_⟩)
      change (session.rightward ++ _).head?.any session.right.adopts = true
      cases inFlight : session.rightward with
      | nil => simp [inFlight] at adopts
      | cons message unheard => simpa [inFlight] using adopts
  · intro id mem
    rw [flightIds_turned] at mem
    rcases mem_append.mp mem with old | new
    · rcases mirrored.told id old with keeps | cancelled
      · refine (goes id (mem_append_right _ old) keeps).imp_right fun ⟨reason, said⟩ => ?_
        obtain ⟨message, inFlight, request, announces, rfl⟩ := mem_flightIds.mp old
        obtain ⟨earlier, later, split⟩ := append_of_mem inFlight
        refine ⟨earlier, message, later ++ session.left.spoken (session.left.turn input), request,
          reason, ?_, announces, rfl, mem_append_right _ said⟩
        change session.rightward ++ _ = _
        rw [split, append_assoc, cons_append]
      · exact .inr (cancelled.append _)
    · obtain ⟨message, said, tells⟩ := mem_filterMap.mp new
      obtain ⟨request, announces, rfl⟩ := map_eq_some_iff.mp tells
      rcases filed.told message said request announces with keeps | inHand | cancelled | silent
      · exact .inl keeps
      · cases inHand
      · exact .inr (cancelled.prepend _)
      · exact absurd (fresh _ new).1 (not_le.mpr (spares _ silent).1)

/-- A step of the panel: what it lets go it may answer, and it keeps the rest. -/
theorem Mirrored.kept {told : List RequestId} {unheard : List Output} {result : SshPrompts.Result}
    (mirrored : Mirrored session)
    (flight : session.flightIds = told ++ unheard.filterMap toldId)
    (letsGo : SshPrompts.LetsGo told session.right result)
    (shown : ∀ id ∈ result.1.ids, session.left.Keeps id ∨
      (∃ reason, .requestCancelled id reason ∈ unheard) ∨
        result.1.Adopting unheard id)
    (tells : ∀ id ∈ unheard.filterMap toldId, session.left.Keeps id ∨
      CancelledAfter unheard id) :
    Mirrored ({ session with rightward := unheard }.afterRight result) := by
  obtain ⟨kempt, gone, perm, answered⟩ := letsGo
  have whole : (session.right.ids ++ session.flightIds).Perm
      (gone ++ (result.1.ids ++ unheard.filterMap toldId)) := by
    rw [flight, ← append_assoc, ← append_assoc]
    exact perm.append_right _
  have once := whole.nodup_iff.mp mirrored.once
  refine
    { kempt := kempt
      once := (nodup_append.mp once).2.1
      below := fun id mem => mirrored.below id (whole.mem_iff.mpr (mem_append_right _ mem))
      answered := ?_
      shown := shown
      told := tells }
  intro id ⟨line, mem, answers⟩
  rcases mem_append.mp mem with earlier | new
  · obtain ⟨below, apart⟩ := mirrored.answered id ⟨line, earlier, answers⟩
    exact ⟨below, fun again => apart (whole.mem_iff.mpr (mem_append_right _ again))⟩
  · have went := answered line new id answers
    refine ⟨mirrored.below id (whole.mem_iff.mpr (mem_append_left _ went)), fun again => ?_⟩
    exact (nodup_append.mp once).2.2 id went id again rfl

theorem Mirrored.acted {event : SshPrompts.Event} {result : SshPrompts.Result}
    (mirrored : Mirrored session) (acts : session.right.act event = some result) :
    Mirrored (session.afterRight result) := by
  have letsGo := act_letsGo mirrored.kempt acts
  refine @Mirrored.kept _ session [] session.rightward result mirrored rfl letsGo ?_ mirrored.told
  intro id mem
  obtain ⟨gone, perm, -⟩ := letsGo.goes
  rw [append_nil] at perm
  refine (mirrored.shown id (perm.mem_iff.mpr (mem_append_right _ mem))).imp_right
    (Or.imp_right fun ⟨prompt, adopts⟩ => ?_)
  obtain ⟨shown, prompted, same⟩ := (any_eq_true _ _).mp prompt
  rcases act_prompt (nodup_append.mp mirrored.once).1 prompted acts with gone | ⟨kept, alike⟩
  · exact absurd mem (of_decide_eq_true same ▸ gone)
  · refine ⟨?_, ?_⟩
    · rw [kept]
      exact same
    · rw [alike]
      exact adopts

variable {unheard : List Output} {message : Output}

/-- A cancellation that follows an announcement comes later than the first message. -/
theorem cancelledAfter_cons {id : RequestId} (cancelled : CancelledAfter (message :: unheard) id) :
    (∃ reason, .requestCancelled id reason ∈ unheard) ∧
      (toldId message = some id ∨ CancelledAfter unheard id) := by
  obtain ⟨earlier, announcing, later, request, reason, split, announces, rfl, mem⟩ := cancelled
  cases earlier with
  | nil =>
    obtain ⟨rfl, rfl⟩ := List.cons.inj split
    refine ⟨⟨reason, mem⟩, .inl ?_⟩
    rw [toldId, announces]
    rfl
  | cons first earlier =>
    obtain ⟨rfl, rfl⟩ := List.cons.inj split
    exact ⟨⟨reason, mem_append_right _ (mem_cons_of_mem _ mem)⟩,
      .inr ⟨earlier, announcing, later, request, reason, rfl, announces, rfl, mem⟩⟩

variable {mayPrompt : Bool}

/-- A cancelled id that is still shown belongs to the prompt that stays for its release. -/
theorem Mirrored.stays (mirrored : Mirrored session) {id : RequestId} {reason : CancelReason}
    (listens : session.right.listens mayPrompt (.requestCancelled id reason :: unheard) = true)
    (mem : id ∈ (session.right.onRequestCancelled id reason).ids) :
    (session.right.onRequestCancelled id reason).Adopting unheard id := by
  cases lingers : session.right.lingers id reason with
  | false => exact absurd mem (cancelled_gone (nodup_append.mp mirrored.once).1 lingers)
  | true =>
    simp only [SshPrompts.listens, lingers, Bool.not_true, Bool.false_or,
      Bool.and_eq_true] at listens
    obtain ⟨⟨stays, prompt⟩, adopts⟩ := listens
    obtain ⟨shown, prompted, same⟩ := (any_eq_true _ _).mp prompt
    have unchanged : session.right.onRequestCancelled id reason = session.right := by
      rw [onRequestCancelled, if_pos (by simpa [live, prompted] using same), if_pos stays]
    rw [unchanged]
    exact ⟨prompt, adopts⟩

/-- The prompt that takes a new id gives up the old one. -/
theorem Mirrored.adopted (mirrored : Mirrored session)
    {id : RequestId} (inFlight : session.rightward = message :: unheard)
    (prompt : session.right.sshPrompt.any (·.requestId = id) = true)
    (adopts : session.right.adopts message = true)
    (listens : session.right.listens mayPrompt (message :: unheard) = true) :
    id ∉ (session.right.onSshAgentMessage mayPrompt message).1.ids := by
  cases message with
  | approvalRequired keyId request =>
    have may : mayPrompt = true := by simpa [SshPrompts.listens, adopts] using listens
    obtain ⟨adopted, takes⟩ := isSome_iff_exists.mp adopts
    obtain ⟨-, shown, prompted, perm⟩ := mirrored.kempt.adopt takes
    have same : shown.requestId = id := by simpa [prompted] using prompt
    have result : (session.right.onApprovalRequired mayPrompt request).1 = adopted := by
      simp [onApprovalRequired, may, takes]
    have once := mirrored.once
    rw [flightIds, inFlight, filterMap_cons_some (show toldId _ = some request.requestId from rfl),
      append_cons] at once
    have apart := perm.nodup_iff.mp (nodup_append.mp once).1
    change id ∉ (session.right.onApprovalRequired mayPrompt request).1.ids
    rw [result, ← same]
    exact (nodup_cons.mp apart).1
  | _ => cases adopts

theorem Mirrored.heard
    (mirrored : Mirrored session) (inFlight : session.rightward = message :: unheard)
    (listens : session.right.listens mayPrompt (message :: unheard) = true) :
    Mirrored ({ session with rightward := unheard }.afterRight
      (session.right.onSshAgentMessage mayPrompt message)) := by
  have letsGo := heard_letsGo mirrored.kempt mayPrompt message
  have flight : session.flightIds = (toldId message).toList ++
      unheard.filterMap toldId := by
    rw [flightIds, inFlight, filterMap_cons]
    cases toldId message <;> rfl
  have told := mirrored.told
  rw [inFlight, flight] at told
  refine mirrored.kept flight letsGo ?_ ?_
  · intro id mem
    obtain ⟨gone, perm, -⟩ := letsGo.goes
    rcases mem_append.mp (perm.mem_iff.mpr (mem_append_right _ mem)) with old | new
    · refine (mirrored.shown id old).imp_right fun waits => ?_
      rcases waits with ⟨reason, cancelled⟩ | ⟨prompt, adopts⟩
      · rw [inFlight] at cancelled
        rcases mem_cons.mp cancelled with rfl | later
        · exact .inr (mirrored.stays listens mem)
        · exact .inl ⟨reason, later⟩
      · rw [inFlight] at adopts
        exact absurd mem (mirrored.adopted inFlight prompt adopts listens)
    · exact (told id (mem_append_left _ new)).imp_right fun cancelled =>
        .inl (cancelledAfter_cons cancelled).1
  · intro id mem
    refine (told id (mem_append_right _ mem)).imp_right fun cancelled => ?_
    refine (cancelledAfter_cons cancelled).2.resolve_left fun tells => ?_
    -- The same id would be announced twice.
    have once := (nodup_append.mp mirrored.once).2.1
    rw [flight, tells] at once
    exact (nodup_cons.mp once).1 mem

/-! ### Runs in which every prompt is real -/

/-- The lines on which the companion fails whatever is pending, without a message for it. -/
def failsPending : ControlMessage → Bool
  | .vaultLocked _ => true
  | .vaultLoggedOut => true
  | .keyLoadBegin _ _ => true
  | _ => false

/-- The companion fails nothing that the panel shows, queues or is being told of; the panel drops
no message, and hears each when it can. -/
def tellsAndListens (env : Env) : Permission env
  | before, .toLeft _, _ =>
    before.leftward.head?.any (fun line => failsPending line.message) = true →
      ∀ id ∈ before.left.pending.keys, id ∉ before.right.ids ++ before.flightIds
  | _, .toRight .dropped, _ => False
  | before, .toRight (.heard mayPrompt), _ =>
    before.right.listens mayPrompt before.rightward = true
  | _, _, _ => True

theorem mirrored_initial :
    Mirrored (⟨.initial env, .initial, [], [], []⟩ : Session env) where
  kempt := ⟨rfl, fun _ => rfl⟩
  once := nodup_nil
  below _ mem := by cases mem
  answered _ answering := by
    obtain ⟨line, mem, -⟩ := answering
    cases mem
  shown _ mem := by cases mem
  told _ mem := by cases mem

/-- What the first line silences is neither shown nor told of. -/
theorem Mirrored.spares (mirrored : Mirrored session)
    (run : Run (Companion.system env) inputs session.left) (was : session.left.running = true)
    {line : Line} {unread : List Line} (inFlight : session.leftward = line :: unread)
    (permits : tellsAndListens env session (.toLeft ()) after) {id : RequestId}
    (silences : line.message.silences session.left id) :
    id < session.left.approvals.nextId ∧ id ∉ session.right.ids ++ session.flightIds := by
  have spoken : ∀ {id}, line.message.answeredId = some id →
      id < session.left.approvals.nextId ∧ id ∉ session.right.ids ++ session.flightIds := by
    intro id answers
    refine mirrored.answered id ⟨line, ?_, answers⟩
    rw [inFlight]
    exact mem_cons_self
  have fails : failsPending line.message = true → id ∈ session.left.pending →
      id < session.left.approvals.nextId ∧ id ∉ session.right.ids ++ session.flightIds := by
    intro failing pending
    refine ⟨(run_sorted run was).keepsBelow id (.inl pending), permits ?_ id pending⟩
    rw [inFlight]
    exact failing
  generalize line.message = message at silences spoken fails
  cases message <;> first
    | exact fails rfl silences
    | exact spoken (silences ▸ rfl)
    | exact silences.elim

theorem run_mirrored (run : Run ((system env).restrict (tellsAndListens env)) history session)
    (running : session.left.running = true) : Mirrored session := by
  have mirrored : session.left.running = true → Mirrored session := by
    refine Run.invariant (fun _ session => session.left.running = true → Mirrored session)
      ?_ ?_ run
    · intro state initial _
      rw [initial]
      exact mirrored_initial
    · intro history before label after run mirrored ⟨step, permits⟩ running
      have moved := stepped step
      have was := moved.running running
      have holds := mirrored was
      obtain ⟨⟨inputs, companion⟩, -⟩ := companion_run run.of_restrict
      cases moved with
      | takes _ own =>
        refine holds.turned companion was (List.Subset.refl _) ?_ running
        intro id silences
        rename Input => input
        cases input with
        | control message => cases own
        | _ => cases silences
      | reads inFlight _ =>
        refine holds.turned companion was ?_ (fun id => holds.spares companion was inFlight
          permits) running
        rw [inFlight]
        exact subset_cons_self _ _
      | acts acts => exact holds.acted acts
      | drops inFlight => exact permits.elim
      | hears inFlight =>
        refine holds.heard inFlight ?_
        rw [← inFlight]
        exact permits
  exact mirrored running

/-- Prompts on screen are real: along every run in which the companion fails no request that
the panel shows or is being told of, and the panel hears of a cancellation when it can let the
request go or take its new id, the companion still keeps every request shown or queued once the
panel has heard all it was sent. -/
theorem shown_is_kept (run : Run ((system env).restrict (tellsAndListens env)) history session)
    (running : session.left.running = true) (heard : session.rightward = []) {id : RequestId}
    (shown : id ∈ session.right.ids) : session.left.Keeps id := by
  rcases (run_mirrored run running).shown id shown with keeps | ⟨reason, cancelled⟩ | ⟨-, adopts⟩
  · exact keeps
  · rw [heard] at cancelled
    cases cancelled
  · rw [heard] at adopts
    cases adopts

instance (before : Session env) (label : SessionMove) (after : Session env) :
    Decidable (tellsAndListens env before label after) := by
  unfold tellsAndListens
  split <;> infer_instance

/-- The keys are loaded and two programs ask for a signature; the panel shows the first. -/
def twoAsk : List SessionMove :=
  tell .hello ++ [.right (.status true)] ++ loadKeys 1 ++
    [.left (.client sampleSign), .left (.client otherSign)] ++ hear 5

/-- The companion has released the request of a promoted prompt, and the prompt has taken its new
id; then another program asks. -/
theorem shown_is_kept_released :
    ∃ session : Session (sampleEnv 1000), session.right.ids = [2, 3] ∧
      session.left.running = true ∧ session.rightward = [] ∧
      session.left.Keeps 2 ∧ session.left.Keeps 3 := by
  obtain ⟨session, played, ids, running, heard⟩ :
      ∃ session ∈ sampleSession (tellsAndListens _) (promotedPrompt ++ loadKeys 2 ++
        [.left (.client otherSign)] ++ hear 5), session.right.ids = [2, 3] ∧
        session.left.running = true ∧ session.rightward = [] := by
    decide +kernel
  have run := run_sampleSession played
  refine ⟨session, ids, running, heard, shown_is_kept run running heard ?_,
    shown_is_kept run running heard ?_⟩
  · rw [ids]
    decide
  · rw [ids]
    decide

/-- The vault is locked while two requests are pending. The companion fails both, and the panel,
which is told nothing of it, goes on showing the first and queueing the second. -/
theorem failed_requests_stay_shown :
    ∃ (session : Session (sampleEnv 1000)) (history : List SessionMove),
      Run (system (sampleEnv 1000)) history session ∧ session.left.running = true ∧
      session.rightward = [] ∧ session.leftward = [] ∧ session.right.promptIds = [1, 2] ∧
      ∀ id, ¬ session.left.Keeps id := by
  obtain ⟨session, played, running, heard, read, shown, pending, held, listing⟩ :
      ∃ session ∈ sampleSession (anyStep _)
        (twoAsk ++ [.right (.status false)] ++ tell (.vaultLocked 1) ++ hear 1),
        session.left.running = true ∧ session.rightward = [] ∧ session.leftward = [] ∧
        session.right.promptIds = [1, 2] ∧ session.left.pending.keys = [] ∧
        session.left.held.keys = [] ∧ session.left.listingId = none := by
    decide +kernel
  refine ⟨session, _, (run_sampleSession played).of_restrict, running, heard, read, shown, ?_⟩
  rintro id (waiting | waiting | waiting)
  · rw [AList.mem_keys, pending] at waiting
    cases waiting
  · rw [AList.mem_keys, held] at waiting
    cases waiting
  · rw [listing] at waiting
    cases waiting

end Session

end QsBitwarden.Panel
