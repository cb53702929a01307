import QsBitwarden.Panel.SshMirror

/-! Owns the other direction of the mirror: that the panel shows or queues every request
the companion keeps pending, and which steps of the panel lose one. It does not own what the
panel shows beyond that. -/

namespace QsBitwarden.Panel

open Agent SshPrompts
open Lib List Option

variable {env : Env}

namespace SshPrompts

variable {panel : SshPrompts} {spent : RequestId → Prop}

/-! ### What the panel carries on -/

/-- Of the prompts shown or queued and those just asked for, each is so afterwards, or has been
answered, or is spent. Unlock requests come from nowhere but `opened`, and a promotion that
is open was so before or has just turned an unlock request into the prompt. -/
structure Carries (asked opened : List RequestId) (spent : RequestId → Prop) (panel : SshPrompts)
    (result : Result) : Prop where
  stdin : result.1.stdinEnabled = panel.stdinEnabled
  prompts : ∀ id ∈ panel.promptIds ++ asked, id ∈ result.1.promptIds ∨
    (∃ line ∈ result.2, line.message.answeredId = some id) ∨ spent id
  unlocks : ∀ id ∈ result.1.unlockIds, id ∈ panel.unlockIds ++ opened
  promoted : ∀ old, result.1.sshPromotedOldId = some old → panel.sshPromotedOldId = some old ∨
    (old ∈ panel.unlockIds ∧
      ∃ prompt, result.1.sshPrompt = some prompt ∧ prompt.requestId = old)

theorem carries_same (panel : SshPrompts) (lines : List Line) :
    Carries [] [] spent panel (panel, lines) where
  stdin := rfl
  prompts _ mem := .inl ((mem_append.mp mem).resolve_right not_mem_nil)
  unlocks _ mem := mem_append_left _ mem
  promoted _ isOpen := .inl isOpen

variable {lines : List Line}

/-- Dismissing everything loses the prompts that are neither answered nor spent. -/
theorem dismiss_carries (lost : ∀ id ∈ panel.promptIds,
      (∃ line ∈ lines, line.message.answeredId = some id) ∨ spent id) :
    Carries [] [] spent panel (panel.dismissSshApproval, lines) where
  stdin := rfl
  prompts id mem := .inr (lost id ((mem_append.mp mem).resolve_right not_mem_nil))
  unlocks id mem := by cases mem
  promoted old isOpen := by cases isOpen

theorem promptIds_of_prompt {prompt : Prompt} (shown : panel.sshPrompt = some prompt) :
    panel.promptIds =
      prompt.requestId :: panel.sshPromptQueue.map Announcement.requestId := by
  rw [promptIds, shown]
  rfl

theorem promptIds_of_none (kempt : Kempt panel) (missing : panel.sshPrompt = none) :
    panel.promptIds = [] := by
  rw [promptIds, missing, kempt.queue missing]
  rfl

/-- Without a prompt there is none to lose. -/
theorem dismiss_carries_of_none (kempt : Kempt panel) (missing : panel.sshPrompt = none)
    (lines : List Line) : Carries [] [] spent panel (panel.dismissSshApproval, lines) := by
  refine dismiss_carries fun id mem => ?_
  rw [promptIds_of_none kempt missing] at mem
  cases mem

/-- The next prompt is shown once the one on screen is answered or spent. -/
theorem advance_carries {prompt : Prompt} (shown : panel.sshPrompt = some prompt)
    (lost : (∃ line ∈ lines, line.message.answeredId = some prompt.requestId) ∨
      spent prompt.requestId) :
    Carries [] [] spent panel (panel.advanceSshPrompt, lines) := by
  unfold advanceSshPrompt
  cases queued : panel.sshPromptQueue with
  | nil =>
    apply dismiss_carries
    intro id mem
    rw [promptIds_of_prompt shown, queued] at mem
    rw [mem_singleton.mp mem]
    exact lost
  | cons next remaining =>
    refine ⟨rfl, fun id mem => ?_, fun id mem => mem_append_left _ mem, fun _ => .inl⟩
    rw [append_nil, promptIds_of_prompt shown, queued] at mem
    rcases mem_cons.mp mem with rfl | later
    · exact .inr lost
    · exact .inl later

/-- The next unlock request is shown; only where none is queued does the prompt go with it. -/
theorem advanceUnlock_carries (kempt : Kempt panel)
    (alone : panel.sshPrompt = none ∨ panel.sshUnlockQueue ≠ []) :
    Carries [] [] spent panel (panel.advanceSshUnlock, lines) := by
  unfold advanceSshUnlock
  cases queued : panel.sshUnlockQueue with
  | nil => exact dismiss_carries_of_none kempt (alone.resolve_right (not_not_intro queued)) lines
  | cons next remaining =>
    refine { carries_same panel lines with unlocks := fun id mem => ?_ }
    refine mem_append_left _ (mem_append_right _ ?_)
    rw [queued]
    exact mem

/-! ### The panel's own steps -/

theorem write_answers {message : ControlMessage} {id : RequestId}
    (stdin : panel.stdinEnabled = true) (answers : message.answeredId = some id) :
    ∃ line ∈ panel.sshAgentWrite message, line.message.answeredId = some id := by
  refine ⟨.control message, ?_, answers⟩
  rw [sshAgentWrite, if_pos stdin]
  exact mem_singleton_self _

theorem approve_carries (stdin : panel.stdinEnabled = true) (grantSeconds : ℕ)
    (untilScreenLock : Bool) :
    Carries [] [] spent panel (panel.approveSshRequest grantSeconds untilScreenLock) := by
  unfold approveSshRequest
  split
  · exact carries_same panel []
  · next prompt shown =>
    refine advance_carries shown (.inl ?_)
    rw [if_pos stdin]
    exact ⟨_, mem_singleton_self _, rfl⟩

theorem deny_carries (kempt : Kempt panel) (stdin : panel.stdinEnabled = true)
    (alone : panel.sshUnlockRequest = none ∨ panel.sshPrompt = none ∨
      panel.sshUnlockQueue ≠ []) :
    Carries [] [] spent panel panel.denySshRequest := by
  unfold denySshRequest
  split
  · next request shown =>
    refine advanceUnlock_carries kempt (alone.resolve_left fun missing => ?_)
    rw [missing] at shown
    cases shown
  · split
    · next prompt shown => exact advance_carries shown (.inl (write_answers stdin rfl))
    · next missing => exact dismiss_carries_of_none kempt missing _

/-- All are denied, but for a queued one under the id 0, which no request has. -/
theorem denyAll_carries (stdin : panel.stdinEnabled = true) (zero : spent 0) :
    Carries [] [] spent panel panel.denyAllSshRequests := by
  apply dismiss_carries
  intro id mem
  simp only [promptIds, mem_append, List.mem_map, mem_toList] at mem
  simp only [mem_append, mem_flatMap]
  rcases mem with ⟨prompt, shown, rfl⟩ | ⟨item, queued, rfl⟩
  · obtain ⟨line, written, answers⟩ := @write_answers panel (.deny prompt.requestId)
      prompt.requestId stdin rfl
    refine .inl ⟨line, .inl (.inl (.inl ?_)), answers⟩
    rw [mem_def.mp shown]
    exact written
  · by_cases isZero : item.requestId = 0
    · rw [isZero]
      exact .inr zero
    · obtain ⟨line, written, answers⟩ := @write_answers panel (.deny item.requestId)
        item.requestId stdin rfl
      refine .inl ⟨line, .inl (.inl (.inr ⟨item, ?_, written⟩)), answers⟩
      exact mem_filter.mpr ⟨queued, decide_eq_true isZero⟩

theorem status_carries (kempt : Kempt panel) (unlocked : Bool) :
    Carries [] [] spent panel (panel.onStatusChanged unlocked, []) := by
  unfold onStatusChanged
  split
  · exact carries_same panel []
  · unfold promoteUnlockToApproval
    split
    · exact { carries_same panel [] with }
    · next raw kept =>
      split
      · exact { carries_same panel [] with }
      · next free =>
        obtain ⟨missing, request, shown, same⟩ := kempt.promoted kept free
        refine ⟨rfl, fun id mem => ?_, fun id mem => (by cases mem),
          fun old isOpen => .inr ⟨?_, _, rfl, Option.some.inj isOpen⟩⟩
        · rw [append_nil, promptIds_of_none kempt missing] at mem
          cases mem
        · rw [unlockIds, shown, ← Option.some.inj isOpen, ← same]
          exact mem_cons_self

/-! ### Messages from the companion -/

/-- While a promotion is open, it is the prompt on screen, whose id is spent. -/
def PromotedSpent (spent : RequestId → Prop) (panel : SshPrompts) : Prop :=
  ∀ old, panel.sshPromotedOldId = some old →
    spent old ∧ ∃ prompt, panel.sshPrompt = some prompt ∧ prompt.requestId = old

theorem adopt_carries {message : Announcement} {adopted : SshPrompts}
    (promoted : PromotedSpent spent panel)
    (adopts : panel.adoptSshPrompt message = some adopted) :
    Carries [message.requestId] [] spent panel (adopted, []) := by
  unfold adoptSshPrompt at adopts
  split at adopts
  · cases adopts
  · next prompt shown =>
    split at adopts
    · next guard =>
      cases adopts
      obtain ⟨old, isOpen⟩ := isSome_iff_exists.mp (Bool.and_eq_true_iff.mp guard).1
      obtain ⟨gone, prompt', shown', rfl⟩ := promoted old isOpen
      rw [shown] at shown'
      cases shown'
      refine ⟨rfl, fun id mem => ?_, fun id mem => mem_append_left _ mem,
        fun _ isOpen => (by cases isOpen)⟩
      rw [promptIds_of_prompt shown] at mem
      rcases mem_append.mp mem with before | new
      · rcases mem_cons.mp before with rfl | later
        · exact .inr (.inr gone)
        · exact .inl (mem_cons_of_mem _ later)
      · rw [mem_singleton.mp new]
        exact .inl mem_cons_self
    · cases adopts

theorem enqueue_mem {Message : Type*} (idOf : Message → RequestId) {queue : List Message}
    (message : Message) (room : queue.length < 4) {id : RequestId}
    (mem : id ∈ queue.map idOf ∨ id = idOf message) :
    id ∈ (sshAgentEnqueuePrompt idOf queue message 4).map idOf := by
  unfold sshAgentEnqueuePrompt
  dsimp only
  rw [if_pos (by decide : 0 < 4)]
  by_cases queued : (queue.any fun item => idOf item = idOf message) = true
  · rw [if_pos queued]
    rcases mem with before | rfl
    · exact before
    · obtain ⟨item, inQueue, same⟩ := any_eq_true.mp queued
      exact List.mem_map.mpr ⟨item, inQueue, of_decide_eq_true same⟩
  · rw [if_neg queued, if_neg (not_le.mpr room), map_append]
    rcases mem with before | rfl
    · exact mem_append_left _ before
    · exact mem_append_right _ (mem_singleton_self _)

theorem approvalRequired_carries (kempt : Kempt panel) (stdin : panel.stdinEnabled = true)
    (promoted : PromotedSpent spent panel) (room : panel.sshPromptQueue.length < 4)
    (mayPrompt : Bool) (message : Announcement) :
    Carries [message.requestId] [] spent panel (panel.onApprovalRequired mayPrompt message) := by
  unfold onApprovalRequired
  split
  · refine { @carries_same spent panel _ with prompts := fun id mem => ?_ }
    rcases mem_append.mp mem with before | new
    · exact .inl before
    · rw [mem_singleton.mp new]
      exact .inr (.inl (write_answers stdin rfl))
  · split
    · next adopted adopts => exact adopt_carries promoted adopts
    · split
      · refine { @carries_same spent panel [] with prompts := fun id mem => .inl ?_ }
        rcases mem_append.mp mem with before | new
        · rcases mem_append.mp before with shown | queued
          · exact mem_append_left _ shown
          · exact mem_append_right _ (enqueue_mem _ message room (.inl queued))
        · exact mem_append_right _
            (enqueue_mem _ message room (.inr (mem_singleton.mp new)))
      · next free =>
        have missing : panel.sshPrompt = none := by
          rw [Bool.not_eq_true, isSome_eq_false_iff, isNone_iff_eq_none] at free
          exact free
        refine ⟨rfl, fun id mem => .inl ?_, fun id mem => mem_append_left _ mem, fun _ => .inl⟩
        rw [promptIds_of_none kempt missing] at mem
        rw [mem_singleton.mp mem]
        exact mem_cons_self

theorem unlockRequired_carries (mayPrompt : Bool) (message : UnlockMessage) :
    Carries [] [message.request.requestId] spent panel
      (panel.onUnlockRequired mayPrompt message) := by
  have same := @carries_same spent panel []
  unfold onUnlockRequired
  split
  · exact { carries_same panel _ with unlocks := fun id mem => mem_append_left _ mem }
  · split
    · refine { same with unlocks := fun id mem => ?_ }
      rcases mem_append.mp mem with shown | queued
      · exact mem_append_left _ (mem_append_left _ shown)
      · obtain ⟨item, inQueue, rfl⟩ := List.mem_map.mp queued
        rcases mem_of_enqueue inQueue with before | rfl
        · exact mem_append_left _ (mem_append_right _ (mem_map_of_mem before))
        · exact mem_append_right _ (mem_singleton_self _)
    · refine { same with unlocks := fun id mem => ?_ }
      rcases mem_append.mp mem with shown | queued
      · exact mem_append_right _ shown
      · exact mem_append_left _ (mem_append_right _ queued)

theorem removeQueued_carries {requestId : RequestId} (gone : spent requestId) :
    Carries [] [] spent panel (panel.removeQueued requestId, []) := by
  refine ⟨rfl, fun id mem => ?_, fun id mem => ?_, fun old isOpen => .inl isOpen⟩
  · by_cases same : id = requestId
    · rw [same]
      exact .inr (.inr gone)
    · rw [append_nil] at mem
      refine .inl ?_
      rcases mem_append.mp mem with shown | queued
      · exact mem_append_left _ shown
      · obtain ⟨item, inQueue, rfl⟩ := List.mem_map.mp queued
        refine mem_append_right _ (mem_map_of_mem ?_)
        exact mem_filter.mpr ⟨inQueue, decide_eq_true same⟩
  · refine mem_append_left _ ?_
    rcases mem_append.mp mem with shown | queued
    · exact mem_append_left _ shown
    · exact mem_append_right _ ((filter_sublist.map _).subset queued)

/-- A cancellation takes off the prompt it names and no other. -/
theorem cancelled_carries (kempt : Kempt panel) {requestId : RequestId} (reason : CancelReason)
    (gone : spent requestId) :
    Carries [] [] spent panel (panel.onRequestCancelled requestId reason, []) := by
  unfold onRequestCancelled
  by_cases isLive : (panel.live.any (·.requestId = requestId)) = true
  · rw [if_pos isLive]
    by_cases stays : panel.staysForRelease reason = true
    · rw [if_pos stays]
      exact carries_same panel []
    · rw [if_neg stays]
      cases shown : panel.sshPrompt with
      | none =>
        split
        · next ahead => cases ahead
        · split
          · exact advanceUnlock_carries kempt (.inl shown)
          · exact dismiss_carries_of_none kempt shown []
      | some prompt =>
        -- The prompt is the live one, so it is the one cancelled.
        have named : prompt.requestId = requestId := by
          rw [live, shown] at isLive
          exact of_decide_eq_true isLive
        split
        · exact advance_carries shown (.inr (named ▸ gone))
        · next noneQueued =>
          have empty : panel.sshPromptQueue = [] := by simpa using noneQueued
          split
          · next ahead =>
            refine advanceUnlock_carries kempt (.inr fun nil => ?_)
            simp [nil] at ahead
          · apply dismiss_carries
            intro id mem
            rw [promptIds_of_prompt shown, empty] at mem
            rw [mem_singleton.mp mem, named]
            exact .inr gone
  · rw [if_neg isLive]
    exact removeQueued_carries gone

/-- The approvals a message asks for. -/
def askedBy : Output → List RequestId
  | .approvalRequired _ request => [request.requestId]
  | _ => []

/-- The unlock requests a message opens. -/
def openedBy : Output → List RequestId
  | .unlockRequired _ request => [request.requestId]
  | _ => []

theorem heard_carries (kempt : Kempt panel) (stdin : panel.stdinEnabled = true)
    (promoted : PromotedSpent spent panel) (mayPrompt : Bool) (message : Output)
    (room : askedBy message ≠ [] → panel.sshPromptQueue.length < 4)
    (gone : ∀ id reason, message = .requestCancelled id reason → spent id) :
    Carries (askedBy message) (openedBy message) spent panel
      (panel.onSshAgentMessage mayPrompt message) := by
  cases message with
  | approvalRequired keyId request =>
    exact approvalRequired_carries kempt stdin promoted (room (by simp [askedBy])) mayPrompt request
  | unlockRequired reason request => exact unlockRequired_carries mayPrompt ⟨reason, request⟩
  | requestCancelled id reason => exact cancelled_carries kempt reason (gone id reason rfl)
  | _ => exact carries_same panel []

end SshPrompts

namespace Session

variable {session after : Session env} {history : List SessionMove} {label : SessionMove}

/-! ### Ids that are never pending again -/

/-- An id that was issued and is not pending. -/
def Spent (c : Companion env) (id : RequestId) : Prop := id < c.approvals.nextId ∧ id ∉ c.pending

theorem Spent.turn {c : Companion env} {input : Input} {silent : RequestId → Prop}
    {id : RequestId} (isSpent : Spent c id) (filed : Filed c [] [] silent (c.turn input)) :
    Spent (c.turn input) id := by
  refine ⟨isSpent.1.trans_le filed.nextId, fun pending => ?_⟩
  rcases filed.pendingFrom id pending with before | ⟨fresh, -⟩
  · exact isSpent.2 before
  · exact absurd fresh (not_le.mpr isSpent.1)

/-- What is announced for an unlock is not pending: only another message announces that. -/
theorem spent_of_unlockRequired {inputs : List Input} {c : Companion env}
    (run : Run (Companion.system env) inputs c) {input : Input} (was : c.running = true)
    (running : (c.turn input).running = true) {reason : UnlockReason} {request : Announcement}
    (said : .unlockRequired reason request ∈ c.spoken (c.turn input)) :
    Spent (c.turn input) request.requestId := by
  have filed := turn_filed (run_sorted run was) running
  obtain ⟨fresh, below⟩ := filed.announced _ said request rfl
  refine ⟨below, fun pending => ?_⟩
  rcases filed.pendingFrom _ pending with before | ⟨-, keyId, other, saidOther, same⟩
  · exact absurd fresh (not_le.mpr ((run_sorted run was).keepsBelow _ (.inl before)))
  · have once := eq_of_nodup_filterMap (spoken_once run was) said saidOther
      (rfl : toldId _ = some request.requestId) (congrArg some same)
    cases once

/-! ### What is pending is on the panel -/

/-- An approval on its way to the panel. -/
def Asking (messages : List Output) (id : RequestId) : Prop :=
  ∃ keyId request, .approvalRequired keyId request ∈ messages ∧ request.requestId = id

/-- Every pending request is shown or queued, or the panel will hear of it, or it is being
answered; and what the panel keeps for an unlock is not pending. -/
structure Waiting (session : Session env) : Prop where
  stdin : session.right.stdinEnabled = true
  kempt : session.right.Kempt
  next : 0 < session.left.approvals.nextId
  positive : ∀ id ∈ session.left.pending, 0 < id
  pending : ∀ id ∈ session.left.pending, id ∈ session.right.promptIds ∨
    Asking session.rightward id ∨ session.Answering id
  cancelled : ∀ id reason, .requestCancelled id reason ∈ session.rightward → Spent session.left id
  told : ∀ reason request, .unlockRequired reason request ∈ session.rightward →
    Spent session.left request.requestId
  unlocks : ∀ id ∈ session.right.unlockIds, Spent session.left id
  promoted : SshPrompts.PromotedSpent (Spent session.left) session.right

theorem waiting_initial : Waiting (⟨.initial env, .initial, [], [], []⟩ : Session env) where
  stdin := rfl
  kempt := ⟨rfl, fun _ => rfl⟩
  next := Nat.one_pos
  positive _ mem := absurd mem (AList.notMem_empty _)
  pending _ mem := absurd mem (AList.notMem_empty _)
  cancelled _ _ mem := by cases mem
  told _ _ mem := by cases mem
  unlocks _ mem := by cases mem
  promoted _ isOpen := by cases isOpen

/-- A turn, of whose input only an answer may be lost to what is pending. -/
theorem Waiting.turned {inputs : List Input} (waiting : Waiting session)
    (run : Run (Companion.system env) inputs session.left) (was : session.left.running = true)
    {input : Input} {unread : List Line}
    (answered : ∀ id, session.Answering id → id ∈ (session.left.turn input).pending →
      ∃ line ∈ unread, line.message.answeredId = some id)
    (running : (session.left.turn input).running = true) :
    Waiting (session.turned input unread) := by
  have filed := turn_filed (run_sorted run was) running
  refine
    { stdin := waiting.stdin
      kempt := waiting.kempt
      next := waiting.next.trans_le filed.nextId
      positive := ?_
      pending := ?_
      cancelled := ?_
      told := ?_
      unlocks := fun id mem => (waiting.unlocks id mem).turn filed
      promoted := fun old isOpen =>
        (waiting.promoted old isOpen).imp_left fun isSpent => isSpent.turn filed }
  · intro id mem
    rcases filed.pendingFrom id mem with before | ⟨fresh, -⟩
    · exact waiting.positive id before
    · exact waiting.next.trans_le fresh
  · intro id mem
    rcases filed.pendingFrom id mem with before | ⟨-, keyId, request, said, same⟩
    · rcases waiting.pending id before with shown | ⟨keyId, request, told, same⟩ | answering
      · exact .inl shown
      · exact .inr (.inl ⟨keyId, request, mem_append_left _ told, same⟩)
      · exact .inr (.inr (answered id answering mem))
    · exact .inr (.inl ⟨keyId, request, mem_append_right _ said, same⟩)
  · intro id reason mem
    rcases mem_append.mp mem with old | new
    · exact (waiting.cancelled id reason old).turn filed
    · obtain ⟨below, gone⟩ := filed.cancelled id reason new
      exact ⟨below, fun pending => gone (.inl pending)⟩
  · intro reason request mem
    rcases mem_append.mp mem with old | new
    · exact (waiting.told reason request old).turn filed
    · exact spent_of_unlockRequired run was running new

/-- A step of the panel that carries on what it has and what it is asked for. -/
theorem Waiting.carried {asked opened : List RequestId} {unheard : List Output}
    {result : SshPrompts.Result} (waiting : Waiting session)
    (carries : SshPrompts.Carries asked opened (fun id => id ∉ session.left.pending) session.right
      result)
    (kempt : result.1.Kempt) (subset : unheard ⊆ session.rightward)
    (asks : ∀ id, Asking session.rightward id → id ∈ asked ∨ Asking unheard id)
    (opens : ∀ id ∈ opened, Spent session.left id)
    (keeps : SshPrompts.KeepsPromoted session.right result.1) :
    Waiting ({ session with rightward := unheard }.afterRight result) := by
  refine
    { stdin := carries.stdin.trans waiting.stdin
      kempt := kempt
      next := waiting.next
      positive := waiting.positive
      pending := ?_
      cancelled := fun id reason mem => waiting.cancelled id reason (subset mem)
      told := fun reason request mem => waiting.told reason request (subset mem)
      unlocks := ?_
      promoted := ?_ }
  · intro id mem
    have carried : id ∈ session.right.promptIds ++ asked →
        id ∈ result.1.promptIds ∨ Asking unheard id ∨
          ∃ line ∈ session.leftward ++ result.2, line.message.answeredId = some id := by
      intro known
      rcases carries.prompts id known with shown | ⟨line, written, answers⟩ | isSpent
      · exact .inl shown
      · exact .inr (.inr ⟨line, mem_append_right _ written, answers⟩)
      · exact absurd mem isSpent
    rcases waiting.pending id mem with shown | asking | ⟨line, before, answers⟩
    · exact carried (mem_append_left _ shown)
    · rcases asks id asking with new | later
      · exact carried (mem_append_right _ new)
      · exact .inr (.inl later)
    · exact .inr (.inr ⟨line, mem_append_left _ before, answers⟩)
  · intro id mem
    rcases mem_append.mp (carries.unlocks id mem) with before | new
    · exact waiting.unlocks id before
    · exact opens id new
  · intro old isOpen
    rcases carries.promoted old isOpen with before | ⟨unlock, prompt, shown, same⟩
    · obtain ⟨isSpent, prompt, shown, same⟩ := waiting.promoted old before
      refine ⟨isSpent, prompt, (keeps ?_ ?_).trans shown, same⟩
      · rw [before]
        rfl
      · rw [show result.1.sshPromotedOldId = some old from isOpen]
        rfl
    · exact ⟨waiting.unlocks old unlock, prompt, shown, same⟩

/-! ### Runs in which no prompt is lost -/

def asksApproval : Output → Bool
  | .approvalRequired _ _ => true
  | _ => false

/-- The panel goes on listening and writing, its timer dismisses nothing that is pending, the
user cancels the only unlock request on screen just while no prompt is, and no approval is
asked for while four are queued. The timer starts when a prompt is drawn, so no sooner than the
companion's deadline; but an overdue request stays pending until the companion's next tick, and
no reading of the panel's clock tells whether that has come. -/
def SparesPending (before : Session env) : SessionMove → Prop
  | .right .stop => False
  | .right .expire => ∀ id ∈ before.right.promptIds, id ∉ before.left.pending.keys
  | .right .deny => before.right.sshUnlockRequest = none ∨ before.right.sshPrompt = none ∨
    before.right.sshUnlockQueue ≠ []
  | .toRight .dropped => False
  | .toRight (.heard _) => before.rightward.head?.any asksApproval = true →
    before.right.sshPromptQueue.length < 4
  | _ => True

/-- Besides, no step draws another prompt while a promotion stays open. -/
def losesNoPrompt (env : Env) : Permission env := fun before label after =>
  SshPrompts.KeepsPromoted before.right after.right ∧ SparesPending before label

theorem Waiting.act_carries (waiting : Waiting session) {event : SshPrompts.Event}
    {result : SshPrompts.Result} (acts : session.right.act event = some result)
    (spares : SparesPending session (.right event)) :
    SshPrompts.Carries [] [] (fun id => id ∉ session.left.pending) session.right result := by
  cases event with
  | approve grantSeconds untilScreenLock =>
    cases acts
    exact approve_carries waiting.stdin grantSeconds untilScreenLock
  | deny =>
    cases acts
    exact deny_carries waiting.kempt waiting.stdin spares
  | denyAll =>
    cases acts
    exact denyAll_carries waiting.stdin fun pending =>
      (waiting.positive 0 pending).ne rfl
  | expire =>
    cases acts
    unfold expireSshRequest
    split
    · exact carries_same session.right []
    · apply dismiss_carries
      intro id mem
      exact .inr (spares id mem)
  | status unlocked =>
    cases acts
    exact status_carries waiting.kempt unlocked
  | configure approvalWindowSec approvalUntilScreenLock =>
    cases acts
    exact { carries_same session.right [] with }
  | write message =>
    dsimp only [act] at acts
    split at acts
    · cases acts
    · cases acts
      exact carries_same session.right _
  | stop => exact spares.elim

theorem Waiting.heard {mayPrompt : Bool} {message : Output} {unheard : List Output}
    (waiting : Waiting session) (inFlight : session.rightward = message :: unheard)
    (spares : SparesPending session (.toRight (.heard mayPrompt)))
    (keeps : SshPrompts.KeepsPromoted session.right
      (session.right.onSshAgentMessage mayPrompt message).1) :
    Waiting ({ session with rightward := unheard }.afterRight
      (session.right.onSshAgentMessage mayPrompt message)) := by
  have kempt := (heard_letsGo waiting.kempt mayPrompt message).1
  have subset : unheard ⊆ session.rightward := by
    rw [inFlight]
    exact subset_cons_self _ _
  have first : message ∈ session.rightward := by
    rw [inFlight]
    exact mem_cons_self
  have promoted : SshPrompts.PromotedSpent (fun id => id ∉ session.left.pending) session.right :=
    fun old isOpen => (waiting.promoted old isOpen).imp_left And.right
  refine waiting.carried (heard_carries waiting.kempt waiting.stdin promoted mayPrompt
    message ?_ ?_) kempt subset ?_ ?_ keeps
  · intro asks
    apply spares
    rw [inFlight]
    cases message <;> first | rfl | exact absurd rfl asks
  · rintro id reason rfl
    exact (waiting.cancelled id reason first).2
  · rintro id ⟨keyId, request, told, same⟩
    rw [inFlight] at told
    rcases mem_cons.mp told with rfl | later
    · exact .inl (mem_singleton.mpr same.symm)
    · exact .inr ⟨keyId, request, later, same⟩
  · intro id mem
    cases message with
    | unlockRequired reason request =>
      rw [mem_singleton.mp mem]
      exact waiting.told reason request first
    | _ => cases mem

theorem run_waiting (run : Run ((system env).restrict (losesNoPrompt env)) history session)
    (running : session.left.running = true) : Waiting session := by
  have waiting : session.left.running = true → Waiting session := by
    refine Run.invariant (fun _ session => session.left.running = true → Waiting session) ?_ ?_ run
    · intro state initial _
      rw [initial]
      exact waiting_initial
    · intro history before label after run waiting ⟨step, keeps, spares⟩ running
      have moved := stepped step
      have was := moved.running running
      have holds := waiting was
      obtain ⟨⟨inputs, companion⟩, -⟩ := companion_run run.of_restrict
      cases moved with
      | takes _ own => exact holds.turned companion was (fun _ answering _ => answering) running
      | reads inFlight _ =>
        refine holds.turned companion was ?_ running
        intro id ⟨line, mem, answers⟩ pending
        rw [inFlight] at mem
        rcases mem_cons.mp mem with rfl | later
        · exact absurd pending (turn_answered (run_sorted companion was) answers running)
        · exact ⟨line, later, answers⟩
      | acts acts =>
        exact holds.carried (holds.act_carries acts spares)
          (act_letsGo holds.kempt acts).1 (List.Subset.refl _)
          (fun _ asking => .inr asking) (by simp) keeps
      | drops inFlight => exact spares.elim
      | hears inFlight => exact holds.heard inFlight spares keeps
  exact waiting running

/-- Prompts are not lost: along every run in which the panel stays up, its timer and the
cancelling of an unlock request dismiss nothing that is pending, its queue has room, and no
other prompt is drawn over a promoted one, every pending request is shown or queued once
both channels are empty. -/
theorem pending_is_shown (run : Run ((system env).restrict (losesNoPrompt env)) history session)
    (running : session.left.running = true) (heard : session.rightward = [])
    (read : session.leftward = []) {id : RequestId} (pending : id ∈ session.left.pending) :
    id ∈ session.right.promptIds := by
  rcases (run_waiting run running).pending id pending with shown | asking | answering
  · exact shown
  · obtain ⟨keyId, request, told, -⟩ := asking
    rw [heard] at told
    cases told
  · obtain ⟨line, written, -⟩ := answering
    rw [read] at written
    cases written

instance (before : Session env) (label : SessionMove) :
    Decidable (SparesPending before label) := by
  rcases label with - | event | - | (- | -) <;> try cases event
  all_goals
    dsimp only [SparesPending]
    infer_instance

instance (before : Session env) (label : SessionMove) (after : Session env) :
    Decidable (losesNoPrompt env before label after) :=
  inferInstanceAs (Decidable (keepsPromoted env before label after ∧ _))

/-- The first of two requests is denied; the second is then the prompt on screen. -/
theorem pending_is_shown_denied :
    ∃ session : Session (sampleEnv 1000), session.left.pending.keys = [2] ∧
      session.left.running = true ∧ session.rightward = [] ∧ session.leftward = [] ∧
      2 ∈ session.right.promptIds := by
  obtain ⟨session, played, pending, running, heard, read⟩ :
      ∃ session ∈ sampleSession (losesNoPrompt _) (twoAsk ++ [.right .deny, .toLeft ()]),
        session.left.pending.keys = [2] ∧ session.left.running = true ∧
        session.rightward = [] ∧ session.leftward = [] := by
    decide +kernel
  refine ⟨session, pending, running, heard, read,
    pending_is_shown (run_sampleSession played) running heard read ?_⟩
  rw [AList.mem_keys, pending]
  exact mem_cons_self

/-- The vault is unlocked while an unlock request is on its way to the panel, which shows it. The
keys arrive, the request comes back as an approval and is shown beside it, and the user
denies what is on screen. -/
def deniedBeside : List SessionMove :=
  tell .hello ++ [.right (.status true)] ++ loadKeys 1 ++ [.right (.status false)] ++
    tell (.vaultLocked 1) ++ [.left (.client sampleSign), .right (.status true)] ++ hear 5 ++
    loadKeys 2 ++ hear 4 ++ [.right .deny, .toLeft ()]

/-- The denial went to the unlock request, which is long released, and has taken the prompt off
the screen with it: its request stays pending, and nothing is shown. -/
theorem denial_drops_prompt :
    ∃ (session : Session (sampleEnv 1000)) (history : List SessionMove),
      Run (system (sampleEnv 1000)) history session ∧ session.left.running = true ∧
      session.rightward = [] ∧ session.leftward = [] ∧ session.right.stdinEnabled = true ∧
      session.left.pending.keys = [2] ∧ session.right.ids = [] := by
  obtain ⟨session, played, facts⟩ : ∃ session ∈ sampleSession (anyStep _) deniedBeside,
      session.left.running = true ∧ session.rightward = [] ∧ session.leftward = [] ∧
      session.right.stdinEnabled = true ∧ session.left.pending.keys = [2] ∧
      session.right.ids = [] := by
    decide +kernel
  exact ⟨session, _, (run_sampleSession played).of_restrict, facts⟩

end Session

end QsBitwarden.Panel
