import QsBitwarden.Agent.Rules
import QsBitwarden.Agent.Trace

/-! Owns the steps of the loop that only take things away, and the frame rule for
them: what a refusal, a withdrawal or an announcement leaves of the invariant. It does
not own the steps that queue, hold, grant or sign. -/

namespace QsBitwarden.Agent

open Lib List Entry

variable {env : Env} {hand hand' hand'' : List (RequestId × HeldSign)}
  {c c' c'' : Companion env} {allowed : Entry → Bool}

/-! ### The frame rule -/

/-- The state after a step that adds only allowed entries to the log and takes away from
the collections, and leaves the vault as it was. -/
structure Shrinks (allowed : Entry → Bool) (hand hand' : List (RequestId × HeldSign))
    (c c' : Companion env) : Prop where
  log : ∃ new, c'.log = new ++ c.log ∧ ∀ entry ∈ new, allowed entry = true
  pending : c'.pending.entries ⊆ c.pending.entries
  held : c'.held.entries ⊆ c.held.entries
  hand : hand' ⊆ hand
  queue : c'.approvals.pending ⊆ c.approvals.pending
  grants : c'.approvals.grants ⊆ c.approvals.grants
  nextId : c.approvals.nextId ≤ c'.approvals.nextId
  nextGrantId : c.approvals.nextGrantId ≤ c'.approvals.nextGrantId
  store : c'.store = c.store
  activeLoad : c'.activeLoad = c.activeLoad
  gateOpen : c'.gateOpen = c.gateOpen
  handshake : c'.handshakeComplete = c.handshakeComplete

theorem Shrinks.refl (allowed : Entry → Bool) (hand : List (RequestId × HeldSign))
    (c : Companion env) : Shrinks allowed hand hand c c where
  log := ⟨[], rfl, by simp⟩
  pending := List.Subset.refl _
  held := List.Subset.refl _
  hand := List.Subset.refl _
  queue := List.Subset.refl _
  grants := List.Subset.refl _
  nextId := le_rfl
  nextGrantId := le_rfl
  store := rfl
  activeLoad := rfl
  gateOpen := rfl
  handshake := rfl

theorem Shrinks.trans (first : Shrinks allowed hand hand' c c')
    (second : Shrinks allowed hand' hand'' c' c'') : Shrinks allowed hand hand'' c c'' where
  log := by
    obtain ⟨new, log, each⟩ := first.log
    obtain ⟨new', log', each'⟩ := second.log
    refine ⟨new' ++ new, by rw [log', log, append_assoc], fun entry mem => ?_⟩
    rcases mem_append.mp mem with late | early
    · exact each' entry late
    · exact each entry early
  pending := List.Subset.trans second.pending first.pending
  held := List.Subset.trans second.held first.held
  hand := List.Subset.trans second.hand first.hand
  queue := List.Subset.trans second.queue first.queue
  grants := List.Subset.trans second.grants first.grants
  nextId := first.nextId.trans second.nextId
  nextGrantId := first.nextGrantId.trans second.nextGrantId
  store := second.store.trans first.store
  activeLoad := second.activeLoad.trans first.activeLoad
  gateOpen := second.gateOpen.trans first.gateOpen
  handshake := second.handshake.trans first.handshake

theorem Gate.frame (gate : Gate env c) (shrinks : Shrinks calm hand hand' c c') :
    Gate env c' := by
  obtain ⟨new, log, calm⟩ := shrinks.log
  have closes : ∀ entry ∈ new, entry.closes = false :=
    fun entry mem => closes_of_calm (calm entry mem)
  constructor
  · rw [log, controls_append_calm calm, shrinks.handshake]
    exact gate.handshake
  · intro load active
    rw [shrinks.activeLoad] at active
    obtain ⟨shut, pending, queue, controlled, loadId, nonce, parsed, window, begun⟩ :=
      gate.loading load active
    refine ⟨shrinks.gateOpen.trans shut, ?_, ?_, ?_, loadId, nonce, parsed, window, ?_⟩
    · exact subset_nil.mp (pending ▸ shrinks.pending)
    · exact subset_nil.mp (queue ▸ shrinks.queue)
    · rwa [log, controls_append_calm calm]
    · rw [log]
      exact begun.append closes
  · intro unlocked idle
    rw [shrinks.store] at unlocked
    rw [shrinks.activeLoad] at idle
    rw [log]
    exact (gate.openSince unlocked idle).append closes

/-- A step that takes away keeps the invariant, once its log is accounted for. -/
theorem Inv.frame (inv : Inv env hand c) (shrinks : Shrinks calm hand hand' c c')
    (recorded : Recorded env c'.approvals.nextId c'.log) : Inv env hand' c' := by
  obtain ⟨new, log, calm⟩ := shrinks.log
  have none : ∀ entry ∈ new, entry.control? = none :=
    fun entry mem => control?_of_calm (calm entry mem)
  have subset : c.log ⊆ c'.log := log ▸ subset_append_right _ _
  constructor
  case recorded => exact recorded
  case pendingLinked =>
    intro entry mem
    exact (inv.pendingLinked entry (shrinks.pending mem)).mono subset
      fun request queued _ => shrinks.queue queued
  case heldLinked =>
    intro entry mem
    rw [log]
    exact (inv.heldLinked entry (shrinks.held mem)).append none
  case handLinked =>
    intro entry mem
    rw [log]
    exact (inv.handLinked entry (shrinks.hand mem)).append none
  case grantsTraced =>
    intro grant mem
    rw [log]
    exact (inv.grantsTraced grant (shrinks.grants mem)).append none
  case queueIds =>
    intro request mem
    exact (inv.queueIds request (shrinks.queue mem)).trans_le shrinks.nextId
  case grantIds =>
    intro grant mem
    exact (inv.grantIds grant (shrinks.grants mem)).trans_le shrinks.nextGrantId
  case gate =>
    intro hello
    rw [log, helloFirst_append_calm calm] at hello
    exact (inv.gate hello).frame shrinks

theorem Shrinks.weaken (shrinks : Shrinks Entry.plain hand hand' c c') :
    Shrinks calm hand hand' c c' :=
  { shrinks with
    log := by
      obtain ⟨new, log, plain⟩ := shrinks.log
      exact ⟨new, log, fun entry mem => (plain_iff.mp (plain entry mem)).1⟩ }

theorem Shrinks.recorded (shrinks : Shrinks Entry.plain hand hand' c c')
    (recorded : Recorded env c.approvals.nextId c.log) :
    Recorded env c'.approvals.nextId c'.log := by
  obtain ⟨new, log, plain⟩ := shrinks.log
  rw [log]
  exact recorded.append_plain plain shrinks.nextId

theorem Inv.shrink (inv : Inv env hand c) (shrinks : Shrinks Entry.plain hand hand' c c') :
    Inv env hand' c' :=
  inv.frame shrinks.weaken (shrinks.recorded inv.recorded)

/-! ### Primitive actions -/

theorem shrinks_record {entry : Entry} (permitted : allowed entry = true) :
    Shrinks allowed hand hand c (c.record entry) :=
  { Shrinks.refl allowed hand c with
    log := ⟨[entry], rfl, by simpa using permitted⟩ }

theorem shrinks_readClock : Shrinks Entry.plain hand hand c c.readClock := shrinks_record rfl

theorem shrinks_answer {reply : ReplyId} {response : Bytes}
    (unsigned : carriesSignature response = false) :
    Shrinks Entry.plain hand hand c (c.answer reply response) :=
  shrinks_record (plain_iff.mpr ⟨rfl, unsigned, rfl, rfl⟩)

theorem shrinks_refuse {reply : ReplyId} :
    Shrinks Entry.plain hand hand c (c.answer reply failureResponse) :=
  shrinks_answer carriesSignature_failureResponse

variable (id : RequestId)

theorem shrinks_erasePending :
    Shrinks allowed hand hand c { c with pending := c.pending.erase id } :=
  { Shrinks.refl allowed hand c with pending := (kerase_sublist id _).subset }

theorem shrinks_eraseHeld :
    Shrinks allowed hand hand c { c with held := c.held.erase id } :=
  { Shrinks.refl allowed hand c with held := (kerase_sublist id _).subset }

theorem shrinks_disconnect :
    Shrinks allowed hand hand c { c with approvals := c.approvals.disconnect id } :=
  { Shrinks.refl allowed hand c with queue := filter_subset_self _ }

theorem shrinks_expire (nowMs : ℕ) :
    Shrinks allowed hand hand c { c with approvals := c.approvals.expire nowMs } :=
  { Shrinks.refl allowed hand c with
    queue := c.approvals.expire_pending_subset nowMs
    grants := c.approvals.expire_grants_subset nowMs }

/-! ### Refusals -/

theorem plain_of_aside {message : Output} (aside : message.aside = true) :
    (emitted message).plain = true := by
  cases message <;> first | rfl | cases aside

/-- What steps that take away keep, refusals keep. -/
theorem refusalRule_of_shrinks {good stopped : Companion env → Prop}
    (kept : ∀ {c c' : Companion env}, Shrinks Entry.plain [] [] c c' → good c → good c')
    (stop : ∀ {c}, good c → stopped c) :
    RefusalRule (fun _ => True) (fun _ => good) stopped where
  snapshot {_ c} _ := kept { Shrinks.refl plain [] c with }
  say about _ before :=
    Companion.ensures_emit (kept (shrinks_record (plain_of_aside about)) before) (stop before)
  cancel _ before := Companion.ensures_emit (kept (shrinks_record rfl) before) (stop before)
  refuse unsigned := kept (shrinks_answer unsigned)
  pass _ before := before
  shorten {_ c} _ queue grants nextId nextGrantId := kept
    { Shrinks.refl plain [] c with
      queue := queue.subset, grants, nextId := nextId.ge, nextGrantId := nextGrantId.ge }
  emptyPending {_ c _} _ _ _ := kept { Shrinks.refl plain [] c with pending := nil_subset _ }
  emptyHeld {_ c _} _ := kept { Shrinks.refl plain [] c with held := nil_subset _ }
  takePending _ _ := kept (shrinks_erasePending _)
  takeHeld _ := kept (shrinks_eraseHeld _)
  takeListing {_ c _} _ := kept { Shrinks.refl plain [] c with }

end QsBitwarden.Agent
