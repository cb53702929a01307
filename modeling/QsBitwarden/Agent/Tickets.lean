import Mathlib.Algebra.Order.Group.Multiset
import Mathlib.Tactic.Abel
import QsBitwarden.Agent.Requests

/-! Owns where each client's reply channel is: waiting in one of the loop's maps, in the
held listing, or answered. Every step moves channels between these places and loses one
only when the loop stops. It does not own what the answers are. -/

namespace QsBitwarden.Agent

open Lib List Companion

variable {env : Env}

namespace Companion

/-- The clients waiting for a listing. -/
def listing (c : Companion env) : List ReplyId := (c.heldIdentities.map (·.waiting)).getD []

/-- The channels answered so far. -/
def answered (c : Companion env) : Multiset ReplyId := ↑(c.log.filterMap Entry.repliedTo)

/-- Every reply channel, where it is; `loose` are those a step has in hand. -/
def tickets (c : Companion env) (loose : Multiset ReplyId) : Multiset ReplyId :=
  (values c.pending).map PendingSign.reply + (values c.held).map HeldSign.reply + ↑c.listing +
    c.answered + loose

theorem answered_record (c : Companion env) {entry : Entry} (silent : entry.repliedTo = none) :
    (c.record entry).answered = c.answered := by
  rw [answered, answered, record, filterMap_cons_none silent]

theorem answered_answer (c : Companion env) (reply : ReplyId) (response : Bytes) :
    (c.answer reply response).answered = reply ::ₘ c.answered := rfl

end Companion

/-- A stretch of a turn that began with these channels, this log and this many requests, and
has some channels in hand: none is lost or doubled, and ids are below the next. -/
structure Accounted (all : Multiset ReplyId) (past : List Entry) (count : ℕ)
    (loose : Multiset ReplyId) (c : Companion env) : Prop where
  tickets : c.tickets loose = all
  grows : ∃ new, c.log = new ++ past
  count : c.nextReply = count
  pendingBelow : ∀ id ∈ c.pending, id < c.approvals.nextId
  heldBelow : ∀ id ∈ c.held, id < c.approvals.nextId

/-- What is left of it when the loop stops: channels may be lost, none is doubled. -/
def Dropped (all : Multiset ReplyId) (past : List Entry) (count : ℕ) (c : Companion env) : Prop :=
  ∃ fewer ≤ all, Accounted fewer past count 0 c

variable {all loose : Multiset ReplyId} {past : List Entry} {count : ℕ} {c c' : Companion env}

/-- The flow accounts for every channel, and drops those in hand if it stops. -/
abbrev Accounts (all : Multiset ReplyId) (past : List Entry) (count : ℕ)
    (loose : Multiset ReplyId) : Flow env → Prop :=
  Ensures (Accounted all past count loose) (Dropped all past count)

/-! ### Primitive actions -/

theorem Accounted.dropped (accounted : Accounted all past count loose c) :
    Dropped all past count c := by
  refine ⟨c.tickets 0, ?_, { accounted with tickets := rfl }⟩
  rw [← accounted.tickets, Companion.tickets, Companion.tickets, Multiset.add_zero]
  exact Multiset.le_add_right _ _

theorem grows_cons {log : List Entry} (grows : ∃ new, log = new ++ past) (entry : Entry) :
    ∃ new, entry :: log = new ++ past := by
  obtain ⟨new, rfl⟩ := grows
  exact ⟨entry :: new, rfl⟩

theorem Accounted.record (accounted : Accounted all past count loose c) {entry : Entry}
    (silent : entry.repliedTo = none) : Accounted all past count loose (c.record entry) where
  tickets := by
    rw [← accounted.tickets, Companion.tickets, Companion.tickets, c.answered_record silent]
    rfl
  grows := grows_cons accounted.grows entry
  count := accounted.count
  pendingBelow := accounted.pendingBelow
  heldBelow := accounted.heldBelow

variable {reply : ReplyId}

theorem Accounted.answer (response : Bytes)
    (accounted : Accounted all past count (reply ::ₘ loose) c) :
    Accounted all past count loose (c.answer reply response) where
  tickets := by
    rw [← accounted.tickets, Companion.tickets, Companion.tickets, c.answered_answer,
      Multiset.add_cons, Multiset.add_cons, Multiset.cons_add]
    rfl
  grows := grows_cons accounted.grows _
  count := accounted.count
  pendingBelow := accounted.pendingBelow
  heldBelow := accounted.heldBelow

theorem Accounted.emit (accounted : Accounted all past count loose c) (message : Output) :
    Accounts all past count loose (c.emit message) :=
  ensures_emit (accounted.record rfl) accounted.dropped

/-- The queue may change as it likes while its ids only grow. -/
theorem Accounted.setApprovals (accounted : Accounted all past count loose c)
    (approvals : ApprovalManager) (grown : c.approvals.nextId ≤ approvals.nextId) :
    Accounted all past count loose { c with approvals := approvals } :=
  { accounted with
    pendingBelow := fun id mem => (accounted.pendingBelow id mem).trans_le grown
    heldBelow := fun id mem => (accounted.heldBelow id mem).trans_le grown }

variable {id : RequestId} {sign : PendingSign}

theorem Accounted.takePending (accounted : Accounted all past count loose c)
    (found : c.pending.lookup id = some sign) :
    Accounted all past count (sign.reply ::ₘ loose) { c with pending := c.pending.erase id } :=
  { accounted with
    tickets := by
      rw [← accounted.tickets, Companion.tickets, Companion.tickets, values_erase found,
        Multiset.map_cons]
      simp only [Multiset.add_cons, Multiset.cons_add]
      rfl
    pendingBelow := fun other mem => accounted.pendingBelow other (AList.mem_erase.mp mem).2 }

theorem Accounted.takeHeld (accounted : Accounted all past count loose c)
    {request : HeldSign} (found : c.held.lookup id = some request) :
    Accounted all past count (request.reply ::ₘ loose) { c with held := c.held.erase id } :=
  { accounted with
    tickets := by
      rw [← accounted.tickets, Companion.tickets, Companion.tickets, values_erase found,
        Multiset.map_cons]
      simp only [Multiset.add_cons, Multiset.cons_add]
      rfl
    heldBelow := fun other mem => accounted.heldBelow other (AList.mem_erase.mp mem).2 }

theorem Accounted.insertPending (accounted : Accounted all past count (sign.reply ::ₘ loose) c)
    (below : id < c.approvals.nextId) (absent : id ∉ c.pending) :
    Accounted all past count loose (c.insertPending id sign) := by
  have inserted : Accounted all past count loose { c with pending := c.pending.insert id sign } :=
    { accounted with
      tickets := by
        rw [← accounted.tickets, Companion.tickets, Companion.tickets, values_insert,
          erase_of_notMem absent, Multiset.map_cons]
        simp only [Multiset.add_cons, Multiset.cons_add]
        rfl
      pendingBelow := by
        intro other mem
        rcases (AList.mem_insert _).mp mem with rfl | old
        · exact below
        · exact accounted.pendingBelow other old }
  exact inserted.record rfl

theorem Accounted.insertHeld {request : HeldSign}
    (accounted : Accounted all past count (request.reply ::ₘ loose) c)
    (below : id < c.approvals.nextId) (absent : id ∉ c.held) :
    Accounted all past count loose (c.insertHeld id request) := by
  have inserted : Accounted all past count loose { c with held := c.held.insert id request } :=
    { accounted with
      tickets := by
        rw [← accounted.tickets, Companion.tickets, Companion.tickets, values_insert,
          erase_of_notMem absent, Multiset.map_cons]
        simp only [Multiset.add_cons, Multiset.cons_add]
        rfl
      heldBelow := by
        intro other mem
        rcases (AList.mem_insert _).mp mem with rfl | old
        · exact below
        · exact accounted.heldBelow other old }
  exact inserted.record rfl

/-! ### Answering and refusing -/

theorem Accounted.emptyPending (accounted : Accounted all past count loose c) :
    Accounted all past count ((values c.pending).map PendingSign.reply + loose)
      { c with pending := ∅ } :=
  { accounted with
    tickets := by
      have moved : ∀ pending held listing answered : Multiset ReplyId,
          0 + held + listing + answered + (pending + loose) =
            pending + held + listing + answered + loose := by
        intros
        abel
      exact (moved _ _ _ _).trans accounted.tickets
    pendingBelow := by simp }

theorem Accounted.emptyHeld (accounted : Accounted all past count loose c) :
    Accounted all past count ((values c.held).map HeldSign.reply + loose)
      { c with held := ∅ } :=
  { accounted with
    tickets := by
      have moved : ∀ pending held listing answered : Multiset ReplyId,
          pending + 0 + listing + answered + (held + loose) =
            pending + held + listing + answered + loose := by
        intros
        abel
      exact (moved _ _ _ _).trans accounted.tickets
    heldBelow := by simp }

/-! ### Queueing, settling and releasing -/

theorem Accounted.askApproval {publicBlob : Bytes} {peer : PeerContext}
    {scope : SignScope}
    (accounted : Accounted all past count (sign.reply ::ₘ loose) c)
    (below : id < c.approvals.nextId) (absent : id ∉ c.pending) :
    Accounts all past count loose (c.askApproval id publicBlob peer scope sign) := by
  unfold Companion.askApproval
  split
  · exact (accounted.setApprovals (c.approvals.disconnect id) le_rfl).answer failureResponse
  · unfold Companion.emit
    split
    · exact (accounted.record rfl).insertPending below absent
    · exact accounted.dropped

section

variable (accounted : Accounted all past count loose c)

include accounted

/-- A request submitted to the queue waits under an id no other has. -/
theorem Accounted.submit (publicBlob : Bytes) (peer : PeerContext) (scope : SignScope) :
    Submits (Accounted all past count loose) (fun id c => Accounted all past count loose c ∧
      id < c.approvals.nextId ∧ id ∉ c.pending) (c.submit publicBlob peer scope) := by
  have read : Accounted all past count loose c.readClock := accounted.record rfl
  refine submit_cases fun result outcome => ?_
  cases outcome with
  | wrongUid differs => exact read
  | refused error => exact read.setApprovals _ le_rfl
  | granted grant live covered => exact read.setApprovals _ le_rfl
  | queued expected room =>
    refine ⟨read.setApprovals _ (Nat.le_succ _), Nat.lt_succ_self _, fun mem => ?_⟩
    exact absurd (accounted.pendingBelow _ mem) (lt_irrefl _)

theorem Accounted.approve (id : RequestId) (duration : GrantDuration) :
    Accounted all past count loose (c.approve id duration).2 := by
  have outcome := c.approvals.approve_outcome id duration c.elapsedMs
  have same : (c.approvals.approve id duration c.elapsedMs).2.nextId = c.approvals.nextId := by
    generalize c.approvals.approve id duration c.elapsedMs = result at outcome ⊢
    cases outcome <;> rfl
  have opened : ∀ (grants : List Grant) (c : Companion env),
      Accounted all past count loose c →
      Accounted all past count loose
        { c with log := grants.map (.opened · duration) ++ c.log } := by
    intro grants c accounted
    induction grants with
    | nil => exact accounted
    | cons grant rest ih =>
      have recorded : Accounted all past count loose
          ({ c with log := rest.map (Entry.opened · duration) ++ c.log }.record
            (.opened grant duration)) := ih.record rfl
      exact recorded
  have read : Accounted all past count loose c.readClock := accounted.record rfl
  exact opened _ _ (read.setApprovals _ same.ge)

theorem Accounted.settleOne (released : RequestId × Authorization) :
    Accounts all past count loose (c.settleOne released) := by
  unfold Companion.settleOne
  split
  · next sign found => exact ((accounted.takePending found).answer _).emit _
  · exact accounted.emit _

theorem Accounted.settleGranted :
    Accounts all past count loose c.settleGranted := by
  have read : Accounted all past count loose c.readClock := accounted.record rfl
  refine ensures_foldlM (fun _ => Accounted all past count loose)
    (fun released _ before accounted => accounted.settleOne released) ?_
  exact read.setApprovals (c.approvals.releaseGranted c.elapsedMs).2 le_rfl

end

/-- A client joins the waiting listing. -/
theorem Accounted.joinListing (accounted : Accounted all past count (reply ::ₘ loose) c)
    {waiters : HeldIdentities} (joined : waiters.waiting = c.listing ++ [reply]) :
    Accounted all past count loose { c with heldIdentities := some waiters } :=
  { accounted with
    tickets := by
      have moved : ∀ pending held listing answered : Multiset ReplyId,
          pending + held + (listing + {reply}) + answered + loose =
            pending + held + listing + answered + (reply ::ₘ loose) := by
        intros
        rw [← Multiset.singleton_add]
        abel
      have grown : (↑waiters.waiting : Multiset ReplyId) = ↑c.listing + {reply} := by
        rw [joined, ← Multiset.coe_add]
        rfl
      refine Eq.trans ?_ ((moved _ _ _ _).trans accounted.tickets)
      rw [← grown]
      rfl }

theorem Accounted.hold {approvals : ApprovalManager} {request : Announcement} {sign : HeldSign}
    {deadline : Companion env → ℕ} (accounted : Accounted all past count (sign.reply ::ₘ loose) c)
    (reserved : c.approvals.reserveRequestId = (.ok id, approvals)) :
    Accounts all past count loose
      ({ c with approvals := approvals }.hold id request sign deadline) := by
  obtain ⟨rfl, next⟩ := reserveRequestId_ids reserved
  have kept := accounted.setApprovals approvals (next ▸ Nat.le_succ _)
  unfold hold Companion.emit
  split
  · refine Accounted.insertHeld ((kept.record rfl).record rfl) (next ▸ Nat.lt_succ_self _) ?_
    exact fun mem => absurd (accounted.heldBelow _ mem) (lt_irrefl _)
  · exact kept.dropped

theorem Accounted.list {approvals : ApprovalManager} {request : Announcement}
    {deadline : Companion env → ℕ} (accounted : Accounted all past count (reply ::ₘ loose) c)
    (reserved : c.approvals.reserveRequestId = (.ok id, approvals))
    (empty : c.heldIdentities = none) :
    Accounts all past count loose
      ({ c with approvals := approvals }.list id request reply deadline) := by
  obtain ⟨rfl, next⟩ := reserveRequestId_ids reserved
  have kept := accounted.setApprovals approvals (next ▸ Nat.le_succ _)
  unfold list Companion.emit
  split
  · refine ((kept.record rfl).record rfl).joinListing ?_
    have none : c.listing = [] := by simp [listing, empty]
    change [reply] = c.listing ++ [reply]
    rw [none, nil_append]
  · exact kept.dropped

theorem Accounted.takeListing (accounted : Accounted all past count loose c)
    {waiters : HeldIdentities} (waiting : c.heldIdentities = some waiters) :
    Accounted all past count (↑(waiters.waiting.map fun reply => reply) + loose)
      { c with heldIdentities := none } :=
  { accounted with
    tickets := by
      have moved : ∀ pending held listing answered : Multiset ReplyId,
          pending + held + 0 + answered + (listing + loose) =
            pending + held + listing + answered + loose := by
        intros
        abel
      have listing : c.listing = waiters.waiting.map fun reply => reply := by
        simp [listing, waiting]
      rw [← listing]
      exact (moved _ _ _ _).trans accounted.tickets }

theorem Accounted.reheld (accounted : Accounted all past count loose c)
    {held : AList fun _ : RequestId => HeldSign}
    (same : (held.entries.map fun entry => (entry.1, entry.2.reply)).Perm
      (c.held.entries.map fun entry => (entry.1, entry.2.reply))) :
    Accounted all past count loose { c with held := held } :=
  { accounted with
    tickets := by
      have replies : (values held).map HeldSign.reply = (values c.held).map HeldSign.reply := by
        rw [values, values, Multiset.map_coe, Multiset.map_coe, Multiset.coe_eq_coe]
        simpa [Function.comp_def] using same.map Prod.snd
      rw [← accounted.tickets, Companion.tickets, Companion.tickets, replies]
      rfl
    heldBelow := fun id mem => accounted.heldBelow id (((aside_reheld same).held id).mp mem) }

/-! ### Every action -/

theorem replies_oweAll {Item : Type*} (hand : Hand) (reply : Item → ReplyId) (items : List Item) :
    (hand.oweAll reply items).replies = ↑(items.map reply) + hand.replies := by
  induction items with
  | nil => exact (Multiset.zero_add _).symm
  | cons item rest ih =>
    rw [map_cons, ← Multiset.cons_coe, Multiset.cons_add, ← ih]
    rfl

theorem replies_takeAll (hand : Hand) (entries : List (RequestId × HeldSign)) :
    (hand.takeAll entries).replies = ↑(entries.map (·.2.reply)) + hand.replies := by
  induction entries with
  | nil => exact (Multiset.zero_add _).symm
  | cons entry rest ih =>
    rw [map_cons, ← Multiset.cons_coe, Multiset.cons_add, ← ih]
    rfl

/-- A map's channels, in the order of these entries. -/
theorem replies_perm {Value : Type} {map : AList fun _ : RequestId => Value}
    {entries : List (RequestId × Value)} (reply : Value → ReplyId)
    (perm : entries.Perm (map.entries.map fun entry => (entry.1, entry.2))) :
    (↑(entries.map fun entry => reply entry.2) : Multiset ReplyId) = (values map).map reply := by
  have same := perm.map fun entry => reply entry.2
  rw [values, Multiset.map_coe, Multiset.coe_eq_coe]
  simpa [Function.comp_def] using same

variable (all past count) in
theorem accounted_rule : Rule (fun _ => True)
    (fun hand (c : Companion env) => Accounted all past count hand.replies c)
    (fun hand id c => Accounted all past count hand.replies c ∧
      id < c.approvals.nextId ∧ id ∉ c.pending) (Dropped all past count) where
  record _ _ silent accounted := accounted.record silent
  snapshot _ accounted := { accounted with }
  say _ _ accounted := accounted.emit _
  cancel _ accounted := accounted.emit _
  answer response accounted := accounted.answer response
  pass _ accounted := accounted
  shorten approvals _ _ nextId _ accounted := accounted.setApprovals approvals nextId.ge
  submit publicBlob peer scope accounted := accounted.submit publicBlob peer scope
  approve duration queued := queued.1.approve _ duration
  ask queued := queued.1.askApproval queued.2.1 queued.2.2
  settle accounted := accounted.settleGranted
  emptyPending _ _ perm accounted := by
    rw [replies_oweAll, replies_perm PendingSign.reply perm]
    exact accounted.emptyPending
  emptyHeld perm accounted := by
    rw [replies_takeAll, replies_perm HeldSign.reply perm]
    exact accounted.emptyHeld
  takePending found _ accounted := accounted.takePending found
  takeHeld found accounted := accounted.takeHeld found
  takeListing waiting accounted := by
    rw [replies_oweAll]
    exact accounted.takeListing waiting
  approvePending duration found accounted := (accounted.takePending found).approve _ duration
  reheld same accounted := accounted.reheld same
  hold _ _ reserved _ accounted := accounted.hold reserved
  list reserved _ empty accounted := accounted.list reserved empty
  join waiting accounted := accounted.joinListing (by simp [listing, waiting])

variable (all past count) in
theorem accounted_turns : VaultRule (fun _ => True) (fun _ => True)
    (fun hand (c : Companion env) => Accounted all past count hand.replies c)
    (Dropped all past count) :=
  (accounted_rule all past count).vaultRule (fun accounted => accounted.dropped)
    fun _ _ _ _ _ accounted => { accounted with }

/-- A flow that answers and drops, seen as one that may drop. -/
theorem Accounts.dropped {flow : Flow env} (accounts : Accounts all past count loose flow) :
    Dropped all past count (ending flow) :=
  (Ensures.mono accounts (fun _ accounted => accounted.dropped) fun _ dropped => dropped).ending

theorem Accounted.failPending (accounted : Accounted all past count 0 c)
    (unqueued : c.approvals.pending = []) : Accounted all past count 0 c.failPending :=
  @RefusalRule.failPending _ _ _ _ .empty _ (accounted_rule all past count).toRefusalRule unqueued
    (fun _ _ => trivial) accounted

theorem Accounted.cancelHeld (accounted : Accounted all past count 0 c) (reason : CancelReason) :
    Accounts all past count 0 (c.cancelHeld reason) :=
  @RefusalRule.cancelHeld _ _ _ _ .empty _ (accounted_rule all past count).toRefusalRule reason
    accounted

theorem Accounted.releaseHeldIdentities (accounted : Accounted all past count 0 c)
    (reason : CancelReason) : Accounts all past count 0 (c.releaseHeldIdentities reason) :=
  @RefusalRule.releaseHeldIdentities _ _ _ _ .empty _ (accounted_rule all past count).toRefusalRule
    reason accounted

theorem Accounted.exit (accounted : Accounted all past count 0 c) :
    Dropped all past count c.exit := by
  have closed : Accounted all past count 0
      { c with approvals := c.approvals.invalidateAll }.cancelLoad := { accounted with }
  obtain ⟨fewer, under, cancelled⟩ := Accounts.dropped
    ((closed.failPending rfl).cancelHeld .shutdown)
  obtain ⟨least, less, released⟩ := Accounts.dropped (cancelled.releaseHeldIdentities .shutdown)
  exact ⟨least, less.trans under, { released with }⟩

/-- A turn accounts for every channel while the loop goes on. -/
def Settled (all : Multiset ReplyId) (past : List Entry) (count : ℕ) (c : Companion env) : Prop :=
  Dropped all past count c ∧ (c.running = true → Accounted all past count 0 c)

abbrev Settles (all : Multiset ReplyId) (past : List Entry) (count : ℕ) : Flow env → Prop :=
  Ensures (Settled all past count) (Dropped all past count)

theorem Accounted.settled (accounted : Accounted all past count 0 c) : Settled all past count c :=
  ⟨accounted.dropped, fun _ => accounted⟩

theorem Accounts.settles {flow : Flow env} (accounts : Accounts all past count 0 flow) :
    Settles all past count flow :=
  accounts.imp fun _ accounted => accounted.settled

/-! ### Runs -/

/-- How many requests a turn adds. -/
def Input.arrivals : Input → ℕ
  | .client _ => 1
  | _ => 0

/-- The channels after a turn: those before it, and a new request's own. -/
def arriving (all : Multiset ReplyId) (count : ℕ) : Input → Multiset ReplyId
  | .client _ => count ::ₘ all
  | _ => all

theorem Accounted.iterate {input : Input}
    (received : Accounted all past count 0 (c.record (.received input))) :
    Settles (arriving all count input) past (count + input.arrivals) (c.iterate input) := by
  have rule := @accounted_turns env all past count
  cases input with
  | control message =>
    by_cases shuts : message = .shutdown
    · subst shuts
      exact ⟨received.exit, nofun⟩
    · exact Accounts.settles (rule.onControl .empty shuts (fun _ => trivial)
        (fun _ _ => trivial) received)
  | malformedControl => exact received.dropped
  | controlClosed => exact ⟨received.exit, nofun⟩
  | client event =>
    have asked : Accounted (count ::ₘ all) past (count + 1) (c.nextReply ::ₘ 0)
        { c.record (.received (.client event)) with nextReply := c.nextReply + 1 } :=
      { received with
        tickets := by
          rw [← received.tickets, ← received.count, Companion.tickets, Companion.tickets,
            Multiset.add_cons]
          rfl
        count := congrArg (· + 1) received.count }
    have recorded : Accounted (count ::ₘ all) past (count + 1) (c.nextReply ::ₘ 0)
        ({ c.record (.received (.client event)) with nextReply := c.nextReply + 1 }.record
          (.asked c.nextReply event)) := asked.record rfl
    have rule := @accounted_turns env (count ::ₘ all) past (count + 1)
    exact Accounts.settles (rule.handleClient .empty event recorded)
  | loadResult epoch result =>
    exact Accounts.settles (rule.onLoadResult .empty epoch result received)
  | tick => exact Accounts.settles (rule.onTick .empty received)

/-- Between two turns: every channel is in one place, and numbered below the next. -/
structure Ticketed (c : Companion env) : Prop where
  nodup : (c.tickets 0).Nodup
  numbered : ∀ reply ∈ c.tickets 0, reply < c.nextReply
  pendingBelow : ∀ id ∈ c.pending, id < c.approvals.nextId
  heldBelow : ∀ id ∈ c.held, id < c.approvals.nextId

theorem initial_ticketed : Ticketed (initial env) where
  nodup := Multiset.nodup_zero
  numbered := by
    intro reply mem
    exact absurd mem (Multiset.notMem_zero reply)
  pendingBelow := by simp [initial]
  heldBelow := by simp [initial]

theorem Ticketed.received (ticketed : Ticketed c) (input : Input) :
    Accounted (c.tickets 0) (.received input :: c.log) c.nextReply 0 (c.record (.received input)) :=
  ⟨rfl, ⟨[], rfl⟩, rfl, ticketed.pendingBelow, ticketed.heldBelow⟩

/-- A turn only adds to the log, and answers no channel twice. -/
theorem turn_ticketed (ticketed : Ticketed c) (input : Input) :
    Ticketed (c.turn input) ∧ ∃ new, (c.turn input).log = new ++ .received input :: c.log := by
  have settled := (ticketed.received input).iterate
  have dropped : Dropped (arriving (c.tickets 0) c.nextReply input) (.received input :: c.log)
      (c.nextReply + input.arrivals) (c.turn input) := by
    unfold turn
    split
    · next after ended =>
      rw [ended] at settled
      exact settled.1
    · next after ended =>
      rw [ended] at settled
      obtain ⟨fewer, under, left⟩ := settled
      exact ⟨fewer, under, { left with }⟩
  obtain ⟨fewer, under, left⟩ := dropped
  have nodup : (arriving (c.tickets 0) c.nextReply input).Nodup := by
    cases input
    case client =>
      exact Multiset.nodup_cons.mpr
        ⟨fun mem => absurd (ticketed.numbered _ mem) (lt_irrefl _), ticketed.nodup⟩
    all_goals exact ticketed.nodup
  have numbered : ∀ reply ∈ arriving (c.tickets 0) c.nextReply input,
      reply < c.nextReply + input.arrivals := by
    intro reply mem
    cases input
    case client =>
      have mem : reply ∈ c.nextReply ::ₘ c.tickets 0 := mem
      rcases Multiset.mem_cons.mp mem with rfl | old
      · exact Nat.lt_succ_self _
      · exact (ticketed.numbered reply old).trans (Nat.lt_succ_self _)
    all_goals exact ticketed.numbered reply mem
  refine ⟨⟨?_, ?_, left.pendingBelow, left.heldBelow⟩, left.grows⟩
  · rw [left.tickets]
    exact Multiset.nodup_of_le under nodup
  · intro reply mem
    rw [left.tickets] at mem
    rw [left.count]
    exact numbered reply (Multiset.mem_of_le under mem)

theorem turn_grows (ticketed : Ticketed c) (input : Input) :
    ∃ new, (c.turn input).log = new ++ c.log := by
  obtain ⟨-, new, grown⟩ := turn_ticketed ticketed input
  exact ⟨new ++ [.received input], by rw [grown, append_assoc]; rfl⟩

theorem run_ticketed {inputs : List Input} (run : Run (system env) inputs c) :
    Ticketed c := by
  refine Run.invariant (fun _ => Ticketed) ?_ ?_ run
  · rintro _ rfl
    exact initial_ticketed
  · rintro history before input _ - ticketed ⟨-, rfl⟩
    exact (turn_ticketed ticketed input).1

end QsBitwarden.Agent
