import QsBitwarden.Agent.Requests
import QsBitwarden.Agent.Signatures

/-! Owns the conservation of requests: between two turns every client is answered once or
waits in one place, the approval queue is part of what is pending, and the ids of all that
waits are distinct. It also owns what the end of the loop leaves. It does not own what the
answers are. -/

namespace QsBitwarden.Agent

open Lib List Option Companion

variable {env : Env} {c : Companion env} {inputs : List Input}

namespace Companion

/-- How often a client was answered. -/
def answers (c : Companion env) (reply : ReplyId) : ℕ :=
  (c.log.filterMap Entry.repliedTo).count reply

/-- In how many places a client's reply handle sits. -/
def places (c : Companion env) (reply : ReplyId) : ℕ :=
  (c.pending.entries.map (·.2.reply)).count reply + (c.held.entries.map (·.2.reply)).count reply +
    c.listing.count reply

/-- The ids of all that waits. -/
def keptIds (c : Companion env) : List RequestId :=
  c.pending.keys ++ c.held.keys ++ c.listingId.toList

theorem count_tickets (c : Companion env) (reply : ReplyId) :
    (c.tickets 0).count reply = c.answers reply + c.places reply := by
  have pending : ((values c.pending).map PendingSign.reply).count reply =
      (c.pending.entries.map (·.2.reply)).count reply := by
    rw [values, Multiset.map_coe, Multiset.coe_count, List.map_map]
    rfl
  have held : ((values c.held).map HeldSign.reply).count reply =
      (c.held.entries.map (·.2.reply)).count reply := by
    rw [values, Multiset.map_coe, Multiset.coe_count, List.map_map]
    rfl
  rw [tickets, Multiset.add_zero, Multiset.count_add, Multiset.count_add, Multiset.count_add,
    pending, held, answered, Multiset.coe_count, Multiset.coe_count, answers, places]
  omega

end Companion

/-! ### While the loop goes on -/

theorem arriving_range (count : ℕ) (input : Input) :
    arriving ↑(List.range count) count input = ↑(List.range (count + input.arrivals)) := by
  cases input with
  | client event =>
    change count ::ₘ ↑(List.range count) = _
    rw [Multiset.cons_coe, Multiset.coe_eq_coe]
    change (count :: List.range count).Perm (List.range (count + 1))
    rw [range_succ]
    exact (perm_append_singleton count _).symm
  | _ => rfl

/-- As many clients as there were requests, each answered or waiting, each once. -/
theorem run_accounted (run : Run (system env) inputs c) (running : c.running = true) :
    c.nextReply = (inputs.map Input.arrivals).sum ∧
      c.tickets 0 = ↑(List.range c.nextReply) := by
  have accounted : c.running = true → c.nextReply = (inputs.map Input.arrivals).sum ∧
      c.tickets 0 = ↑(List.range c.nextReply) := by
    refine Run.invariant (fun inputs c => c.running = true →
      c.nextReply = (inputs.map Input.arrivals).sum ∧
        c.tickets 0 = ↑(List.range c.nextReply)) ?_ ?_ run
    · intro state initial _
      rw [initial]
      exact ⟨rfl, rfl⟩
    · intro history before input after reached holds step running
      obtain ⟨wasRunning, rfl⟩ := step
      obtain ⟨count, tickets⟩ := holds wasRunning
      have received := (run_ticketed reached).received input
      have left := (of_turn received.iterate running).2 running
      rw [tickets, arriving_range] at left
      refine ⟨?_, ?_⟩
      · rw [left.count, count, map_cons, sum_cons, Nat.add_comm]
      · rw [left.tickets, left.count]
  exact accounted running

theorem range_count {count reply : ℕ} (below : reply < count) :
    (List.range count).count reply = 1 :=
  count_eq_one_of_mem nodup_range (mem_range.mpr below)

theorem Sorted.keptIds (sorted : Sorted c) :
    c.keptIds.Nodup ∧ ∀ id ∈ c.keptIds, id < c.approvals.nextId := by
  refine ⟨?_, fun id mem => sorted.keepsBelow id ?_⟩
  · refine nodup_append.mpr ⟨nodup_append.mpr ⟨c.pending.keys_nodup, c.held.keys_nodup,
      ?_⟩, ?_, ?_⟩
    · intro id pending other held same
      exact sorted.heldApart other held (same ▸ pending)
    · cases c.listingId with
      | none => exact nodup_nil
      | some id => exact nodup_singleton id
    · intro id waiting other listed same
      have apart := sorted.listingApart other (mem_toList.mp listed)
      rcases mem_append.mp waiting with pending | held
      · exact apart.1 (same ▸ pending)
      · exact apart.2 (same ▸ held)
  · rcases mem_append.mp mem with waiting | listed
    · rcases mem_append.mp waiting with pending | held
      · exact .inl pending
      · exact .inr (.inl held)
    · exact .inr (.inr (mem_toList.mp listed))

/-! ### The end of the loop -/

/-- The panel takes every message. -/
def AllHeard (env : Env) : Prop := ∀ position, env.accepts position = true

theorem emit_heard (heard : AllHeard env) (message : Output) :
    c.emit message = .ok (c.record (.emitted message)) := if_pos (heard c.log.length)

/-- Nothing waits here any more. -/
structure Cleared (c : Companion env) : Prop where
  pending : c.pending = ∅
  held : c.held = ∅
  listing : c.heldIdentities = none

theorem cancelHeld_heard (heard : AllHeard env) (reason : CancelReason) :
    ∃ after, c.cancelHeld reason = .ok after ∧ after.held = ∅ ∧ after.pending = c.pending := by
  have looped : ∀ (entries : List (RequestId × HeldSign)) (before : Companion env),
      ∃ after, entries.foldlM (fun (c : Companion env) entry =>
        (c.answer entry.2.reply failureResponse).emit (.requestCancelled entry.1 reason)) before =
          .ok after ∧ after.held = before.held ∧ after.pending = before.pending := by
    intro entries
    induction entries with
    | nil => exact fun before => ⟨before, rfl, rfl, rfl⟩
    | cons entry rest ih =>
      intro before
      rw [foldlM_cons, emit_heard heard]
      exact ih _
  exact looped (c.iterated c.held) { c with held := ∅ }

theorem releaseHeldIdentities_heard (heard : AllHeard env) (reason : CancelReason) :
    ∃ after, c.releaseHeldIdentities reason = .ok after ∧ after.heldIdentities = none ∧
      after.pending = c.pending ∧ after.held = c.held := by
  unfold releaseHeldIdentities
  split
  · next none => exact ⟨c, rfl, none, rfl, rfl⟩
  · next waiters waiting =>
    dsimp only
    rw [answerAll_eq]
    exact ⟨_, emit_heard heard _, rfl, rfl, rfl⟩

/-- If the panel takes every message, the end of `run` answers all that waits. -/
theorem exit_clears (heard : AllHeard env) {all : Multiset ReplyId} {past : List Entry} {count : ℕ}
    (accounted : Accounted all past count 0 c) :
    Cleared c.exit ∧ Accounted all past count 0 c.exit := by
  let base : Companion env := { c with approvals := c.approvals.invalidateAll }.cancelLoad
  have closed : Accounted all past count 0 base := { accounted with }
  obtain ⟨cancelled, cancels, noneHeld, samePending⟩ :=
    cancelHeld_heard (c := base.failPending) heard .shutdown
  obtain ⟨released, releases, noListing, samePending', sameHeld⟩ :=
    releaseHeldIdentities_heard (c := cancelled) heard .shutdown
  have afterCancel := (closed.failPending rfl).cancelHeld .shutdown
  rw [cancels] at afterCancel
  have afterRelease := Accounted.releaseHeldIdentities afterCancel .shutdown
  rw [releases] at afterRelease
  have exits : c.exit =
      { released with store := released.store.logout (satAdd released.store.epoch 1)
                      running := false } := by
    change (let c := ending (base.failPending.cancelHeld .shutdown)
      let c := ending (c.releaseHeldIdentities .shutdown)
      ({ c with store := c.store.logout (satAdd c.store.epoch 1)
                running := false } : Companion env)) = _
    rw [cancels]
    dsimp only [ending]
    rw [releases]
  rw [exits]
  refine ⟨⟨?_, ?_, noListing⟩, { afterRelease with }⟩
  · change released.pending = ∅
    rw [samePending', samePending, failPending_eq]
  · change released.held = ∅
    rw [sameHeld, noneHeld]

/-- What ends the loop in good order: `shutdown`, or the end of the control input. -/
def Input.leaves : Input → Bool
  | .control .shutdown => true
  | .controlClosed => true
  | _ => false

theorem turn_leaves {input : Input} (leaves : input.leaves = true) :
    c.turn input = (c.record (.received input)).exit := by
  unfold Input.leaves at leaves
  split at leaves
  · rfl
  · rfl
  · cases leaves

/-- No request is lost and none answered twice. As long as the loop goes on, each client was
answered once or its reply handle sits in one place; the approval queue is part of the pending
map; and the ids of all that waits are distinct and below the next. When the loop is left in
good order by a companion whose panel takes every message, all that waited has been
answered. -/
theorem requests_conserved (run : Run (Companion.system env) inputs c)
    (running : c.running = true) :
    c.nextReply = (inputs.map Input.arrivals).sum ∧
    (∀ reply < c.nextReply, c.answers reply + c.places reply = 1) ∧
    (∀ request ∈ c.approvals.pending, request.id ∈ c.pending.keys) ∧
    c.keptIds.Nodup ∧ (∀ id ∈ c.keptIds, id < c.approvals.nextId) ∧
    ∀ input, input.leaves = true → AllHeard env →
      (c.turn input).running = false ∧
      ∀ reply < c.nextReply,
        (c.turn input).answers reply = 1 ∧ (c.turn input).places reply = 0 := by
  obtain ⟨count, tickets⟩ := run_accounted run running
  have sorted := run_sorted run running
  obtain ⟨distinct, below⟩ := sorted.keptIds
  have each : ∀ after : Companion env, after.tickets 0 = ↑(List.range c.nextReply) →
      ∀ reply < c.nextReply, after.answers reply + after.places reply = 1 := by
    intro after same reply small
    rw [← after.count_tickets, same, Multiset.coe_count, range_count small]
  refine ⟨count, each c tickets, fun request mem => (sorted.queued request mem).resolve_right
    (not_mem_nil), distinct, below, fun input leaves heard => ?_⟩
  have ticketed := run_ticketed run
  have accounted : Accounted (c.tickets 0) c.log c.nextReply 0 c :=
    ⟨rfl, ⟨[], rfl⟩, rfl, ticketed.pendingBelow, ticketed.heldBelow⟩
  have received : Accounted (c.tickets 0) c.log c.nextReply 0 (c.record (.received input)) :=
    accounted.record rfl
  obtain ⟨cleared, left⟩ := exit_clears heard received
  rw [turn_leaves leaves]
  refine ⟨rfl, fun reply small => ?_⟩
  have none : (c.record (.received input)).exit.places reply = 0 := by
    rw [places, listing, cleared.pending, cleared.held, cleared.listing]
    rfl
  have once := each _ (left.tickets.trans tickets) reply small
  rw [none] at once
  exact ⟨once, none⟩

/-- A panel that takes every message. -/
def heardEnv : Env := { sampleEnv 0 with accepts := fun _ => true }

def heardLoop (turns : List Input) : Companion heardEnv :=
  turns.foldl turn (.initial heardEnv)

/-- One signature waits for an approval. -/
def onePending : List Input := [.control .hello] ++ sampleLoad 1 ++ [.client sampleSign]

theorem requests_conserved_onePending :
    (heardLoop onePending).answers 0 + (heardLoop onePending).places 0 = 1 ∧
      ((heardLoop onePending).turn .controlClosed).answers 0 = 1 := by
  have run : Run (system heardEnv) (onePending.reverse ++ []) (heardLoop onePending) :=
    run_turns (.start rfl) onePending (by decide +kernel)
  have asked : 0 < (heardLoop onePending).nextReply := by decide +kernel
  obtain ⟨-, each, -, -, -, ends⟩ := requests_conserved run (by decide +kernel)
  exact ⟨each 0 asked, ((ends .controlClosed rfl fun _ => rfl).2 0 asked).1⟩

/-- A control line the loop does not accept ends it with an error, and no message to the panel
failed: the waiting client is never answered. -/
theorem unanswered_after_rejected_line :
    ∃ (c : Companion heardEnv) (inputs : List Input),
      AllHeard heardEnv ∧ Run (Companion.system heardEnv) inputs c ∧ c.running = true ∧
      0 < c.nextReply ∧ (c.turn .malformedControl).running = false ∧
      ∀ more later, Run (c.turn .malformedControl).resumed more later → later.answers 0 = 0 := by
  have run : Run (system heardEnv) (onePending.reverse ++ []) (heardLoop onePending) :=
    run_turns (.start rfl) onePending (by decide +kernel)
  refine ⟨heardLoop onePending, _, fun _ => rfl, run, by decide +kernel, by decide +kernel, rfl,
    fun more later continued => ?_⟩
  rw [resumed_stopped rfl continued]
  decide +kernel

end QsBitwarden.Agent
