import QsBitwarden.Agent.Signatures

/-! Owns the queue seen against the grants: after every completed turn of the loop no
queued request is one a grant would answer. It does not own what a grant stands for. -/

namespace QsBitwarden.Agent

open Lib List Companion

/-! ### The queue and the grants -/

namespace ApprovalManager

/-- No grant, live or not yet dropped, answers a queued request. -/
def Uncovered (manager : ApprovalManager) : Prop :=
  ∀ request ∈ manager.pending, ∀ grant ∈ manager.grants,
    grantCovers grant request.epoch request.publicBlob request.peer request.scope = false

variable {manager : ApprovalManager}

theorem Uncovered.of_subset {after : ApprovalManager} (uncovered : manager.Uncovered)
    (queue : after.pending ⊆ manager.pending) (grants : after.grants ⊆ manager.grants) :
    after.Uncovered := by
  intro request queued grant live
  exact uncovered request (queue queued) grant (grants live)

theorem Uncovered.expire (uncovered : manager.Uncovered)
    (nowMs : ℕ) : (manager.expire nowMs).Uncovered :=
  uncovered.of_subset (manager.expire_pending_subset nowMs) (manager.expire_grants_subset nowMs)

theorem uncovered_iff :
    manager.Uncovered ↔ ∀ request ∈ manager.pending, manager.covers request = false := by
  simp only [Uncovered, covers, List.any_eq_false, Bool.not_eq_true]

/-- A request is queued only when no grant left after the expiry answers it. -/
theorem Uncovered.submit (uncovered : manager.Uncovered)
    (epoch : ℕ) (publicBlob : Bytes) (peer : PeerContext) (scope : SignScope) (nowMs : ℕ) :
    (manager.submit epoch publicBlob peer scope nowMs).2.Uncovered := by
  have live := uncovered.expire nowMs
  unfold ApprovalManager.submit
  split_ifs with differs
  · exact uncovered
  dsimp only
  split_ifs with covered full
  · exact live
  · exact live
  · split
    · exact live
    · intro request queued grant mem
      rcases mem_append.mp queued with old | new
      · exact live request old grant mem
      · obtain rfl := mem_singleton.mp new
        have alone := List.any_eq_false.mp (Bool.not_eq_true _ ▸ covered) grant mem
        exact Bool.not_eq_true _ ▸ alone

/-- An approval for once opens no grant. -/
theorem Uncovered.approve_once (uncovered : manager.Uncovered)
    (id : RequestId) (nowMs : ℕ) : (manager.approve id .once nowMs).2.Uncovered := by
  have live := uncovered.expire nowMs
  have outcome := manager.approve_outcome id .once nowMs
  generalize manager.approve id .once nowMs = result at outcome
  cases outcome with
  | unknown absent => exact live
  | exhausted => exact live.of_subset eraseP_subset (List.Subset.refl _)
  | approvedOnce request mem named => exact live.of_subset eraseP_subset (List.Subset.refl _)
  | opened request mem named lasting grantable => exact absurd rfl lasting.1

/-- Whatever the queue was, a release leaves no covered request in it. -/
theorem releaseGranted_uncovered (manager : ApprovalManager) (nowMs : ℕ) :
    (manager.releaseGranted nowMs).2.Uncovered := by
  rw [uncovered_iff]
  intro request queued
  have kept := (mem_filter.mp queued).2
  exact Bool.not_eq_true' _ ▸ kept

end ApprovalManager

/-! ### Turns of the loop -/

variable {env : Env} {c c' : Companion env}

/-- The flow, if it is not cut short, ends with no covered request queued. -/
abbrev Clears : Flow env → Prop := Ensures (fun c => c.approvals.Uncovered) fun _ => True

theorem settleGranted_clears : Clears c.settleGranted := by
  refine ensures_foldlM (fun _ (c : Companion env) => c.approvals.Uncovered)
    (fun released rest before uncovered => ?_) (c.approvals.releaseGranted_uncovered c.elapsedMs)
  refine ensures_emit ?_ trivial
  split <;> exact uncovered

/-- Most actions of the loop take from the queue, if they touch it at all. -/
theorem uncovered_actions {stopped : Companion env → Prop}
    (stop : ∀ c, c.approvals.Uncovered → stopped c) :
    BaseRule (fun _ => True) (fun _ (c : Companion env) => c.approvals.Uncovered) stopped where
  record _ _ _ uncovered := uncovered
  snapshot _ uncovered := uncovered
  say _ _ uncovered := ensures_emit uncovered (stop _ uncovered)
  cancel _ uncovered := ensures_emit uncovered (stop _ uncovered)
  answer _ uncovered := uncovered
  pass _ uncovered := uncovered
  shorten _ queue grants _ _ uncovered := uncovered.of_subset queue.subset grants
  emptyPending _ _ _ uncovered := uncovered
  emptyHeld _ uncovered := uncovered
  takePending _ _ uncovered := uncovered
  takeHeld _ uncovered := uncovered
  takeListing _ uncovered := uncovered
  reheld _ uncovered := uncovered
  hold _ _ reserved _ uncovered := by
    obtain ⟨-, rfl⟩ := reserveRequestId_ids reserved
    exact Ensures.bind (ensures_emit uncovered (stop _ uncovered)) fun _ kept => kept
  list reserved _ _ uncovered := by
    obtain ⟨-, rfl⟩ := reserveRequestId_ids reserved
    exact Ensures.bind (ensures_emit uncovered (stop _ uncovered)) fun _ kept => kept
  join _ uncovered := uncovered

theorem uncovered_rule : VaultRule (fun _ => True) (fun _ => True)
    (fun _ (c : Companion env) => c.approvals.Uncovered) fun _ => True where
  toBaseRule := uncovered_actions fun _ _ => trivial
  stop _ := trivial
  -- An approval that may have opened a grant is followed by settling the queue.
  consent {_ c id sign} duration _ uncovered := by
    unfold consent
    dsimp only
    split_ifs with once
    · exact settleGranted_clears
    · obtain rfl := not_not.mp once
      have kept : (approve { c with pending := c.pending.erase id } id
        .once).2.approvals.Uncovered := uncovered.approve_once id c.elapsedMs
      generalize approve _ id .once = result at kept ⊢
      obtain ⟨outcome | authorization, after⟩ := result <;> exact kept
  queue {_ c} request _ uncovered := by
    have kept := uncovered.submit c.store.epoch request.publicBlob request.peer request.scope
      c.elapsedMs
    unfold releaseUnapproved submit
    dsimp only
    generalize c.approvals.submit c.store.epoch request.publicBlob request.peer request.scope
      c.elapsedMs = result at kept ⊢
    obtain ⟨outcome | (id | authorization), approvals⟩ := result
    · exact kept
    · show Clears (askApproval _ _ _ _ _ _)
      unfold askApproval
      split
      · exact kept.of_subset (filter_subset_self _) (List.Subset.refl _)
      · exact Ensures.bind (ensures_emit kept trivial) fun asked kept => kept
    · exact kept
  -- A release ends by settling, so what it queued and granted on the way does not matter.
  publish _ _ _ _ _ := Ensures.bind (ensures_true _) fun _ _ =>
    Ensures.bind (ensures_true _) fun _ _ => settleGranted_clears
  load _ _ uncovered := uncovered
  fail _ _ uncovered := uncovered
  close _ _ _ _ _ queued := by cases queued
  hello _ uncovered := uncovered
  options _ uncovered := uncovered

/-! ### Runs -/

theorem exit_uncovered (c : Companion env) : c.exit.approvals.Uncovered := by
  have empty : c.approvals.invalidateAll.Uncovered := fun _ queued => by cases queued
  obtain ⟨after, kept, exits⟩ := @RefusalRule.exit _ c _
    (uncovered_actions fun _ kept => kept).toRefusalRule empty
  rw [exits]
  exact kept

theorem iterate_clears (uncovered : c.approvals.Uncovered) (input : Input) :
    Clears (c.iterate input) :=
  uncovered_rule.iterate (fun _ uncovered => uncovered) (fun c _ => exit_uncovered c)
    (fun _ _ _ => trivial) uncovered

theorem run_uncovered {inputs : List Input} (run : Run (system env) inputs c) :
    c.running = true → c.approvals.Uncovered := by
  refine Run.invariant (fun _ (c : Companion env) => c.running = true → c.approvals.Uncovered)
    ?_ ?_ run
  · rintro _ rfl - request queued
    cases queued
  · rintro history before input _ - kept ⟨running, rfl⟩ still
    exact of_turn (iterate_clears (kept running) input) still

/-- After every turn of the loop that runs to its end, no request waits that a grant would
answer: one for the same key, kind of signature, user, program and epoch. -/
theorem no_request_waits_under_grant {inputs : List Input} {after : Companion env}
    (run : Run (Companion.system env) inputs c) (running : c.running = true) {input : Input}
    (completed : c.iterate input = .ok after) {request : Pending}
    (queued : request ∈ after.approvals.pending) (grantable : request.scope.grantable = true) :
    ∀ grant ∈ after.approvals.grants, ¬(grant.publicBlob = request.publicBlob ∧
      grant.kind = request.scope.kind ∧ grant.peer.uid = request.peer.uid ∧
      grant.peer.executable = request.peer.executable ∧ grant.epoch = request.epoch) := by
  rintro grant live ⟨key, kind, user, program, epoch⟩
  have cleared := iterate_clears (run_uncovered run running) input
  rw [completed] at cleared
  have free := cleared request queued grant live
  rw [grantCovers_iff.mpr ⟨grantable, epoch, key, kind, user, program⟩] at free
  cases free

/-- The commit asked for by another program. -/
def otherProgram : Input :=
  .client { sampleSign with peer := { samplePeer with executable := [2] } }

/-- The loop once the other program has asked. -/
def afterOther : Flow (sampleEnv 100) := (sampleLoop 100 preLoadApproval).iterate otherProgram

/-- A request of another program waits while a grant of the first is open. -/
theorem no_request_waits_under_grant_sample :
    ∃ after : Companion (sampleEnv 100), ∃ request ∈ after.approvals.pending,
      ∃ grant ∈ after.approvals.grants, request.scope.grantable = true ∧
        ¬(grant.publicBlob = request.publicBlob ∧ grant.kind = request.scope.kind ∧
          grant.peer.uid = request.peer.uid ∧
          grant.peer.executable = request.peer.executable ∧ grant.epoch = request.epoch) := by
  have run := @run_sample 100 preLoadApproval (by decide +kernel)
  have queued : (ending afterOther).approvals.pending.any (·.scope.grantable) = true := by
    decide +kernel
  have granted : (ending afterOther).approvals.grants ≠ [] := by decide +kernel
  have completes : afterOther.isOk = true := by decide +kernel
  cases completed : afterOther with
  | error stopped =>
    rw [completed] at completes
    cases completes
  | ok after =>
    rw [completed] at queued granted
    obtain ⟨request, mem, grantable⟩ := List.any_eq_true.mp queued
    obtain ⟨grant, live⟩ := exists_mem_of_ne_nil _ granted
    exact ⟨after, request, mem, grant, live, grantable,
      no_request_waits_under_grant run (by decide +kernel) completed mem grantable grant
        live⟩

end QsBitwarden.Agent
