import QsBitwarden.Agent.Bounds

/-! Owns what the user and the programs may rely on between requests: ids, revocation, what a
load shuts, and what a tick clears away. It does not own the invariants these follow from. -/

namespace QsBitwarden.Agent

open Lib List Companion Ensures

variable {env : Env} {inputs : List Input} {c : Companion env}

/-- No grant was opened since the last message that revokes them all. -/
def ungranted : List Entry → Bool
  | [] => true
  | .opened _ _ :: _ => false
  | entry :: past =>
    entry.endsVault || entry.beginsLoad || entry.revokesAll || ungranted past

theorem not_traced {log : List Entry} {grant : Grant} (none : ungranted log = true) :
    ¬ GrantTraced env grant log := by
  intro traced
  fun_induction ungranted log with
  | case1 => exact traced
  | case2 => cases none
  | case3 entry past unopened ih =>
    rcases traced with ⟨duration, rfl, -⟩ | ⟨kept, earlier⟩
    · exact unopened _ _ rfl
    · simp only [Entry.revokes, Bool.or_eq_false_iff] at kept
      simp only [kept, Bool.false_or] at none
      exact ih none earlier

/-- While no grant has been opened since all were revoked, whoever gets a signature was approved
by name. -/
theorem revoked_until_opened (run : Run (system env) inputs c)
    {recent past : List Entry} {reply : ReplyId} {response : Bytes} {epoch : ℕ}
    (sent : c.log = recent ++ .replied reply response epoch :: past)
    (carries : carriesSignature response = true) (none : ungranted past = true) :
    ApprovedByName reply past := by
  obtain ⟨_, _, _, _, _, -, allowed⟩ := throughout_iff_split.mp (run_live run).1.justified recent
    _ _ sent reply response epoch rfl carries
  refine allowed.resolve_right ?_
  rintro ⟨grant, traced, -⟩
  exact not_traced none traced

/-- A request approved for two minutes, all grants revoked, and another approved once. -/
def askedAgain : List Input :=
  [.control .hello] ++ sampleLoad 1 ++ [.client sampleSign, .control (.approve 1 (.seconds 120)),
    .control .revokeGrants, .client sampleSign, .control (.approve 2 .once)]

theorem revoked_until_opened_askedAgain : ∃ past, ApprovedByName 1 past := by
  have signed : lastSigned (sampleLoop 100 askedAgain).log = some 1 := by decide +kernel
  obtain ⟨response, epoch, sent, carries⟩ := lastSigned_eq_some signed
  have run := @run_sample 100 askedAgain (by decide +kernel)
  exact ⟨_, @revoked_until_opened _ _ _ run [] _ 1 response epoch sent carries (by decide +kernel)⟩

/-- While a load is on its way the gate is shut and no request waits for an approval; the nonce it
takes is the one of its `key_load_begin`, since when nothing has closed the vault. -/
theorem load_shuts_gate (run : Run (system env) inputs c) (running : c.running = true)
    (hello : HelloFirst c.log) {load : ActiveLoad} (active : c.activeLoad = some load) :
    c.gateOpen = false ∧ c.pending.entries = [] ∧ c.approvals.pending = [] ∧
      ∃ loadId nonce, parseNonce loadId = some nonce ∧ load.window = ⟨load.epoch, some nonce⟩ ∧
        BegunSince load.epoch loadId c.log := by
  obtain ⟨shut, pending, queue, -, loadId, nonce, reads, window, begun⟩ :=
    (((run_live run).2 running).gate hello).loading load active
  exact ⟨shut, pending, queue, loadId, nonce, reads, window, begun⟩

theorem load_shuts_gate_begun : ∃ c : Companion (sampleEnv 9), c.activeLoad.isSome = true ∧
    c.gateOpen = false := by
  let turns : List Input := [.control .hello, .control (.keyLoadBegin 1 sampleNonce)]
  have begun : (sampleLoop 9 turns).activeLoad.isSome = true := by decide +kernel
  obtain ⟨load, active⟩ := Option.isSome_iff_exists.mp begun
  exact ⟨_, begun, (load_shuts_gate (@run_sample 9 turns (by decide +kernel)) (by decide +kernel)
    (helloFirst_of_getLast? (by decide +kernel)) active).1⟩

/-! ### Deadlines -/

theorem withdrawHeld_drops (id : RequestId) : Ensures
    (fun after => ∀ entry ∈ after.held.entries, entry ∈ c.held.entries ∧ entry.1 ≠ id)
    (fun _ => True) (c.withdrawHeld id) := by
  have kept : ∀ entry ∈ (c.refuseHeld id).held.entries, entry ∈ c.held.entries ∧ entry.1 ≠ id := by
    intro entry mem
    unfold refuseHeld at mem
    split at mem
    · exact ⟨(kerase_sublist id _).subset mem, (AList.mem_erase.mp (mem_map_of_mem mem)).1⟩
    · next absent =>
      exact ⟨mem, fun same => AList.lookup_eq_none.mp absent (same ▸ mem_map_of_mem mem)⟩
  unfold withdrawHeld emit
  split
  · exact kept
  · trivial

/-- No held request and no listing is overdue, and the panel was told of the grants there are. -/
structure InTime (nowMs : ℕ) (c : Companion env) : Prop where
  held : ∀ entry ∈ c.held.entries, nowMs < entry.2.deadlineMs
  listing : ∀ waiters ∈ c.heldIdentities, nowMs < waiters.deadlineMs
  grants : c.grantSnapshot = c.approvals.grants.map Grant.id

theorem onTick_clears (c : Companion env) :
    Ensures (InTime c.elapsedMs) (fun _ => True) c.onTick := by
  let timely (c' : Companion env) : Prop :=
    ∀ entry ∈ c'.held.entries, c.elapsedMs < entry.2.deadlineMs
  have tells : ∀ c' : Companion env, timely c' ∧
      (∀ waiters ∈ c'.heldIdentities, c.elapsedMs < waiters.deadlineMs) →
      Ensures (InTime c.elapsedMs) (fun _ => True) (c'.emitGrantsIfChanged c.elapsedMs) := by
    intro c' ⟨held, listing⟩
    unfold emitGrantsIfChanged emit
    dsimp only
    split_ifs with same
    · exact ⟨held, listing, same.symm⟩
    · exact ⟨held, listing, rfl⟩
    · trivial
  unfold onTick sweep
  refine Ensures.bind (ensures_true _) fun _ _ => Ensures.bind (ensures_true _) fun asked _ => ?_
  refine @Ensures.bind _ _ _ timely _ _ _ _ ?_ fun before held => ?_
  · -- What is overdue is still to be withdrawn.
    refine (ensures_foldlM (fun rest c' => ∀ entry ∈ c'.held.entries,
      entry.2.deadlineMs ≤ c.elapsedMs → entry.1 ∈ rest) ?_ ?_).imp fun _ kept entry mem => ?_
    · intro id rest before overdue
      refine (withdrawHeld_drops id).imp fun after drops entry mem late => ?_
      obtain ⟨there, other⟩ := drops entry mem
      exact (mem_cons.mp (overdue entry there late)).resolve_left other
    · intro entry mem late
      exact mem_map.mpr ⟨_, mem_filter.mpr ⟨mem_iterated _ mem, by simp [late]⟩, rfl⟩
    · exact Nat.lt_of_not_le fun late => not_mem_nil (kept entry mem late)
  · dsimp only
    split
    · refine Ensures.bind ?_ tells
      unfold releaseHeldIdentities emit
      split
      · next none => exact ⟨held, by simp [none]⟩
      · have answered := @answerAll_eq env _ fun reply => reply
        dsimp only at answered ⊢
        rw [answered]
        split
        · exact ⟨held, nofun⟩
        · trivial
    · next due =>
      refine tells before ⟨held, fun waiters waits => ?_⟩
      rw [Option.mem_def.mp waits, Option.any_some, Bool.or_eq_true, not_or] at due
      simpa using due.1

/-- After a tick the companion survives, no held request and no listing waits past its deadline,
and the panel was told of the grants there are. -/
theorem tick_clears_overdue (running : (c.turn .tick).running = true) :
    InTime (env.clock (c.log.length + 1)) (c.turn .tick) :=
  of_turn (onTick_clears (c.record (.received .tick))) running

theorem tick_clears_overdue_twoHeld : InTime ((sampleLoop 100 twoHeld).log.length + 1)
    ((sampleLoop 100 twoHeld).turn .tick) :=
  @tick_clears_overdue _ (sampleLoop 100 twoHeld) (by decide +kernel)

end QsBitwarden.Agent
