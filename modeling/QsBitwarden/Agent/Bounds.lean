import QsBitwarden.Agent.Signatures

/-! Owns how many requests wait at a time. They are queued while the gate is open and held
while it is closed, and a load that opens it moves them from one place to the other at once. It
does not own which requests these are or how they are answered. -/

namespace QsBitwarden.Agent

open Lib List Companion

variable {env : Env} {c : Companion env} {opened : Bool}

/-! ### Where requests wait -/

/-- Nothing is held while the gate is open, and nothing queued while it is closed. Before the
handshake no key is known and nothing is held. `opened` where the gate is known to be open. -/
structure Tidy (opened : Bool) (c : Companion env) : Prop where
  gate : opened = true → c.gateOpen = true
  queue : c.approvals.pending.length ≤ if c.gateOpen then maxPending else 0
  held : c.held.entries.length ≤ if c.gateOpen || !c.handshakeComplete then 0 else maxPending
  unmet : c.handshakeComplete = false → c.store.publicIdentities = []
  loading : c.activeLoad.isSome → c.gateOpen = false ∧ c.handshakeComplete = true

namespace Tidy

section

variable (tidy : Tidy opened c)

include tidy

theorem few :
    c.approvals.pending.length + c.held.entries.length ≤ maxPending ∧
      (c.gateOpen = true → c.held.entries = []) := by
  have queue := tidy.queue
  have held := tidy.held
  cases gate : c.gateOpen with
  | true =>
    rw [gate] at queue held
    have empty := Nat.le_zero.mp held
    rw [empty]
    exact ⟨queue, fun _ => length_eq_zero_iff.mp empty⟩
  | false =>
    rw [gate] at queue held
    rw [Nat.le_zero.mp queue, Nat.zero_add]
    exact ⟨held.trans (by cases c.handshakeComplete <;> decide), nofun⟩

theorem fewer : c.approvals.pending.length ≤ maxPending :=
  (Nat.le_add_right _ _).trans tidy.few.1

theorem approve (id : RequestId) (duration : GrantDuration) :
    Tidy opened (c.approve id duration).2 :=
  { tidy with queue := (approve_queue c id duration).1.length_le.trans tidy.queue }

theorem insertHeld (mayHold : c.MayHold) (id : RequestId)
    (request : HeldSign) : Tidy opened (c.insertHeld id request) := by
  obtain ⟨shut, known, room⟩ := mayHold
  have inserted : (c.held.insert id request).entries.length ≤ c.held.entries.length + 1 :=
    Nat.succ_le_succ (kerase_sublist id c.held.entries).length_le
  have met : c.handshakeComplete = true := by
    by_contra unmet
    exact known (tidy.unmet (by simpa using unmet))
  refine { tidy with held := inserted.trans ?_ }
  change _ ≤ if c.gateOpen || !c.handshakeComplete then 0 else maxPending
  rw [shut, met]
  exact Nat.lt_of_not_le fun full => room (Nat.sub_eq_zero_of_le (full.trans (Nat.le_add_left _ _)))

end

theorem settleGranted {stopped : Companion env → Prop}
    (stop : ∀ c : Companion env, Tidy opened c → stopped c) (tidy : Tidy opened c) :
    Ensures (Tidy opened) stopped c.settleGranted := by
  refine ensures_foldlM (fun _ => Tidy opened) (fun released _ before tidy => ?_)
    { tidy with queue := (filter_sublist.trans filter_sublist).length_le.trans tidy.queue }
  unfold settleOne
  split <;> exact ensures_emit { tidy with } (stop _ { tidy with })

end Tidy

theorem tidy_actions {stopped : Companion env → Prop}
    (stop : ∀ c : Companion env, Tidy opened c → stopped c) :
    BaseRule (fun _ => True) (fun _ => Tidy opened) stopped where
  record _ _ _ tidy := { tidy with }
  snapshot _ tidy := { tidy with }
  say _ _ tidy := ensures_emit { tidy with } (stop _ tidy)
  cancel _ tidy := ensures_emit { tidy with } (stop _ tidy)
  answer _ tidy := { tidy with }
  pass _ tidy := tidy
  shorten _ queue _ _ _ tidy := { tidy with queue := queue.length_le.trans tidy.queue }
  emptyPending _ _ _ tidy := { tidy with }
  emptyHeld _ tidy := { tidy with held := Nat.zero_le _ }
  takePending _ _ tidy := { tidy with }
  takeHeld _ tidy := { tidy with held := (kerase_sublist _ _).length_le.trans tidy.held }
  takeListing _ tidy := { tidy with }
  reheld same tidy :=
    { tidy with held := le_of_eq_of_le (by simpa using same.length_eq) tidy.held }
  hold _ mayHold reserved _ tidy := by
    obtain ⟨-, rfl⟩ := reserveRequestId_ids reserved
    refine Ensures.bind (ensures_emit ⟨{ tidy with }, mayHold⟩ (stop _ { tidy with }))
      fun after (announced : Tidy opened after ∧ after.MayHold) => ?_
    have read : Tidy opened after.readClock := { announced.1 with }
    exact read.insertHeld announced.2 _ _
  list reserved _ _ tidy := by
    obtain ⟨-, rfl⟩ := reserveRequestId_ids reserved
    exact Ensures.bind (ensures_emit { tidy with } (stop _ { tidy with }))
      fun _ (tidy : Tidy opened _) => { tidy with }
  join _ tidy := { tidy with }

/-- With the gate open a request is queued while there is room. -/
theorem Tidy.submit (tidy : Tidy true c) (publicBlob : Bytes) (peer : PeerContext)
    (scope : SignScope) :
    Submits (Tidy true) (fun _ => Tidy true) (c.submit publicBlob peer scope) := by
  have expired : (c.approvals.expire c.elapsedMs).pending.length ≤ _ :=
    filter_sublist.length_le.trans tidy.queue
  refine submit_cases fun result outcome => ?_
  cases outcome with
  | wrongUid differs => exact { tidy with }
  | refused error => exact { tidy with queue := expired }
  | granted grant live covered => exact { tidy with queue := expired }
  | queued expected room =>
    refine { tidy with queue := ?_ }
    change _ ≤ if c.gateOpen then maxPending else 0
    rw [tidy.gate rfl]
    exact length_append.trans_le room

theorem open_rule : Rule (fun _ => True) (fun _ (c : Companion env) => Tidy true c)
    (fun _ _ => Tidy true) fun _ => True where
  toBaseRule := tidy_actions fun _ _ => trivial
  submit publicBlob peer scope tidy := tidy.submit publicBlob peer scope
  approve duration tidy := tidy.approve _ duration
  ask tidy := by
    unfold askApproval
    split
    · exact { tidy with queue := filter_sublist.length_le.trans tidy.queue }
    · exact Ensures.bind (ensures_emit { tidy with } trivial)
        fun _ (tidy : Tidy true _) => { tidy with }
  approvePending duration _ tidy := by
    apply Tidy.approve
    exact { tidy with }
  settle tidy := tidy.settleGranted fun _ _ => trivial

/-! ### Turns -/

theorem announceKeys_log (epoch loaded : ℕ) :
    Ensures (fun after => ∃ log, after = { c with log := log }) (fun _ => True)
      (c.announceKeys epoch loaded) := by
  have emits : ∀ (before : Companion env) message, (∃ log, before = { c with log := log }) →
      Ensures (fun after => ∃ log, after = { c with log := log }) (fun _ => True)
        (before.emit message) := by
    rintro _ message ⟨log, rfl⟩
    exact ensures_emit ⟨_, rfl⟩ trivial
  exact Ensures.bind (ensures_foldlM (fun _ after => ∃ log, after = { c with log := log })
    (fun _ _ before same => emits before _ same) ⟨c.log, rfl⟩) fun _ same => emits _ _ same

theorem tidy_rule : VaultRule (fun c => c.handshakeComplete = true) (fun _ => True)
    (fun _ (c : Companion env) => Tidy false c) fun _ => True where
  toBaseRule := tidy_actions fun _ _ => trivial
  stop _ := trivial
  consent duration _ tidy := by
    refine @BaseRule.consent _ _ _ _ .empty _ (tidy_actions fun _ _ => trivial) _ _ _ ?_
      fun tidy => tidy.settleGranted fun _ _ => trivial
    apply Tidy.approve
    exact { tidy with }
  queue request opened tidy := by
    have known : Tidy true _ := { tidy with gate := fun _ => opened }
    exact (@Rule.releaseUnapproved _ _ _ _ _ .empty _ open_rule request known).imp
      fun _ tidy => { tidy with gate := nofun }
  -- The queue is empty until the gate opens, and then has what was held.
  publish store bytes loaded active tidy := by
    obtain ⟨shut, met⟩ := tidy.loading (by rw [active]; rfl)
    have queue := tidy.queue
    rw [shut] at queue
    refine Ensures.bind (announceKeys_log _ _) ?_
    rintro _ ⟨log, rfl⟩
    refine (Ensures.bind (ensures_foldlM (fun _ => Tidy true) (fun entry _ before tidy =>
      @Rule.releaseOne _ _ _ _ _ .empty _ open_rule _ tidy) ?_)
        fun _ tidy => tidy.settleGranted fun _ _ => trivial).imp
          fun _ tidy => { tidy with gate := nofun }
    exact
      { gate := fun _ => rfl
        queue := queue.trans (Nat.zero_le _)
        held := Nat.zero_le _
        unmet := fun unmet => by cases met.symm.trans unmet
        loading := nofun }
  load _ active tidy := { tidy with loading := fun _ => tidy.loading (by rw [active]; rfl) }
  fail _ active tidy := by
    obtain ⟨shut, met⟩ := tidy.loading (by rw [active]; rfl)
    have queue := tidy.queue
    have held := tidy.held
    rw [shut] at queue held
    exact { tidy with
      gate := nofun
      queue
      held
      unmet := fun unmet => by cases met.symm.trans unmet
      loading := nofun }
  close _ _ met tidy :=
    { tidy with
      gate := nofun
      queue := Nat.zero_le _
      held := (Nat.le_add_left _ _).trans (tidy.few.1.trans (by rw [met]; exact le_rfl))
      unmet := fun unmet => by cases met.symm.trans unmet
      loading := fun _ => ⟨rfl, met⟩ }
  hello unmet tidy := by
    have held := tidy.held
    rw [unmet, Bool.not_false, Bool.or_true] at held
    exact { tidy with
      gate := nofun
      queue := tidy.fewer
      held
      unmet := nofun
      loading := fun active => by cases (tidy.loading active).2.symm.trans unmet }
  options _ tidy := { tidy with }

/-! ### Runs -/

theorem exit_tidy (c : Companion env) (tidy : Tidy false c) : Tidy false c.exit := by
  have closed : Tidy false { c with approvals := c.approvals.invalidateAll }.cancelLoad :=
    { tidy with queue := Nat.zero_le _, loading := nofun }
  obtain ⟨after, kept, exits⟩ := @RefusalRule.exit _ c _
    (tidy_actions fun _ kept => kept).toRefusalRule closed
  rw [exits]
  exact { kept with unmet := fun _ => rfl }

variable {inputs : List Input} {input : Input}

theorem iterate_tidy (run : Run (system env) inputs c) (running : c.running = true)
    (hello : HelloFirst (.received input :: c.log)) (tidy : Tidy false c) :
    Ensures (Tidy false) (fun _ => True) (c.iterate input) := by
  refine tidy_rule.iterate (fun _ tidy => { tidy with }) exit_tidy ?_ tidy
  rintro message rfl other
  exact ((run_live run).2 running).handshaken other hello

theorem run_tidy (run : Run (system env) inputs c) :
    c.running = true → HelloFirst c.log → Tidy false c := by
  refine Run.invariant (fun _ c => c.running = true → HelloFirst c.log → Tidy false c) ?_ ?_ run
  · rintro _ rfl - -
    exact ⟨nofun, Nat.zero_le _, Nat.zero_le _, fun _ => rfl, nofun⟩
  · rintro history before input _ reached kept ⟨running, rfl⟩ still hello
    obtain ⟨-, new, grown⟩ := turn_ticketed (run_ticketed reached) input
    rw [grown] at hello
    have hello := helloFirst_of_append hello
    have tidy := kept running (helloFirst_of_cons hello)
    exact of_turn (iterate_tidy reached running hello tidy) still

/-- After every turn of the loop that runs to its end, if the first control message was `hello`,
at most `MAX_PENDING` requests wait, queued and held together; while the gate is open none is
held. -/
theorem waiting_requests_bounded {after : Companion env}
    (run : Run (Companion.system env) inputs c) (running : c.running = true)
    (hello : HelloFirst (.received input :: c.log)) (completed : c.iterate input = .ok after) :
    after.approvals.pending.length ≤ maxPending ∧ after.held.entries.length ≤ maxPending ∧
      after.approvals.pending.length + after.held.entries.length ≤ maxPending ∧
      (after.gateOpen = true → after.held.entries = []) := by
  have kept := iterate_tidy run running hello (run_tidy run running (helloFirst_of_cons hello))
  rw [completed] at kept
  obtain ⟨both, empty⟩ := kept.few
  exact ⟨(Nat.le_add_right _ _).trans both, (Nat.le_add_left _ _).trans both, both, empty⟩

/-- A third request is held beside two. -/
theorem waiting_requests_bounded_twoHeld :
    ∃ after : Companion (sampleEnv 100), after.held.entries.length = 3 ∧
      after.held.entries.length ≤ maxPending := by
  have run := @run_sample 100 twoHeld (by decide +kernel)
  have hello := @helloFirst_of_getLast?
    (.received (.client sampleSign) :: (sampleLoop 100 twoHeld).log) (by decide +kernel)
  cases completed : (sampleLoop 100 twoHeld).iterate (.client sampleSign) with
  | error stopped =>
    have completes : ((sampleLoop 100 twoHeld).iterate (.client sampleSign)).isOk = true := by
      decide +kernel
    rw [completed] at completes
    cases completes
  | ok after =>
    have three : (ending ((sampleLoop 100 twoHeld).iterate
      (.client sampleSign))).held.entries.length = 3 := by decide +kernel
    rw [completed] at three
    exact ⟨after, three, (waiting_requests_bounded run (by decide +kernel) hello completed).2.1⟩

end QsBitwarden.Agent
