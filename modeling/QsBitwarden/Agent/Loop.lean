import QsBitwarden.Agent.Consent

/-! Owns the arms of the companion's loop: each control message, client event, load
result and tick keeps the invariant, and so does every run. It does not own the
answers themselves. -/

namespace QsBitwarden.Agent

open Lib List Option Companion Ensures

variable {env : Env} {hand : List (RequestId × HeldSign)} {c c' : Companion env}

/-- The flow ends in the invariant. -/
abbrev Keeps (env : Env) : Flow env → Prop := Ensures (Inv env []) Stopped

variable {flow : Flow env}

/-- Refusals keep the invariant, and the loop ready. -/
theorem inv_refusals : RefusalRule (fun _ => True) (fun _ => Inv env []) (@Stopped env) :=
  refusalRule_of_shrinks (fun step inv => inv.shrink step) Inv.recorded

theorem ready_refusals : RefusalRule (fun _ => True) (fun _ => Ready env []) (@Stopped env) :=
  refusalRule_of_shrinks (fun step ready => ready.shrink step) fun ready => ready.inv.recorded

theorem stopped_refusals : RefusalRule (fun _ => True) (fun _ => @Stopped env) Stopped :=
  refusalRule_of_shrinks Shrinks.recorded id

theorem KeepsReady.keeps (kept : KeepsReady env [] flow) : Keeps env flow :=
  mono kept (fun _ ready => ready.inv) fun _ stopped => stopped

/-- What holds between two turns: the log is accounted for, and a running loop satisfies
the invariant. -/
def Live (c : Companion env) : Prop := Stopped c ∧ (c.running = true → Inv env [] c)

theorem Inv.live (inv : Inv env [] c) : Live c := ⟨inv.recorded, fun _ => inv⟩

theorem Keeps.live (kept : Keeps env flow) : Ensures Live Stopped flow :=
  mono kept (fun _ inv => inv.live) fun _ stopped => stopped

/-! ### Loads -/

variable {store : KeyStore env.ssh}

/-- The keys of a load come from a payload that names the load's own window. -/
theorem loadKeys_eq_some {after : KeyStore env.ssh} {load : ActiveLoad}
    {payload : Except RuntimeError Bytes} {bytes : Bytes} {report : LoadReport}
    (loaded : loadKeys store load payload = (some (bytes, report), after)) :
    ∃ envelope expected, load.window.nonce = some expected ∧
      env.fromSlice bytes = some envelope ∧ parseNonce envelope.loadId = some expected := by
  unfold loadKeys at loaded
  split at loaded
  · simp at loaded
  · next read =>
    split at loaded
    · simp at loaded
    · next candidate closed decodedStore decoded =>
      split at loaded
      · simp at loaded
      · obtain ⟨⟨rfl, -⟩, -⟩ := by simpa using loaded
        exact LoadWindow.decode_eq_ok (congrArg Prod.fst decoded)

/-- Recording the end of a load, with the vault as the load leaves it. -/
theorem Inv.endLoad (inv : Inv env [] c) {entry : Entry} (silent : entry.control? = none)
    (unsigned : entry.signs = false) (names : entry.namedId = none)
    (announces : entry.announcedId = none) {gateOpen : Bool}
    (opened : store.state = .unlocked → HelloFirst c.log → OpenSince env (entry :: c.log)) :
    Ready env []
      { c with
        activeLoad := none, store := store, gateOpen := gateOpen
        log := entry :: c.log } := by
  have silents : ∀ other ∈ [entry], other.control? = none := by simpa using silent
  have controlled : controls (entry :: c.log) = controls c.log := filterMap_cons_none silent
  refine ⟨⟨?_, ?_, ?_, by simp, ?_, inv.queueIds, inv.grantIds, ?_⟩, fun _ => rfl⟩
  · exact @Recorded.append env c.log [entry] _ _ inv.recorded (by simpa using unsigned)
      (by simpa using names) (by simpa using announces) le_rfl
  · exact fun waiting mem => (inv.pendingLinked waiting mem).mono
      (subset_cons_self _ _) fun _ queued _ => queued
  · exact fun held mem => (inv.heldLinked held mem).append silents
  · exact fun grant mem => (inv.grantsTraced grant mem).append silents
  · intro hello
    have hello : HelloFirst c.log := helloFirst_of_cons hello
    refine ⟨fun some => ?_, by simp, fun unlocked _ => opened unlocked hello⟩
    exact (inv.gate hello).handshake (controlled ▸ some)

theorem lock_not_unlocked (store : KeyStore env.ssh) (epoch : ℕ) :
    (store.lock epoch).state ≠ .unlocked := by
  cases empty : store.keys.publicSet.isEmpty <;>
    simp [KeyStore.lock, KeyStore.state, StateTracker.lock, empty]

theorem logout_not_unlocked (store : KeyStore env.ssh) (epoch : ℕ) :
    (store.logout epoch).state ≠ .unlocked := by
  simp [KeyStore.logout, KeyStore.state, StateTracker.logout]

theorem finishLoadIfReady_keeps (inv : Inv env [] c) : Keeps env c.finishLoadIfReady := by
  unfold finishLoadIfReady
  split
  · exact inv
  · next load active =>
    split
    · next payload ended arrived =>
      split
      · next bytes report store loaded =>
        have published : Ready env []
            { c with
              activeLoad := none, store := store, gateOpen := true
              log := .published load.epoch bytes :: c.log } := by
          refine inv.endLoad rfl rfl rfl rfl fun _ hello => ?_
          obtain ⟨envelope, expected, armed, read, named⟩ := loadKeys_eq_some loaded
          obtain ⟨-, -, -, -, loadId, nonce, parsed, window, begun⟩ :=
            (inv.gate hello).loading load active
          rw [window] at armed
          obtain rfl : nonce = expected := Option.some.inj armed
          exact .here ⟨load.epoch, bytes, loadId, rfl,
            ⟨envelope, read, named.trans parsed.symm⟩, begun⟩
        refine bind (@RefusalRule.announceKeys _ _ _ _ .empty _ ready_refusals _ _ rfl published)
          fun announced ready => bind (releaseHeld_ready ready) fun released ready => ?_
        exact @RefusalRule.releaseHeldIdentities _ _ _ _ .empty _ inv_refusals _ ready.inv
      · next store refused =>
        have failed : Ready env []
            { c with
              activeLoad := none, store := store.lock load.epoch, gateOpen := false
              log := .failedLoad load.epoch :: c.log } :=
          inv.endLoad rfl rfl rfl rfl fun unlocked =>
            absurd unlocked (lock_not_unlocked store load.epoch)
        refine bind (failed.emit rfl) fun announced ready => ?_
        exact @RefusalRule.cancelAll _ _ _ _ .empty _ inv_refusals .loadFailed
          (@RefusalRule.emptied _ _ _ _ .empty _ inv_refusals ready.inv)
    · exact inv

/-! ### Receiving control messages -/

variable {log : List Entry} {message : ControlMessage}

/-- A message other than `hello` is not the first, so the handshake is complete. -/
theorem Inv.handshaken (inv : Inv env [] c) (other : message ≠ .hello)
    (hello : HelloFirst (.received (.control message) :: c.log)) : c.handshakeComplete = true := by
  refine (inv.gate (helloFirst_of_cons hello)).handshake fun empty => other (hello message ?_)
  change (message :: controls c.log).getLast? = some message
  rw [empty]
  rfl

/-- Receiving a message, with the vault as its arm leaves it. What the message revokes must
be gone already. -/
theorem Inv.receive (inv : Inv env [] c) (message : ControlMessage)
    (stands : ∀ entry ∈ c.held.entries, ∀ duration, entry.2.approved = some duration →
      (Entry.received (.control message)).endsVault = false ∧
      (duration ≠ .once → (Entry.received (.control message)).revokesAll = false))
    (unrevoked : ∀ grant ∈ c.approvals.grants,
      (Entry.received (.control message)).revokes grant.id = false)
    (store : KeyStore env.ssh) (load : Option ActiveLoad) (gateOpen handshake : Bool)
    (gate : HelloFirst (.received (.control message) :: c.log) → Gate env
      { c with
        store := store, activeLoad := load, gateOpen := gateOpen, handshakeComplete := handshake
        log := .received (.control message) :: c.log }) :
    Inv env []
      { c with
        store := store, activeLoad := load, gateOpen := gateOpen, handshakeComplete := handshake
        log := .received (.control message) :: c.log } := by
  refine ⟨?_, ?_, ?_, by simp, ?_, inv.queueIds, inv.grantIds, gate⟩
  · exact inv.recorded.received _
  · exact fun entry mem => (inv.pendingLinked entry mem).mono (subset_cons_self _ _)
      fun _ queued _ => queued
  · intro entry mem
    obtain ⟨named, asks, approval⟩ := inv.heldLinked entry mem
    refine ⟨mem_cons_of_mem _ named, asks.mono (subset_cons_self _ _), ?_⟩
    intro duration approved
    exact Since.later (stands entry mem duration approved) (approval duration approved)
  · exact fun grant mem => Since.later (unrevoked grant mem) (inv.grantsTraced grant mem)

/-- A message that closes nothing leaves the gate as it is. -/
theorem Inv.gate_receive (inv : Inv env [] c)
    (other : message ≠ .hello) (closes : (Entry.received (.control message)).closes = false)
    (hello : HelloFirst (.received (.control message) :: c.log)) :
    Gate env (c.record (.received (.control message))) := by
  have gate := inv.gate (helloFirst_of_cons hello)
  refine ⟨fun _ => inv.handshaken other hello, ?_, ?_⟩
  · intro load active
    obtain ⟨shut, pending, queue, -, loadId, nonce, parsed, window, begun⟩ :=
      gate.loading load active
    exact ⟨shut, pending, queue, by simp [record, controls, Entry.control?], loadId,
      nonce, parsed, window, Since.later closes begun⟩
  · exact fun unlocked idle => Since.later closes (gate.openSince unlocked idle)

/-- Receiving a message that revokes and closes nothing. -/
theorem Inv.receiveHarmless (inv : Inv env [] c) {message : ControlMessage}
    (other : message ≠ .hello) (closes : (Entry.received (.control message)).closes = false)
    (revokes : ∀ id, (Entry.received (.control message)).revokes id = false) :
    Inv env [] (c.record (.received (.control message))) := by
  have quiet := revokes 0
  simp only [Entry.revokes, Bool.or_eq_false_iff] at quiet
  exact inv.receive message (fun _ _ _ _ => ⟨quiet.1.1.1, fun _ => quiet.1.2⟩)
    (fun grant _ => revokes grant.id) c.store c.activeLoad c.gateOpen c.handshakeComplete
    (inv.gate_receive other closes)

/-! ### Closing the vault -/

/-- Everything is refused and revoked before the message is received. -/
theorem Inv.emptyAll (inv : Inv env [] c) :
    Inv env [] { c with
      pending := ∅, held := ∅, approvals := c.approvals.invalidateAll } :=
  inv.shrink { Shrinks.refl Entry.plain [] c with
    pending := nil_subset _
    held := nil_subset _
    queue := nil_subset _
    grants := nil_subset _ }

/-- `vault_locked` and `vault_logged_out` refuse everything, from the state they empty. -/
theorem RefusalRule.closeEmptied {good stopped : Companion env → Prop}
    (rule : RefusalRule (fun _ => True) (fun _ => good) stopped) (reason : CancelReason)
    (closed : good { c with
      pending := ∅, held := ∅, approvals := c.approvals.invalidateAll, activeLoad := none
      store := store, gateOpen := false }) :
    Ensures good stopped (c.closeVault store reason) := by
  let base : Companion env := { c.cancelLoad with
    gateOpen := false, store := store, approvals := c.approvals.invalidateAll }
  have failed : good { base with held := ∅ }.failPending :=
    @RefusalRule.failEmptied _ _ _ _ .empty _ rule closed
  refine @RefusalRule.cancelAll _ _ _ _ .empty _ rule reason ?_
  rw [failPending_eq] at failed ⊢
  exact failed

section

variable (inv : Inv env [] c)

include inv

theorem closeVault_keeps
    (other : message ≠ .hello) (locked : store.state ≠ .unlocked) (reason : CancelReason) :
    Keeps env ((c.record (.received (.control message))).closeVault store reason) := by
  have closed : Inv env []
      { c with
        pending := ∅, held := ∅, approvals := c.approvals.invalidateAll, activeLoad := none
        store := store, gateOpen := false
        log := .received (.control message) :: c.log } := by
    refine inv.emptyAll.receive message (by simp) (by simp [ApprovalManager.invalidateAll]) store
      none false c.handshakeComplete fun hello => ⟨fun _ => ?_, by simp, fun unlocked => ?_⟩
    · exact inv.handshaken other hello
    · exact absurd unlocked locked
  exact inv_refusals.closeEmptied reason closed

theorem onKeyLoadBegin_keeps (epoch : ℕ) (loadId : String) :
    Keeps env ((c.record (.received (.control (.keyLoadBegin epoch loadId)))).onKeyLoadBegin
      epoch loadId) := by
  have emptied : Inv env [] { c with pending := ∅, approvals := c.approvals.invalidateAll } :=
    inv.shrink { Shrinks.refl Entry.plain [] c with
      pending := nil_subset _
      queue := nil_subset _
      grants := nil_subset _ }
  have received : Stopped (c.record (.received (.control (.keyLoadBegin epoch loadId)))) :=
    inv.recorded.received _
  let base : Companion env :=
    { c.record (.received (.control (.keyLoadBegin epoch loadId))) with
      gateOpen := false, approvals := c.approvals.invalidateAll }
  have failed : Stopped base.failPending :=
    @RefusalRule.failEmptied _ _ _ _ .empty _ stopped_refusals received
  unfold onKeyLoadBegin
  split
  · exact received
  · dsimp only
    split
    · exact failed
    · next window armed =>
      split
      · have begun := @RefusalRule.failEmptied _ _ _ _ .empty
          { base with activeLoad := some ⟨epoch, window, none, false, none⟩ } inv_refusals
        rw [failPending_eq] at begun ⊢
        refine begun (emptied.receive _ (fun _ _ _ _ => ⟨rfl, fun _ => rfl⟩)
          (by simp [ApprovalManager.invalidateAll]) c.store
          (some ⟨epoch, window, none, false, none⟩) false c.handshakeComplete
          fun hello => ⟨fun _ => ?_, ?_, by simp⟩)
        · exact inv.handshaken (by simp) hello
        · rintro load ⟨⟩
          unfold LoadWindow.new at armed
          split at armed
          · next nonce parsed =>
            cases armed
            exact ⟨rfl, rfl, rfl, by simp [controls, Entry.control?], loadId, nonce, parsed,
              rfl, Since.here rfl⟩
          · cases armed
      · exact failed

/-- The active load may move on, but keeps its epoch and its window. -/
theorem Inv.updateLoad {load load' : ActiveLoad}
    (active : c.activeLoad = some load) (epoch : load'.epoch = load.epoch)
    (window : load'.window = load.window) :
    Inv env [] { c with activeLoad := some load' } := by
  refine { inv with gate := fun hello => ?_ }
  have gate := inv.gate hello
  refine ⟨gate.handshake, ?_, by simp⟩
  rintro _ ⟨⟩
  rw [epoch, window]
  exact gate.loading load active

theorem onKeyLoadEnd_keeps (epoch : ℕ) (status : LoadStatus) :
    Keeps env ((c.record (.received (.control (.keyLoadEnd epoch status)))).onKeyLoadEnd
      epoch status) := by
  have stopped : Stopped (c.record (.received (.control (.keyLoadEnd epoch status)))) :=
    inv.recorded.received _
  unfold onKeyLoadEnd
  split
  · exact stopped
  · next load active =>
    split
    · exact stopped
    · cases status with
      | failed =>
        have unheld : Inv env [] { c with held := ∅ } :=
          @RefusalRule.emptied _ _ _ _ .empty _ inv_refusals inv
        have closed := unheld.receive (.keyLoadEnd epoch .failed) (by simp)
          (fun _ _ => rfl) (c.store.lock epoch) none false c.handshakeComplete fun hello =>
            ⟨fun _ => inv.handshaken (by simp) hello, by simp,
            fun unlocked => absurd unlocked (lock_not_unlocked c.store epoch)⟩
        exact @RefusalRule.cancelAll _ _ _ _ .empty _ inv_refusals .loadFailed closed
      | ok =>
        have received : Inv env [] (c.record (.received (.control (.keyLoadEnd epoch .ok)))) :=
          inv.receiveHarmless (by simp) rfl fun _ => rfl
        have read := received.shrink shrinks_readClock
        exact finishLoadIfReady_keeps (read.updateLoad active rfl rfl)

theorem onLoadResult_keeps (epoch : ℕ)
    (result : Except RuntimeError Bytes) : Keeps env (c.onLoadResult epoch result) := by
  unfold onLoadResult
  split
  · exact inv
  · next load active =>
    split
    · exact inv
    · exact finishLoadIfReady_keeps (inv.updateLoad active rfl rfl)

/-! ### Approving and revoking -/

/-- A waiting signature means that no load is active. -/
theorem Inv.ready_of_pending {entry : (_ : RequestId) × PendingSign}
    (waiting : entry ∈ c.pending.entries) : Ready env [] c := by
  refine ⟨inv, fun hello => ?_⟩
  cases active : c.activeLoad with
  | none => rfl
  | some load =>
    have empty := ((inv.gate hello).loading load active).2.1
    rw [empty] at waiting
    cases waiting

/-- The gate is open only while no load is active. -/
theorem Inv.ready_of_gateOpen (gateOpen : c.gateOpen = true) :
    Ready env [] c := by
  refine ⟨inv, fun hello => ?_⟩
  cases active : c.activeLoad with
  | none => rfl
  | some load =>
    have shut := ((inv.gate hello).loading load active).1
    rw [gateOpen] at shut
    cases shut

end

theorem settleIfLasting_keeps (ready : Ready env [] c) (duration : GrantDuration) :
    Keeps env (if duration ≠ .once then c.settleGranted else .ok c) := by
  split
  · exact (settleGranted_ready ready).keeps
  · exact ready.inv

theorem onApprove_keeps (inv : Inv env [] c) (id : RequestId) (duration : GrantDuration) :
    Keeps env ((c.record (.received (.control (.approve id duration)))).onApprove
      id duration) := by
  have received : Inv env [] (c.record (.received (.control (.approve id duration)))) :=
    inv.receiveHarmless (by simp) rfl fun _ => rfl
  unfold onApprove
  split
  · next request found =>
    have held : ⟨id, request⟩ ∈ c.held.entries := AList.mem_lookup_iff.mp found
    obtain ⟨named, asks, -⟩ := inv.heldLinked _ held
    refine { received with heldLinked := ?_, gate := fun hello => { received.gate hello with } }
    intro entry mem
    rcases mem_entries_insert mem with rfl | old
    · refine ⟨mem_cons_of_mem _ named, asks.mono (subset_cons_self _ _), ?_⟩
      rintro given ⟨⟩
      exact .here ⟨duration, ⟨rfl, named⟩, .inl rfl⟩
    · exact received.heldLinked entry old
  · split
    · exact received
    · next sign found =>
      have waiting : ⟨id, sign⟩ ∈ c.pending.entries := AList.mem_lookup_iff.mp found
      obtain ⟨named, publicBlob, peer, scope, asks, queued⟩ := inv.pendingLinked _ waiting
      have asks := asks.mono (subset_cons_self (.received (.control (.approve id duration))) _)
      have ready := (received.ready_of_pending waiting).shrink (shrinks_erasePending id)
      have approvedNow : Since (Approves id sign.reply duration)
          (fun entry => entry.endsVault = false ∧ entry.revokesAll = false ∧
            entry.beginsLoad = false)
          (.received (.control (.approve id duration)) :: c.log) :=
        .here ⟨rfl, named⟩
      have decided := @approve_approved _ _ _ ready id duration fun _ request mem same => by
        obtain ⟨rfl, rfl, rfl⟩ := queued request mem same
        exact ⟨id, sign.reply, _, _, asks, .inl approvedNow⟩
      unfold consent
      dsimp only at decided ⊢
      generalize approve _ id duration = result at decided ⊢
      cases decided with
      | refused error after shrinks =>
        exact settleIfLasting_keeps ((ready.shrink shrinks).shrink shrinks_refuse) duration
      | approved request after mem same approved new log =>
        refine settleIfLasting_keeps (approved.answerAuthorized _ _ fun _ => ?_) duration
        rw [log]
        refine ⟨_, _, _, _, _, asks.mono (subset_append_right _ _), .inl ?_⟩
        refine ApprovedByName.append (approvedNow.mono (fun entry past approves => ?_) ?_)
        · exact ⟨id, duration, approves⟩
        · exact fun _ _ => trivial

variable {id : RequestId} {reply : ReplyId}

theorem ApprovalStands.once
    {duration : GrantDuration} (stands : ApprovalStands id reply duration log) :
    ApprovalStands id reply .once log := by
  refine Since.mono stands (fun entry past started => ?_) fun entry kept =>
    ⟨kept.1, fun lasting => absurd rfl lasting⟩
  obtain ⟨given, approves, -⟩ := started
  exact ⟨given, approves, .inr rfl⟩

theorem HeldSign.demoted_approved (request : HeldSign) :
    request.demoted.approved = request.approved.map fun _ => .once := by
  unfold HeldSign.demoted
  split
  · next lasting => simp [lasting]
  · next lasting => simp [lasting]
  · next notTimed notScreen =>
    cases approved : request.approved with
    | none => rfl
    | some duration =>
      cases duration with
      | once => rfl
      | seconds count => exact (notTimed count approved).elim
      | untilScreenLock => exact (notScreen approved).elim

theorem HeldLinked.demoted {request : HeldSign}
    (linked : HeldLinked env log id request) : HeldLinked env log id request.demoted := by
  obtain ⟨named, asks, stands⟩ := linked
  have same : request.demoted = { request with approved := request.demoted.approved } := by
    unfold HeldSign.demoted
    split <;> rfl
  rw [same]
  refine ⟨named, asks, ?_⟩
  intro duration approved
  rw [HeldSign.demoted_approved] at approved
  obtain ⟨given, was, rfl⟩ := map_eq_some_iff.mp approved
  exact (stands given was).once

theorem onRevokeGrants_keeps (inv : Inv env [] c) :
    Inv env [] (c.record (.received (.control .revokeGrants))).onRevokeGrants := by
  have demoted : Inv env [] c.onRevokeGrants := by
    have revoked : Inv env [] { c with approvals := c.approvals.revokeAllGrants } :=
      inv.shrink { Shrinks.refl Entry.plain [] c with grants := nil_subset _ }
    refine { revoked with heldLinked := ?_, gate := fun hello => { revoked.gate hello with } }
    intro entry mem
    obtain ⟨held, holds, rfl⟩ := List.mem_map.mp mem
    exact (inv.heldLinked held holds).demoted
  refine demoted.receive .revokeGrants ?_ (by simp [onRevokeGrants,
    ApprovalManager.revokeAllGrants]) c.store c.activeLoad c.gateOpen c.handshakeComplete
    (demoted.gate_receive (by simp) rfl)
  intro entry mem duration approved
  obtain ⟨held, holds, rfl⟩ := List.mem_map.mp mem
  rw [HeldSign.demoted_approved] at approved
  obtain ⟨given, was, rfl⟩ := map_eq_some_iff.mp approved
  exact ⟨rfl, fun lasting => absurd rfl lasting⟩

theorem revokeGrant_keeps (inv : Inv env [] c) (id : GrantId) :
    Inv env [] { c.record (.received (.control (.revokeGrant id))) with
      approvals := c.approvals.revokeGrant id } := by
  have revoked : Inv env [] { c with approvals := c.approvals.revokeGrant id } :=
    inv.shrink { Shrinks.refl Entry.plain [] c with grants := filter_subset_self _ }
  refine revoked.receive (.revokeGrant id) (fun _ _ _ _ => ⟨rfl, fun _ => rfl⟩) ?_ c.store
    c.activeLoad c.gateOpen c.handshakeComplete (revoked.gate_receive (by simp) rfl)
  intro grant mem
  have differs : grant.id ≠ id := by simpa using (mem_filter.mp mem).2
  simpa [Entry.revokes, Entry.endsVault, Entry.beginsLoad, Entry.revokesAll, Entry.control?]
    using differs.symm

/-! ### The other messages -/

/-- `hello` is taken once; before it no control message has come, so no load is active. -/
theorem hello_keeps (inv : Inv env [] c) :
    Keeps env ((c.record (.received (.control .hello))).onControl .hello) := by
  have stopped : Stopped (c.record (.received (.control .hello))) := inv.recorded.received _
  change Ensures _ _ (ite _ _ _)
  split
  · exact stopped
  · next incomplete =>
    have opened : Inv env []
        { c with
          gateOpen := true, handshakeComplete := true
          log := .received (.control .hello) :: c.log } := by
      refine inv.receive .hello (fun _ _ _ _ => ⟨rfl, fun _ => rfl⟩) (fun _ _ => rfl) c.store
        c.activeLoad true true fun hello => ?_
      have gate := inv.gate (helloFirst_of_cons hello)
      have first : controls c.log = [] := by
        by_contra some
        exact incomplete (gate.handshake some)
      refine ⟨fun _ => rfl, fun load active => ?_, fun unlocked idle => ?_⟩
      · exact absurd first (gate.loading load active).2.2.2.1
      · exact Since.later rfl (gate.openSince unlocked idle)
    exact @RefusalRule.say _ _ _ _ inv_refusals .empty _ _ rfl nofun opened

theorem exit_stopped (recorded : Stopped c) : Stopped c.exit := by
  obtain ⟨after, kept, exits⟩ := @RefusalRule.exit _ c _ stopped_refusals recorded
  rw [exits]
  exact kept

section

variable (inv : Inv env [] c)

include inv

theorem onControl_live (message : ControlMessage) :
    Ensures Live Stopped ((c.record (.received (.control message))).onControl message) := by
  cases message with
  | hello => exact Keeps.live (hello_keeps inv)
  | keyLoadBegin epoch loadId => exact Keeps.live (onKeyLoadBegin_keeps inv epoch loadId)
  | keyLoadEnd epoch status => exact Keeps.live (onKeyLoadEnd_keeps inv epoch status)
  | vaultLocked epoch =>
    exact Keeps.live (bind (closeVault_keeps inv (by simp) (lock_not_unlocked _ _) _)
      fun closed kept => @RefusalRule.say _ _ _ _ inv_refusals .empty _ _ rfl nofun kept)
  | vaultLoggedOut => exact Keeps.live (closeVault_keeps inv (by simp) (logout_not_unlocked _ _) _)
  | approve id duration => exact Keeps.live (onApprove_keeps inv id duration)
  | deny id =>
    have received := @Inv.receiveHarmless _ _ inv (.deny id) (by simp) rfl fun _ => rfl
    exact Keeps.live (@RefusalRule.onDeny _ _ _ _ .empty _ inv_refusals _ trivial received)
  | unlockCancelled id reason =>
    have received :=
      @Inv.receiveHarmless _ _ inv (.unlockCancelled id reason) (by simp) rfl fun _ => rfl
    exact Keeps.live (@RefusalRule.onDeny _ _ _ _ .empty _ inv_refusals _ trivial received)
  | options on =>
    have received := @Inv.receiveHarmless _ _ inv (.options on) (by simp) rfl fun _ => rfl
    refine ⟨received.recorded, fun _ => received.shrink ?_⟩
    exact { Shrinks.refl Entry.plain [] (c.record (.received (.control (.options on)))) with }
  | revokeGrants => exact (onRevokeGrants_keeps inv).live
  | revokeGrant id => exact (revokeGrant_keeps inv id).live
  | shutdown => exact ⟨exit_stopped (inv.recorded.received _), nofun⟩

/-! ### Client events -/

/-- An id taken from the counter is fresh, and taking it keeps the invariant. -/
theorem reserveRequestId_fresh {approvals : ApprovalManager}
    (reserved : c.approvals.reserveRequestId = (.ok id, approvals)) :
    Inv env [] { c with approvals := approvals } ∧ Fresh { c with approvals := approvals } id := by
  unfold ApprovalManager.reserveRequestId at reserved
  split at reserved
  · cases reserved
  · next next added =>
    obtain rfl := checkedAdd_eq_some added
    cases reserved
    have fresh := inv.fresh_nextId
    refine ⟨inv.shrink { Shrinks.refl Entry.plain [] c with nextId := Nat.le_succ _ }, ?_⟩
    exact ⟨Nat.lt_succ_self _, fresh.1, fresh.2⟩

/-- Announcing a fresh id under `unlock_required`. -/
theorem Inv.announceUnlock (fresh : Fresh c id)
    (reason : UnlockReason) (request : Announcement) (announces : request.requestId = id) :
    Inv env [] (c.record (.emitted (.unlockRequired reason request))) :=
  inv.frame (shrinks_record rfl) (inv.recorded.cons rfl
    (fun _ same => Option.some.inj same ▸ announces ▸ ⟨fresh.unannounced, fresh.below⟩) nofun)

theorem holdSign_keeps {event : ClientEvent}
    {publicBlob message : Bytes} {flags : ℕ} (asked : .asked reply event ∈ c.log)
    (signs : event.request = .sign publicBlob message flags) :
    Keeps env (c.holdSign reply event publicBlob message flags) := by
  have refused : Inv env [] (c.answer reply failureResponse) := inv.shrink shrinks_refuse
  unfold holdSign
  dsimp only
  split
  · exact refused
  · next key found =>
    split
    · exact refused
    · split
      · exact refused
      · next id approvals reserved =>
        obtain ⟨inv, fresh⟩ := reserveRequestId_fresh inv reserved
        unfold emit
        split
        · have announced := inv.announceUnlock fresh .sign
            (announcement env id key event.peer (requestScope env event publicBlob message)) rfl
          have read := announced.shrink shrinks_readClock
          refine read.insertHeld fresh.below ?_ ?_ rfl
          · exact fresh.unnamed
          · exact ⟨event, mem_cons_of_mem _ (mem_cons_of_mem _ asked), signs, rfl, rfl⟩
        · exact inv.recorded

theorem askSign_keeps {event : ClientEvent}
    {publicBlob message : Bytes} {flags : ℕ} (asked : .asked reply event ∈ c.log)
    (signs : event.request = .sign publicBlob message flags) :
    Keeps env (c.askSign reply event publicBlob message flags) := by
  unfold askSign
  dsimp only
  split
  · exact holdSign_keeps inv asked signs
  · next gateOpen =>
    split
    · exact inv.shrink shrinks_refuse
    · have ready := inv.ready_of_gateOpen (by simpa using gateOpen)
      let request : HeldSign := ⟨reply, publicBlob, message, flags, event.peer,
        requestScope env event publicBlob message, 0, none⟩
      have asks : Asks env c.log reply publicBlob message flags event.peer
          (requestScope env event publicBlob message) := ⟨event, asked, signs, rfl, rfl⟩
      -- from here on a new request is treated as one released without an approval
      exact (@releaseUnapproved_ready _ _ _ request ready asks).keeps

theorem listIdentities_keeps (reply : ReplyId) (event : ClientEvent) :
    Keeps env (c.listIdentities reply event) := by
  have answered : Inv env [] (c.answerIdentities reply) :=
    inv.shrink (shrinks_answer (carriesSignature_identitiesResponse _))
  unfold listIdentities
  split
  · split
    · next waiters waiting => exact inv.shrink { Shrinks.refl Entry.plain [] c with }
    · split
      · next id approvals reserved =>
        obtain ⟨inv, fresh⟩ := reserveRequestId_fresh inv reserved
        unfold emit
        split
        · have announced := inv.announceUnlock fresh .listIdentities
            (listingAnnouncement env id event) rfl
          have read := announced.shrink shrinks_readClock
          exact read.shrink { Shrinks.refl Entry.plain [] _ with }
        · exact inv.recorded
      · exact answered
  · exact answered

theorem handleClient_keeps (event : ClientEvent) :
    Keeps env (c.handleClient event) := by
  have asked : Inv env [] ({ c with nextReply := c.nextReply + 1 }.record
      (.asked c.nextReply event)) := by
    refine inv.shrink { Shrinks.refl Entry.plain [] c with log := ⟨[_], rfl, ?_⟩ }
    intro entry mem
    rw [mem_singleton.mp mem]
    rfl
  unfold handleClient
  dsimp only
  split
  · exact asked.shrink shrinks_refuse
  · exact listIdentities_keeps asked _ event
  · next publicBlob message flags signs => exact askSign_keeps asked mem_cons_self signs

/-! ### The tick -/

theorem timeOutLoad_keeps (nowMs : ℕ) : Keeps env (c.timeOutLoad nowMs) := by
  unfold timeOutLoad
  split
  · next load active =>
    split
    · exact finishLoadIfReady_keeps (inv.updateLoad active rfl rfl)
    · exact inv
  · exact inv

end

theorem onTick_keeps (inv : Inv env [] c) : Keeps env c.onTick :=
  bind (timeOutLoad_keeps (inv.shrink (shrinks_readClock.trans (shrinks_expire _))) _)
    fun _ inv => @RefusalRule.sweep _ _ _ _ .empty _ inv_refusals _ inv

/-! ### Runs -/

theorem initial_live : Live (initial env) := by
  have recorded : Stopped (initial env) :=
    ⟨trivial, fun _ => trivial, by simp [initial], by simp [initial],
      by simp [initial], by simp [initial]⟩
  refine ⟨recorded, fun _ => ⟨recorded, by simp [initial], by simp [initial],
    by simp, by simp [initial, ApprovalManager.new],
    by simp [initial, ApprovalManager.new],
    by simp [initial, ApprovalManager.new], fun _ => ⟨?_, ?_, ?_⟩⟩⟩
  · exact fun some => absurd rfl some
  · exact fun load active => by cases active
  · exact fun unlocked _ => by cases unlocked

theorem iterate_live (inv : Inv env [] c) (input : Input) :
    Ensures Live Stopped (c.iterate input) := by
  cases input with
  | control message => exact onControl_live inv message
  | malformedControl => exact inv.recorded.received _
  | controlClosed => exact ⟨exit_stopped (inv.recorded.received _), nofun⟩
  | client event => exact Keeps.live (handleClient_keeps (inv.shrink (shrinks_record rfl)) event)
  | loadResult epoch result =>
    exact Keeps.live (onLoadResult_keeps (inv.shrink (shrinks_record rfl)) epoch result)
  | tick => exact Keeps.live (onTick_keeps (inv.shrink (shrinks_record rfl)))

theorem turn_live (live : Live c) (running : c.running = true) (input : Input) :
    Live (c.turn input) := by
  have kept := iterate_live (live.2 running) input
  unfold turn
  split
  · next after ended =>
    rw [ended] at kept
    exact kept
  · next after ended =>
    rw [ended] at kept
    exact ⟨kept, nofun⟩

theorem run_live {inputs : List Input} (run : Run (system env) inputs c) : Live c := by
  refine Run.invariant (fun _ => Live) ?_ ?_ run
  · rintro _ rfl
    exact initial_live
  · rintro history before input _ - live ⟨running, rfl⟩
    exact turn_live live running input

end QsBitwarden.Agent
