import QsBitwarden.Agent.LoadOnce
import QsBitwarden.Agent.Signatures

/-! Owns what a turn of the loop does to the active load, the handshake and the vault's
epoch, and the reasons for which a turn can end the loop. It does not own where the control
lines come from. -/

namespace QsBitwarden.Agent

open Lib Option Companion Ensures RefusalRule

variable {env : Env} {c c' c'' : Companion env}

/-! ### Turns that leave the load alone -/

/-- The result of the load that was last begun has been told. -/
def resultTold : List Entry → Bool
  | [] => true
  | .emitted message :: past => message.result || resultTold past
  | .received (.control (.keyLoadBegin _ _)) :: _ => false
  | _ :: past => resultTold past

theorem resultTold_cons {entry : Entry} {log : List Entry}
    (other : entry.output?.any Output.result = false) (untold : resultTold log = false) :
    resultTold (entry :: log) = false := by
  cases entry with
  | emitted message =>
    rw [resultTold, untold, Bool.or_false]
    exact other
  | received input =>
    cases input with
    | control message => cases message <;> first | rfl | exact untold
    | _ => exact untold
  | _ => exact untold

/-- While a load is active, nothing has told its result. -/
def Untold (c c' : Companion env) : Prop :=
  c.activeLoad.isSome = true → resultTold c.log = false → resultTold c'.log = false

/-- What a load keeps until it is settled. -/
def ActiveLoad.terms (load : ActiveLoad) : ℕ × LoadWindow × Bool :=
  (load.epoch, load.window, load.endReceived)

/-- The active load is still there under its epoch, as far ended as it was. -/
structure LoadKept (c c' : Companion env) : Prop where
  load : c'.activeLoad.map ActiveLoad.terms = c.activeLoad.map ActiveLoad.terms
  handshake : c'.handshakeComplete = c.handshakeComplete
  store : c'.store = c.store
  running : c'.running = c.running
  untold : Untold c c'

theorem LoadKept.isSome_eq (kept : LoadKept c c') :
    c'.activeLoad.isSome = c.activeLoad.isSome := by
  have same := congrArg isSome kept.load
  rwa [isSome_map, isSome_map] at same

theorem LoadKept.trans (first : LoadKept c c') (second : LoadKept c' c'') : LoadKept c c'' where
  load := second.load.trans first.load
  handshake := second.handshake.trans first.handshake
  store := second.store.trans first.store
  running := second.running.trans first.running
  untold active untold := second.untold (first.isSome_eq ▸ active) (first.untold active untold)

/-- The active load, the handshake and the store are as they were. -/
structure Steady (c c' : Companion env) : Prop extends LoadKept c c' where
  activeLoad : c'.activeLoad = c.activeLoad

theorem Steady.refl (c : Companion env) : Steady c c :=
  ⟨⟨rfl, rfl, rfl, rfl, fun _ untold => untold⟩, rfl⟩

theorem Steady.trans (first : Steady c c') (second : Steady c' c'') : Steady c c'' :=
  { first.toLoadKept.trans second.toLoadKept with
    activeLoad := second.activeLoad.trans first.activeLoad }

/-- An entry that is no result, or one while no load is active. -/
theorem Steady.record (steady : Steady c c') {entry : Entry}
    (quiet : entry.output?.any Output.result = true → c'.activeLoad = none) :
    Steady c (c'.record entry) := by
  have untold : Untold c (c'.record entry) := fun active before =>
    resultTold_cons (eq_false_of_ne_true fun told => by
      rw [← steady.activeLoad, quiet told] at active
      cases active) (steady.untold active before)
  exact { steady with untold := untold }

theorem Steady.clocked (steady : Steady c c') : Steady c c'.readClock := steady.record (by nofun)

theorem Steady.approved (steady : Steady c c') (id : RequestId) (duration : GrantDuration) :
    Steady c (c'.approve id duration).2 := by
  refine { steady.clocked with untold := fun active before => ?_ }
  have clocked := steady.clocked.untold active before
  dsimp only [approve]
  induction newGrants c'.approvals _ with
  | nil => exact clocked
  | cons grant grants ih => exact resultTold_cons rfl ih

/-- The flow leaves the load alone, or is cut short by a panel that does not listen. -/
abbrev Quiet (c : Companion env) : Flow env → Prop := Ensures (Steady c) Unheard

variable {flow : Flow env}

theorem Quiet.after (quiet : Quiet c' flow) (steady : Steady c c') :
    Quiet c flow :=
  quiet.imp fun _ next => steady.trans next

theorem Quiet.bind {next : Companion env → Flow env} (first : Quiet c flow)
    (second : ∀ after, Quiet after (next after)) : Quiet c (flow >>= next) :=
  Ensures.bind first fun after steady => (second after).after steady

theorem quiet_foldlM {Item : Type*} {body : Companion env → Item → Flow env}
    (step : ∀ before item, Quiet before (body before item)) (items : List Item)
    (c : Companion env) : Quiet c (items.foldlM body c) :=
  ensures_foldlM (fun _ => Steady c) (fun item _ before steady => (step before item).after steady)
    (Steady.refl c)

section

variable (c : Companion env)

theorem emit_quiet (message : Output) (told : message.result = true → c.activeLoad = none) :
    Quiet c (c.emit message) :=
  emit_unheard ((Steady.refl c).record told)

theorem askApproval_quiet (id : RequestId) (publicBlob : Bytes)
    (peer : PeerContext) (scope : SignScope) (sign : PendingSign) :
    Quiet c (c.askApproval id publicBlob peer scope sign) := by
  unfold askApproval
  split
  · refine Steady.record ?_ (by nofun)
    exact { Steady.refl c with }
  · refine (emit_quiet c _ (by nofun)).bind fun asked => Steady.record ?_ (by nofun)
    exact { Steady.refl asked with }

theorem settleGranted_quiet : Quiet c c.settleGranted := by
  have released : Steady c { c.readClock with
      approvals := (c.approvals.releaseGranted c.elapsedMs).2 } := { (Steady.refl c).clocked with }
  refine Quiet.after (quiet_foldlM (fun before entry => ?_) _ _) released
  unfold settleOne
  refine (emit_quiet _ _ (by nofun)).after ?_
  split
  · refine Steady.record ?_ (by nofun)
    exact { Steady.refl before with }
  · exact Steady.refl before

theorem steady_rule : Rule (fun _ => True) (fun _ => Steady c)
    (fun _ _ => Steady c) Unheard where
  record _ silent _ steady := steady.record (by simp [silent])
  snapshot _ steady := { steady with }
  say _ told steady := (emit_quiet _ _ told).after steady
  cancel _ steady := (emit_quiet _ _ (by nofun)).after steady
  answer _ steady := steady.record (by nofun)
  pass _ steady := steady
  shorten _ _ _ _ _ steady := { steady with }
  submit publicBlob peer scope steady := by
    unfold submit
    dsimp only
    generalize ApprovalManager.submit .. = result
    obtain ⟨outcome | (id | authorization), approvals⟩ := result <;>
      exact { steady.clocked with }
  approve duration steady := steady.approved _ duration
  ask steady := (askApproval_quiet _ _ _ _ _ _).after steady
  settle steady := (settleGranted_quiet _).after steady
  emptyPending _ _ _ steady := { steady with }
  emptyHeld _ steady := { steady with }
  takePending _ _ steady := { steady with }
  takeHeld _ steady := { steady with }
  takeListing _ steady := { steady with }
  approvePending duration _ steady := by
    refine Steady.approved ?_ _ duration
    exact { steady with }
  reheld _ steady := { steady with }
  hold _ _ _ _ steady := by
    refine Ensures.bind ((emit_quiet _ _ (by nofun)).after { steady with }) fun _ steady =>
      Steady.record ?_ (by nofun)
    exact { steady.clocked with }
  list _ _ _ steady := Ensures.bind ((emit_quiet _ _ (by nofun)).after { steady with })
    fun _ steady => { steady.clocked with }
  join _ steady := { steady with }

end

variable (c)

theorem steady_failPending (unqueued : c.approvals.pending = []) : Steady c c.failPending :=
  @failPending _ _ _ _ .empty _ (steady_rule c).toRefusalRule unqueued (fun _ _ => trivial)
    (.refl c)

theorem cancelAll_quiet (reason : CancelReason) :
    Quiet c (c.cancelHeld reason >>= fun c => c.releaseHeldIdentities reason) :=
  @cancelAll _ _ _ _ .empty _ (steady_rule c).toRefusalRule reason { Steady.refl c with }

theorem releaseHeldIdentities_quiet (reason : CancelReason) :
    Quiet c (c.releaseHeldIdentities reason) :=
  @releaseHeldIdentities _ _ _ _ .empty _ (steady_rule c).toRefusalRule reason (.refl c)

theorem releaseHeld_quiet : Quiet c c.releaseHeld :=
  @Rule.releaseHeld _ _ _ _ _ .empty _ (steady_rule c) (.refl c)

theorem announceKeys_quiet (epoch loaded : ℕ) (idle : c.activeLoad = none) :
    Quiet c (c.announceKeys epoch loaded) :=
  @announceKeys _ _ _ _ .empty _ (steady_rule c).toRefusalRule epoch loaded idle (.refl c)

variable {c}

/-! ### The epoch of the store -/

variable {ssh : SshKeyCrate}

theorem KeyStore.lock_epoch (store : KeyStore ssh) (epoch : ℕ) :
    (store.lock epoch).epoch = max store.epoch epoch := rfl

theorem KeyStore.publish_epoch (store : KeyStore ssh)
    (load : CandidateLoad ssh) : (store.publish load).2.epoch = store.epoch := by
  have outcome := store.publish_outcome load
  generalize store.publish load = result at outcome
  cases outcome with
  | refused error => rfl
  | published report sound current loading => exact current.symm

theorem LoadWindow.decode_epoch_le {fromSlice : Bytes → Option Envelope} {ssh : SshKeyCrate}
    (window : LoadWindow) (bytes : Bytes) (store : KeyStore ssh) :
    (window.decode fromSlice bytes store).2.2.epoch ≤ max store.epoch window.epoch := by
  cases admitted : window.examine fromSlice bytes with
  | error error =>
    rw [decode_of_refused admitted]
    exact Nat.le_max_left _ _
  | ok items =>
    rw [decode_of_admitted admitted, build]
    have outcome := store.beginLoad_outcome window.epoch bytes.length
    generalize store.beginLoad window.epoch bytes.length = result at outcome
    cases outcome with
    | stale old => exact Nat.le_max_left _ _
    | tooLarge newer => exact Nat.le_max_right _ _
    | begun newer =>
      dsimp only
      split
      · exact Nat.le_max_right _ _
      · exact Nat.le_max_right _ _

variable {fromSlice : Bytes → Option Envelope}

theorem LoadWindow.examine_ne_stale {window : LoadWindow}
    {bytes : Bytes} : window.examine fromSlice bytes ≠ .error (.load .staleEpoch) := by
  unfold examine
  intro refused
  split at refused
  · cases refused
  · split_ifs at refused
    · cases refused
    · split at refused
      · cases refused
      · split_ifs at refused
        · cases refused

theorem CandidateLoad.add_ne_stale (load : CandidateLoad ssh)
    (item : CandidateItem) : (load.add item).1 ≠ .error .staleEpoch := by
  unfold add
  dsimp only
  split_ifs
  · simp
  · simp
  · simp
  · split <;> simp

/-- The loop keeps the load's epoch, and none of its limits is a stale epoch. -/
theorem addAll_epoch {load : CandidateLoad ssh} {items : List CandidateItem} :
    (addAll load items).1 ≠ .error .staleEpoch ∧ (addAll load items).2.epoch = load.epoch := by
  induction items generalizing load with
  | nil => exact ⟨by simp [addAll], rfl⟩
  | cons item rest ih =>
    have limit := load.add_ne_stale item
    have kept := load.add_epoch item
    rw [addAll]
    split
    · next code next added =>
      rw [added] at kept
      rw [← kept]
      exact ih
    · next error next added =>
      rw [added] at limit kept
      refine ⟨?_, kept⟩
      intro stale
      cases stale
      exact limit rfl

/-- A load that is newer than the store is not refused as stale, neither when its payload is
decoded nor when it is published. -/
theorem LoadWindow.not_stale
    {window closed : LoadWindow} {store after : KeyStore ssh} {bytes : Bytes}
    {result : Except PayloadError (CandidateLoad ssh)} (newer : store.epoch < window.epoch)
    (decoded : window.decode fromSlice bytes store = (result, closed, after)) :
    result ≠ .error (.load .staleEpoch) ∧
      ∀ candidate, result = .ok candidate → (after.publish candidate).1 ≠ .error .staleEpoch := by
  cases admitted : window.examine fromSlice bytes with
  | error error =>
    rw [decode_of_refused admitted] at decoded
    cases decoded
    refine ⟨?_, by simp⟩
    intro stale
    cases stale
    exact examine_ne_stale admitted
  | ok items =>
    rw [decode_of_admitted admitted, build] at decoded
    have outcome := store.beginLoad_outcome window.epoch bytes.length
    generalize store.beginLoad window.epoch bytes.length = begun at outcome decoded
    cases outcome with
    | stale old => omega
    | tooLarge newer =>
      cases decoded
      exact ⟨by simp, by simp⟩
    | begun newer =>
      obtain ⟨limits, same⟩ := @addAll_epoch ssh ⟨window.epoch, 0, false, .empty, []⟩ items
      dsimp only at decoded
      generalize addAll _ items = added at limits same decoded
      obtain ⟨limit, candidate⟩ := added
      cases limit with
      | error error =>
        cases decoded
        refine ⟨?_, by simp⟩
        intro stale
        cases stale
        exact limits rfl
      | ok =>
        cases decoded
        refine ⟨by simp, ?_⟩
        rintro _ ⟨⟩
        dsimp only at same
        have published : StateTracker.publish ⟨window.epoch, .loading⟩ candidate.epoch =
            some ⟨window.epoch, .unlocked⟩ := by
          simp [StateTracker.publish, same]
        rw [KeyStore.publish]
        split_ifs
        · simp
        · dsimp only
          rw [published]
          simp

/-- Decoding and publishing a payload moves the store's epoch to the load's at most. -/
theorem loadKeys_epoch_le (store : KeyStore env.ssh) (load : ActiveLoad)
    (payload : Except RuntimeError Bytes) :
    (loadKeys store load payload).2.epoch ≤ max store.epoch load.window.epoch := by
  unfold loadKeys
  split
  · exact Nat.le_max_left _ _
  · next bytes =>
    have bound := @LoadWindow.decode_epoch_le env.fromSlice env.ssh load.window bytes store
    split
    · next error closed after decoded =>
      rw [decoded] at bound
      exact bound
    · next candidate closed after decoded =>
      rw [decoded] at bound
      have kept := after.publish_epoch candidate
      split
      · next error published refused =>
        rw [refused] at kept
        exact kept ▸ bound
      · next report published accepted =>
        rw [accepted] at kept
        exact kept ▸ bound

/-! ### Turns that settle a load -/

/-- The load's answer is out: it has ended, and the store is at its epoch at most. -/
structure LoadSettled (load : ActiveLoad) (c c' : Companion env) : Prop where
  ended : load.endReceived = true
  idle : c'.activeLoad = none
  handshake : c'.handshakeComplete = c.handshakeComplete
  epoch : c'.store.epoch ≤ max c.store.epoch (max load.epoch load.window.epoch)
  running : c'.running = c.running

variable {load : ActiveLoad}

theorem LoadSettled.steady (settles : LoadSettled load c c') (steady : Steady c' c'') :
    LoadSettled load c c'' where
  ended := settles.ended
  idle := steady.activeLoad.trans settles.idle
  handshake := steady.handshake.trans settles.handshake
  epoch := by
    rw [steady.store]
    exact settles.epoch
  running := steady.running.trans settles.running

/-- A load that has not ended, or has no payload yet, is left alone. -/
theorem finishLoadIfReady_settles (active : c.activeLoad = some load) :
    Ensures (fun c' => Steady c c' ∨ LoadSettled load c c') Unheard
      c.finishLoadIfReady := by
  unfold finishLoadIfReady
  rw [active]
  dsimp only
  split
  · next payload ended arrived =>
    have bound := @loadKeys_epoch_le env c.store load payload
    split
    · next bytes report store loaded =>
      rw [loaded] at bound
      have settled : LoadSettled load c
          (({ c with activeLoad := none, store := store, gateOpen := true } :
            Companion env).record (.published load.epoch bytes)) :=
        ⟨ended, rfl, rfl, bound.trans (by omega), rfl⟩
      have announced := Quiet.bind (announceKeys_quiet
        (({ c with activeLoad := none, store := store, gateOpen := true } :
          Companion env).record (.published load.epoch bytes)) load.epoch report.loaded rfl)
        fun announced => (releaseHeld_quiet announced).bind fun released =>
          releaseHeldIdentities_quiet released .released
      exact announced.imp fun _ steady => .inr (settled.steady steady)
    · next store refused =>
      rw [refused] at bound
      have settled : LoadSettled load c
          (({ c with activeLoad := none, store := store.lock load.epoch, gateOpen := false } :
            Companion env).record (.failedLoad load.epoch)) := by
        refine ⟨ended, rfl, rfl, ?_, rfl⟩
        show (store.lock load.epoch).epoch ≤ _
        rw [KeyStore.lock_epoch]
        dsimp only at bound
        omega
      have failed := Quiet.bind (emit_quiet
        (({ c with activeLoad := none, store := store.lock load.epoch, gateOpen := false } :
          Companion env).record (.failedLoad load.epoch)) (.loadFailed load.epoch) fun _ => rfl)
        fun announced => cancelAll_quiet announced .loadFailed
      exact failed.imp fun _ steady => .inr (settled.steady steady)
  · exact .inl (Steady.refl c)

/-! ### The loop's own turns -/

theorem LoadKept.active {load' : ActiveLoad} (kept : LoadKept c c')
    (active' : c'.activeLoad = some load') :
    ∃ load, c.activeLoad = some load ∧ load.terms = load'.terms := by
  have same := kept.load
  rw [active'] at same
  exact map_eq_some_iff.mp same.symm

/-- What a turn that takes no line can do to the load: keep it, or give its answer. -/
def OwnTurn (c c' : Companion env) : Prop :=
  LoadKept c c' ∨ ∃ load, c.activeLoad = some load ∧ LoadSettled load c c'

theorem OwnTurn.steady (turn : OwnTurn c c') (steady : Steady c' c'') : OwnTurn c c'' := by
  rcases turn with kept | ⟨load, active, settled⟩
  · exact .inl (kept.trans steady.toLoadKept)
  · exact .inr ⟨load, active, settled.steady steady⟩

theorem OwnTurn.after (turn : OwnTurn c' c'') (kept : LoadKept c c') : OwnTurn c c'' := by
  rcases turn with next | ⟨load', active', settled⟩
  · exact .inl (kept.trans next)
  · obtain ⟨load, active, terms⟩ := kept.active active'
    simp only [ActiveLoad.terms, Prod.mk.injEq] at terms
    obtain ⟨epoch, window, ended⟩ := terms
    refine .inr ⟨load, active, ended.trans settled.ended, settled.idle,
      settled.handshake.trans kept.handshake, ?_, settled.running.trans kept.running⟩
    rw [← kept.store, epoch, window]
    exact settled.epoch

/-- The load with what is read off its payload or its end replaced, then settled if ready. -/
theorem finishUpdated_ownTurn (updated : c'.activeLoad = some load) (kept : LoadKept c c') :
    Ensures (OwnTurn c) Unheard c'.finishLoadIfReady := by
  refine (finishLoadIfReady_settles updated).imp fun _ turn => OwnTurn.after ?_ kept
  exact turn.imp Steady.toLoadKept fun settled => ⟨load, updated, settled⟩

theorem onLoadResult_ownTurn (c : Companion env) (epoch : ℕ)
    (result : Except RuntimeError Bytes) :
    Ensures (OwnTurn c) Unheard (c.onLoadResult epoch result) := by
  unfold onLoadResult
  split
  · exact .inl (Steady.refl c).toLoadKept
  · next load active =>
    split_ifs
    · exact .inl (Steady.refl c).toLoadKept
    · exact finishUpdated_ownTurn rfl { Steady.refl c with load := by rw [active]; rfl }

theorem timeOutLoad_ownTurn (c : Companion env) (nowMs : ℕ) :
    Ensures (OwnTurn c) Unheard (c.timeOutLoad nowMs) := by
  unfold timeOutLoad
  split
  · next load active =>
    split_ifs
    · exact finishUpdated_ownTurn rfl { Steady.refl c with load := by rw [active]; rfl }
    · exact .inl (Steady.refl c).toLoadKept
  · exact .inl (Steady.refl c).toLoadKept

/-- A turn followed by a flow that leaves the load alone. -/
theorem OwnTurn.bind {next : Companion env → Flow env}
    (first : Ensures (OwnTurn c) Unheard flow)
    (second : ∀ after, Quiet after (next after)) :
    Ensures (OwnTurn c) Unheard (flow >>= next) :=
  Ensures.bind first fun after turn =>
    (second after).imp fun _ steady => turn.steady steady

theorem onTick_ownTurn (c : Companion env) :
    Ensures (OwnTurn c) Unheard c.onTick := by
  have expired : Steady c { c.readClock with approvals := c.approvals.expire c.elapsedMs } :=
    { (Steady.refl c).clocked with }
  exact OwnTurn.bind ((timeOutLoad_ownTurn _ _).imp fun _ turn => turn.after expired.toLoadKept)
    fun timed => @sweep _ _ _ _ .empty _ (steady_rule timed).toRefusalRule _ (.refl timed)

/-! ### Control lines -/

/-- The FIFO cannot be opened for the load that the loop has come to. -/
def FifoShut (c : Companion env) : Prop := env.fifoReader c.log.length = false

/-- The line is one this state has a place for: `hello` once, a load begun when none is active,
and ended under its own epoch. -/
def Admissible (c : Companion env) : ControlMessage → Prop
  | .hello => c.handshakeComplete = false
  | .keyLoadBegin _ loadId => c.activeLoad = none ∧ (parseNonce loadId).isSome = true
  | .keyLoadEnd epoch _ => ∃ load, c.activeLoad = some load ∧ load.epoch = epoch
  | _ => True

/-- What a line does to the load and its result, the handshake and the epoch. -/
def ControlEffect (c c' : Companion env) : ControlMessage → Prop
  | .hello => c'.activeLoad = c.activeLoad ∧ c'.store = c.store ∧ c'.handshakeComplete = true
  | .vaultLocked epoch => c'.activeLoad = none ∧ c'.store.epoch = max c.store.epoch epoch ∧
      c'.handshakeComplete = c.handshakeComplete
  | .vaultLoggedOut => c'.activeLoad = none ∧ c'.store.epoch ≤ c.store.epoch + 1 ∧
      c'.handshakeComplete = c.handshakeComplete
  | .keyLoadBegin epoch _ => (∃ nonce, c'.activeLoad =
        some ⟨epoch, ⟨epoch, some nonce⟩, none, false, none⟩) ∧ c'.store = c.store ∧
      c'.handshakeComplete = c.handshakeComplete ∧ resultTold c'.log = false
  | .keyLoadEnd _ status => (∃ load, c.activeLoad = some load ∧
        ((status = .ok ∧ c'.store = c.store ∧ Untold c c' ∧ ∃ load', c'.activeLoad = some load' ∧
          load'.epoch = load.epoch ∧ load'.window = load.window ∧ load'.endReceived = true) ∨
        (c'.activeLoad = none ∧
          c'.store.epoch ≤ max c.store.epoch (max load.epoch load.window.epoch)))) ∧
      c'.handshakeComplete = c.handshakeComplete
  | .shutdown => c'.running = false
  | _ => Steady c c'

theorem closeVault_closes (c : Companion env) (store : KeyStore env.ssh) (reason : CancelReason) :
    Ensures (fun c' => c'.activeLoad = none ∧ c'.store = store ∧
        c'.handshakeComplete = c.handshakeComplete) Unheard
      (c.closeVault store reason) := by
  have failed := steady_failPending { c.cancelLoad with
    gateOpen := false, store := store, approvals := c.approvals.invalidateAll } rfl
  refine ((cancelAll_quiet _ reason).after failed).imp ?_
  intro c' steady
  exact ⟨steady.activeLoad, steady.store, steady.handshake⟩

theorem onKeyLoadBegin_effect {epoch : ℕ} {loadId : String}
    (admissible : Admissible c (.keyLoadBegin epoch loadId)) (untold : resultTold c.log = false) :
    Ensures (fun c' => ControlEffect c c' (.keyLoadBegin epoch loadId)) FifoShut
      (c.onKeyLoadBegin epoch loadId) := by
  obtain ⟨idle, hexadecimal⟩ := admissible
  obtain ⟨nonce, parsed⟩ := isSome_iff_exists.mp hexadecimal
  -- The requests that wait are failed with no load active, but as they would be with one.
  have failed := fun active => steady_failPending { c with
    activeLoad := active, gateOpen := false, approvals := c.approvals.invalidateAll } rfl
  have window : LoadWindow.new epoch loadId = .ok ⟨epoch, some nonce⟩ := by
    rw [LoadWindow.new, parsed]
  rw [onKeyLoadBegin, if_neg (by simp [idle])]
  dsimp only
  rw [window]
  dsimp only
  split_ifs with opened
  · have still := (failed (some ⟨epoch, ⟨epoch, some nonce⟩, none, false, none⟩)).untold rfl untold
    refine ⟨⟨nonce, rfl⟩, (failed c.activeLoad).store, (failed c.activeLoad).handshake, ?_⟩
    rw [failPending_eq] at still ⊢
    exact still
  · exact eq_false_of_ne_true opened

theorem onKeyLoadEnd_effect {epoch : ℕ} {status : LoadStatus}
    (admissible : Admissible c (.keyLoadEnd epoch status)) :
    Ensures (fun c' => ControlEffect c c' (.keyLoadEnd epoch status)) Unheard
      (c.onKeyLoadEnd epoch status) := by
  obtain ⟨load, active, rfl⟩ := admissible
  rw [onKeyLoadEnd, active]
  dsimp only
  rw [if_neg (by simp)]
  cases status with
  | failed =>
    refine (cancelAll_quiet _ .loadFailed).imp ?_
    intro c' steady
    refine ⟨⟨load, active, .inr ⟨steady.activeLoad, ?_⟩⟩, steady.handshake⟩
    rw [steady.store]
    show (c.store.lock load.epoch).epoch ≤ _
    rw [KeyStore.lock_epoch]
    omega
  | ok =>
    refine (finishLoadIfReady_settles rfl).imp ?_
    rintro c' (steady | settled)
    · have still : Untold c c' := fun _ untold => steady.untold rfl untold
      exact ⟨⟨load, active, .inl ⟨rfl, steady.store, still, _, steady.activeLoad, rfl, rfl, rfl⟩⟩,
        steady.handshake⟩
    · exact ⟨⟨load, active, .inr ⟨settled.idle, settled.epoch⟩⟩, settled.handshake⟩

/-- The panel does not listen, or the FIFO does not open. -/
def CutOff (c : Companion env) : Prop := Unheard c ∨ FifoShut c

/-- A line with its place ends the loop only if the loop is cut off. -/
theorem onControl_effect {message : ControlMessage} (admissible : Admissible c message)
    (untold : ∀ epoch loadId, message = .keyLoadBegin epoch loadId → resultTold c.log = false) :
    Ensures (fun c' => ControlEffect c c' message) CutOff (c.onControl message) := by
  have denied : ∀ id, Ensures (Steady c) CutOff (c.onDeny id) :=
    fun id => mono
      (@onDeny _ _ _ _ .empty _ (steady_rule c).toRefusalRule id trivial (.refl c))
      (fun _ steady => steady) fun _ unheard => .inl unheard
  cases message with
  | hello =>
    rw [onControl, if_neg (by simpa [Admissible] using admissible)]
    refine mono (emit_quiet _ _ (by nofun)) ?_ fun _ unheard => .inl unheard
    intro c' steady
    exact ⟨steady.activeLoad, steady.store, steady.handshake⟩
  | keyLoadBegin epoch loadId =>
    exact (onKeyLoadBegin_effect admissible (untold epoch loadId rfl)).mono
      (fun _ effect => effect) fun _ shut => .inr shut
  | keyLoadEnd epoch status =>
    exact (onKeyLoadEnd_effect admissible).mono (fun _ effect => effect)
      fun _ unheard => .inl unheard
  | vaultLocked epoch =>
    refine Ensures.bind ((closeVault_closes c _ _).mono (fun _ closed => closed)
      fun _ unheard => .inl unheard) fun closed ⟨idle, store, handshake⟩ => ?_
    refine mono (emit_quiet closed _ (by nofun)) ?_ fun _ unheard => .inl unheard
    intro c' steady
    refine ⟨steady.activeLoad.trans idle, ?_, steady.handshake.trans handshake⟩
    rw [steady.store, store, KeyStore.lock_epoch]
  | vaultLoggedOut =>
    refine mono (closeVault_closes c _ _) ?_ fun _ unheard => .inl unheard
    rintro c' ⟨idle, store, handshake⟩
    refine ⟨idle, ?_, handshake⟩
    rw [store]
    show max c.store.epoch (satAdd c.store.epoch 1) ≤ c.store.epoch + 1
    have bound : satAdd c.store.epoch 1 ≤ c.store.epoch + 1 := Nat.min_le_left _ _
    omega
  | approve id duration =>
    exact (@BaseRule.onApprove _ _ _ _ .empty _ (steady_rule c).toBaseRule _ _ trivial (.refl c)
      fun _ found => @Rule.consent _ _ _ _ _ .empty _ (steady_rule c) _ _ duration found
        (.refl c)).mono (fun _ steady => steady) fun _ unheard => .inl unheard
  | deny id => exact denied id
  | unlockCancelled id reason => exact denied id
  | options on => exact { Steady.refl c with }
  | revokeGrants => exact { Steady.refl c with }
  | revokeGrant id => exact { Steady.refl c with }
  | shutdown => exact rfl

/-- A load begun while one is active ends the loop. -/
theorem onKeyLoadBegin_of_active (active : c.activeLoad.isSome = true) (epoch : ℕ)
    (loadId : String) : c.onKeyLoadBegin epoch loadId = .error c := by
  rw [onKeyLoadBegin, if_pos active]

/-- A load id that is no nonce ends the loop. -/
theorem onKeyLoadBegin_of_foreign {epoch : ℕ} {loadId : String}
    (idle : ¬ c.activeLoad.isSome = true) (foreign : parseNonce loadId = none) :
    ∃ stopped, c.onKeyLoadBegin epoch loadId = .error stopped := by
  rw [onKeyLoadBegin, if_neg idle, LoadWindow.new, foreign]
  exact ⟨_, rfl⟩

/-- A load that is not the active one cannot be ended. -/
theorem onKeyLoadEnd_of_other {epoch : ℕ} {status : LoadStatus}
    (other : ∀ load, c.activeLoad = some load → load.epoch ≠ epoch) :
    c.onKeyLoadEnd epoch status = .error c := by
  rw [onKeyLoadEnd]
  split
  · rfl
  · next load active => rw [if_pos (other load active)]

/-- An input of the loop that is no line of the panel. -/
inductive OwnInput
  | client (event : ClientEvent)
  | loadResult (epoch : ℕ) (result : Except RuntimeError Bytes)
  | tick

def OwnInput.input : OwnInput → Input
  | .client event => .client event
  | .loadResult epoch result => .loadResult epoch result
  | .tick => .tick

theorem turn_own (c : Companion env) (own : OwnInput)
    (running : (c.turn own.input).running = true) : OwnTurn c (c.turn own.input) := by
  have received : ∀ input, Steady c (c.record (.received input)) :=
    fun _ => (Steady.refl c).record (by nofun)
  have turned : Ensures (OwnTurn c) Unheard (c.iterate own.input) := by
    cases own with
    | client event =>
      exact imp ((steady_rule c).handleClient .empty event
        (fun _ _ => @Rule.releaseUnapproved _ _ _ _ _ .empty _ (steady_rule c) _)
        { received (.client event) with })
        fun _ steady => .inl steady.toLoadKept
    | loadResult epoch result =>
      exact (onLoadResult_ownTurn _ epoch result).imp fun _ turn =>
        turn.after (received _).toLoadKept
    | tick =>
      exact (onTick_ownTurn _).imp fun _ turn => turn.after (received _).toLoadKept
  exact of_turn turned running

variable {message : ControlMessage}

theorem iterate_effect (admissible : Admissible c message) :
    Ensures (fun c' => ControlEffect c c' message) CutOff (c.iterate (.control message)) := by
  have received : Steady c (c.record (.received (.control message))) :=
    (Steady.refl c).record (by nofun)
  have effect := @onControl_effect env (c.record (.received (.control message))) message
    (by cases message <;> exact admissible) (by rintro _ _ rfl; rfl)
  refine effect.imp ?_
  intro after taken
  cases message with
  | keyLoadEnd epoch status =>
    obtain ⟨⟨load, active, ends⟩, handshake⟩ := taken
    refine ⟨⟨load, active, ends.imp_left ?_⟩, handshake⟩
    rintro ⟨fine, store, still, ended⟩
    exact ⟨fine, store, fun active untold => still active (received.untold active untold), ended⟩
  | _ => first
    | exact taken
    | exact received.trans taken

/-- A line with its place, once it is taken. -/
theorem turn_control (admissible : Admissible c message)
    (running : (c.turn (.control message)).running = true) :
    ControlEffect c (c.turn (.control message)) message :=
  of_turn (iterate_effect admissible) running

/-- A line without its place ends the loop. -/
theorem admissible_of_running
    (running : (c.turn (.control message)).running = true) : Admissible c message := by
  by_contra misplaced
  have failed : ∃ stopped, c.iterate (.control message) = .error stopped := by
    cases message with
    | hello =>
      have greeted : c.handshakeComplete = true := by simpa [Admissible] using misplaced
      exact ⟨_, if_pos greeted⟩
    | keyLoadBegin epoch loadId =>
      by_cases active : c.activeLoad.isSome = true
      · exact ⟨_, @onKeyLoadBegin_of_active env (c.record _) active epoch loadId⟩
      · have idle : c.activeLoad = none := by simpa using active
        have foreign : parseNonce loadId = none := by simpa [Admissible, idle] using misplaced
        exact @onKeyLoadBegin_of_foreign env (c.record _) epoch loadId active foreign
    | keyLoadEnd epoch status =>
      refine ⟨_, @onKeyLoadEnd_of_other env (c.record _) epoch status ?_⟩
      intro load active same
      exact misplaced ⟨load, active, same⟩
    | _ => exact absurd trivial misplaced
  obtain ⟨stopped, failed⟩ := failed
  rw [turn, failed] at running
  cases running

end QsBitwarden.Agent
