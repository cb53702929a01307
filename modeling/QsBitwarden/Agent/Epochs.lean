import Mathlib.Data.List.Nodup
import QsBitwarden.Agent.Approvals
import QsBitwarden.Lib.History

/-! Owns the epoch discipline of the key store over whole call histories: several
candidates, permits and authorizations may be alive at once, and a reused epoch
number revives none of them. It does not own the order the main loop calls in. -/

namespace QsBitwarden.Agent

open Lib List KeyStore

variable {ssh : SshKeyCrate}

/-! ### Call histories -/

variable (ssh) in
/-- One key store and what its callers hold: the candidates it handed out, by order of
creation (`none` once moved into `publish`), and the approval queue. -/
structure Holdings where
  store : KeyStore ssh
  candidates : List (Option (CandidateLoad ssh))
  approvals : ApprovalManager

/-- Calls on the approval queue. A request is submitted at the store's current epoch. -/
inductive ApprovalCall
  | submit (publicBlob : Bytes) (peer : PeerContext) (scope : SignScope) (nowMs : ℕ)
  | approve (id : RequestId) (duration : GrantDuration) (nowMs : ℕ)
  | releaseGranted (nowMs : ℕ)
  | disconnect (id : RequestId)
  | expire (nowMs : ℕ)
  | invalidateAll
  | revokeGrant (id : GrantId)
  | revokeAllGrants
  | reserveRequestId
  deriving DecidableEq, Repr

inductive Call
  | beginLoad (epoch filteredBytes : ℕ)
  | add (candidate : ℕ) (item : CandidateItem)
  | publish (candidate : ℕ)
  | lock (epoch : ℕ)
  | logout (epoch : ℕ)
  | approvals (call : ApprovalCall)
  deriving DecidableEq, Repr

inductive Outcome
  | begun (candidate : ℕ)
  | beginRefused (error : LoadError)
  | added (result : Except LoadError (Option SkipCode))
  | published (report : LoadReport)
  | publishRefused (error : LoadError)
  | authorized (authorizations : List Authorization)
  | done

namespace Holdings

def initial (expectedUid : ℕ) : Holdings ssh := ⟨.new, [], .new expectedUid⟩

/-- The queue after a call, and the authorizations the call hands out. -/
def onApprovals (approvals : ApprovalManager) (epoch : ℕ) :
    ApprovalCall → List Authorization × ApprovalManager
  | .submit publicBlob peer scope nowMs =>
    match approvals.submit epoch publicBlob peer scope nowMs with
    | (.ok (.granted authorization), approvals) => ([authorization], approvals)
    | (_, approvals) => ([], approvals)
  | .approve id duration nowMs =>
    match approvals.approve id duration nowMs with
    | (.ok authorization, approvals) => ([authorization], approvals)
    | (_, approvals) => ([], approvals)
  | .releaseGranted nowMs =>
    ((approvals.releaseGranted nowMs).1.map Prod.snd, (approvals.releaseGranted nowMs).2)
  | .disconnect id => ([], approvals.disconnect id)
  | .expire nowMs => ([], approvals.expire nowMs)
  | .invalidateAll => ([], approvals.invalidateAll)
  | .revokeGrant id => ([], approvals.revokeGrant id)
  | .revokeAllGrants => ([], approvals.revokeAllGrants)
  | .reserveRequestId => ([], approvals.reserveRequestId.2)

def perform (holdings : Holdings ssh) : Call → Outcome × Holdings ssh
  | .beginLoad epoch filteredBytes =>
    match holdings.store.beginLoad epoch filteredBytes with
    | (.ok load, store) =>
      (.begun holdings.candidates.length,
        { holdings with store := store, candidates := holdings.candidates ++ [some load] })
    | (.error error, store) => (.beginRefused error, { holdings with store := store })
  | .add candidate item =>
    match holdings.candidates[candidate]? with
    | some (some load) =>
      (.added (load.add item).1,
        { holdings with candidates := holdings.candidates.set candidate (load.add item).2 })
    | _ => (.done, holdings)
  | .publish candidate =>
    match holdings.candidates[candidate]? with
    | some (some load) =>
      let candidates := holdings.candidates.set candidate none
      match holdings.store.publish load with
      | (.ok report, store) =>
        (.published report, { holdings with store := store, candidates := candidates })
      | (.error error, store) =>
        (.publishRefused error, { holdings with store := store, candidates := candidates })
    | _ => (.done, holdings)
  | .lock epoch => (.done, { holdings with store := holdings.store.lock epoch })
  | .logout epoch => (.done, { holdings with store := holdings.store.logout epoch })
  | .approvals call =>
    (.authorized (onApprovals holdings.approvals holdings.store.epoch call).1,
      { holdings with
        approvals := (onApprovals holdings.approvals holdings.store.epoch call).2 })

/-- The calls made from given holdings, each labelled with its outcome. -/
def calls (start : Holdings ssh) : System (Holdings ssh) (Call × Outcome) := machine perform start

end Holdings

/-! ### What a label says -/

/-- The epoch with which a call entered loading. -/
def entersLoading : Call × Outcome → Option ℕ
  | (.beginLoad epoch _, .begun _) => some epoch
  | (.beginLoad epoch _, .beginRefused .filteredPayloadTooLarge) => some epoch
  | _ => none

/-- A call after which nothing authorized before may sign: a load entered, a lock or a
logout. -/
def Closes : Call × Outcome → Prop
  | (.lock _, _) => True
  | (.logout _, _) => True
  | label => (entersLoading label).isSome

/-- A call that moves a candidate into `publish`. -/
def Publishes (candidate : ℕ) (label : Call × Outcome) : Prop := label.1 = .publish candidate

/-- An `add` on a candidate that failed on a hard limit. -/
def FailsAdd (candidate : ℕ) (label : Call × Outcome) : Prop :=
  ∃ item error, label = (.add candidate item, .added (.error error))

/-- The `begin_load` that returned a candidate. -/
def Begins (candidate epoch : ℕ) (label : Call × Outcome) : Prop :=
  ∃ filteredBytes, label = (.beginLoad epoch filteredBytes, .begun candidate)

/-! ### One call -/

/-- Everything one call can do to the holdings, labelled by call and outcome. -/
inductive Effect (before : Holdings ssh) : Call × Outcome → Holdings ssh → Prop
  | stale (epoch filteredBytes : ℕ) (old : epoch ≤ before.store.epoch) :
      Effect before (.beginLoad epoch filteredBytes, .beginRefused .staleEpoch) before
  | tooLarge (epoch filteredBytes : ℕ) (newer : before.store.epoch < epoch) :
      Effect before (.beginLoad epoch filteredBytes, .beginRefused .filteredPayloadTooLarge)
        { before with store := ⟨⟨epoch, .loading⟩, before.store.keys.clearPrivate⟩ }
  | begun (epoch filteredBytes : ℕ) (newer : before.store.epoch < epoch) :
      Effect before (.beginLoad epoch filteredBytes, .begun before.candidates.length)
        { before with
          store := ⟨⟨epoch, .loading⟩, before.store.keys.clearPrivate⟩
          candidates := before.candidates ++ [some ⟨epoch, 0, false, .empty, []⟩] }
  | added (candidate : ℕ) (item : CandidateItem) (load : CandidateLoad ssh)
      (held : before.candidates[candidate]? = some (some load)) :
      Effect before (.add candidate item, .added (load.add item).1)
        { before with candidates := before.candidates.set candidate (load.add item).2 }
  | publishRefused (candidate : ℕ) (load : CandidateLoad ssh) (error : LoadError)
      (held : before.candidates[candidate]? = some (some load)) :
      Effect before (.publish candidate, .publishRefused error)
        { before with candidates := before.candidates.set candidate none }
  | published (candidate : ℕ) (load : CandidateLoad ssh) (report : LoadReport)
      (held : before.candidates[candidate]? = some (some load)) (sound : load.failed = false)
      (current : before.store.epoch = load.epoch) (loading : before.store.state = .loading) :
      Effect before (.publish candidate, .published report)
        { before with
          store := ⟨⟨load.epoch, .unlocked⟩, load.keys⟩
          candidates := before.candidates.set candidate none }
  | absentAdd (candidate : ℕ) (item : CandidateItem) :
      Effect before (.add candidate item, .done) before
  | absentPublish (candidate : ℕ)
      (missing : ∀ load, before.candidates[candidate]? ≠ some (some load)) :
      Effect before (.publish candidate, .done) before
  | locked (epoch : ℕ) :
      Effect before (.lock epoch, .done) { before with store := before.store.lock epoch }
  | loggedOut (epoch : ℕ) :
      Effect before (.logout epoch, .done) { before with store := before.store.logout epoch }
  | approvals (call : ApprovalCall) :
      Effect before
        (.approvals call,
          .authorized (Holdings.onApprovals before.approvals before.store.epoch call).1)
        { before with
          approvals := (Holdings.onApprovals before.approvals before.store.epoch call).2 }

variable {before : Holdings ssh}

variable {after : Holdings ssh}

theorem perform_effect {call : Call} {outcome : Outcome}
    (step : before.perform call = (outcome, after)) : Effect before (call, outcome) after := by
  cases call with
  | beginLoad epoch filteredBytes =>
    simp only [Holdings.perform] at step
    have result := before.store.beginLoad_outcome epoch filteredBytes
    generalize before.store.beginLoad epoch filteredBytes = begun at step result
    cases result with
    | stale old => cases step; exact .stale _ _ old
    | tooLarge newer => cases step; exact .tooLarge _ _ newer
    | begun newer => cases step; exact .begun _ _ newer
  | add candidate item =>
    simp only [Holdings.perform] at step
    split at step
    · next load held => cases step; exact .added _ _ _ held
    · cases step; exact .absentAdd _ _
  | publish candidate =>
    simp only [Holdings.perform] at step
    split at step
    · next load held =>
      have result := before.store.publish_outcome load
      generalize before.store.publish load = published at step result
      cases result with
      | refused error => cases step; exact .publishRefused _ _ _ held
      | published report sound current loading =>
        cases step
        exact .published _ _ _ held sound current loading
    · next missing => cases step; exact .absentPublish _ missing
  | lock epoch => cases step; exact .locked _
  | logout epoch => cases step; exact .loggedOut _
  | approvals call => cases step; exact .approvals _

variable {label : Call × Outcome}

theorem step_effect {start after : Holdings ssh}
    (step : (Holdings.calls start).step before label after) : Effect before label after :=
  perform_effect step

/-! ### Epochs along a history -/

theorem epoch_le_of_effect
    (effect : Effect before label after) : before.store.epoch ≤ after.store.epoch := by
  cases effect with
  | tooLarge epoch filteredBytes newer => exact newer.le
  | begun epoch filteredBytes newer => exact newer.le
  | published candidate load report held sound current loading => exact current.le
  | locked epoch => exact le_max_left _ _
  | loggedOut epoch => exact le_max_left _ _
  | _ => exact le_rfl

variable {history : List (Call × Outcome)}

variable {start finish : Holdings ssh}

theorem epoch_le (run : Run (Holdings.calls start) history finish) :
    start.store.epoch ≤ finish.store.epoch := by
  refine run.invariant (fun _ holdings => start.store.epoch ≤ holdings.store.epoch) ?_ ?_
  · rintro holdings rfl
    exact le_rfl
  · intro _ _ _ _ _ below step
    exact below.trans (epoch_le_of_effect (step_effect step))

/-- The epochs that entered loading, most recent first, are strictly decreasing and none
is above the store's. -/
theorem entered_sorted (run : Run (Holdings.calls start) history finish) :
    (history.filterMap entersLoading).Pairwise (· > ·) ∧
      ∀ epoch ∈ history.filterMap entersLoading, epoch ≤ finish.store.epoch := by
  refine run.invariant (fun history holdings =>
    (history.filterMap entersLoading).Pairwise (· > ·) ∧
      ∀ epoch ∈ history.filterMap entersLoading, epoch ≤ holdings.store.epoch) ?_ ?_
  · rintro holdings rfl
    simp
  · rintro past before label after - ⟨sorted, below⟩ step
    have effect := step_effect step
    have grows := epoch_le_of_effect effect
    have stillBelow : ∀ epoch ∈ past.filterMap entersLoading, epoch ≤ after.store.epoch :=
      fun epoch mem => (below epoch mem).trans grows
    cases entered : entersLoading label with
    | none =>
      rw [filterMap_cons_none entered]
      exact ⟨sorted, stillBelow⟩
    | some epoch =>
      have newer : before.store.epoch < epoch ∧ after.store.epoch = epoch := by
        cases effect <;> simp [entersLoading] at entered
        case tooLarge newer => subst entered; exact ⟨newer, rfl⟩
        case begun newer => subst entered; exact ⟨newer, rfl⟩
      rw [filterMap_cons_some entered]
      refine ⟨pairwise_cons.mpr ⟨fun old mem => ?_, sorted⟩, ?_⟩
      · exact (below old mem).trans_lt newer.1
      · intro other mem
        rcases mem_cons.mp mem with rfl | mem
        · exact newer.2.ge
        · exact stillBelow other mem

/-- No later state of the tracker allows `epoch`: it is past, or current and closed. -/
def StateTracker.Dead (tracker : StateTracker) (epoch : ℕ) : Prop :=
  epoch < tracker.epoch ∨
    (tracker.epoch = epoch ∧ tracker.state ≠ .loading ∧ tracker.state ≠ .unlocked)

variable {epoch : ℕ}

theorem dead_of_closes (effect : Effect before label after) (closes : Closes label)
    (reached : epoch ≤ before.store.epoch) : after.store.tracker.Dead epoch := by
  cases effect with
  | tooLarge entered filteredBytes newer => exact .inl (reached.trans_lt newer)
  | begun entered filteredBytes newer => exact .inl (reached.trans_lt newer)
  | locked other =>
    rcases (reached.trans (le_max_left _ other)).lt_or_eq with below | same
    · exact .inl below
    · refine .inr ⟨same.symm, ?_⟩
      simp only [lock, StateTracker.lock]
      split <;> simp
  | loggedOut other =>
    rcases (reached.trans (le_max_left _ other)).lt_or_eq with below | same
    · exact .inl below
    · exact .inr ⟨same.symm, by simp [logout, StateTracker.logout]⟩
  | _ => simp [Closes, entersLoading] at closes

theorem dead_of_effect
    (effect : Effect before label after) (dead : before.store.tracker.Dead epoch) :
    after.store.tracker.Dead epoch := by
  have reached : epoch ≤ before.store.epoch := by
    rcases dead with past | ⟨current, -⟩
    · exact past.le
    · exact current.ge
  cases effect with
  | published candidate load report held sound current loading =>
    rcases dead with past | ⟨-, notLoading, -⟩
    · exact .inl (past.trans_le current.le)
    · exact absurd loading notLoading
  | tooLarge entered filteredBytes newer => exact .inl (reached.trans_lt newer)
  | begun entered filteredBytes newer => exact .inl (reached.trans_lt newer)
  | locked other => exact dead_of_closes (Effect.locked other) trivial reached
  | loggedOut other => exact dead_of_closes (Effect.loggedOut other) trivial reached
  | _ => exact dead

/-- An epoch that has been reached is allowed later only if nothing closed it in between. -/
theorem open_of_allows {between : List (Call × Outcome)}
    (run : Run (Holdings.calls start) between finish)
    (reached : epoch ≤ start.store.epoch) (allowed : finish.store.tracker.allows epoch = true) :
    ∀ label ∈ between, ¬ Closes label := by
  have dead : (∀ label ∈ between, ¬ Closes label) ∨ finish.store.tracker.Dead epoch := by
    refine run.invariant (fun history holdings =>
      (∀ label ∈ history, ¬ Closes label) ∨ holdings.store.tracker.Dead epoch) ?_ ?_
    · intro holdings _
      exact .inl (by simp)
    · intro past before label after earlier kept step
      have effect := step_effect step
      rcases kept with undisturbed | dead
      · by_cases closes : Closes label
        · exact .inr (dead_of_closes effect closes (reached.trans (epoch_le earlier)))
        · refine .inl fun other mem => ?_
          rcases mem_cons.mp mem with rfl | mem
          · exact closes
          · exact undisturbed other mem
      · exact .inr (dead_of_effect effect dead)
  rcases dead with undisturbed | dead
  · exact undisturbed
  · obtain ⟨current, unlocked⟩ := StateTracker.allows_eq_true.mp allowed
    rcases dead with past | ⟨-, -, locked⟩
    · exact absurd current past.ne'
    · exact absurd unlocked locked

/-! ### Candidates -/

/-- A candidate still held was begun, and since then not moved into `publish`; while it
has not failed no `add` on it failed; while its epoch is loading nothing closed it. -/
def CandidateTraced (history : List (Call × Outcome)) (holdings : Holdings ssh) (candidate : ℕ)
    (load : CandidateLoad ssh) : Prop :=
  load.epoch ≤ holdings.store.epoch ∧
    Since (fun label _ => Begins candidate load.epoch label)
      (fun label => ¬ Publishes candidate label ∧
        (load.failed = false → ¬ FailsAdd candidate label) ∧
        (holdings.store.epoch = load.epoch → holdings.store.state = .loading → ¬ Closes label))
      history

variable {candidate : ℕ} {load : CandidateLoad ssh}

/-- What loads at an epoch after a call loaded at it before, if it had been reached. -/
theorem loading_of_effect {after : Holdings ssh} {epoch : ℕ} (effect : Effect before label after)
    (reached : epoch ≤ before.store.epoch) (current : after.store.epoch = epoch)
    (loading : after.store.state = .loading) :
    ¬ Closes label ∧ before.store.epoch = epoch ∧ before.store.state = .loading := by
  cases effect with
  | tooLarge entered filteredBytes newer => exact absurd current (reached.trans_lt newer).ne'
  | begun entered filteredBytes newer => exact absurd current (reached.trans_lt newer).ne'
  | published other load report held sound published unlocked => cases loading
  | locked other =>
    simp only [lock, state, StateTracker.lock] at loading
    split at loading <;> cases loading
  | loggedOut other => cases loading
  | _ => exact ⟨by simp [Closes, entersLoading], current, loading⟩

/-- A call that is not about this candidate. -/
theorem CandidateTraced.frame
    (traced : CandidateTraced history before candidate load) (effect : Effect before label after)
    (otherPublish : ¬ Publishes candidate label) (otherAdd : ¬ FailsAdd candidate label) :
    CandidateTraced (label :: history) after candidate load := by
  have stays := @loading_of_effect _ _ _ _ load.epoch effect traced.1
  refine ⟨traced.1.trans (epoch_le_of_effect effect), .later ⟨otherPublish, fun _ => otherAdd,
    fun current loading => (stays current loading).1⟩ ?_⟩
  refine traced.2.mono (fun _ _ started => started) ?_
  rintro entry ⟨published, failed, closed⟩
  exact ⟨published, failed, fun current loading =>
    closed (stays current loading).2.1 (stays current loading).2.2⟩

private theorem held_of_append {candidates : List (Option (CandidateLoad ssh))}
    {fresh : CandidateLoad ssh}
    (held : (candidates ++ [some fresh])[candidate]? = some (some load)) :
    candidates[candidate]? = some (some load) ∨
      (candidate = candidates.length ∧ load = fresh) := by
  grind

private theorem held_of_set {candidates : List (Option (CandidateLoad ssh))}
    {other : ℕ} {value : Option (CandidateLoad ssh)}
    (held : (candidates.set other value)[candidate]? = some (some load)) :
    (other ≠ candidate ∧ candidates[candidate]? = some (some load)) ∨
      (other = candidate ∧ value = some load) := by
  grind

/-- An `add` on the candidate itself keeps its trace; a failed one only marks it failed. -/
theorem CandidateTraced.add (item : CandidateItem)
    (traced : CandidateTraced history before candidate load)
    (candidates : List (Option (CandidateLoad ssh))) :
    CandidateTraced ((.add candidate item, .added (load.add item).1) :: history)
      { before with candidates := candidates } candidate (load.add item).2 := by
  have failed := load.add_failed item
  refine ⟨by simpa using traced.1, .later ⟨by simp [Publishes], ?_, ?_⟩ ?_⟩
  · rintro sound ⟨_, error, label⟩
    simp only [Prod.mk.injEq, Outcome.added.injEq] at label
    simp [sound, label.2, Except.isOk, Except.toBool] at failed
  · simp [Closes, entersLoading]
  · refine traced.2.mono ?_ ?_
    · intro entry _ begins
      rwa [CandidateLoad.add_epoch]
    · rintro entry ⟨published, failedAdd, closed⟩
      rw [CandidateLoad.add_epoch]
      refine ⟨published, fun sound => failedAdd ?_, closed⟩
      rw [sound] at failed
      simpa using (Bool.or_eq_false_iff.mp failed.symm).1

theorem candidate_traced
    (fresh : start.candidates = []) (run : Run (Holdings.calls start) history finish) :
    ∀ candidate load, finish.candidates[candidate]? = some (some load) →
      CandidateTraced history finish candidate load := by
  refine run.invariant (fun history holdings =>
    ∀ candidate load, holdings.candidates[candidate]? = some (some load) →
      CandidateTraced history holdings candidate load) ?_ ?_
  · rintro holdings rfl candidate load held
    simp [fresh] at held
  · intro past before label after _ traced step candidate load held
    have effect := step_effect step
    have same := effect
    cases same with
    | begun epoch filteredBytes newer =>
      rcases held_of_append held with old | ⟨rfl, rfl⟩
      · exact (traced _ _ old).frame effect (by simp [Publishes]) (by simp [FailsAdd])
      · exact ⟨le_rfl, .here ⟨filteredBytes, rfl⟩⟩
    | added other item otherLoad otherHeld =>
      rcases held_of_set held with ⟨distinct, old⟩ | ⟨rfl, same⟩
      · exact (traced _ _ old).frame effect (by simp [Publishes]) (by simp [FailsAdd, distinct])
      · cases same
        exact (traced _ _ otherHeld).add item _
    | publishRefused other otherLoad error otherHeld =>
      obtain ⟨distinct, old⟩ := (held_of_set held).resolve_right (by simp)
      exact (traced _ _ old).frame effect (by simp [Publishes, distinct]) (by simp [FailsAdd])
    | published other otherLoad report otherHeld sound current loading =>
      obtain ⟨distinct, old⟩ := (held_of_set held).resolve_right (by simp)
      exact (traced _ _ old).frame effect (by simp [Publishes, distinct]) (by simp [FailsAdd])
    | absentPublish other missing =>
      have distinct : other ≠ candidate := fun same => missing load (same ▸ held)
      exact (traced _ _ held).frame effect (by simp [Publishes, distinct]) (by simp [FailsAdd])
    | _ => exact (traced _ _ held).frame effect (by simp [Publishes]) (by simp [FailsAdd])

/-- A successful publication of a candidate. -/
def publication (candidate : ℕ) : Call × Outcome → Bool
  | (.publish other, .published _) => other = candidate
  | _ => false

/-- A candidate that was moved stays so. -/
theorem spent_of_effect (effect : Effect before label after)
    (spent : before.candidates[candidate]? = some none) :
    after.candidates[candidate]? = some none := by
  have distinct {other : ℕ} {load : CandidateLoad ssh}
      (held : before.candidates[other]? = some (some load)) : other ≠ candidate := by
    rintro rfl
    simp [held] at spent
  cases effect with
  | begun epoch filteredBytes newer =>
    rw [getElem?_append_left (List.getElem?_eq_some_iff.mp spent).1, spent]
  | added other item load held => rw [getElem?_set_ne (distinct held), spent]
  | publishRefused other load error held => rw [getElem?_set_ne (distinct held), spent]
  | published other load report held => rw [getElem?_set_ne (distinct held), spent]
  | _ => exact spent

/-- `publish` takes the candidate, so it succeeds for it at most once. -/
theorem publication_once (run : Run (Holdings.calls start) history finish) (candidate : ℕ) :
    history.countP (publication candidate) ≤ 1 := by
  suffices spent : history.countP (publication candidate) = 0 ∨
      (history.countP (publication candidate) = 1 ∧
        finish.candidates[candidate]? = some none) by omega
  refine run.invariant (fun history holdings =>
    history.countP (publication candidate) = 0 ∨
      (history.countP (publication candidate) = 1 ∧
        holdings.candidates[candidate]? = some none)) ?_ ?_
  · intro holdings _
    simp
  · intro past before label after _ counted step
    have effect := step_effect step
    by_cases taken : publication candidate label = true
    · rw [countP_cons_of_pos taken]
      cases effect <;> simp [publication] at taken
      case published load report held sound current loading =>
        subst taken
        have unspent := counted.resolve_right fun moved => by simp [held] at moved
        obtain ⟨inBounds, -⟩ := List.getElem?_eq_some_iff.mp held
        exact .inr ⟨by rw [unspent], by simp [inBounds]⟩
    · rw [countP_cons_of_neg taken]
      exact counted.imp id fun moved => ⟨moved.1, spent_of_effect effect moved.2⟩

/-! ### Authorizations -/

/-- The queue's calls keep every request's epoch below the store's, and hand out only
authorizations of such epochs. -/
theorem onApprovals_epochs {approvals : ApprovalManager}
    (below : ∀ request ∈ approvals.pending, request.epoch ≤ epoch) (call : ApprovalCall) :
    (∀ request ∈ (Holdings.onApprovals approvals epoch call).2.pending, request.epoch ≤ epoch) ∧
      ∀ authorization ∈ (Holdings.onApprovals approvals epoch call).1,
        authorization.epoch ≤ epoch := by
  have expired : ∀ nowMs, ∀ request ∈ (approvals.expire nowMs).pending, request.epoch ≤ epoch :=
    fun nowMs request mem => below request (approvals.expire_pending_subset nowMs mem)
  cases call with
  | submit publicBlob peer scope nowMs =>
    have outcome := approvals.submit_outcome epoch publicBlob peer scope nowMs
    simp only [Holdings.onApprovals]
    generalize approvals.submit epoch publicBlob peer scope nowMs = result at outcome ⊢
    cases outcome with
    | wrongUid differs => simpa using below
    | refused error => simpa using expired nowMs
    | granted grant live covered => exact ⟨expired nowMs, by simp⟩
    | queued expected room =>
      refine ⟨fun request mem => ?_, by simp⟩
      rcases mem_append.mp mem with old | new
      · exact expired nowMs request old
      · rw [mem_singleton.mp new]
  | approve id duration nowMs =>
    have outcome := approvals.approve_outcome id duration nowMs
    simp only [Holdings.onApprovals]
    generalize approvals.approve id duration nowMs = result at outcome ⊢
    have erased : ∀ request ∈ (approvals.expire nowMs).pending.eraseP (·.id = id),
        request.epoch ≤ epoch :=
      fun request mem => expired nowMs request (mem_of_mem_eraseP mem)
    cases outcome with
    | unknown absent => simpa using expired nowMs
    | exhausted => simpa using erased
    | approvedOnce request mem named => exact ⟨erased, by simpa using expired nowMs request mem⟩
    | opened request mem named lasting grantable =>
      exact ⟨erased, by simpa using expired nowMs request mem⟩
  | releaseGranted nowMs =>
    refine ⟨fun request mem => expired nowMs request (mem_of_mem_filter mem), ?_⟩
    intro authorization mem
    obtain ⟨⟨id, _⟩, released, rfl⟩ := mem_map.mp mem
    obtain ⟨request, pending, -, -, -, rfl, -⟩ := ApprovalManager.mem_releaseGranted released
    exact below request pending
  | disconnect id =>
    exact ⟨fun request mem => below request (mem_of_mem_filter mem),
      by simp [Holdings.onApprovals]⟩
  | expire nowMs => exact ⟨expired nowMs, by simp [Holdings.onApprovals]⟩
  | invalidateAll => simp [Holdings.onApprovals, ApprovalManager.invalidateAll]
  | revokeGrant id => exact ⟨below, by simp [Holdings.onApprovals]⟩
  | revokeAllGrants => exact ⟨below, by simp [Holdings.onApprovals]⟩
  | reserveRequestId =>
    refine ⟨?_, by simp [Holdings.onApprovals]⟩
    simp only [Holdings.onApprovals, ApprovalManager.reserveRequestId]
    split <;> exact below

/-- Requests are queued, and authorizations handed out, at epochs the store has reached. -/
theorem authorization_epoch_le {expectedUid : ℕ} {finish : Holdings ssh}
    (run : Run (Holdings.calls (.initial expectedUid)) history finish) :
    ∀ call authorizations past, history = (call, .authorized authorizations) :: past →
      ∀ authorization ∈ authorizations, authorization.epoch ≤ finish.store.epoch := by
  suffices bounded : (∀ request ∈ finish.approvals.pending,
      request.epoch ≤ finish.store.epoch) ∧
      ∀ call authorizations past, history = (call, .authorized authorizations) :: past →
        ∀ authorization ∈ authorizations, authorization.epoch ≤ finish.store.epoch from bounded.2
  refine run.invariant (fun history holdings =>
    (∀ request ∈ holdings.approvals.pending, request.epoch ≤ holdings.store.epoch) ∧
      ∀ call authorizations past, history = (call, .authorized authorizations) :: past →
        ∀ authorization ∈ authorizations, authorization.epoch ≤ holdings.store.epoch) ?_ ?_
  · rintro holdings rfl
    exact ⟨by simp [Holdings.initial, ApprovalManager.new], by simp⟩
  · rintro past before label after - ⟨below, -⟩ step
    have effect := step_effect step
    have grows := epoch_le_of_effect effect
    cases effect with
    | approvals call =>
      obtain ⟨queued, handed⟩ := onApprovals_epochs below call
      refine ⟨queued, ?_⟩
      intro other authorizations earlier same
      simp only [List.cons.injEq, Prod.mk.injEq, Outcome.authorized.injEq] at same
      obtain ⟨⟨-, rfl⟩, -⟩ := same
      exact handed
    | _ => exact ⟨fun request mem => (below request mem).trans grows, by simp⟩

/-- The signature is made by the private key whose encoded public key is the blob. -/
def SignedUnder (store : KeyStore ssh) (publicBlob message : Bytes) (flags : ℕ)
    (signature : ssh.Signature) : Prop :=
  ∃ identity ∈ store.keys.privateSet,
    ssh.toBytes (ssh.publicKey identity.key) = some publicBlob ∧
    signWith ssh identity.key message flags = some signature

theorem permit_undisturbed {moment later : Holdings ssh} {between : List (Call × Outcome)}
    (continued : Run (Holdings.calls moment) between later) {permit : AuthorizationPermit}
    (reached : permit.epoch ≤ moment.store.epoch) {message : Bytes} {flags : ℕ}
    {signature : ssh.Signature}
    (signed : later.store.sign permit message flags = some signature) :
    (∀ label ∈ between, ¬ Closes label) ∧
      SignedUnder later.store permit.publicBlob message flags signature := by
  obtain ⟨current, unlocked, made⟩ := sign_eq_some signed
  exact ⟨open_of_allows continued reached
    (StateTracker.allows_eq_true.mpr ⟨current, unlocked⟩), made⟩

theorem finalize_eq_some {authorization : Authorization} {store : KeyStore ssh}
    {permit : AuthorizationPermit} (finalized : authorization.finalize store = some permit) :
    store.state = .unlocked ∧ store.epoch = authorization.epoch ∧
      permit = ⟨authorization.epoch, authorization.publicBlob⟩ := by
  unfold Authorization.finalize at finalized
  split at finalized
  · next found authorized =>
    split at finalized
    · next current =>
      cases finalized
      obtain ⟨unlocked, rfl⟩ := authorize_eq_some authorized
      exact ⟨unlocked, current, by rw [current]⟩
    · cases finalized
  · cases finalized

/-- The epoch discipline, for every history of calls on a fresh store and every
continuation of it. -/
theorem epoch_discipline {expectedUid : ℕ} {history between : List (Call × Outcome)}
    {moment later : Holdings ssh}
    (reached : Run (Holdings.calls (.initial expectedUid)) history moment)
    (continued : Run (Holdings.calls moment) between later) :
    moment.store.epoch ≤ later.store.epoch ∧
    (history.filterMap entersLoading).Nodup ∧
    (∀ candidate report past, history = (.publish candidate, .published report) :: past →
      ∃ epoch, Since (fun label _ => Begins candidate epoch label)
        (fun label => ¬ Publishes candidate label ∧ ¬ FailsAdd candidate label ∧ ¬ Closes label)
        past) ∧
    (∀ candidate, history.countP (publication candidate) ≤ 1) ∧
    (∀ publicBlob permit message flags signature,
      moment.store.authorize publicBlob = some permit →
      later.store.sign permit message flags = some signature →
      (∀ label ∈ between, ¬ Closes label) ∧
        SignedUnder later.store publicBlob message flags signature) ∧
    (∀ call authorizations past, history = (call, .authorized authorizations) :: past →
      ∀ authorization ∈ authorizations, ∀ permit message flags signature,
        authorization.finalize later.store = some permit →
        later.store.sign permit message flags = some signature →
        (∀ label ∈ between, ¬ Closes label) ∧
          SignedUnder later.store authorization.publicBlob message flags signature) ∧
    (∀ epoch filteredBytes after,
      moment.perform (.beginLoad epoch filteredBytes) = (.beginRefused .staleEpoch, after) →
      after.store = moment.store) ∧
    (∀ candidate error after,
      moment.perform (.publish candidate) = (.publishRefused error, after) →
      after.store = moment.store) := by
  refine ⟨epoch_le continued, (entered_sorted reached).1.imp fun later => later.ne', ?_,
    publication_once reached, ?_, ?_, ?_, ?_⟩
  · rintro candidate report past rfl
    cases reached with
    | next earlier step =>
      cases step_effect step with
      | published _ load _ held sound current loading =>
        have traced := candidate_traced rfl earlier _ _ held
        refine ⟨load.epoch, traced.2.mono (fun _ _ begins => begins) ?_⟩
        rintro label ⟨published, failed, closed⟩
        exact ⟨published, failed sound, closed current loading⟩
  · intro publicBlob permit message flags signature authorized signed
    obtain ⟨-, rfl⟩ := authorize_eq_some authorized
    exact permit_undisturbed continued le_rfl signed
  · intro call authorizations past handed authorization mem permit message flags signature
      finalized signed
    obtain ⟨-, -, rfl⟩ := finalize_eq_some finalized
    exact permit_undisturbed continued
      (authorization_epoch_le reached _ _ _ handed _ mem) signed
  · intro epoch filteredBytes after refused
    cases perform_effect refused with
    | stale => rfl
  · intro candidate error after refused
    cases perform_effect refused with
    | publishRefused => rfl

/-- A load cut off by a lock, a stale one and one that is published. -/
def sampleRun : List (Call × Outcome) × Holdings sampleCrate :=
  replay Holdings.perform [] (Holdings.initial 7)
    [.beginLoad 1 10, .add 0 sampleItem, .lock 1, .beginLoad 1 10, .beginLoad 2 10,
      .add 1 sampleItem, .publish 0, .publish 1]

theorem epoch_discipline_sample :
    sampleRun.2.store.epoch = 2 ∧ (sampleRun.1.filterMap entersLoading).Nodup ∧
      ∃ signature, sampleRun.2.store.sign ⟨2, [1]⟩ [9] 0 = some signature ∧
        SignedUnder sampleRun.2.store [1] [9] 0 signature := by
  have run : Run (Holdings.calls (.initial 7)) sampleRun.1 sampleRun.2 := run_replay (.start rfl) _
  have discipline := epoch_discipline run (.start rfl)
  exact ⟨rfl, discipline.2.1, _, rfl, (discipline.2.2.2.2.1 [1] ⟨2, [1]⟩ [9] 0 _ rfl rfl).2⟩

/-! ### The representation -/

/-- No two public records have one blob, and no two private entries point at one record. -/
structure KeySet.Distinct (keys : KeySet ssh) : Prop where
  blobs : (keys.publicSet.map PublicIdentity.publicBlob).Nodup
  indices : (keys.privateSet.map PrivateIdentity.publicIndex).Nodup

section Distinct

variable {keys : KeySet ssh}

theorem KeySet.Distinct.clearPrivate (distinct : keys.Distinct) : keys.clearPrivate.Distinct :=
  ⟨distinct.blobs, nodup_nil⟩

theorem KeySet.Distinct.push (distinct : keys.Distinct) {key : ssh.PrivateKey}
    {record : PublicIdentity} (own : ssh.toBytes (ssh.publicKey key) = some record.publicBlob)
    (new : record.publicBlob ∉ keys.publicSet.map PublicIdentity.publicBlob) :
    (keys.push key record own).Distinct := by
  have above : keys.publicSet.length ∉ keys.privateSet.map PrivateIdentity.publicIndex := by
    intro mem
    obtain ⟨identity, held, last⟩ := mem_map.mp mem
    obtain ⟨found, position, -⟩ := keys.matched identity held
    exact absurd (List.getElem?_eq_some_iff.mp position).1 last.not_lt
  constructor
  · simpa [KeySet.push] using Nodup.concat new distinct.blobs
  · simpa [KeySet.push] using Nodup.concat above distinct.indices

/-- The search for a blob finds the one entry whose own key has it. -/
theorem KeySet.Distinct.find?_names (distinct : keys.Distinct) {identity : PrivateIdentity ssh}
    (mem : identity ∈ keys.privateSet) {publicBlob : Bytes}
    (own : ssh.toBytes (ssh.publicKey identity.key) = some publicBlob) :
    keys.privateSet.find? (keys.names publicBlob) = some identity := by
  obtain ⟨record, position, bytes⟩ := keys.matched identity mem
  have named : keys.names publicBlob identity = true := by
    simp [KeySet.names, position, Option.some.inj (bytes.symm.trans own)]
  cases found : keys.privateSet.find? (keys.names publicBlob) with
  | none => exact absurd named (find?_eq_none.mp found identity mem)
  | some other =>
    have otherMem := mem_of_find?_eq_some found
    have otherNamed : keys.names publicBlob other = true := find?_some found
    -- Both point at a record with this blob, and there is only one.
    have index : identity.publicIndex = other.publicIndex := by
      refine (getElem?_inj ?_ distinct.blobs).mp ?_
      · rw [length_map]
        exact (List.getElem?_eq_some_iff.mp position).1
      · rw [getElem?_map, getElem?_map]
        exact (of_decide_eq_true named).trans (of_decide_eq_true otherNamed).symm
    rw [inj_on_of_nodup_map distinct.indices mem otherMem index]

theorem vet_new {load : CandidateLoad ssh} {item : CandidateItem} {vetted : Vetted ssh}
    (passed : load.vet item = .ok vetted) :
    vetted.record.publicBlob ∉ load.keys.publicSet.map PublicIdentity.publicBlob := by
  unfold CandidateLoad.vet at passed
  repeat' split at passed
  all_goals cases passed
  -- Two ways are left to the end, with an RSA key and without.
  all_goals
    have unseen := ‹¬ (load.keys.publicSet.any _ = true)›
    simpa only [any_eq_true, decide_eq_true_eq, mem_map] using unseen

theorem KeySet.Distinct.add {load : CandidateLoad ssh} (distinct : load.keys.Distinct)
    (item : CandidateItem) : (load.add item).2.keys.Distinct := by
  have outcome := load.add_outcome item
  generalize load.add item = added at outcome ⊢
  cases outcome with
  | limit error => exact distinct
  | skipped code room => exact distinct
  | added vetted room passed => exact distinct.push vetted.own (vet_new passed)

end Distinct

/-- What the live sets and those of every candidate keep. -/
structure Holdings.Represented (holdings : Holdings ssh) : Prop where
  live : holdings.store.keys.Distinct
  candidates : ∀ load, some load ∈ holdings.candidates → load.keys.Distinct
  closed : holdings.store.state ≠ .unlocked → holdings.store.keys.privateSet = []

theorem Holdings.Represented.effect (kept : before.Represented)
    (effect : Effect before label after) : after.Represented := by
  have without (candidate : ℕ) : ∀ load, some load ∈ before.candidates.set candidate none →
      load.keys.Distinct := by
    intro load mem
    rcases mem_or_eq_of_mem_set mem with old | new
    · exact kept.candidates load old
    · cases new
  cases effect with
  | tooLarge epoch filteredBytes newer =>
    exact ⟨kept.live.clearPrivate, kept.candidates, fun _ => rfl⟩
  | begun epoch filteredBytes newer =>
    refine ⟨kept.live.clearPrivate, ?_, fun _ => rfl⟩
    intro load mem
    rcases mem_append.mp mem with old | new
    · exact kept.candidates load old
    · cases mem_singleton.mp new
      exact ⟨nodup_nil, nodup_nil⟩
  | added candidate item load held =>
    refine ⟨kept.live, ?_, kept.closed⟩
    intro other mem
    rcases mem_or_eq_of_mem_set mem with old | new
    · exact kept.candidates other old
    · cases new
      exact (kept.candidates load (mem_of_getElem? held)).add item
  | publishRefused candidate load error held => exact ⟨kept.live, without candidate, kept.closed⟩
  | published candidate load report held sound current loading =>
    exact ⟨kept.candidates load (mem_of_getElem? held), without candidate,
      fun closed => absurd rfl closed⟩
  | locked epoch => exact ⟨kept.live.clearPrivate, kept.candidates, fun _ => rfl⟩
  | loggedOut epoch => exact ⟨⟨nodup_nil, nodup_nil⟩, kept.candidates, fun _ => rfl⟩
  | _ => exact ⟨kept.live, kept.candidates, kept.closed⟩

/-- After any calls a private entry points at the record of its own key, no two records share a
blob, and a blob is authorized and signed for with the one key that has it. -/
theorem keyStore_represented {expectedUid : ℕ} {holdings : Holdings ssh}
    (run : Run (Holdings.calls (.initial expectedUid)) history holdings) :
    (∀ identity ∈ holdings.store.keys.privateSet, ∃ record,
      holdings.store.keys.publicSet[identity.publicIndex]? = some record ∧
        ssh.toBytes (ssh.publicKey identity.key) = some record.publicBlob) ∧
    (holdings.store.keys.publicSet.map PublicIdentity.publicBlob).Nodup ∧
    (holdings.store.state ≠ .unlocked → holdings.store.keys.privateSet = []) ∧
    (∀ publicBlob permit, holdings.store.authorize publicBlob = some permit →
      ∃! identity, identity ∈ holdings.store.keys.privateSet ∧
        ssh.toBytes (ssh.publicKey identity.key) = some publicBlob) ∧
    (∀ identity ∈ holdings.store.keys.privateSet, ∀ publicBlob,
      ssh.toBytes (ssh.publicKey identity.key) = some publicBlob →
      holdings.store.authorize publicBlob = some ⟨holdings.store.epoch, publicBlob⟩ ∧
        ∀ message flags, holdings.store.sign ⟨holdings.store.epoch, publicBlob⟩ message flags =
          signWith ssh identity.key message flags) ∧
    ∀ permit message flags signature,
      holdings.store.sign permit message flags = some signature →
        SignedUnder holdings.store permit.publicBlob message flags signature := by
  have kept : holdings.Represented := by
    refine run.invariant (fun _ holdings => holdings.Represented) ?_ ?_
    · rintro holdings rfl
      exact ⟨⟨nodup_nil, nodup_nil⟩, fun load mem => absurd mem not_mem_nil, fun _ => rfl⟩
    · intro _ _ _ _ _ kept step
      exact kept.effect (step_effect step)
  refine ⟨holdings.store.keys.matched, kept.live.blobs, kept.closed, ?_, ?_, ?_⟩
  · intro publicBlob permit authorized
    unfold authorize at authorized
    split at authorized
    · obtain ⟨identity, found, -⟩ := Option.map_eq_some_iff.mp authorized
      have mem := mem_of_find?_eq_some found
      refine ⟨identity, ⟨mem, KeySet.toBytes_of_names mem (find?_some found)⟩, ?_⟩
      rintro other ⟨otherMem, own⟩
      exact Option.some.inj ((kept.live.find?_names otherMem own).symm.trans found)
    · cases authorized
  · intro identity mem publicBlob own
    have unlocked : holdings.store.state = .unlocked := by
      by_contra closed
      rw [kept.closed closed] at mem
      cases mem
    have allowed : holdings.store.tracker.allows holdings.store.epoch = true :=
      StateTracker.allows_eq_true.mpr ⟨rfl, unlocked⟩
    have found := kept.live.find?_names mem own
    refine ⟨?_, fun message flags => ?_⟩
    · rw [authorize, if_pos allowed, found, Option.map_some]
    · rw [sign, if_pos allowed, found, Option.bind_some]
  · intro permit message flags signature signed
    exact (sign_eq_some signed).2.2

theorem keyStore_represented_sample :
    sampleRun.2.store.authorize [1] = some ⟨2, [1]⟩ ∧
      ∃! identity, identity ∈ sampleRun.2.store.keys.privateSet ∧
        sampleCrate.toBytes (sampleCrate.publicKey identity.key) = some [1] := by
  have run : Run (Holdings.calls (.initial 7)) sampleRun.1 sampleRun.2 := run_replay (.start rfl) _
  exact ⟨rfl, (keyStore_represented run).2.2.2.1 [1] ⟨2, [1]⟩ rfl⟩

end QsBitwarden.Agent
