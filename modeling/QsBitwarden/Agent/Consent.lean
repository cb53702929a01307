import QsBitwarden.Agent.Epochs
import QsBitwarden.Agent.Steps

/-! Owns the steps of the loop that queue, grant and sign: each keeps the invariant, so
that a signature is always accounted for by an approve or a live grant. It does not own
the loop's arms. -/

namespace QsBitwarden.Agent

open Lib List Companion Entry

variable {env : Env} {hand hand' : List (RequestId × HeldSign)} {c c' : Companion env}

/-! ### Signing -/

theorem carriesSignature_authorizedSignature {ssh : SshKeyCrate} {store : KeyStore ssh}
    {authorization : Authorization} {message : Bytes} {flags : ℕ}
    (carries : carriesSignature (authorizedSignature store authorization message flags) = true) :
    store.state = .unlocked ∧ store.epoch = authorization.epoch := by
  unfold authorizedSignature at carries
  cases finalized : authorization.finalize store with
  | none => simp [finalized] at carries
  | some permit =>
    obtain ⟨unlocked, current, -⟩ := finalize_eq_some finalized
    exact ⟨unlocked, current⟩

/-- No load is active, in a run that starts with `hello`. -/
def Idle (c : Companion env) : Prop := HelloFirst c.log → c.activeLoad = none

/-- Where requests are queued, granted and signed: the invariant holds and no load is
active. -/
structure Ready (env : Env) (hand : List (RequestId × HeldSign)) (c : Companion env) : Prop where
  inv : Inv env hand c
  idle : Idle c

/-- The log of a stopped flow is still accounted for. -/
def Stopped (c : Companion env) : Prop := Recorded env c.approvals.nextId c.log

/-- The flow ends ready. -/
abbrev KeepsReady (env : Env) (hand : List (RequestId × HeldSign)) : Flow env → Prop :=
  Ensures (Ready env hand) Stopped

theorem Ready.frame (ready : Ready env hand c) (shrinks : Shrinks calm hand hand' c c')
    (recorded : Stopped c') : Ready env hand' c' where
  inv := ready.inv.frame shrinks recorded
  idle := by
    intro hello
    obtain ⟨new, log, calm⟩ := shrinks.log
    rw [log, helloFirst_append_calm calm] at hello
    rw [shrinks.activeLoad]
    exact ready.idle hello

theorem Ready.shrink (ready : Ready env hand c) (shrinks : Shrinks plain hand hand' c c') :
    Ready env hand' c' :=
  ready.frame shrinks.weaken (shrinks.recorded ready.inv.recorded)

theorem Ready.emit (ready : Ready env hand c) {message : Output}
    (plain : (emitted message).plain = true) : KeepsReady env hand (c.emit message) :=
  ensures_emit (ready.shrink (shrinks_record plain)) ready.inv.recorded

/-- The request behind a reply channel has the user's consent at this epoch. -/
def Consented (env : Env) (log : List Entry) (reply : ReplyId) (epoch : ℕ) : Prop :=
  ∃ publicBlob message flags peer scope,
    Asks env log reply publicBlob message flags peer scope ∧
    (ApprovedByName reply log ∨ CoveredByGrant env epoch publicBlob peer scope log)

/-- Consent lasts while no message is received and the clock is not read again. -/
theorem Consented.cons {log : List Entry} {reply : ReplyId} {epoch : ℕ} {entry : Entry}
    (consented : Consented env log reply epoch) (none : entry.control? = none)
    (timeless : lastClock (entry :: log) = lastClock log) :
    Consented env (entry :: log) reply epoch := by
  obtain ⟨publicBlob, message, flags, peer, scope, asks, given⟩ := consented
  refine ⟨publicBlob, message, flags, peer, scope, asks.mono (subset_cons_self _ _), ?_⟩
  rcases given with named | ⟨grant, traced, covers, live⟩
  · exact .inl (Since.later trivial named)
  · refine .inr ⟨grant, Since.later (revokes_of_control? none _) traced, covers, ?_⟩
    rw [timeless]
    exact live

/-- Answering keeps the loop ready if a signature would be consented to and sent while the
vault is unlocked. -/
theorem Ready.answer (ready : Ready env hand c) {reply : ReplyId} {response : Bytes}
    (consented : carriesSignature response = true → Consented env c.log reply c.store.epoch)
    (unlocked : carriesSignature response = true → c.store.state = .unlocked) :
    Ready env hand (c.answer reply response) := by
  have recorded := ready.inv.recorded
  refine ready.frame (shrinks_record rfl) ⟨⟨?_, recorded.justified⟩, ?_,
    recorded.announcedOnce, recorded.namedOnce, recorded.announcedIds, recorded.namedIds⟩
  · rintro _ _ _ ⟨⟩ carries
    exact consented carries
  · intro hello
    have hello : HelloFirst c.log := helloFirst_of_cons hello
    refine ⟨?_, recorded.signed hello⟩
    rintro _ _ _ ⟨⟩ carries
    exact (ready.inv.gate hello).openSince (unlocked carries) (ready.idle hello)

variable {reply : ReplyId}

/-- Sending an authorized signature for a consented request. -/
theorem Ready.answerAuthorized (ready : Ready env hand c)
    {authorization : Authorization} (message : Bytes) (flags : ℕ)
    (consented : c.store.epoch = authorization.epoch →
      Consented env c.log reply authorization.epoch) :
    Ready env hand (c.answer reply
      (authorizedSignature c.store authorization message flags)) := by
  refine ready.answer (fun carries => ?_) fun carries =>
    (carriesSignature_authorizedSignature carries).1
  have current := (carriesSignature_authorizedSignature carries).2
  rw [current]
  exact consented current

/-! ### Queueing -/

/-- An id that has been handed out and not used yet. -/
structure Fresh (c : Companion env) (id : RequestId) : Prop where
  below : id < c.approvals.nextId
  unnamed : id ∉ c.log.filterMap namedId
  unannounced : id ∉ c.log.filterMap announcedId

/-- The queue has only this request under an id. -/
def Queued (c : Companion env) (id : RequestId) (publicBlob : Bytes) (peer : PeerContext)
    (scope : SignScope) : Prop :=
  ∀ request ∈ c.approvals.pending, request.id = id →
    request.publicBlob = publicBlob ∧ request.peer = peer ∧ request.scope = scope

variable {grant : Grant} {publicBlob : Bytes} {peer : PeerContext} {scope : SignScope}

/-- A live grant that covers a request, found in the queue at the moment of a clock reading. -/
theorem coveredByGrant_of_live (inv : Inv env hand c) {epoch : ℕ}
    (live : grant ∈ (c.approvals.expire c.elapsedMs).grants)
    (covers : grantCovers grant epoch publicBlob peer scope = true) :
    CoveredByGrant env epoch publicBlob peer scope c.readClock.log := by
  obtain ⟨mem, unexpired⟩ := ApprovalManager.mem_expire_grants.mp live
  exact ⟨grant, .later (revokes_of_control? rfl _) (inv.grantsTraced grant mem),
    covers, unexpired⟩

/-- What submitting a request leaves, by its outcome. -/
inductive Submitted (env : Env) (hand : List (RequestId × HeldSign)) (c : Companion env)
    (publicBlob : Bytes) (peer : PeerContext) (scope : SignScope) :
    Except ApprovalError Submit × Companion env → Prop
  | refused (error : ApprovalError) (c' : Companion env)
      (shrinks : Shrinks plain hand hand c c') :
      Submitted env hand c publicBlob peer scope (.error error, c')
  | granted (c' : Companion env) (shrinks : Shrinks plain hand hand c c')
      (covered : CoveredByGrant env c.store.epoch publicBlob peer scope c'.log) :
      Submitted env hand c publicBlob peer scope
        (.ok (.granted ⟨c.store.epoch, publicBlob⟩), c')
  | queued (id : RequestId) (c' : Companion env) (ready : Ready env hand c')
      (fresh : Fresh c' id) (queued : Queued c' id publicBlob peer scope)
      (log : ∃ nowMs, c'.log = .clock nowMs :: c.log) :
      Submitted env hand c publicBlob peer scope (.ok (.pending id), c')

/-- Adding one request under the next id to the queue. -/
theorem Ready.enqueue (ready : Ready env hand c) {approvals : ApprovalManager}
    (nextId : approvals.nextId = c.approvals.nextId + 1)
    (queue : ∀ request ∈ approvals.pending,
      request ∈ c.approvals.pending ∨ request.id = c.approvals.nextId)
    (grants : approvals.grants ⊆ c.approvals.grants)
    (nextGrantId : approvals.nextGrantId = c.approvals.nextGrantId) :
    Ready env hand { c with approvals := approvals } := by
  have inv := ready.inv
  have grown : c.approvals.nextId ≤ approvals.nextId := nextId ▸ Nat.le_succ _
  refine ⟨?_, ready.idle⟩
  constructor
  case recorded =>
    exact { inv.recorded with
      announcedIds := fun id mem => (inv.recorded.announcedIds id mem).trans_le grown
      namedIds := fun id mem => (inv.recorded.namedIds id mem).trans_le grown }
  case heldLinked => exact inv.heldLinked
  case handLinked => exact inv.handLinked
  case pendingLinked =>
    intro entry mem
    refine (inv.pendingLinked entry mem).mono (List.Subset.refl _) fun other queued same => ?_
    rcases queue other queued with old | new
    · exact old
    · -- the new request's id is not in the map yet
      have below := inv.recorded.namedIds entry.1
        (mem_filterMap.mpr ⟨_, (inv.pendingLinked entry mem).1, rfl⟩)
      rw [← same, new] at below
      exact absurd below (lt_irrefl _)
  case grantsTraced => exact fun grant mem => inv.grantsTraced grant (grants mem)
  case queueIds =>
    intro other queued
    rcases queue other queued with old | new
    · exact (inv.queueIds other old).trans_le grown
    · change other.id < approvals.nextId
      rw [nextId, new]
      exact Nat.lt_succ_self _
  case grantIds =>
    intro grant mem
    change grant.id < approvals.nextGrantId
    rw [nextGrantId]
    exact inv.grantIds grant (grants mem)
  case gate =>
    intro hello
    have gate := inv.gate hello
    refine ⟨gate.handshake, fun load active => ?_, gate.openSince⟩
    rw [ready.idle hello] at active
    cases active

/-- The next id has not been used. -/
theorem Inv.fresh_nextId (inv : Inv env hand c) :
    c.approvals.nextId ∉ c.log.filterMap namedId ∧
      c.approvals.nextId ∉ c.log.filterMap announcedId :=
  ⟨fun mem => absurd (inv.recorded.namedIds _ mem) (lt_irrefl _),
    fun mem => absurd (inv.recorded.announcedIds _ mem) (lt_irrefl _)⟩

theorem submit_submitted (ready : Ready env hand c) (publicBlob : Bytes) (peer : PeerContext)
    (scope : SignScope) :
    Submitted env hand c publicBlob peer scope (c.submit publicBlob peer scope) := by
  have clocked : Shrinks plain hand hand c c.readClock := shrinks_readClock
  refine submit_cases fun result outcome => ?_
  cases outcome with
  | wrongUid differs => exact .refused _ _ clocked
  | refused error => exact .refused _ _ (clocked.trans (shrinks_expire _))
  | granted grant live covered =>
    exact .granted _ (clocked.trans (shrinks_expire _))
      (coveredByGrant_of_live ready.inv live covered)
  | queued expected room =>
    have fresh := ready.inv.fresh_nextId
    refine .queued c.approvals.nextId _ ?_ ⟨Nat.lt_succ_self _, fresh.1, fresh.2⟩ ?_ ⟨_, rfl⟩
    · refine (ready.shrink clocked).enqueue rfl (fun request mem => ?_)
        (ApprovalManager.expire_grants_subset _ _) rfl
      rcases mem_append.mp mem with old | new
      · exact .inl (ApprovalManager.expire_pending_subset _ _ old)
      · exact .inr (by rw [mem_singleton.mp new]; rfl)
    · intro request mem same
      rcases mem_append.mp mem with old | new
      · have below := ready.inv.queueIds request
          (ApprovalManager.expire_pending_subset _ _ old)
        rw [same] at below
        exact absurd below (lt_irrefl _)
      · rw [mem_singleton.mp new]
        exact ⟨rfl, rfl, rfl⟩

/-! ### Naming requests -/

variable {id : RequestId}

/-- The id of a message that announces it for the first time is still free to name. -/
theorem unnamed_of_announce {entry : Entry} (fresh : Fresh c id)
    (names : entry.namedId = none) : id ∉ (c.record entry).log.filterMap namedId := by
  change id ∉ (entry :: c.log).filterMap namedId
  rw [filterMap_cons_none names]
  exact fresh.unnamed

/-- Adding the id of a queued request to the map of waiting signatures. -/
theorem Ready.insertPending (ready : Ready env hand c) {sign : PendingSign}
    (below : id < c.approvals.nextId) (unnamed : id ∉ c.log.filterMap namedId)
    (asks : Asks env c.log sign.reply publicBlob sign.message sign.flags peer scope)
    (queued : Queued c id publicBlob peer scope) :
    Ready env hand (c.insertPending id sign) := by
  have named : Ready env hand (c.record (.named id sign.reply)) :=
    ready.frame (shrinks_record rfl)
      (ready.inv.recorded.cons rfl nofun fun _ same => Option.some.inj same ▸ ⟨unnamed, below⟩)
  refine ⟨{ named.inv with pendingLinked := ?_, gate := fun hello => ?_ }, named.idle⟩
  · intro entry mem
    rcases mem_entries_insert mem with rfl | old
    · exact ⟨mem_cons_self, publicBlob, peer, scope,
        asks.mono (subset_cons_self _ _), queued⟩
    · exact named.inv.pendingLinked entry old
  · have gate := named.inv.gate hello
    refine ⟨gate.handshake, fun load active => ?_, gate.openSince⟩
    have idle : c.activeLoad = none := named.idle hello
    exact absurd (idle.symm.trans active) (by simp)

/-- Adding a request to those held for an unlock. -/
theorem Inv.insertHeld (inv : Inv env hand c) {request : HeldSign}
    (below : id < c.approvals.nextId) (unnamed : id ∉ c.log.filterMap namedId)
    (asks : Asks env c.log request.reply request.publicBlob request.message request.flags
      request.peer request.scope)
    (unapproved : request.approved = none) :
    Inv env hand (c.insertHeld id request) := by
  have named : Inv env hand (c.record (.named id request.reply)) :=
    inv.frame (shrinks_record rfl)
      (inv.recorded.cons rfl nofun fun _ same => Option.some.inj same ▸ ⟨unnamed, below⟩)
  refine { named with heldLinked := ?_, gate := fun hello => { named.gate hello with } }
  intro entry mem
  rcases mem_entries_insert mem with rfl | old
  · refine ⟨mem_cons_self, asks.mono (subset_cons_self _ _), ?_⟩
    intro duration approved
    exact absurd (unapproved.symm.trans approved) (by simp)
  · exact named.heldLinked entry old

theorem askApproval_ready (ready : Ready env hand c) {sign : PendingSign} (fresh : Fresh c id)
    (asks : Asks env c.log sign.reply publicBlob sign.message sign.flags peer scope)
    (queued : Queued c id publicBlob peer scope) :
    KeepsReady env hand (c.askApproval id publicBlob peer scope sign) := by
  unfold askApproval
  split
  · exact (ready.shrink (shrinks_disconnect id)).shrink shrinks_refuse
  · next key found =>
    have announced : Ready env hand
        (c.record (.emitted (.approvalRequired key.itemId
          (announcement env id key peer scope)))) :=
      ready.frame (shrinks_record rfl)
        (ready.inv.recorded.cons rfl
          (fun _ same => Option.some.inj same ▸ ⟨fresh.unannounced, fresh.below⟩) nofun)
    have inserted := announced.insertPending fresh.below (unnamed_of_announce fresh rfl)
      (asks.mono (subset_cons_self _ _)) queued
    unfold emit
    split
    · exact inserted
    · exact ready.inv.recorded

/-! ### Approving -/

theorem newGrants_eq_nil {before after : ApprovalManager}
    (grantIds : ∀ grant ∈ before.grants, grant.id < before.nextGrantId)
    (subset : after.grants ⊆ before.grants) : newGrants before after = [] := by
  refine filter_eq_nil_iff.mpr fun grant mem => ?_
  simpa using grantIds grant (subset mem)

theorem newGrants_eq_singleton {before after : ApprovalManager} {live : List Grant}
    (grantIds : ∀ grant ∈ before.grants, grant.id < before.nextGrantId)
    (subset : live ⊆ before.grants) (added : after.grants = live ++ [grant])
    (next : grant.id = before.nextGrantId) : newGrants before after = [grant] := by
  have old : newGrants before { after with grants := live } = [] :=
    newGrants_eq_nil grantIds subset
  have new : [grant].filter (fun grant => before.nextGrantId ≤ grant.id) = [grant] := by simp [next]
  calc newGrants before after
      = newGrants before { after with grants := live } ++
          [grant].filter (fun grant => before.nextGrantId ≤ grant.id) := by
        rw [newGrants, newGrants, added, filter_append]
    _ = [grant] := by rw [old, new, nil_append]

/-- What approving a queued request leaves, by its outcome. -/
inductive Approved (env : Env) (hand : List (RequestId × HeldSign)) (c : Companion env)
    (id : RequestId) : Except ApprovalError Authorization × Companion env → Prop
  | refused (error : ApprovalError) (c' : Companion env)
      (shrinks : Shrinks plain hand hand c c') :
      Approved env hand c id (.error error, c')
  | approved (request : Pending) (c' : Companion env) (queued : request ∈ c.approvals.pending)
      (named : request.id = id) (ready : Ready env hand c') (new : List Entry)
      (log : c'.log = new ++ c.log) :
      Approved env hand c id (.ok ⟨request.epoch, request.publicBlob⟩, c')

variable {duration : GrantDuration}

/-- Opening a grant keeps the loop ready if the user consented to it. -/
theorem Ready.openGrant (ready : Ready env hand c)
    (next : grant.id = c.approvals.nextGrantId) (opening : Opening env grant duration c.log) :
    Ready env hand
      { c with
        approvals := { c.approvals with
          nextGrantId := c.approvals.nextGrantId + 1
          grants := c.approvals.grants ++ [grant] }
        log := .opened grant duration :: c.log } := by
  have recorded : Ready env hand (c.record (.opened grant duration)) :=
    ready.shrink (shrinks_record rfl)
  have inv := recorded.inv
  refine ⟨{ inv with grantsTraced := ?_, grantIds := ?_, gate := ?_ }, recorded.idle⟩
  · intro other mem
    rcases mem_append.mp mem with old | new
    · exact inv.grantsTraced other old
    · rw [mem_singleton.mp new]
      exact .here ⟨duration, rfl, opening⟩
  · intro other mem
    rcases mem_append.mp mem with old | new
    · exact (inv.grantIds other old).trans (Nat.lt_succ_self _)
    · rw [mem_singleton.mp new, next]
      exact Nat.lt_succ_self _
  · exact fun hello => { inv.gate hello with }

theorem approve_approved (ready : Ready env hand c) {id : RequestId} {duration : GrantDuration}
    (consent : duration ≠ .once → ∀ request ∈ c.approvals.pending, request.id = id →
      LastingConsent env duration request.publicBlob request.peer request.scope c.log) :
    Approved env hand c id (c.approve id duration) := by
  have outcome := c.approvals.approve_outcome id duration c.elapsedMs
  have grantIds := ready.inv.grantIds
  have expired : Shrinks plain hand hand c
      { c.readClock with approvals := c.approvals.expire c.elapsedMs } :=
    shrinks_readClock.trans (shrinks_expire _)
  have erased : Shrinks plain hand hand c
      { c.readClock with
        approvals := { c.approvals.expire c.elapsedMs with
          pending := (c.approvals.expire c.elapsedMs).pending.eraseP (·.id = id) } } :=
    { expired with queue := List.Subset.trans eraseP_subset expired.queue }
  have live : (c.approvals.expire c.elapsedMs).grants ⊆ c.approvals.grants :=
    ApprovalManager.expire_grants_subset _ _
  unfold approve
  dsimp only
  generalize c.approvals.approve id duration c.elapsedMs = result at outcome ⊢
  generalize opens : newGrants c.approvals result.2 = new
  cases outcome with
  | unknown absent =>
    obtain rfl : new = [] := opens.symm.trans (newGrants_eq_nil grantIds live)
    exact .refused _ _ expired
  | exhausted =>
    obtain rfl : new = [] := opens.symm.trans (newGrants_eq_nil grantIds live)
    exact .refused _ _ erased
  | approvedOnce request mem named =>
    obtain rfl : new = [] := opens.symm.trans (newGrants_eq_nil grantIds live)
    exact .approved request _ (ApprovalManager.expire_pending_subset _ _ mem) named
      (ready.shrink erased) [.clock c.elapsedMs] rfl
  | opened request mem named lasting grantable =>
    obtain rfl := opens.symm.trans (newGrants_eq_singleton grantIds live rfl rfl)
    have queued := ApprovalManager.expire_pending_subset _ _ mem
    have clocked : LastingConsent env duration request.publicBlob request.peer request.scope
        ([.clock c.elapsedMs] ++ c.log) :=
      (consent lasting.1 request queued named).append (by simp [control?])
    refine .approved request _ queued named ?_ [.opened _ duration, .clock c.elapsedMs] rfl
    exact (ready.shrink erased).openGrant rfl
      ⟨lasting.1, lasting.2, rfl, request.scope, grantable, rfl, clocked⟩

/-! ### Settling and releasing -/

/-- The waiting signatures a list of releases names are consented to. -/
def Releasable (c : Companion env) (released : List (RequestId × Authorization)) : Prop :=
  ∀ entry ∈ released, ∀ sign, ⟨entry.1, sign⟩ ∈ c.pending.entries →
    Consented env c.log sign.reply entry.2.epoch

variable {released : List (RequestId × Authorization)}

theorem Releasable.of_record {entry : Entry} (releasable : Releasable c released)
    (subset : c'.pending.entries ⊆ c.pending.entries) (log : c'.log = entry :: c.log)
    (none : entry.control? = none) (timeless : lastClock (entry :: c.log) = lastClock c.log) :
    Releasable c' released := by
  intro release mem sign waiting
  rw [log]
  exact (releasable release mem sign (subset waiting)).cons none timeless

theorem Releasable.tail {release : RequestId × Authorization}
    (releasable : Releasable c (release :: released)) :
    Releasable c released :=
  fun entry mem => releasable entry (mem_cons_of_mem _ mem)

theorem settleOne_ready {release : RequestId × Authorization}
    (ready : Ready env hand c) (releasable : Releasable c (release :: released)) :
    Ensures (fun c' => Ready env hand c' ∧ Releasable c' released) Stopped
      (c.settleOne release) := by
  unfold settleOne
  split
  · next sign found =>
    have waiting : ⟨release.1, sign⟩ ∈ c.pending.entries := AList.mem_lookup_iff.mp found
    have consented := releasable release mem_cons_self sign waiting
    have erased := ready.shrink (shrinks_erasePending release.1)
    have answered := erased.answerAuthorized sign.message sign.flags fun _ => consented
    refine ensures_emit ⟨answered.shrink (shrinks_record rfl), ?_⟩ answered.inv.recorded
    have kept : Releasable ({ c with pending := c.pending.erase release.1 }.answer sign.reply
        (authorizedSignature c.store release.2 sign.message sign.flags)) released :=
      releasable.tail.of_record (kerase_sublist release.1 _).subset rfl rfl rfl
    exact kept.of_record (List.Subset.refl _) rfl rfl rfl
  · exact ensures_emit ⟨ready.shrink (shrinks_record rfl),
      releasable.tail.of_record (List.Subset.refl _) rfl rfl rfl⟩ ready.inv.recorded

theorem settleGranted_ready (ready : Ready env hand c) :
    KeepsReady env hand c.settleGranted := by
  have shrinks : Shrinks plain hand hand c
      { c.readClock with approvals := (c.approvals.releaseGranted c.elapsedMs).2 } :=
    { shrinks_readClock.trans (shrinks_expire c.elapsedMs) with
      queue := List.Subset.trans (filter_subset_self _)
        (ApprovalManager.expire_pending_subset c.approvals c.elapsedMs) }
  have releasable : Releasable
      { c.readClock with approvals := (c.approvals.releaseGranted c.elapsedMs).2 }
      (c.approvals.releaseGranted c.elapsedMs).1 := by
    rintro ⟨id, authorization⟩ released sign waiting
    obtain ⟨request, queued, grant, live, named, rfl, covers⟩ :=
      ApprovalManager.mem_releaseGranted released
    obtain ⟨-, publicBlob, peer, scope, asks, same⟩ := ready.inv.pendingLinked _ waiting
    obtain ⟨rfl, rfl, rfl⟩ := same request queued named
    exact ⟨_, _, _, _, _, asks.mono (subset_cons_self _ _),
      .inr (coveredByGrant_of_live ready.inv live covers)⟩
  refine Ensures.mono
    (ensures_foldlM (fun released c' => Ready env hand c' ∧ Releasable c' released)
    ?_ ⟨ready.shrink shrinks, releasable⟩) (fun _ settled => settled.1) fun _ stopped => stopped
  intro release released before ⟨ready, releasable⟩
  exact settleOne_ready ready releasable

/-- A pre-load approval that is consumed now: it named the request, and stood. -/
theorem ApprovalStands.approvedByName {log : List Entry}
    (stands : ApprovalStands id reply duration log) :
    ApprovedByName reply log := by
  refine Since.mono stands (fun entry past started => ?_) fun _ _ => trivial
  obtain ⟨given, approves, -⟩ := started
  exact ⟨id, given, approves⟩

theorem ApprovalStands.lasting {log : List Entry} (stands : ApprovalStands id reply duration log)
    (lasting : duration ≠ .once) :
    Since (Approves id reply duration)
      (fun entry => entry.endsVault = false ∧ entry.revokesAll = false) log := by
  refine Since.mono stands (fun entry past started => ?_) fun entry kept => ⟨kept.1, kept.2 lasting⟩
  obtain ⟨given, approves, rfl | once⟩ := started
  · exact approves
  · exact absurd once lasting

theorem ApprovedByName.append {log new : List Entry} {reply : ReplyId}
    (approved : ApprovedByName reply log) : ApprovedByName reply (new ++ log) :=
  Since.append (fun _ _ => trivial) approved

theorem releaseApproved_ready {request : HeldSign}
    (ready : Ready env hand c) (linked : HeldLinked env c.log id request)
    (released : .emitted (.requestCancelled id .released) ∈ c.log)
    (approved : request.approved = some duration) :
    Ready env hand (c.releaseApproved request duration) := by
  obtain ⟨-, asks, stands⟩ := linked
  have stands := stands duration approved
  have submitted := submit_submitted ready request.publicBlob request.peer request.scope
  unfold releaseApproved
  generalize c.submit request.publicBlob request.peer request.scope = result at submitted ⊢
  cases submitted with
  | refused error c' shrinks => exact (ready.shrink shrinks).shrink shrinks_refuse
  | granted c' shrinks covered =>
    obtain ⟨new, log, -⟩ := shrinks.log
    refine (ready.shrink shrinks).answerAuthorized _ _ fun _ =>
      ⟨_, _, _, _, _, asks.mono ?_, .inr covered⟩
    exact log ▸ subset_append_right _ _
  | queued newId c' ready fresh queued log =>
    obtain ⟨nowMs, log⟩ := log
    have consent : duration ≠ .once → ∀ other ∈ c'.approvals.pending, other.id = newId →
        LastingConsent env duration other.publicBlob other.peer other.scope c'.log := by
      intro lasting other mem same
      obtain ⟨blob, peer, scope⟩ := queued other mem same
      rw [blob, peer, scope, log]
      have given : LastingConsent env duration request.publicBlob request.peer request.scope
          c.log :=
        ⟨id, request.reply, _, _, asks, .inr ⟨released, stands.lasting lasting⟩⟩
      exact @LastingConsent.append env c.log [.clock nowMs] _ _ _ _ given
        (by simp [control?])
    have decided := approve_approved ready consent
    dsimp only
    generalize c'.approve newId duration = result at decided ⊢
    cases decided with
    | refused error after shrinks => exact (ready.shrink shrinks).shrink shrinks_refuse
    | approved other after mem named ready new logged =>
      refine ready.answerAuthorized _ _ fun _ => ⟨_, _, _, _, _, asks.mono ?_, .inl ?_⟩
      · rw [logged, log]
        exact subset_append_of_subset_right _ (subset_cons_self _ _)
      · rw [logged, log]
        exact ApprovedByName.append (Since.later trivial stands.approvedByName)

theorem releaseUnapproved_ready {request : HeldSign} (ready : Ready env hand c)
    (asks : Asks env c.log request.reply request.publicBlob request.message request.flags
      request.peer request.scope) :
    KeepsReady env hand (c.releaseUnapproved request) := by
  have submitted := submit_submitted ready request.publicBlob request.peer request.scope
  unfold releaseUnapproved
  generalize c.submit request.publicBlob request.peer request.scope = result at submitted ⊢
  cases submitted with
  | refused error c' shrinks => exact (ready.shrink shrinks).shrink shrinks_refuse
  | granted c' shrinks covered =>
    obtain ⟨new, log, -⟩ := shrinks.log
    refine (ready.shrink shrinks).answerAuthorized _ _ fun _ =>
      ⟨_, _, _, _, _, asks.mono ?_, .inr covered⟩
    exact log ▸ subset_append_right _ _
  | queued newId c' ready fresh queued log =>
    obtain ⟨nowMs, log⟩ := log
    refine askApproval_ready ready fresh ?_ queued
    exact log ▸ asks.mono (subset_cons_self _ _)

theorem releaseOne_ready {entry : RequestId × HeldSign} {rest : List (RequestId × HeldSign)}
    (ready : Ready env (entry :: rest) c) : KeepsReady env rest (c.releaseOne entry) := by
  have announced : Ready env (entry :: rest)
      (c.record (.emitted (.requestCancelled entry.1 .released))) :=
    ready.shrink (shrinks_record rfl)
  have linked := announced.inv.handLinked entry mem_cons_self
  have dropped : Ready env rest (c.record (.emitted (.requestCancelled entry.1 .released))) :=
    announced.shrink { Shrinks.refl plain (entry :: rest) _ with
      hand := subset_cons_self _ _ }
  unfold releaseOne emit
  split
  · change Ensures _ _ (ite _ _ _)
    split
    · exact dropped.shrink shrinks_refuse
    · split
      · next duration approved => exact releaseApproved_ready dropped linked mem_cons_self approved
      · exact releaseUnapproved_ready dropped linked.2.1
  · exact ready.inv.recorded

theorem releaseHeld_ready (ready : Ready env [] c) : KeepsReady env [] c.releaseHeld := by
  unfold releaseHeld
  refine Ensures.bind (ensures_foldlM (fun rest => Ready env rest)
    (fun _ _ _ ready => releaseOne_ready ready) ?_) fun _ ready => settleGranted_ready ready
  refine ⟨{ ready.inv with heldLinked := by simp, handLinked := ?_, gate := ?_ }, ready.idle⟩
  · intro entry mem
    obtain ⟨held, holds, rfl⟩ := List.mem_map.mp ((mem_insertionSort _).mp mem)
    exact ready.inv.heldLinked held holds
  · exact fun hello => { ready.inv.gate hello with }

end QsBitwarden.Agent
