import QsBitwarden.Agent.Protocol

/-! Owns signature requests, single-use approvals and program grants
(`approvals.rs`), with the peer context they are scoped by (`peer.rs`). It does not
own the requests held for an unlock or the replies. -/

namespace QsBitwarden.Agent

open Lib List

/-- `executable` is the path's bytes. -/
structure PeerContext where
  uid : ℕ
  pid : ℕ
  startTimeTicks : ℕ
  executable : Bytes
  deriving DecidableEq, Repr

/-- Same user and same program, not same process. -/
def PeerContext.sharesGrantScope (peer other : PeerContext) : Bool :=
  peer.uid = other.uid ∧ peer.executable = other.executable

def maxPending : ℕ := 4
def requestLifetimeMs : ℕ := 120000
def maxGrantSeconds : ℕ := 900

inductive ApprovalError
  | wrongUid
  | queueFull
  | unknownRequest
  | idExhausted
  deriving DecidableEq, Repr

abbrev RequestId := ℕ
abbrev GrantId := ℕ

/-- Public-only; it must still pass the key store's final gate. -/
structure Authorization where
  epoch : ℕ
  publicBlob : Bytes
  deriving DecidableEq, Repr

/-- Recheck epoch, lock state and key identity at the final signing point. -/
def Authorization.finalize {ssh : SshKeyCrate} (authorization : Authorization)
    (store : KeyStore ssh) : Option AuthorizationPermit :=
  match store.authorize authorization.publicBlob with
  | some permit => if store.epoch = authorization.epoch then some permit else none
  | none => none

inductive Submit
  | pending (id : RequestId)
  | granted (authorization : Authorization)
  deriving DecidableEq, Repr

structure SignScope where
  kind : SignKind
  forwarded : Bool
  deriving DecidableEq, Repr

/-- Whether approving may open a grant, and a live grant may answer. -/
def SignScope.grantable (scope : SignScope) : Bool := !scope.forwarded && scope.kind ≠ .other

structure Pending where
  id : RequestId
  epoch : ℕ
  publicBlob : Bytes
  peer : PeerContext
  scope : SignScope
  deadlineMs : ℕ
  deriving DecidableEq, Repr

inductive GrantDuration
  | once
  | seconds (seconds : ℕ)
  | untilScreenLock
  deriving DecidableEq, Repr

structure Grant where
  id : GrantId
  publicBlob : Bytes
  peer : PeerContext
  kind : SignKind
  epoch : ℕ
  expiresAtMs : Option ℕ
  deriving DecidableEq, Repr

def grantCovers (grant : Grant) (epoch : ℕ) (publicBlob : Bytes) (peer : PeerContext)
    (scope : SignScope) : Bool :=
  scope.grantable && grant.epoch = epoch && grant.publicBlob = publicBlob &&
    grant.kind = scope.kind && grant.peer.sharesGrantScope peer

structure ApprovalManager where
  expectedUid : ℕ
  nextId : RequestId
  nextGrantId : GrantId
  pending : List Pending
  grants : List Grant
  deriving DecidableEq, Repr

namespace ApprovalManager

def new (expectedUid : ℕ) : ApprovalManager := ⟨expectedUid, 1, 1, [], []⟩

variable (manager : ApprovalManager)

def expire (nowMs : ℕ) : ApprovalManager :=
  { manager with
    pending := manager.pending.filter fun request => nowMs < request.deadlineMs
    grants := manager.grants.filter fun grant => grant.expiresAtMs.all (nowMs < ·) }

def submit (epoch : ℕ) (publicBlob : Bytes) (peer : PeerContext)
    (scope : SignScope) (nowMs : ℕ) : Except ApprovalError Submit × ApprovalManager :=
  if peer.uid ≠ manager.expectedUid then (.error .wrongUid, manager) else
  let manager := manager.expire nowMs
  if manager.grants.any (grantCovers · epoch publicBlob peer scope) then
    (.ok (.granted ⟨epoch, publicBlob⟩), manager) else
  if manager.pending.length ≥ maxPending then (.error .queueFull, manager) else
  match checkedAdd manager.nextId 1 with
  | none => (.error .idExhausted, manager)
  | some next =>
    (.ok (.pending manager.nextId),
      { manager with
        nextId := next
        pending := manager.pending ++ [⟨manager.nextId, epoch, publicBlob, peer, scope,
          satAdd nowMs requestLifetimeMs⟩] })

/-- When a grant of this duration, opened now, expires; `once` opens none. -/
def expiry (nowMs : ℕ) : GrantDuration → Option ℕ
  | .seconds seconds => some (satAdd nowMs (satMul (min seconds maxGrantSeconds) 1000))
  | .untilScreenLock => none
  | .once => none

def approve (id : RequestId) (duration : GrantDuration)
    (nowMs : ℕ) : Except ApprovalError Authorization × ApprovalManager :=
  let manager := manager.expire nowMs
  match manager.pending.find? (·.id = id) with
  | none => (.error .unknownRequest, manager)
  | some request =>
    let manager := { manager with pending := manager.pending.eraseP (·.id = id) }
    -- A request that may not open a grant is approved once, whatever window came back.
    if duration ≠ .once ∧ duration ≠ .seconds 0 ∧ request.scope.grantable then
      match checkedAdd manager.nextGrantId 1 with
      | none => (.error .idExhausted, manager)
      | some next =>
        (.ok ⟨request.epoch, request.publicBlob⟩,
          { manager with
            nextGrantId := next
            grants := manager.grants ++ [⟨manager.nextGrantId, request.publicBlob, request.peer,
              request.scope.kind, request.epoch, expiry nowMs duration⟩] })
    else (.ok ⟨request.epoch, request.publicBlob⟩, manager)

/-- Some live grant answers this queued request. -/
def covers (request : Pending) : Bool :=
  manager.grants.any
    (grantCovers · request.epoch request.publicBlob request.peer request.scope)

def releaseGranted (nowMs : ℕ) :
    List (RequestId × Authorization) × ApprovalManager :=
  let manager := manager.expire nowMs
  ((manager.pending.filter manager.covers).map
      fun request => (request.id, ⟨request.epoch, request.publicBlob⟩),
    { manager with pending := manager.pending.filter fun request => !manager.covers request })

def disconnect (id : RequestId) : ApprovalManager :=
  { manager with pending := manager.pending.filter (·.id ≠ id) }

def invalidateAll : ApprovalManager :=
  { manager with pending := [], grants := [] }

def revokeGrant (id : GrantId) : ApprovalManager :=
  { manager with grants := manager.grants.filter (·.id ≠ id) }

def revokeAllGrants : ApprovalManager := { manager with grants := [] }

def reserveRequestId :
    Except ApprovalError RequestId × ApprovalManager :=
  match checkedAdd manager.nextId 1 with
  | none => (.error .idExhausted, manager)
  | some next => (.ok manager.nextId, { manager with nextId := next })

def expectsUid (uid : ℕ) : Bool := uid = manager.expectedUid

def capacityRemaining (held : ℕ) : ℕ :=
  maxPending - (manager.pending.length + held)

def isPending (id : RequestId) : Bool := manager.pending.any (·.id = id)

/-! ### What each call can do -/

theorem expire_pending_subset (nowMs : ℕ) : (manager.expire nowMs).pending ⊆ manager.pending :=
  filter_subset_self _

theorem expire_grants_subset (nowMs : ℕ) : (manager.expire nowMs).grants ⊆ manager.grants :=
  filter_subset_self _

theorem mem_expire_grants {manager : ApprovalManager} {nowMs : ℕ} {grant : Grant} :
    grant ∈ (manager.expire nowMs).grants ↔
      grant ∈ manager.grants ∧ ∀ expiry, grant.expiresAtMs = some expiry → nowMs < expiry := by
  cases deadline : grant.expiresAtMs <;> simp [expire, deadline]

/-- The outcomes of `submit`. -/
inductive SubmitOutcome (manager : ApprovalManager) (epoch : ℕ) (publicBlob : Bytes)
    (peer : PeerContext) (scope : SignScope) (nowMs : ℕ) :
    Except ApprovalError Submit × ApprovalManager → Prop
  | wrongUid (differs : peer.uid ≠ manager.expectedUid) :
      SubmitOutcome manager epoch publicBlob peer scope nowMs (.error .wrongUid, manager)
  | refused (error : ApprovalError) :
      SubmitOutcome manager epoch publicBlob peer scope nowMs
        (.error error, manager.expire nowMs)
  | granted (grant : Grant) (live : grant ∈ (manager.expire nowMs).grants)
      (covered : grantCovers grant epoch publicBlob peer scope = true) :
      SubmitOutcome manager epoch publicBlob peer scope nowMs
        (.ok (.granted ⟨epoch, publicBlob⟩), manager.expire nowMs)
  | queued (expected : peer.uid = manager.expectedUid)
      (room : (manager.expire nowMs).pending.length < maxPending) :
      SubmitOutcome manager epoch publicBlob peer scope nowMs
        (.ok (.pending manager.nextId),
          { manager.expire nowMs with
            nextId := manager.nextId + 1
            pending := (manager.expire nowMs).pending ++ [⟨manager.nextId, epoch, publicBlob,
              peer, scope, satAdd nowMs requestLifetimeMs⟩] })

theorem submit_outcome (epoch : ℕ) (publicBlob : Bytes)
    (peer : PeerContext) (scope : SignScope) (nowMs : ℕ) :
    SubmitOutcome manager epoch publicBlob peer scope nowMs
      (manager.submit epoch publicBlob peer scope nowMs) := by
  unfold submit
  split_ifs with differs
  · exact .wrongUid differs
  dsimp only
  split_ifs with covered full
  · obtain ⟨grant, live, covers⟩ := any_eq_true.mp covered
    exact .granted grant live covers
  · exact .refused _
  · split
    · exact .refused _
    · next next added =>
      rw [checkedAdd_eq_some added]
      exact .queued (not_not.mp differs) (Nat.lt_of_not_le full)

/-- The outcomes of `approve`. -/
inductive ApproveOutcome (manager : ApprovalManager) (id : RequestId) (duration : GrantDuration)
    (nowMs : ℕ) : Except ApprovalError Authorization × ApprovalManager → Prop
  | unknown (absent : ∀ request ∈ (manager.expire nowMs).pending, request.id ≠ id) :
      ApproveOutcome manager id duration nowMs (.error .unknownRequest, manager.expire nowMs)
  | exhausted :
      ApproveOutcome manager id duration nowMs
        (.error .idExhausted,
          { manager.expire nowMs with
            pending := (manager.expire nowMs).pending.eraseP (·.id = id) })
  | approvedOnce (request : Pending) (mem : request ∈ (manager.expire nowMs).pending)
      (named : request.id = id) :
      ApproveOutcome manager id duration nowMs
        (.ok ⟨request.epoch, request.publicBlob⟩,
          { manager.expire nowMs with
            pending := (manager.expire nowMs).pending.eraseP (·.id = id) })
  | opened (request : Pending) (mem : request ∈ (manager.expire nowMs).pending)
      (named : request.id = id) (lasting : duration ≠ .once ∧ duration ≠ .seconds 0)
      (grantable : request.scope.grantable = true) :
      ApproveOutcome manager id duration nowMs
        (.ok ⟨request.epoch, request.publicBlob⟩,
          { manager.expire nowMs with
            pending := (manager.expire nowMs).pending.eraseP (·.id = id)
            nextGrantId := manager.nextGrantId + 1
            grants := (manager.expire nowMs).grants ++ [⟨manager.nextGrantId, request.publicBlob,
              request.peer, request.scope.kind, request.epoch, expiry nowMs duration⟩] })

theorem approve_outcome (id : RequestId) (duration : GrantDuration) (nowMs : ℕ) :
    ApproveOutcome manager id duration nowMs (manager.approve id duration nowMs) := by
  unfold approve
  dsimp only
  split
  · next absent => exact .unknown (by simpa using absent)
  · next request found =>
    have mem := mem_of_find?_eq_some found
    have named : request.id = id := by simpa using find?_some found
    split_ifs with opens
    · split
      · exact .exhausted
      · next next added =>
        rw [checkedAdd_eq_some added]
        exact .opened request mem named ⟨opens.1, opens.2.1⟩ opens.2.2
    · exact .approvedOnce request mem named

theorem mem_releaseGranted {manager : ApprovalManager} {nowMs : ℕ} {id : RequestId}
    {authorization : Authorization}
    (released : (id, authorization) ∈ (manager.releaseGranted nowMs).1) :
    ∃ request ∈ manager.pending, ∃ grant ∈ (manager.expire nowMs).grants,
      request.id = id ∧ authorization = ⟨request.epoch, request.publicBlob⟩ ∧
      grantCovers grant request.epoch request.publicBlob request.peer request.scope = true := by
  simp only [releaseGranted, mem_map, mem_filter, Prod.mk.injEq] at released
  obtain ⟨request, ⟨mem, covered⟩, named, rfl⟩ := released
  obtain ⟨grant, live, covers⟩ := any_eq_true.mp covered
  exact ⟨request, expire_pending_subset _ _ mem, grant, live, named, rfl, covers⟩

end ApprovalManager

theorem grantCovers_iff {grant : Grant} {epoch : ℕ} {publicBlob : Bytes} {peer : PeerContext}
    {scope : SignScope} :
    grantCovers grant epoch publicBlob peer scope = true ↔
      scope.grantable = true ∧ grant.epoch = epoch ∧ grant.publicBlob = publicBlob ∧
        grant.kind = scope.kind ∧ grant.peer.uid = peer.uid ∧
        grant.peer.executable = peer.executable := by
  simp [grantCovers, PeerContext.sharesGrantScope, and_assoc]

end QsBitwarden.Agent
