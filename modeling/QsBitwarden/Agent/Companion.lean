import Mathlib.Data.List.Sort
import QsBitwarden.Agent.Load
import QsBitwarden.Agent.Server
import QsBitwarden.Lib.Flow
import QsBitwarden.Lib.Maps

/-! Owns the state and the main loop of the companion (`main.rs`): every control
message, client event, load result and tick, with a log of what was received, read
from the clock, emitted and replied. The platform is a parameter. It does not own
what holds along a run. -/

namespace QsBitwarden.Agent

open Lib

/-! ### Messages -/

inductive LoadStatus
  | ok
  | failed
  deriving DecidableEq, Repr

/-- `control.rs`, after the version check. -/
inductive ControlMessage
  | hello
  | keyLoadBegin (epoch : ℕ) (loadId : String)
  | keyLoadEnd (epoch : ℕ) (status : LoadStatus)
  | vaultLocked (epoch : ℕ)
  | vaultLoggedOut
  | approve (requestId : RequestId) (duration : GrantDuration)
  | deny (requestId : RequestId)
  | unlockCancelled (requestId : RequestId) (reason : String)
  | options (unlockOnDemand : Bool)
  | revokeGrants
  | revokeGrant (grantId : GrantId)
  | shutdown
  deriving DecidableEq, Repr

inductive UnlockReason
  | sign
  | listIdentities
  deriving DecidableEq, Repr

inductive CancelReason
  | locked
  | loggedOut
  | loadFailed
  | shutdown
  | released
  | granted
  | withdrawn
  | cancelled
  deriving DecidableEq, Repr

/-- What `approval_required` and `unlock_required` tell the panel about a request. -/
structure Announcement where
  requestId : RequestId
  keyName : String
  fingerprint : String
  pid : ℕ
  processPath : String
  operation : String
  operationDetail : String
  hostKey : String
  forwarded : Bool
  grantOffered : Bool
  deriving DecidableEq, Repr

structure GrantView where
  grantId : GrantId
  keyName : String
  fingerprint : String
  pid : ℕ
  processPath : String
  operation : String
  operationDetail : String
  hostKey : String
  expiresInSec : Option ℕ
  untilScreenLock : Bool
  deriving DecidableEq, Repr

inductive Output
  | ready (socketPath fifoPath agentVersion : String)
  | approvalRequired (keyId : String) (request : Announcement)
  | locked (epoch : ℕ)
  | loadFailed (epoch : ℕ)
  | keysLoaded (epoch keyCount : ℕ)
  | unlockRequired (reason : UnlockReason) (request : Announcement)
  | requestCancelled (requestId : RequestId) (reason : CancelReason)
  | publicKey (epoch : ℕ) (itemId name fingerprint publicKey : String)
  | grantsChanged (grants : List GrantView)
  deriving DecidableEq, Repr

/-! ### State -/

/-- A client's one-shot reply channel, numbered in order of arrival. -/
abbrev ReplyId := ℕ

inductive RuntimeError
  | io
  | unsafeDirectory
  | unsafeFifo
  | unsafeLock
  | unsafeSocket
  | alreadyRunning
  | readTimeout
  deriving DecidableEq, Repr

structure PendingSign where
  reply : ReplyId
  message : Bytes
  flags : ℕ
  deriving DecidableEq, Repr

structure HeldSign where
  reply : ReplyId
  publicBlob : Bytes
  message : Bytes
  flags : ℕ
  peer : PeerContext
  scope : SignScope
  deadlineMs : ℕ
  approved : Option GrantDuration
  deriving DecidableEq, Repr

/-- A pre-load approval must not recreate a revoked grant. -/
def HeldSign.demoted (request : HeldSign) : HeldSign :=
  match request.approved with
  | some (.seconds _) => { request with approved := some .once }
  | some .untilScreenLock => { request with approved := some .once }
  | _ => request

structure HeldIdentities where
  requestId : RequestId
  deadlineMs : ℕ
  waiting : List ReplyId
  deriving DecidableEq, Repr

def heldLifetimeMs : ℕ := requestLifetimeMs
def loadEndGraceMs : ℕ := 5000

structure ActiveLoad where
  epoch : ℕ
  window : LoadWindow
  payload : Option (Except RuntimeError Bytes)
  endReceived : Bool
  payloadDeadlineMs : Option ℕ

/-- One turn of the loop's `select!`. -/
inductive Input
  | control (message : ControlMessage)
  | malformedControl
  | controlClosed
  | client (event : ClientEvent)
  | loadResult (epoch : ℕ) (result : Except RuntimeError Bytes)
  | tick

/-- What the loop did, one entry an action. `named`, `opened`, `published` and
`failedLoad` record steps of the state that leave no message of their own. -/
inductive Entry
  | received (input : Input)
  | asked (reply : ReplyId) (event : ClientEvent)
  | clock (nowMs : ℕ)
  | emitted (message : Output)
  | replied (reply : ReplyId) (response : Bytes) (epoch : ℕ)
  | named (id : RequestId) (reply : ReplyId)
  | opened (grant : Grant) (duration : GrantDuration)
  | published (epoch : ℕ) (payload : Bytes)
  | failedLoad (epoch : ℕ)

/-- The crates, the process's own context and the world's answers. Every answer may
depend on how far the log has got. -/
structure Env where
  ssh : SshKeyCrate
  hostKeyFingerprint : Bytes → String
  toStringLossy : Bytes → String
  fromSlice : Bytes → Option Envelope
  expectedUid : ℕ
  socketPath : String
  fifoPath : String
  agentVersion : String
  clock : ℕ → ℕ
  clock_monotone : Monotone clock
  /-- Whether the output channel takes a message. -/
  accepts : ℕ → Bool
  /-- Whether the client behind a reply channel has left. -/
  isClosed : ℕ → ReplyId → Bool
  /-- Whether the FIFO can be opened for a load. -/
  fifoReader : ℕ → Bool
  /-- The order a hash map is iterated in. -/
  order : ℕ → List RequestId → List RequestId
  order_perm : ∀ position ids, (order position ids).Perm ids

structure Companion (env : Env) where
  store : KeyStore env.ssh
  approvals : ApprovalManager
  pending : AList fun _ : RequestId => PendingSign
  held : AList fun _ : RequestId => HeldSign
  heldIdentities : Option HeldIdentities
  unlockOnDemand : Bool
  grantSnapshot : List GrantId
  activeLoad : Option ActiveLoad
  gateOpen : Bool
  handshakeComplete : Bool
  nextReply : ReplyId
  running : Bool
  log : List Entry

variable {env : Env}

/-- A stretch of the loop that `?` may end: with its state either way. -/
abbrev Flow (env : Env) := Except (Companion env) (Companion env)

namespace Companion

def initial (env : Env) : Companion env where
  store := .new
  approvals := .new env.expectedUid
  pending := ∅
  held := ∅
  heldIdentities := none
  unlockOnDemand := false
  grantSnapshot := []
  activeLoad := none
  gateOpen := false
  handshakeComplete := false
  nextReply := 0
  running := true
  log := []

/-! ### Primitive actions -/

def record (c : Companion env) (entry : Entry) : Companion env := { c with log := entry :: c.log }

/-- What `elapsed_ms` reads next; every reading is recorded. -/
def elapsedMs (c : Companion env) : ℕ := env.clock c.log.length

def readClock (c : Companion env) : Companion env := c.record (.clock c.elapsedMs)

def emit (c : Companion env) (message : Output) : Flow env :=
  if env.accepts c.log.length then .ok (c.record (.emitted message)) else .error c

/-- `reply.send(response)`, with the vault epoch of the moment. -/
def answer (c : Companion env) (reply : ReplyId) (response : Bytes) : Companion env :=
  c.record (.replied reply response c.store.epoch)

def submit (c : Companion env) (publicBlob : Bytes) (peer : PeerContext) (scope : SignScope) :
    Except ApprovalError Submit × Companion env :=
  let result := c.approvals.submit c.store.epoch publicBlob peer scope c.elapsedMs
  (result.1, { c.readClock with approvals := result.2 })

/-- The grants a call on the queue opened: those with an id not handed out before. -/
def newGrants (before after : ApprovalManager) : List Grant :=
  after.grants.filter fun grant => before.nextGrantId ≤ grant.id

def approve (c : Companion env) (id : RequestId) (duration : GrantDuration) :
    Except ApprovalError Authorization × Companion env :=
  let result := c.approvals.approve id duration c.elapsedMs
  (result.1,
    { c.readClock with
      approvals := result.2
      log := (newGrants c.approvals result.2).map (.opened · duration) ++ c.readClock.log })

/-- `pending.insert`: the id names this request from now on. -/
def insertPending (c : Companion env) (id : RequestId) (sign : PendingSign) : Companion env :=
  { c with pending := c.pending.insert id sign }.record (.named id sign.reply)

/-- `held.insert`. -/
def insertHeld (c : Companion env) (id : RequestId) (request : HeldSign) : Companion env :=
  { c with held := c.held.insert id request }.record (.named id request.reply)

end Companion

def authorizedSignature {ssh : SshKeyCrate} (store : KeyStore ssh) (authorization : Authorization)
    (message : Bytes) (flags : ℕ) : Bytes :=
  (do
    let permit ← authorization.finalize store
    let signature ← store.sign permit message flags
    signatureResponse signature).getD failureResponse

/-- The announcement of a request for a key, under the id it is asked with. -/
def announcement (env : Env) (id : RequestId) (key : PublicIdentity) (peer : PeerContext)
    (scope : SignScope) : Announcement where
  requestId := id
  keyName := visibleText key.name
  fingerprint := key.fingerprint
  pid := peer.pid
  processPath := visibleText (env.toStringLossy peer.executable)
  operation := scope.kind.operation
  operationDetail := scope.kind.detail
  hostKey := scope.kind.host
  forwarded := scope.forwarded
  grantOffered := scope.grantable

/-- What a sign request asks for, read from its data and its connection. -/
def requestScope (env : Env) (event : ClientEvent) (publicBlob message : Bytes) : SignScope :=
  ⟨classifySign env.hostKeyFingerprint publicBlob message event.binds, event.forwarded⟩

namespace Companion

/-- The entries of a hash map in the order it is iterated in. -/
def iterated {Value : Type} (c : Companion env) (map : AList fun _ : RequestId => Value) :
    List (RequestId × Value) :=
  entriesBy (env.order c.log.length map.keys) map

def findKey (c : Companion env) (publicBlob : Bytes) : Option PublicIdentity :=
  c.store.publicIdentities.find? fun key => key.publicBlob = publicBlob

/-! ### Answering and releasing -/

def failPending (c : Companion env) : Companion env :=
  (c.iterated c.pending).foldl
    (fun (c : Companion env) entry => c.answer entry.2.reply failureResponse)
    { c with pending := ∅ }

/-- `pending.remove`, with a failure if there was one. -/
def refusePending (c : Companion env) (id : RequestId) : Companion env :=
  match c.pending.lookup id with
  | some sign => { c with pending := c.pending.erase id }.answer sign.reply failureResponse
  | none => c

/-- `held.remove`, with a failure if there was one. -/
def refuseHeld (c : Companion env) (id : RequestId) : Companion env :=
  match c.held.lookup id with
  | some request => { c with held := c.held.erase id }.answer request.reply failureResponse
  | none => c

def cancelHeld (c : Companion env) (reason : CancelReason) : Flow env :=
  (c.iterated c.held).foldlM
    (fun (c : Companion env) entry =>
      (c.answer entry.2.reply failureResponse).emit (.requestCancelled entry.1 reason))
    { c with held := ∅ }

def releaseHeldIdentities (c : Companion env) (reason : CancelReason) : Flow env :=
  match c.heldIdentities with
  | none => .ok c
  | some waiters =>
    let response := identitiesResponse
      (c.store.publicIdentities.map fun key => (key.publicBlob, key.name))
    (waiters.waiting.foldl (fun (c : Companion env) reply => c.answer reply response)
      { c with heldIdentities := none }).emit (.requestCancelled waiters.requestId reason)

/-- Ask the panel about a queued request; without its public key it is dropped again.
`handle_client` and `release_held` share this arm. -/
def askApproval (c : Companion env) (id : RequestId) (publicBlob : Bytes) (peer : PeerContext)
    (scope : SignScope) (sign : PendingSign) : Flow env :=
  match c.findKey publicBlob with
  | none =>
    .ok ({ c with approvals := c.approvals.disconnect id }.answer sign.reply failureResponse)
  | some key => do
    let c ← c.emit (.approvalRequired key.itemId (announcement env id key peer scope))
    pure (c.insertPending id sign)

/-- Answers one queued request a grant now covers. -/
def settleOne (c : Companion env) (released : RequestId × Authorization) : Flow env :=
  (match c.pending.lookup released.1 with
    | some sign =>
      { c with pending := c.pending.erase released.1 }.answer sign.reply
        (authorizedSignature c.store released.2 sign.message sign.flags)
    | none => c).emit (.requestCancelled released.1 .granted)

def settleGranted (c : Companion env) : Flow env :=
  let result := c.approvals.releaseGranted c.elapsedMs
  result.1.foldlM settleOne { c.readClock with approvals := result.2 }

/-- A held request approved while the keys were loading: submitted at the new epoch, and
the approval consumed. -/
def releaseApproved (c : Companion env) (request : HeldSign) (duration : GrantDuration) :
    Companion env :=
  match c.submit request.publicBlob request.peer request.scope with
  | (.ok (.granted authorization), c) =>
    c.answer request.reply
      (authorizedSignature c.store authorization request.message request.flags)
  | (.ok (.pending id), c) =>
    match c.approve id duration with
    | (.ok authorization, c) =>
      c.answer request.reply
        (authorizedSignature c.store authorization request.message request.flags)
    | (.error _, c) => c.answer request.reply failureResponse
  | (.error _, c) => c.answer request.reply failureResponse

/-- A held request not yet approved goes through the ordinary approval path. -/
def releaseUnapproved (c : Companion env) (request : HeldSign) : Flow env :=
  match c.submit request.publicBlob request.peer request.scope with
  | (.ok (.granted authorization), c) =>
    .ok (c.answer request.reply
      (authorizedSignature c.store authorization request.message request.flags))
  | (.ok (.pending id), c) =>
    c.askApproval id request.publicBlob request.peer request.scope
      ⟨request.reply, request.message, request.flags⟩
  | (.error _, c) => .ok (c.answer request.reply failureResponse)

def releaseOne (c : Companion env) (entry : RequestId × HeldSign) : Flow env := do
  let c ← c.emit (.requestCancelled entry.1 .released)
  if (c.store.authorize entry.2.publicBlob).isNone then
    .ok (c.answer entry.2.reply failureResponse)
  else
    match entry.2.approved with
    | some duration => .ok (c.releaseApproved entry.2 duration)
    | none => c.releaseUnapproved entry.2

/-- In the order they were raised, so that the panel's prompt and the approval it is
paired with agree on the request. -/
def releaseHeld (c : Companion env) : Flow env := do
  let released := (c.held.entries.map fun entry => (entry.1, entry.2)).insertionSort
    fun left right => left.1 ≤ right.1
  let c ← released.foldlM releaseOne { c with held := ∅ }
  c.settleGranted

/-! ### Loads -/

inductive LoadOutcome
  | pending
  | published
  | failed
  deriving DecidableEq, Repr

def cancelLoad (c : Companion env) : Companion env := { c with activeLoad := none }

/-- Decode and publish the payload of a load; the store may have moved on a failure. -/
def loadKeys (store : KeyStore env.ssh) (load : ActiveLoad) (payload : Except RuntimeError Bytes) :
    Option (Bytes × LoadReport) × KeyStore env.ssh :=
  match payload with
  | .error _ => (none, store)
  | .ok bytes =>
    match load.window.decode env.fromSlice bytes store with
    | (.error _, _, store) => (none, store)
    | (.ok candidate, _, store) =>
      match store.publish candidate with
      | (.error _, store) => (none, store)
      | (.ok report, store) => (some (bytes, report), store)

/-- Announce the published keys, before `keys_loaded`. -/
def announceKeys (c : Companion env) (epoch loaded : ℕ) : Flow env := do
  let c ← c.store.publicIdentities.foldlM
    (fun c key => c.emit (.publicKey epoch key.itemId key.name key.fingerprint
      key.publicKeyOpenssh)) c
  c.emit (.keysLoaded epoch loaded)

def settleLoad (c : Companion env) : LoadOutcome → Flow env
  | .pending => .ok c
  | .published => do
    let c ← c.releaseHeld
    c.releaseHeldIdentities .released
  | .failed => do
    let c ← c.cancelHeld .loadFailed
    c.releaseHeldIdentities .loadFailed

/-- `settle_load(finish_load_if_ready(..))`, as every caller has it. -/
def finishLoadIfReady (c : Companion env) : Flow env :=
  match c.activeLoad with
  | none => .ok c
  | some load =>
    match load.endReceived, load.payload with
    | true, some payload =>
      match loadKeys c.store load payload with
      | (some (bytes, report), store) => do
        let c := { c with activeLoad := none, store := store, gateOpen := true }
        let c ← (c.record (.published load.epoch bytes)).announceKeys load.epoch report.loaded
        c.settleLoad .published
      | (none, store) => do
        let c := { c with activeLoad := none, store := store.lock load.epoch, gateOpen := false }
        let c ← (c.record (.failedLoad load.epoch)).emit (.loadFailed load.epoch)
        c.settleLoad .failed
    | _, _ => c.settleLoad .pending

/-! ### Control messages -/

/-- The end of `run`: what is still waiting is refused, whether or not the panel hears. -/
def exit (c : Companion env) : Companion env :=
  let c := { c with approvals := c.approvals.invalidateAll }.cancelLoad.failPending
  let c := ending (c.cancelHeld .shutdown)
  let c := ending (c.releaseHeldIdentities .shutdown)
  { c with store := c.store.logout (satAdd c.store.epoch 1), running := false }

/-- What `vault_locked` and `vault_logged_out` share: every request is refused. -/
def closeVault (c : Companion env) (store : KeyStore env.ssh) (reason : CancelReason) :
    Flow env := do
  let c := { c.cancelLoad with
    gateOpen := false, store := store, approvals := c.approvals.invalidateAll }.failPending
  let c ← c.cancelHeld reason
  c.releaseHeldIdentities reason

/-- A pending request is approved and answered, and what a new grant answers is settled. -/
def consent (c : Companion env) (id : RequestId) (sign : PendingSign) (duration : GrantDuration) :
    Flow env :=
  let c := { c with pending := c.pending.erase id }
  let c := match c.approve id duration with
    | (.ok authorization, c) =>
      c.answer sign.reply (authorizedSignature c.store authorization sign.message sign.flags)
    | (.error _, c) => c.answer sign.reply failureResponse
  if duration ≠ .once then c.settleGranted else .ok c

def onApprove (c : Companion env) (id : RequestId) (duration : GrantDuration) : Flow env :=
  match c.held.lookup id with
  | some request =>
    -- Still waiting on a load: the approval is recorded and applied when the keys arrive.
    .ok { c with held := c.held.insert id { request with approved := some duration } }
  | none =>
    match c.pending.lookup id with
    | none => .ok c
    | some sign => c.consent id sign duration

/-- `deny` and `unlock_cancelled`. The panel asked, so nothing is withdrawn from it. -/
def onDeny (c : Companion env) (id : RequestId) : Flow env :=
  let c := ({ c with approvals := c.approvals.disconnect id }.refusePending id).refuseHeld id
  if c.heldIdentities.any (·.requestId = id) then c.releaseHeldIdentities .cancelled else .ok c

def onRevokeGrants (c : Companion env) : Companion env :=
  { c with
    approvals := c.approvals.revokeAllGrants
    held := ⟨c.held.entries.map fun entry => ⟨entry.1, HeldSign.demoted entry.2⟩, by
      have nodup := c.held.nodupKeys
      unfold List.NodupKeys at nodup ⊢
      simpa [List.keys, Function.comp_def] using nodup⟩ }

def onKeyLoadBegin (c : Companion env) (epoch : ℕ) (loadId : String) : Flow env :=
  if c.activeLoad.isSome then .error c else
  let c := { c with gateOpen := false, approvals := c.approvals.invalidateAll }.failPending
  match LoadWindow.new epoch loadId with
  | .error _ => .error c
  | .ok window =>
    if env.fifoReader c.log.length then
      .ok { c with activeLoad := some ⟨epoch, window, none, false, none⟩ }
    else .error c

def onKeyLoadEnd (c : Companion env) (epoch : ℕ) (status : LoadStatus) : Flow env :=
  match c.activeLoad with
  | none => .error c
  | some load =>
    if load.epoch ≠ epoch then .error c else
    match status with
    | .failed => do
      let c := { c.cancelLoad with store := c.store.lock epoch, gateOpen := false }
      let c ← c.cancelHeld .loadFailed
      c.releaseHeldIdentities .loadFailed
    | .ok =>
      let deadline := satAdd c.elapsedMs loadEndGraceMs
      { c.readClock with
        activeLoad := some { load with endReceived := true, payloadDeadlineMs := some deadline }
      }.finishLoadIfReady

def onControl (c : Companion env) : ControlMessage → Flow env
  | .hello =>
    if c.handshakeComplete then .error c
    else { c with handshakeComplete := true, gateOpen := true }.emit
      (.ready env.socketPath env.fifoPath env.agentVersion)
  | .vaultLocked epoch => do
    let c ← c.closeVault (c.store.lock epoch) .locked
    c.emit (.locked epoch)
  | .vaultLoggedOut => c.closeVault (c.store.logout (satAdd c.store.epoch 1)) .loggedOut
  | .approve id duration => c.onApprove id duration
  | .deny id => c.onDeny id
  | .unlockCancelled id _ => c.onDeny id
  | .options on => .ok { c with unlockOnDemand := on }
  | .revokeGrants => .ok c.onRevokeGrants
  | .revokeGrant id => .ok { c with approvals := c.approvals.revokeGrant id }
  | .shutdown => .ok c.exit
  | .keyLoadBegin epoch loadId => c.onKeyLoadBegin epoch loadId
  | .keyLoadEnd epoch status => c.onKeyLoadEnd epoch status

/-! ### Client events -/

/-- A signature asked for while the gate is closed: held for an unlock if the public cache
knows the key. -/
def holdSign (c : Companion env) (reply : ReplyId) (event : ClientEvent)
    (publicBlob message : Bytes) (flags : ℕ) : Flow env :=
  let scope := requestScope env event publicBlob message
  match c.findKey publicBlob with
  | none => .ok (c.answer reply failureResponse)
  | some key =>
    if !c.approvals.expectsUid event.peer.uid ||
        c.approvals.capacityRemaining c.held.entries.length = 0 then
      .ok (c.answer reply failureResponse) else
    match c.approvals.reserveRequestId with
    | (.error _, _) => .ok (c.answer reply failureResponse)
    | (.ok id, approvals) => do
      let c ← { c with approvals := approvals }.emit
        (.unlockRequired .sign (announcement env id key event.peer scope))
      let deadline := satAdd c.elapsedMs heldLifetimeMs
      pure (c.readClock.insertHeld id
        ⟨reply, publicBlob, message, flags, event.peer, scope, deadline, none⟩)

def askSign (c : Companion env) (reply : ReplyId) (event : ClientEvent)
    (publicBlob message : Bytes) (flags : ℕ) : Flow env :=
  let scope := requestScope env event publicBlob message
  if !c.gateOpen then c.holdSign reply event publicBlob message flags else
  if (c.store.authorize publicBlob).isNone then .ok (c.answer reply failureResponse) else
  match c.submit publicBlob event.peer scope with
  | (.ok (.granted authorization), c) =>
    .ok (c.answer reply (authorizedSignature c.store authorization message flags))
  | (.ok (.pending id), c) => c.askApproval id publicBlob event.peer scope ⟨reply, message, flags⟩
  | (.error _, c) => .ok (c.answer reply failureResponse)

def listingAnnouncement (env : Env) (id : RequestId) (event : ClientEvent) : Announcement where
  requestId := id
  keyName := ""
  fingerprint := ""
  pid := event.peer.pid
  processPath := visibleText (env.toStringLossy event.peer.executable)
  operation := ""
  operationDetail := ""
  hostKey := ""
  forwarded := event.forwarded
  grantOffered := false

def answerIdentities (c : Companion env) (reply : ReplyId) : Companion env :=
  c.answer reply (identitiesResponse
    (c.store.publicIdentities.map fun key => (key.publicBlob, key.name)))

/-- An empty cache with unlock-on-demand is the one case a listing raises a prompt. -/
def listIdentities (c : Companion env) (reply : ReplyId) (event : ClientEvent) : Flow env :=
  if c.store.publicIdentities.isEmpty && c.unlockOnDemand &&
      c.approvals.expectsUid event.peer.uid then
    match c.heldIdentities with
    | some waiters =>
      .ok { c with
        heldIdentities := some { waiters with waiting := waiters.waiting ++ [reply] } }
    | none =>
      match c.approvals.reserveRequestId with
      | (.ok id, approvals) => do
        let c ← { c with approvals := approvals }.emit
          (.unlockRequired .listIdentities (listingAnnouncement env id event))
        let deadline := satAdd c.elapsedMs heldLifetimeMs
        pure { c.readClock with heldIdentities := some ⟨id, deadline, [reply]⟩ }
      | (.error _, _) => .ok (c.answerIdentities reply)
  else .ok (c.answerIdentities reply)

def handleClient (c : Companion env) (event : ClientEvent) : Flow env :=
  let reply := c.nextReply
  let c := { c with nextReply := reply + 1 }.record (.asked reply event)
  match event.request with
  -- The server answers binds itself and never passes one on.
  | .sessionBind _ _ => .ok (c.answer reply failureResponse)
  | .identities => c.listIdentities reply event
  | .sign publicBlob message flags => c.askSign reply event publicBlob message flags

/-! ### The tick -/

def withdrawPending (c : Companion env) (id : RequestId) : Flow env :=
  ({ c with approvals := c.approvals.disconnect id }.refusePending id).emit
    (.requestCancelled id .withdrawn)

def withdrawHeld (c : Companion env) (id : RequestId) : Flow env :=
  (c.refuseHeld id).emit (.requestCancelled id .withdrawn)

def grantView (c : Companion env) (nowMs : ℕ) (grant : Grant) : GrantView where
  grantId := grant.id
  keyName := ((c.findKey grant.publicBlob).map fun key => visibleText key.name).getD ""
  fingerprint := ((c.findKey grant.publicBlob).map (·.fingerprint)).getD ""
  pid := grant.peer.pid
  processPath := visibleText (env.toStringLossy grant.peer.executable)
  operation := grant.kind.operation
  operationDetail := grant.kind.detail
  hostKey := grant.kind.host
  expiresInSec := grant.expiresAtMs.map fun expiry => (expiry - nowMs) / 1000
  untilScreenLock := grant.expiresAtMs.isNone

def emitGrantsIfChanged (c : Companion env) (nowMs : ℕ) : Flow env :=
  let current := c.approvals.grants.map Grant.id
  if current = c.grantSnapshot then .ok c
  else { c with grantSnapshot := current }.emit
    (.grantsChanged (c.approvals.grants.map (c.grantView nowMs)))

/-- A payload that has not arrived within the grace after `key_load_end` is not coming. -/
def timeOutLoad (c : Companion env) (nowMs : ℕ) : Flow env :=
  match c.activeLoad with
  | some load =>
    if load.payload.isNone && load.payloadDeadlineMs.any (· ≤ nowMs) then
      { c with activeLoad := some { load with payload := some (.error .readTimeout) }
      }.finishLoadIfReady
    else .ok c
  | none => .ok c

/-- The end of a tick: what nobody waits for any more, or has waited for too long, is withdrawn. -/
def sweep (c : Companion env) (nowMs : ℕ) : Flow env := do
  let expired := (c.iterated c.pending).filter fun entry =>
    env.isClosed c.log.length entry.2.reply || !c.approvals.isPending entry.1
  let c ← (expired.map Prod.fst).foldlM withdrawPending c
  let stale := (c.iterated c.held).filter fun entry =>
    env.isClosed c.log.length entry.2.reply || entry.2.deadlineMs ≤ nowMs
  let c ← (stale.map Prod.fst).foldlM withdrawHeld c
  let c ← if c.heldIdentities.any fun waiters =>
      waiters.deadlineMs ≤ nowMs || waiters.waiting.all (env.isClosed c.log.length)
    then c.releaseHeldIdentities .withdrawn else .ok c
  c.emitGrantsIfChanged nowMs

def onTick (c : Companion env) : Flow env := do
  let nowMs := c.elapsedMs
  let c := { c.readClock with approvals := c.approvals.expire nowMs }
  let c ← c.timeOutLoad nowMs
  c.sweep nowMs

/-! ### The loop -/

/-- A late result of a reader that was cancelled is not the active load's. -/
def onLoadResult (c : Companion env) (epoch : ℕ) (result : Except RuntimeError Bytes) :
    Flow env :=
  match c.activeLoad with
  | none => .ok c
  | some load =>
    if load.epoch ≠ epoch then .ok c
    else { c with activeLoad := some { load with payload := some result } }.finishLoadIfReady

def iterate (c : Companion env) (input : Input) : Flow env :=
  let c := c.record (.received input)
  match input with
  | .control message => c.onControl message
  | .malformedControl => .error c
  | .controlClosed => .ok c.exit
  | .client event => c.handleClient event
  | .loadResult epoch result => c.onLoadResult epoch result
  | .tick => c.onTick

/-- One turn of the loop; an error ends it. -/
def turn (c : Companion env) (input : Input) : Companion env :=
  match c.iterate input with
  | .ok c => c
  | .error c => { c with running := false }

/-- The runs of the companion from its start. -/
def system (env : Env) : System (Companion env) Input where
  init c := c = initial env
  step c input c' := c.running = true ∧ c' = c.turn input

/-! ### What the calls leave -/

theorem answerAll_eq {Item : Type*} (reply : Item → ReplyId) (response : Bytes)
    (items : List Item) (c : Companion env) :
    items.foldl (fun (c : Companion env) item => c.answer (reply item) response) c =
      { c with
        log := (items.map fun item => Entry.replied (reply item) response c.store.epoch).reverse ++
          c.log } := by
  induction items generalizing c with
  | nil => rfl
  | cons item rest ih =>
    rw [List.foldl_cons, ih]
    simp [answer, record]

theorem failPending_eq (c : Companion env) :
    c.failPending =
      { c with
        pending := ∅
        log := ((c.iterated c.pending).map fun entry =>
          Entry.replied entry.2.reply failureResponse c.store.epoch).reverse ++ c.log } :=
  answerAll_eq (fun entry : RequestId × PendingSign => entry.2.reply) _ _ _

variable {c : Companion env} {good stopped : Companion env → Prop}

theorem submit_cases {publicBlob : Bytes} {peer : PeerContext} {scope : SignScope}
    {leaves : Except ApprovalError Submit × Companion env → Prop}
    (each : ∀ result,
      c.approvals.SubmitOutcome c.store.epoch publicBlob peer scope c.elapsedMs result →
      leaves (result.1, { c.readClock with approvals := result.2 })) :
    leaves (c.submit publicBlob peer scope) :=
  each _ (c.approvals.submit_outcome _ _ _ _ _)

theorem ensures_emit {message : Output} (taken : good (c.record (.emitted message)))
    (refused : stopped c) : Ensures good stopped (c.emit message) := by
  unfold emit
  split
  · exact taken
  · exact refused

theorem emit_fields {message : Output} :
    Ensures (fun c' => c'.pending = c.pending ∧ c'.held = c.held ∧ c'.approvals = c.approvals)
      (fun _ => True) (c.emit message) :=
  ensures_emit ⟨rfl, rfl, rfl⟩ trivial

/-- A turn after which the loop goes on has run to its end. -/
theorem of_turn {input : Input} (ensures : Ensures good stopped (c.iterate input))
    (running : (c.turn input).running = true) : good (c.turn input) := by
  unfold turn at running ⊢
  cases ended : c.iterate input with
  | ok after =>
    rw [ended] at ensures
    exact ensures
  | error after =>
    rw [ended] at running
    cases running

end Companion

end QsBitwarden.Agent
