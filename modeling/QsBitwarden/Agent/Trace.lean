import QsBitwarden.Agent.Companion

/-! Owns what the companion's log says: which request a reply belongs to, which
approve named it, where a grant comes from and since when the vault is open; and the
invariant that ties the loop's collections to it. It does not own the steps that
preserve the invariant. -/

namespace QsBitwarden.Agent

open Lib List Option Entry

/-! ### Reading the log -/

namespace Entry

def control? : Entry → Option ControlMessage
  | .received (.control message) => some message
  | _ => none

/-- `vault_locked` or `vault_logged_out` was received. -/
def endsVault (entry : Entry) : Bool :=
  match entry.control? with
  | some (.vaultLocked _) => true
  | some .vaultLoggedOut => true
  | _ => false

def beginsLoad (entry : Entry) : Bool :=
  match entry.control? with
  | some (.keyLoadBegin _ _) => true
  | _ => false

def revokesAll (entry : Entry) : Bool := entry.control? = some .revokeGrants

/-- A message after which a grant with this id answers nothing. -/
def revokes (id : GrantId) (entry : Entry) : Bool :=
  entry.endsVault || entry.beginsLoad || entry.revokesAll ||
    entry.control? = some (.revokeGrant id)

/-- Something after which nothing is signed until a load publishes: the vault ends, a load
begins, or one fails. -/
def closes (entry : Entry) : Bool :=
  entry.endsVault || entry.beginsLoad ||
    match entry with
    | .failedLoad _ => true
    | .received (.control (.keyLoadEnd _ .failed)) => true
    | _ => false

def announcedId : Entry → Option RequestId
  | .emitted (.approvalRequired _ request) => some request.requestId
  | .emitted (.unlockRequired _ request) => some request.requestId
  | _ => none

def namedId : Entry → Option RequestId
  | .named id _ => some id
  | _ => none

/-- An entry that receives no control message and ends no load. -/
def calm (entry : Entry) : Bool := entry.control?.isNone && !entry.closes

def signs : Entry → Bool
  | .replied _ response _ => carriesSignature response
  | _ => false

/-- A calm entry that neither signs, names nor announces. -/
def plain (entry : Entry) : Bool :=
  entry.calm && !entry.signs && entry.namedId.isNone && entry.announcedId.isNone

end Entry

/-- The time of the last clock reading. -/
def lastClock : List Entry → ℕ
  | [] => 0
  | .clock nowMs :: _ => nowMs
  | _ :: past => lastClock past

/-- The control messages received, most recent first. -/
def controls (log : List Entry) : List ControlMessage := log.filterMap control?

/-- The first control message, if any, is `hello`. -/
def HelloFirst (log : List Entry) : Prop :=
  ∀ message, (controls log).getLast? = some message → message = .hello

/-- The sign request behind a reply channel: key, data, flags, peer and scope. -/
def Asks (env : Env) (log : List Entry) (reply : ReplyId) (publicBlob message : Bytes)
    (flags : ℕ) (peer : PeerContext) (scope : SignScope) : Prop :=
  ∃ event, .asked reply event ∈ log ∧ event.request = .sign publicBlob message flags ∧
    event.peer = peer ∧ requestScope env event publicBlob message = scope

/-! ### Consent -/

/-- An approve message with an id that named this request. -/
def Approves (id : RequestId) (reply : ReplyId) (duration : GrantDuration) (entry : Entry)
    (past : List Entry) : Prop :=
  entry = .received (.control (.approve id duration)) ∧ .named id reply ∈ past

/-- Some approve message named this very request. -/
def ApprovedByName (reply : ReplyId) (log : List Entry) : Prop :=
  Since (fun entry past => ∃ id duration, Approves id reply duration entry past)
    (fun _ => True) log

/-- The approval recorded with a held request: no lock or logout since, and unless it has
become single-use no `revoke_grants` either. -/
def ApprovalStands (id : RequestId) (reply : ReplyId) (duration : GrantDuration)
    (log : List Entry) : Prop :=
  Since (fun entry past => ∃ given, Approves id reply given entry past ∧
      (duration = given ∨ duration = .once))
    (fun entry => entry.endsVault = false ∧ (duration ≠ .once → entry.revokesAll = false)) log

/-- The user approved such a request for this long. Since the approve message the vault did
not end and grants were not revoked; a load began only if the request was held, and then it
has been released. -/
def LastingConsent (env : Env) (duration : GrantDuration) (publicBlob : Bytes)
    (peer : PeerContext) (scope : SignScope) (log : List Entry) : Prop :=
  ∃ id reply message flags, Asks env log reply publicBlob message flags peer scope ∧
    (Since (Approves id reply duration)
        (fun entry => entry.endsVault = false ∧ entry.revokesAll = false ∧
          entry.beginsLoad = false) log ∨
      (.emitted (.requestCancelled id .released) ∈ log ∧
        Since (Approves id reply duration)
          (fun entry => entry.endsVault = false ∧ entry.revokesAll = false) log))

/-- How a grant comes to be opened: by approving, for a lasting duration, a request that is
neither forwarded nor of unknown kind. -/
def Opening (env : Env) (grant : Grant) (duration : GrantDuration) (past : List Entry) : Prop :=
  duration ≠ .once ∧ duration ≠ .seconds 0 ∧
  grant.expiresAtMs = ApprovalManager.expiry (lastClock past) duration ∧
  ∃ scope, scope.grantable = true ∧ grant.kind = scope.kind ∧
    LastingConsent env duration grant.publicBlob grant.peer scope past

/-- A grant was opened, and nothing has revoked it since. -/
def GrantTraced (env : Env) (grant : Grant) (log : List Entry) : Prop :=
  Since (fun entry past => ∃ duration, entry = .opened grant duration ∧
      Opening env grant duration past)
    (fun entry => entry.revokes grant.id = false) log

/-- A live grant answers this request at this epoch. -/
def CoveredByGrant (env : Env) (epoch : ℕ) (publicBlob : Bytes) (peer : PeerContext)
    (scope : SignScope) (log : List Entry) : Prop :=
  ∃ grant, GrantTraced env grant log ∧ grantCovers grant epoch publicBlob peer scope = true ∧
    ∀ expiry, grant.expiresAtMs = some expiry → lastClock log < expiry

/-- A reply that carries a signature answers a sign request that was approved by name or
is covered by a live grant. -/
def Justified (env : Env) (entry : Entry) (past : List Entry) : Prop :=
  ∀ reply response epoch, entry = .replied reply response epoch →
    carriesSignature response = true →
    ∃ publicBlob message flags peer scope,
      Asks env past reply publicBlob message flags peer scope ∧
      (ApprovedByName reply past ∨ CoveredByGrant env epoch publicBlob peer scope past)

/-! ### The open vault -/

/-- `key_load_begin` was received for this load, and nothing has closed it since. -/
def BegunSince (epoch : ℕ) (loadId : String) (log : List Entry) : Prop :=
  Since (fun entry _ => entry = .received (.control (.keyLoadBegin epoch loadId)))
    (fun entry => entry.closes = false) log

/-- A load's own payload was published, and nothing has closed the vault since. -/
def OpenSince (env : Env) (log : List Entry) : Prop :=
  Since (fun entry past => ∃ epoch payload loadId, entry = .published epoch payload ∧
      NamesLoad env.fromSlice payload loadId ∧ BegunSince epoch loadId past)
    (fun entry => entry.closes = false) log

/-- A reply that carries a signature is sent while the vault is open. -/
def SignedOpen (env : Env) (entry : Entry) (past : List Entry) : Prop :=
  ∀ reply response epoch, entry = .replied reply response epoch →
    carriesSignature response = true → OpenSince env past

/-! ### The invariant -/

/-- What holds of every log, also one the loop has stopped on: its signatures are accounted
for, and each id below the next is announced and named at most once. -/
structure Recorded (env : Env) (nextId : RequestId) (log : List Entry) : Prop where
  justified : Throughout (Justified env) log
  signed : HelloFirst log → Throughout (SignedOpen env) log
  announcedOnce : (log.filterMap announcedId).Nodup
  namedOnce : (log.filterMap namedId).Nodup
  announcedIds : ∀ id ∈ log.filterMap announcedId, id < nextId
  namedIds : ∀ id ∈ log.filterMap namedId, id < nextId

/-- A waiting signature belongs to a request its id names; the queue has the same request
under that id, if it still has it. -/
def PendingLinked (env : Env) (log : List Entry) (queue : List Pending) (id : RequestId)
    (sign : PendingSign) : Prop :=
  .named id sign.reply ∈ log ∧
  ∃ publicBlob peer scope, Asks env log sign.reply publicBlob sign.message sign.flags peer scope ∧
    ∀ request ∈ queue, request.id = id →
      request.publicBlob = publicBlob ∧ request.peer = peer ∧ request.scope = scope

/-- A held request is the one its id names, and its approval was given by that id. -/
def HeldLinked (env : Env) (log : List Entry) (id : RequestId) (request : HeldSign) : Prop :=
  .named id request.reply ∈ log ∧
  Asks env log request.reply request.publicBlob request.message request.flags request.peer
    request.scope ∧
  ∀ duration, request.approved = some duration → ApprovalStands id request.reply duration log

/-- The gate, the store, the active load and the queues agree. -/
structure Gate (env : Env) (c : Companion env) : Prop where
  handshake : controls c.log ≠ [] → c.handshakeComplete = true
  loading : ∀ load, c.activeLoad = some load →
    c.gateOpen = false ∧ c.pending.entries = [] ∧ c.approvals.pending = [] ∧
    controls c.log ≠ [] ∧ ∃ loadId nonce, parseNonce loadId = some nonce ∧
      load.window = ⟨load.epoch, some nonce⟩ ∧ BegunSince load.epoch loadId c.log
  openSince : c.store.state = .unlocked → c.activeLoad = none → OpenSince env c.log

/-- The invariant of the loop, with the held requests taken out of the map and not yet
released. -/
structure Inv (env : Env) (hand : List (RequestId × HeldSign)) (c : Companion env) : Prop where
  recorded : Recorded env c.approvals.nextId c.log
  pendingLinked : ∀ entry ∈ c.pending.entries,
    PendingLinked env c.log c.approvals.pending entry.1 entry.2
  heldLinked : ∀ entry ∈ c.held.entries, HeldLinked env c.log entry.1 entry.2
  handLinked : ∀ entry ∈ hand, HeldLinked env c.log entry.1 entry.2
  grantsTraced : ∀ grant ∈ c.approvals.grants, GrantTraced env grant c.log
  queueIds : ∀ request ∈ c.approvals.pending, request.id < c.approvals.nextId
  grantIds : ∀ grant ∈ c.approvals.grants, grant.id < c.approvals.nextGrantId
  gate : HelloFirst c.log → Gate env c

/-! ### Adding calm entries -/

section Calm

variable {env : Env} {entry : Entry} {log new : List Entry} {nextId : RequestId}

theorem Entry.plain_iff : entry.plain = true ↔
    entry.calm = true ∧ entry.signs = false ∧ entry.namedId = none ∧ entry.announcedId = none := by
  simp [plain, and_assoc]

theorem Entry.control?_of_calm (calm : entry.calm = true) : entry.control? = none := by
  simpa using (Bool.and_eq_true_iff.mp calm).1

theorem Entry.closes_of_calm (calm : entry.calm = true) : entry.closes = false := by
  simpa using (Bool.and_eq_true_iff.mp calm).2

section

variable (none : entry.control? = none)

include none

theorem Entry.endsVault_of_control? : entry.endsVault = false := by
  simp [endsVault, none]

theorem Entry.beginsLoad_of_control? :
    entry.beginsLoad = false := by
  simp [beginsLoad, none]

theorem Entry.revokesAll_of_control? :
    entry.revokesAll = false := by
  simp [revokesAll, none]

theorem Entry.revokes_of_control? (id : GrantId) :
    entry.revokes id = false := by
  simp [revokes, endsVault, beginsLoad, revokesAll, none]

end

theorem filterMap_append_of_none {Value : Type*} {read : Entry → Option Value}
    (none : ∀ entry ∈ new, read entry = none) :
    (new ++ log).filterMap read = log.filterMap read := by
  rw [filterMap_append, filterMap_eq_nil_iff.mpr none, nil_append]

theorem controls_append_calm (calm : ∀ entry ∈ new, entry.calm = true) :
    controls (new ++ log) = controls log :=
  filterMap_append_of_none fun entry mem => control?_of_calm (calm entry mem)

theorem helloFirst_append_calm (calm : ∀ entry ∈ new, entry.calm = true) :
    HelloFirst (new ++ log) ↔ HelloFirst log := by
  rw [HelloFirst, HelloFirst, controls_append_calm calm]

theorem Asks.mono {log log' : List Entry} {reply : ReplyId} {publicBlob message : Bytes}
    {flags : ℕ} {peer : PeerContext} {scope : SignScope}
    (asks : Asks env log reply publicBlob message flags peer scope) (subset : log ⊆ log') :
    Asks env log' reply publicBlob message flags peer scope := by
  obtain ⟨event, mem, rest⟩ := asks
  exact ⟨event, subset mem, rest⟩

theorem GrantTraced.append {grant : Grant} (traced : GrantTraced env grant log)
    (none : ∀ entry ∈ new, entry.control? = none) : GrantTraced env grant (new ++ log) :=
  Since.append (fun entry mem => revokes_of_control? (none entry mem) _) traced

theorem ApprovalStands.append {id : RequestId} {reply : ReplyId} {duration : GrantDuration}
    (stands : ApprovalStands id reply duration log)
    (none : ∀ entry ∈ new, entry.control? = none) :
    ApprovalStands id reply duration (new ++ log) :=
  Since.append (fun entry mem => ⟨endsVault_of_control? (none entry mem),
    fun _ => revokesAll_of_control? (none entry mem)⟩) stands

theorem LastingConsent.append {duration : GrantDuration} {publicBlob : Bytes}
    {peer : PeerContext} {scope : SignScope}
    (consent : LastingConsent env duration publicBlob peer scope log)
    (none : ∀ entry ∈ new, entry.control? = none) :
    LastingConsent env duration publicBlob peer scope (new ++ log) := by
  obtain ⟨id, reply, message, flags, asks, given⟩ := consent
  refine ⟨id, reply, message, flags, asks.mono (subset_append_right _ _), ?_⟩
  rcases given with direct | ⟨released, early⟩
  · refine .inl (Since.append (fun entry mem => ?_) direct)
    exact ⟨endsVault_of_control? (none entry mem),
      revokesAll_of_control? (none entry mem),
      beginsLoad_of_control? (none entry mem)⟩
  · refine .inr ⟨mem_append_right _ released, Since.append (fun entry mem => ?_) early⟩
    exact ⟨endsVault_of_control? (none entry mem),
      revokesAll_of_control? (none entry mem)⟩

theorem HeldLinked.append {id : RequestId} {request : HeldSign}
    (linked : HeldLinked env log id request) (none : ∀ entry ∈ new, entry.control? = none) :
    HeldLinked env (new ++ log) id request :=
  ⟨mem_append_right _ linked.1, linked.2.1.mono (subset_append_right _ _),
    fun duration approved => (linked.2.2 duration approved).append none⟩

variable {id : RequestId}

theorem PendingLinked.mono {log log' : List Entry} {queue queue' : List Pending}
    {sign : PendingSign} (linked : PendingLinked env log queue id sign) (logs : log ⊆ log')
    (queues : ∀ request ∈ queue', request.id = id → request ∈ queue) :
    PendingLinked env log' queue' id sign := by
  obtain ⟨named, publicBlob, peer, scope, asks, queued⟩ := linked
  exact ⟨logs named, publicBlob, peer, scope, asks.mono logs,
    fun request mem same => queued request (queues request mem same) same⟩

theorem BegunSince.append {epoch : ℕ} {loadId : String} (begun : BegunSince epoch loadId log)
    (calm : ∀ entry ∈ new, entry.closes = false) : BegunSince epoch loadId (new ++ log) :=
  Since.append calm begun

theorem OpenSince.append (opened : OpenSince env log)
    (calm : ∀ entry ∈ new, entry.closes = false) : OpenSince env (new ++ log) :=
  Since.append calm opened

theorem Entry.justified_of_not_signs (unsigned : entry.signs = false) (past : List Entry) :
    Justified env entry past := by
  rintro reply response epoch rfl carries
  simp [signs, carries] at unsigned

theorem Entry.signedOpen_of_not_signs (unsigned : entry.signs = false) (past : List Entry) :
    SignedOpen env entry past := by
  rintro reply response epoch rfl carries
  simp [signs, carries] at unsigned

theorem helloFirst_of_cons (hello : HelloFirst (entry :: log)) : HelloFirst log := by
  intro message last
  apply hello
  unfold controls at last ⊢
  cases read : entry.control? with
  | none => rw [filterMap_cons_none read, last]
  | some other => rw [filterMap_cons_some read, List.getLast?_cons, last, getD_some]

theorem helloFirst_of_append (hello : HelloFirst (new ++ log)) : HelloFirst log := by
  induction new with
  | nil => exact hello
  | cons entry rest ih => exact ih (helloFirst_of_cons hello)

/-- Ids in the order of their entries, with one that may come first. -/
theorem numbered_cons {idOf : Entry → Option RequestId}
    (fresh : ∀ id, idOf entry = some id → id ∉ log.filterMap idOf ∧ id < nextId)
    (once : (log.filterMap idOf).Nodup) (below : ∀ id ∈ log.filterMap idOf, id < nextId) :
    ((entry :: log).filterMap idOf).Nodup ∧ ∀ id ∈ (entry :: log).filterMap idOf, id < nextId := by
  cases read : idOf entry with
  | none =>
    rw [filterMap_cons_none read]
    exact ⟨once, below⟩
  | some id =>
    obtain ⟨unused, small⟩ := fresh id read
    rw [filterMap_cons_some read]
    exact ⟨nodup_cons.mpr ⟨unused, once⟩, forall_mem_cons.mpr ⟨small, below⟩⟩

/-- An entry that signs nothing may announce or name an id for the first time. -/
theorem Recorded.cons (recorded : Recorded env nextId log) (unsigned : entry.signs = false)
    (announces : ∀ id, entry.announcedId = some id →
      id ∉ log.filterMap announcedId ∧ id < nextId)
    (names : ∀ id, entry.namedId = some id → id ∉ log.filterMap namedId ∧ id < nextId) :
    Recorded env nextId (entry :: log) := by
  have announced := numbered_cons announces recorded.announcedOnce recorded.announcedIds
  have named := numbered_cons names recorded.namedOnce recorded.namedIds
  exact ⟨⟨justified_of_not_signs unsigned _, recorded.justified⟩, fun hello =>
    ⟨signedOpen_of_not_signs unsigned _, recorded.signed (helloFirst_of_cons hello)⟩,
    announced.1, named.1, announced.2, named.2⟩

/-- Entries that sign, name and announce nothing. -/
theorem Recorded.append {nextId' : RequestId} (recorded : Recorded env nextId log)
    (unsigned : ∀ entry ∈ new, entry.signs = false)
    (named : ∀ entry ∈ new, entry.namedId = none)
    (announced : ∀ entry ∈ new, entry.announcedId = none) (le : nextId ≤ nextId') :
    Recorded env nextId' (new ++ log) := by
  induction new with
  | nil =>
    exact { recorded with
      announcedIds := fun id mem => (recorded.announcedIds id mem).trans_le le
      namedIds := fun id mem => (recorded.namedIds id mem).trans_le le }
  | cons entry rest ih =>
    rw [forall_mem_cons] at unsigned named announced
    exact (ih unsigned.2 named.2 announced.2).cons unsigned.1 (by simp [announced.1])
      (by simp [named.1])

section

variable (recorded : Recorded env nextId log)

include recorded

theorem Recorded.append_plain {nextId' : RequestId}
    (plain : ∀ entry ∈ new, entry.plain = true) (le : nextId ≤ nextId') :
    Recorded env nextId' (new ++ log) :=
  recorded.append (fun entry mem => (plain_iff.mp (plain entry mem)).2.1)
    (fun entry mem => (plain_iff.mp (plain entry mem)).2.2.1)
    (fun entry mem => (plain_iff.mp (plain entry mem)).2.2.2) le

theorem Recorded.received (input : Input) :
    Recorded env nextId (.received input :: log) :=
  @Recorded.append env log [.received input] _ _ recorded (by simp [signs])
    (by simp [namedId]) (by simp [announcedId]) le_rfl

end

end Calm

end QsBitwarden.Agent
