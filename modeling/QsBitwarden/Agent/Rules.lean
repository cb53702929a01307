import Mathlib.Data.Multiset.AddSub
import QsBitwarden.Agent.Companion

/-! Owns the actions the loop is made of: a property of the state, and of what the loop has in
hand, that every action keeps is kept by every function of the loop. It does not own any such
property. -/

namespace QsBitwarden.Agent

open Lib List Companion Ensures

variable {env : Env}

/-! ### What the loop has in hand -/

def Entry.output? : Entry → Option Output
  | .emitted message => some message
  | _ => none

/-- The channel a reply was sent on. -/
def Entry.repliedTo : Entry → Option ReplyId
  | .replied reply _ _ => some reply
  | _ => none

/-- A message that is about no request. -/
def Output.aside : Output → Bool
  | .approvalRequired _ _ => false
  | .unlockRequired _ _ => false
  | .requestCancelled _ _ => false
  | _ => true

/-- The result of a load. -/
def Output.result : Output → Bool
  | .keysLoaded _ _ => true
  | .loadFailed _ => true
  | _ => false

/-- Ids taken out of a map, of which the panel is yet to be told, and channels that are neither
answered nor put away. -/
structure Hand where
  taken : List RequestId
  replies : Multiset ReplyId

namespace Hand

def empty : Hand := ⟨[], 0⟩

def take (hand : Hand) (id : RequestId) : Hand := { hand with taken := id :: hand.taken }

def owe (hand : Hand) (reply : ReplyId) : Hand := { hand with replies := reply ::ₘ hand.replies }

def oweAll {Item : Type*} (hand : Hand) (reply : Item → ReplyId) (items : List Item) : Hand :=
  items.foldr (fun item hand => hand.owe (reply item)) hand

def takeAll (hand : Hand) (entries : List (RequestId × HeldSign)) : Hand :=
  entries.foldr (fun entry hand => (hand.take entry.1).owe entry.2.reply) hand

end Hand

/-! ### The actions -/

/-- Submitting a request queues it under an id, or does not. -/
def Submits (holds : Companion env → Prop) (queued : RequestId → Companion env → Prop) :
    Except ApprovalError Submit × Companion env → Prop
  | (.ok (.pending id), c) => queued id c
  | (.ok (.granted _), c) => holds c
  | (.error _, c) => holds c

namespace Companion

/-- Requests are held while the gate is closed, for a key that is known and while there is room. -/
def MayHold (c : Companion env) : Prop :=
  c.gateOpen = false ∧ c.store.publicIdentities ≠ [] ∧
    c.approvals.capacityRemaining c.held.entries.length ≠ 0

/-- A request is announced and held. -/
def hold (c : Companion env) (id : RequestId) (request : Announcement) (sign : HeldSign)
    (deadline : Companion env → ℕ) : Flow env := do
  let c ← c.emit (.unlockRequired .sign request)
  pure (c.readClock.insertHeld id { sign with deadlineMs := deadline c })

/-- A listing is announced and held. -/
def list (c : Companion env) (id : RequestId) (request : Announcement) (reply : ReplyId)
    (deadline : Companion env → ℕ) : Flow env := do
  let c ← c.emit (.unlockRequired .listIdentities request)
  pure { c.readClock with heldIdentities := some ⟨id, deadline c, [reply]⟩ }

end Companion

/-- A property that the actions which refuse, withdraw or announce keep, whatever is in hand:
`holds` between actions and `stopped` where a message is not taken. The panel need not be told
of the ids that are `silent`. -/
structure RefusalRule (silent : RequestId → Prop) (holds : Hand → Companion env → Prop)
    (stopped : Companion env → Prop) : Prop where
  snapshot : ∀ {hand c} (grants : List GrantId), holds hand c →
    holds hand { c with grantSnapshot := grants }
  say : ∀ {hand c message}, message.aside = true →
    (message.result = true → c.activeLoad = none) → holds hand c →
    Ensures (holds hand) stopped (c.emit message)
  cancel : ∀ {hand c id} (reason : CancelReason), holds (hand.take id) c →
    Ensures (holds hand) stopped (c.emit (.requestCancelled id reason))
  refuse : ∀ {hand c reply response}, carriesSignature response = false →
    holds (hand.owe reply) c → holds hand (c.answer reply response)
  pass : ∀ {hand c id}, silent id → holds (hand.take id) c → holds hand c
  shorten : ∀ {hand c} (approvals : ApprovalManager),
    approvals.pending.Sublist c.approvals.pending → approvals.grants ⊆ c.approvals.grants →
    approvals.nextId = c.approvals.nextId → approvals.nextGrantId = c.approvals.nextGrantId →
    holds hand c → holds hand { c with approvals := approvals }
  emptyPending : ∀ {hand c entries}, c.approvals.pending = [] → (∀ id ∈ c.pending, silent id) →
    entries.Perm (c.pending.entries.map fun entry => (entry.1, entry.2)) → holds hand c →
    holds (hand.oweAll (·.2.reply) entries) { c with pending := ∅ }
  emptyHeld : ∀ {hand c entries},
    entries.Perm (c.held.entries.map fun entry => (entry.1, entry.2)) → holds hand c →
    holds (hand.takeAll entries) { c with held := ∅ }
  takePending : ∀ {hand c id sign}, c.pending.lookup id = some sign →
    (∀ request ∈ c.approvals.pending, request.id ≠ id) → holds hand c →
    holds ((hand.take id).owe sign.reply) { c with pending := c.pending.erase id }
  takeHeld : ∀ {hand c id request}, c.held.lookup id = some request → holds hand c →
    holds ((hand.take id).owe request.reply) { c with held := c.held.erase id }
  takeListing : ∀ {hand c waiters}, c.heldIdentities = some waiters → holds hand c →
    holds ((hand.take waiters.requestId).oweAll id waiters.waiting)
      { c with heldIdentities := none }

/-- A rule that every action of the loop but queueing keeps. -/
structure BaseRule (silent : RequestId → Prop) (holds : Hand → Companion env → Prop)
    (stopped : Companion env → Prop) : Prop extends RefusalRule silent holds stopped where
  record : ∀ {hand c} (entry : Entry), entry.output? = none → entry.repliedTo = none →
    holds hand c → holds hand (c.record entry)
  answer : ∀ {hand c reply} (response : Bytes), holds (hand.owe reply) c →
    holds hand (c.answer reply response)
  refuse := fun _ kept => answer _ kept
  reheld : ∀ {hand c held}, (held.entries.map fun entry => (entry.1, entry.2.reply)).Perm
      (c.held.entries.map fun entry => (entry.1, entry.2.reply)) → holds hand c →
    holds hand { c with held := held }
  hold : ∀ {hand c id approvals request deadline} (sign : HeldSign),
    c.MayHold → c.approvals.reserveRequestId = (.ok id, approvals) → request.requestId = id →
    holds (hand.owe sign.reply) c →
    Ensures (holds hand) stopped ({ c with approvals := approvals }.hold id request sign deadline)
  list : ∀ {hand c id approvals request reply deadline},
    c.approvals.reserveRequestId = (.ok id, approvals) → request.requestId = id →
    c.heldIdentities = none → holds (hand.owe reply) c →
    Ensures (holds hand) stopped ({ c with approvals := approvals }.list id request reply deadline)
  join : ∀ {hand c waiters reply}, c.heldIdentities = some waiters → holds (hand.owe reply) c →
    holds hand { c with
      heldIdentities := some { waiters with waiting := waiters.waiting ++ [reply] } }

/-- A rule that queueing and approving keep too, with `queued` while a request is in the queue
and not yet pending. -/
structure Rule (silent : RequestId → Prop) (holds : Hand → Companion env → Prop)
    (queued : Hand → RequestId → Companion env → Prop) (stopped : Companion env → Prop) : Prop
    extends BaseRule silent holds stopped where
  submit : ∀ {hand c} (publicBlob : Bytes) (peer : PeerContext) (scope : SignScope),
    holds hand c →
    Submits (holds hand) (queued hand) (c.submit publicBlob peer scope)
  approve : ∀ {hand c id} (duration : GrantDuration), queued hand id c →
    holds hand (c.approve id duration).2
  ask : ∀ {hand c id publicBlob peer scope} {sign : PendingSign},
    queued (hand.owe sign.reply) id c →
    Ensures (holds hand) stopped (c.askApproval id publicBlob peer scope sign)
  approvePending : ∀ {hand c id sign} (duration : GrantDuration),
    c.pending.lookup id = some sign → holds hand c →
    holds ((hand.take id).owe sign.reply)
      ({ c with pending := c.pending.erase id }.approve id duration).2
  settle : ∀ {hand c}, holds hand c → Ensures (holds hand) stopped c.settleGranted

/-- A property that every turn keeps: what moves requests to the queue or out of it is followed
to its end. A message that closes the vault or begins a load finds the loop `ready` for it. -/
structure VaultRule (ready : Companion env → Prop) (silent : RequestId → Prop)
    (holds : Hand → Companion env → Prop) (stopped : Companion env → Prop) : Prop
    extends BaseRule silent holds stopped where
  stop : ∀ {hand c}, holds hand c → stopped c
  consent : ∀ {hand c id sign} (duration : GrantDuration), c.pending.lookup id = some sign →
    holds hand c → Ensures (holds (hand.take id)) stopped (c.consent id sign duration)
  queue : ∀ {hand c} (request : HeldSign), c.gateOpen = true →
    holds (hand.owe request.reply) c →
    Ensures (holds hand) stopped (c.releaseUnapproved request)
  publish : ∀ {hand c load} (store : KeyStore env.ssh) (bytes : Bytes) (loaded : ℕ),
    c.activeLoad = some load → holds hand c →
    Ensures (holds hand) stopped
      (({ c with activeLoad := none, store := store, gateOpen := true }.record
        (.published load.epoch bytes)).announceKeys load.epoch loaded >>= Companion.releaseHeld)
  load : ∀ {hand c load} (load' : ActiveLoad), c.activeLoad = some load → holds hand c →
    holds hand { c with activeLoad := some load' }
  fail : ∀ {hand c load} (store : KeyStore env.ssh), c.activeLoad = some load → holds hand c →
    holds hand { c with activeLoad := none, store := store, gateOpen := false }
  close : ∀ {hand c} (store : KeyStore env.ssh) (load : Option ActiveLoad), ready c →
    holds hand c →
    holds hand { c with
      store := store, activeLoad := load, gateOpen := false
      approvals := c.approvals.invalidateAll }
  hello : ∀ {hand c}, c.handshakeComplete = false → holds hand c →
    holds hand { c with handshakeComplete := true, gateOpen := true }
  options : ∀ {hand c} (on : Bool), holds hand c → holds hand { c with unlockOnDemand := on }

variable {silent : RequestId → Prop} {holds : Hand → Companion env → Prop}
  {queued : Hand → RequestId → Companion env → Prop} {stopped : Companion env → Prop}
  {ready : Companion env → Prop} {hand : Hand} {c : Companion env}

theorem disconnect_unqueued (approvals : ApprovalManager) (id : RequestId) :
    ∀ request ∈ (approvals.disconnect id).pending, request.id ≠ id := by
  intro request mem
  simpa using (mem_filter.mp mem).2

/-- Ids of a map, still to be withdrawn from it. -/
def Withdrawing {Value : Type} (rest : List RequestId) (map : AList fun _ : RequestId => Value) :
    Prop :=
  rest.Nodup ∧ ∀ id ∈ rest, id ∈ map

theorem withdrawing_iterated {Value : Type} (c : Companion env)
    (map : AList fun _ : RequestId => Value) (chosen : RequestId × Value → Bool) :
    Withdrawing (((c.iterated map).filter chosen).map Prod.fst) map := by
  have perm := (entriesBy_perm (env.order_perm c.log.length map.keys)).map Prod.fst
  have keys : ((c.iterated map).map Prod.fst).Perm map.keys := by
    refine perm.trans (List.Perm.of_eq ?_)
    rw [List.map_map, AList.keys, List.keys]
    rfl
  have sublist := (filter_sublist (p := chosen) (l := c.iterated map)).map Prod.fst
  refine ⟨(keys.nodup_iff.mpr map.keys_nodup).sublist sublist, fun id mem => ?_⟩
  exact AList.mem_keys.mpr (keys.mem_iff.mp (sublist.subset mem))

theorem Withdrawing.erase {Value : Type} {id : RequestId} {rest : List RequestId}
    {map : AList fun _ : RequestId => Value} (withdrawing : Withdrawing (id :: rest) map) :
    Withdrawing rest (map.erase id) := by
  obtain ⟨once, each⟩ := withdrawing
  rw [nodup_cons] at once
  refine ⟨once.2, fun other later => AList.mem_erase.mpr ⟨fun same => once.1 (same ▸ later), ?_⟩⟩
  exact each other (mem_cons_of_mem _ later)

theorem Withdrawing.found {Value : Type} {id : RequestId} {rest : List RequestId}
    {map : AList fun _ : RequestId => Value} (withdrawing : Withdrawing (id :: rest) map) :
    ∃ value, map.lookup id = some value :=
  Option.isSome_iff_exists.mp (AList.lookup_isSome.mpr (withdrawing.2 id mem_cons_self))

namespace RefusalRule

variable (rule : RefusalRule silent holds stopped)

include rule

/-! ### Refusing -/

theorem fail {reply : ReplyId} (kept : holds (hand.owe reply) c) :
    holds hand (c.answer reply failureResponse) :=
  rule.refuse carriesSignature_failureResponse kept

theorem refuseAll {Item : Type*} (reply : Item → ReplyId) {response : Bytes}
    (unsigned : carriesSignature response = false) {items : List Item}
    {c : Companion env} (kept : holds (hand.oweAll reply items) c) :
    holds hand
      (items.foldl (fun (c : Companion env) item => c.answer (reply item) response) c) := by
  induction items generalizing c with
  | nil => exact kept
  | cons item rest ih => exact ih (rule.refuse unsigned kept)

/-- From where the map has been emptied. -/
theorem failEmptied
    (kept : holds (hand.oweAll (·.2.reply) (c.iterated c.pending)) { c with pending := ∅ }) :
    holds hand c.failPending :=
  rule.refuseAll _ carriesSignature_failureResponse kept

theorem failPending (unqueued : c.approvals.pending = []) (silenced : ∀ id ∈ c.pending, silent id)
    (kept : holds hand c) : holds hand c.failPending :=
  rule.failEmptied (rule.emptyPending unqueued silenced (entriesBy_perm (env.order_perm _ _)) kept)

theorem refusePending {id : RequestId} (unqueued : ∀ request ∈ c.approvals.pending, request.id ≠ id)
    (silenced : silent id) (kept : holds hand c) : holds hand (c.refusePending id) := by
  unfold Companion.refusePending
  split
  · next sign found =>
    exact rule.pass silenced (rule.fail (rule.takePending found unqueued kept))
  · exact kept

theorem refuseHeld {id : RequestId} (silenced : silent id) (kept : holds hand c) :
    holds hand (c.refuseHeld id) := by
  unfold Companion.refuseHeld
  split
  · next request found => exact rule.pass silenced (rule.fail (rule.takeHeld found kept))
  · exact kept

/-- From where the map has been emptied. -/
theorem cancelEmptied (reason : CancelReason)
    (kept : holds (hand.takeAll (c.iterated c.held)) { c with held := ∅ }) :
    Ensures (holds hand) stopped (c.cancelHeld reason) :=
  ensures_foldlM (fun rest => holds (hand.takeAll rest))
    (fun _ _ _ kept => rule.cancel reason (rule.fail kept)) kept

theorem emptied (kept : holds hand c) :
    holds (hand.takeAll (c.iterated c.held)) { c with held := ∅ } :=
  rule.emptyHeld (entriesBy_perm (env.order_perm _ _)) kept

theorem cancelHeld (reason : CancelReason) (kept : holds hand c) :
    Ensures (holds hand) stopped (c.cancelHeld reason) :=
  rule.cancelEmptied reason (rule.emptied kept)

theorem releaseHeldIdentities (reason : CancelReason) (kept : holds hand c) :
    Ensures (holds hand) stopped (c.releaseHeldIdentities reason) := by
  unfold Companion.releaseHeldIdentities
  split
  · exact kept
  · next waiters waiting =>
    exact rule.cancel reason (rule.refuseAll id (carriesSignature_identitiesResponse _)
      (rule.takeListing waiting kept))

/-- Refusing everything held and releasing a waiting listing. -/
theorem cancelAll (reason : CancelReason)
    (kept : holds (hand.takeAll (c.iterated c.held)) { c with held := ∅ }) :
    Ensures (holds hand) stopped
      (c.cancelHeld reason >>= fun c => c.releaseHeldIdentities reason) :=
  bind (rule.cancelEmptied reason kept) fun _ kept => rule.releaseHeldIdentities reason kept

/-! ### Withdrawing -/

theorem withdrawPending (chosen : RequestId × PendingSign → Bool) (kept : holds hand c) :
    Ensures (holds hand) stopped ((((c.iterated c.pending).filter chosen).map Prod.fst).foldlM
      Companion.withdrawPending c) := by
  refine (ensures_foldlM (fun rest (c : Companion env) => holds hand c ∧ Withdrawing rest c.pending)
    (fun id rest before both => ?_) ⟨kept, withdrawing_iterated c c.pending chosen⟩).imp
      fun _ both => both.1
  obtain ⟨kept, withdrawing⟩ := both
  obtain ⟨sign, found⟩ := withdrawing.found
  have shortened := rule.shorten (before.approvals.disconnect id) filter_sublist (Subset.refl _)
    rfl rfl kept
  have taken := rule.takePending (by exact found) (disconnect_unqueued before.approvals id)
    shortened
  unfold Companion.withdrawPending Companion.refusePending
  rw [found]
  refine ((rule.cancel .withdrawn (rule.fail taken)).and emit_fields).mono
    (fun after both => ⟨both.1, ?_⟩) fun _ both => both.1
  rw [both.2.1]
  exact withdrawing.erase

theorem withdrawHeld (chosen : RequestId × HeldSign → Bool) (kept : holds hand c) :
    Ensures (holds hand) stopped ((((c.iterated c.held).filter chosen).map Prod.fst).foldlM
      Companion.withdrawHeld c) := by
  refine (ensures_foldlM (fun rest (c : Companion env) => holds hand c ∧ Withdrawing rest c.held)
    (fun id rest before both => ?_) ⟨kept, withdrawing_iterated c c.held chosen⟩).imp
      fun _ both => both.1
  obtain ⟨kept, withdrawing⟩ := both
  obtain ⟨request, found⟩ := withdrawing.found
  have taken := rule.takeHeld found kept
  unfold Companion.withdrawHeld Companion.refuseHeld
  rw [found]
  refine ((rule.cancel .withdrawn (rule.fail taken)).and emit_fields).mono
    (fun after both => ⟨both.1, ?_⟩) fun _ both => both.1
  rw [both.2.2.1]
  exact withdrawing.erase

theorem onDeny {id : RequestId} (silenced : silent id) (kept : holds hand c) :
    Ensures (holds hand) stopped (c.onDeny id) := by
  have disconnected := rule.shorten (c.approvals.disconnect id) filter_sublist (Subset.refl _)
    rfl rfl kept
  have refused := rule.refuseHeld silenced
    (rule.refusePending (disconnect_unqueued c.approvals id) silenced disconnected)
  unfold Companion.onDeny
  dsimp only
  split
  · exact rule.releaseHeldIdentities _ refused
  · exact refused

/-! ### Announcing -/

theorem announceKeys (epoch loaded : ℕ) (idle : c.activeLoad = none) (kept : holds hand c) :
    Ensures (holds hand) stopped (c.announceKeys epoch loaded) := by
  refine bind (ensures_foldlM (fun _ c => holds hand c ∧ c.activeLoad = none) ?_ ⟨kept, idle⟩)
    fun _ kept => rule.say rfl (fun _ => kept.2) kept.1
  intro key rest before kept
  have emitted : Ensures (·.activeLoad = none) (fun _ => True) (before.emit (.publicKey epoch
      key.itemId key.name key.fingerprint key.publicKeyOpenssh)) := ensures_emit kept.2 trivial
  exact mono (emitted.and (rule.say rfl nofun kept.1)) (fun _ both => both.symm)
    fun _ both => both.2

theorem emitGrantsIfChanged (nowMs : ℕ) (kept : holds hand c) :
    Ensures (holds hand) stopped (c.emitGrantsIfChanged nowMs) := by
  unfold Companion.emitGrantsIfChanged
  dsimp only
  split
  · exact kept
  · exact rule.say rfl nofun (rule.snapshot _ kept)

theorem sweep (nowMs : ℕ) (kept : holds hand c) : Ensures (holds hand) stopped (c.sweep nowMs) := by
  unfold Companion.sweep
  refine bind (rule.withdrawPending _ kept) fun withdrawn kept => ?_
  refine bind (rule.withdrawHeld _ kept) fun unheld kept => ?_
  dsimp only
  split
  · exact bind (rule.releaseHeldIdentities _ kept) fun listed kept =>
      rule.emitGrantsIfChanged _ kept
  · exact rule.emitGrantsIfChanged _ kept

end RefusalRule

namespace BaseRule

variable (rule : BaseRule silent holds stopped)

include rule

/-! ### Approving and revoking -/

theorem consent {id : RequestId} {sign : PendingSign} {duration : GrantDuration}
    (approved : holds ((hand.take id).owe sign.reply)
      ({ c with pending := c.pending.erase id }.approve id duration).2)
    (settle : ∀ {c}, holds (hand.take id) c →
      Ensures (holds (hand.take id)) stopped c.settleGranted) :
    Ensures (holds (hand.take id)) stopped (c.consent id sign duration) := by
  have settled : ∀ answered : Companion env, holds (hand.take id) answered →
      Ensures (holds (hand.take id)) stopped
        (if duration ≠ .once then answered.settleGranted else .ok answered) := by
    intro answered kept
    split
    · exact settle kept
    · exact kept
  unfold Companion.consent
  dsimp only
  generalize approve _ id duration = result at approved ⊢
  obtain ⟨outcome, after⟩ := result
  cases outcome with
  | error error => exact settled _ (rule.answer _ approved)
  | ok authorization => exact settled _ (rule.answer _ approved)

/-- An approved request is out of the map, and in hand to the end of its turn. -/
theorem approved {id : RequestId} {duration : GrantDuration} (kept : holds hand c)
    (consent : ∀ sign, c.pending.lookup id = some sign →
      Ensures (holds (hand.take id)) stopped (c.consent id sign duration)) :
    Ensures (fun c' => holds (hand.take id) c' ∨
        holds hand c' ∧ c'.pending = c.pending ∧ (id ∈ c.held ∨ id ∉ c.pending)) stopped
      (c.onApprove id duration) := by
  unfold onApprove
  split
  · next request found =>
    have mem : id ∈ c.held := AList.lookup_isSome.mp (by rw [found]; rfl)
    refine .inr ⟨rule.reheld ?_ kept, rfl, .inl mem⟩
    rw [AList.entries_insert]
    exact ((entries_perm found).map fun entry => (entry.1, entry.2.reply)).symm
  · split
    · next missing => exact .inr ⟨kept, rfl, .inr (AList.lookup_eq_none.mp missing)⟩
    · next sign found => exact (consent sign found).imp fun _ kept => .inl kept

theorem onApprove {id : RequestId} {duration : GrantDuration} (silenced : silent id)
    (kept : holds hand c)
    (consent : ∀ sign, c.pending.lookup id = some sign →
      Ensures (holds (hand.take id)) stopped (c.consent id sign duration)) :
    Ensures (holds hand) stopped (c.onApprove id duration) :=
  (rule.approved kept consent).imp fun _ kept => kept.elim (rule.pass silenced) And.left

theorem onRevokeGrants (kept : holds hand c) : holds hand c.onRevokeGrants := by
  have same : ∀ request : HeldSign, request.demoted.reply = request.reply := by
    intro request
    unfold HeldSign.demoted
    split <;> rfl
  refine rule.reheld ?_ (rule.shorten c.approvals.revokeAllGrants
    (List.Sublist.refl _) (nil_subset _) rfl rfl kept)
  rw [List.map_map]
  exact List.Perm.of_eq (map_congr_left fun entry _ => by simp [same])

/-! ### Client events -/

theorem holdSign {reply : ReplyId} {event : ClientEvent} {publicBlob message : Bytes}
    {flags : ℕ} (shut : c.gateOpen = false) (kept : holds (hand.owe reply) c) :
    Ensures (holds hand) stopped (c.holdSign reply event publicBlob message flags) := by
  have refused := rule.answer failureResponse kept
  unfold Companion.holdSign
  dsimp only
  split
  · exact refused
  · next key known =>
    split
    · exact refused
    · next room =>
      split
      · exact refused
      · next id approvals reserved =>
        rw [Bool.or_eq_true, not_or, decide_eq_true_iff] at room
        exact rule.hold ⟨reply, publicBlob, message, flags, event.peer,
          requestScope env event publicBlob message, 0, none⟩
          ⟨shut, ne_nil_of_mem (mem_of_find?_eq_some known), room.2⟩ reserved rfl kept

theorem listIdentities {reply : ReplyId} (event : ClientEvent)
    (kept : holds (hand.owe reply) c) :
    Ensures (holds hand) stopped (c.listIdentities reply event) := by
  have answered : holds hand (c.answerIdentities reply) := rule.answer _ kept
  unfold Companion.listIdentities
  split
  · split
    · next waiters waiting => exact rule.join waiting kept
    · next empty =>
      split
      · next id approvals reserved => exact rule.list reserved rfl empty kept
      · exact answered
  · exact answered

/-- A request that has its number and is in the log. -/
theorem handleClient (hand : Hand) (event : ClientEvent)
    (queue : ∀ {c} (request : HeldSign), c.gateOpen = true →
      holds (hand.owe request.reply) c →
      Ensures (holds hand) stopped (c.releaseUnapproved request))
    (kept : holds (hand.owe c.nextReply)
      ({ c with nextReply := c.nextReply + 1 }.record (.asked c.nextReply event))) :
    Ensures (holds hand) stopped (c.handleClient event) := by
  unfold Companion.handleClient
  dsimp only
  split
  · exact rule.answer _ kept
  · exact rule.listIdentities event kept
  · next publicBlob message flags signs =>
    unfold askSign
    dsimp only
    split
    · next shut => exact rule.holdSign (by simpa using shut) kept
    · next opened =>
      split
      · exact rule.answer _ kept
      · exact queue ⟨c.nextReply, publicBlob, message, flags, event.peer,
          requestScope env event publicBlob message, 0, none⟩ (by simpa using opened) kept

end BaseRule

/-- The end of `run`, for a property that stopping keeps. -/
theorem RefusalRule.exit {good : Companion env → Prop}
    (rule : RefusalRule (fun _ => True) (fun _ => good) good)
    (kept : good { c with approvals := c.approvals.invalidateAll }.cancelLoad) :
    ∃ after, good after ∧ c.exit =
      { after with
        store := after.store.logout (satAdd after.store.epoch 1)
        running := false } := by
  have failed := @RefusalRule.failPending _ _ _ _ .empty _ rule rfl (fun _ _ => trivial) kept
  have cancelled := (@RefusalRule.cancelHeld _ _ _ _ .empty _ rule .shutdown failed).ending
  have released :=
    (@RefusalRule.releaseHeldIdentities _ _ _ _ .empty _ rule .shutdown cancelled).ending
  exact ⟨_, released, rfl⟩

namespace Rule

variable (rule : Rule silent holds queued stopped)

include rule

/-! ### Queueing and releasing -/

theorem releaseApproved {request : HeldSign} (duration : GrantDuration)
    (kept : holds (hand.owe request.reply) c) :
    holds hand (c.releaseApproved request duration) := by
  have submitted := rule.submit request.publicBlob request.peer request.scope kept
  unfold Companion.releaseApproved
  generalize c.submit request.publicBlob request.peer request.scope = result at submitted ⊢
  obtain ⟨error | id | authorization, c'⟩ := result
  · exact rule.answer _ submitted
  · have approved := rule.approve duration submitted
    dsimp only at approved ⊢
    generalize c'.approve id duration = result at approved ⊢
    obtain ⟨error | authorization, after⟩ := result
    · exact rule.answer _ approved
    · exact rule.answer _ approved
  · exact rule.answer _ submitted

theorem releaseUnapproved {request : HeldSign}
    (kept : holds (hand.owe request.reply) c) :
    Ensures (holds hand) stopped (c.releaseUnapproved request) := by
  have submitted := rule.submit request.publicBlob request.peer request.scope kept
  unfold Companion.releaseUnapproved
  generalize c.submit request.publicBlob request.peer request.scope = result at submitted ⊢
  obtain ⟨error | id | authorization, c'⟩ := result
  · exact rule.answer _ submitted
  · exact rule.ask submitted
  · exact rule.answer _ submitted

theorem releaseOne {entry : RequestId × HeldSign}
    (kept : holds ((hand.owe entry.2.reply).take entry.1) c) :
    Ensures (holds hand) stopped (c.releaseOne entry) := by
  unfold Companion.releaseOne
  refine bind (rule.cancel .released kept) fun withdrawn kept => ?_
  split
  · exact rule.answer _ kept
  · split
    · next duration approved => exact rule.releaseApproved duration kept
    · exact rule.releaseUnapproved kept

theorem releaseHeld (kept : holds hand c) : Ensures (holds hand) stopped c.releaseHeld := by
  unfold Companion.releaseHeld
  refine bind (ensures_foldlM (fun rest => holds (hand.takeAll rest))
    (fun entry rest before kept => rule.releaseOne kept)
    (rule.emptyHeld (perm_insertionSort _ _) kept)) fun _ kept => rule.settle kept

theorem consent {id : RequestId} {sign : PendingSign} (duration : GrantDuration)
    (found : c.pending.lookup id = some sign) (kept : holds hand c) :
    Ensures (holds (hand.take id)) stopped (c.consent id sign duration) :=
  rule.toBaseRule.consent (rule.approvePending duration found kept) rule.settle

/-- Where the vault, the load and the gate do not matter. -/
theorem vaultRule (stop : ∀ {hand c}, holds hand c → stopped c)
    (vault : ∀ {hand} {c : Companion env} (store : KeyStore env.ssh) (load : Option ActiveLoad)
      (gateOpen handshake unlockOnDemand : Bool), holds hand c →
      holds hand { c with
        store := store, activeLoad := load, gateOpen := gateOpen, handshakeComplete := handshake
        unlockOnDemand := unlockOnDemand }) : VaultRule ready silent holds stopped where
  toBaseRule := rule.toBaseRule
  stop := stop
  consent := rule.consent
  queue _ _ kept := rule.releaseUnapproved kept
  publish _ _ _ _ kept := bind (rule.announceKeys _ _ rfl (rule.record _ rfl rfl
    (vault _ _ _ _ _ kept))) fun _ kept => rule.releaseHeld kept
  load _ _ kept := vault _ _ _ _ _ kept
  fail _ _ kept := vault _ _ _ _ _ kept
  close _ _ _ kept := vault _ _ _ _ _
    (rule.shorten (ApprovalManager.invalidateAll _) (nil_sublist _) (nil_subset _) rfl rfl kept)
  hello _ kept := vault _ _ _ _ _ kept
  options _ kept := vault _ _ _ _ _ kept

end Rule

/-! ### Loads -/

/-- The requests a control message disposes of without a word to the panel: the one it
answers, and all that are pending where the vault ends or a load begins. -/
def ControlMessage.silences (c : Companion env) (id : RequestId) : ControlMessage → Prop
  | .approve requestId _ => id = requestId
  | .deny requestId => id = requestId
  | .unlockCancelled requestId _ => id = requestId
  | .vaultLocked _ => id ∈ c.pending
  | .vaultLoggedOut => id ∈ c.pending
  | .keyLoadBegin _ _ => id ∈ c.pending
  | _ => False

namespace VaultRule

variable (rule : VaultRule ready silent holds stopped)

include rule

theorem finishLoadIfReady (kept : holds hand c) :
    Ensures (holds hand) stopped c.finishLoadIfReady := by
  unfold Companion.finishLoadIfReady
  split
  · exact kept
  · next load active =>
    split
    · next payload ended arrived =>
      split
      · next bytes report store loaded =>
        have published := rule.publish store bytes report.loaded active kept
        have settled := bind published fun _ kept =>
          rule.releaseHeldIdentities .released kept
        rwa [bind_assoc] at settled
      · next store refused =>
        have failed := rule.record (.failedLoad load.epoch) rfl rfl
          (rule.fail (store.lock load.epoch) active kept)
        exact bind (rule.say rfl (fun _ => rfl) failed) fun announced kept =>
          rule.cancelAll _ (rule.emptied kept)
    · exact kept

theorem closeVault (store : KeyStore env.ssh) (reason : CancelReason) (isReady : ready c)
    (silenced : ∀ id ∈ c.pending, silent id) (kept : holds hand c) :
    Ensures (holds hand) stopped (c.closeVault store reason) :=
  rule.cancelAll reason
    (rule.emptied (rule.failPending rfl silenced (rule.close store none isReady kept)))

theorem onKeyLoadBegin (epoch : ℕ) (loadId : String) (isReady : ready c)
    (silenced : ∀ id ∈ c.pending, silent id) (kept : holds hand c) :
    Ensures (holds hand) stopped (c.onKeyLoadBegin epoch loadId) := by
  have failed : ∀ load, holds hand { c with
      activeLoad := load, gateOpen := false
      approvals := c.approvals.invalidateAll }.failPending :=
    fun load => rule.failPending rfl silenced (rule.close c.store load isReady kept)
  have stops := rule.stop (failed c.activeLoad)
  simp only [failPending_eq] at failed stops
  unfold Companion.onKeyLoadBegin
  rw [failPending_eq]
  split
  · exact rule.stop kept
  · dsimp only
    split
    · exact stops
    · split
      · exact failed _
      · exact stops

theorem onKeyLoadEnd (epoch : ℕ) (status : LoadStatus) (kept : holds hand c) :
    Ensures (holds hand) stopped (c.onKeyLoadEnd epoch status) := by
  unfold Companion.onKeyLoadEnd
  split
  · exact rule.stop kept
  · next load active =>
    split
    · exact rule.stop kept
    · cases status with
      | failed =>
        have failed := rule.fail (c.store.lock epoch) active kept
        exact rule.cancelAll .loadFailed (rule.emptied failed)
      | ok =>
        exact rule.finishLoadIfReady (rule.load _ active (rule.record _ rfl rfl kept))

theorem onLoadResult (hand : Hand) (epoch : ℕ) (result : Except RuntimeError Bytes)
    (kept : holds hand c) :
    Ensures (holds hand) stopped (c.onLoadResult epoch result) := by
  unfold Companion.onLoadResult
  split
  · exact kept
  · next load active =>
    split
    · exact kept
    · exact rule.finishLoadIfReady (rule.load _ active kept)

theorem timeOutLoad (nowMs : ℕ) (kept : holds hand c) :
    Ensures (holds hand) stopped (c.timeOutLoad nowMs) := by
  unfold Companion.timeOutLoad
  split
  · next load active =>
    split
    · exact rule.finishLoadIfReady (rule.load _ active kept)
    · exact kept
  · exact kept

/-! ### Turns -/

theorem onTick (hand : Hand) (kept : holds hand c) : Ensures (holds hand) stopped c.onTick := by
  have expired := rule.record (.clock c.elapsedMs) rfl rfl
    (rule.shorten (c.approvals.expire c.elapsedMs) filter_sublist (filter_subset_self _)
      rfl rfl kept)
  exact bind (rule.timeOutLoad _ expired) fun loaded kept => rule.sweep _ kept

theorem handleClient (hand : Hand) (event : ClientEvent)
    (kept : holds (hand.owe c.nextReply)
      ({ c with nextReply := c.nextReply + 1 }.record (.asked c.nextReply event))) :
    Ensures (holds hand) stopped (c.handleClient event) :=
  rule.toBaseRule.handleClient hand event rule.queue kept

/-- Every control message but `shutdown`. -/
theorem onControl (hand : Hand) {message : ControlMessage} (goes : message ≠ .shutdown)
    (isReady : message ≠ .hello → ready c)
    (silenced : ∀ id, message.silences c id → silent id)
    (kept : holds hand c) : Ensures (holds hand) stopped (c.onControl message) := by
  cases message with
  | hello =>
    change Ensures _ _ (ite _ _ _)
    split
    · exact rule.stop kept
    · next unmet => exact rule.say rfl nofun (rule.hello (by simpa using unmet) kept)
  | keyLoadBegin epoch loadId =>
    exact rule.onKeyLoadBegin epoch loadId (isReady nofun) silenced kept
  | keyLoadEnd epoch status =>
    exact rule.onKeyLoadEnd epoch status kept
  | vaultLocked epoch =>
    exact bind (rule.closeVault _ _ (isReady nofun) silenced kept) fun _ kept =>
      rule.say rfl nofun kept
  | vaultLoggedOut => exact rule.closeVault _ _ (isReady nofun) silenced kept
  | approve id duration =>
    exact rule.onApprove (silenced id rfl) kept fun _ found => rule.consent duration found kept
  | deny id => exact rule.onDeny (silenced id rfl) kept
  | unlockCancelled id reason => exact rule.onDeny (silenced id rfl) kept
  | options on => exact rule.options on kept
  | revokeGrants => exact rule.onRevokeGrants kept
  | revokeGrant id =>
    exact rule.shorten _ (List.Sublist.refl _) (filter_subset_self _) rfl rfl kept
  | shutdown => exact absurd rfl goes

end VaultRule

/-- A whole turn, for a property of the state alone that numbering a request and the end of
`run` keep too. -/
theorem VaultRule.iterate {good : Companion env → Prop}
    (rule : VaultRule ready (fun _ => True) (fun _ => good) stopped)
    (numbers : ∀ c : Companion env, good c → good { c with nextReply := c.nextReply + 1 })
    (exits : ∀ c : Companion env, good c → good c.exit) {input : Input}
    (isReady : ∀ message, input = .control message → message ≠ .hello →
      ready (c.record (.received input))) (kept : good c) :
    Ensures good stopped (c.iterate input) := by
  have received : good (c.record (.received input)) := @BaseRule.record _ _ _ _ rule.toBaseRule
    .empty _ _ rfl rfl kept
  cases input with
  | control message =>
    by_cases shuts : message = .shutdown
    · subst shuts
      exact exits _ received
    · exact rule.onControl .empty shuts (isReady message rfl) (fun _ _ => trivial) received
  | malformedControl => exact @VaultRule.stop _ _ _ _ _ rule .empty _ received
  | controlClosed => exact exits _ received
  | client event =>
    exact rule.handleClient .empty event (@BaseRule.record _ _ _ _ rule.toBaseRule .empty _ _ rfl
      rfl (numbers _ received))
  | loadResult epoch result => exact rule.onLoadResult .empty epoch result received
  | tick => exact rule.onTick .empty received

end QsBitwarden.Agent
