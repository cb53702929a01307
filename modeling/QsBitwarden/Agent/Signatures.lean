import QsBitwarden.Agent.Loop
import QsBitwarden.Agent.Tickets

/-! Owns what a client may rely on along every run of the companion: who consented to a
signature, and that none is sent once the vault has ended. It does not own the loop. -/

namespace QsBitwarden.Agent

open Lib List Companion Multiset

variable {env : Env} {inputs : List Input} {c : Companion env}

/-! ### Consent -/

/-- An approve message by an id that names this request and no other. -/
def ApprovedAlone (reply : ReplyId) (past : List Entry) : Prop :=
  ∃ id duration, Since (Approves id reply duration) (fun _ => True) past ∧
    ∀ other, .named id other ∈ past → other = reply

/-- The grant, opened for this duration after `before`, answers this request: nothing has
revoked it since it was opened, it has not expired, it is for the same key, kind, program
and epoch, and the user consented to it. -/
structure LiveGrant (env : Env) (epoch : ℕ) (publicBlob : Bytes) (peer : PeerContext)
    (scope : SignScope) (past : List Entry) (grant : Grant) (duration : GrantDuration)
    (before : List Entry) : Prop where
  opened : ∃ recent, past = recent ++ .opened grant duration :: before ∧
    ∀ entry ∈ recent, entry.revokes grant.id = false
  lasting : duration ≠ .once ∧ duration ≠ .seconds 0
  consent : LastingConsent env duration grant.publicBlob grant.peer ⟨grant.kind, false⟩ before
  offered : grant.kind ≠ .other
  sameScope : scope = ⟨grant.kind, false⟩
  sameKey : grant.publicBlob = publicBlob
  sameProgram : grant.peer.uid = peer.uid ∧ grant.peer.executable = peer.executable
  sameEpoch : grant.epoch = epoch
  unexpired : ∀ seconds, duration = .seconds seconds →
    lastClock past < lastClock before + min seconds maxGrantSeconds * 1000

theorem SignScope.grantable_iff {scope : SignScope} :
    scope.grantable = true ↔ scope = ⟨scope.kind, false⟩ ∧ scope.kind ≠ .other := by
  obtain ⟨kind, forwarded⟩ := scope
  cases forwarded <;> simp [SignScope.grantable]

theorem expiry_le (nowMs seconds : ℕ) :
    ∀ expiry, ApprovalManager.expiry nowMs (.seconds seconds) = some expiry →
      expiry ≤ nowMs + min seconds maxGrantSeconds * 1000 := by
  rintro _ ⟨⟩
  calc satAdd nowMs (satMul (min seconds maxGrantSeconds) 1000)
      ≤ nowMs + satMul (min seconds maxGrantSeconds) 1000 := Nat.min_le_left _ _
    _ ≤ nowMs + min seconds maxGrantSeconds * 1000 := by
        exact Nat.add_le_add_left (Nat.min_le_left _ _) _

/-- A grant that covers a request in the log, read as a live grant. -/
theorem CoveredByGrant.liveGrant {epoch : ℕ} {publicBlob : Bytes} {peer : PeerContext}
    {scope : SignScope} {past : List Entry}
    (covered : CoveredByGrant env epoch publicBlob peer scope past) :
    ∃ grant duration before,
      LiveGrant env epoch publicBlob peer scope past grant duration before := by
  obtain ⟨grant, traced, covers, live⟩ := covered
  obtain ⟨recent, _, before, split, ⟨duration, rfl, opening⟩, unrevoked⟩ :=
    since_iff_split.mp traced
  obtain ⟨once, zero, expires, askedScope, askedGrantable, askedKind, consent⟩ := opening
  obtain ⟨grantable, sameEpoch, sameKey, sameKind, uid, executable⟩ := grantCovers_iff.mp covers
  obtain ⟨askedEq, askedNotOther⟩ := SignScope.grantable_iff.mp askedGrantable
  obtain ⟨scopeEq, -⟩ := SignScope.grantable_iff.mp grantable
  refine ⟨grant, duration, before, ⟨recent, split, unrevoked⟩, ⟨once, zero⟩, ?_, ?_, ?_, sameKey,
    ⟨uid, executable⟩, sameEpoch, ?_⟩
  · rw [askedKind, ← askedEq]
    exact consent
  · rw [askedKind]
    exact askedNotOther
  · rw [sameKind, ← scopeEq]
  · rintro seconds rfl
    exact (live _ expires).trans_le (expiry_le _ _ _ rfl)

variable {reply : ReplyId}

theorem ApprovedByName.alone {past : List Entry} (approved : ApprovedByName reply past)
    (once : (past.filterMap Entry.namedId).Nodup) : ApprovedAlone reply past := by
  obtain ⟨recent, entry, older, rfl, ⟨id, duration, approves⟩, -⟩ := since_iff_split.mp approved
  have named : .named id reply ∈ recent ++ entry :: older :=
    mem_append_right _ (mem_cons_of_mem _ approves.2)
  refine ⟨id, duration, ?_, fun other again => ?_⟩
  · exact since_iff_split.mpr ⟨recent, entry, older, rfl, approves, fun _ _ => trivial⟩
  · have same := eq_of_nodup_filterMap once again named rfl rfl
    injection same

/-- No signature without consent: whoever gets one asked for it, and that very request was
approved under its own id, or a live grant answers it. -/
theorem signatures_consented (run : Run (Companion.system env) inputs c)
    {recent past : List Entry} {reply : ReplyId} {response : Bytes} {epoch : ℕ}
    (sent : c.log = recent ++ .replied reply response epoch :: past)
    (carries : carriesSignature response = true) :
    ∃ publicBlob message flags peer scope,
      Asks env past reply publicBlob message flags peer scope ∧
      (ApprovedAlone reply past ∨ ∃ grant duration before,
        LiveGrant env epoch publicBlob peer scope past grant duration before) := by
  have recorded := (run_live run).1
  obtain ⟨publicBlob, message, flags, peer, scope, asks, consent⟩ :=
    throughout_iff_split.mp recorded.justified recent _ past sent reply response epoch rfl carries
  refine ⟨publicBlob, message, flags, peer, scope, asks, ?_⟩
  rcases consent with named | covered
  · have suffix : past.Sublist c.log := by
      rw [sent]
      exact (sublist_cons_self _ _).trans (sublist_append_right _ _)
    exact .inl (named.alone (recorded.namedOnce.sublist (suffix.filterMap _)))
  · exact .inr covered.liveGrant

/-! ### A run -/

/-- Whether the loop is still running before each of these turns. -/
def Companion.takesAll (c : Companion env) : List Input → Bool
  | [] => true
  | input :: rest => c.running && (c.turn input).takesAll rest

theorem Companion.run_turns {history : List Input} (run : Run (system env) history c)
    (later : List Input) (takes : c.takesAll later = true) :
    Run (system env) (later.reverse ++ history) (later.foldl turn c) := by
  induction later generalizing c history with
  | nil => exact run
  | cons input rest ih =>
    obtain ⟨running, takes⟩ := Bool.and_eq_true_iff.mp takes
    have next : Run (system env) (input :: history) (c.turn input) :=
      run.next ⟨running, rfl⟩
    rw [reverse_cons, append_assoc]
    exact ih next takes

def sampleNonce : String := "00000000000000000000000000000000"

/-- One key in every payload, a clock that counts the log, and a panel that stops taking
messages once the log has this many entries. -/
def sampleEnv (heard : ℕ) : Env where
  ssh := sampleCrate
  hostKeyFingerprint _ := "host"
  toStringLossy _ := "/usr/bin/ssh"
  fromSlice payload :=
    some ⟨sampleNonce, payload.map fun _ => ⟨"item", "name", ascii "AQ==", "k", "f", false⟩⟩
  expectedUid := 7
  socketPath := "agent.sock"
  fifoPath := "keys.fifo"
  agentVersion := "1"
  clock position := position
  clock_monotone := fun _ _ le => le
  accepts position := position < heard
  isClosed _ _ := false
  fifoReader _ := true
  order _ ids := ids
  order_perm _ ids := .refl ids

/-- A commit to sign. -/
def sampleSign : ClientEvent :=
  ⟨samplePeer, false, [], .sign [1] (ascii "SSHSIG" ++ putString (ascii "git") ++ putString [] ++
    putString (ascii "sha256") ++ putString [1]) 0⟩

def sampleLoad (epoch : ℕ) : List Input :=
  [.control (.keyLoadBegin epoch sampleNonce), .control (.keyLoadEnd epoch .ok),
    .loadResult epoch (.ok [1])]

/-- A signature asked for while locked is approved for two minutes; the unlock then begins a
load, which releases it. A second one follows. -/
def preLoadApproval : List Input :=
  [.control .hello] ++ sampleLoad 1 ++ [.control (.vaultLocked 1), .client sampleSign,
    .control (.approve 1 (.seconds 120))] ++ sampleLoad 2 ++ [.client sampleSign]

def sampleLoop (heard : ℕ) (turns : List Input) : Companion (sampleEnv heard) :=
  turns.foldl turn (.initial (sampleEnv heard))

theorem run_sample {heard : ℕ} {turns : List Input}
    (takes : (initial (sampleEnv heard)).takesAll turns = true) :
    Run (system (sampleEnv heard)) (turns.reverse ++ []) (sampleLoop heard turns) :=
  run_turns (.start rfl) turns takes

theorem helloFirst_of_getLast? {log : List Entry}
    (first : (controls log).getLast? = some .hello) : HelloFirst log :=
  fun _ last => Option.some.inj (last.symm.trans first)

/-- The channel the last entry signs on. -/
def lastSigned : List Entry → Option ReplyId
  | .replied reply response _ :: _ => if carriesSignature response then some reply else none
  | _ => none

variable {log : List Entry}

theorem lastSigned_eq_some (signed : lastSigned log = some reply) :
    ∃ response epoch, log = .replied reply response epoch :: log.tail ∧
      carriesSignature response = true := by
  unfold lastSigned at signed
  split at signed
  · next replied response epoch past =>
    split_ifs at signed with carries
    cases signed
    exact ⟨response, epoch, rfl, carries⟩
  · cases signed

theorem signatures_consented_sample :
    ∃ past publicBlob message flags peer scope,
      Asks (sampleEnv 100) past 1 publicBlob message flags peer scope ∧
      (ApprovedAlone 1 past ∨ ∃ epoch grant duration before,
        LiveGrant (sampleEnv 100) epoch publicBlob peer scope past grant duration before) := by
  have run := @run_sample 100 preLoadApproval (by decide +kernel)
  have signed : lastSigned (sampleLoop 100 preLoadApproval).log = some 1 := by decide +kernel
  obtain ⟨response, epoch, sent, carries⟩ := lastSigned_eq_some signed
  obtain ⟨publicBlob, message, flags, peer, scope, asks, consent⟩ :=
    @signatures_consented _ _ _ run [] _ 1 response epoch sent carries
  exact ⟨_, publicBlob, message, flags, peer, scope, asks,
    consent.imp_right fun live => ⟨epoch, live⟩⟩

/-- Some approve message came after the last `key_load_begin`. -/
def approvedSinceLoad : List Entry → Bool
  | [] => false
  | entry :: past =>
    (match entry.control? with
      | some (.approve _ _) => true
      | _ => false) || (!entry.beginsLoad && approvedSinceLoad past)

theorem approvedSinceLoad_of_since {id : RequestId} {asker : ReplyId} {duration : GrantDuration}
    (since : Since (Approves id asker duration) (fun entry => entry.beginsLoad = false) log) :
    approvedSinceLoad log = true := by
  induction log with
  | nil => exact since.elim
  | cons entry past ih =>
    rcases since with ⟨rfl, -⟩ | ⟨kept, earlier⟩
    · rfl
    · simp [approvedSinceLoad, kept, ih earlier]

def Entry.names (reply : ReplyId) : Entry → Bool
  | .named _ other => other = reply
  | _ => false

theorem ApprovedByName.names
    (approved : ApprovedByName reply log) : log.any (Entry.names reply) = true := by
  obtain ⟨recent, entry, past, rfl, ⟨id, duration, -, named⟩, -⟩ := since_iff_split.mp approved
  refine any_eq_true.mpr ⟨.named id reply, ?_, by simp [Entry.names]⟩
  exact mem_append_right _ (mem_cons_of_mem _ named)

/-- An approval given before the keys are loaded opens its grant when they are: the grant
then signs although `key_load_begin` was received after every approve message. -/
theorem grant_outlives_load_begin :
    ∃ (c : Companion (sampleEnv 100)) (inputs : List Input) (past : List Entry) (reply : ReplyId)
      (response : Bytes) (epoch : ℕ),
      Run (Companion.system (sampleEnv 100)) inputs c ∧ HelloFirst c.log ∧
      c.log = .replied reply response epoch :: past ∧ carriesSignature response = true ∧
      ¬ ApprovedByName reply past ∧
      ∀ id asker duration,
        ¬ Since (Approves id asker duration) (fun entry => entry.beginsLoad = false) past := by
  have run := @run_sample 100 preLoadApproval (by decide +kernel)
  have signed : lastSigned (sampleLoop 100 preLoadApproval).log = some 1 := by decide +kernel
  have unnamed : (sampleLoop 100 preLoadApproval).log.tail.any (Entry.names 1) = false := by
    decide +kernel
  have early : approvedSinceLoad (sampleLoop 100 preLoadApproval).log.tail = false := by
    decide +kernel
  obtain ⟨response, epoch, sent, carries⟩ := lastSigned_eq_some signed
  refine ⟨_, _, _, 1, response, epoch, run, helloFirst_of_getLast? (by decide +kernel), sent,
    carries, ?_, ?_⟩
  · intro approved
    rw [approved.names] at unnamed
    cases unnamed
  · intro id asker duration since
    rw [approvedSinceLoad_of_since since] at early
    cases early

/-! ### The end of the vault -/

/-- A sign request waits on this channel, for an approval or for an unlock. -/
def Companion.Waits (c : Companion env) (reply : ReplyId) : Prop :=
  (∃ entry ∈ c.pending.entries, entry.2.reply = reply) ∨
    ∃ entry ∈ c.held.entries, entry.2.reply = reply

/-- The channel got a failure. -/
def Refused (reply : ReplyId) (log : List Entry) : Prop :=
  ∃ epoch, .replied reply failureResponse epoch ∈ log

/-- The panel does not take the message that the loop has come to. -/
def Unheard (c : Companion env) : Prop := env.accepts c.log.length = false

theorem Refused.mono {log' : List Entry} (refused : Refused reply log)
    (subset : log ⊆ log') : Refused reply log' := by
  obtain ⟨epoch, mem⟩ := refused
  exact ⟨epoch, subset mem⟩

theorem mem_iterated {Value : Type} (c : Companion env) {map : AList fun _ : RequestId => Value}
    {entry : (_ : RequestId) × Value} (mem : entry ∈ map.entries) :
    (entry.1, entry.2) ∈ c.iterated map :=
  (entriesBy_perm (env.order_perm c.log.length map.keys)).mem_iff.mpr
    (mem_map.mpr ⟨entry, mem, rfl⟩)

theorem failPending_refuses {entry : (_ : RequestId) × PendingSign}
    (waiting : entry ∈ c.pending.entries) : Refused entry.2.reply c.failPending.log := by
  rw [failPending_eq]
  have listed := mem_iterated c waiting
  exact ⟨_, mem_append_left _ (mem_reverse.mpr (mem_map.mpr ⟨_, listed, rfl⟩))⟩

theorem emit_unheard {good : Companion env → Prop} {message : Output}
    (accepted : good (c.record (.emitted message))) :
    Ensures good Unheard (c.emit message) := by
  unfold emit
  split
  · exact accepted
  · next refused => exact eq_false_of_ne_true refused

/-- Refusing the held requests answers each, unless the panel stops listening. -/
theorem cancelHeld_refuses (reason : CancelReason) :
    Ensures (fun c' => c.log ⊆ c'.log ∧ ∀ entry ∈ c.held.entries, Refused entry.2.reply c'.log)
      Unheard (c.cancelHeld reason) := by
  let unanswered (rest : List (RequestId × HeldSign)) (c' : Companion env) : Prop :=
    c.log ⊆ c'.log ∧ ∀ entry ∈ c.iterated c.held, entry ∈ rest ∨ Refused entry.2.reply c'.log
  have looped : Ensures (unanswered []) Unheard (c.cancelHeld reason) := by
    refine ensures_foldlM unanswered ?_ ⟨List.Subset.refl _, fun entry mem => .inl mem⟩
    intro head rest before ⟨logs, still⟩
    have grown : before.log ⊆ .emitted (.requestCancelled head.1 reason) ::
        .replied head.2.reply failureResponse before.store.epoch :: before.log :=
      List.Subset.trans (subset_cons_self _ _) (subset_cons_self _ _)
    refine emit_unheard ⟨List.Subset.trans logs grown, fun entry mem => ?_⟩
    rcases still entry mem with waiting | refused
    · rcases mem_cons.mp waiting with rfl | later
      · exact .inr ⟨before.store.epoch, mem_cons_of_mem _ mem_cons_self⟩
      · exact .inl later
    · exact .inr (refused.mono grown)
  refine looped.imp fun c' done => ⟨done.1, fun entry mem => ?_⟩
  exact (done.2 _ (mem_iterated c mem)).resolve_left (by simp)

/-- The log has grown, by no signature. -/
def Unsigned (log log' : List Entry) : Prop :=
  ∃ new, log' = new ++ log ∧ ∀ entry ∈ new, entry.signs = false

theorem Unsigned.cons {log log' : List Entry} (unsigned : Unsigned log log') {entry : Entry}
    (silent : entry.signs = false) : Unsigned log (entry :: log') := by
  obtain ⟨new, rfl, each⟩ := unsigned
  exact ⟨entry :: new, rfl, forall_mem_cons.mpr ⟨silent, each⟩⟩

theorem Shrinks.unsigned {hand hand' : List (RequestId × HeldSign)}
    {c c' : Companion env} (shrinks : Shrinks Entry.plain hand hand' c c')
    (unsigned : Unsigned log c.log) : Unsigned log c'.log := by
  obtain ⟨new, grown, each⟩ := unsigned
  obtain ⟨newer, log, plain⟩ := shrinks.log
  refine ⟨newer ++ new, by rw [log, grown, append_assoc], fun entry mem => ?_⟩
  rcases mem_append.mp mem with late | early
  · exact (Entry.plain_iff.mp (plain entry late)).2.1
  · exact each entry early

theorem Unsigned.subset {log log' : List Entry} (unsigned : Unsigned log log') : log ⊆ log' := by
  obtain ⟨new, rfl, -⟩ := unsigned
  exact subset_append_right _ _

/-- Refusals sign nothing. -/
theorem unsigned_refusals (log : List Entry) : RefusalRule (fun _ => True)
    (fun _ (c : Companion env) => Unsigned log c.log) fun c => Unsigned log c.log :=
  refusalRule_of_shrinks Shrinks.unsigned id

theorem releaseHeldIdentities_unheard (reason : CancelReason) :
    Ensures (fun _ => True) Unheard (c.releaseHeldIdentities reason) := by
  unfold releaseHeldIdentities
  split
  · exact trivial
  · exact emit_unheard trivial

theorem closeVault_refuses (store : KeyStore env.ssh) (reason : CancelReason) :
    Ensures (fun c' => ∀ reply, c.Waits reply → Refused reply c'.log) Unheard
      (c.closeVault store reason) := by
  let base : Companion env := { c.cancelLoad with
    gateOpen := false, store := store, approvals := c.approvals.invalidateAll }
  have held : base.failPending.held = c.held := by
    rw [failPending_eq]
    rfl
  refine Ensures.bind (cancelHeld_refuses reason) fun cancelled ⟨logs, refused⟩ => ?_
  refine Ensures.mono ((releaseHeldIdentities_unheard reason).and
    (@RefusalRule.releaseHeldIdentities _ _ _ _ .empty _ (unsigned_refusals cancelled.log) reason
      ⟨[], rfl, nofun⟩)) ?_ fun _ stopped => stopped.1
  rintro released ⟨-, unsigned⟩ reply (⟨entry, waiting, rfl⟩ | ⟨entry, holding, rfl⟩)
  · have answered : Refused entry.2.reply base.failPending.log :=
      @failPending_refuses _ base entry waiting
    exact answered.mono (List.Subset.trans logs unsigned.subset)
  · exact (refused entry (held ▸ holding)).mono unsigned.subset

/-- The two messages that end the vault. -/
def ControlMessage.endsVault : ControlMessage → Bool
  | .vaultLocked _ => true
  | .vaultLoggedOut => true
  | _ => false

/-- A turn that ends the vault refuses whoever waits, or is cut short by a panel that does not
listen; it signs nothing. -/
theorem iterate_endsVault {message : ControlMessage} (ends : message.endsVault = true) :
    Ensures
      (fun c' => (∀ reply, c.Waits reply → Refused reply c'.log) ∧ Unsigned c.log c'.log)
      (fun c' => Unheard c' ∧ Unsigned c.log c'.log) (c.iterate (.control message)) := by
  have received : Unsigned c.log (c.record (.received (.control message))).log :=
    ⟨[.received (.control message)], rfl, by simp [Entry.signs]⟩
  have closes : ∀ store reason, Ensures
      (fun c' => (∀ reply, c.Waits reply → Refused reply c'.log) ∧ Unsigned c.log c'.log)
      (fun c' => Unheard c' ∧ Unsigned c.log c'.log)
      ((c.record (.received (.control message))).closeVault store reason) :=
    fun store reason => (closeVault_refuses store reason).and
      ((unsigned_refusals c.log).closeEmptied reason received)
  cases message with
  | vaultLocked epoch =>
    refine Ensures.bind (closes _ _) fun closed ended => ?_
    obtain ⟨refused, unsigned⟩ := ended
    unfold emit
    split
    · exact ⟨fun reply waits => (refused reply waits).mono (subset_cons_self _ _),
        unsigned.cons rfl⟩
    · next refusedPanel => exact ⟨eq_false_of_ne_true refusedPanel, unsigned⟩
  | vaultLoggedOut => exact closes _ _
  | _ => cases ends

theorem turn_endsVault {message : ControlMessage} (ends : message.endsVault = true)
    (waits : c.Waits reply) : (Refused reply (c.turn (.control message)).log ∨
      ((c.turn (.control message)).running = false ∧ Unheard (c.turn (.control message)))) ∧
    Unsigned c.log (c.turn (.control message)).log := by
  have closed := @iterate_endsVault env c message ends
  unfold turn
  split
  · next after ended =>
    rw [ended] at closed
    exact ⟨.inl (closed.1 reply waits), closed.2⟩
  · next after ended =>
    rw [ended] at closed
    exact ⟨.inr ⟨rfl, closed.1⟩, closed.2⟩

/-! ### Later runs -/

/-- The runs of the companion from a state it has reached. -/
def Companion.resumed (c : Companion env) : System (Companion env) Input where
  init later := later = c
  step := (system env).step

theorem Companion.resumed_run {c later : Companion env} {inputs more : List Input}
    (run : Run (system env) inputs c) (continued : Run c.resumed more later) :
    Run (system env) (more ++ inputs) later ∧ ∃ new, later.log = new ++ c.log := by
  induction continued with
  | start initial =>
    obtain rfl := initial
    exact ⟨run, [], rfl⟩
  | next _ step ih =>
    obtain ⟨reached, new, log⟩ := ih
    refine ⟨reached.next step, ?_⟩
    obtain ⟨-, rfl⟩ := step
    obtain ⟨newer, grown⟩ := turn_grows (run_ticketed reached) _
    exact ⟨newer ++ new, by rw [grown, log, append_assoc]⟩

theorem Companion.resumed_stopped {c later : Companion env} {more : List Input}
    (stopped : c.running = false) (continued : Run c.resumed more later) : later = c := by
  induction continued with
  | start initial => exact initial
  | next _ step ih =>
    obtain ⟨running, -⟩ := step
    rw [ih, stopped] at running
    cases running

/-- A channel with a request waiting on it has not been answered. -/
theorem Ticketed.unanswered (ticketed : Ticketed c) (waits : c.Waits reply) :
    reply ∉ c.answered := by
  intro answered
  have nodup := ticketed.nodup
  have places : reply ∈ (values c.pending).map PendingSign.reply +
      (values c.held).map HeldSign.reply := by
    rcases waits with ⟨entry, mem, rfl⟩ | ⟨entry, mem, rfl⟩
    · exact mem_add.mpr (.inl (Multiset.mem_map.mpr
        ⟨entry.2, mem_coe.mpr (mem_map.mpr ⟨entry, mem, rfl⟩), rfl⟩))
    · exact mem_add.mpr (.inr (Multiset.mem_map.mpr
        ⟨entry.2, mem_coe.mpr (mem_map.mpr ⟨entry, mem, rfl⟩), rfl⟩))
  have apart : Disjoint ((values c.pending).map PendingSign.reply +
      (values c.held).map HeldSign.reply + ↑c.listing) c.answered := by
    have joined : ((values c.pending).map PendingSign.reply +
        (values c.held).map HeldSign.reply + ↑c.listing + c.answered).Nodup := by
      simpa [tickets] using nodup
    exact (nodup_add.mp joined).2.2
  exact disjoint_left.mp apart (mem_add.mpr (.inl places)) answered

/-- The lock is final: a signature is sent only while a load's own payload has been published
and nothing has closed the vault since, and a request that waits when the vault ends is
refused then, or cut off by a panel that does not listen, and never signed. -/
theorem lock_is_final (run : Run (Companion.system env) inputs c) :
    (HelloFirst c.log → ∀ recent past reply response epoch,
      c.log = recent ++ .replied reply response epoch :: past →
      carriesSignature response = true → OpenSince env past) ∧
    ∀ message, message.endsVault = true → c.running = true → ∀ reply, c.Waits reply →
      (Refused reply (c.turn (.control message)).log ∨
        ((c.turn (.control message)).running = false ∧ Unheard (c.turn (.control message)))) ∧
      ∀ more later, Run (c.turn (.control message)).resumed more later →
        ∀ response epoch, .replied reply response epoch ∈ later.log →
          carriesSignature response = false := by
  constructor
  · intro hello recent past reply response epoch sent carries
    exact throughout_iff_split.mp ((run_live run).1.signed hello) recent _ past sent reply
      response epoch rfl carries
  · intro message ends running reply waits
    obtain ⟨fate, new, log, unsigned⟩ := turn_endsVault ends waits
    refine ⟨fate, fun more later continued response epoch replied => ?_⟩
    have unanswered : ∀ response epoch, Entry.replied reply response epoch ∉ c.log :=
      fun response epoch mem => (run_ticketed run).unanswered waits
        (mem_coe.mpr (mem_filterMap.mpr ⟨_, mem, rfl⟩))
    have turned : Run (system env) (.control message :: inputs)
        (c.turn (.control message)) := run.next ⟨running, rfl⟩
    rcases fate with ⟨refusedAt, refused⟩ | ⟨stopped, -⟩
    · obtain ⟨reached, newer, grown⟩ := resumed_run turned continued
      have once : (later.log.filterMap Entry.repliedTo).Nodup := by
        have nodup := (run_ticketed reached).nodup
        exact coe_nodup.mp (nodup_of_le (by
          rw [tickets, add_zero]
          exact le_add_left _ _) nodup)
      have kept : .replied reply failureResponse refusedAt ∈ later.log := by
        rw [grown]
        exact mem_append_right _ refused
      have same := eq_of_nodup_filterMap once kept replied rfl rfl
      injection same with _ responses
      rw [← responses]
      exact carriesSignature_failureResponse
    · rw [resumed_stopped stopped continued, log] at replied
      rcases mem_append.mp replied with fresh | old
      · exact unsigned _ fresh
      · exact absurd old (unanswered response epoch)

/-- Two signatures held for an unlock. -/
def twoHeld : List Input :=
  [.control .hello] ++ sampleLoad 1 ++
    [.control (.vaultLocked 1), .client sampleSign, .client sampleSign]

theorem waits_of_any
    (held : c.held.entries.any (fun entry => entry.2.reply = reply) = true) : c.Waits reply := by
  obtain ⟨entry, mem, same⟩ := any_eq_true.mp held
  exact .inr ⟨entry, mem, by simpa using same⟩

theorem lock_is_final_sample :
    (∃ past, OpenSince (sampleEnv 100) past) ∧
    (Refused 0 ((sampleLoop 100 twoHeld).turn (.control .vaultLoggedOut)).log ∨
      (((sampleLoop 100 twoHeld).turn (.control .vaultLoggedOut)).running = false ∧
        Unheard ((sampleLoop 100 twoHeld).turn (.control .vaultLoggedOut)))) := by
  have signed : lastSigned (sampleLoop 100 preLoadApproval).log = some 1 := by decide +kernel
  have hello := @helloFirst_of_getLast? (sampleLoop 100 preLoadApproval).log (by decide +kernel)
  obtain ⟨response, epoch, sent, carries⟩ := lastSigned_eq_some signed
  have approvals := @lock_is_final _ _ _ (@run_sample 100 preLoadApproval (by decide +kernel))
  have held := @lock_is_final _ _ _ (@run_sample 100 twoHeld (by decide +kernel))
  refine ⟨⟨_, approvals.1 hello [] _ 1 response epoch sent carries⟩, ?_⟩
  exact (held.2 .vaultLoggedOut rfl (by decide +kernel) 0
    (waits_of_any (by decide +kernel))).1

/-- If the panel takes no message while the vault ends, the loop stops after the first refusal:
the other held request is never answered. -/
theorem held_unanswered_when_unheard :
    ∃ (c : Companion (sampleEnv 22)) (inputs : List Input),
      Run (Companion.system (sampleEnv 22)) inputs c ∧ HelloFirst c.log ∧ c.running = true ∧
      c.Waits 0 ∧
      ∀ more later, Run (c.turn (.control .vaultLoggedOut)).resumed more later →
        ∀ response epoch, .replied 0 response epoch ∉ later.log := by
  have run := @run_sample 22 twoHeld (by decide +kernel)
  have stopped : ((sampleLoop 22 twoHeld).turn (.control .vaultLoggedOut)).running = false := by
    decide +kernel
  have unanswered : 0 ∉ ((sampleLoop 22 twoHeld).turn (.control .vaultLoggedOut)).log.filterMap
      Entry.repliedTo := by
    decide +kernel
  refine ⟨_, _, run, helloFirst_of_getLast? (by decide +kernel), by decide +kernel,
    waits_of_any (by decide +kernel), ?_⟩
  intro more later continued response epoch replied
  rw [resumed_stopped stopped continued] at replied
  exact unanswered (mem_filterMap.mpr ⟨_, replied, rfl⟩)

end QsBitwarden.Agent
