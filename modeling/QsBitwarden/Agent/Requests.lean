import QsBitwarden.Agent.Rules

/-! Owns which requests the loop keeps waiting, and under which ids: pending for an
approval, held for an unlock, or one listing held for all its clients. Along a turn it
tracks what the panel is told as this changes. It does not own the clients' reply channels
or what they are answered. -/

namespace QsBitwarden.Agent

open Lib List Companion AList

variable {env : Env}

/-! ### What is kept and what is said -/

def Output.announcement? : Output → Option Announcement
  | .approvalRequired _ request => some request
  | .unlockRequired _ request => some request
  | _ => none

namespace Companion

/-- The id the held listing was announced under. -/
def listingId (c : Companion env) : Option RequestId := c.heldIdentities.map (·.requestId)

/-- A request waits under this id. -/
def Keeps (c : Companion env) (id : RequestId) : Prop :=
  id ∈ c.pending ∨ id ∈ c.held ∨ c.listingId = some id

/-- What was emitted between two states, oldest first. -/
def spoken (before after : Companion env) : List Output :=
  ((after.log.take (after.log.length - before.log.length)).filterMap Entry.output?).reverse

theorem spoken_of_grown {start c : Companion env} {new : List Entry}
    (grown : c.log = new ++ start.log) :
    start.spoken c = (new.filterMap Entry.output?).reverse := by
  have length : c.log.length - start.log.length = new.length := by
    rw [grown, length_append]
    omega
  rw [spoken, length, grown, take_left]

theorem reverse_spoken {before after : Companion env} {new : List Entry}
    (grown : after.log = new ++ before.log) :
    (before.spoken after).reverse ++ before.log.filterMap Entry.output? =
      after.log.filterMap Entry.output? := by
  rw [spoken_of_grown grown, reverse_reverse, grown, filterMap_append]

/-- More entries say more. -/
theorem spoken_append {start c c' : Companion env} {new : List Entry}
    (grows : ∃ new, c.log = new ++ start.log) (log : c'.log = new ++ c.log) :
    start.spoken c' = start.spoken c ++ (new.filterMap Entry.output?).reverse := by
  obtain ⟨old, grown⟩ := grows
  have whole : c'.log = (new ++ old) ++ start.log := by rw [log, grown, append_assoc]
  rw [spoken_of_grown whole, spoken_of_grown grown, filterMap_append, reverse_append]

end Companion

/-- These messages announce a request and cancel it again. -/
def CancelledAfter (messages : List Output) (id : RequestId) : Prop :=
  ∃ earlier message later request reason, messages = earlier ++ message :: later ∧
    message.announcement? = some request ∧ request.requestId = id ∧
    .requestCancelled id reason ∈ later

theorem CancelledAfter.append {messages : List Output} {id : RequestId}
    (cancelled : CancelledAfter messages id) (more : List Output) :
    CancelledAfter (messages ++ more) id := by
  obtain ⟨earlier, message, later, request, reason, rfl, announces, names, mem⟩ := cancelled
  refine ⟨earlier, message, later ++ more, request, reason, ?_, announces, names,
    mem_append_left _ mem⟩
  rw [append_assoc, cons_append]

theorem CancelledAfter.prepend {messages : List Output} {id : RequestId}
    (cancelled : CancelledAfter messages id) (before : List Output) :
    CancelledAfter (before ++ messages) id := by
  obtain ⟨earlier, message, later, request, reason, rfl, announces, names, mem⟩ := cancelled
  exact ⟨before ++ earlier, message, later, request, reason, (append_assoc ..).symm, announces,
    names, mem⟩

/-- The queue is part of what is pending, but for ids in `loose`, and the places where requests
wait are apart. -/
structure Shelved (loose : List RequestId) (c : Companion env) : Prop where
  queueOnce : (c.approvals.pending.map Pending.id).Nodup
  queued : ∀ request ∈ c.approvals.pending, request.id ∈ c.pending ∨ request.id ∈ loose
  heldApart : ∀ id ∈ c.held, id ∉ c.pending
  listingApart : ∀ id, c.listingId = some id → id ∉ c.pending ∧ id ∉ c.held

/-- Between two turns nothing is loose, and the ids of all that is kept are below the next. -/
structure Sorted (c : Companion env) : Prop extends Shelved [] c where
  keepsBelow : ∀ id, c.Keeps id → id < c.approvals.nextId

/-- The state in the middle of a turn that began at `start`. Ids in `loose` are queued but not
yet pending, and ids in `hand` were taken out of the maps and not yet disposed of; the panel
hears of every other request that is no longer kept, unless it is one of `silent`. -/
structure Filed (start : Companion env) (loose hand : List RequestId) (silent : RequestId → Prop)
    (c : Companion env) : Prop extends Shelved loose c where
  keepsBelow : ∀ id, c.Keeps id → id < c.approvals.nextId
  looseFresh : ∀ id ∈ loose, start.approvals.nextId ≤ id ∧ id < c.approvals.nextId ∧ id ∉ hand ∧
    ¬ c.Keeps id ∧ ∀ reason, .requestCancelled id reason ∉ start.spoken c
  handBelow : ∀ id ∈ hand, id < c.approvals.nextId ∧ ¬ c.Keeps id
  grows : ∃ new, c.log = new ++ start.log
  nextId : start.approvals.nextId ≤ c.approvals.nextId
  pendingFrom : ∀ id ∈ c.pending, id ∈ start.pending ∨ start.approvals.nextId ≤ id ∧
    ∃ keyId request, .approvalRequired keyId request ∈ start.spoken c ∧ request.requestId = id
  kept : ∀ id, start.Keeps id → c.Keeps id ∨ id ∈ hand ∨
    (∃ reason, .requestCancelled id reason ∈ start.spoken c) ∨ silent id
  cancelled : ∀ id reason, .requestCancelled id reason ∈ start.spoken c →
    id < c.approvals.nextId ∧ ¬ c.Keeps id
  announced : ∀ message ∈ start.spoken c, ∀ request, message.announcement? = some request →
    start.approvals.nextId ≤ request.requestId ∧ request.requestId < c.approvals.nextId
  told : ∀ message ∈ start.spoken c, ∀ request, message.announcement? = some request →
    c.Keeps request.requestId ∨ request.requestId ∈ hand ∨
      CancelledAfter (start.spoken c) request.requestId ∨ silent request.requestId

/-- The flow leaves such a state; where it stops, nothing is said. -/
abbrev Files (start : Companion env) (loose hand : List RequestId) (silent : RequestId → Prop) :
    Flow env → Prop :=
  Ensures (Filed start loose hand silent) fun _ => True

variable {start c c' c'' : Companion env} {loose hand : List RequestId}
  {silent : RequestId → Prop} {id : RequestId}

/-! ### One step -/

variable {loose' hand' rest : List RequestId} {said : List Output}

/-- A step of the turn that tells the panel `said`: what is kept that was not is announced in it,
and what is neither kept nor in hand any more is cancelled in it. -/
structure Moves (start : Companion env) (hand hand' : List RequestId) (said : List Output)
    (c c' : Companion env) : Prop where
  log : ∃ new, c'.log = new ++ c.log ∧ (new.filterMap Entry.output?).reverse = said
  nextId : c.approvals.nextId ≤ c'.approvals.nextId
  pending : ∀ id ∈ c'.pending, id ∈ c.pending ∨
    ∃ keyId request, .approvalRequired keyId request ∈ said ∧ request.requestId = id
  back : ∀ id, c'.Keeps id → c.Keeps id ∨
    ∃ message ∈ said, ∃ request, message.announcement? = some request ∧ request.requestId = id
  keeps : ∀ id, c.Keeps id → c'.Keeps id ∨ id ∈ hand'
  inHand : ∀ id ∈ hand, id ∈ hand' ∨ ∃ reason, .requestCancelled id reason ∈ said
  cancelled : ∀ id reason, .requestCancelled id reason ∈ said →
    id < c'.approvals.nextId ∧ ¬ c'.Keeps id
  announced : ∀ message ∈ said, ∀ request, message.announcement? = some request →
    start.approvals.nextId ≤ request.requestId ∧ request.requestId < c'.approvals.nextId ∧
      c'.Keeps request.requestId ∧
      ∀ reason, .requestCancelled request.requestId reason ∉ start.spoken c

/-- What the maps hold after a step is for each kind of step to say; all the panel has heard
follows. -/
theorem Filed.move (filed : Filed start loose hand silent c)
    (moves : Moves start hand hand' said c c') (shelved : Shelved loose' c')
    (looseFresh : ∀ id ∈ loose', start.approvals.nextId ≤ id ∧ id < c'.approvals.nextId ∧
      id ∉ hand' ∧ ¬ c'.Keeps id ∧ ∀ reason, .requestCancelled id reason ∉ start.spoken c')
    (handBelow : ∀ id ∈ hand', id < c'.approvals.nextId ∧ ¬ c'.Keeps id) :
    Filed start loose' hand' silent c' := by
  obtain ⟨new, log, outputs⟩ := moves.log
  have spoken : start.spoken c' = start.spoken c ++ said := by
    rw [spoken_append filed.grows log, outputs]
  have early : ∀ message ∈ start.spoken c, message ∈ start.spoken c' := by
    intro message mem
    rw [spoken]
    exact mem_append_left _ mem
  have now : ∀ message ∈ said, message ∈ start.spoken c' := by
    intro message mem
    rw [spoken]
    exact mem_append_right _ mem
  exact
    { shelved with
      looseFresh, handBelow
      keepsBelow := fun id keeps => by
        rcases moves.back _ keeps with old | ⟨message, told, request, announces, rfl⟩
        · exact (filed.keepsBelow id old).trans_le moves.nextId
        · exact (moves.announced message told request announces).2.1
      grows := by
        obtain ⟨older, grown⟩ := filed.grows
        exact ⟨new ++ older, by rw [log, grown, append_assoc]⟩
      nextId := filed.nextId.trans moves.nextId
      pendingFrom := fun id mem => by
        rcases moves.pending id mem with old | ⟨keyId, request, told, rfl⟩
        · exact (filed.pendingFrom id old).imp_right
            fun ⟨fresh, keyId, request, told, names⟩ => ⟨fresh, keyId, request, early _ told, names⟩
        · exact .inr ⟨(moves.announced _ told request rfl).1, keyId, request, now _ told, rfl⟩
      kept := fun id keeps => by
        rcases filed.kept id keeps with still | inHand | ⟨reason, told⟩ | silent
        · exact (moves.keeps id still).imp_right .inl
        · exact .inr ((moves.inHand id inHand).imp_right fun ⟨reason, told⟩ =>
            .inl ⟨reason, now _ told⟩)
        · exact .inr (.inr (.inl ⟨reason, early _ told⟩))
        · exact .inr (.inr (.inr silent))
      cancelled := fun id reason told => by
        rw [spoken] at told
        rcases mem_append.mp told with old | new
        · obtain ⟨below, gone⟩ := filed.cancelled id reason old
          refine ⟨below.trans_le moves.nextId, fun keeps => ?_⟩
          rcases moves.back _ keeps with still | ⟨message, new, request, announces, rfl⟩
          · exact gone still
          · exact (moves.announced message new request announces).2.2.2 reason old
        · exact moves.cancelled id reason new
      announced := fun message told request announces => by
        rw [spoken] at told
        rcases mem_append.mp told with old | new
        · obtain ⟨above, below⟩ := filed.announced message old request announces
          exact ⟨above, below.trans_le moves.nextId⟩
        · obtain ⟨above, below, -⟩ := moves.announced message new request announces
          exact ⟨above, below⟩
      told := fun message told request announces => by
        rw [spoken] at told ⊢
        rcases mem_append.mp told with old | new
        · rcases filed.told message old request announces with keeps | inHand | gone | silent
          · exact (moves.keeps _ keeps).imp_right .inl
          · refine .inr ((moves.inHand _ inHand).imp_right fun ⟨reason, cancelled⟩ => .inl ?_)
            obtain ⟨before, after, split⟩ := append_of_mem old
            refine ⟨before, message, after ++ said, request, reason, ?_, announces, rfl,
              mem_append_right _ cancelled⟩
            rw [split, append_assoc, cons_append]
          · exact .inr (.inr (.inl (gone.append _)))
          · exact .inr (.inr (.inr silent))
        · exact .inl (moves.announced message new request announces).2.2.1 }

/-! ### The frame rule -/

/-- A step that is about no request: it may shorten the queue, and tells the panel nothing of
any request. -/
structure Aside (c c' : Companion env) : Prop where
  pending : c'.pending = c.pending
  held : ∀ id, id ∈ c'.held ↔ id ∈ c.held
  listing : c'.listingId = c.listingId
  queue : c'.approvals.pending.Sublist c.approvals.pending
  nextId : c'.approvals.nextId = c.approvals.nextId
  log : ∃ new, c'.log = new ++ c.log ∧
    ∀ entry ∈ new, ∀ message, entry.output? = some message → message.aside = true

theorem Aside.refl (c : Companion env) : Aside c c where
  pending := rfl
  held _ := Iff.rfl
  listing := rfl
  queue := List.Sublist.refl _
  nextId := rfl
  log := ⟨[], rfl, by simp⟩

theorem Aside.keeps (aside : Aside c c') (id : RequestId) : c'.Keeps id ↔ c.Keeps id := by
  unfold Companion.Keeps
  rw [aside.pending, aside.held, aside.listing]

variable {message : Output}

theorem Output.about_of_announcement {request : Announcement}
    (announces : message.announcement? = some request) : message.aside = false := by
  cases message <;> first | rfl | cases announces

theorem Filed.aside (filed : Filed start loose hand silent c) (aside : Aside c c') :
    Filed start loose hand silent c' := by
  obtain ⟨new, log, each⟩ := aside.log
  have quiet : ∀ message ∈ (new.filterMap Entry.output?).reverse, message.aside = true := by
    intro message mem
    obtain ⟨entry, recent, said⟩ := mem_filterMap.mp (mem_reverse.mp mem)
    exact each entry recent message said
  have below : ∀ id, id < c.approvals.nextId ∧ ¬ c.Keeps id →
      id < c'.approvals.nextId ∧ ¬ c'.Keeps id := by
    intro id
    rw [aside.nextId, aside.keeps]
    exact fun both => both
  refine filed.move ⟨⟨new, log, rfl⟩, aside.nextId.ge, fun id mem => .inl (aside.pending ▸ mem),
    fun id keeps => .inl ((aside.keeps id).mp keeps),
    fun id keeps => .inl ((aside.keeps id).mpr keeps), fun _ inHand => .inl inHand, ?_, ?_⟩
    ⟨filed.queueOnce.sublist (aside.queue.map _), ?_, ?_, ?_⟩ ?_
    fun id mem => below id (filed.handBelow id mem)
  · intro id reason said
    cases quiet _ said
  · intro message said request announces
    have about := Output.about_of_announcement announces
    rw [quiet message said] at about
    cases about
  · intro request mem
    rw [aside.pending]
    exact filed.queued request (aside.queue.subset mem)
  · intro id mem
    rw [aside.pending]
    exact filed.heldApart id ((aside.held id).mp mem)
  · intro id listed
    rw [aside.listing] at listed
    rw [aside.pending, aside.held]
    exact filed.listingApart id listed
  · intro id mem
    obtain ⟨fresh, small, free, absent, unsaid⟩ := filed.looseFresh id mem
    obtain ⟨small, absent⟩ := below id ⟨small, absent⟩
    refine ⟨fresh, small, free, absent, fun reason said => ?_⟩
    rw [spoken_append filed.grows log] at said
    rcases mem_append.mp said with early | now
    · exact unsaid reason early
    · cases quiet _ now

theorem aside_record {entry : Entry} (quiet : entry.output? = none) : Aside c (c.record entry) :=
  { Aside.refl c with
    log := ⟨[entry], rfl, by
      intro other mem message said
      rw [mem_singleton.mp mem, quiet] at said
      cases said⟩ }

theorem aside_answer (reply : ReplyId) (response : Bytes) : Aside c (c.answer reply response) :=
  aside_record rfl

theorem aside_readClock : Aside c c.readClock := aside_record rfl

variable {approvals : ApprovalManager}

/-- The queue only loses requests. -/
theorem aside_setApprovals (queue : approvals.pending.Sublist c.approvals.pending)
    (nextId : approvals.nextId = c.approvals.nextId) :
    Aside c { c with approvals := approvals } :=
  { Aside.refl c with queue := queue, nextId := nextId }

theorem Filed.emitAside (filed : Filed start loose hand silent c)
    (about : message.aside = true) : Files start loose hand silent (c.emit message) := by
  unfold emit
  split
  · have aside : Aside c (c.record (.emitted message)) :=
      { Aside.refl c with
        log := ⟨[.emitted message], rfl, by
          intro other mem said same
          rw [mem_singleton.mp mem] at same
          cases same
          exact about⟩ }
    exact filed.aside aside
  · trivial

/-! ### Taking requests out -/

/-- Requests are taken out of the maps. -/
structure Takes (gone : List RequestId) (c c' : Companion env) : Prop where
  pending : ∀ id, id ∈ c'.pending ↔ id ∈ c.pending ∧ id ∉ gone
  held : ∀ id, id ∈ c'.held ↔ id ∈ c.held ∧ id ∉ gone
  listing : ∀ id, c'.listingId = some id ↔ c.listingId = some id ∧ id ∉ gone
  approvals : c'.approvals = c.approvals
  log : c'.log = c.log
  queued : ∀ request ∈ c.approvals.pending, request.id ∈ c.pending → request.id ∉ gone
  kept : ∀ id ∈ gone, c.Keeps id

variable {gone : List RequestId}

theorem Takes.keeps (takes : Takes gone c c') (id : RequestId) :
    c'.Keeps id ↔ c.Keeps id ∧ id ∉ gone := by
  unfold Companion.Keeps
  rw [takes.pending, takes.held, takes.listing, or_and_right, or_and_right]

/-- They are in hand then. -/
theorem Filed.take {gone : List RequestId} (filed : Filed start [] hand silent c)
    (takes : Takes gone c c') : Filed start [] (gone ++ hand) silent c' := by
  refine filed.move ⟨⟨[], takes.log, rfl⟩, (congrArg _ takes.approvals).ge,
    fun id mem => .inl ((takes.pending id).mp mem).1,
    fun id keeps => .inl ((takes.keeps id).mp keeps).1, fun id keeps => ?_,
    fun _ inHand => .inl (mem_append_right _ inHand), nofun, nofun⟩
    ⟨?_, ?_, fun id held pending =>
      filed.heldApart id ((takes.held id).mp held).1 ((takes.pending id).mp pending).1,
      fun id listed => ?_⟩ nofun fun id mem => ?_
  · by_cases mem : id ∈ gone
    · exact .inr (mem_append_left _ mem)
    · exact .inl ((takes.keeps id).mpr ⟨keeps, mem⟩)
  · rw [takes.approvals]
    exact filed.queueOnce
  · intro request mem
    rw [takes.approvals] at mem
    exact (filed.queued request mem).imp_left fun pending =>
      (takes.pending _).mpr ⟨pending, takes.queued request mem pending⟩
  · obtain ⟨unasked, unheld⟩ := filed.listingApart id ((takes.listing id).mp listed).1
    exact ⟨fun pending => unasked ((takes.pending id).mp pending).1,
      fun held => unheld ((takes.held id).mp held).1⟩
  · rw [takes.approvals, takes.keeps]
    rcases mem_append.mp mem with new | old
    · exact ⟨filed.keepsBelow id (takes.kept id new), fun both => both.2 new⟩
    · exact ⟨(filed.handBelow id old).1, fun both => (filed.handBelow id old).2 both.1⟩

section

variable (filed : Filed start [] hand silent c)

include filed

/-- An id in hand may be passed over in silence, and hands are compared by their members. -/
theorem Filed.rehand
    (fewer : ∀ id ∈ hand', id ∈ hand) (rest : ∀ id ∈ hand, id ∈ hand' ∨ silent id) :
    Filed start [] hand' silent c :=
  { filed with
    looseFresh := nofun
    handBelow := fun id mem => filed.handBelow id (fewer id mem)
    kept := fun id keeps => by
      rcases filed.kept id keeps with still | inHand | told | silent
      · exact .inl still
      · exact .inr ((rest id inHand).imp_right .inr)
      · exact .inr (.inr (.inl told))
      · exact .inr (.inr (.inr silent))
    told := fun message said request announces => by
      rcases filed.told message said request announces with keeps | inHand | cancelled | silent
      · exact .inl keeps
      · exact .inr ((rest _ inHand).imp_right .inr)
      · exact .inr (.inr (.inl cancelled))
      · exact .inr (.inr (.inr silent)) }

theorem Filed.dropPending {left : AList fun _ : RequestId => PendingSign}
    (members : ∀ other, other ∈ left ↔ other ∈ c.pending ∧ other ∉ gone)
    (there : ∀ other ∈ gone, other ∈ c.pending)
    (unqueued : ∀ request ∈ c.approvals.pending, request.id ∉ gone) :
    Filed start [] (gone ++ hand) silent { c with pending := left } :=
  filed.take
    { pending := members
      held := fun _ => (and_iff_left_of_imp fun held mem =>
        filed.heldApart _ held (there _ mem)).symm
      listing := fun _ => (and_iff_left_of_imp fun listed mem =>
        (filed.listingApart _ listed).1 (there _ mem)).symm
      approvals := rfl
      log := rfl
      queued := fun request mem _ => unqueued request mem
      kept := fun _ mem => .inl (there _ mem) }

theorem Filed.dropHeld {left : AList fun _ : RequestId => HeldSign}
    (members : ∀ other, other ∈ left ↔ other ∈ c.held ∧ other ∉ gone)
    (there : ∀ other ∈ gone, other ∈ c.held) :
    Filed start [] (gone ++ hand) silent { c with held := left } :=
  filed.take
    { pending := fun _ => (and_iff_left_of_imp fun pending mem =>
        filed.heldApart _ (there _ mem) pending).symm
      held := members
      listing := fun _ => (and_iff_left_of_imp fun listed mem =>
        (filed.listingApart _ listed).2 (there _ mem)).symm
      approvals := rfl
      log := rfl
      queued := fun _ _ pending mem => filed.heldApart _ (there _ mem) pending
      kept := fun _ mem => .inr (.inl (there _ mem)) }

end

theorem mem_erase_iff {Value : Type} (map : AList fun _ : RequestId => Value)
    (other : RequestId) : other ∈ map.erase id ↔ other ∈ map ∧ other ∉ [id] := by
  rw [mem_erase, and_comm, mem_singleton]

theorem mem_empty_iff {Value : Type} (map : AList fun _ : RequestId => Value)
    (other : RequestId) :
    other ∈ (∅ : AList fun _ : RequestId => Value) ↔ other ∈ map ∧ other ∉ map.keys :=
  ⟨fun mem => absurd mem (notMem_empty _), fun both => absurd both.1 both.2⟩

theorem Filed.erasePending (filed : Filed start [] hand silent c) (mem : id ∈ c.pending)
    (unqueued : ∀ request ∈ c.approvals.pending, request.id ≠ id) :
    Filed start [] (id :: hand) silent { c with pending := c.pending.erase id } :=
  filed.dropPending (mem_erase_iff _) (fun _ same => mem_singleton.mp same ▸ mem)
    fun request queued same => unqueued request queued (mem_singleton.mp same)

theorem Filed.takeListing (filed : Filed start [] hand silent c)
    (listed : c.listingId = some id) :
    Filed start [] (id :: hand) silent { c with heldIdentities := none } := by
  have apart := filed.listingApart id listed
  refine @Filed.take _ _ _ _ _ _ [id] filed ⟨fun _ => ?_, fun _ => ?_, fun other => ?_, rfl, rfl,
    fun _ _ pending same => apart.1 (mem_singleton.mp same ▸ pending),
    fun _ same => .inr (.inr (mem_singleton.mp same ▸ listed))⟩
  · exact Iff.symm (and_iff_left_of_imp fun pending same =>
      apart.1 (mem_singleton.mp same ▸ pending))
  · exact Iff.symm (and_iff_left_of_imp fun held same => apart.2 (mem_singleton.mp same ▸ held))
  · rw [listed, mem_singleton, Option.some_inj]
    exact ⟨nofun, fun both => absurd both.1.symm both.2⟩

/-- The panel is told of a request in hand. -/
theorem Filed.emitCancelled (filed : Filed start [] (id :: hand) silent c)
    (reason : CancelReason) :
    Files start [] hand silent (c.emit (.requestCancelled id reason)) := by
  refine ensures_emit ?_ trivial
  refine filed.move ⟨⟨[.emitted (.requestCancelled id reason)], rfl, rfl⟩, le_rfl,
    fun _ mem => .inl mem, fun _ keeps => .inl keeps, fun _ keeps => .inl keeps, ?_, ?_, ?_⟩
    { filed with } nofun fun other mem => filed.handBelow other (mem_cons_of_mem _ mem)
  · intro other inHand
    rcases mem_cons.mp inHand with rfl | rest
    · exact .inr ⟨reason, mem_singleton_self _⟩
    · exact .inl rest
  · intro other reason' said
    cases mem_singleton.mp said
    exact filed.handBelow id mem_cons_self
  · intro message said request announces
    rw [mem_singleton.mp said] at announces
    cases announces

/-! ### Announcing requests -/

/-- A new id is announced and kept. -/
structure Announces (id : RequestId) (message : Output) (c c' : Companion env) : Prop where
  pending : ∀ other ∈ c'.pending, other ∈ c.pending ∨
    (other = id ∧ ∃ keyId request, message = .approvalRequired keyId request)
  held : ∀ other ∈ c'.held, other ∈ c.held ∨ other = id
  listing : ∀ other, c'.listingId = some other → c.listingId = some other ∨ other = id
  heldApart : id ∈ c'.held → id ∉ c'.pending
  listingApart : c'.listingId = some id → id ∉ c'.pending ∧ id ∉ c'.held
  keeps : ∀ other, c.Keeps other → c'.Keeps other
  kept : c'.Keeps id
  names : ∃ request, message.announcement? = some request ∧ request.requestId = id
  queueOnce : (c'.approvals.pending.map Pending.id).Nodup
  queued : ∀ request ∈ c'.approvals.pending, request.id ∈ c'.pending
  nextId : c.approvals.nextId ≤ c'.approvals.nextId
  below : id < c'.approvals.nextId
  log : ∃ new, c'.log = new ++ c.log ∧ new.filterMap Entry.output? = [message]

theorem Filed.announce (filed : Filed start loose hand silent c)
    (announces : Announces id message c c') (fresh : start.approvals.nextId ≤ id)
    (free : id ∉ hand) (quiet : ∀ reason, .requestCancelled id reason ∉ start.spoken c) :
    Filed start [] hand silent c' := by
  obtain ⟨request, announcement, rfl⟩ := announces.names
  obtain ⟨new, log, outputs⟩ := announces.log
  have pending : ∀ other ∈ c'.pending, other ≠ request.requestId → other ∈ c.pending :=
    fun other mem old => (announces.pending other mem).resolve_right fun isNew => old isNew.1
  have held : ∀ other ∈ c'.held, other ≠ request.requestId → other ∈ c.held :=
    fun other mem old => (announces.held other mem).resolve_right old
  have back : ∀ other, c'.Keeps other → c.Keeps other ∨ other = request.requestId := by
    intro other keeps
    by_cases isNew : other = request.requestId
    · exact .inr isNew
    · exact .inl (keeps.imp (pending other · isNew) (Or.imp (held other · isNew) fun listed =>
        (announces.listing other listed).resolve_right isNew))
  refine filed.move ⟨⟨new, log, by rw [outputs, reverse_singleton]⟩, announces.nextId, ?_, ?_,
    fun other keeps => .inl (announces.keeps other keeps), fun _ inHand => .inl inHand, ?_, ?_⟩
    ⟨announces.queueOnce, fun request mem => .inl (announces.queued request mem), ?_, ?_⟩ nofun ?_
  · intro other mem
    refine (announces.pending other mem).imp_right ?_
    rintro ⟨rfl, keyId, request', rfl⟩
    cases announcement
    exact ⟨keyId, request, mem_singleton_self _, rfl⟩
  · intro other keeps
    exact (back other keeps).imp_right fun isNew =>
      ⟨message, mem_singleton_self _, request, announcement, isNew.symm⟩
  · intro other reason said
    rw [← mem_singleton.mp said] at announcement
    cases announcement
  · intro other said request' reads
    rw [mem_singleton.mp said, announcement] at reads
    cases reads
    exact ⟨fresh, announces.below, announces.kept, quiet⟩
  · intro other mem
    by_cases isNew : other = request.requestId
    · exact isNew ▸ announces.heldApart (isNew ▸ mem)
    · exact fun asked => filed.heldApart other (held other mem isNew) (pending other asked isNew)
  · intro other listed
    by_cases isNew : other = request.requestId
    · exact isNew ▸ announces.listingApart (isNew ▸ listed)
    · obtain ⟨unasked, unheld⟩ :=
        filed.listingApart other ((announces.listing other listed).resolve_right isNew)
      exact ⟨fun asked => unasked (pending other asked isNew),
        fun mem => unheld (held other mem isNew)⟩
  · intro other mem
    obtain ⟨below, gone⟩ := filed.handBelow other mem
    refine ⟨below.trans_le announces.nextId, fun keeps => ?_⟩
    rcases back other keeps with old | isNew
    · exact gone old
    · exact free (isNew ▸ mem)

/-! ### Queueing, settling and releasing -/

theorem aside_expire (nowMs : ℕ) :
    Aside c { c with approvals := c.approvals.expire nowMs } :=
  aside_setApprovals filter_sublist rfl

/-- The next id is new to everything. -/
theorem Filed.next_fresh (filed : Filed start [] hand silent c) :
    c.approvals.nextId ∉ hand ∧ ¬ c.Keeps c.approvals.nextId ∧
      ∀ reason, .requestCancelled c.approvals.nextId reason ∉ start.spoken c :=
  ⟨fun inHand => (filed.handBelow _ inHand).1.ne rfl,
    fun keeps => (filed.keepsBelow _ keeps).ne rfl,
    fun reason said => (filed.cancelled _ reason said).1.ne rfl⟩

theorem Filed.submit (filed : Filed start [] hand silent c) (publicBlob : Bytes)
    (peer : PeerContext) (scope : SignScope) :
    Submits (Filed start [] hand silent) (fun id => Filed start [id] hand silent)
      (c.submit publicBlob peer scope) := by
  have read : Filed start [] hand silent c.readClock := filed.aside aside_readClock
  refine submit_cases fun result outcome => ?_
  cases outcome with
  | wrongUid differs => exact read
  | refused error => exact read.aside (aside_expire c.elapsedMs)
  | granted grant live covered => exact read.aside (aside_expire c.elapsedMs)
  | queued expected room =>
    have expired := read.aside (aside_expire c.elapsedMs)
    obtain ⟨free, absent, quiet⟩ := read.next_fresh
    have kept : ∀ request ∈ (c.approvals.expire c.elapsedMs).pending, request.id ∈ c.pending :=
      fun request mem => (expired.queued request mem).resolve_right (by simp)
    refine expired.move ⟨⟨[], rfl, rfl⟩, Nat.le_succ _, fun _ mem => .inl mem,
      fun _ keeps => .inl keeps, fun _ keeps => .inl keeps, fun _ inHand => .inl inHand, nofun,
      nofun⟩ ⟨?_, ?_, expired.heldApart, expired.listingApart⟩ ?_ ?_
    · dsimp only
      rw [map_append, map_singleton]
      refine nodup_append.mpr ⟨expired.queueOnce, nodup_singleton _, ?_⟩
      intro id old other new
      rw [mem_singleton.mp new]
      obtain ⟨request, mem, rfl⟩ := mem_map.mp old
      exact (read.keepsBelow _ (.inl (kept request mem))).ne
    · intro request mem
      rcases mem_append.mp mem with old | new
      · exact .inl (kept request old)
      · rw [mem_singleton.mp new]
        exact .inr (mem_singleton_self _)
    · intro id mem
      rw [mem_singleton.mp mem]
      exact ⟨filed.nextId, Nat.lt_succ_self _, free, absent, quiet⟩
    · intro id inHand
      obtain ⟨below, gone⟩ := read.handBelow id inHand
      exact ⟨below.trans (Nat.lt_succ_self _), gone⟩

/-- A queued id that is not pending is dropped from the queue again. -/
theorem Filed.unqueue (filed : Filed start [id] hand silent c)
    (queue : approvals.pending.Sublist c.approvals.pending)
    (nextId : approvals.nextId = c.approvals.nextId)
    (unqueued : ∀ request ∈ approvals.pending, request.id ≠ id) :
    Filed start [] hand silent { c with approvals := approvals } :=
  { filed.aside (aside_setApprovals queue nextId) with
    queued := fun request mem => .inl
      ((filed.queued request (queue.subset mem)).resolve_right fun same =>
        unqueued request mem (mem_singleton.mp same))
    looseFresh := nofun }

theorem Filed.askApproval {publicBlob : Bytes} {peer : PeerContext} {scope : SignScope}
    {sign : PendingSign} (filed : Filed start [id] hand silent c) :
    Files start [] hand silent (c.askApproval id publicBlob peer scope sign) := by
  unfold Companion.askApproval
  split
  · have dropped : Filed start [] hand silent { c with approvals := c.approvals.disconnect id } :=
      filed.unqueue filter_sublist rfl (disconnect_unqueued c.approvals id)
    exact dropped.aside (aside_answer _ _)
  · next key found =>
    obtain ⟨fresh, below, free, absent, quiet⟩ := filed.looseFresh id (mem_singleton_self id)
    unfold emit
    split
    · refine filed.announce (?_ : Announces id (.approvalRequired key.itemId
        (announcement env id key peer scope)) c _) fresh free quiet
      exact
        { pending := fun other mem => by
            rcases (mem_insert _).mp mem with rfl | old
            · exact .inr ⟨rfl, _, _, rfl⟩
            · exact .inl old
          held := fun _ held => .inl held
          listing := fun _ listed => .inl listed
          heldApart := fun held => absurd (.inr (.inl held)) absent
          listingApart := fun listed => absurd (.inr (.inr listed)) absent
          keeps := fun other keeps => keeps.imp_left fun pending =>
            (mem_insert _).mpr (.inr pending)
          kept := .inl ((mem_insert _).mpr (.inl rfl))
          names := ⟨_, rfl, rfl⟩
          queueOnce := filed.queueOnce
          queued := fun request mem => by
            rcases filed.queued request mem with pending | loose
            · exact (mem_insert _).mpr (.inr pending)
            · exact (mem_insert _).mpr (.inl (mem_singleton.mp loose))
          nextId := le_rfl
          below := below
          log := ⟨[.named id sign.reply, .emitted _], rfl, rfl⟩ }
    · trivial

/-- Approving an id takes it off the queue and leaves the requests alone. -/
theorem approve_queue (c : Companion env) (id : RequestId) (duration : GrantDuration) :
    (c.approve id duration).2.approvals.pending.Sublist c.approvals.pending ∧
      (c.approve id duration).2.approvals.nextId = c.approvals.nextId ∧
      ((c.approvals.pending.map Pending.id).Nodup →
        ∀ request ∈ (c.approve id duration).2.approvals.pending, request.id ≠ id) := by
  have outcome := c.approvals.approve_outcome id duration c.elapsedMs
  have expired : (c.approvals.expire c.elapsedMs).pending.Sublist c.approvals.pending :=
    filter_sublist
  have erased : (c.approvals.pending.map Pending.id).Nodup →
      ∀ request ∈ (c.approvals.expire c.elapsedMs).pending.eraseP (·.id = id),
        request.id ≠ id := by
    intro once
    have once := once.sublist (expired.map Pending.id)
    generalize (c.approvals.expire c.elapsedMs).pending = queue at once
    induction queue with
    | nil => simp
    | cons head rest ih =>
      rw [map_cons, nodup_cons] at once
      by_cases same : head.id = id
      · rw [eraseP_cons_of_pos (by simpa using same)]
        intro request mem named
        exact once.1 (mem_map.mpr ⟨request, mem, named.trans same.symm⟩)
      · rw [eraseP_cons_of_neg (by simpa using same)]
        intro request mem
        rcases mem_cons.mp mem with rfl | later
        · exact same
        · exact ih once.2 request later
  unfold approve
  dsimp only
  generalize c.approvals.approve id duration c.elapsedMs = result at outcome ⊢
  cases outcome with
  | unknown absent => exact ⟨expired, rfl, fun _ => absent⟩
  | exhausted => exact ⟨eraseP_sublist.trans expired, rfl, erased⟩
  | approvedOnce request mem named => exact ⟨eraseP_sublist.trans expired, rfl, erased⟩
  | opened request mem named lasting grantable => exact ⟨eraseP_sublist.trans expired, rfl, erased⟩

theorem aside_approve (id : RequestId) (duration : GrantDuration) :
    Aside c (c.approve id duration).2 := by
  obtain ⟨queue, nextId, -⟩ := approve_queue c id duration
  refine ⟨rfl, fun _ => Iff.rfl, rfl, queue, nextId, ?_⟩
  refine ⟨(newGrants c.approvals (c.approvals.approve id duration c.elapsedMs).2).map
    (.opened · duration) ++ [.clock c.elapsedMs], by simp [approve, readClock,
      record], ?_⟩
  intro entry mem message said
  rcases mem_append.mp mem with opened | clock
  · obtain ⟨grant, -, rfl⟩ := mem_map.mp opened
    cases said
  · rw [mem_singleton.mp clock] at said
    cases said

/-- What is still to be settled is pending, off the queue, and named once. -/
def Settling (rest : List (RequestId × Authorization)) (c : Companion env) : Prop :=
  (rest.map Prod.fst).Nodup ∧
    ∀ released ∈ rest, released.1 ∈ c.pending ∧
      ∀ request ∈ c.approvals.pending, request.id ≠ released.1

section

variable (filed : Filed start [] hand silent c)

include filed

theorem Filed.settleOne {released : RequestId × Authorization}
    {rest : List (RequestId × Authorization)} (settling : Settling (released :: rest) c) :
    Ensures (fun c => Filed start [] hand silent c ∧ Settling rest c) (fun _ => True)
      (c.settleOne released) := by
  obtain ⟨once, each⟩ := settling
  obtain ⟨mem, unqueued⟩ := each released mem_cons_self
  rw [map_cons, nodup_cons] at once
  unfold Companion.settleOne
  split
  · next sign found =>
    let settled : Companion env :=
      { c with pending := c.pending.erase released.1 }.answer sign.reply
        (authorizedSignature c.store released.2 sign.message sign.flags)
    have erased : Filed start [] (released.1 :: hand) silent settled :=
      (filed.erasePending mem unqueued).aside (aside_answer _ _)
    have still : Settling rest settled := by
      refine ⟨once.2, fun other later => ⟨mem_erase.mpr ⟨fun same => once.1 ?_, ?_⟩, ?_⟩⟩
      · exact mem_map.mpr ⟨other, later, same⟩
      · exact (each other (mem_cons_of_mem _ later)).1
      · exact (each other (mem_cons_of_mem _ later)).2
    refine ((erased.emitCancelled .granted).and emit_fields).mono
      (fun after both => ⟨both.1, ?_⟩) fun _ _ => trivial
    unfold Settling
    rwa [both.2.1, both.2.2.2]
  · next missing =>
    have found := lookup_isSome.mpr mem
    rw [missing] at found
    cases found

theorem releaseGranted_settling :
    Settling (c.approvals.releaseGranted c.elapsedMs).1
      { c.readClock with approvals := (c.approvals.releaseGranted c.elapsedMs).2 } := by
  have expired : (c.approvals.expire c.elapsedMs).pending.Sublist c.approvals.pending :=
    filter_sublist
  have once := filed.queueOnce.sublist (expired.map Pending.id)
  refine ⟨?_, fun released mem => ?_⟩
  · dsimp only [ApprovalManager.releaseGranted]
    rw [map_map]
    exact once.sublist (filter_sublist.map Pending.id)
  · obtain ⟨request, settled, rfl⟩ := mem_map.mp mem
    obtain ⟨queued, covered⟩ := mem_filter.mp settled
    refine ⟨(filed.queued request (expired.subset queued)).resolve_right (by simp), ?_⟩
    intro other kept same
    obtain ⟨otherQueued, uncovered⟩ := mem_filter.mp kept
    have equal : other = request := inj_on_of_nodup_map once otherQueued queued same
    rw [equal, covered] at uncovered
    cases uncovered

theorem Filed.settleGranted :
    Files start [] hand silent c.settleGranted := by
  have read : Filed start [] hand silent c.readClock := filed.aside aside_readClock
  have released : Filed start [] hand silent
      { c.readClock with approvals := (c.approvals.releaseGranted c.elapsedMs).2 } :=
    read.aside (aside_setApprovals (filter_sublist.trans filter_sublist) rfl)
  have looped := ensures_foldlM
    (fun rest (c : Companion env) => Filed start [] hand silent c ∧ Settling rest c)
    (fun item rest before holds => holds.1.settleOne holds.2)
    ⟨released, releaseGranted_settling filed⟩
  exact looped.imp fun _ holds => holds.1

end

/-- The held requests stay held. -/
theorem aside_reheld {held : AList fun _ : RequestId => HeldSign}
    (same : (held.entries.map fun entry => (entry.1, entry.2.reply)).Perm
      (c.held.entries.map fun entry => (entry.1, entry.2.reply))) :
    Aside c { c with held := held } :=
  { Aside.refl c with
    held := fun id => by
      have keys := (same.map Prod.fst).mem_iff (a := id)
      rw [map_map, map_map] at keys
      exact keys }

/-- The queue loses the id only after the map does, so the two steps are taken as one. -/
theorem Filed.approvePending (filed : Filed start [] hand silent c) (mem : id ∈ c.pending)
    (duration : GrantDuration) :
    Filed start [] (id :: hand) silent
      ({ c with pending := c.pending.erase id }.approve id duration).2 := by
  let erased : Companion env := { c with pending := c.pending.erase id }
  obtain ⟨queue, nextId, unqueued⟩ := approve_queue erased id duration
  let dequeued : Companion env := { c with approvals := (erased.approve id duration).2.approvals }
  have off : Filed start [] hand silent dequeued := filed.aside (aside_setApprovals queue nextId)
  have taken := off.erasePending mem (unqueued filed.queueOnce)
  have aside : Aside erased (erased.approve id duration).2 := aside_approve id duration
  exact taken.aside { aside with queue := List.Sublist.refl _, nextId := rfl }

theorem releaseHeldIdentities_pending (reason : CancelReason) :
    Ensures (fun c' => c'.pending = c.pending) (fun _ => True)
      (c.releaseHeldIdentities reason) := by
  unfold releaseHeldIdentities
  split
  · exact rfl
  · refine emit_fields.imp fun after fields => ?_
    rw [fields.1, answerAll_eq]

theorem refusePending_pending (c : Companion env) (id : RequestId) :
    (c.refusePending id).pending = c.pending.erase id := by
  unfold refusePending
  split
  · rfl
  · next missing => exact (erase_of_notMem (lookup_eq_none.mp missing)).symm

theorem refuseHeld_pending (c : Companion env) (id : RequestId) :
    (c.refuseHeld id).pending = c.pending := by
  unfold refuseHeld
  split <;> rfl

/-- The request a control message answers. -/
def ControlMessage.answeredId : ControlMessage → Option RequestId
  | .approve requestId _ => some requestId
  | .deny requestId => some requestId
  | .unlockCancelled requestId _ => some requestId
  | _ => none

def Input.silences (c : Companion env) (id : RequestId) : Input → Prop
  | .control message => message.silences c id
  | _ => False

theorem reserveRequestId_ids {approvals' : ApprovalManager}
    (reserved : approvals.reserveRequestId = (.ok id, approvals')) :
    id = approvals.nextId ∧ approvals' = { approvals with nextId := id + 1 } := by
  unfold ApprovalManager.reserveRequestId at reserved
  split at reserved
  · cases reserved
  · next next added =>
    obtain rfl := checkedAdd_eq_some added
    cases reserved
    exact ⟨rfl, rfl⟩

/-! ### Client events -/

variable {request : Announcement}

theorem Filed.hold {sign : HeldSign} {deadline : Companion env → ℕ}
    (filed : Filed start [] hand silent c)
    (reserved : c.approvals.reserveRequestId = (.ok id, approvals))
    (names : request.requestId = id) :
    Files start [] hand silent
      ({ c with approvals := approvals }.hold id request sign deadline) := by
  obtain ⟨rfl, rfl⟩ := reserveRequestId_ids reserved
  obtain ⟨free, absent, quiet⟩ := filed.next_fresh
  unfold hold emit
  split
  · refine filed.announce (?_ : Announces c.approvals.nextId (.unlockRequired .sign request) c _)
      filed.nextId free quiet
    exact
      { pending := fun _ pending => .inl pending
        held := fun other mem => ((mem_insert _).mp mem).symm
        listing := fun _ listed => .inl listed
        heldApart := fun _ pending => absent (.inl pending)
        listingApart := fun listed => absurd (.inr (.inr listed)) absent
        keeps := fun other keeps => keeps.imp_right (Or.imp_left fun held =>
          (mem_insert _).mpr (.inr held))
        kept := .inr (.inl ((mem_insert _).mpr (.inl rfl)))
        names := ⟨_, rfl, names⟩
        queueOnce := filed.queueOnce
        queued := fun request mem => (filed.queued request mem).resolve_right (by simp)
        nextId := Nat.le_succ _
        below := Nat.lt_succ_self _
        log := ⟨[.named _ _, .clock _, .emitted _], rfl, rfl⟩ }
  · trivial

theorem Filed.list {reply : ReplyId} {deadline : Companion env → ℕ}
    (filed : Filed start [] hand silent c)
    (reserved : c.approvals.reserveRequestId = (.ok id, approvals))
    (names : request.requestId = id) (empty : c.heldIdentities = none) :
    Files start [] hand silent
      ({ c with approvals := approvals }.list id request reply deadline) := by
  obtain ⟨rfl, rfl⟩ := reserveRequestId_ids reserved
  obtain ⟨free, absent, quiet⟩ := filed.next_fresh
  unfold list emit
  split
  · refine filed.announce (?_ : Announces c.approvals.nextId
      (.unlockRequired .listIdentities request) c _) filed.nextId free quiet
    exact
      { pending := fun _ pending => .inl pending
        held := fun _ held => .inl held
        listing := fun other listed => .inr (Option.some.inj listed).symm
        heldApart := fun held => absurd (.inr (.inl held)) absent
        listingApart := fun _ => ⟨fun pending => absent (.inl pending),
          fun held => absent (.inr (.inl held))⟩
        keeps := fun other keeps => keeps.imp_right (Or.imp_right fun listed => by
          rw [listingId, empty] at listed
          cases listed)
        kept := .inr (.inr rfl)
        names := ⟨_, rfl, names⟩
        queueOnce := filed.queueOnce
        queued := fun request mem => (filed.queued request mem).resolve_right (by simp)
        nextId := Nat.le_succ _
        below := Nat.lt_succ_self _
        log := ⟨[.clock _, .emitted _], rfl, rfl⟩ }
  · trivial

/-! ### Every action -/

theorem taken_takeAll (hand : Hand) (entries : List (RequestId × HeldSign)) :
    (hand.takeAll entries).taken = entries.map Prod.fst ++ hand.taken := by
  induction entries with
  | nil => rfl
  | cons entry rest ih => exact congrArg (entry.1 :: ·) ih

theorem taken_oweAll {Item : Type*} (hand : Hand) (reply : Item → ReplyId) (items : List Item) :
    (hand.oweAll reply items).taken = hand.taken := by
  induction items with
  | nil => rfl
  | cons item rest ih => exact ih

theorem mem_of_lookup {Value : Type} {map : AList fun _ : RequestId => Value} {value : Value}
    (found : map.lookup id = some value) : id ∈ map :=
  lookup_isSome.mp (by rw [found]; rfl)

variable (start silent) in
theorem filed_rule : Rule silent (fun hand c => Filed start [] hand.taken silent c)
    (fun hand id c => Filed start [id] hand.taken silent c) fun _ => True where
  record _ quiet _ filed := filed.aside (aside_record quiet)
  snapshot _ filed := { filed with }
  say about _ filed := filed.emitAside about
  cancel reason filed := filed.emitCancelled reason
  answer _ filed := filed.aside (aside_answer _ _)
  pass silenced filed := filed.rehand (fun _ mem => mem_cons_of_mem _ mem) fun id mem => by
    rcases mem_cons.mp mem with rfl | old
    · exact .inr silenced
    · exact .inl old
  shorten _ queue _ nextId _ filed := filed.aside (aside_setApprovals queue nextId)
  submit publicBlob peer scope filed := filed.submit publicBlob peer scope
  approve duration filed := (filed.aside (aside_approve _ duration)).unqueue
    (List.Sublist.refl _) rfl ((approve_queue _ _ duration).2.2 filed.queueOnce)
  ask filed := filed.askApproval
  settle filed := filed.settleGranted
  emptyPending unqueued silenced _ filed := by
    rw [taken_oweAll]
    refine (filed.dropPending (mem_empty_iff _) (fun _ mem => mem) (by simp [unqueued])).rehand
      (fun _ mem => mem_append_right _ mem) fun id mem => ?_
    rcases mem_append.mp mem with pending | old
    · exact .inr (silenced id pending)
    · exact .inl old
  emptyHeld perm filed := by
    have ids := perm.map Prod.fst
    rw [map_map] at ids
    rw [taken_takeAll]
    refine (filed.dropHeld (mem_empty_iff _) fun _ mem => mem).rehand (fun id mem => ?_)
      fun id mem => .inl ?_
    · exact mem_append.mpr ((mem_append.mp mem).imp_left ids.mem_iff.mp)
    · exact mem_append.mpr ((mem_append.mp mem).imp_left ids.mem_iff.mpr)
  takePending found unqueued filed := filed.erasePending (mem_of_lookup found) unqueued
  takeHeld found filed := filed.dropHeld (mem_erase_iff _)
    fun _ same => mem_singleton.mp same ▸ mem_of_lookup found
  takeListing waiting filed := by
    rw [taken_oweAll]
    exact filed.takeListing (by rw [listingId, waiting]; rfl)
  approvePending duration found filed := filed.approvePending (mem_of_lookup found) duration
  reheld same filed := filed.aside (aside_reheld same)
  hold _ _ reserved names filed := filed.hold reserved names
  list reserved names empty filed := filed.list reserved names empty
  join waiting filed := by
    refine filed.aside { Aside.refl _ with listing := ?_ }
    rw [listingId, listingId, waiting]
    rfl

/-! ### Turns and runs -/

theorem Sorted.filed (sorted : Sorted c) : Filed c [] [] silent c := by
  have none : c.spoken c = [] := by
    rw [@spoken_of_grown _ c c [] rfl]
    rfl
  exact
    { sorted with
      looseFresh := nofun
      handBelow := nofun
      grows := ⟨[], rfl⟩
      nextId := le_rfl
      pendingFrom := fun _ mem => .inl mem
      kept := fun _ keeps => .inl keeps
      cancelled := fun _ _ said => absurd (none ▸ said) not_mem_nil
      announced := fun _ said => absurd (none ▸ said) not_mem_nil
      told := fun _ said => absurd (none ▸ said) not_mem_nil }

/-- What a turn does with the requests, as long as the loop goes on after it. -/
theorem turn_filed (sorted : Sorted c) {input : Input}
    (running : (c.turn input).running = true) :
    Filed c [] [] (fun id => input.silences c id) (c.turn input) := by
  have rule := @Rule.vaultRule _ _ _ _ _ (fun _ => True)
    (filed_rule c fun id => input.silences c id)
    (fun _ => trivial) fun _ _ _ _ _ filed => { filed with }
  have received : Filed c [] [] (fun id => input.silences c id) (c.record (.received input)) :=
    sorted.filed.aside (aside_record rfl)
  have filed : Ensures (fun after => after.running = true →
      Filed c [] [] (fun id => input.silences c id) after) (fun _ => True) (c.iterate input) := by
    have going : ∀ {flow : Flow env}, Files c [] [] (fun id => input.silences c id) flow →
        Ensures (fun after => after.running = true →
          Filed c [] [] (fun id => input.silences c id) after) (fun _ => True) flow :=
      fun files => files.imp fun _ filed _ => filed
    cases input with
    | control message =>
      by_cases shuts : message = .shutdown
      · subst shuts
        exact nofun
      · exact going (rule.onControl .empty shuts (fun _ => trivial) (fun _ => id) received)
    | malformedControl => trivial
    | controlClosed => exact nofun
    | client event =>
      have asked : Filed c [] [] (fun id => Input.silences c id (.client event))
          ({ c.record (.received (.client event)) with nextReply := c.nextReply + 1 }.record
            (.asked c.nextReply event)) :=
        have numbered : Filed c [] [] _ { c.record (.received (.client event)) with
            nextReply := c.nextReply + 1 } := { received with }
        numbered.aside (aside_record rfl)
      exact going (rule.handleClient .empty event asked)
    | loadResult epoch result =>
      exact going (rule.onLoadResult .empty epoch result received)
    | tick => exact going (rule.onTick .empty received)
  exact of_turn filed running running

/-- A denied request is no longer pending. -/
theorem onDeny_pending (id : RequestId) :
    Ensures (fun c' => id ∉ c'.pending) (fun _ => True) (c.onDeny id) := by
  have absent : id ∉ (({ c with approvals := c.approvals.disconnect id }.refusePending
      id).refuseHeld id).pending := by
    rw [refuseHeld_pending, refusePending_pending]
    exact fun mem => (mem_erase.mp mem).1 rfl
  unfold onDeny
  dsimp only
  split
  · refine (releaseHeldIdentities_pending .cancelled).imp fun after same => ?_
    rwa [same]
  · exact absent

/-- The request a control message answers is no longer pending after it. -/
theorem turn_answered (sorted : Sorted c) {message : ControlMessage}
    (answers : message.answeredId = some id)
    (running : (c.turn (.control message)).running = true) :
    id ∉ (c.turn (.control message)).pending := by
  have received : Filed c [] [] (fun _ => True) (c.record (.received (.control message))) :=
    sorted.filed.aside (aside_record rfl)
  have settled : Ensures (fun after => id ∉ after.pending) (fun _ => True)
      (c.iterate (.control message)) := by
    cases message <;> cases answers
    · have rule := filed_rule c fun _ => True
      refine (@BaseRule.approved _ _ _ _ .empty _ rule.toBaseRule _ _ received fun _ found =>
        @Rule.consent _ _ _ _ _ .empty _ rule _ _ _ found received).imp fun after approved => ?_
      rcases approved with inHand | ⟨-, same, held | absent⟩
      · exact fun pending => (inHand.handBelow id mem_cons_self).2 (.inl pending)
      · rw [same]
        exact received.heldApart id held
      · rwa [same]
    · exact onDeny_pending id
    · exact onDeny_pending id
  exact of_turn settled running

theorem initial_sorted : Sorted (initial env) where
  queueOnce := nodup_nil
  queued _ mem := by cases mem
  heldApart _ mem := absurd mem (notMem_empty _)
  listingApart _ listed := by cases listed
  keepsBelow id keeps := by
    rcases keeps with pending | held | listed
    · exact absurd pending (notMem_empty _)
    · exact absurd held (notMem_empty _)
    · cases listed

theorem run_sorted {inputs : List Input} (run : Run (system env) inputs c)
    (running : c.running = true) : Sorted c := by
  have sorted : c.running = true → Sorted c := by
    refine Run.invariant (fun _ c => c.running = true → Sorted c) ?_ ?_ run
    · intro state initial _
      rw [initial]
      exact initial_sorted
    · intro _ before input after _ sorted step running
      obtain ⟨wasRunning, rfl⟩ := step
      exact { turn_filed (sorted wasRunning) running with }
  exact sorted running

end QsBitwarden.Agent
