import QsBitwarden.Lib.History

/-! Owns two parties joined by two channels that deliver in order: their moves, the runs
of the pair, and the rule that carries what one party knows of the other's messages along
every run. It does not own any particular party. -/

namespace QsBitwarden.Lib

open List Option

/-- What a party does by itself and with a message it takes from its channel: its new state
and what it sends, oldest first. It has no move where the result is `none`. -/
structure Party (State Own Receipt In Out : Type*) where
  act : State → Own → Option (State × List Out)
  receive : State → Receipt → In → Option (State × List Out)

/-- The pair, with what is in flight, oldest first. -/
structure Duplex (Left Right Rightward Leftward : Type*) where
  left : Left
  right : Right
  rightward : List Rightward
  leftward : List Leftward
  /-- Everything the left party has sent, most recent first. -/
  sent : List Rightward

inductive Move (LeftOwn LeftReceipt RightOwn RightReceipt : Type*)
  | left (own : LeftOwn)
  | right (own : RightOwn)
  | toLeft (receipt : LeftReceipt)
  | toRight (receipt : RightReceipt)

namespace Duplex

variable {Left LeftOwn LeftReceipt Right RightOwn RightReceipt Rightward Leftward : Type*}

/-- The left party has gone on to `state` and sent `out`. -/
def afterLeft (pair : Duplex Left Right Rightward Leftward) (result : Left × List Rightward) :
    Duplex Left Right Rightward Leftward :=
  { pair with
    left := result.1
    rightward := pair.rightward ++ result.2
    sent := result.2.reverse ++ pair.sent }

def afterRight (pair : Duplex Left Right Rightward Leftward) (result : Right × List Leftward) :
    Duplex Left Right Rightward Leftward :=
  { pair with right := result.1, leftward := pair.leftward ++ result.2 }

def move (left : Party Left LeftOwn LeftReceipt Leftward Rightward)
    (right : Party Right RightOwn RightReceipt Rightward Leftward)
    (pair : Duplex Left Right Rightward Leftward) :
    Move LeftOwn LeftReceipt RightOwn RightReceipt → Option (Duplex Left Right Rightward Leftward)
  | .left own => (left.act pair.left own).map pair.afterLeft
  | .right own => (right.act pair.right own).map pair.afterRight
  | .toLeft receipt =>
    match pair.leftward with
    | [] => none
    | message :: rest =>
      (left.receive pair.left receipt message).map { pair with leftward := rest }.afterLeft
  | .toRight receipt =>
    match pair.rightward with
    | [] => none
    | message :: rest =>
      (right.receive pair.right receipt message).map { pair with rightward := rest }.afterRight

/-- The runs of the pair from two starting states and empty channels. -/
def system (left : Party Left LeftOwn LeftReceipt Leftward Rightward)
    (right : Party Right RightOwn RightReceipt Rightward Leftward) (startLeft : Left)
    (startRight : Right) :
    System (Duplex Left Right Rightward Leftward)
      (Move LeftOwn LeftReceipt RightOwn RightReceipt) :=
  partialAutomaton (move left right) ⟨startLeft, startRight, [], [], []⟩

section Rules

variable {left : Party Left LeftOwn LeftReceipt Leftward Rightward}
  {right : Party Right RightOwn RightReceipt Rightward Leftward}
  {startLeft : Left} {startRight : Right} {pair after : Duplex Left Right Rightward Leftward}
  {label : Move LeftOwn LeftReceipt RightOwn RightReceipt}
  {history : List (Move LeftOwn LeftReceipt RightOwn RightReceipt)}

/-- A move of the pair is a move of one party, which may have taken the oldest message on its
channel first. -/
inductive Effect (left : Party Left LeftOwn LeftReceipt Leftward Rightward)
    (right : Party Right RightOwn RightReceipt Rightward Leftward)
    (pair : Duplex Left Right Rightward Leftward) :
    Move LeftOwn LeftReceipt RightOwn RightReceipt → Duplex Left Right Rightward Leftward → Prop
  | leftActs {own : LeftOwn} {result : Left × List Rightward}
      (acts : left.act pair.left own = some result) :
      Effect left right pair (.left own) (pair.afterLeft result)
  | rightActs {own : RightOwn} {result : Right × List Leftward}
      (acts : right.act pair.right own = some result) :
      Effect left right pair (.right own) (pair.afterRight result)
  | leftReceives {receipt : LeftReceipt} {message : Leftward} {rest : List Leftward}
      {result : Left × List Rightward} (inFlight : pair.leftward = message :: rest)
      (receives : left.receive pair.left receipt message = some result) :
      Effect left right pair (.toLeft receipt) ({ pair with leftward := rest }.afterLeft result)
  | rightReceives {receipt : RightReceipt} {message : Rightward} {rest : List Rightward}
      {result : Right × List Leftward} (inFlight : pair.rightward = message :: rest)
      (receives : right.receive pair.right receipt message = some result) :
      Effect left right pair (.toRight receipt) ({ pair with rightward := rest }.afterRight result)

theorem move_effect (moved : pair.move left right label = some after) :
    Effect left right pair label after := by
  cases label with
  | left own =>
    obtain ⟨result, acts, rfl⟩ := map_eq_some_iff.mp moved
    exact .leftActs acts
  | right own =>
    obtain ⟨result, acts, rfl⟩ := map_eq_some_iff.mp moved
    exact .rightActs acts
  | toLeft receipt =>
    dsimp only [move] at moved
    split at moved
    · cases moved
    · next message rest inFlight =>
      obtain ⟨result, receives, rfl⟩ := map_eq_some_iff.mp moved
      exact .leftReceives inFlight receives
  | toRight receipt =>
    dsimp only [move] at moved
    split at moved
    · cases moved
    · next message rest inFlight =>
      obtain ⟨result, receives, rfl⟩ := map_eq_some_iff.mp moved
      exact .rightReceives inFlight receives

/-- What ties the left party to what it has sent, and is kept by its own moves, holds along
every run: the right party has no part in it. -/
theorem run_left (inv : List Rightward → Left → Prop) (start : inv [] startLeft)
    (acts : ∀ sent state own result, inv sent state → left.act state own = some result →
      inv (result.2.reverse ++ sent) result.1)
    (receives : ∀ sent state receipt message result, inv sent state →
      left.receive state receipt message = some result → inv (result.2.reverse ++ sent) result.1)
    (run : Run (system left right startLeft startRight) history pair) :
    inv pair.sent pair.left := by
  refine Run.invariant (fun _ pair => inv pair.sent pair.left) ?_ ?_ run
  · intro state initial
    rw [initial]
    exact start
  · intro _ before label after _ holds moved
    cases move_effect moved with
    | leftActs step => exact acts _ _ _ _ holds step
    | leftReceives _ step => exact receives _ _ _ _ _ holds step
    | rightActs step => exact holds
    | rightReceives _ step => exact holds

theorem append_subset_sent {flight sent out : List Rightward} (subset : flight ⊆ sent) :
    flight ++ out ⊆ out.reverse ++ sent := by
  intro message mem
  rcases mem_append.mp mem with earlier | new
  · exact mem_append_right _ (subset earlier)
  · exact mem_append_left _ (mem_reverse.mpr new)

/-- What the right party knows of the messages sent to it, and what its own messages rest on:
if more messages never take it away and the right party's permitted moves keep it, it holds
along every run of permitted moves, whatever the left party does. -/
theorem run_right (known : List Rightward → Right → Prop)
    (grounded : List Rightward → Leftward → Prop)
    {permitted : Right → Right → Prop} (start : known [] startRight)
    (knownGrows : ∀ sent more state, known sent state → known (more ++ sent) state)
    (groundedGrows : ∀ sent more message, grounded sent message → grounded (more ++ sent) message)
    (acts : ∀ sent state own result, known sent state → right.act state own = some result →
      permitted state result.1 → known sent result.1 ∧ ∀ message ∈ result.2, grounded sent message)
    (receives : ∀ sent state receipt received result, known sent state → received ∈ sent →
      right.receive state receipt received = some result → permitted state result.1 →
      known sent result.1 ∧ ∀ message ∈ result.2, grounded sent message)
    (run : Run ((system left right startLeft startRight).restrict
      fun before _ after => permitted before.right after.right) history pair) :
    known pair.sent pair.right ∧ (∀ message ∈ pair.leftward, grounded pair.sent message) ∧
      pair.rightward ⊆ pair.sent := by
  refine Run.invariant (fun _ pair => known pair.sent pair.right ∧
    (∀ message ∈ pair.leftward, grounded pair.sent message) ∧ pair.rightward ⊆ pair.sent) ?_ ?_ run
  · intro state initial
    rw [initial]
    exact ⟨start, by simp, by simp⟩
  · intro _ before label after _ ⟨knows, asks, flight⟩ ⟨moved, permits⟩
    cases move_effect moved with
    | leftActs step =>
      exact ⟨knownGrows _ _ _ knows,
        fun message mem => groundedGrows _ _ _ (asks message mem),
        append_subset_sent flight⟩
    | leftReceives inFlight step =>
      rw [inFlight] at asks
      exact ⟨knownGrows _ _ _ knows,
        fun message mem => groundedGrows _ _ _ (asks message (mem_cons_of_mem _ mem)),
        append_subset_sent flight⟩
    | rightActs step =>
      obtain ⟨knows', sends⟩ := acts _ _ _ _ knows step permits
      exact ⟨knows', forall_mem_append.mpr ⟨asks, sends⟩, flight⟩
    | rightReceives inFlight step =>
      rw [inFlight] at flight
      have heard := cons_subset.mp flight
      obtain ⟨knows', sends⟩ := receives _ _ _ _ _ knows heard.1 step permits
      exact ⟨knows', forall_mem_append.mpr ⟨asks, sends⟩, heard.2⟩

end Rules

end Duplex

end QsBitwarden.Lib
