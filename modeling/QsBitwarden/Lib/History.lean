import Mathlib.Data.List.Basic

/-! Owns histories and the runs that write them: past-time operators on a list of
entries kept most recent first, labelled transition systems, and the rule that
carries an invariant from the initial state along every run. It does not own any
particular system. -/

namespace QsBitwarden.Lib

open List Option

/-! ### Past-time operators -/

section Operators

variable {Entry : Type*}

/-- Some entry satisfied `start`, together with its own past, and every entry
after it satisfied `keeps`. -/
def Since (start : Entry → List Entry → Prop) (keeps : Entry → Prop) : List Entry → Prop
  | [] => False
  | entry :: past => start entry past ∨ (keeps entry ∧ Since start keeps past)

/-- Every entry, together with its own past, satisfies `holds`. -/
def Throughout (holds : Entry → List Entry → Prop) : List Entry → Prop
  | [] => True
  | entry :: past => holds entry past ∧ Throughout holds past

variable {start start' : Entry → List Entry → Prop} {keeps keeps' : Entry → Prop}

variable {entry : Entry}

theorem Since.here {past : List Entry} (now : start entry past) :
    Since start keeps (entry :: past) :=
  Or.inl now

theorem Since.later {past : List Entry} (kept : keeps entry)
    (earlier : Since start keeps past) : Since start keeps (entry :: past) :=
  Or.inr ⟨kept, earlier⟩

theorem Since.append {recent past : List Entry} (kept : ∀ entry ∈ recent, keeps entry)
    (earlier : Since start keeps past) : Since start keeps (recent ++ past) := by
  induction recent with
  | nil => exact earlier
  | cons entry rest ih =>
    exact .later (kept entry (by simp))
      (ih fun other mem => kept other (by simp [mem]))

variable {history : List Entry}

/-- The operator read as a split of the history. -/
theorem since_iff_split :
    Since start keeps history ↔
      ∃ recent entry past, history = recent ++ entry :: past ∧ start entry past ∧
        ∀ other ∈ recent, keeps other := by
  constructor
  · intro since
    induction history with
    | nil => exact since.elim
    | cons head tail ih =>
      rcases since with now | ⟨kept, earlier⟩
      · exact ⟨[], head, tail, rfl, now, by simp⟩
      · obtain ⟨recent, entry, past, rfl, started, each⟩ := ih earlier
        exact ⟨head :: recent, entry, past, rfl, started, by simpa using ⟨kept, each⟩⟩
  · rintro ⟨recent, entry, past, rfl, started, each⟩
    exact Since.append each (.here started)

theorem Since.mono (since : Since start keeps history)
    (starts : ∀ entry past, start entry past → start' entry past)
    (keep : ∀ entry, keeps entry → keeps' entry) : Since start' keeps' history := by
  induction history with
  | nil => exact since.elim
  | cons head tail ih =>
    rcases since with now | ⟨kept, earlier⟩
    · exact .here (starts _ _ now)
    · exact .later (keep _ kept) (ih earlier)

theorem throughout_iff_split {holds : Entry → List Entry → Prop} :
    Throughout holds history ↔
      ∀ recent entry past, history = recent ++ entry :: past → holds entry past := by
  constructor
  · intro throughout recent
    induction recent generalizing history with
    | nil =>
      rintro entry past rfl
      exact throughout.1
    | cons head rest ih =>
      rintro entry past rfl
      exact ih throughout.2 entry past rfl
  · intro each
    induction history with
    | nil => trivial
    | cons head tail ih =>
      refine ⟨each [] head tail rfl, ih ?_⟩
      rintro recent entry past rfl
      exact each (head :: recent) entry past rfl

/-- Entries read as the same key are one entry, if no key occurs twice. -/
theorem eq_of_nodup_filterMap {Key : Type*} {read : Entry → Option Key}
    (once : (history.filterMap read).Nodup) {other : Entry} {key : Key}
    (mem : entry ∈ history) (otherMember : other ∈ history) (reads : read entry = some key)
    (otherReads : read other = some key) : entry = other := by
  induction history with
  | nil => cases mem
  | cons head rest ih =>
    have alone : ∀ first, read first = some key → first = head → ∀ later ∈ rest,
        read later ≠ some key := by
      rintro first reads rfl later mem again
      rw [filterMap_cons_some reads] at once
      exact (nodup_cons.mp once).1 (mem_filterMap.mpr ⟨later, mem, again⟩)
    have tail : (rest.filterMap read).Nodup :=
      once.sublist ((sublist_cons_self head rest).filterMap read)
    rcases mem_cons.mp mem with here | below
    · rcases mem_cons.mp otherMember with also | deeper
      · exact here.trans also.symm
      · exact absurd otherReads (alone entry reads here other deeper)
    · rcases mem_cons.mp otherMember with also | deeper
      · exact absurd reads (alone other otherReads also entry below)
      · exact ih tail below deeper

end Operators

/-! ### Runs -/

section Runs

variable {State Label : Type*}

/-- A transition system whose steps carry labels. -/
structure System (State Label : Type*) where
  init : State → Prop
  step : State → Label → State → Prop

/-- The states a system reaches, with the labels of the steps taken, most recent first. -/
inductive Run (system : System State Label) : List Label → State → Prop
  | start {state : State} (initial : system.init state) : Run system [] state
  | next {history : List Label} {state state' : State} {label : Label}
      (run : Run system history state) (step : system.step state label state') :
      Run system (label :: history) state'

variable {history : List Label}

variable {system : System State Label} {state : State}

/-- What holds initially and is kept by every step of a run holds along the run. -/
theorem Run.invariant (inv : List Label → State → Prop)
    (initially : ∀ state, system.init state → inv [] state)
    (preserved : ∀ history state label state', Run system history state → inv history state →
      system.step state label state' → inv (label :: history) state')
    (run : Run system history state) :
    inv history state := by
  induction run with
  | start initial => exact initially _ initial
  | next run step ih => exact preserved _ _ _ _ run ih step

/-- The system with only the steps that meet a condition. -/
def System.restrict (system : System State Label) (permitted : State → Label → State → Prop) :
    System State Label where
  init := system.init
  step before label after := system.step before label after ∧ permitted before label after

variable {permitted : State → Label → State → Prop}

theorem Run.of_restrict (run : Run (system.restrict permitted) history state) :
    Run system history state := by
  induction run with
  | start initial => exact .start initial
  | next _ step ih => exact ih.next step.1

/-- A condition that every step meets restricts nothing. -/
theorem Run.restrict (run : Run system history state)
    (always : ∀ before label after, permitted before label after) :
    Run (system.restrict permitted) history state := by
  induction run with
  | start initial => exact .start initial
  | next run step ih => exact ih.next ⟨step, always _ _ _⟩

/-- A run whose steps meet a condition meets any weaker one. -/
theorem Run.weaken {permitted' : State → Label → State → Prop}
    (run : Run (system.restrict permitted) history state)
    (weaker : ∀ before label after, permitted before label after → permitted' before label after) :
    Run (system.restrict permitted') history state := by
  induction run with
  | start initial => exact .start initial
  | next run step ih => exact ih.next ⟨step.1, weaker _ _ _ step.2⟩

end Runs

/-! ### Deterministic machines -/

section Machines

variable {State Input Output : Type*}

/-- The runs of a function from state and input to output and state. -/
def machine (perform : State → Input → Output × State) (start : State) :
    System State (Input × Output) where
  init state := state = start
  step before label after := perform before label.1 = (label.2, after)

variable {perform : State → Input → Output × State} {history : List (Input × Output)}

/-- A history leads a machine to one state. -/
theorem machine_unique {start one other : State} (run : Run (machine perform start) history one)
    (run' : Run (machine perform start) history other) : one = other := by
  induction run generalizing other with
  | start initial => cases run' with | start initial' => exact initial.trans initial'.symm
  | next _ step ih =>
    cases run' with
    | next earlier step' =>
      obtain rfl := ih earlier
      exact congrArg Prod.snd (step.symm.trans step')

/-- The history and state after further inputs, given in the order they arrive. -/
def replay (perform : State → Input → Output × State) :
    List (Input × Output) → State → List Input → List (Input × Output) × State
  | history, state, [] => (history, state)
  | history, state, input :: rest =>
    replay perform ((input, (perform state input).1) :: history) (perform state input).2 rest

variable {start state : State}

theorem run_replay (run : Run (machine perform start) history state)
    (inputs : List Input) :
    Run (machine perform start) (replay perform history state inputs).1
      (replay perform history state inputs).2 := by
  induction inputs generalizing history state with
  | nil => exact run
  | cons input rest ih => exact ih (run.next rfl)

/-- Each of the inputs, in the order they arrive, makes a step that meets a condition. -/
def Permits (perform : State → Input → Output × State)
    (permitted : State → Input × Output → State → Prop) : State → List Input → Prop
  | _, [] => True
  | state, input :: rest =>
    permitted state (input, (perform state input).1) (perform state input).2 ∧
      Permits perform permitted (perform state input).2 rest

instance Permits.decidable {perform : State → Input → Output × State}
    {permitted : State → Input × Output → State → Prop}
    [∀ before label after, Decidable (permitted before label after)] :
    ∀ state inputs, Decidable (Permits perform permitted state inputs)
  | _, [] => .isTrue trivial
  | state, input :: rest =>
    have : Decidable (Permits perform permitted (perform state input).2 rest) :=
      Permits.decidable _ _
    inferInstanceAs (Decidable (_ ∧ _))

theorem run_replay_restrict {permitted : State → Input × Output → State → Prop}
    (run : Run ((machine perform start).restrict permitted) history state) {inputs : List Input}
    (permits : Permits perform permitted state inputs) :
    Run ((machine perform start).restrict permitted) (replay perform history state inputs).1
      (replay perform history state inputs).2 := by
  induction inputs generalizing history state with
  | nil => exact run
  | cons input rest ih => exact ih (run.next ⟨rfl, permits.1⟩) permits.2

/-- The runs of a function from state and input to state. -/
def automaton (handle : State → Input → State) (start : State) : System State Input where
  init state := state = start
  step before input after := handle before input = after

theorem run_foldl {handle : State → Input → State} {history : List Input}
    (run : Run (automaton handle start) history state) (inputs : List Input) :
    Run (automaton handle start) (inputs.reverse ++ history) (inputs.foldl handle state) := by
  induction inputs generalizing history state with
  | nil => exact run
  | cons input rest ih =>
    have next : Run (automaton handle start) (input :: history) (handle state input) := run.next rfl
    rw [reverse_cons, append_assoc]
    exact ih next

/-- The runs of a step that some inputs cannot make. -/
def partialAutomaton (handle : State → Input → Option State) (start : State) :
    System State Input where
  init state := state = start
  step before input after := handle before input = some after

/-- The state after these inputs, given in the order they arrive, if each can be taken and is
permitted. -/
def playAll (handle : State → Input → Option State) (permitted : State → Input → State → Prop)
    [∀ before input after, Decidable (permitted before input after)] :
    State → List Input → Option State
  | state, [] => some state
  | state, input :: rest =>
    (handle state input).bind fun after =>
      if permitted state input after then playAll handle permitted after rest else none

theorem run_playAll {handle : State → Input → Option State} {start state after : State}
    {permitted : State → Input → State → Prop}
    [∀ before input after, Decidable (permitted before input after)] {history inputs : List Input}
    (run : Run ((partialAutomaton handle start).restrict permitted) history state)
    (played : playAll handle permitted state inputs = some after) :
    Run ((partialAutomaton handle start).restrict permitted) (inputs.reverse ++ history) after := by
  induction inputs generalizing state history with
  | nil =>
    cases played
    exact run
  | cons input rest ih =>
    obtain ⟨next, handled, played⟩ := bind_eq_some_iff.mp played
    split_ifs at played with allowed
    have taken := run.next ⟨handled, allowed⟩
    rw [reverse_cons, append_assoc]
    exact ih taken played

end Machines

end QsBitwarden.Lib
