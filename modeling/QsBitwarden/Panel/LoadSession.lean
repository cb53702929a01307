import QsBitwarden.Lib.Utf8
import QsBitwarden.Panel.ControlOrder

/-! Owns the panel and the helper it started, joined by the helper's stdin, over every order of
the panel's events, the delivery of its lines and the helper's own turns: that the lines never
end the helper's loop if the panel awaits the result of one load before it begins the next, and
that the two agree on the load. It does not own either party. -/

namespace QsBitwarden.Panel

open Agent LoadLine Talk
open Lib List Option

/-! ### The two parties -/

/-- One process of the companion, in the surroundings it runs in. -/
structure Helper where
  env : Env
  companion : Companion env

namespace Helper

def launch (env : Env) : Helper := ⟨env, .initial env⟩

def take (helper : Helper) (input : Input) : Helper := ⟨helper.env, helper.companion.turn input⟩

end Helper

def LoadLine.begins : LoadLine → Bool
  | .keyLoadBegin _ _ => true
  | _ => false

/-- `delivered` counts the lines the helper has read. -/
structure LoadSession where
  panel : KeyLoads
  helper : Helper
  delivered : ℕ

inductive LoadMove
  | panel (event : KeyLoads.PanelEvent)
  /-- The helper reads the next line. -/
  | deliver
  /-- The helper has read every line, and its stdin is closed. -/
  | controlClosed
  | own (input : OwnInput)

namespace LoadSession

variable {jsonParse : Text → Option Json} {envs : ℕ → Env} {session session' : LoadSession}

def initial (envs : ℕ → Env) : LoadSession := ⟨.initial, .launch (envs 0), 0⟩

/-- The helper is there and its loop runs. -/
def live (session : LoadSession) : Bool :=
  session.panel.helperRunning && session.helper.companion.running

/-- The line the helper reads next. -/
def next (session : LoadSession) : Option LoadLine :=
  if session.live then session.panel.written[session.delivered]? else none

/-- The panel as it is now; a new launch is a new process. -/
def attend (envs : ℕ → Env) (session : LoadSession) (panel : KeyLoads) : LoadSession :=
  if panel.launches = session.panel.launches then { session with panel := panel }
  else ⟨panel, .launch (envs panel.launches), 0⟩

def perform (jsonParse : Text → Option Json) (envs : ℕ → Env) (session : LoadSession) :
    LoadMove → Option LoadSession
  | .panel event =>
    if session.panel.possible event then
      some (session.attend envs (session.panel.handle jsonParse event))
    else none
  | .deliver =>
    session.next.map fun line =>
      ⟨session.panel, session.helper.take line.input, session.delivered + 1⟩
  | .controlClosed =>
    if session.live && !session.panel.stdinEnabled &&
        session.delivered = session.panel.written.length then
      some { session with helper := session.helper.take .controlClosed }
    else none
  | .own input =>
    if session.live then some { session with helper := session.helper.take input.input }
    else none

/-- Every run of the two, with the surroundings each launch meets. -/
def system (jsonParse : Text → Option Json) (envs : ℕ → Env) : System LoadSession LoadMove :=
  partialAutomaton (perform jsonParse envs) (initial envs)

/-- The panel's 32-bit epoch has not wrapped around. -/
def Unwrapped (_ : LoadSession) (_ : LoadMove) (after : LoadSession) : Prop :=
  0 ≤ after.panel.sshAgentEpoch

/-- Nothing is written to a helper, and none is stopped, between its launch and its start. -/
def heeds (session : LoadSession) : LoadMove → Bool
  | .panel event =>
    !(event.heedless && session.panel.helperRunning && session.panel.written.isEmpty)
  | _ => true

def Timely (before : LoadSession) (move : LoadMove) (after : LoadSession) : Prop :=
  Unwrapped before move after ∧ before.heeds move = true

/-- The line at this place begins a load behind one that has ended well. -/
def Behind (lines : List LoadLine) (place : ℕ) : Prop :=
  lines[place]?.any begins = true ∧ Talk.read (lines.take place) = .ended

/-- An event starts a load behind one that has ended well only once that one's result is told: the
helper has read of every load before, and the last word on a load was its result. -/
def Patient (before : LoadSession) (move : LoadMove) (after : LoadSession) : Prop :=
  Timely before move after ∧ ∀ place < after.panel.written.length,
    before.panel.written.length ≤ place → Behind after.panel.written place →
      ((after.panel.written.take place).drop before.delivered).any begins = false ∧
        resultTold before.helper.companion.log = true

end LoadSession

/-! ### What the helper knows of the talk -/

theorem parseNonce_isSome {loadId : String} (valid : isValidLoadId loadId = true) :
    (parseNonce loadId).isSome = true := by
  simp only [isValidLoadId, Bool.and_eq_true, decide_eq_true_eq, List.all_eq_true] at valid
  obtain ⟨length, digits⟩ := valid
  have codes : ∀ char ∈ loadId.toList, (48 ≤ char.toNat ∧ char.toNat ≤ 57) ∨
      (97 ≤ char.toNat ∧ char.toNat ≤ 102) := by
    intro char mem
    have digit := digits char mem
    simp only [isHexLower, Bool.or_eq_true, Bool.and_eq_true, decide_eq_true_eq,
      Char.le_def] at digit
    exact digit
  have ascii : Utf8.IsAscii loadId.toList := by
    intro char mem
    have code := codes char mem
    omega
  unfold parseNonce
  rw [Utf8.toUTF8_toList_eq_encode, Utf8.encode_ascii ascii]
  dsimp only
  rw [if_pos]
  · rfl
  · refine ⟨by simpa using length, ?_⟩
    simp only [List.all_map, List.all_eq_true, Function.comp_apply]
    intro char mem
    have code := codes char mem
    simp only [isHexDigit, Utf8.toNat_byteOf (ascii char mem), decide_eq_true_eq]
    omega

section Companion

variable {env : Env} {c c' : Companion env} {talk : Talk} {line : LoadLine}

/-- Where the load stands at a helper that has heard the talk so far. -/
def Heard : Talk → Companion env → Prop
  | .fresh, c => c.handshakeComplete = false ∧ c.activeLoad = none
  | .idle, c => c.activeLoad = none
  | .begun epoch, c =>
    (∃ load, c.activeLoad = some load ∧ (load.epoch : ℤ) = epoch ∧ load.endReceived = false) ∧
      resultTold c.log = false
  | .ended, c =>
    ∀ load, c.activeLoad = some load → load.endReceived = true ∧ resultTold c.log = false
  | .closed, _ => False
  | .broken, _ => False

/-- The helper's own turns leave the talk where it is: a load is settled only once it has
ended. -/
theorem Heard.own (heard : Heard talk c) (turn : OwnTurn c c') : Heard talk c' := by
  rcases turn with kept | ⟨load, active, settled⟩
  · have same := kept.load
    cases talk with
    | fresh =>
      rw [heard.2] at same
      exact ⟨kept.handshake.trans heard.1, map_eq_none_iff.mp same⟩
    | idle => exact map_eq_none_iff.mp (same.trans (congrArg _ heard))
    | begun epoch =>
      obtain ⟨⟨load, active, named, unended⟩, untold⟩ := heard
      rw [active] at same
      obtain ⟨load', active', terms⟩ := map_eq_some_iff.mp same
      exact ⟨⟨load', active', (congrArg (Nat.cast ·.1) terms).trans named,
        (congrArg (·.2.2) terms).trans unended⟩, kept.untold (by rw [active]; rfl) untold⟩
    | ended =>
      intro load' active'
      rw [active'] at same
      obtain ⟨load, active, terms⟩ := map_eq_some_iff.mp same.symm
      obtain ⟨ended, untold⟩ := heard load active
      exact ⟨(congrArg (·.2.2) terms).symm.trans ended, kept.untold (by rw [active]; rfl) untold⟩
    | closed => exact heard
    | broken => exact heard
  · cases talk with
    | fresh => exact ⟨settled.handshake.trans heard.1, settled.idle⟩
    | idle => exact settled.idle
    | begun epoch =>
      obtain ⟨⟨other, active', -, unended⟩, -⟩ := heard
      rw [active] at active'
      cases active'
      exact absurd (settled.ended.symm.trans unended) (by simp)
    | ended => simp [Heard, settled.idle]
    | closed => exact heard
    | broken => exact heard

variable {message : ControlMessage}

theorem admissible_of_isAnswer (answers : isAnswer message = true) :
    Admissible c message := by
  cases message <;> first | exact absurd answers Bool.false_ne_true | trivial

theorem steady_of_isAnswer (answers : isAnswer message = true)
    (effect : ControlEffect c c' message) : Steady c c' := by
  cases message <;> first | exact effect | exact absurd answers Bool.false_ne_true

theorem Heard.hears (heard : Heard talk c) (order : talk.hear line ≠ .broken) :
    ∃ next, talk.hear line = next ∧ Hears talk line next := by
  refine ⟨_, rfl, hears_of_order ?_ order⟩
  rintro rfl
  exact heard

/-- A line in its place for the talk has its place at the helper, if no load is begun while one
is active. -/
theorem Heard.placed (heard : Heard talk c) (order : talk.hear line ≠ .broken)
    (idle : line.begins = true → c.activeLoad = none) :
    ∃ message, line.message = some message ∧ Admissible c message := by
  obtain ⟨next, -, hears⟩ := heard.hears order
  cases hears with
  | greeted => exact ⟨.hello, rfl, heard.1⟩
  | chose on => exact ⟨.options on, rfl, trivial⟩
  | answered message => exact ⟨message.1, rfl, admissible_of_isAnswer message.2⟩
  | begun resting nonnegative valid =>
    exact ⟨_, if_pos nonnegative, idle rfl, parseNonce_isSome valid⟩
  | ended ok nonnegative =>
    obtain ⟨⟨load, active, epoch, -⟩, -⟩ := heard
    exact ⟨_, if_pos nonnegative, load, active, by omega⟩
  | locked nonnegative => exact ⟨_, if_pos nonnegative, trivial⟩
  | loggedOut => exact ⟨.vaultLoggedOut, rfl, trivial⟩
  | shut => exact ⟨.shutdown, rfl, trivial⟩

theorem LoadLine.input_of_message (reads : line.message = some message) :
    line.input = .control message := by
  rw [input, reads]

/-- A line that does not end the loop had its place, and its effect. -/
theorem effect_of_running (running : (c.turn line.input).running = true) :
    ∃ message, line.message = some message ∧ ControlEffect c (c.turn line.input) message := by
  cases reads : line.message with
  | none =>
    have malformed : line.input = .malformedControl := by rw [LoadLine.input, reads]
    rw [malformed] at running
    cases running
  | some message =>
    rw [input_of_message reads] at running ⊢
    exact ⟨message, rfl, turn_control (admissible_of_running running) running⟩

/-- Once the result of the last load is told, none is active. -/
theorem Heard.idle_of_told (heard : Heard talk c) (told : resultTold c.log = true) :
    c.activeLoad = none := by
  cases talk with
  | fresh => exact heard.2
  | idle => exact heard
  | begun epoch => exact absurd (told.symm.trans heard.2) (by simp)
  | ended =>
    by_contra active
    obtain ⟨load, loading⟩ := ne_none_iff_exists'.mp active
    exact absurd (told.symm.trans (heard load loading).2) (by simp)
  | closed => exact heard.elim
  | broken => exact heard.elim

theorem idle_of_ownTurn (turn : OwnTurn c c') (idle : c.activeLoad = none) :
    c'.activeLoad = none := by
  rcases turn with kept | ⟨load, active, settled⟩
  · rw [← not_isSome_iff_eq_none, kept.isSome_eq, idle]
    simp
  · exact settled.idle

/-- Only a line that begins a load makes one active. -/
theorem idle_of_turn (idle : c.activeLoad = none) (other : line.begins = false)
    (running : (c.turn line.input).running = true) : (c.turn line.input).activeLoad = none := by
  obtain ⟨message, reads, effect⟩ := effect_of_running running
  cases message with
  | hello => exact effect.1.trans idle
  | keyLoadBegin epoch loadId =>
    cases line with
    | keyLoadBegin _ _ => cases other
    | answer answer =>
      have answers := answer.2
      rw [some_inj.mp reads] at answers
      cases answers
    | _ => simp [LoadLine.message] at reads
  | keyLoadEnd epoch status =>
    obtain ⟨⟨load, active, -⟩, -⟩ := effect
    cases idle.symm.trans active
  | vaultLocked epoch => exact effect.1
  | vaultLoggedOut => exact effect.1
  | shutdown => exact absurd (running.symm.trans effect) (by simp)
  | _ => exact effect.activeLoad.trans idle

/-- The helper follows the talk, as long as its loop runs. -/
theorem Heard.turn (heard : Heard talk c) (order : talk.hear line ≠ .broken)
    (running : (c.turn line.input).running = true) :
    Heard (talk.hear line) (c.turn line.input) := by
  obtain ⟨message, reads, effect⟩ := effect_of_running running
  obtain ⟨next, heardNext, hears⟩ := heard.hears order
  rw [heardNext]
  generalize c.turn line.input = after at effect running ⊢
  cases hears with
  | greeted =>
    cases reads
    exact effect.1.trans heard.2
  | chose on =>
    cases reads
    exact heard.own (.inl effect.toLoadKept)
  | answered answer =>
    cases reads
    exact heard.own (.inl (steady_of_isAnswer answer.2 effect).toLoadKept)
  | begun resting nonnegative valid =>
    cases (if_pos nonnegative).symm.trans reads
    obtain ⟨⟨nonce, active⟩, -, -, untold⟩ := effect
    exact ⟨⟨_, active, Int.toNat_of_nonneg nonnegative, rfl⟩, untold⟩
  | ended ok nonnegative =>
    cases (if_pos nonnegative).symm.trans reads
    obtain ⟨⟨load, active, ends⟩, -⟩ := effect
    rcases ends with ⟨fine, -, still, load', active', -, -, ended⟩ | ⟨idle, -⟩
    · cases ok with
      | true =>
        intro other active''
        cases active'.symm.trans active''
        exact ⟨ended, still (by rw [active]; rfl) heard.2⟩
      | false => cases fine
    · cases ok with
      | true => simp [Heard, idle]
      | false => exact idle
  | locked nonnegative =>
    cases (if_pos nonnegative).symm.trans reads
    exact effect.1
  | loggedOut =>
    cases reads
    exact effect.1
  | shut =>
    cases reads
    exact absurd (running.symm.trans effect) (by simp)

end Companion

namespace LoadSession

variable {jsonParse : Text → Option Json} {envs : ℕ → Env} {session session' : LoadSession}
  {history : List LoadMove} {move : LoadMove}

/-! ### The two together -/

/-- What a move can do. -/
inductive Performed (jsonParse : Text → Option Json) (envs : ℕ → Env) (session : LoadSession) :
    LoadMove → LoadSession → Prop
  | told (event : KeyLoads.PanelEvent) (possible : session.panel.possible event = true)
      (same : (session.panel.handle jsonParse event).launches = session.panel.launches)
      (lines : List LoadLine)
      (written : (session.panel.handle jsonParse event).written = session.panel.written ++ lines) :
      Performed jsonParse envs session (.panel event)
        ⟨session.panel.handle jsonParse event, session.helper, session.delivered⟩
  | launched (event : KeyLoads.PanelEvent) (possible : session.panel.possible event = true)
      (written : (session.panel.handle jsonParse event).written = []) (launches : ℕ) :
      Performed jsonParse envs session (.panel event)
        ⟨session.panel.handle jsonParse event, .launch (envs launches), 0⟩
  | heard (line : LoadLine) (reads : session.next = some line) :
      Performed jsonParse envs session .deliver
        ⟨session.panel, session.helper.take line.input, session.delivered + 1⟩
  | closed (live : session.live = true) :
      Performed jsonParse envs session .controlClosed
        ⟨session.panel, session.helper.take .controlClosed, session.delivered⟩
  | turned (input : OwnInput) (live : session.live = true) :
      Performed jsonParse envs session (.own input)
        ⟨session.panel, session.helper.take input.input, session.delivered⟩

theorem perform_performed (performed : session.perform jsonParse envs move = some session') :
    Performed jsonParse envs session move session' := by
  cases move with
  | panel event =>
    obtain ⟨possible, attended⟩ := ite_none_right_eq_some.mp performed
    cases attended
    unfold attend
    rcases (session.panel.handle_handled event).lines with ⟨same, lines, written⟩ | ⟨new, empty⟩
    · rw [if_pos same]
      exact .told event possible same lines written
    · rw [if_neg (by omega)]
      exact .launched event possible empty _
  | deliver =>
    obtain ⟨line, reads, taken⟩ := map_eq_some_iff.mp performed
    cases taken
    exact .heard line reads
  | controlClosed =>
    obtain ⟨possible, taken⟩ := ite_none_right_eq_some.mp performed
    cases taken
    simp only [Bool.and_eq_true] at possible
    exact .closed possible.1.1
  | own input =>
    obtain ⟨live, taken⟩ := ite_none_right_eq_some.mp performed
    cases taken
    exact .turned input live

/-- The panel keeps the order, and the helper knows of the lines it has read. -/
structure Following (session : LoadSession) : Prop where
  orderly : session.panel.Orderly
  bound : session.delivered ≤ session.panel.written.length
  heard : session.helper.companion.running = true →
    Heard (Talk.read (session.panel.written.take session.delivered)) session.helper.companion

theorem initial_following (envs : ℕ → Env) : Following (initial envs) where
  orderly := by
    refine ⟨⟨⟨.inl rfl, fun told => absurd rfl told, ?_, ?_⟩, le_rfl, ?_, ?_, ?_, ?_⟩, ?_, ?_,
      ?_⟩ <;> simp [initial, KeyLoads.initial, KeyLoads.channel, KeyLoads.gateOpen, Talk.read,
        sshAgentInitialState]
  bound := le_rfl
  heard _ := ⟨rfl, rfl⟩

variable {line : LoadLine}

theorem take_next {lines : List LoadLine} {count : ℕ}
    (here : lines[count]? = some line) : lines.take (count + 1) = lines.take count ++ [line] := by
  rw [take_add_one, here, toList_some]

theorem next_eq_some (reads : session.next = some line) :
    session.live = true ∧ session.panel.written[session.delivered]? = some line := by
  unfold next at reads
  split_ifs at reads with live
  exact ⟨live, reads⟩

theorem Following.order (following : Following session) (reads : session.next = some line) :
    (Talk.read (session.panel.written.take session.delivered)).hear line ≠ .broken := by
  obtain ⟨-, here⟩ := next_eq_some reads
  have split : session.panel.written =
      (session.panel.written.take session.delivered ++ [line]) ++
        session.panel.written.drop (session.delivered + 1) := by
    rw [← take_next here, take_append_drop]
  have order := following.orderly.order
  rw [split] at order
  have before := read_ne_broken_of_append order
  rwa [read_append] at before

theorem turn_controlClosed {env : Env} (c : Companion env) :
    (c.turn .controlClosed).running = false := rfl

/-- A permitted move keeps the helper with the talk. -/
theorem step_following (following : Following session)
    (performed : session.perform jsonParse envs move = some session')
    (timely : Timely session move session') : Following session' := by
  obtain ⟨unwrapped, heeds⟩ := timely
  have greeted : ∀ event, move = .panel event → event.heedless = true → session.panel.Spoken := by
    rintro event rfl heedless running empty
    simp [LoadSession.heeds, heedless, running, empty] at heeds
  cases perform_performed performed with
  | told event possible same lines written =>
    refine ⟨KeyLoads.handle_orderly following.orderly possible (greeted event rfl) unwrapped,
      ?_, ?_⟩
    · rw [written, length_append]
      exact following.bound.trans (Nat.le_add_right _ _)
    · rw [written, take_append_of_le_length following.bound]
      exact following.heard
  | launched event possible written launches =>
    refine ⟨KeyLoads.handle_orderly following.orderly possible (greeted event rfl) unwrapped,
      Nat.zero_le _, fun _ => ?_⟩
    exact ⟨rfl, rfl⟩
  | heard line reads =>
    obtain ⟨live, here⟩ := next_eq_some reads
    refine ⟨following.orderly, ?_, ?_⟩
    · exact (List.getElem?_eq_some_iff.mp here).1
    · intro running
      simp only [LoadSession.live, Bool.and_eq_true] at live
      rw [take_next here, read_append]
      exact (following.heard live.2).turn (following.order reads) running
  | closed live =>
    refine ⟨following.orderly, following.bound, fun running => ?_⟩
    exact absurd (running.symm.trans (turn_controlClosed _)) (by simp)
  | turned input live =>
    refine ⟨following.orderly, following.bound, fun running => ?_⟩
    simp only [LoadSession.live, Bool.and_eq_true] at live
    exact (following.heard live.2).own (turn_own _ input running)

theorem run_following (run : Run ((system jsonParse envs).restrict Timely) history session) :
    Following session := by
  refine Run.invariant (fun _ session => Following session) ?_ ?_ run
  · rintro session rfl
    exact initial_following envs
  · intro history session move session' run following step
    exact step_following following step.1 step.2

/-! ### Loads that wait for the last one's result -/

/-- Up to a line that begins a load behind one that has ended well, no other begins one, and the
helper has no load active. -/
def Waited (session : LoadSession) : Prop :=
  ∀ place, session.delivered ≤ place → Behind session.panel.written place →
    ((session.panel.written.take place).drop session.delivered).any begins = false ∧
      (session.helper.companion.running = true → session.helper.companion.activeLoad = none)

theorem Behind.lt {lines : List LoadLine} {place : ℕ} (behind : Behind lines place) :
    place < lines.length := by
  by_contra outside
  have begun := behind.1
  rw [getElem?_eq_none (Nat.le_of_not_lt outside)] at begun
  cases begun

theorem behind_append_iff {lines later : List LoadLine} {place : ℕ}
    (inside : place < lines.length) :
    Behind (lines ++ later) place ↔ Behind lines place := by
  rw [Behind, Behind, getElem?_append_left inside, take_append_of_le_length inside.le]

/-- A load that has waited is begun while none is active. -/
theorem Following.idle_of_waited (following : Following session) (waited : Waited session)
    (reads : session.next = some line) (begins : line.begins = true) :
    session.helper.companion.activeLoad = none := by
  obtain ⟨live, here⟩ := next_eq_some reads
  have running := (Bool.and_eq_true_iff.mp live).2
  have heard := following.heard running
  obtain ⟨next, -, hears⟩ := heard.hears (following.order reads)
  generalize talk : Talk.read (session.panel.written.take session.delivered) = before
    at heard hears
  cases hears with
  | begun resting nonnegative valid =>
    rcases resting with rfl | rfl
    · exact heard
    · exact (waited session.delivered le_rfl ⟨by rw [here]; rfl, talk⟩).2 running
  | _ => cases begins

theorem step_waited (following : Following session) (waited : Waited session)
    (performed : session.perform jsonParse envs move = some session')
    (patient : Patient session move session') : Waited session' := by
  intro place ahead behind
  cases perform_performed performed with
  | told event possible same lines written =>
    by_cases inside : place < session.panel.written.length
    · dsimp only at behind ⊢
      rw [written] at behind ⊢
      rw [take_append_of_le_length inside.le]
      exact waited place ahead ((behind_append_iff inside).mp behind)
    · obtain ⟨unbegun, told⟩ := patient.2 place behind.lt (Nat.le_of_not_lt inside) behind
      exact ⟨unbegun, fun running => (following.heard running).idle_of_told told⟩
  | launched event possible written launches =>
    have inside := behind.lt
    rw [written] at inside
    cases inside
  | heard line reads =>
    obtain ⟨live, here⟩ := next_eq_some reads
    obtain ⟨unbegun, idle⟩ := waited place (Nat.le_of_succ_le ahead) behind
    have first : (session.panel.written.take place).drop session.delivered =
        line :: (session.panel.written.take place).drop (session.delivered + 1) := by
      rw [drop_eq_getElem?_toList_append, getElem?_take_of_lt ahead, here]
      rfl
    rw [first, any_cons, Bool.or_eq_false_iff] at unbegun
    refine ⟨unbegun.2, fun running => ?_⟩
    exact idle_of_turn (idle (Bool.and_eq_true_iff.mp live).2) unbegun.1 running
  | closed live =>
    obtain ⟨unbegun, -⟩ := waited place ahead behind
    refine ⟨unbegun, fun running => ?_⟩
    exact absurd (running.symm.trans (turn_controlClosed _)) (by simp)
  | turned input live =>
    obtain ⟨unbegun, idle⟩ := waited place ahead behind
    refine ⟨unbegun, fun running => ?_⟩
    exact idle_of_ownTurn (turn_own _ input running) (idle (Bool.and_eq_true_iff.mp live).2)

theorem run_timely (run : Run ((system jsonParse envs).restrict Patient) history session) :
    Run ((system jsonParse envs).restrict Timely) history session :=
  run.weaken fun _ _ _ patient => patient.1

theorem run_waited (run : Run ((system jsonParse envs).restrict Patient) history session) :
    Waited session := by
  refine Run.invariant (fun _ session => Waited session) ?_ ?_ run
  · rintro session rfl place - behind
    cases behind.lt
  · intro history session move session' run waited step
    exact step_waited (run_following (run_timely run)) waited step.1 step.2

/-- The lines never end the helper's loop, if the panel awaits the result of a load that has ended
well before it begins the next: `hello` is said once and first, no load is begun while one is
active, and one is ended under the epoch of the active one. Reading the next line ends the loop
only if the panel does not read what the helper writes at that moment or the FIFO does not open
then. -/
theorem patient_lines_keep_loop
    (run : Run ((system jsonParse envs).restrict Patient) history session) :
    KeyLoads.Greeting session.panel.written ∧ ∀ line, session.next = some line →
      (∀ epoch loadId, line = .keyLoadBegin epoch loadId →
        session.helper.companion.activeLoad = none) ∧
      (∀ epoch ok, line = .keyLoadEnd epoch ok →
        ∃ load, session.helper.companion.activeLoad = some load ∧ (load.epoch : ℤ) = epoch) ∧
      ∀ stopped, session.helper.companion.iterate line.input = .error stopped →
        CutOff stopped := by
  have following := run_following (run_timely run)
  refine ⟨following.orderly.greeting, ?_⟩
  intro line reads
  obtain ⟨live, here⟩ := next_eq_some reads
  have running := (Bool.and_eq_true_iff.mp live).2
  have idle := following.idle_of_waited (run_waited run) reads
  obtain ⟨message, spelled, admissible⟩ :=
    (following.heard running).placed (following.order reads) idle
  refine ⟨?_, ?_, ?_⟩
  · rintro epoch loadId rfl
    exact idle rfl
  · rintro epoch ok rfl
    rw [LoadLine.message] at spelled
    obtain ⟨nonnegative, same⟩ := ite_none_right_eq_some.mp spelled
    cases same
    obtain ⟨load, active, epoch⟩ := admissible
    exact ⟨load, active, by omega⟩
  · intro stopped failed
    rw [input_of_message spelled] at failed
    have effect := iterate_effect admissible
    rwa [failed] at effect

/-! ### A load begun too soon -/

instance (before : LoadSession) (move : LoadMove) (after : LoadSession) :
    Decidable (Timely before move after) :=
  inferInstanceAs (Decidable (0 ≤ after.panel.sshAgentEpoch ∧ before.heeds move = true))

instance (lines : List LoadLine) (place : ℕ) : Decidable (Behind lines place) :=
  inferInstanceAs (Decidable (_ ∧ _))

instance (before : LoadSession) (move : LoadMove) (after : LoadSession) :
    Decidable (Patient before move after) :=
  inferInstanceAs (Decidable (_ ∧ _))

/-- The helper runs in the surroundings of one of the launches. -/
theorem run_env (run : Run (system jsonParse envs) history session) :
    ∃ launches, session.helper.env = envs launches := by
  refine Run.invariant (fun _ session => ∃ launches, session.helper.env = envs launches) ?_ ?_ run
  · rintro session rfl
    exact ⟨0, rfl⟩
  · intro history session move session' run before step
    cases perform_performed step with
    | told event possible same lines written => exact before
    | launched event possible written launches => exact ⟨launches, rfl⟩
    | heard line reads => exact before
    | closed live => exact before
    | turned input live => exact before

/-- Every line of the helper reads as `ready`. -/
def alwaysReady (_ : Text) : Option Json :=
  some (.object [("v", .number (.natural 2)), ("type", .string "ready"),
    ("socketPath", .string "s"), ("fifoPath", .string "f"), ("agentVersion", .string "1")])

def listening : Env := { sampleEnv 0 with accepts := fun _ => true }

def calm : ReadContext := ⟨true, false, false, false⟩

def nonceOf (digit : Char) : String := String.ofList (List.replicate 32 digit)

/-- A helper is greeted and serves, a nonce is at hand, and the list is read with it. -/
def firstLoad : List LoadMove :=
  [.panel (.supervisable true 1), .panel (.started 2), .deliver, .panel (.line ['r'] 3), .deliver,
    .panel (.status true), .panel (.loadIdRead (nonceOf 'a') calm), .panel .loadIdExited,
    .panel (.loadItems calm)]

/-- The read ends well while its payload is on the way, and the list is read again. -/
def secondLoad : List LoadMove :=
  [.deliver, .panel (.listExited true calm), .deliver, .panel (.loadIdRead (nonceOf 'b') calm),
    .panel .loadIdExited, .panel (.loadItems calm)]

def played (moves : List LoadMove) : Option LoadSession :=
  playAll (perform alwaysReady fun _ => listening) Timely (initial fun _ => listening) moves

theorem run_played {moves : List LoadMove} (here : played moves = some session) :
    Run ((system alwaysReady fun _ => listening).restrict Timely) (moves.reverse ++ []) session :=
  run_playAll (.start rfl) here

/-- Nothing but its lines can end this helper's loop. -/
theorem not_cutOff_of_run (run : Run (system jsonParse fun _ => listening) history session)
    (c : Companion session.helper.env) : ¬ CutOff c := by
  obtain ⟨-, env⟩ := run_env run
  have accepts : session.helper.env.accepts = fun _ => true := by rw [env]; rfl
  have opens : session.helper.env.fifoReader = fun _ => true := by rw [env]; rfl
  simp [CutOff, Unheard, FifoShut, accepts, opens]

/-- The second load is begun once the helper has told that it could not read the first. -/
def awaitedLoad : List LoadMove :=
  firstLoad ++ [.deliver, .panel (.listExited true calm), .deliver,
    .own (.loadResult 1 (.error .readTimeout)), .panel (.loadIdRead (nonceOf 'b') calm),
    .panel .loadIdExited, .panel (.loadItems calm)]

theorem patient_lines_keep_loop_second :
    ∃ session : LoadSession, session.next = some (.keyLoadBegin 2 (nonceOf 'b')) ∧
      session.helper.companion.activeLoad = none ∧
        ∀ stopped, session.helper.companion.iterate (keyLoadBegin 2 (nonceOf 'b')).input ≠
          .error stopped := by
  obtain ⟨session, here, next⟩ : ∃ session ∈
      playAll (perform alwaysReady fun _ => listening) Patient (initial fun _ => listening)
        awaitedLoad, session.next = some (.keyLoadBegin 2 (nonceOf 'b')) := by
    decide +kernel
  have run := run_playAll (.start rfl) here
  obtain ⟨-, lines⟩ := patient_lines_keep_loop run
  obtain ⟨idle, -, ends⟩ := lines _ next
  refine ⟨session, next, idle _ _ rfl, ?_⟩
  intro stopped failed
  exact not_cutOff_of_run run.of_restrict stopped (ends stopped failed)

/-- The helper's loop ends on the second load: the panel has sent it within the time the helper
waits for the payload of the first. -/
theorem second_load_breaks_loop :
    ∃ (session : LoadSession) (line : LoadLine) (history : List LoadMove)
      (stopped : Companion session.helper.env),
      Run ((system alwaysReady fun _ => listening).restrict Timely) history session ∧
        session.next = some line ∧
        session.helper.companion.iterate line.input = .error stopped ∧ ¬ CutOff stopped ∧
        session.helper.companion.activeLoad.isSome = true := by
  obtain ⟨session, here, next, active⟩ : ∃ session ∈ played (firstLoad ++ secondLoad),
      session.next = some (.keyLoadBegin 2 (nonceOf 'b')) ∧
        session.helper.companion.activeLoad.isSome = true := by
    decide +kernel
  have failed : session.helper.companion.iterate (keyLoadBegin 2 (nonceOf 'b')).input = .error _ :=
    @onKeyLoadBegin_of_active _ (session.helper.companion.record _) active 2 (nonceOf 'b')
  exact ⟨session, _, _, _, run_played here, next, failed,
    not_cutOff_of_run (run_played here).of_restrict _, active⟩

/-- A helper that has read every line agrees with the panel: the load the panel thinks active is
active there, under its epoch; otherwise any load there has ended. -/
theorem caught_up_agrees (run : Run ((system jsonParse envs).restrict Timely) history session)
    (live : session.live = true) (read : session.next = none) :
    if session.panel.sshAgentLoadActive then
      ∃ load, session.helper.companion.activeLoad = some load ∧
        (load.epoch : ℤ) = session.panel.sshAgentEpoch ∧ load.endReceived = false
    else ∀ load, session.helper.companion.activeLoad = some load → load.endReceived = true := by
  have following := run_following run
  obtain ⟨there, running⟩ := Bool.and_eq_true_iff.mp live
  have heard := following.heard running
  have told : Talk.read (session.panel.written.take session.delivered) = session.panel.channel := by
    rw [next, if_pos live, getElem?_eq_none_iff] at read
    rw [take_of_length_le read, KeyLoads.channel, if_pos there]
  rw [told] at heard
  split_ifs with active
  · rcases following.orderly.loading active with closed | begun
    · rw [closed] at heard
      exact heard.elim
    · rw [begun] at heard
      exact heard.1
  · have resting := following.orderly.resting (by simpa using active)
    intro load loading
    generalize session.panel.channel = talk at heard resting
    cases talk with
    | ended => exact (heard load loading).1
    | begun epoch => exact absurd rfl (resting epoch)
    | fresh => cases heard.2.symm.trans loading
    | idle => cases heard.symm.trans loading
    | _ => exact heard.elim

theorem caught_up_agrees_first : ∃ (session : LoadSession) (load : ActiveLoad),
    session.helper.companion.activeLoad = some load ∧ load.endReceived = false := by
  obtain ⟨session, here, live, read, active⟩ : ∃ session ∈ played (firstLoad ++ [.deliver]),
      session.live = true ∧ session.next.isNone = true ∧
        session.panel.sshAgentLoadActive = true := by
    decide +kernel
  have agrees := caught_up_agrees (run_played here) live (isNone_iff_eq_none.mp read)
  rw [if_pos active] at agrees
  obtain ⟨load, loading, -, unended⟩ := agrees
  exact ⟨session, load, loading, unended⟩

end LoadSession

end QsBitwarden.Panel
