import Mathlib.Data.List.DropRight
import Mathlib.Data.List.TakeWhile

/-! Owns bracket structure of texts with strings: a scanner over character codes that follows
strings and nesting, balanced texts, and that a text of one bracket cannot be extended at its
front by anything but white space. It does not own any reader. -/

namespace QsBitwarden.Lib.Brackets

open List Option

/-! ### Scanning -/

/-- Where a scan stands: between tokens, inside a string, or behind a backslash in one. The
flag says that a string has just ended. -/
inductive Scan
  | outside (depth : ℕ) (ended : Bool)
  | inside (depth : ℕ)
  | escaped (depth : ℕ)
  deriving DecidableEq, Repr

def isOpen (code : ℕ) : Prop := code = 123 ∨ code = 91
def isClose (code : ℕ) : Prop := code = 125 ∨ code = 93
def isWhite (code : ℕ) : Prop := code = 32 ∨ code = 10 ∨ code = 9 ∨ code = 13

instance (code : ℕ) : Decidable (isOpen code) := inferInstanceAs (Decidable (_ ∨ _))
instance (code : ℕ) : Decidable (isClose code) := inferInstanceAs (Decidable (_ ∨ _))
instance (code : ℕ) : Decidable (isWhite code) := inferInstanceAs (Decidable (_ ∨ _ ∨ _ ∨ _))

/-- One character, by its code. No token starts with `l`, so none follows a string with it. -/
def step : Scan → ℕ → Option Scan
  | .outside depth ended, code =>
    if code = 34 then some (.inside depth)
    else if isOpen code then some (.outside (depth + 1) false)
    else if isClose code then
      match depth with
      | 0 => none
      | depth + 1 => some (.outside depth false)
    else if code = 108 ∧ ended = true then none
    else some (.outside depth false)
  | .inside depth, code =>
    if code = 34 then some (.outside depth true)
    else if code = 92 then some (.escaped depth)
    else some (.inside depth)
  | .escaped depth, _ => some (.inside depth)

def run (state : Scan) : List ℕ → Option Scan
  | [] => some state
  | code :: codes => (step state code).bind fun next => run next codes

theorem run_append (state : Scan) (left right : List ℕ) :
    run state (left ++ right) = (run state left).bind fun next => run next right := by
  induction left generalizing state with
  | nil => rfl
  | cons code codes ih =>
    rw [cons_append, run, run, bind_assoc]
    congr 1
    funext next
    exact ih next

def Scan.deeper (more : ℕ) : Scan → Scan
  | .outside depth ended => .outside (depth + more) ended
  | .inside depth => .inside (depth + more)
  | .escaped depth => .escaped (depth + more)

variable {code depth : ℕ}

theorem step_deeper {state next : Scan} (more : ℕ) (stepped : step state code = some next) :
    step (state.deeper more) code = some (next.deeper more) := by
  cases state with
  | outside depth ended =>
    simp only [Scan.deeper, step] at stepped ⊢
    split_ifs at stepped ⊢
    · cases stepped
      rfl
    · cases stepped
      rw [Nat.add_right_comm]
    · cases depth with
      | zero => cases stepped
      | succ depth =>
        cases stepped
        rw [Nat.succ_add]
    · cases stepped
      rfl
  | inside depth =>
    simp only [Scan.deeper, step] at stepped ⊢
    split_ifs at stepped ⊢ <;> cases stepped <;> rfl
  | escaped depth =>
    cases stepped
    rfl

variable {codes : List ℕ}

/-- A scan that succeeds does so inside any brackets. -/
theorem run_deeper {state last : Scan} (more : ℕ) (scanned : run state codes = some last) :
    run (state.deeper more) codes = some (last.deeper more) := by
  induction codes generalizing state with
  | nil =>
    cases scanned
    rfl
  | cons code codes ih =>
    obtain ⟨next, stepped, scanned⟩ := bind_eq_some_iff.mp scanned
    rw [run, step_deeper more stepped]
    exact ih scanned

/-! ### Balanced texts -/

/-- A text that closes what it opens and no more. -/
def Balanced (codes : List ℕ) : Prop :=
  ∃ ended, run (.outside 0 false) codes = some (.outside 0 ended)

variable {body : List ℕ}

/-! ### Bracketed texts -/

/-- One bracket with white space around it. -/
def Bracketed (codes : List ℕ) : Prop :=
  ∃ before opening body closing after,
    codes = before ++ opening :: (body ++ closing :: after) ∧ (∀ code ∈ before, isWhite code) ∧
      isOpen opening ∧ Balanced body ∧ isClose closing ∧ ∀ code ∈ after, isWhite code

/-- The first character after white space opens a bracket, and the last before white space
closes it. -/
def isBracketed (codes : List ℕ) : Bool :=
  match codes.dropWhile (isWhite ·) with
  | [] => false
  | opening :: rest =>
    match (rest.rdropWhile (isWhite ·)).reverse with
    | [] => false
    | closing :: body =>
      isOpen opening && isClose closing &&
        (run (.outside 0 false) body.reverse).any fun state =>
          state = .outside 0 false || state = .outside 0 true

theorem bracketed_of_isBracketed (is : isBracketed codes = true) :
    Bracketed codes := by
  unfold isBracketed at is
  split at is
  · cases is
  · next opening rest front =>
    split at is
    · cases is
    · next closing body back =>
      simp only [Bool.and_eq_true, decide_eq_true_eq, Option.any_eq_true, Bool.or_eq_true] at is
      obtain ⟨⟨opens, closes⟩, state, scanned, ends⟩ := is
      refine ⟨codes.takeWhile (isWhite ·), opening, body.reverse, closing,
        rest.rtakeWhile (isWhite ·), ?_, ?_, opens, ?_, closes, ?_⟩
      · have inner := congrArg reverse back
        rw [reverse_reverse, reverse_cons] at inner
        rw [append_cons body.reverse, ← inner, rdropWhile_append_rtakeWhile, ← front,
          takeWhile_append_dropWhile]
      · exact fun code mem => by simpa using mem_takeWhile_imp mem
      · rcases ends with rfl | rfl
        · exact ⟨false, scanned⟩
        · exact ⟨true, scanned⟩
      · exact fun code mem => by simpa using mem_rtakeWhile_imp mem

/-- The last character that is not white space is found at one place only. -/
theorem last_inj {left right leftAfter rightAfter : List ℕ} {first second : ℕ}
    (firstInk : ¬isWhite first) (secondInk : ¬isWhite second)
    (leftWhite : ∀ code ∈ leftAfter, isWhite code) (rightWhite : ∀ code ∈ rightAfter, isWhite code)
    (same : left ++ first :: leftAfter = right ++ second :: rightAfter) : left = right := by
  have ends {front after : List ℕ} {ink : ℕ} (inked : ¬isWhite ink)
      (white : ∀ code ∈ after, isWhite code) :
      (front ++ ink :: after).reverse.dropWhile (isWhite ·) = ink :: front.reverse := by
    rw [reverse_append, reverse_cons, append_assoc, dropWhile_append_of_pos (by simpa using white)]
    exact dropWhile_cons_of_neg (by simpa using inked)
  have both := @ends left _ _ firstInk leftWhite
  rw [same, ends secondInk rightWhite, List.cons.injEq, reverse_inj] at both
  exact both.2.symm

theorem isClose.not_white (closes : isClose code) : ¬isWhite code := by
  unfold isClose at closes
  unfold isWhite
  omega

/-- The start of an object whose first key starts with `l`. -/
def StartsObject (codes : List ℕ) : Prop := ∃ rest, codes = 123 :: 34 :: 108 :: rest

theorem bracketed_start (bracketed : Bracketed codes) (starts : StartsObject codes) :
    ∃ body closing after, codes = 123 :: (body ++ closing :: after) ∧ Balanced body ∧
      isClose closing ∧ ∀ code ∈ after, isWhite code := by
  obtain ⟨rest, rfl⟩ := starts
  obtain ⟨before, opening, body, closing, after, split, white, opens, balanced, closes, blank⟩ :=
    bracketed
  cases before with
  | nil =>
    rw [nil_append, List.cons.injEq] at split
    refine ⟨body, closing, after, ?_, balanced, closes, blank⟩
    rw [split.2]
  | cons code before =>
    rw [cons_append, List.cons.injEq] at split
    have blankStart := white code mem_cons_self
    rw [← split.1] at blankStart
    exact absurd blankStart (by decide)

/-- From inside a string, the start of the object ends the string and goes on with `l`. -/
theorem run_inside_start (rest : List ℕ) :
    run (.inside depth) (123 :: 34 :: 108 :: rest) = none := rfl

theorem run_escaped_start (rest : List ℕ) :
    run (.escaped depth) (123 :: 34 :: 108 :: rest) = none := rfl

/-- No balanced text has the object's bracket open in its middle. -/
theorem not_balanced_start {front : List ℕ} (balanced : Balanced body)
    (starts : ∃ rest, body = 34 :: 108 :: rest) : ¬Balanced (front ++ 123 :: body) := by
  rintro ⟨ended, scanned⟩
  obtain ⟨rest, start⟩ := starts
  rw [run_append] at scanned
  obtain ⟨state, -, scanned⟩ := bind_eq_some_iff.mp scanned
  cases state with
  | inside depth =>
    rw [start, run_inside_start] at scanned
    cases scanned
  | escaped depth =>
    rw [start, run_escaped_start] at scanned
    cases scanned
  | outside depth flag =>
    obtain ⟨last, inner⟩ := balanced
    have nested := run_deeper (depth + 1) inner
    rw [run] at scanned
    have opened : step (.outside depth flag) 123 = some (.outside (depth + 1) false) := rfl
    rw [opened, bind_some] at scanned
    have shifted : run (.outside (0 + (depth + 1)) false) body =
        some (.outside (0 + (depth + 1)) last) := nested
    rw [Nat.zero_add, scanned, Option.some.injEq, Scan.outside.injEq] at shifted
    omega

theorem body_start {after rest : List ℕ} {closing : ℕ} (closes : isClose closing)
    (split : body ++ closing :: after = 34 :: 108 :: rest) : ∃ rest, body = 34 :: 108 :: rest := by
  unfold isClose at closes
  match body with
  | [] =>
    rw [nil_append, List.cons.injEq] at split
    omega
  | [_] =>
    rw [cons_append, nil_append, List.cons.injEq, List.cons.injEq] at split
    omega
  | _ :: _ :: others =>
    rw [cons_append, cons_append, List.cons.injEq, List.cons.injEq] at split
    exact ⟨others, by rw [split.1, split.2.1]⟩

/-- A bracketed text that ends with a bracketed object has only white space before it. -/
theorem white_of_bracketed_append {front object : List ℕ} (whole : Bracketed (front ++ object))
    (bracketed : Bracketed object) (starts : StartsObject object) :
    ∀ code ∈ front, isWhite code := by
  obtain ⟨objectBody, objectClosing, objectAfter, objectSplit, objectBalanced, objectCloses,
    objectBlank⟩ := bracketed_start bracketed starts
  obtain ⟨rest, started⟩ := starts
  obtain ⟨before, opening, body, closing, after, split, white, opens, balanced, closes, blank⟩ :=
    whole
  intro code mem
  rcases append_eq_append_iff.mp split with ⟨between, same, -⟩ | ⟨between, same, inner⟩
  · -- The front ends within the white space before the bracket.
    apply white
    rw [same]
    exact mem_append_left _ mem
  · cases between with
    | nil =>
      rw [same, append_nil] at mem
      exact white code mem
    | cons first between =>
      exfalso
      rw [cons_append, List.cons.injEq] at inner
      rcases append_eq_append_iff.mp inner.2 with
        ⟨beyond, -, behind⟩ | ⟨objectFront, split, behind⟩
      · -- The object would lie behind the bracket, in white space.
        have inked : ¬isWhite 123 := by decide
        cases beyond with
        | nil =>
          rw [nil_append, started, List.cons.injEq] at behind
          rw [behind.1] at closes
          exact absurd closes (by decide)
        | cons last beyond =>
          rw [cons_append, List.cons.injEq, started] at behind
          refine inked (blank 123 ?_)
          rw [behind.2]
          exact mem_append_right _ mem_cons_self
      · -- The object would be the last part of the bracket's body, its own bracket open.
        have same : objectFront ++ closing :: after =
            (123 :: objectBody) ++ objectClosing :: objectAfter := by
          rw [← behind, objectSplit]
          rfl
        have opened := last_inj closes.not_white objectCloses.not_white blank objectBlank same
        rw [split, opened] at balanced
        have start := body_start objectCloses (List.cons.inj (objectSplit.symm.trans started)).2
        exact not_balanced_start objectBalanced start balanced

end QsBitwarden.Lib.Brackets
