import Mathlib.Data.List.TakeWhile
import QsBitwarden.Lib.Text

/-! Owns how bash reads a script into words and operators: quotes, escapes, comments, the
split into simple commands, and which argument of `bash -c` is taken as the script. A
character that takes part in an expansion is kept apart from one that stands for itself.
Here-documents, reserved words and the inside of a command substitution are not part of
it. -/

namespace QsBitwarden.Lib.Shell

open List

/-! ### Words and operators -/

/-- A character of a word: one that stands for itself, or one that bash may expand. -/
inductive Piece where
  | literal (char : Char)
  | active (char : Char)
  deriving DecidableEq, Repr

/-- The end of a script inside a quotation leaves it `unfinished`: a syntax error. -/
inductive Token where
  | word (pieces : List Piece)
  | operator (char : Char)
  | unfinished
  deriving DecidableEq, Repr

/-- Where in a quotation the reader is. Outside of one, no word need be open, and a bare
dollar sign just read makes the next quote a `$'…'` one. -/
inductive Mode where
  | outside (word : Option (List Piece)) (dollar : Bool)
  | escaped (word : Option (List Piece))
  | single (word : List Piece)
  | double (word : List Piece)
  | doubleEscaped (word : List Piece)
  | ansi (word : List Piece)
  | ansiEscaped (word : List Piece)
  | comment
  deriving DecidableEq, Repr

abbrev Mode.start : Mode := .outside none false

def blanks : List Char := [' ', '\t']

def operators : List Char := [';', '&', '|', '<', '>', '(', ')', '\n']

/-- Unquoted, these begin an expansion, a pattern or an assignment. -/
def actives : List Char := ['$', '\x60', '*', '?', '[', ']', '\x7b', '\x7d', '~', '!', '=', '^']

def isBlank (char : Char) : Bool := char ∈ blanks

def isOperator (char : Char) : Bool := char ∈ operators

def isActive (char : Char) : Bool := char ∈ actives

/-- Unquoted, every other character stands for itself wherever it is in a word. -/
def specials : List Char := blanks ++ operators ++ actives ++ ['\'', '"', '\\', '#']

def isInert (char : Char) : Bool := char ∉ specials

def barePiece (char : Char) : Piece := if isActive char then .active char else .literal char

def closed (word : Option (List Piece)) : List Token := word.toList.map .word

@[simp] theorem closed_none : closed none = [] := rfl

def stepOutside (word : Option (List Piece)) (dollar : Bool) (char : Char) : List Token × Mode :=
  if isBlank char then (closed word, .start)
  else if isOperator char then (closed word ++ [.operator char], .start)
  else if char = '\'' then ([], if dollar then .ansi (word.getD []) else .single (word.getD []))
  else if char = '"' then ([], .double (word.getD []))
  else if char = '\\' then ([], .escaped word)
  else if char = '#' ∧ word = none then ([], .comment)
  else ([], .outside (some (word.getD [] ++ [barePiece char])) (char = '$'))

def step : Mode → Char → List Token × Mode
  | .outside word dollar, char => stepOutside word dollar char
  | .escaped word, char =>
    -- a backslash before a line break joins the lines
    if char = '\n' then ([], .outside word false)
    else ([], .outside (some (word.getD [] ++ [.literal char])) false)
  | .single word, char =>
    if char = '\'' then ([], .outside (some word) false)
    else ([], .single (word ++ [.literal char]))
  | .double word, char =>
    if char = '"' then ([], .outside (some word) false)
    else if char = '\\' then ([], .doubleEscaped word)
    else if char ∈ ['$', '\x60'] then ([], .double (word ++ [.active char]))
    else ([], .double (word ++ [.literal char]))
  | .doubleEscaped word, char =>
    if char = '\n' then ([], .double word)
    else if char ∈ ['$', '\x60', '"', '\\'] then ([], .double (word ++ [.literal char]))
    else ([], .double (word ++ [.literal '\\', .literal char]))
  | .ansi word, char =>
    if char = '\'' then ([], .outside (some word) false)
    else if char = '\\' then ([], .ansiEscaped word)
    else ([], .ansi (word ++ [.literal char]))
  | .ansiEscaped word, char => ([], .ansi (word ++ [.active char]))
  | .comment, char => if char = '\n' then ([.operator char], .start) else ([], .comment)

def Mode.finish : Mode → List Token
  | .outside word _ => closed word
  | .escaped word => [.word (word.getD [] ++ [.literal '\\'])]
  | .comment => []
  | _ => [.unfinished]

/-- The tokens completed while a text is read, and the mode after it. -/
def pass : Mode → Text → List Token × Mode
  | mode, [] => ([], mode)
  | mode, char :: rest =>
    let (tokens, next) := step mode char
    let (more, last) := pass next rest
    (tokens ++ more, last)

/-- All tokens of the rest of a script. -/
def tokenize (mode : Mode) (text : Text) : List Token :=
  (pass mode text).1 ++ (pass mode text).2.finish

/-! ### Simple commands -/

/-- Operators that end a simple command; the others redirect it. -/
def Token.isControl : Token → Bool
  | .operator char => char ∈ [';', '&', '|', '(', ')', '\n']
  | _ => false

/-- The tokens between control operators. -/
def commands (tokens : List Token) : List (List Token) := tokens.splitOnP Token.isControl

def Piece.char? : Piece → Option Char
  | .literal char => some char
  | .active _ => none

/-- The text of a word without expansions. -/
def Token.text? : Token → Option Text
  | .word pieces => pieces.mapM Piece.char?
  | _ => none

/-- The words of a command without expansions and redirections. -/
def literal (command : List Token) : Option (List Text) := command.mapM Token.text?

/-! ### Starting a shell -/

/-- A program receives its arguments as C strings. -/
def argument (text : Text) : Text := text.takeWhile (· ≠ '\x00')

/-- After `-c`, bash still takes a word that begins like this for options. -/
def isOption (word : Text) : Bool := word.head? ∈ [some '-', some '+']

/-- The script of `bash -c script`. -/
def commandString : List Text → Option Text
  | [shell, flag, script] =>
    if shell = "bash".toList ∧ flag = "-c".toList ∧ !isOption script then some script else none
  | _ => none

/-- The simple commands of the script that a started `bash -c script` runs. -/
def run (arguments : List Text) : Option (List (List Token)) :=
  (commandString (arguments.map argument)).map fun script => commands (tokenize .start script)

/-! ### Reading a text in parts -/

theorem pass_append (mode : Mode) (first second : Text) :
    pass mode (first ++ second) =
      ((pass mode first).1 ++ (pass (pass mode first).2 second).1,
        (pass (pass mode first).2 second).2) := by
  induction first generalizing mode with
  | nil => rfl
  | cons char rest ih => simp only [cons_append, pass, ih, append_assoc]

theorem tokenize_append (mode : Mode) (first second : Text) :
    tokenize mode (first ++ second) =
      (pass mode first).1 ++ tokenize (pass mode first).2 second := by
  unfold tokenize
  rw [pass_append, append_assoc]

theorem pass_cons (mode : Mode) (char : Char) (rest : Text) :
    pass mode (char :: rest) =
      ((step mode char).1 ++ (pass (step mode char).2 rest).1,
        (pass (step mode char).2 rest).2) := rfl

theorem tokenize_cons (mode : Mode) (char : Char) (rest : Text) :
    tokenize mode (char :: rest) = (step mode char).1 ++ tokenize (step mode char).2 rest := by
  unfold tokenize
  rw [pass_cons, append_assoc]

variable {char : Char}

/-- An inert character goes into the word as it is. -/
theorem step_inert (inert : isInert char) (word : Option (List Piece)) (dollar : Bool) :
    step (.outside word dollar) char =
      ([], .outside (some (word.getD [] ++ [.literal char])) false) := by
  simp only [isInert, specials, mem_append, not_or, decide_eq_true_eq] at inert
  obtain ⟨⟨⟨blank, operator⟩, active⟩, quotes⟩ := inert
  have blank : isBlank char = false := decide_eq_false blank
  have operator : isOperator char = false := decide_eq_false operator
  have active : isActive char = false := decide_eq_false active
  simp only [mem_cons, not_mem_nil, or_false, not_or] at quotes
  obtain ⟨quote, doubleQuote, backslash, hash⟩ := quotes
  have dollarless : char ≠ '$' := by
    rintro rfl
    exact absurd active (by decide)
  simp only [step, stepOutside, blank, operator, quote, doubleQuote, backslash, hash, barePiece,
    active, dollarless, false_and, if_false, decide_false, Bool.false_eq_true]

theorem pass_inert (text : Text) (inert : ∀ char ∈ text, isInert char) (word : List Piece) :
    pass (.outside (some word) false) text =
      ([], .outside (some (word ++ text.map .literal)) false) := by
  induction text generalizing word with
  | nil => simp [pass]
  | cons char rest ih =>
    have first := inert char (mem_cons_self ..)
    have others := fun other mem => inert other (mem_cons_of_mem char mem)
    rw [pass_cons, step_inert first, ih others]
    simp

variable {text : Text}

/-- An inert text, not empty, is a word. -/
theorem pass_inert_start (inert : ∀ char ∈ text, isInert char) (filled : text ≠ []) :
    pass .start text = ([], .outside (some (text.map .literal)) false) := by
  obtain ⟨char, rest, rfl⟩ := exists_cons_of_ne_nil filled
  have first := inert char (mem_cons_self ..)
  have others := fun other mem => inert other (mem_cons_of_mem char mem)
  rw [pass_cons, step_inert first, pass_inert rest others]
  rfl

/-- Between single quotes every other character is kept. -/
theorem step_single (other : char ≠ '\'') (word : List Piece) :
    step (.single word) char = ([], .single (word ++ [.literal char])) := by
  simp only [step, other, if_false]

/-- A blank or an operator ends the open word. -/
theorem tokenize_blank (word : Option (List Piece)) (dollar : Bool) (rest : Text) :
    tokenize (.outside word dollar) (' ' :: rest) = closed word ++ tokenize .start rest := by
  rw [tokenize_cons]
  rfl

theorem tokenize_operator (operator : isOperator char) (word : Option (List Piece))
    (dollar : Bool) (rest : Text) :
    tokenize (.outside word dollar) (char :: rest) =
      closed word ++ .operator char :: tokenize .start rest := by
  have blank : isBlank char = false := by
    by_contra blank
    simp only [isBlank, blanks, Bool.not_eq_false, decide_eq_true_eq, mem_cons,
      not_mem_nil, or_false] at blank
    rcases blank with rfl | rfl <;> exact absurd operator (by decide)
  rw [tokenize_cons]
  simp [step, stepOutside, blank, operator]

/-! ### Splitting into commands -/

/-- A control operator ends one command and begins the next. -/
theorem commands_append_cons {separator : Token} (control : separator.isControl)
    (first second : List Token) :
    commands (first ++ separator :: second) = commands first ++ commands second :=
  splitOnP_append_cons first second control

theorem commands_cons {separator : Token} (control : separator.isControl) (rest : List Token) :
    commands (separator :: rest) = [] :: commands rest :=
  commands_append_cons control [] rest

theorem mapM_literal (text : Text) : (text.map Piece.literal).mapM Piece.char? = some text := by
  induction text with
  | nil => rfl
  | cons char rest ih => simp [Piece.char?, ih]

/-- The token of a word that stands for itself. -/
def plainWord (text : Text) : Token := .word (text.map .literal)

theorem text?_plainWord (text : Text) : (plainWord text).text? = some text := mapM_literal text

theorem literal_plainWords (words : List Text) : literal (words.map plainWord) = some words := by
  unfold literal
  induction words with
  | nil => rfl
  | cons word rest ih =>
    rw [map_cons, mapM_cons, text?_plainWord, ih]
    rfl

theorem commands_plainWords (words : List Text) :
    commands (words.map plainWord) = [words.map plainWord] := by
  apply splitOnP_eq_singleton
  intro token mem
  obtain ⟨word, -, rfl⟩ := List.mem_map.mp mem
  rfl

theorem argument_of_clean (clean : '\x00' ∉ text) : argument text = text := by
  unfold argument
  rw [takeWhile_eq_self_iff]
  intro char mem
  have other : char ≠ '\x00' := fun same => clean (same ▸ mem)
  simpa using other

/-! ### Texts that end outside quotations -/

/-- The text leaves the reader outside every quotation, a word possibly open. -/
def EndsOutside (text : Text) : Prop := ∃ word dollar, (pass .start text).2 = .outside word dollar

theorem tokenize_append_blank (ends : EndsOutside text) (rest : Text) :
    tokenize .start (text ++ ' ' :: rest) = tokenize .start text ++ tokenize .start rest := by
  obtain ⟨word, dollar, last⟩ := ends
  rw [tokenize_append, last, tokenize_blank, ← append_assoc]
  unfold tokenize
  rw [last]
  rfl

theorem tokenize_append_operator (ends : EndsOutside text)
    (operator : isOperator char) (rest : Text) :
    tokenize .start (text ++ char :: rest) =
      tokenize .start text ++ .operator char :: tokenize .start rest := by
  obtain ⟨word, dollar, last⟩ := ends
  rw [tokenize_append, last, tokenize_operator operator, ← append_assoc]
  congr 1
  unfold tokenize
  rw [last]
  rfl

/-- The text is read as these words, each standing for itself; the last is still open. -/
structure Spells (text : Text) (words : List Text) : Prop where
  ends : EndsOutside text
  tokenize_eq : tokenize .start text = words.map plainWord

theorem Spells.of_pass {text word : Text}
    (passes : pass .start text = ([], .outside (some (word.map .literal)) false)) :
    Spells text [word] where
  ends := ⟨_, _, congrArg Prod.snd passes⟩
  tokenize_eq := by
    unfold tokenize
    rw [passes]
    rfl

theorem Spells.of_inert (inert : ∀ char ∈ text, isInert char) (filled : text ≠ []) :
    Spells text [text] := .of_pass (pass_inert_start inert filled)

theorem Spells.append {first second : Text} {words others : List Text}
    (left : Spells first words) (right : Spells second others) :
    Spells (first ++ ' ' :: second) (words ++ others) where
  ends := by
    obtain ⟨word, dollar, last⟩ := left.ends
    obtain ⟨word', dollar', last'⟩ := right.ends
    refine ⟨word', dollar', ?_⟩
    rw [pass_append, last, pass_cons]
    exact last'
  tokenize_eq := by
    rw [tokenize_append_blank left.ends, left.tokenize_eq, right.tokenize_eq, map_append]

end QsBitwarden.Lib.Shell
