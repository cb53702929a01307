import QsBitwarden.Lib.Shell

/-! Owns the panel's command lines for bash: the quoting of one value, the `bw` command
with its limits, a command as a step inside another script, and the terminal's login
command. Texts are Unicode characters; the scripts themselves beyond their quoting are not
owned here. -/

namespace QsBitwarden.Panel

open Lib Lib.Shell List Option

/-! ### Building command lines -/

/-- The value with every quote replaced by one outside quotes, `'\''`. -/
def escapeQuotes (value : Text) : Text :=
  value.flatMap fun char => if char = '\'' then ['\'', '\\', '\'', '\''] else [char]

def shellQuote (value : Text) : Text := '\'' :: (escapeQuotes value ++ ['\''])

def limitText (bytes : ℕ) : Text := Nat.toDigits 10 bytes

/-- Reports the status of the script before it, a cut-off stream as a success. -/
def statusLines : Text := "__rc=$?\ncase \"$__rc\" in 141) __rc=0 ;; esac\nexit \"$__rc\"".toList

/-- A limit of 0 is one that is not given, here and below. -/
def cappedScript (script : Text) (maxStderrBytes : ℕ) : Text :=
  (if maxStderrBytes = 0 then []
    else "exec 2> >(head -c ".toList ++ limitText maxStderrBytes ++ " >&2); ".toList) ++
    "set -o pipefail; ".toList ++ script ++ '\n' :: statusLines

/-- `/^[a-zA-Z0-9_\-\.\/]+$/`. -/
def isPlainArgument (arg : Text) : Bool :=
  arg ≠ [] && arg.all fun char => isAsciiAlphanumeric char || char ∈ ['_', '-', '.', '/']

def argumentText (arg : Text) : Text := if isPlainArgument arg then arg else shellQuote arg

def bwCommand (args : List Text) : Text :=
  "bw".toList ++ args.flatMap fun arg => ' ' :: argumentText arg

def buildCappedCommand (args : List Text) (maxStdoutBytes maxStderrBytes : ℕ) : List Text :=
  let inner := bwCommand args ++
    if maxStdoutBytes = 0 then [] else " | head -c ".toList ++ limitText maxStdoutBytes
  ["bash".toList, "-c".toList, cappedScript inner maxStderrBytes]

def nestedScript (cmd : List Text) : Text := "bash -c ".toList ++ shellQuote (cmd.getD 2 [])

/-- `terminalLoginCommand`, for the script `inner` it puts together for the terminal. -/
def terminalLoginCommand (inner : Text) : List Text :=
  ["bash".toList, "-c".toList,
    "xdg-terminal-exec bash -c ".toList ++ shellQuote inner ++
      " || alacritty -e bash -c ".toList ++ shellQuote inner]

/-! ### One value is one word -/

theorem pass_escapeQuotes (value : Text) (word : List Piece) :
    pass (.single word) (escapeQuotes value) = ([], .single (word ++ value.map .literal)) := by
  unfold escapeQuotes
  induction value generalizing word with
  | nil => simp [Shell.pass]
  | cons char rest ih =>
    rw [flatMap_cons, pass_append]
    by_cases quote : char = '\''
    · -- the quotation ends, the escaped quote joins the word, and the next one begins
      have passes : pass (.single word) ['\'', '\\', '\'', '\''] =
          ([], .single (word ++ [.literal '\''])) := rfl
      rw [if_pos quote, passes, ih, quote]
      simp
    · have passes : pass (.single word) [char] = ([], .single (word ++ [.literal char])) := by
        rw [pass_cons, step_single quote]
        rfl
      rw [if_neg quote, passes, ih]
      simp

theorem spells_shellQuote (value : Text) : Spells (shellQuote value) [value] := by
  apply Spells.of_pass
  have opened : step .start '\'' = ([], .single []) := rfl
  unfold shellQuote
  rw [pass_cons, opened, pass_append, pass_escapeQuotes]
  rfl

theorem isInert_of_plain {char : Char}
    (plain : isAsciiAlphanumeric char || char ∈ ['_', '-', '.', '/']) : isInert char := by
  have separate : ∀ special ∈ specials,
      (isAsciiAlphanumeric special || special ∈ ['_', '-', '.', '/']) = false :=
    forall_mem_of_all (by decide)
  by_contra special
  have mem : char ∈ specials := by simpa [isInert] using special
  rw [separate char mem] at plain
  exact Bool.false_ne_true plain

theorem spells_argumentText (arg : Text) : Spells (argumentText arg) [arg] := by
  unfold argumentText
  by_cases plain : isPlainArgument arg
  · rw [if_pos plain]
    simp only [isPlainArgument, Bool.and_eq_true, decide_eq_true_eq, List.all_eq_true] at plain
    exact .of_inert (fun char mem => isInert_of_plain (plain.2 char mem)) plain.1
  · rw [if_neg plain]
    exact spells_shellQuote arg

variable (args : List Text)

theorem spells_arguments {text : Text} {words : List Text} (spelled : Spells text words) :
    Spells (text ++ args.flatMap fun arg => ' ' :: argumentText arg) (words ++ args) := by
  induction args generalizing text words with
  | nil => simpa using spelled
  | cons arg rest ih =>
    have longer := ih (spelled.append (spells_argumentText arg))
    simpa using longer

theorem spells_bwCommand : Spells (bwCommand args) ("bw".toList :: args) :=
  spells_arguments args (.of_pass rfl)

/-! ### The capped command -/

/-- What stands before the `bw` command, whatever its arguments. -/
def lead (maxStderrBytes : ℕ) : Text :=
  (if maxStderrBytes = 0 then []
    else "exec 2> >(head -c ".toList ++ limitText maxStderrBytes ++ " >&2); ".toList) ++
    "set -o pipefail".toList

/-- What stands after the `bw` command and the operator that ends it. -/
def trail (maxStdoutBytes : ℕ) : Text :=
  if maxStdoutBytes = 0 then statusLines
  else " head -c ".toList ++ limitText maxStdoutBytes ++ '\n' :: statusLines

theorem spells_limitText (bytes : ℕ) : Spells (limitText bytes) [limitText bytes] := by
  refine .of_inert (fun char mem => isInert_of_plain ?_) Nat.toDigits_ne_nil
  have digit := Nat.isDigit_of_mem_toDigits (by decide) (by decide) mem
  simp only [Char.isDigit, Bool.and_eq_true, decide_eq_true_eq] at digit
  have low : 48 ≤ char.toNat := digit.1
  have high : char.toNat ≤ 57 := digit.2
  simp [isAsciiAlphanumeric, low, high]

theorem ends_lead (maxStderrBytes : ℕ) : EndsOutside (lead maxStderrBytes) := by
  unfold lead
  by_cases absent : maxStderrBytes = 0
  · rw [if_pos absent]
    exact ⟨_, _, rfl⟩
  · obtain ⟨word, dollar, last⟩ := (spells_limitText maxStderrBytes).ends
    have opened : (pass .start "exec 2> >(head -c ".toList).2 = .start := rfl
    rw [if_neg absent, append_assoc, append_assoc, EndsOutside, pass_append, opened,
      pass_append, last]
    exact ⟨_, _, rfl⟩

theorem cappedScript_eq (script : Text) (maxStderrBytes : ℕ) :
    cappedScript script maxStderrBytes =
      lead maxStderrBytes ++ ';' :: ([] ++ ' ' :: (script ++ '\n' :: statusLines)) := by
  have parts : "set -o pipefail; ".toList = "set -o pipefail".toList ++ [';', ' '] := rfl
  unfold cappedScript lead
  rw [parts]
  simp only [append_assoc, cons_append, nil_append]

/-- A script in the capped command is read on its own. -/
theorem tokenize_cappedScript (script : Text) (maxStderrBytes : ℕ) :
    tokenize .start (cappedScript script maxStderrBytes) =
      tokenize .start (lead maxStderrBytes) ++
        .operator ';' :: tokenize .start (script ++ '\n' :: statusLines) := by
  rw [cappedScript_eq, tokenize_append_operator (ends_lead maxStderrBytes) (by decide),
    tokenize_append_blank ⟨_, _, rfl⟩]
  rfl

/-- The `bw` command ends where the limit of its output or the next line begins. -/
theorem tokenize_bwCommand (maxStdoutBytes : ℕ) :
    ∃ separator : Token, separator.isControl ∧
      tokenize .start ((bwCommand args ++
          if maxStdoutBytes = 0 then [] else " | head -c ".toList ++ limitText maxStdoutBytes) ++
          '\n' :: statusLines) =
        ("bw".toList :: args).map plainWord ++
          separator :: tokenize .start (trail maxStdoutBytes) := by
  have spelled := spells_bwCommand args
  by_cases absent : maxStdoutBytes = 0
  · refine ⟨.operator '\n', rfl, ?_⟩
    rw [if_pos absent, append_nil, tokenize_append_operator spelled.ends (by decide),
      spelled.tokenize_eq, trail, if_pos absent]
  · refine ⟨.operator '|', rfl, ?_⟩
    have parts : " | head -c ".toList = ' ' :: ([] ++ '|' :: " head -c ".toList) := rfl
    rw [if_neg absent, parts, append_assoc, cons_append, cons_append,
      tokenize_append_blank spelled.ends, spelled.tokenize_eq, nil_append, cons_append,
      cons_append, ← nil_append ('|' :: _),
      tokenize_append_operator ⟨_, _, rfl⟩ (by decide),
      trail, if_neg absent]
    rfl

theorem commands_cappedCommand (maxStdoutBytes maxStderrBytes : ℕ) :
    commands (tokenize .start ((buildCappedCommand args maxStdoutBytes maxStderrBytes).getD 2 [])) =
      commands (tokenize .start (lead maxStderrBytes)) ++
        ("bw".toList :: args).map plainWord ::
          commands (tokenize .start (trail maxStdoutBytes)) := by
  obtain ⟨separator, control, reads⟩ := tokenize_bwCommand args maxStdoutBytes
  show commands (tokenize .start (cappedScript _ maxStderrBytes)) = _
  rw [tokenize_cappedScript, reads, commands_append_cons rfl, commands_append_cons control,
    commands_plainWords]
  rfl

/-! ### Texts without NUL -/

theorem clean_shellQuote {value : Text} (clean : '\x00' ∉ value) : '\x00' ∉ shellQuote value := by
  unfold shellQuote escapeQuotes
  simp only [mem_cons, mem_append, mem_flatMap, not_mem_nil, or_false]
  rintro (quote | ⟨char, mem, inside⟩ | quote)
  · exact absurd quote (by decide)
  · by_cases quoted : char = '\''
    · rw [if_pos quoted] at inside
      exact absurd inside (by decide)
    · rw [if_neg quoted, mem_singleton] at inside
      exact clean (inside ▸ mem)
  · exact absurd quote (by decide)

theorem clean_argumentText {arg : Text} (clean : '\x00' ∉ arg) : '\x00' ∉ argumentText arg := by
  unfold argumentText
  split
  · exact clean
  · exact clean_shellQuote clean

theorem clean_limitText (bytes : ℕ) : '\x00' ∉ limitText bytes := by
  intro mem
  have digit := Nat.isDigit_of_mem_toDigits (by decide) (by decide) mem
  exact absurd digit (by decide)

theorem clean_bwCommand {args : List Text} (clean : ∀ arg ∈ args, '\x00' ∉ arg) :
    '\x00' ∉ bwCommand args := by
  unfold bwCommand
  rw [mem_append, mem_flatMap]
  rintro (name | ⟨arg, mem, inside⟩)
  · exact absurd name (by decide)
  · rcases mem_cons.mp inside with blank | inside
    · exact absurd blank (by decide)
    · exact clean_argumentText (clean arg mem) inside

variable {script : Text}

theorem clean_cappedScript (clean : '\x00' ∉ script) (maxStderrBytes : ℕ) :
    '\x00' ∉ cappedScript script maxStderrBytes := by
  have limit := clean_limitText maxStderrBytes
  have opening : '\x00' ∉ "exec 2> >(head -c ".toList := by decide
  have closing : '\x00' ∉ " >&2); ".toList := by decide
  have pipefail : '\x00' ∉ "set -o pipefail; ".toList := by decide
  have ending : '\x00' ∉ '\n' :: statusLines := by decide
  unfold cappedScript
  split <;> simp only [mem_append, not_mem_nil, not_or] <;> tauto

/-- A shell started with `-c` takes the next word as its script, unless it looks like an
option. -/
theorem commandString_bash (clean : '\x00' ∉ script) (first : isOption script = false) :
    commandString (["bash".toList, "-c".toList, script].map argument) = some script := by
  have shell : argument "bash".toList = "bash".toList := argument_of_clean (by decide)
  have flag : argument "-c".toList = "-c".toList := argument_of_clean (by decide)
  rw [map_cons, map_cons, map_singleton, shell, flag, argument_of_clean clean,
    commandString, if_pos ⟨rfl, rfl, by rw [first]; rfl⟩]

theorem run_script (clean : '\x00' ∉ script) (first : isOption script = false) :
    run ["bash".toList, "-c".toList, script] = some (commands (tokenize .start script)) := by
  unfold run
  rw [commandString_bash clean first]
  rfl

theorem isOption_cappedScript (script : Text) (maxStderrBytes : ℕ) :
    isOption (cappedScript script maxStderrBytes) = false := by
  unfold cappedScript
  split <;> rfl

/-- The shell runs the `bw` command among commands that do not depend on its arguments. -/
theorem run_cappedCommand {args : List Text} (clean : ∀ arg ∈ args, '\x00' ∉ arg)
    (maxStdoutBytes maxStderrBytes : ℕ) :
    run (buildCappedCommand args maxStdoutBytes maxStderrBytes) =
      some (commands (tokenize .start (lead maxStderrBytes)) ++
        ("bw".toList :: args).map plainWord ::
          commands (tokenize .start (trail maxStdoutBytes))) := by
  have cleanLimit : '\x00' ∉
      if maxStdoutBytes = 0 then [] else " | head -c ".toList ++ limitText maxStdoutBytes := by
    split
    · exact not_mem_nil
    · rw [mem_append]
      exact not_or.mpr ⟨by decide, clean_limitText maxStdoutBytes⟩
  have cleanInner := not_or.mpr ⟨clean_bwCommand clean, cleanLimit⟩
  rw [← mem_append] at cleanInner
  unfold buildCappedCommand
  rw [run_script (clean_cappedScript cleanInner maxStderrBytes) (isOption_cappedScript ..)]
  exact congrArg some (commands_cappedCommand args maxStdoutBytes maxStderrBytes)

/-! ### Scripts inside scripts -/

/-- The script that the first command of a script starts another shell with. -/
def innerScript (script : Text) : Option Text := do
  let command ← (commands (tokenize .start script)).head?
  let words ← literal command
  commandString (words.map argument)

/-- The script of the shell that many shells further in. -/
def received : ℕ → Text → Option Text
  | 0, script => some script
  | depth + 1, script => (innerScript script).bind (received depth)

/-- The script as a step of a step, that many times. -/
def nested : ℕ → Text → Text
  | 0, script => script
  | depth + 1, script => nestedScript ["bash".toList, "-c".toList, nested depth script]

/-- The script, quoted that many times. -/
def quoted : ℕ → Text → Text
  | 0, script => script
  | times + 1, script => shellQuote (quoted times script)

theorem spells_nestedScript (script : Text) :
    Spells (nestedScript ["bash".toList, "-c".toList, script])
      ["bash".toList, "-c".toList, script] := by
  have start : Spells "bash -c".toList ["bash".toList, "-c".toList] := ⟨⟨_, _, rfl⟩, rfl⟩
  exact start.append (spells_shellQuote script)

theorem clean_quoted (clean : '\x00' ∉ script) (times : ℕ) :
    '\x00' ∉ quoted times script := by
  induction times with
  | zero => exact clean
  | succ times ih => exact clean_shellQuote ih

theorem clean_nested (clean : '\x00' ∉ script) (depth : ℕ) :
    '\x00' ∉ nested depth script := by
  induction depth with
  | zero => exact clean
  | succ depth ih =>
    have start : '\x00' ∉ "bash -c ".toList := by decide
    have rest := clean_shellQuote ih
    unfold nested nestedScript
    rw [mem_append]
    exact not_or.mpr ⟨start, rest⟩

theorem isOption_nested (first : isOption script = false) (depth : ℕ) :
    isOption (nested depth script) = false := by
  cases depth with
  | zero => exact first
  | succ depth => rfl

/-- The shell of a nested step receives the script. -/
theorem innerScript_nestedScript (clean : '\x00' ∉ script) (first : isOption script = false) :
    innerScript (nestedScript ["bash".toList, "-c".toList, script]) = some script := by
  unfold innerScript
  rw [(spells_nestedScript script).tokenize_eq, commands_plainWords, List.head?_cons,
    bind_eq_bind, bind_some, literal_plainWords, bind_eq_bind,
    bind_some, commandString_bash clean first]

theorem received_nested (clean : '\x00' ∉ script) (first : isOption script = false) (depth : ℕ) :
    received depth (nested depth script) = some script := by
  induction depth with
  | zero => rfl
  | succ depth ih =>
    unfold received nested
    rw [innerScript_nestedScript (clean_nested clean depth) (isOption_nested first depth),
      bind_some]
    exact ih

/-- The texts after which a word has ended: a blank, an operator or the end of the script. -/
def endsWord : Text → Bool
  | [] => true
  | char :: _ => char = ' ' || isOperator char

/-- A nested step is three words wherever it stands in a script. -/
theorem tokenize_nestedScript {before after : Text} (apart : (pass .start before).2 = .start)
    (ended : endsWord after) (script : Text) :
    tokenize .start (before ++ nestedScript ["bash".toList, "-c".toList, script] ++ after) =
      (pass .start before).1 ++ ["bash".toList, "-c".toList, script].map plainWord ++
        tokenize .start after := by
  have spelled := spells_nestedScript script
  rw [append_assoc, tokenize_append, apart, append_assoc]
  congr 1
  cases after with
  | nil =>
    rw [append_nil, spelled.tokenize_eq]
    rfl
  | cons char rest =>
    simp only [endsWord, Bool.or_eq_true, decide_eq_true_eq] at ended
    rcases ended with rfl | operator
    · rw [tokenize_append_blank spelled.ends, spelled.tokenize_eq, tokenize_blank]
      rfl
    · rw [tokenize_append_operator spelled.ends operator, spelled.tokenize_eq,
        tokenize_operator operator]
      rfl

/-! ### In a terminal -/

theorem spells_xdgTerminal (inner : Text) :
    Spells ("xdg-terminal-exec bash -c".toList ++ ' ' :: shellQuote inner)
      ["xdg-terminal-exec".toList, "bash".toList, "-c".toList, inner] := by
  have start : Spells "xdg-terminal-exec bash -c".toList
      ["xdg-terminal-exec".toList, "bash".toList, "-c".toList] := ⟨⟨_, _, rfl⟩, rfl⟩
  exact start.append (spells_shellQuote inner)

theorem spells_alacritty (inner : Text) :
    Spells ("alacritty -e bash -c".toList ++ ' ' :: shellQuote inner)
      ["alacritty".toList, "-e".toList, "bash".toList, "-c".toList, inner] := by
  have start : Spells "alacritty -e bash -c".toList
      ["alacritty".toList, "-e".toList, "bash".toList, "-c".toList] := ⟨⟨_, _, rfl⟩, rfl⟩
  exact start.append (spells_shellQuote inner)

/-- The second terminal is tried when the first fails: an empty command between two bars. -/
theorem commands_terminalLoginCommand (inner : Text) :
    commands (tokenize .start ((terminalLoginCommand inner).getD 2 [])) =
      [["xdg-terminal-exec".toList, "bash".toList, "-c".toList, inner].map plainWord, [],
        ["alacritty".toList, "-e".toList, "bash".toList, "-c".toList, inner].map plainWord] := by
  have first := spells_xdgTerminal inner
  have second := spells_alacritty inner
  have parts : (terminalLoginCommand inner).getD 2 [] =
      ("xdg-terminal-exec bash -c".toList ++ ' ' :: shellQuote inner) ++
        ' ' :: '|' :: '|' :: ' ' :: ("alacritty -e bash -c".toList ++ ' ' :: shellQuote inner) := by
    show ("xdg-terminal-exec bash -c".toList ++ [' ']) ++ shellQuote inner ++
        (" || ".toList ++ ("alacritty -e bash -c".toList ++ [' '])) ++ shellQuote inner = _
    simp only [append_assoc, cons_append, nil_append]
    rfl
  rw [parts, tokenize_append_blank first.ends, first.tokenize_eq, tokenize_operator rfl,
    tokenize_operator rfl, tokenize_blank, second.tokenize_eq, closed_none, nil_append,
    nil_append, commands_append_cons rfl, commands_cons rfl, commands_plainWords,
    nil_append, commands_plainWords]
  rfl

theorem run_terminalLoginCommand {inner : Text} (clean : '\x00' ∉ inner) :
    run (terminalLoginCommand inner) =
      some [["xdg-terminal-exec".toList, "bash".toList, "-c".toList, inner].map plainWord, [],
        ["alacritty".toList, "-e".toList, "bash".toList, "-c".toList, inner].map plainWord] := by
  have cleanScript : '\x00' ∉ "xdg-terminal-exec bash -c ".toList ++ shellQuote inner ++
      " || alacritty -e bash -c ".toList ++ shellQuote inner := by
    have left : '\x00' ∉ "xdg-terminal-exec bash -c ".toList := by decide
    have right : '\x00' ∉ " || alacritty -e bash -c ".toList := by decide
    have quotation := clean_shellQuote clean
    simp only [mem_append, not_or]
    exact ⟨⟨⟨left, quotation⟩, right⟩, quotation⟩
  unfold terminalLoginCommand
  rw [run_script cleanScript rfl]
  exact congrArg some (commands_terminalLoginCommand inner)

/-! ### What the shells receive -/

/-- Whatever the values are: the shell runs `bw` with exactly these arguments, among commands
that do not depend on them; a nested step is three words wherever it stands; and the script
reaches the shell any number of steps further in, or in a terminal, as it was. -/
theorem shell_receives_what_was_quoted :
    (∀ (args : List Text) (maxStdoutBytes maxStderrBytes : ℕ), (∀ arg ∈ args, '\x00' ∉ arg) →
      ∃ command,
        run (buildCappedCommand args maxStdoutBytes maxStderrBytes) =
          some (commands (tokenize .start (lead maxStderrBytes)) ++
            command :: commands (tokenize .start (trail maxStdoutBytes))) ∧
        literal command = some ("bw".toList :: args)) ∧
    (∀ (times : ℕ) (script before after : Text), (pass .start before).2 = .start →
      endsWord after → ∃ words,
        tokenize .start
            (before ++ nestedScript ["bash".toList, "-c".toList, quoted times script] ++ after) =
          (pass .start before).1 ++ words ++ tokenize .start after ∧
        literal words = some ["bash".toList, "-c".toList, quoted times script]) ∧
    (∀ (depth times : ℕ) (script : Text), '\x00' ∉ script →
      isOption (quoted times script) = false →
      received depth (nested depth (quoted times script)) = some (quoted times script)) ∧
    (∀ (times : ℕ) (script : Text), '\x00' ∉ script → isOption (quoted times script) = false →
      ∃ first second,
        run (terminalLoginCommand (quoted times script)) = some [first, [], second] ∧
        (literal first).map (·.drop 1) = some ["bash".toList, "-c".toList, quoted times script] ∧
        (literal second).map (·.drop 2) = some ["bash".toList, "-c".toList, quoted times script] ∧
        commandString (["bash".toList, "-c".toList, quoted times script].map argument) =
          some (quoted times script)) := by
  refine ⟨?_, ?_, ?_, ?_⟩
  · intro args maxStdoutBytes maxStderrBytes clean
    exact ⟨_, run_cappedCommand clean maxStdoutBytes maxStderrBytes, literal_plainWords _⟩
  · intro times script before after apart ended
    exact ⟨_, tokenize_nestedScript apart ended (quoted times script), literal_plainWords _⟩
  · intro depth times script clean first
    exact received_nested (clean_quoted clean times) first depth
  · intro times script clean first
    have cleanQuoted := clean_quoted clean times
    refine ⟨_, _, run_terminalLoginCommand cleanQuoted, ?_, ?_,
      commandString_bash cleanQuoted first⟩
    · rw [literal_plainWords]
      rfl
    · rw [literal_plainWords]
      rfl

/-- An item named `'; rm -rf ~ #` searched for, and a script of two lines two shells in. -/
theorem shell_receives_quoted_search :
    (∃ command,
      run (buildCappedCommand ["list".toList, "'; rm -rf ~ #".toList] 0 8192) =
        some (commands (tokenize .start (lead 8192)) ++
          command :: commands (tokenize .start (trail 0))) ∧
      literal command = some ["bw".toList, "list".toList, "'; rm -rf ~ #".toList]) ∧
    received 2 (nested 2 (quoted 1 "echo 'a'\nexit".toList)) =
      some (quoted 1 "echo 'a'\nexit".toList) :=
  ⟨shell_receives_what_was_quoted.1 _ 0 8192 (by decide),
    shell_receives_what_was_quoted.2.2.1 2 1 _ (by decide) (by decide)⟩

/-- Bash takes a script that begins with `-` for options and has none left to run. -/
theorem option_is_not_received :
    '\x00' ∉ "-x".toList ∧
      innerScript (nestedScript ["bash".toList, "-c".toList, "-x".toList]) = none := by
  decide +kernel

end QsBitwarden.Panel
