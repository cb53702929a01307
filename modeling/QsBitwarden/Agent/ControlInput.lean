import QsBitwarden.Lib.Lines
import QsBitwarden.Lib.Wire

/-! Owns how the companion cuts its control input into lines (`ControlReader` in
`main.rs`): the buffer, its size checks and the reads. What the reads return is given as a
list. It does not own what a control line says. -/

namespace QsBitwarden.Agent

open Lib List

def maxControlLine : ℕ := 64 * 1024

/-- The buffer, and what the reads to come return; behind them is the end of input. -/
structure ControlReader where
  buffered : Bytes
  stdin : List Bytes
  deriving DecidableEq, Repr

namespace ControlReader

abbrev Result := Except Unit (Option Bytes)

/-- A read of no bytes: the end of input, which may not cut a line. -/
def endOfInput (buffered : Bytes) : Result := if buffered = [] then .ok none else .error ()

/-- The loop of `next_line`, over the reads to come. -/
def readLine (buffered : Bytes) (stdin : List Bytes) : Result × ControlReader :=
  match firstLine newline buffered with
  | some (line, remainder) => (.ok (some (line ++ [newline])), ⟨remainder, stdin⟩)
  | none =>
    if buffered.length > maxControlLine then (.error (), ⟨buffered, stdin⟩) else
    match stdin with
    | [] => (endOfInput buffered, ⟨buffered, []⟩)
    | chunk :: stdin =>
      if chunk = [] then (endOfInput buffered, ⟨buffered, stdin⟩)
      else if (buffered ++ chunk).length > maxControlLine + 1 then
        (.error (), ⟨buffered ++ chunk, stdin⟩)
      else readLine (buffered ++ chunk) stdin

def nextLine (reader : ControlReader) : Result × ControlReader :=
  readLine reader.buffered reader.stdin

/-- What a number of calls of `next_line` return. -/
def calls : ℕ → ControlReader → List Result
  | 0, _ => []
  | count + 1, reader => reader.nextLine.1 :: calls count reader.nextLine.2

/-! ### One call -/

theorem readLine_line {line rest : Bytes} (stdin : List Bytes) (unbroken : newline ∉ line) :
    readLine (line ++ newline :: rest) stdin =
      (.ok (some (line ++ [newline])), ⟨rest, stdin⟩) := by
  rw [readLine.eq_def, firstLine_append line rest unbroken]

variable {buffered chunk : Bytes} {stdin : List Bytes}

theorem readLine_read (unbroken : newline ∉ buffered) (short : buffered.length ≤ maxControlLine)
    (read : chunk ≠ []) :
    readLine buffered (chunk :: stdin) =
      if buffered.length + chunk.length ≤ maxControlLine + 1 then readLine (buffered ++ chunk) stdin
      else (.error (), ⟨buffered ++ chunk, stdin⟩) := by
  rw [readLine, firstLine_eq_none unbroken]
  dsimp only
  rw [if_neg (Nat.not_lt.mpr short), if_neg read, length_append]
  by_cases fits : buffered.length + chunk.length ≤ maxControlLine + 1
  · rw [if_pos fits, if_neg (Nat.not_lt.mpr fits)]
  · rw [if_neg fits, if_pos (Nat.lt_of_not_le fits)]

/-- A chunk that takes the buffer past its limit is an error, whatever lines it ends. -/
theorem readLine_error {before after : List Bytes} (unbroken : newline ∉ buffered ++ before.flatten)
    (short : (buffered ++ before.flatten).length ≤ maxControlLine)
    (nonempty : ∀ read ∈ before, read ≠ []) (read : chunk ≠ [])
    (large : maxControlLine + 1 < (buffered ++ before.flatten).length + chunk.length) :
    (readLine buffered (before ++ chunk :: after)).1 = .error () := by
  induction before generalizing buffered with
  | nil =>
    rw [flatten_nil, append_nil] at unbroken short large
    rw [nil_append, readLine_read unbroken short read, if_neg (Nat.not_le.mpr large)]
  | cons first others ih =>
    rw [flatten_cons, ← append_assoc] at unbroken short large
    have shorter : buffered.length + first.length ≤ maxControlLine := by
      rw [length_append, length_append] at short
      omega
    have front : newline ∉ buffered := fun mem =>
      unbroken (mem_append_left _ (mem_append_left _ mem))
    rw [cons_append, readLine_read front (by omega) (nonempty first mem_cons_self),
      if_pos (by omega)]
    exact ih unbroken short
      (fun other mem => nonempty other (mem_cons_of_mem _ mem)) large

/-! ### All calls -/

/-- The lines of the input, and then its end. -/
def lineResults (lines : List Bytes) : List Result :=
  lines.map (fun line => .ok (some (line ++ [newline]))) ++ [.ok none]

/-- Every read fits the buffer together with the unfinished line before it. -/
def ReadsFit : Bytes → List Bytes → Prop
  | _, [] => True
  | pending, chunk :: stdin =>
    pending.length + chunk.length ≤ maxControlLine + 1 ∧
      ReadsFit (unfinished newline (pending ++ chunk)) stdin

/-- A line the panel may send: newline-free and of bounded length. -/
def ControlLine (line : Bytes) : Prop := newline ∉ line ∧ line.length ≤ maxControlLine

instance (line : Bytes) : Decidable (ControlLine line) :=
  inferInstanceAs (Decidable (newline ∉ line ∧ line.length ≤ maxControlLine))

variable {lines : List Bytes}

theorem calls_line {line rest : Bytes} (unbroken : newline ∉ line) :
    calls ((line :: lines).length + 1) ⟨line ++ newline :: rest, stdin⟩ =
        lineResults (line :: lines) ↔
      calls (lines.length + 1) ⟨rest, stdin⟩ = lineResults lines := by
  rw [length_cons, calls, nextLine, readLine_line stdin unbroken, lineResults, map_cons,
    cons_append, List.cons.injEq]
  exact ⟨fun same => same.2, fun same => ⟨rfl, same⟩⟩

/-- A read that fits changes nothing but where its bytes are. -/
theorem calls_read (count : ℕ)
    (unbroken : newline ∉ buffered) (short : buffered.length ≤ maxControlLine)
    (read : chunk ≠ []) (fits : buffered.length + chunk.length ≤ maxControlLine + 1) :
    calls (count + 1) ⟨buffered, chunk :: stdin⟩ =
      calls (count + 1) ⟨buffered ++ chunk, stdin⟩ := by
  rw [calls, calls, nextLine, nextLine, readLine_read unbroken short read, if_pos fits]

theorem calls_too_large (count : ℕ)
    (unbroken : newline ∉ buffered) (short : buffered.length ≤ maxControlLine)
    (read : chunk ≠ []) (large : ¬buffered.length + chunk.length ≤ maxControlLine + 1) :
    calls (count + 1) ⟨buffered, chunk :: stdin⟩ ≠ lineResults lines := by
  rw [calls, nextLine, readLine_read unbroken short read, if_neg large]
  intro same
  cases lines with
  | nil =>
    rw [lineResults, map_nil, nil_append, List.cons.injEq] at same
    cases same.1
  | cons line others =>
    rw [lineResults, map_cons, cons_append, List.cons.injEq] at same
    cases same.1

theorem calls_eq_lineResults_iff
    (controlLines : ∀ line ∈ lines, ControlLine line) (reads : ∀ chunk ∈ stdin, chunk ≠ [])
    (whole : buffered ++ stdin.flatten = joinLines newline lines) :
    calls (lines.length + 1) ⟨buffered, stdin⟩ = lineResults lines ↔
      ReadsFit (unfinished newline buffered) stdin := by
  -- Outer induction on the reads, inner on the lines: a call takes a line from the buffer, or
  -- reads when there is none.
  induction stdin generalizing buffered lines with
  | nil =>
    rw [flatten_nil, append_nil] at whole
    subst whole
    refine ⟨fun _ => trivial, fun _ => ?_⟩
    clear reads
    induction lines with
    | nil => rfl
    | cons line others ih =>
      rw [joinLines_cons, calls_line (controlLines line mem_cons_self).1]
      exact ih
        (fun other mem => controlLines other (mem_cons_of_mem _ mem)) trivial
  | cons chunk stdin overReads =>
    have read := reads chunk mem_cons_self
    induction lines generalizing buffered with
    | nil =>
      rw [joinLines_nil, flatten_cons, append_eq_nil_iff,
        append_eq_nil_iff] at whole
      exact absurd whole.2.1 read
    | cons line others overLines =>
      rcases unbroken_or_line newline buffered with
        unbroken | ⟨first, rest, firstUnbroken, rfl⟩
      · have short : buffered.length ≤ maxControlLine := by
          rcases unbroken_front unbroken whole with
            ⟨-, -, impossible⟩ | ⟨_, _, same, front⟩
          · cases impossible
          · rw [(List.cons.inj same).1] at controlLines
            exact Nat.le_trans front.length_le (controlLines _ mem_cons_self).2
        rw [unfinished_unbroken unbroken, ReadsFit]
        by_cases fits : buffered.length + chunk.length ≤ maxControlLine + 1
        · rw [calls_read _ unbroken short read fits]
          rw [flatten_cons, ← append_assoc] at whole
          rw [overReads controlLines
            (fun other mem => reads other (mem_cons_of_mem _ mem)) whole]
          exact ⟨fun fit => ⟨fits, fit⟩, fun fit => fit.2⟩
        · exact ⟨fun same => absurd same (calls_too_large _ unbroken short read fits),
            fun fit => absurd fit.1 fits⟩
      · rw [joinLines_cons, append_assoc, cons_append] at whole
        obtain ⟨rfl, remains⟩ := line_inj firstUnbroken
          (controlLines line mem_cons_self).1 whole
        rw [calls_line firstUnbroken, unfinished_line firstUnbroken]
        exact overLines (fun other mem => controlLines other (mem_cons_of_mem _ mem))
          remains

/-! ### Lines with room for a read -/

def readSize : ℕ := 4096

theorem readsFit_of_room {pending : Bytes}
    (unbroken : newline ∉ pending) (controlLines : ∀ line ∈ lines, newline ∉ line)
    (room : ∀ line ∈ lines, line.length + readSize ≤ maxControlLine + 1)
    (reads : ∀ chunk ∈ stdin, chunk ≠ [] ∧ chunk.length ≤ readSize)
    (whole : pending ++ stdin.flatten = joinLines newline lines) : ReadsFit pending stdin := by
  induction stdin generalizing pending lines with
  | nil => trivial
  | cons chunk stdin ih =>
    obtain ⟨read, size⟩ := reads chunk mem_cons_self
    have fits : pending.length + chunk.length ≤ maxControlLine + 1 := by
      rcases unbroken_front unbroken whole with ⟨-, empty, -⟩ | ⟨line, others, rfl, front⟩
      · rw [flatten_cons, append_eq_nil_iff] at empty
        exact absurd empty.1 read
      · have bounded := room line mem_cons_self
        have shorter := front.length_le
        omega
    rw [flatten_cons, ← append_assoc] at whole
    obtain ⟨finished, remaining, rfl, rejoined⟩ := unfinished_front controlLines whole
    refine ⟨fits, ih (not_mem_unfinished _ _) ?_ ?_ ?_ rejoined⟩
    · exact fun line mem => controlLines line (mem_append_right _ mem)
    · exact fun line mem => room line (mem_append_right _ mem)
    · exact fun other mem => reads other (mem_cons_of_mem _ mem)

/-- Control lines are read independently of how reads cut them as long as every read fits the
buffer behind the unfinished line, which lines with room for one more read ensure. -/
theorem lines_read_iff {lines stdin : List Bytes}
    (controlLines : ∀ line ∈ lines, ControlLine line)
    (reads : ∀ chunk ∈ stdin, chunk ≠ [] ∧ chunk.length ≤ readSize)
    (whole : stdin.flatten = joinLines newline lines) :
    (calls (lines.length + 1) ⟨[], stdin⟩ = lineResults lines ↔ ReadsFit [] stdin) ∧
    ((∀ line ∈ lines, line.length + readSize ≤ maxControlLine + 1) →
      calls (lines.length + 1) ⟨[], stdin⟩ = lineResults lines) := by
  have exact := calls_eq_lineResults_iff controlLines (fun chunk mem => (reads chunk mem).1)
    (show [] ++ stdin.flatten = joinLines newline lines from whole)
  refine ⟨exact, fun room => exact.mpr ?_⟩
  exact readsFit_of_room not_mem_nil (fun line mem => (controlLines line mem).1) room
    reads whole

theorem lines_read_iff_short :
    calls 3 ⟨[], [[97], [98, 10, 99], [10]]⟩ = lineResults [[97, 98], [99]] :=
  (@lines_read_iff [[97, 98], [99]] [[97], [98, 10, 99], [10]]
    (by decide) (by decide) (by decide)).2 (by decide)

/-- A longest line and a short one after it, read in full chunks: the chunk that ends the
first line also starts the second, and the reader fails. -/
theorem longest_line_not_read :
    let lines : List Bytes := [List.replicate 65536 97, [98, 98]]
    let stdin : List Bytes := List.replicate 16 (List.replicate 4096 97) ++ [[10, 98, 98, 10]]
    (∀ line ∈ lines, ControlLine line) ∧ (∀ chunk ∈ stdin, chunk ≠ [] ∧ chunk.length ≤ readSize) ∧
      stdin.flatten = joinLines newline lines ∧
      (ControlReader.nextLine ⟨[], stdin⟩).1 = .error () := by
  intro lines stdin
  have joined : (List.replicate 16 (List.replicate 4096 (97 : UInt8))).flatten =
      List.replicate 65536 97 := flatten_replicate_replicate
  have full : List.replicate 4096 (97 : UInt8) ≠ [] := by
    rw [Ne, replicate_eq_nil_iff]
    decide
  have unbroken (count : ℕ) : newline ∉ List.replicate count (97 : UInt8) := fun mem =>
    absurd (eq_of_mem_replicate mem) (by decide)
  refine ⟨?_, ?_, ?_, ?_⟩
  · intro line mem
    rcases mem_cons.mp mem with rfl | mem
    · exact ⟨unbroken _, by rw [length_replicate]; decide⟩
    · rw [mem_singleton.mp mem]
      decide
  · intro chunk mem
    rcases mem_append.mp mem with whole | last
    · rw [eq_of_mem_replicate whole]
      exact ⟨full, by rw [length_replicate]; decide⟩
    · rw [mem_singleton.mp last]
      decide
  · rw [flatten_append, joined, joinLines_cons, joinLines_cons]
    rfl
  · apply readLine_error
    · rw [joined]
      exact unbroken _
    · rw [joined, nil_append, length_replicate]
      decide
    · intro read mem
      rw [eq_of_mem_replicate mem]
      exact full
    · decide
    · rw [joined, nil_append, length_replicate]
      decide

end ControlReader

end QsBitwarden.Agent
