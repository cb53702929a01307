import Mathlib.Algebra.GroupWithZero.Nat
import QsBitwarden.Lib.Lines
import QsBitwarden.Lib.Wire

/-! Owns the helper's two reading loops (`read_line` and `drain` in `main.rs`): the panel's
lines, each bounded, and a run's output up to a cap. What the reads return is given as a list,
`none` being a read that failed. It does not own what the lines and the output say. -/

namespace QsBitwarden.Vault

open Lib List Option

def maxLine : ℕ := 4 * 1024 * 1024

/-! ### The panel's lines -/

/-- The buffered input: what is left of the last read, and what the reads to come return. -/
structure LineInput where
  buffer : Bytes
  reads : List (Option Bytes)
  deriving DecidableEq, Repr

namespace LineInput

/-- `fill_buf`: reads only if the buffer is used up. -/
def fillBuf (input : LineInput) : Option LineInput :=
  match input.buffer, input.reads with
  | [], some chunk :: reads => some ⟨chunk, reads⟩
  | [], none :: _ => none
  | _, _ => some input

/-- Bounds the turns of the loop. -/
def size (input : LineInput) : ℕ :=
  input.buffer.length + (input.reads.map fun read => (read.getD []).length + 1).sum

theorem size_fillBuf {input filled : LineInput} (fills : input.fillBuf = some filled) :
    filled.size ≤ input.size := by
  unfold fillBuf at fills
  split at fills
  · next empty more =>
    cases fills
    unfold size
    rw [empty, more]
    simp only [length_nil, map_cons, sum_cons, getD_some]
    omega
  · cases fills
  · cases fills
    exact le_rfl

end LineInput

/-- The line so far with a chunk of it added; a line past the bound is dropped. -/
def extendLine (line : Bytes) (overlong : Bool) (chunk : Bytes) : Bytes × Bool :=
  if overlong then (line, true)
  else if line.length + chunk.length > maxLine then ([], true)
  else (line ++ chunk, false)

theorem length_of_firstLine {buffer chunk rest : Bytes}
    (ends : firstLine newline buffer = some (chunk, rest)) : rest.length < buffer.length := by
  induction buffer generalizing chunk with
  | nil => cases ends
  | cons byte others ih =>
    rw [firstLine] at ends
    split_ifs at ends
    · cases ends
      exact Nat.lt_succ_self _
    · obtain ⟨found, later, same⟩ := map_eq_some_iff.mp ends
      cases same
      exact Nat.lt_succ_of_lt (ih later)

variable {input filled : LineInput}

theorem LineInput.size_line {chunk rest : Bytes} (fills : input.fillBuf = some filled)
    (ends : firstLine newline filled.buffer = some (chunk, rest)) :
    size ⟨rest, filled.reads⟩ < input.size := by
  have shorter := length_of_firstLine ends
  have smaller := size_fillBuf fills
  unfold size at smaller ⊢
  dsimp only
  omega

theorem LineInput.size_used (fills : input.fillBuf = some filled)
    (more : filled.buffer ≠ []) : size ⟨[], filled.reads⟩ < input.size := by
  have filledBuffer := length_pos_of_ne_nil more
  have smaller := size_fillBuf fills
  unfold size at smaller ⊢
  dsimp only
  rw [length_nil]
  omega

/-- The loop of `read_line`: the line so far, and whether it was too long. -/
def readLineFrom (line : Bytes) (overlong : Bool) (input : LineInput) :
    Option Bytes × LineInput :=
  match fills : input.fillBuf with
  | none => (none, input)
  | some filled =>
    if more : filled.buffer ≠ [] then
      match ends : firstLine newline filled.buffer with
      | some (chunk, rest) =>
        have := LineInput.size_line fills ends
        let (line, overlong) := extendLine line overlong chunk
        if overlong then readLineFrom [] false ⟨rest, filled.reads⟩
        else (some line, ⟨rest, filled.reads⟩)
      | none =>
        have := LineInput.size_used fills more
        let (line, overlong) := extendLine line overlong filled.buffer
        readLineFrom line overlong ⟨[], filled.reads⟩
    else (if line ≠ [] ∧ overlong = false then some line else none, filled)
termination_by input.size

/-- One line, bounded; an overlong line is read to its end and dropped. -/
def readLine (input : LineInput) : Option Bytes × LineInput := readLineFrom [] false input

/-- What a number of calls of `read_line` return. -/
def readLines : ℕ → LineInput → List (Option Bytes)
  | 0, _ => []
  | count + 1, input => (readLine input).1 :: readLines count (readLine input).2

/-- The lines of a stream that are read: those within the bound, and at its end what is left, if
that is not empty. -/
def boundedLines (stream : Bytes) : List Bytes :=
  ((splitLines newline stream).1 ++ [unfinished newline stream].filter (· ≠ [])).filter
    (·.length ≤ maxLine)

/-! ### One call of `read_line` -/

/-- What the stream still holds, if no read fails. -/
def LineInput.stream (input : LineInput) : Bytes :=
  input.buffer ++ (input.reads.map fun read => read.getD []).flatten

/-- Every read to come returns something. -/
def LineInput.Fed (input : LineInput) : Prop :=
  ∀ read ∈ input.reads, ∃ chunk ≠ [], read = some chunk

theorem boundedLines_line {line : Bytes} (rest : Bytes) (unbroken : newline ∉ line) :
    boundedLines (line ++ newline :: rest) =
      if line.length ≤ maxLine then line :: boundedLines rest else boundedLines rest := by
  unfold boundedLines
  rw [splitLines_line unbroken, unfinished_line unbroken, cons_append, filter_cons]
  simp only [decide_eq_true_eq]

theorem boundedLines_unbroken {stream : Bytes} (unbroken : newline ∉ stream) :
    boundedLines stream = if stream ≠ [] ∧ stream.length ≤ maxLine then [stream] else [] := by
  unfold boundedLines
  rw [splitLines_unbroken unbroken, unfinished_unbroken unbroken, nil_append,
    List.filter_filter, filter_singleton]
  simp [and_comm]

/-- The loop's variables for a line of which some bytes have been read. -/
def lineState (front : Bytes) : Bytes × Bool :=
  if front.length ≤ maxLine then (front, false) else ([], true)

theorem extendLine_lineState (front chunk : Bytes) :
    extendLine (lineState front).1 (lineState front).2 chunk = lineState (front ++ chunk) := by
  unfold extendLine lineState
  rw [length_append]
  by_cases short : front.length ≤ maxLine
  · by_cases fits : front.length + chunk.length ≤ maxLine
    · simp [short, fits]
    · simp [short, fits, Nat.lt_of_not_le fits]
  · have long : ¬ front.length + chunk.length ≤ maxLine := by omega
    simp [short, long]

variable {input : LineInput}

theorem fillBuf_of_fed (fed : input.Fed) :
    ∃ filled, input.fillBuf = some filled ∧ filled.Fed ∧ filled.stream = input.stream ∧
      (filled.buffer = [] → filled.reads = []) := by
  obtain ⟨buffer, reads⟩ := input
  cases buffer with
  | cons byte rest => exact ⟨_, rfl, fed, rfl, nofun⟩
  | nil =>
    cases reads with
    | nil => exact ⟨_, rfl, fed, rfl, fun _ => rfl⟩
    | cons read reads =>
      obtain ⟨chunk, nonempty, rfl⟩ := fed _ mem_cons_self
      refine ⟨⟨chunk, reads⟩, rfl, ?_, rfl, fun empty => absurd empty nonempty⟩
      intro read later
      exact fed read (mem_cons_of_mem _ later)

/-- One turn of the loop, over what the buffer holds once it is filled. -/
theorem readLineFrom_filled {line : Bytes} {overlong : Bool}
    (fills : input.fillBuf = some filled) : readLineFrom line overlong input =
      if filled.buffer = [] then (if line ≠ [] ∧ overlong = false then some line else none, filled)
      else (firstLine newline filled.buffer).elim
        (readLineFrom (extendLine line overlong filled.buffer).1
          (extendLine line overlong filled.buffer).2 ⟨[], filled.reads⟩) fun found =>
        if (extendLine line overlong found.1).2 then readLineFrom [] false ⟨found.2, filled.reads⟩
        else (some (extendLine line overlong found.1).1, ⟨found.2, filled.reads⟩) := by
  rw [readLineFrom]
  split
  · next failed => rw [fills] at failed; cases failed
  · next other same =>
    rw [fills] at same
    cases same
    by_cases ended : filled.buffer = []
    · rw [dif_neg (not_not.mpr ended), if_pos ended]
    · rw [dif_pos ended, if_neg ended]
      split <;> simp only [*, elim_some, elim_none]

/-- What one call returns of the lines there are, and what it leaves. -/
structure TakesLine (lines : List Bytes) (result : Option Bytes × LineInput) : Prop where
  line : result.1 = lines.head?
  fed : result.2.Fed
  rest : boundedLines result.2.stream = lines.tail

theorem takesLine_from {front : Bytes} (unbroken : newline ∉ front) (fed : input.Fed) :
    TakesLine (boundedLines (front ++ input.stream))
      (readLineFrom (lineState front).1 (lineState front).2 input) := by
  -- The loop may start over within one buffer, so the induction is on the size of the input.
  induction bound : input.size using Nat.strongRecOn generalizing front input with
  | _ size ih =>
    subst bound
    obtain ⟨filled, fills, filledFed, same, drained⟩ := fillBuf_of_fed fed
    rw [← same]
    by_cases more : filled.buffer = []
    · have done : filled.stream = [] := by
        unfold LineInput.stream
        rw [more, drained more]
        rfl
      rw [readLineFrom_filled fills, if_pos more, done, append_nil, boundedLines_unbroken unbroken]
      refine ⟨?_, filledFed, ?_⟩
      · by_cases short : front.length ≤ maxLine
        · by_cases empty : front = []
          · simp [lineState, empty]
          · simp [lineState, short, empty]
        · simp [lineState, short]
      · dsimp only
        rw [done]
        split_ifs <;> rfl
    · rcases unbroken_or_line newline filled.buffer with whole | ⟨chunk, rest, whole, split⟩
      · rw [readLineFrom_filled fills, if_neg more, firstLine_eq_none whole, elim_none,
          extendLine_lineState]
        have longer : newline ∉ front ++ filled.buffer := by
          rw [mem_append, not_or]
          exact ⟨unbroken, whole⟩
        have fedLater : LineInput.Fed ⟨[], filled.reads⟩ := filledFed
        have later := ih _ (LineInput.size_used fills more) longer fedLater rfl
        rwa [append_assoc] at later
      · have ends : firstLine newline filled.buffer = some (chunk, rest) := by
          rw [split, firstLine_append chunk rest whole]
        have longer : newline ∉ front ++ chunk := by
          rw [mem_append, not_or]
          exact ⟨unbroken, whole⟩
        have cut : front ++ filled.stream =
            (front ++ chunk) ++ newline :: LineInput.stream ⟨rest, filled.reads⟩ := by
          unfold LineInput.stream
          rw [split]
          simp only [append_assoc, cons_append]
        rw [readLineFrom_filled fills, if_neg more, ends, elim_some, extendLine_lineState, cut,
          boundedLines_line _ longer]
        unfold lineState
        by_cases short : (front ++ chunk).length ≤ maxLine
        · rw [if_pos short, if_pos short, if_neg Bool.false_ne_true]
          exact ⟨rfl, filledFed, rfl⟩
        · rw [if_neg short, if_neg short, if_pos rfl]
          have fedLater : LineInput.Fed ⟨rest, filled.reads⟩ := filledFed
          have fresh : newline ∉ ([] : Bytes) := not_mem_nil
          exact ih _ (LineInput.size_line fills ends) fresh fedLater rfl

theorem takesLine_readLine (fed : input.Fed) :
    TakesLine (boundedLines input.stream) (readLine input) := by
  have fresh : newline ∉ ([] : Bytes) := not_mem_nil
  exact takesLine_from fresh fed

/-- The calls return the lines one by one, and then nothing. -/
theorem readLines_eq (count : ℕ) (fed : input.Fed) :
    readLines count input =
      ((boundedLines input.stream).map some ++ List.replicate count none).take count := by
  induction count generalizing input with
  | zero => rfl
  | succ count ih =>
    have taken := takesLine_readLine fed
    rw [readLines, ih taken.fed, taken.line, taken.rest]
    cases boundedLines input.stream with
    | nil =>
      rw [replicate_succ]
      simp
    | cons line rest =>
      have enough : count ≤ count + 1 + rest.length := by omega
      simp [take_append, enough]

/-! ### A run's output -/

structure Drained where
  bytes : Bytes
  truncated : Bool
  deriving DecidableEq, Repr

/-- The loop of `drain`, over the reads to come. -/
def drainFrom (cap : ℕ) (drained : Drained) : List (Option Bytes) → Drained
  | [] => drained
  | none :: _ => drained
  | some chunk :: reads =>
    if chunk = [] then drained
    else if drained.truncated ∨ drained.bytes.length + chunk.length > cap then
      drainFrom cap ⟨drained.bytes, true⟩ reads
    else drainFrom cap ⟨drained.bytes ++ chunk, drained.truncated⟩ reads

def drain (reads : List (Option Bytes)) (cap : ℕ) : Drained := drainFrom cap ⟨[], false⟩ reads

/-- What was drained of a stream so far. -/
structure DrainKeeps (cap : ℕ) (stream : Bytes) (drained : Drained) : Prop where
  truncated : drained.truncated = true ↔ cap < stream.length
  front : drained.bytes <+: stream
  whole : drained.truncated = false → drained.bytes = stream

theorem DrainKeeps.read {cap : ℕ} {stream : Bytes} {drained : Drained}
    (keeps : DrainKeeps cap stream drained) (chunk : Bytes) :
    DrainKeeps cap (stream ++ chunk)
      (if drained.truncated ∨ drained.bytes.length + chunk.length > cap then ⟨drained.bytes, true⟩
        else ⟨drained.bytes ++ chunk, drained.truncated⟩) := by
  cases cut : drained.truncated with
  | true =>
    have long := keeps.truncated.mp cut
    rw [if_pos (Or.inl rfl)]
    refine ⟨⟨fun _ => ?_, fun _ => rfl⟩, keeps.front.trans (prefix_append _ _), ?_⟩
    · rw [length_append]
      omega
    · intro kept
      cases kept
  | false =>
    have same := keeps.whole cut
    rw [same]
    by_cases long : stream.length + chunk.length > cap
    · rw [if_pos (Or.inr long)]
      refine ⟨⟨fun _ => ?_, fun _ => rfl⟩, prefix_append _ _, ?_⟩
      · rw [length_append]
        exact long
      · intro kept
        cases kept
    · rw [if_neg (not_or.mpr ⟨Bool.false_ne_true, long⟩)]
      refine ⟨⟨fun kept => absurd kept Bool.false_ne_true, fun longer => ?_⟩, prefix_rfl,
        fun _ => rfl⟩
      rw [length_append] at longer
      exact absurd longer long

theorem drainKeeps_drainFrom {cap : ℕ} {stream : Bytes} {drained : Drained} {chunks : List Bytes}
    (nonempty : ∀ chunk ∈ chunks, chunk ≠ []) (keeps : DrainKeeps cap stream drained) :
    DrainKeeps cap (stream ++ chunks.flatten) (drainFrom cap drained (chunks.map some)) := by
  induction chunks generalizing stream drained with
  | nil =>
    rw [flatten_nil, append_nil]
    exact keeps
  | cons chunk chunks ih =>
    have others : ∀ chunk ∈ chunks, chunk ≠ [] :=
      fun other mem => nonempty other (mem_cons_of_mem _ mem)
    have later := ih others (keeps.read chunk)
    rw [map_cons, drainFrom, if_neg (nonempty chunk mem_cons_self),
      flatten_cons, ← append_assoc]
    split_ifs at later ⊢ <;> exact later

theorem drainKeeps_nothing (cap : ℕ) : DrainKeeps cap [] ⟨[], false⟩ where
  truncated := ⟨fun cut => absurd cut Bool.false_ne_true,
    fun longer => absurd longer (Nat.not_lt_zero cap)⟩
  front := prefix_rfl
  whole _ := rfl

/-- Neither loop depends on how the stream is cut into reads. -/
theorem reads_are_chunking_independent {chunks : List Bytes}
    (nonempty : ∀ chunk ∈ chunks, chunk ≠ []) :
    (∀ count, readLines count ⟨[], chunks.map some⟩ =
      ((boundedLines chunks.flatten).map some ++ List.replicate count none).take count) ∧
    ∀ cap, DrainKeeps cap chunks.flatten (drain (chunks.map some) cap) := by
  constructor
  · intro count
    have fed : LineInput.Fed ⟨[], chunks.map some⟩ := by
      intro read mem
      obtain ⟨chunk, there, rfl⟩ := mem_map.mp mem
      exact ⟨chunk, nonempty chunk there, rfl⟩
    have all := readLines_eq count fed
    simpa [LineInput.stream, Function.comp_def] using all
  · intro cap
    exact drainKeeps_drainFrom nonempty (drainKeeps_nothing cap)

/-- Two lines and the start of a third, cut inside the first. -/
def cutLines : List Bytes := [[104], [105, newline, newline, 120]]

theorem reads_are_chunking_independent_cut :
    (∀ chunk ∈ cutLines, chunk ≠ []) ∧
      readLines 4 ⟨[], cutLines.map some⟩ = [some [104, 105], some [], some [120], none] ∧
      (drain (cutLines.map some) 3).truncated = true := by
  have nonempty : ∀ chunk ∈ cutLines, chunk ≠ [] := by decide
  have read := reads_are_chunking_independent nonempty
  refine ⟨nonempty, ?_, (read.2 3).truncated.mpr (by decide)⟩
  rw [read.1 4]
  decide +kernel

end QsBitwarden.Vault
