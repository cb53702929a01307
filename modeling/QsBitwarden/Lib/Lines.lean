import Mathlib.Data.List.Basic

/-! Owns the division of a sequence into lines at a separator: the first line, all finished
lines with what is left unfinished, and how both behave when more is appended. It does not
own what a line holds. -/

namespace QsBitwarden.Lib

open List

variable {Item : Type*}

/-- Finished lines as a text. -/
def joinLines (separator : Item) (lines : List (List Item)) : List Item :=
  lines.flatMap fun line => line ++ [separator]

@[simp] theorem joinLines_nil (separator : Item) :
    joinLines separator ([] : List (List Item)) = [] := rfl

@[simp] theorem joinLines_cons (separator : Item) (line : List Item) (lines : List (List Item)) :
    joinLines separator (line :: lines) = line ++ separator :: joinLines separator lines := by
  rw [joinLines, flatMap_cons, append_assoc]
  rfl

variable [DecidableEq Item] (separator : Item)

/-- The first line without its separator, and what follows it. -/
def firstLine : List Item → Option (List Item × List Item)
  | [] => none
  | item :: rest =>
    if item = separator then some ([], rest)
    else (firstLine rest).map fun found => (item :: found.1, found.2)

/-- The finished lines, and what follows the last of them. -/
def splitLines : List Item → List (List Item) × List Item
  | [] => ([], [])
  | item :: rest =>
    if item = separator then ([] :: (splitLines rest).1, (splitLines rest).2)
    else match splitLines rest with
      | ([], last) => ([], item :: last)
      | (line :: lines, last) => ((item :: line) :: lines, last)

/-- What follows the last finished line. -/
def unfinished (text : List Item) : List Item := (splitLines separator text).2

variable {separator} {text line rest : List Item}

/-! ### The first line -/

theorem firstLine_append (line rest : List Item) (unbroken : separator ∉ line) :
    firstLine separator (line ++ separator :: rest) = some (line, rest) := by
  induction line with
  | nil => rw [nil_append, firstLine, if_pos rfl]
  | cons item others ih =>
    rw [mem_cons, not_or] at unbroken
    rw [cons_append, firstLine, if_neg (Ne.symm unbroken.1),
      ih unbroken.2]
    rfl

theorem firstLine_eq_none (unbroken : separator ∉ text) : firstLine separator text = none := by
  induction text with
  | nil => rfl
  | cons item others ih =>
    rw [mem_cons, not_or] at unbroken
    rw [firstLine, if_neg (Ne.symm unbroken.1), ih unbroken.2]
    rfl

/-- A text is unbroken or has a first line. -/
theorem unbroken_or_line (separator : Item) (text : List Item) :
    separator ∉ text ∨ ∃ line rest, separator ∉ line ∧ text = line ++ separator :: rest := by
  by_cases broken : separator ∈ text
  · obtain ⟨line, rest, split, first⟩ := eq_append_cons_of_mem broken
    exact Or.inr ⟨line, rest, first, split⟩
  · exact Or.inl broken

/-! ### All lines -/

theorem splitLines_unbroken (unbroken : separator ∉ text) :
    splitLines separator text = ([], text) := by
  induction text with
  | nil => rfl
  | cons item others ih =>
    rw [mem_cons, not_or] at unbroken
    rw [splitLines, if_neg (Ne.symm unbroken.1), ih unbroken.2]

theorem splitLines_line (unbroken : separator ∉ line) :
    splitLines separator (line ++ separator :: rest) =
      (line :: (splitLines separator rest).1, (splitLines separator rest).2) := by
  induction line with
  | nil => rw [nil_append, splitLines, if_pos rfl]
  | cons item others ih =>
    rw [mem_cons, not_or] at unbroken
    rw [cons_append, splitLines, if_neg (Ne.symm unbroken.1),
      ih unbroken.2]

theorem unfinished_unbroken (unbroken : separator ∉ text) :
    unfinished separator text = text := by
  rw [unfinished, splitLines_unbroken unbroken]

theorem unfinished_line (unbroken : separator ∉ line) :
    unfinished separator (line ++ separator :: rest) = unfinished separator rest := by
  rw [unfinished, splitLines_line unbroken]
  rfl

theorem unbroken_of_splitLines (none : (splitLines separator text).1 = []) :
    unfinished separator text = text := by
  rcases unbroken_or_line separator text with unbroken | ⟨line, rest, unbroken, rfl⟩
  · exact unfinished_unbroken unbroken
  · rw [splitLines_line unbroken] at none
    cases none

/-- Lines finished in a front stay, and what it leaves unfinished goes on with the rest. -/
theorem splitLines_append (left right : List Item) :
    splitLines separator (left ++ right) =
      ((splitLines separator left).1 ++
          (splitLines separator (unfinished separator left ++ right)).1,
        (splitLines separator (unfinished separator left ++ right)).2) := by
  induction length : left.length using Nat.strongRecOn generalizing left with
  | _ count ih =>
    rcases unbroken_or_line separator left with unbroken | ⟨line, rest, unbroken, rfl⟩
    · rw [splitLines_unbroken unbroken, unfinished_unbroken unbroken, nil_append]
    · have shorter : rest.length < count := by
        rw [length_append, length_cons] at length
        omega
      rw [append_assoc, cons_append, splitLines_line unbroken,
        splitLines_line unbroken, unfinished_line unbroken,
        ih _ shorter rest rfl, cons_append]

theorem not_mem_unfinished (separator : Item) (text : List Item) :
    separator ∉ unfinished separator text := by
  unfold unfinished
  induction text with
  | nil => exact not_mem_nil
  | cons item rest ih =>
    rw [splitLines]
    split_ifs with ends
    · exact ih
    · split
      · next last split =>
        rw [split] at ih
        exact not_mem_cons_of_ne_of_not_mem (Ne.symm ends) ih
      · next split =>
        rw [split] at ih
        exact ih

/-! ### Texts made of lines -/

variable {lines : List (List Item)}

theorem splitLines_joinLines (unbroken : ∀ line ∈ lines, separator ∉ line) :
    splitLines separator (joinLines separator lines) = (lines, []) := by
  induction lines with
  | nil => rfl
  | cons line others ih =>
    rw [joinLines_cons, splitLines_line (unbroken line mem_cons_self),
      ih fun other mem => unbroken other (mem_cons_of_mem _ mem)]

theorem line_inj {line' rest' : List Item} (unbroken : separator ∉ line)
    (unbroken' : separator ∉ line')
    (same : line ++ separator :: rest = line' ++ separator :: rest') :
    line = line' ∧ rest = rest' := by
  have found := firstLine_append line rest unbroken
  rw [same, firstLine_append line' rest' unbroken', Option.some.injEq, Prod.mk.injEq] at found
  exact ⟨found.1.symm, found.2.symm⟩

omit [DecidableEq Item] in
/-- An unbroken front of some lines is the front of the first one. -/
theorem unbroken_front {more : List Item}
    (unbroken : separator ∉ text) (front : text ++ more = joinLines separator lines) :
    (text = [] ∧ more = [] ∧ lines = []) ∨
      ∃ line others, lines = line :: others ∧ text <+: line := by
  cases lines with
  | nil =>
    obtain ⟨rfl, rfl⟩ := append_eq_nil_iff.mp front
    exact Or.inl ⟨rfl, rfl, rfl⟩
  | cons line others =>
    rw [joinLines_cons] at front
    refine Or.inr ⟨line, others, rfl, ?_⟩
    rcases append_eq_append_iff.mp front with ⟨between, split, -⟩ | ⟨between, split, rest⟩
    · exact ⟨between, split.symm⟩
    · cases between with
      | nil =>
        rw [append_nil] at split
        subst split
        exact prefix_rfl
      | cons item between =>
        -- The separator would lie inside the front.
        rw [cons_append, List.cons.injEq] at rest
        rw [split, rest.1] at unbroken
        exact absurd (mem_append_right _ mem_cons_self) unbroken

/-- What is unfinished at a point of some lines is the front of those that remain. -/
theorem unfinished_front {more : List Item} (unbroken : ∀ line ∈ lines, separator ∉ line)
    (front : text ++ more = joinLines separator lines) :
    ∃ finished remaining, lines = finished ++ remaining ∧
      unfinished separator text ++ more = joinLines separator remaining := by
  induction lines generalizing text with
  | nil =>
    obtain ⟨rfl, rfl⟩ := append_eq_nil_iff.mp front
    exact ⟨[], [], rfl, rfl⟩
  | cons line others ih =>
    rcases unbroken_or_line separator text with whole | ⟨first, rest, firstUnbroken, rfl⟩
    · refine ⟨[], line :: others, rfl, ?_⟩
      rw [unfinished_unbroken whole, front]
    · rw [joinLines_cons, append_assoc, cons_append] at front
      obtain ⟨-, remains⟩ := line_inj firstUnbroken (unbroken line mem_cons_self) front
      obtain ⟨finished, remaining, split, rejoined⟩ := ih
        (fun other mem => unbroken other (mem_cons_of_mem _ mem)) remains
      refine ⟨line :: finished, remaining, by rw [split, cons_append], ?_⟩
      rw [unfinished_line firstUnbroken, rejoined]

end QsBitwarden.Lib
