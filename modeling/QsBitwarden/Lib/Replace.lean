import Mathlib.Data.List.DropRight
import Mathlib.Data.List.Infix
import Mathlib.Data.List.TakeWhile
import QsBitwarden.Lib.Text

/-! Owns how `replaceAll` meets the other text functions: what does not overlap the pattern
stays where it is, and trimming, cutting and searching give the same before as after. It
does not own which texts are replaced. -/

namespace QsBitwarden.Lib

open List

variable {pattern replacement : Text}

/-! ### The scan -/

theorem replaceFrom_eq (skip : ℕ) (text : Text) :
    replaceFrom pattern replacement skip text =
      replaceAll pattern replacement (text.drop skip) := by
  induction text generalizing skip with
  | nil => simp [replaceFrom, replaceAll]
  | cons char rest ih =>
    cases skip with
    | zero => rfl
    | succ skip => rw [replaceFrom, ih, drop_succ_cons]

@[simp] theorem replaceAll_nil : replaceAll pattern replacement [] = [] := by
  simp [replaceAll, replaceFrom]

/-- A pattern found is replaced, and the scan goes on behind it. -/
theorem replaceAll_found (filled : pattern ≠ []) (rest : Text) :
    replaceAll pattern replacement (pattern ++ rest) =
      replacement ++ replaceAll pattern replacement rest := by
  obtain ⟨first, others, rfl⟩ := exists_cons_of_ne_nil filled
  have found : (first :: others).isPrefixOf (first :: others ++ rest) = true :=
    isPrefixOf_iff_prefix.mpr (prefix_append ..)
  rw [cons_append] at found ⊢
  rw [replaceAll, replaceFrom, if_pos found, replaceFrom_eq]
  simp

variable {char : Char} {part rest : Text}

theorem replaceAll_kept (missing : ¬ pattern <+: char :: rest) :
    replaceAll pattern replacement (char :: rest) =
      char :: replaceAll pattern replacement rest := by
  rw [← isPrefixOf_iff_prefix] at missing
  rw [replaceAll, replaceFrom, if_neg missing]
  rfl

/-- Induction along the scan: at each place the pattern is found or one character passes. -/
theorem scan_induction {motive : Text → Prop} (filled : pattern ≠ []) (nil : motive [])
    (found : ∀ rest, motive rest → motive (pattern ++ rest))
    (kept : ∀ char rest, ¬ pattern <+: char :: rest → motive rest → motive (char :: rest))
    (text : Text) : motive text := by
  induction size : text.length using Nat.strong_induction_on generalizing text with
  | _ size ih =>
    cases text with
    | nil => exact nil
    | cons char rest =>
      by_cases there : pattern <+: char :: rest
      · obtain ⟨others, shape⟩ := there
        have positive := length_pos_of_ne_nil filled
        have lengths := congrArg List.length shape
        rw [length_append] at lengths
        rw [← shape]
        exact found others (ih others.length (by omega) others rfl)
      · rw [length_cons] at size
        exact kept char rest there (ih rest.length (by omega) rest rfl)

/-! ### Characters outside the pattern -/

/-- A pattern does not reach over a character it does not have. -/
theorem not_prefix_append_cons (outside : char ∉ pattern) (first second : Text)
    (missing : ¬ pattern <+: first) : ¬ pattern <+: first ++ char :: second := by
  intro there
  by_cases short : pattern.length ≤ first.length
  · exact missing (prefix_of_prefix_length_le there (prefix_append ..) short)
  · have whole : first ++ [char] <+: first ++ char :: second := ⟨second, by simp⟩
    have longer : (first ++ [char]).length ≤ pattern.length := by
      rw [length_append, length_singleton]
      omega
    have inside := prefix_of_prefix_length_le whole there longer
    exact outside (inside.subset (by simp))

section

variable (filled : pattern ≠ [])

include filled

theorem replaceAll_append_cons (outside : char ∉ pattern) (first second : Text) :
    replaceAll pattern replacement (first ++ char :: second) =
      replaceAll pattern replacement first ++ char :: replaceAll pattern replacement second := by
  induction first using scan_induction filled with
  | nil =>
    have missing := not_prefix_append_cons outside [] second (by simpa using filled)
    rw [replaceAll_nil]
    exact replaceAll_kept missing
  | found rest ih =>
    rw [append_assoc, replaceAll_found filled, ih,
      replaceAll_found filled, append_assoc]
  | kept other rest missing ih =>
    have missing' := not_prefix_append_cons outside (other :: rest) second missing
    rw [cons_append] at missing'
    rw [cons_append, replaceAll_kept missing', ih,
      replaceAll_kept missing, cons_append]

variable {text : Text}

theorem mem_replaceAll_of_mem (outside : char ∉ pattern)
    (mem : char ∈ text) : char ∈ replaceAll pattern replacement text := by
  obtain ⟨first, second, rfl⟩ := append_of_mem mem
  rw [replaceAll_append_cons filled outside]
  simp

theorem forall_mem_replaceAll (property : Char → Prop)
    (inserted : ∀ char ∈ replacement, property char)
    (all : ∀ char ∈ text, property char) :
    ∀ char ∈ replaceAll pattern replacement text, property char := by
  induction text using scan_induction filled with
  | nil => simp
  | found rest ih =>
    intro char mem
    rw [replaceAll_found filled, mem_append] at mem
    rcases mem with new | old
    · exact inserted char new
    · exact ih (fun other there => all other (by simp [there])) char old
  | kept first rest missing ih =>
    intro char mem
    rw [replaceAll_kept missing, mem_cons] at mem
    rcases mem with rfl | old
    · exact all char (by simp)
    · exact ih (fun other there => all other (by simp [there])) char old

theorem replaceAll_eq_self
    (short : text.length < pattern.length) : replaceAll pattern replacement text = text := by
  induction text using scan_induction filled with
  | nil => rfl
  | found rest ih =>
    rw [length_append] at short
    omega
  | kept char rest missing ih =>
    rw [length_cons] at short
    rw [replaceAll_kept missing, ih (by omega)]

theorem replaceAll_self :
    replaceAll pattern replacement pattern = replacement := by
  have found : replaceAll pattern replacement (pattern ++ []) = _ := replaceAll_found filled []
  rwa [append_nil, replaceAll_nil, append_nil] at found

theorem replaceAll_ne_nil (shown : replacement ≠ [])
    (nonempty : text ≠ []) : replaceAll pattern replacement text ≠ [] := by
  induction text using scan_induction filled with
  | nil => exact absurd rfl nonempty
  | found rest ih =>
    rw [replaceAll_found filled]
    simp [shown]
  | kept char rest missing ih =>
    rw [replaceAll_kept missing]
    simp

end

/-! ### Cutting and trimming -/

section Cutting

variable {keep drop : Char → Bool}

theorem takeWhile_replaceAll (filled : pattern ≠ []) (inPattern : ∀ char ∈ pattern, keep char)
    (inReplacement : ∀ char ∈ replacement, keep char) (text : Text) :
    (replaceAll pattern replacement text).takeWhile keep =
      replaceAll pattern replacement (text.takeWhile keep) := by
  induction text using scan_induction filled with
  | nil => simp
  | found rest ih =>
    rw [replaceAll_found filled, takeWhile_append_of_pos inReplacement, ih,
      takeWhile_append_of_pos inPattern, replaceAll_found filled]
  | kept char rest missing ih =>
    rw [replaceAll_kept missing, takeWhile_cons, takeWhile_cons]
    by_cases kept : keep char
    · have missing' : ¬ pattern <+: char :: rest.takeWhile keep := fun there =>
        missing (there.trans (cons_prefix_cons.mpr ⟨rfl, takeWhile_prefix keep⟩))
      rw [if_pos kept, if_pos kept, ih, replaceAll_kept missing']
    · rw [if_neg kept, if_neg kept, replaceAll_nil]

/-- A word that is there, and nothing of it is dropped. -/
structure Stays (drop : Char → Bool) (word : Text) : Prop where
  filled : word ≠ []
  each : ∀ char ∈ word, drop char = false

theorem Stays.dropWhile {word : Text} (stays : Stays drop word) (rest : Text) :
    (word ++ rest).dropWhile drop = word ++ rest := by
  obtain ⟨first, others, rfl⟩ := exists_cons_of_ne_nil stays.filled
  rw [cons_append, dropWhile_cons, stays.each first (by simp)]
  simp

theorem dropWhile_replaceAll (before : Stays drop pattern) (after : Stays drop replacement)
    (text : Text) : (replaceAll pattern replacement text).dropWhile drop =
      replaceAll pattern replacement (text.dropWhile drop) := by
  induction text using scan_induction before.filled with
  | nil => simp
  | found rest ih => rw [before.dropWhile, replaceAll_found before.filled, after.dropWhile]
  | kept char rest missing ih =>
    rw [replaceAll_kept missing, dropWhile_cons, dropWhile_cons]
    by_cases dropped : drop char
    · rw [if_pos dropped, if_pos dropped, ih]
    · rw [if_neg dropped, if_neg dropped, replaceAll_kept missing]

theorem dropEndWhile_cons (char : Char) (rest : Text) :
    dropEndWhile drop (char :: rest) =
      if dropEndWhile drop rest = [] then if drop char then [] else [char]
      else char :: dropEndWhile drop rest := by
  unfold dropEndWhile
  rw [reverse_cons, dropWhile_append]
  by_cases empty : rest.reverse.dropWhile drop = []
  · by_cases dropped : drop char <;> simp [empty, dropped]
  · simp [empty]

theorem dropEndWhile_append {word : Text} (stays : ∀ char ∈ word, drop char = false)
    (rest : Text) : dropEndWhile drop (word ++ rest) = word ++ dropEndWhile drop rest := by
  induction word with
  | nil => rfl
  | cons char others ih =>
    have first := stays char (by simp)
    have tail := ih fun other mem => stays other (by simp [mem])
    rw [cons_append, dropEndWhile_cons, tail, first]
    by_cases empty : others ++ dropEndWhile drop rest = []
    · simp [empty]
    · simp [empty]

theorem dropEndWhile_begins (text : Text) : dropEndWhile drop text <+: text :=
  rdropWhile_prefix drop text

theorem dropEndWhile_replaceAll (before : Stays drop pattern) (after : Stays drop replacement)
    (text : Text) : dropEndWhile drop (replaceAll pattern replacement text) =
      replaceAll pattern replacement (dropEndWhile drop text) := by
  induction text using scan_induction before.filled with
  | nil => simp [dropEndWhile]
  | found rest ih =>
    rw [dropEndWhile_append before.each, replaceAll_found before.filled,
      dropEndWhile_append after.each, ih, replaceAll_found before.filled]
  | kept char rest missing ih =>
    have missing' : ¬ pattern <+: char :: dropEndWhile drop rest := fun there =>
      missing (there.trans (cons_prefix_cons.mpr ⟨rfl, dropEndWhile_begins rest⟩))
    rw [replaceAll_kept missing, dropEndWhile_cons, dropEndWhile_cons, ih]
    by_cases empty : dropEndWhile drop rest = []
    · rw [empty] at missing'
      by_cases dropped : drop char
      · simp [empty, dropped]
      · simp [empty, dropped, replaceAll_kept missing']
    · rw [if_neg empty, if_neg (replaceAll_ne_nil before.filled after.filled empty),
        replaceAll_kept missing']

theorem dropWhile_congr_mem {text : Text} (same : ∀ char ∈ text, keep char = drop char) :
    text.dropWhile keep = text.dropWhile drop := by
  induction text with
  | nil => rfl
  | cons char rest ih =>
    rw [dropWhile_cons, dropWhile_cons, same char (by simp),
      ih fun other mem => same other (by simp [mem])]

/-- What was cut at both ends stays as it is. -/
theorem dropEnds_idempotent (text : Text) :
    dropEndWhile drop ((dropEndWhile drop (text.dropWhile drop)).dropWhile drop) =
      dropEndWhile drop (text.dropWhile drop) := by
  have twice (part : Text) : dropEndWhile drop (dropEndWhile drop part) = dropEndWhile drop part :=
    rdropWhile_idempotent drop part
  have front : (dropEndWhile drop (text.dropWhile drop)).dropWhile drop =
      dropEndWhile drop (text.dropWhile drop) := by
    cases shape : text.dropWhile drop with
    | nil => rfl
    | cons char rest =>
      have stays : drop char = false := by
        have head := head?_dropWhile_not drop text
        rw [shape] at head
        simpa using head
      rw [dropEndWhile_cons]
      by_cases empty : dropEndWhile drop rest = [] <;> simp [empty, stays]
  rw [front, twice]

end Cutting

theorem trim_replaceAll (before : Stays isWhiteSpace pattern)
    (after : Stays isWhiteSpace replacement) (text : Text) :
    trim (replaceAll pattern replacement text) = replaceAll pattern replacement (trim text) := by
  unfold trim
  rw [dropWhile_replaceAll before after, dropEndWhile_replaceAll before after]

/-! ### Searching -/

/-- One of two texts begins the other. -/
def Meets (first second : Text) : Prop := first <+: second ∨ second <+: first

instance (first second : Text) : Decidable (Meets first second) :=
  inferInstanceAs (Decidable (_ ∨ _))

/-- Two words that never overlap in a text: no end of one meets the other. -/
def Apart (marker word : Text) : Prop :=
  (∀ part ∈ word.tails, part ≠ [] → ¬ Meets marker part) ∧
    ∀ part ∈ marker.tails, part ≠ [] → ¬ Meets word part

instance (marker word : Text) : Decidable (Apart marker word) := inferInstanceAs (Decidable (_ ∧ _))

variable {marker word : Text}

theorem Apart.not_prefix_end (apart : Apart marker word) (ending : part <:+ word)
    (filled : part ≠ []) (rest : Text) : ¬ marker <+: part ++ rest := by
  intro there
  have meets := prefix_or_prefix_of_prefix there (prefix_append part rest)
  exact apart.1 part ((mem_tails _ _).mpr ending) filled meets

theorem Apart.not_prefix_marker (apart : Apart marker word) (ending : part <:+ marker)
    (filled : part ≠ []) (rest : Text) : ¬ word <+: part ++ rest := by
  intro there
  have meets := prefix_or_prefix_of_prefix there (prefix_append part rest)
  exact apart.2 part ((mem_tails _ _).mpr ending) filled meets

theorem afterFirst_cons_found (there : marker <+: char :: rest) :
    afterFirst marker (char :: rest) = some ((char :: rest).drop marker.length) := by
  rw [afterFirst, if_pos <| isPrefixOf_iff_prefix.mpr there]

theorem afterFirst_cons_missing (missing : ¬ marker <+: char :: rest) :
    afterFirst marker (char :: rest) = afterFirst marker rest := by
  rw [afterFirst, if_neg <| missing ∘ isPrefixOf_iff_prefix.mp]

/-- The search passes a word apart from the marker. -/
theorem afterFirst_append (apart : Apart marker word) (rest : Text) :
    afterFirst marker (word ++ rest) = afterFirst marker rest := by
  -- the ends of the word, from the shortest to the whole
  have ends : ∀ part, part <:+ word →
      afterFirst marker (part ++ rest) = afterFirst marker rest := by
    intro part
    induction part with
    | nil => exact fun _ => rfl
    | cons char others ih =>
      intro ending
      have missing := apart.not_prefix_end ending (by simp) rest
      rw [cons_append] at missing ⊢
      rw [afterFirst_cons_missing missing]
      exact ih ((suffix_cons char others).trans ending)
  exact ends word (suffix_refl word)

/-- The marker stays where it stood. -/
theorem replaceAll_marker (apart : Apart marker pattern) (rest : Text) :
    replaceAll pattern replacement (marker ++ rest) =
      marker ++ replaceAll pattern replacement rest := by
  have ends : ∀ part, part <:+ marker → replaceAll pattern replacement (part ++ rest) =
      part ++ replaceAll pattern replacement rest := by
    intro part
    induction part with
    | nil => exact fun _ => rfl
    | cons char others ih =>
      intro ending
      have missing := apart.not_prefix_marker ending (by simp) rest
      rw [cons_append] at missing ⊢
      rw [replaceAll_kept missing, cons_append,
        ih ((suffix_cons char others).trans ending)]
  exact ends marker (suffix_refl marker)

/-- No part of a marker is made by replacing. -/
theorem prefix_of_prefix_replaceAll (filled : pattern ≠ []) (apart : Apart marker replacement)
    (ending : part <:+ marker) {text : Text}
    (there : part <+: replaceAll pattern replacement text) : part <+: text := by
  induction part generalizing text with
  | nil => exact nil_prefix
  | cons first others ih =>
    cases text with
    | nil => simp at there
    | cons char rest =>
      by_cases found : pattern <+: char :: rest
      · obtain ⟨behind, shape⟩ := found
        rw [← shape, replaceAll_found filled] at there
        have meets := prefix_or_prefix_of_prefix (prefix_append ..) there
        exact absurd meets (apart.2 _ ((mem_tails _ _).mpr ending) (by simp))
      · rw [replaceAll_kept found, cons_prefix_cons] at there
        have tail := ih ((suffix_cons first others).trans ending) there.2
        exact cons_prefix_cons.mpr ⟨there.1, tail⟩

/-- What follows the first marker is what followed it, replaced. -/
theorem afterFirst_replaceAll (filled : pattern ≠ []) (named : marker ≠ [])
    (before : Apart marker pattern) (after : Apart marker replacement) (text : Text) :
    afterFirst marker (replaceAll pattern replacement text) =
      (afterFirst marker text).map (replaceAll pattern replacement) := by
  induction text using scan_induction filled with
  | nil => simp [afterFirst, named]
  | found rest ih =>
    rw [replaceAll_found filled, afterFirst_append after, afterFirst_append before,
      ih]
  | kept char rest missing ih =>
    by_cases there : marker <+: char :: rest
    · obtain ⟨behind, shape⟩ := there
      obtain ⟨first, others, rfl⟩ := exists_cons_of_ne_nil named
      rw [← shape, replaceAll_marker before, cons_append, cons_append,
        afterFirst_cons_found (by rw [← cons_append]; exact prefix_append ..),
        afterFirst_cons_found (by rw [← cons_append]; exact prefix_append ..)]
      simp
    · have missing' : ¬ marker <+: char :: replaceAll pattern replacement rest := by
        intro made
        rw [← replaceAll_kept missing] at made
        exact there (prefix_of_prefix_replaceAll filled after (suffix_refl marker) made)
      rw [replaceAll_kept missing, afterFirst_cons_missing missing',
        afterFirst_cons_missing there, ih]

/-! ### Lines -/

/-- Induction along the lines of a text. -/
theorem line_induction {motive : Text → Prop} (last : ∀ text, '\n' ∉ text → motive text)
    (more : ∀ first second, '\n' ∉ first → motive second → motive (first ++ '\n' :: second))
    (text : Text) : motive text := by
  induction size : text.length using Nat.strong_induction_on generalizing text with
  | _ size ih =>
    by_cases broken : '\n' ∈ text
    · obtain ⟨first, second, rfl, whole⟩ := eq_append_cons_of_mem broken
      rw [length_append, length_cons] at size
      exact more first second whole
        (ih second.length (by omega) second rfl)
    · exact last text broken

theorem trim_concat (blank : isWhiteSpace char) (text : Text) :
    trim (text ++ [char]) = trim text := by
  unfold trim
  rw [dropWhile_append]
  by_cases empty : text.dropWhile isWhiteSpace = []
  · simp [empty, blank, dropEndWhile]
  · have filled : (text.dropWhile isWhiteSpace).isEmpty = false := by simpa using empty
    rw [filled]
    exact rdropWhile_concat_pos isWhiteSpace _ char blank

theorem linesFrom_append_cons {first : Text} (whole : '\n' ∉ first) (second current : Text) :
    ∃ line, linesFrom current (first ++ '\n' :: second) = line :: lines second ∧
      trim line = trim (current.reverse ++ first) := by
  induction first generalizing current with
  | nil =>
    rw [append_nil, nil_append]
    cases current with
    | nil => exact ⟨[], rfl, rfl⟩
    | cons char others =>
      by_cases carriage : char = '\r'
      · subst carriage
        refine ⟨others.reverse, rfl, ?_⟩
        rw [reverse_cons, trim_concat rfl]
      · refine ⟨(char :: others).reverse, ?_, rfl⟩
        rw [linesFrom]
        · simp [lines]
        · simpa using carriage
  | cons char rest ih =>
    rw [mem_cons, not_or] at whole
    obtain ⟨line, shape, same⟩ := ih whole.2 (char :: current)
    refine ⟨line, ?_, ?_⟩
    · rw [← shape, cons_append, linesFrom]
      · exact fun broken => whole.1 broken.symm
    · rw [same, reverse_cons, append_assoc]
      rfl

theorem linesFrom_whole {text : Text} (whole : '\n' ∉ text) (current : Text) :
    linesFrom current text =
      if current.reverse ++ text = [] then [] else [current.reverse ++ text] := by
  induction text generalizing current with
  | nil => cases current <;> simp [linesFrom]
  | cons char rest ih =>
    rw [mem_cons, not_or] at whole
    rw [linesFrom, ih whole.2]
    · simp
    · exact fun broken => whole.1 broken.symm

/-- The lines of a text, each trimmed. -/
def trimmedLines (text : Text) : List Text := (lines text).map trim

theorem trimmedLines_append_cons {first : Text} (whole : '\n' ∉ first) (second : Text) :
    trimmedLines (first ++ '\n' :: second) = trim first :: trimmedLines second := by
  obtain ⟨line, shape, same⟩ := linesFrom_append_cons whole second []
  unfold trimmedLines
  rw [lines, shape, map_cons, same]
  rfl

theorem trimmedLines_whole {text : Text} (whole : '\n' ∉ text) :
    trimmedLines text = if text = [] then [] else [trim text] := by
  unfold trimmedLines lines
  rw [linesFrom_whole whole]
  by_cases empty : text = [] <;> simp [empty]

/-- Replacing a pattern without white space keeps the lines. -/
theorem trimmedLines_replaceAll (before : Stays isWhiteSpace pattern)
    (after : Stays isWhiteSpace replacement) (text : Text) :
    trimmedLines (replaceAll pattern replacement text) =
      (trimmedLines text).map (replaceAll pattern replacement) := by
  have outside : '\n' ∉ pattern := fun mem => absurd (before.each _ mem) (by decide)
  have outside' : '\n' ∉ replacement := fun mem => absurd (after.each _ mem) (by decide)
  have unbroken : ∀ {line : Text}, '\n' ∉ line → '\n' ∉ replaceAll pattern replacement line := by
    intro line whole mem
    refine forall_mem_replaceAll before.filled (· ≠ '\n') ?_ ?_ _ mem rfl
    · exact fun char there same => outside' (same ▸ there)
    · exact fun char there same => whole (same ▸ there)
  induction text using line_induction with
  | last text whole =>
    rw [trimmedLines_whole (unbroken whole), trimmedLines_whole whole]
    by_cases empty : text = []
    · simp [empty]
    · rw [if_neg empty, if_neg (replaceAll_ne_nil before.filled after.filled empty),
        trim_replaceAll before after]
      rfl
  | more first second whole ih =>
    rw [replaceAll_append_cons before.filled outside, trimmedLines_append_cons (unbroken whole),
      trimmedLines_append_cons whole, ih, trim_replaceAll before after, map_cons]

end QsBitwarden.Lib
