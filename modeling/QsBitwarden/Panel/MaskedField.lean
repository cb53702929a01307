import QsBitwarden.Lib.History
import QsBitwarden.Lib.Utf16

/-! Owns the masked line field: its value in UTF-16 units, the caret over one bullet for each
unit, and the edits the field makes itself. It does not own the unmasked document, nor how a
clipboard reaches the field. -/

namespace QsBitwarden.Panel.MaskedField

open Lib Lib.Utf16 List

/-- The store's own limit. -/
def maximumLength : ℕ := 10000000

inductive Direction
  | back
  | forward
  deriving DecidableEq, Repr

def Direction.past (index : ℕ) : Direction → ℕ
  | .back => index - 1
  | .forward => index + 1

structure Field where
  value : Units
  /-- The end of the editor's selection that does not move. -/
  anchor : ℕ
  cursorPosition : ℕ
  maskedAll : Bool
  enabled : Bool
  readOnly : Bool
  deriving DecidableEq, Repr

def snapIndex (text : Units) (index : ℕ) (dir : Direction) : ℕ :=
  if index = 0 ∨ text.length ≤ index then index
  else if lowAt text index ∧ highAt text (index - 1) then dir.past index
  else index

def stepIndex (text : Units) (index : ℕ) : Direction → ℕ
  | .back =>
    if index = 0 then 0
    else if lowAt text (index - 1) ∧ 0 < index - 1 ∧ highAt text (index - 2) then index - 2
    else index - 1
  | .forward =>
    if text.length ≤ index then text.length
    else if highAt text index ∧ index + 1 < text.length ∧ lowAt text (index + 1) then index + 2
    else index + 1

/-- `insert` of the store, which cuts what does not fit. -/
def insertAt (text : Units) (position : ℕ) (clean : Units) : Units :=
  if text.length < position then text
  else text.take position ++ clean.take (maximumLength - text.length) ++ text.drop position

namespace Field

variable (field : Field)

def editable : Bool := field.enabled && !field.readOnly

def selectionStart : ℕ := min field.anchor field.cursorPosition

def selectionEnd : ℕ := max field.anchor field.cursorPosition

/-- The span an edit replaces. A bare caret is taken where it is. -/
def editRange : ℕ × ℕ :=
  if field.maskedAll then
    (snapIndex field.value 0 .back, snapIndex field.value field.value.length .forward)
  else if field.selectionStart = field.selectionEnd then
    (field.cursorPosition, field.cursorPosition)
  else (snapIndex field.value field.selectionStart .back,
    snapIndex field.value field.selectionEnd .forward)

/-- A caret that is set ends the selection, and the virtual one. -/
def placeCaret (position : ℕ) : Field :=
  { field with anchor := position, cursorPosition := position, maskedAll := false }

def replaced (start stop : ℕ) (clean : Units) : Units :=
  let value := if start < stop then field.value.take start ++ field.value.drop stop else field.value
  if clean = [] then value else insertAt value start clean

def replaceStore (start stop : ℕ) (clean : Units) : Field :=
  if field.editable then
    let value := field.replaced start stop clean
    { field with value := value }.placeCaret (min (start + clean.length) value.length)
  else field

def strip (raw : Units) : Units := raw.filter (· ∉ [13, 10, 0x2028, 0x2029])

def insertSecret (raw : Units) : Field :=
  if field.editable ∧ strip raw ≠ [] then
    field.replaceStore field.editRange.1 field.editRange.2 (strip raw)
  else field

def deleteSecret (dir : Direction) : Field :=
  if field.editable then
    if field.maskedAll ∨ field.editRange.1 ≠ field.editRange.2 then
      field.replaceStore field.editRange.1 field.editRange.2 []
    else
      match dir with
      | .back =>
        field.replaceStore (stepIndex field.value field.cursorPosition .back)
          field.cursorPosition []
      | .forward =>
        field.replaceStore field.cursorPosition
          (stepIndex field.value field.cursorPosition .forward) []
  else field

end Field

inductive Key
  | left
  | right
  | home
  | up
  | last
  | down
  deriving DecidableEq, Repr

namespace Field

variable (field : Field)

def moveWithoutSelection : Key → Field
  | .left => field.placeCaret (stepIndex field.value field.cursorPosition .back)
  | .right => field.placeCaret (stepIndex field.value field.cursorPosition .forward)
  | .home | .up => field.placeCaret 0
  | .last | .down => field.placeCaret field.value.length

end Field

/-- What reaches a masked field. A key that types and a finished paste both insert. -/
inductive Event
  | insert (raw : Units)
  | delete (dir : Direction)
  | move (key : Key)
  | click (position : ℕ)
  /-- A selection of the editor, which its own handler ends at once. -/
  | select (start stop : ℕ)
  | selectAll
  | setEnabled (enabled : Bool)
  | setReadOnly (readOnly : Bool)
  | blur

namespace Field

variable (field : Field)

def step : Event → Field
  | .insert raw => field.insertSecret raw
  | .delete dir => field.deleteSecret dir
  | .move key => if field.editable then field.moveWithoutSelection key else field
  | .click position => field.placeCaret (min position field.value.length)
  | .select start stop =>
    if start ≤ field.value.length ∧ stop ≤ field.value.length then
      { field with
        anchor := stop
        cursorPosition := stop
        maskedAll := field.maskedAll && stop = field.cursorPosition }
    else field
  | .selectAll => { field with maskedAll := field.editable && 0 < field.value.length }
  | .setEnabled enabled =>
    { field with enabled := enabled, maskedAll := field.maskedAll && enabled }
  | .setReadOnly readOnly =>
    { field with readOnly := readOnly, maskedAll := field.maskedAll && !readOnly }
  | .blur => { field with maskedAll := false }

end Field

/-! ### Indexes -/

theorem snapIndex_eq (text : Units) (index : ℕ) (dir : Direction) :
    snapIndex text index dir = if inside text index then dir.past index else index := by
  unfold snapIndex inside
  by_cases edge : index = 0 ∨ text.length ≤ index
  · rw [if_pos edge, if_neg]
    rcases edge with zero | beyond
    · simp [zero]
    · simp [lowAt, getElem?_eq_none beyond]
  · have positive : 0 < index := by omega
    rw [if_neg edge]
    simp [positive]

/-- A step goes over a unit, and over a second one where it would end inside a pair. -/
theorem stepIndex_eq (text : Units) (index : ℕ) :
    stepIndex text index .back = snapIndex text (index - 1) .back ∧
      (index < text.length →
        stepIndex text index .forward = snapIndex text (index + 1) .forward) := by
  have bounded : lowAt text (index + 1) = true → index + 1 < text.length := by
    intro low
    by_contra beyond
    simp [lowAt, getElem?_eq_none (Nat.not_lt.mp beyond)] at low
  simp only [snapIndex_eq, stepIndex, inside, Direction.past, Bool.and_eq_true, decide_eq_true_eq]
  grind

section Cuts

variable {chars : List Char} {index : ℕ}

theorem cut_snapIndex (within : index ≤ (units chars).length) (dir : Direction) :
    Cut chars (snapIndex (units chars) index dir) := by
  rw [snapIndex_eq]
  rcases cut_or_inside chars within with cut | ⟨isInside, before, after⟩
  · rw [cut.not_inside]
    exact cut
  · rw [if_pos isInside]
    cases dir with
    | back => exact before
    | forward => exact after

theorem snapIndex_back_le (text : Units) : snapIndex text index .back ≤ index := by
  rw [snapIndex_eq]
  split
  · exact Nat.sub_le index 1
  · exact Nat.le_refl index

theorem le_snapIndex_forward (text : Units) : index ≤ snapIndex text index .forward := by
  rw [snapIndex_eq]
  split
  · exact Nat.le_succ index
  · exact Nat.le_refl index

theorem cut_back (within : index ≤ (units chars).length) :
    Cut chars (stepIndex (units chars) index .back) ∧
      stepIndex (units chars) index .back ≤ index := by
  rw [(stepIndex_eq _ index).1]
  exact ⟨cut_snapIndex (Nat.le_trans (Nat.sub_le index 1) within) .back,
    Nat.le_trans (snapIndex_back_le _) (Nat.sub_le index 1)⟩

theorem cut_forward (within : index ≤ (units chars).length) :
    Cut chars (stepIndex (units chars) index .forward) ∧
      index ≤ stepIndex (units chars) index .forward := by
  by_cases below : index < (units chars).length
  · rw [(stepIndex_eq _ index).2 below]
    exact ⟨cut_snapIndex below .forward,
      Nat.le_trans (Nat.le_succ index) (le_snapIndex_forward _)⟩
  · rw [stepIndex, if_pos (Nat.not_lt.mp below)]
    exact ⟨cut_length chars, within⟩

end Cuts

/-! ### Edits -/

namespace Field

variable (field : Field)

/-- Whether the event edits the value. -/
def acts : Event → Bool
  | .insert raw => field.editable && strip raw ≠ []
  | .delete _ => field.editable
  | _ => false

/-- The span an edit replaces. -/
def span : Event → ℕ × ℕ
  | .delete dir =>
    if field.maskedAll ∨ field.editRange.1 ≠ field.editRange.2 then field.editRange
    else match dir with
      | .back => (stepIndex field.value field.cursorPosition .back, field.cursorPosition)
      | .forward => (field.cursorPosition, stepIndex field.value field.cursorPosition .forward)
  | _ => field.editRange

end Field

namespace Event

/-- What comes in the place of the span. -/
def clean : Event → Units
  | .insert raw => Field.strip raw
  | _ => []

def Typed : Event → Prop
  | .insert raw => WellFormed raw
  | _ => True

end Event

/-- An edit replaces the characters of its span by characters of what was typed, and leaves
those before and behind it; any other event leaves the value. -/
def WholeCharacters (event : Event) (before after : Field) : Prop :=
  if before.acts event then
    ∃ kept removed inserted rest, before.value = units (kept ++ removed ++ rest) ∧
      after.value = units (kept ++ inserted ++ rest) ∧ units inserted <+: event.clean ∧
      ((units kept).length, (units (kept ++ removed)).length) = before.span event
  else after.value = before.value

/-- The store's room for what replaces a span. -/
def room (value : Units) (range : ℕ × ℕ) : ℕ := maximumLength - (value.length - (range.2 - range.1))

/-- The event edits between the halves of a pair, or the store has room for half a pair only. -/
def Field.Splits (field : Field) (event : Event) : Prop :=
  field.acts event = true ∧ (inside field.value field.editRange.1 ∨
    inside event.clean (room field.value (field.span event)))

theorem strip_units (chars : List Char) : WellFormed (Field.strip (units chars)) := by
  induction chars with
  | nil => exact ⟨[], rfl⟩
  | cons char rest ih =>
    obtain ⟨typed, is⟩ := ih
    have below : Field.strip (units (char :: rest)) = Field.strip (ofChar char) ++ units typed :=
      is ▸ filter_append _ _
    rcases ofChar_cases char with ⟨unit, alone, _, _⟩ | ⟨high, low, pair, isHigh, isLow⟩
    · by_cases breaks : unit ∈ [13, 10, 0x2028, 0x2029]
      · have gone : Field.strip [unit] = [] := filter_cons_of_neg (by simp_all)
        exact ⟨typed, by rw [below, alone, gone, nil_append]⟩
      · have stays : Field.strip [unit] = [unit] := filter_cons_of_pos (by simpa using breaks)
        exact ⟨char :: typed, by rw [below, alone, stays, units_cons, alone]⟩
    · simp only [Utf16.isHigh, Utf16.isLow, Bool.and_eq_true, decide_eq_true_eq] at isHigh isLow
      refine ⟨char :: typed, ?_⟩
      rw [below, pair, units_cons, pair, Field.strip, filter_eq_self.mpr]
      simp
      omega

theorem replaced_eq (field : Field) {start stop : ℕ} (clean : Units) (ordered : start ≤ stop)
    (within : stop ≤ field.value.length) :
    field.replaced start stop clean =
      field.value.take start ++ clean.take (room field.value (start, stop)) ++
        field.value.drop stop := by
  have removed : (if start < stop then field.value.take start ++ field.value.drop stop
      else field.value) = field.value.take start ++ field.value.drop stop := by
    by_cases span : start < stop
    · rw [if_pos span]
    · rw [if_neg span, Nat.le_antisymm ordered (Nat.not_lt.mp span), take_append_drop]
  have size : (field.value.take start).length = start :=
    length_take_of_le (Nat.le_trans ordered within)
  have total : (field.value.take start ++ field.value.drop stop).length =
      field.value.length - (stop - start) := by
    rw [length_append, size, length_drop]
    omega
  unfold Field.replaced
  rw [removed]
  by_cases none : clean = []
  · simp [none]
  · rw [if_neg none, insertAt, if_neg (by omega), total, take_left' size,
      drop_left' size]
    rfl

section Edits

variable {field : Field} {chars : List Char}

/-- The field shows the characters, and its caret and selection stand on them. -/
structure Shows (field : Field) (chars : List Char) : Prop where
  value : field.value = units chars
  anchor : field.anchor ≤ (units chars).length
  caret : field.cursorPosition ≤ (units chars).length

/-- What replaces a span between two cuts, as far as it fits. -/
theorem replaced_between (shows : Shows field chars) {typed : List Char} {start stop : ℕ}
    (first : Cut chars start) (second : Cut chars stop) (ordered : start ≤ stop)
    (fits : inside (units typed) (room field.value (start, stop)) = false) :
    ∃ kept removed inserted rest, field.value = units (kept ++ removed ++ rest) ∧
      field.replaced start stop (units typed) = units (kept ++ inserted ++ rest) ∧
      units inserted <+: units typed ∧
      ((units kept).length, (units (kept ++ removed)).length) = (start, stop) := by
  obtain ⟨inserted, taken⟩ :
      ∃ inserted, (units typed).take (room field.value (start, stop)) = units inserted := by
    by_cases all : (units typed).length ≤ room field.value (start, stop)
    · exact ⟨typed, take_of_length_le all⟩
    · obtain ⟨inserted, left, rfl, is⟩ := cut_of_not_inside (Nat.le_of_not_le all) fits
      exact ⟨inserted, by rw [← is, units_append, take_left]⟩
  obtain ⟨kept, removed, rest, rfl, rfl, rfl⟩ := split_of_cuts first second ordered
  refine ⟨kept, removed, inserted, rest, shows.value, ?_, taken ▸ take_prefix _ _, rfl⟩
  rw [replaced_eq field _ ordered (shows.value ▸ second.le), taken, shows.value,
    units_append, drop_left, units_append, append_assoc (units kept), take_left]
  simp only [units_append]

variable {event : Event}

theorem step_of_acts (acts : field.acts event = true) : field.editable = true ∧
    field.step event =
      field.replaceStore (field.span event).1 (field.span event).2 event.clean := by
  cases event with
  | insert raw =>
    have open' : field.editable = true ∧ Field.strip raw ≠ [] := by simpa [Field.acts] using acts
    exact ⟨open'.1, if_pos open'⟩
  | delete dir =>
    refine ⟨acts, (if_pos acts).trans ?_⟩
    unfold Field.span
    split_ifs
    · rfl
    · cases dir <;> rfl
  | _ => cases acts

section

variable (shows : Shows field chars)

include shows

/-- A span is widened to whole characters; only a bare caret may stand inside a pair. -/
theorem cut_editRange (outside : inside field.value field.editRange.1 = false) :
    Cut chars field.editRange.1 ∧ Cut chars field.editRange.2 ∧
      field.editRange.1 ≤ field.editRange.2 := by
  have spans : ∀ {start stop}, start ≤ stop → stop ≤ (units chars).length →
      Cut chars (snapIndex field.value start .back) ∧
        Cut chars (snapIndex field.value stop .forward) ∧
          snapIndex field.value start .back ≤ snapIndex field.value stop .forward := by
    intro start stop ordered within
    have lower := @snapIndex_back_le start field.value
    have upper := @le_snapIndex_forward stop field.value
    rw [shows.value] at lower upper ⊢
    exact ⟨cut_snapIndex (Nat.le_trans ordered within) .back, cut_snapIndex within .forward,
      by omega⟩
  unfold Field.editRange at outside ⊢
  split_ifs at outside ⊢ with all bare
  · exact spans (Nat.zero_le _) (Nat.le_of_eq (congrArg List.length shows.value))
  · rw [shows.value] at outside
    have cut := cut_of_not_inside shows.caret outside
    exact ⟨cut, cut, Nat.le_refl _⟩
  · exact spans (Nat.le_trans (Nat.min_le_left _ _) (Nat.le_max_left _ _))
      (Nat.max_le.mpr ⟨shows.anchor, shows.caret⟩)

theorem cut_span (outside : inside field.value field.editRange.1 = false) :
    Cut chars (field.span event).1 ∧ Cut chars (field.span event).2 ∧
      (field.span event).1 ≤ (field.span event).2 := by
  have ⟨first, second, ordered⟩ := cut_editRange shows outside
  cases event with
  | delete dir =>
    unfold Field.span
    split_ifs with wide
    · exact ⟨first, second, ordered⟩
    · have caret : field.editRange.1 = field.cursorPosition := by
        obtain ⟨notAll, same⟩ := not_or.mp wide
        have ordered : field.selectionStart ≤ field.selectionEnd :=
          Nat.le_trans (Nat.min_le_left _ _) (Nat.le_max_left _ _)
        have lower := @snapIndex_back_le field.selectionStart field.value
        have upper := @le_snapIndex_forward field.selectionEnd field.value
        unfold Field.editRange at same ⊢
        rw [if_neg notAll] at same ⊢
        split_ifs at same ⊢
        · rfl
        · omega
      rw [caret] at first
      rw [shows.value]
      cases dir with
      | back => exact ⟨(cut_back shows.caret).1, first, (cut_back shows.caret).2⟩
      | forward => exact ⟨first, cut_forward shows.caret⟩
  | _ => exact ⟨first, second, ordered⟩

theorem shows_edit (typed : event.Typed) (acts : field.acts event = true)
    (whole : ¬field.Splits event) :
    WholeCharacters event field (field.step event) ∧ ∃ chars', Shows (field.step event) chars' := by
  obtain ⟨outside, fits⟩ := not_or.mp fun splits => whole ⟨acts, splits⟩
  rw [Bool.not_eq_true] at outside fits
  obtain ⟨clean, is⟩ : WellFormed event.clean := by
    cases event with
    | insert raw =>
      obtain ⟨rawChars, rfl⟩ := typed
      exact strip_units rawChars
    | _ => exact ⟨[], rfl⟩
  obtain ⟨first, second, ordered⟩ := cut_span shows outside
  rw [is] at fits
  obtain ⟨kept, removed, inserted, rest, before, after, front, spans⟩ :=
    replaced_between shows first second ordered fits
  obtain ⟨editable, same⟩ := step_of_acts acts
  rw [same, Field.replaceStore, if_pos editable, WholeCharacters, if_pos acts, is]
  refine ⟨⟨kept, removed, inserted, rest, before, after, front, spans⟩, _, after, ?_, ?_⟩ <;>
    rw [← after] <;> exact Nat.min_le_right _ _

theorem shows_placeCaret {position : ℕ}
    (within : position ≤ (units chars).length) : Shows (field.placeCaret position) chars :=
  ⟨shows.value, within, within⟩

theorem shows_move (key : Key) :
    Shows (field.moveWithoutSelection key) chars := by
  have value := shows.value
  cases key with
  | left => exact shows_placeCaret shows (value ▸ (cut_back shows.caret).1.le)
  | right => exact shows_placeCaret shows (value ▸ (cut_forward shows.caret).1.le)
  | home => exact shows_placeCaret shows (Nat.zero_le _)
  | up => exact shows_placeCaret shows (Nat.zero_le _)
  | last => exact shows_placeCaret shows (value ▸ Nat.le_refl _)
  | down => exact shows_placeCaret shows (value ▸ Nat.le_refl _)

/-- What does not edit leaves the characters, and the caret on them. -/
theorem shows_idle (idle : field.acts event = false) :
    Shows (field.step event) chars := by
  have value := congrArg List.length shows.value
  cases event with
  | insert raw =>
    rwa [Field.step, Field.insertSecret, if_neg (by simpa [Field.acts] using idle)]
  | delete dir =>
    have same : field.step (.delete dir) = field := if_neg (Bool.eq_false_iff.mp idle)
    rwa [same]
  | move key =>
    unfold Field.step
    dsimp only
    split
    · exact shows_move shows key
    · exact shows
  | click position => exact shows_placeCaret shows (value ▸ Nat.min_le_right _ _)
  | select start stop =>
    unfold Field.step
    dsimp only
    split
    · next within => exact ⟨shows.value, value ▸ within.2, value ▸ within.2⟩
    · exact shows
  | selectAll | setEnabled enabled | setReadOnly readOnly | blur => exact { shows with }

theorem shows_step (typed : event.Typed) (whole : ¬field.Splits event) :
    WholeCharacters event field (field.step event) ∧ ∃ chars', Shows (field.step event) chars' := by
  by_cases acts : field.acts event = true
  · exact shows_edit shows typed acts whole
  · have still := shows_idle shows (Bool.not_eq_true _ ▸ acts)
    rw [WholeCharacters, if_neg acts, shows.value]
    exact ⟨still.value, chars, still⟩

end

end Edits

/-! ### Runs -/

/-- Every sequence of events on a field, with the field before and after each. -/
def edits (start : Field) : System Field (Event × Field × Field) where
  init field := field = start
  step before entry after := after = before.step entry.1 ∧ entry.2 = (before, after)

/-- Only well-formed text is inserted, and no edit acts between the halves of a pair. -/
def KeepsPairs (before : Field) (entry : Event × Field × Field) (_ : Field) : Prop :=
  entry.1.Typed ∧ ¬before.Splits entry.1

theorem masked_edits_keep_characters {start field : Field} {chars : List Char}
    {history : List (Event × Field × Field)} (shows : Shows start chars)
    (run : Run ((edits start).restrict KeepsPairs) history field) :
    WellFormed field.value ∧ ∀ entry ∈ history, WholeCharacters entry.1 entry.2.1 entry.2.2 := by
  have kept : (∃ chars', Shows field chars') ∧
      ∀ entry ∈ history, WholeCharacters entry.1 entry.2.1 entry.2.2 := by
    refine run.invariant (fun history field => (∃ chars', Shows field chars') ∧
      ∀ entry ∈ history, WholeCharacters entry.1 entry.2.1 entry.2.2) ?_ ?_
    · intro state initial
      rw [show state = start from initial]
      exact ⟨⟨chars, shows⟩, by simp⟩
    · rintro history before entry after _ ⟨⟨now, stands⟩, earlier⟩ ⟨⟨rfl, fields⟩, typed, whole⟩
      obtain ⟨step, next⟩ := shows_step stands typed whole
      exact ⟨next, forall_mem_cons.mpr ⟨fields ▸ step, earlier⟩⟩
  obtain ⟨⟨chars', stands⟩, whole⟩ := kept
  exact ⟨⟨chars', stands.value⟩, whole⟩

/-- A field of one supplementary character, its caret at the end. -/
def emojiField : Field := ⟨[0xD83D, 0xDE00], 2, 2, false, true, false⟩

theorem shows_emojiField : Shows emojiField ['😀'] := ⟨by decide, by decide, by decide⟩

theorem masked_edits_keep_characters_emoji :
    WholeCharacters (.delete .back) emojiField ⟨[], 0, 0, false, true, false⟩ ∧
      emojiField.step (.delete .back) = ⟨[], 0, 0, false, true, false⟩ := by
  have whole : ¬emojiField.Splits (.delete .back) := by
    unfold Field.Splits
    decide
  have run : Run ((edits emojiField).restrict KeepsPairs)
      [(.delete .back, emojiField, ⟨[], 0, 0, false, true, false⟩)]
        ⟨[], 0, 0, false, true, false⟩ :=
    .next (.start rfl) ⟨⟨by decide, rfl⟩, trivial, whole⟩
  exact ⟨(masked_edits_keep_characters shows_emojiField run).2 _ mem_cons_self, by decide⟩

/-- A click between the two bullets of one character, then a letter. -/
theorem click_parts_pair : Shows emojiField ['😀'] ∧ WellFormed [0x61] ∧
    ((emojiField.step (.click 1)).step (.insert [0x61])).value = [0xD83D, 0x61, 0xDE00] ∧
    ¬WellFormed [0xD83D, 0x61, 0xDE00] := by
  refine ⟨shows_emojiField, ⟨['a'], by decide⟩, by decide, ?_⟩
  rintro ⟨chars, is⟩
  cases chars with
  | nil => cases is
  | cons char rest =>
    rw [units_cons] at is
    rcases ofChar_cases char with ⟨unit, alone, high, _⟩ | ⟨high, low, pair, _, isLow⟩
    · rw [alone] at is
      rw [← (List.cons.inj is).1] at high
      cases high
    · rw [pair] at is
      rw [← (List.cons.inj (List.cons.inj is).2).1] at isLow
      cases isLow

end QsBitwarden.Panel.MaskedField
