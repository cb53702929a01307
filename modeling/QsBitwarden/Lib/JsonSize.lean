import Mathlib
import QsBitwarden.Lib.JsonText

/-! Owns how many bytes a JSON text takes: exact sizes of objects and arrays from those of
their parts, and the bounds on strings and numbers. It does not own the text form. -/

namespace QsBitwarden.Lib.Json

open List

/-- The bytes of a text as UTF-8. -/
def size (text : Text) : ℕ := (text.map Char.utf8Size).sum

@[simp] theorem size_nil : size [] = 0 := rfl

@[simp] theorem size_cons (char : Char) (text : Text) :
    size (char :: text) = char.utf8Size + size text := rfl

@[simp] theorem size_append (text more : Text) : size (text ++ more) = size text + size more := by
  unfold size
  rw [map_append, sum_append]

theorem size_eq_utf8Len (text : Text) : size text = String.utf8Len text := by
  induction text with
  | nil => rfl
  | cons char text ih => rw [size_cons, ih, String.utf8Len, Nat.add_comm]

theorem utf8Size_of_ascii {char : Char} (ascii : char.toNat < 128) : char.utf8Size = 1 := by
  unfold Char.utf8Size
  exact if_pos (by
    rw [UInt32.le_iff_toNat_le]
    exact Nat.le_of_lt_succ ascii)

/-- ASCII takes a byte for a character. -/
theorem size_of_ascii {text : Text} (ascii : ∀ char ∈ text, char.toNat < 128) :
    size text = text.length := by
  induction text with
  | nil => rfl
  | cons char text ih =>
    rw [size_cons, utf8Size_of_ascii (ascii char mem_cons_self), length_cons,
      ih fun char mem => ascii char (mem_cons_of_mem _ mem)]
    omega

theorem size_writeItems {close : Char} (one : close.utf8Size = 1) {items : List Text}
    (nonempty : items ≠ []) :
    size (writeItems close items) = (items.map fun item => size item + 1).sum := by
  have comma : ','.utf8Size = 1 := by decide
  induction items with
  | nil => exact absurd rfl nonempty
  | cons item rest ih =>
    cases rest with
    | nil => simp [writeItems, one]
    | cons next rest =>
      have longer := ih (cons_ne_nil _ _)
      rw [map_cons, sum_cons, ← longer, writeItems, size_append, size_cons, comma]
      omega

/-- The bytes of a string and its quotes. -/
def quotedSize (text : String) : ℕ := size (writeString text)

variable {printFloat : UInt64 → Text}

theorem writeFields_eq_map (fields : Fields) :
    writeFields printFloat fields =
      fields.map fun field => (field.1, write printFloat field.2) := by
  induction fields with
  | nil => rfl
  | cons field rest ih =>
    rw [writeFields, ih]
    rfl

theorem writeEach_eq_map (items : List Json) :
    writeEach printFloat items = items.map (write printFloat) := by
  induction items with
  | nil => rfl
  | cons item rest ih =>
    rw [writeEach, ih]
    rfl

theorem size_object {fields : Fields} (nonempty : fields ≠ []) :
    size (write printFloat (.object fields)) =
      1 + (fields.map fun field =>
        quotedSize field.1 + size (write printFloat field.2) + 2).sum := by
  have brace : '{'.utf8Size = 1 := by decide
  have colon : ':'.utf8Size = 1 := by decide
  have some : (writeFields printFloat fields).map writeField ≠ [] := by
    rw [writeFields_eq_map]
    simpa using nonempty
  rw [write, writeObject, size_cons, brace, size_writeItems (by decide) some, writeFields_eq_map]
  simp only [List.map_map]
  congr 2
  refine map_congr_left fun field _ => ?_
  simp only [Function.comp_apply, writeField, quotedSize, size_append, size_cons, colon]
  omega

theorem size_array {items : List Json} (nonempty : items ≠ []) :
    size (write printFloat (.array items)) =
      1 + (items.map fun item => size (write printFloat item) + 1).sum := by
  have bracket : '['.utf8Size = 1 := by decide
  have some : writeEach printFloat items ≠ [] := by
    rw [writeEach_eq_map]
    simpa using nonempty
  rw [write, writeArray, size_cons, bracket, size_writeItems (by decide) some,
    writeEach_eq_map, List.map_map]
  rfl

theorem size_writeNat_le {value digits : ℕ} (positive : 0 < digits) (small : value < 10 ^ digits) :
    size (writeNat value) ≤ digits := by
  have ascii : ∀ char ∈ writeNat value, char.toNat < 128 := by
    intro char mem
    have digit := isAsciiDigit_of_mem_writeNat mem
    simp only [isAsciiDigit, decide_eq_true_eq] at digit
    omega
  rw [size_of_ascii ascii]
  exact (Nat.length_toDigits_le_iff (by decide) positive).mpr small

theorem escape_of_plain {char : Char} (printable : 32 ≤ char.toNat) (quote : char ≠ '"')
    (slash : char ≠ '\\') : escape char = [char] := by
  have other : ∀ control : Char, control.toNat < 32 → char ≠ control := by
    intro control low same
    rw [same] at printable
    omega
  unfold escape
  rw [if_neg quote, if_neg slash, if_neg (other _ (by decide)), if_neg (other _ (by decide)),
    if_neg (other _ (by decide)), if_neg (other _ (by decide)), if_neg (other _ (by decide)),
    if_neg (not_lt.mpr printable)]

/-- A text that needs no escapes takes its own bytes and the quotes. -/
theorem quotedSize_of_plain {text : String}
    (plain : ∀ char ∈ text.toList, 32 ≤ char.toNat ∧ char.toNat < 128 ∧ char ≠ '"' ∧ char ≠ '\\') :
    quotedSize text = text.length + 2 := by
  have same : ∀ letters : Text, (∀ char ∈ letters, char ∈ text.toList) →
      letters.flatMap escape = letters := by
    intro letters among
    induction letters with
    | nil => rfl
    | cons char letters ih =>
      obtain ⟨printable, -, quote, slash⟩ := plain char (among char mem_cons_self)
      rw [flatMap_cons, escape_of_plain printable quote slash,
        ih fun other mem => among other (mem_cons_of_mem _ mem)]
      rfl
  have quote : '"'.utf8Size = 1 := by decide
  rw [quotedSize, writeString, size_cons, size_append,
    same text.toList fun _ mem => mem, size_cons, size_nil, quote,
    size_of_ascii fun char mem => (plain char mem).2.1, String.length_toList]
  omega

/-- Escapes only add to a text. -/
theorem size_le_quotedSize (text : String) : size text.toList + 2 ≤ quotedSize text := by
  have escaped : ∀ char, char.utf8Size ≤ size (escape char) := by
    intro char
    unfold escape
    split_ifs with quote slash backspace tab newline feed carriage control
    · rw [quote]
      decide
    · rw [slash]
      decide
    · rw [backspace]
      decide
    · rw [tab]
      decide
    · rw [newline]
      decide
    · rw [feed]
      decide
    · rw [carriage]
      decide
    · rw [utf8Size_of_ascii (by omega), size_cons]
      have first : '\\'.utf8Size = 1 := by decide
      omega
    · exact Nat.le_add_right _ _
  have whole : ∀ letters : Text, size letters ≤ size (letters.flatMap escape) := by
    intro letters
    induction letters with
    | nil => exact le_rfl
    | cons char letters ih =>
      rw [List.flatMap_cons, size_cons, size_append]
      exact Nat.add_le_add (escaped char) ih
  have quote : '"'.utf8Size = 1 := by decide
  rw [quotedSize, writeString, size_cons, size_append, size_cons, size_nil, quote]
  have letters := whole text.toList
  omega

end QsBitwarden.Lib.Json
