import Mathlib.Data.List.Basic

/-! Owns the text functions of the Rust standard library that the helpers call, on lists
of characters: white space, trimming, lines, searching and replacing. It does not own
what the texts mean. -/

namespace QsBitwarden.Lib

abbrev Text := List Char

theorem toNat_ofNat {code : ℕ} (small : code < 0xD800) : (Char.ofNat code).toNat = code := by
  have valid : code.isValidChar := .inl small
  rw [Char.ofNat, dif_pos valid]
  rfl

/-- The Unicode property `White_Space`. -/
def isWhiteSpace (char : Char) : Bool :=
  let code := char.toNat
  (9 ≤ code ∧ code ≤ 13) ∨ code = 0x20 ∨ code = 0x85 ∨ code = 0xA0 ∨ code = 0x1680 ∨
    (0x2000 ≤ code ∧ code ≤ 0x200A) ∨ code = 0x2028 ∨ code = 0x2029 ∨ code = 0x202F ∨
    code = 0x205F ∨ code = 0x3000

def dropEndWhile (drop : Char → Bool) (text : Text) : Text := (text.reverse.dropWhile drop).reverse

/-- `str::trim`. -/
def trim (text : Text) : Text := dropEndWhile isWhiteSpace (text.dropWhile isWhiteSpace)

/-- What follows the first occurrence of a pattern. -/
def afterFirst (pattern : Text) : Text → Option Text
  | [] => if pattern = [] then some [] else none
  | char :: rest =>
    if pattern.isPrefixOf (char :: rest) then some ((char :: rest).drop pattern.length)
    else afterFirst pattern rest

/-- `str::replace`: every occurrence from the left, none overlapping; `skip` characters of
the last one are still to pass. -/
def replaceFrom (pattern replacement : Text) : ℕ → Text → Text
  | _, [] => []
  | skip + 1, _ :: rest => replaceFrom pattern replacement skip rest
  | 0, char :: rest =>
    if pattern.isPrefixOf (char :: rest) then
      replacement ++ replaceFrom pattern replacement (pattern.length - 1) rest
    else char :: replaceFrom pattern replacement 0 rest

def replaceAll (pattern replacement text : Text) : Text := replaceFrom pattern replacement 0 text

/-- The lines of a text, the one being read given in reverse. -/
def linesFrom : Text → Text → List Text
  | [], [] => []
  | current, [] => [current.reverse]
  | current, '\n' :: rest =>
    (match current with
      | '\r' :: line => line.reverse
      | line => line.reverse) :: linesFrom [] rest
  | current, char :: rest => linesFrom (char :: current) rest

/-- `str::lines`: a final line break ends the last line and starts none. -/
def lines (text : Text) : List Text := linesFrom [] text

/-- The last characters of a text. -/
def lastChars (count : ℕ) (text : Text) : Text := (text.reverse.take count).reverse

def isAsciiAlphanumeric (char : Char) : Bool :=
  let code := char.toNat
  (48 ≤ code ∧ code ≤ 57) ∨ (65 ≤ code ∧ code ≤ 90) ∨ (97 ≤ code ∧ code ≤ 122)

def isAsciiDigit (char : Char) : Bool :=
  let code := char.toNat
  48 ≤ code ∧ code ≤ 57

/-- Up to the first of a character, and what follows it. -/
def upTo (mark : Char) (text : Text) : Text := text.takeWhile (· ≠ mark)

def past (mark : Char) (text : Text) : Text := (text.dropWhile (· ≠ mark)).drop 1

/-- A plus sign in front taken off. -/
def withoutPlus (text : Text) : Text := if text.head? = some '+' then text.tail else text

/-- A fact about each character of a concrete text, by evaluation. -/
theorem forall_mem_of_all {property : Char → Prop} [DecidablePred property] {text : Text}
    (all : (text.all fun char => property char) = true) : ∀ char ∈ text, property char := by
  intro char mem
  simpa using List.all_eq_true.mp all char mem

end QsBitwarden.Lib
