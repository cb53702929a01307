import QsBitwarden.Lib.Json
import QsBitwarden.Lib.Text

/-! Owns the text form of JSON: the compact writer, a reader of whole texts,
and that the reader gives back what was written. The texts of floats are parameters.
It does not own bytes or any particular document. -/

namespace QsBitwarden.Lib.Json

open List Option Prod

/-! ### Writing -/

def hexDigit (digit : ℕ) : Char := Nat.digitChar digit

/-- A character inside a string. -/
def escape (char : Char) : Text :=
  if char = '"' then ['\\', '"']
  else if char = '\\' then ['\\', '\\']
  else if char = '\x08' then ['\\', 'b']
  else if char = '\t' then ['\\', 't']
  else if char = '\n' then ['\\', 'n']
  else if char = '\x0c' then ['\\', 'f']
  else if char = '\r' then ['\\', 'r']
  else if char.toNat < 32 then
    ['\\', 'u', '0', '0', hexDigit (char.toNat / 16), hexDigit (char.toNat % 16)]
  else [char]

def writeString (text : String) : Text := '"' :: (text.toList.flatMap escape ++ ['"'])

def writeNat (value : ℕ) : Text := Nat.toDigits 10 value

def writeBool (value : Bool) : Text :=
  if value then ['t', 'r', 'u', 'e'] else ['f', 'a', 'l', 's', 'e']

/-- The items, and the bracket that closes them. -/
def writeItems (close : Char) : List Text → Text
  | [] => [close]
  | [item] => item ++ [close]
  | item :: next :: rest => item ++ ',' :: writeItems close (next :: rest)

def writeArray (items : List Text) : Text := '[' :: writeItems ']' items

def writeField (field : String × Text) : Text := writeString field.1 ++ ':' :: field.2

def writeObject (fields : List (String × Text)) : Text :=
  '{' :: writeItems '}' (fields.map writeField)

section Write

variable (printFloat : UInt64 → Text)

def writeNumber : JsonNumber → Text
  | .natural value => writeNat value
  | .negative value => '-' :: writeNat value.natAbs
  | .float bits => printFloat bits

mutual

def write : Json → Text
  | null => ['n', 'u', 'l', 'l']
  | bool value => writeBool value
  | number value => writeNumber printFloat value
  | string text => writeString text
  | array items => writeArray (writeEach items)
  | object fields => writeObject (writeFields fields)

def writeEach : List Json → List Text
  | [] => []
  | item :: items => write item :: writeEach items

def writeFields : Fields → List (String × Text)
  | [] => []
  | (key, value) :: fields => (key, write value) :: writeFields fields

end

end Write

mutual

/-- Every number is whole, not negative, and fits 64 bits. -/
def Whole : Json → Prop
  | number (.natural value) => value < 2 ^ 64
  | number _ => False
  | array items => WholeEach items
  | object fields => WholeFields fields
  | _ => True

def WholeEach : List Json → Prop
  | [] => True
  | item :: items => Whole item ∧ WholeEach items

def WholeFields : Fields → Prop
  | [] => True
  | (_, value) :: fields => Whole value ∧ WholeFields fields

end

/-! ### Reading strings -/

def isSpace (char : Char) : Bool := char = ' ' || char = '\n' || char = '\t' || char = '\r'

def skipSpace (text : Text) : Text := text.dropWhile isSpace

def hexValue (char : Char) : Option ℕ :=
  let code := char.toNat
  if 48 ≤ code ∧ code ≤ 57 then some (code - 48)
  else if 97 ≤ code ∧ code ≤ 102 then some (code - 87)
  else if 65 ≤ code ∧ code ≤ 70 then some (code - 55)
  else none

/-- The number four hexadecimal digits stand for. -/
def hexUnit (a b c d : Char) : Option ℕ := do
  let a ← hexValue a
  let b ← hexValue b
  let c ← hexValue c
  let d ← hexValue d
  some (((a * 16 + b) * 16 + c) * 16 + d)

def simpleEscape (char : Char) : Option Char :=
  if char = '"' then some '"'
  else if char = '\\' then some '\\'
  else if char = '/' then some '/'
  else if char = 'b' then some '\x08'
  else if char = 'f' then some '\x0c'
  else if char = 'n' then some '\n'
  else if char = 'r' then some '\r'
  else if char = 't' then some '\t'
  else none

def isHighSurrogate (unit : ℕ) : Bool := 0xD800 ≤ unit && unit ≤ 0xDBFF

def isLowSurrogate (unit : ℕ) : Bool := 0xDC00 ≤ unit && unit ≤ 0xDFFF

/-- A string after its opening quote: its characters, and what follows the closing one. -/
def readString : Text → Option (Text × Text)
  | [] => none
  | char :: rest =>
    if char = '"' then some ([], rest)
    else if char = '\\' then
      match rest with
      | [] => none
      | escaped :: rest =>
        if escaped = 'u' then
          match rest with
          | a :: b :: c :: d :: rest =>
            match hexUnit a b c d with
            | none => none
            | some unit =>
              if isLowSurrogate unit then none
              else if isHighSurrogate unit then
                match rest with
                | slash :: u :: a :: b :: c :: d :: rest =>
                  if slash = '\\' ∧ u = 'u' then
                    match hexUnit a b c d with
                    | none => none
                    | some low =>
                      if isLowSurrogate low then
                        (readString rest).map (map (List.cons (Char.ofNat
                          ((unit - 0xD800) * 1024 + (low - 0xDC00) + 0x10000))) id)
                      else none
                  else none
                | _ => none
              else (readString rest).map (map (List.cons (Char.ofNat unit)) id)
          | _ => none
        else
          match simpleEscape escaped with
          | none => none
          | some plain => (readString rest).map (map (List.cons plain) id)
    else if char.toNat < 32 then none
    else (readString rest).map (map (List.cons char) id)

/-! ### Reading numbers -/

/-- One digit or more. -/
def readDigits (text : Text) : Option (Text × Text) :=
  let digits := text.takeWhile isAsciiDigit
  if digits = [] then none else some (digits, text.dropWhile isAsciiDigit)

/-- A fraction, if there is one. -/
def readFraction : Text → Option (Text × Text)
  | '.' :: rest => (readDigits rest).map (map (List.cons '.') id)
  | rest => some ([], rest)

/-- An exponent, if there is one. -/
def readExponent (text : Text) : Option (Text × Text) :=
  match text with
  | [] => some ([], [])
  | char :: rest =>
    if char = 'e' ∨ char = 'E' then
      match rest with
      | '+' :: rest => (readDigits rest).map (map ([char, '+'] ++ ·) id)
      | '-' :: rest => (readDigits rest).map (map ([char, '-'] ++ ·) id)
      | rest => (readDigits rest).map (map (List.cons char) id)
    else some ([], char :: rest)

variable (toFloat : Text → UInt64)

/-- A whole number that fits its type is kept as one. -/
def numberOf (negative : Bool) (digits tail : Text) : JsonNumber :=
  let token := if negative then '-' :: (digits ++ tail) else digits ++ tail
  let value := Nat.ofDigitChars 10 digits 0
  if tail ≠ [] then .float (toFloat token)
  else if negative then
    if 0 < value ∧ value ≤ 2 ^ 63 then .negative (-value) else .float (toFloat token)
  else if value < 2 ^ 64 then .natural value
  else .float (toFloat token)

def readNumber (text : Text) : Option (JsonNumber × Text) := do
  let negative := text.head? = some '-'
  let (digits, rest) ← readDigits (if negative then text.tail else text)
  if 1 < digits.length ∧ digits.head? = some '0' then none
  else
    let (fraction, rest) ← readFraction rest
    let (exponent, rest) ← readExponent rest
    some (numberOf toFloat negative digits (fraction ++ exponent), rest)

/-! ### Reading values -/

mutual

/-- A value, and what follows it. -/
def readValue : ℕ → Text → Option (Json × Text)
  | 0, _ => none
  | fuel + 1, text =>
    match skipSpace text with
    | [] => none
    | char :: rest =>
      if char = '"' then
        (readString rest).map (map (fun text => .string (String.ofList text)) id)
      else if char = '[' then
        if (skipSpace rest).head? = some ']' then some (.array [], (skipSpace rest).tail)
        else (readItems fuel rest).map (map Json.array id)
      else if char = '{' then
        if (skipSpace rest).head? = some '}' then some (.object [], (skipSpace rest).tail)
        else (readFields fuel rest).map (map Json.object id)
      else if ['n', 'u', 'l', 'l'].isPrefixOf (char :: rest) then some (.null, rest.drop 3)
      else if ['t', 'r', 'u', 'e'].isPrefixOf (char :: rest) then some (.bool true, rest.drop 3)
      else if ['f', 'a', 'l', 's', 'e'].isPrefixOf (char :: rest) then
        some (.bool false, rest.drop 4)
      else (readNumber toFloat (char :: rest)).map (map Json.number id)

/-- The items of an array that has some, up to its bracket. -/
def readItems : ℕ → Text → Option (List Json × Text)
  | 0, _ => none
  | fuel + 1, text => do
    let (item, rest) ← readValue fuel text
    match skipSpace rest with
    | [] => none
    | char :: rest =>
      if char = ',' then do
        let (items, rest) ← readItems fuel rest
        some (item :: items, rest)
      else if char = ']' then some ([item], rest)
      else none

/-- The fields of an object that has some, up to its brace. -/
def readFields : ℕ → Text → Option (Fields × Text)
  | 0, _ => none
  | fuel + 1, text =>
    match skipSpace text with
    | [] => none
    | quote :: rest =>
      if quote ≠ '"' then none
      else do
        let (key, rest) ← readString rest
        match skipSpace rest with
        | [] => none
        | colon :: rest =>
          if colon ≠ ':' then none
          else do
            let (value, rest) ← readValue fuel rest
            match skipSpace rest with
            | [] => none
            | char :: rest =>
              if char = ',' then do
                let (fields, rest) ← readFields fuel rest
                some ((String.ofList key, value) :: fields, rest)
              else if char = '}' then some ([(String.ofList key, value)], rest)
              else none

end

/-- A whole text. Every call of the reader takes a character or is the first at its place, so
the fuel never runs out. -/
def read (text : Text) : Option Json := do
  let (value, rest) ← readValue toFloat (2 * text.length + 2) text
  if skipSpace rest = [] then some value else none

/-! ### Objects as maps -/

mutual

/-- The value with its objects kept as maps: in key order, and of equal keys the last. -/
def mapped : Json → Json
  | array items => array (mappedEach items)
  | object fields => object (mappedFields [] fields)
  | value => value

def mappedEach : List Json → List Json
  | [] => []
  | item :: items => mapped item :: mappedEach items

def mappedFields : Fields → Fields → Fields
  | seen, [] => seen
  | seen, (key, value) :: fields => mappedFields (seen.insert key (mapped value)) fields

end

mutual

theorem sorted_mapped : ∀ value : Json, (mapped value).Sorted
  | null => .null
  | bool value => .bool value
  | number value => .number value
  | string text => .string text
  | array items => .array (sorted_mappedEach items)
  | object fields => sorted_mappedFields [] fields (.object .nil nofun)

theorem sorted_mappedEach : ∀ items : List Json, ∀ item ∈ mappedEach items, item.Sorted
  | [] => nofun
  | item :: items => forall_mem_cons.mpr ⟨sorted_mapped item, sorted_mappedEach items⟩

theorem sorted_mappedFields : ∀ seen fields : Fields, (object seen).Sorted →
    (object (mappedFields seen fields)).Sorted
  | _, [], sorted => sorted
  | _, (_, value) :: fields, sorted =>
    sorted_mappedFields _ fields (sorted.insert (sorted_mapped value))

end

/-! ### Strings read back -/

variable {toFloat : Text → UInt64} {fuel : ℕ}

theorem readString_simple {escaped plain : Char} (rest : Text) (named : escaped ≠ 'u')
    (means : simpleEscape escaped = some plain) :
    readString ('\\' :: escaped :: rest) =
      (readString rest).map (map (List.cons plain) id) := by
  conv_lhs => unfold readString
  rw [if_neg (by decide), if_pos rfl]
  dsimp only
  rw [if_neg named, means]

theorem readString_unit {a b c d : Char} {unit : ℕ} (rest : Text)
    (means : hexUnit a b c d = some unit) (low : unit < 0xD800) :
    readString ('\\' :: 'u' :: a :: b :: c :: d :: rest) =
      (readString rest).map (map (List.cons (Char.ofNat unit)) id) := by
  have notLow : isLowSurrogate unit = false := by
    simp only [isLowSurrogate, Bool.and_eq_false_iff, decide_eq_false_iff_not]
    omega
  have notHigh : isHighSurrogate unit = false := by
    simp only [isHighSurrogate, Bool.and_eq_false_iff, decide_eq_false_iff_not]
    omega
  conv_lhs => unfold readString
  rw [if_neg (by decide), if_pos rfl]
  dsimp only
  rw [if_pos rfl, means]
  dsimp only
  rw [notLow, notHigh, if_neg Bool.false_ne_true, if_neg Bool.false_ne_true]

variable {char : Char}

theorem readString_plain (rest : Text) (quote : char ≠ '"') (slash : char ≠ '\\')
    (control : ¬ char.toNat < 32) :
    readString (char :: rest) = (readString rest).map (map (List.cons char) id) := by
  conv_lhs => unfold readString
  rw [if_neg quote, if_neg slash, if_neg control]

theorem hexValue_hexDigit : ∀ digit < 16, hexValue (hexDigit digit) = some digit := by
  decide

/-- The two digits of a control character. -/
theorem hexUnit_control {code : ℕ} (small : code < 32) :
    hexUnit '0' '0' (hexDigit (code / 16)) (hexDigit (code % 16)) = some code := by
  have zero : hexValue '0' = some 0 := rfl
  have high := hexValue_hexDigit (code / 16) (by omega)
  have low := hexValue_hexDigit (code % 16) (by omega)
  simp only [hexUnit, zero, high, low, bind_eq_bind, bind_some]
  congr 1
  omega

theorem readString_escape (char : Char) (rest : Text) :
    readString (escape char ++ rest) = (readString rest).map (map (List.cons char) id) := by
  unfold escape
  split_ifs with quote slash backspace tab newline feed carriage control
  · rw [quote]
    exact readString_simple rest (by decide) rfl
  · rw [slash]
    exact readString_simple rest (by decide) rfl
  · rw [backspace]
    exact readString_simple rest (by decide) rfl
  · rw [tab]
    exact readString_simple rest (by decide) rfl
  · rw [newline]
    exact readString_simple rest (by decide) rfl
  · rw [feed]
    exact readString_simple rest (by decide) rfl
  · rw [carriage]
    exact readString_simple rest (by decide) rfl
  · have read := readString_unit rest (hexUnit_control control) (by omega)
    rw [Char.ofNat_toNat] at read
    exact read
  · exact readString_plain rest quote slash control

theorem readString_quote (rest : Text) : readString ('"' :: rest) = some ([], rest) := by
  conv_lhs => unfold readString
  exact if_pos rfl

theorem readString_flatMap (text rest : Text) :
    readString (text.flatMap escape ++ '"' :: rest) = some (text, rest) := by
  induction text with
  | nil => exact readString_quote rest
  | cons char text ih =>
    rw [flatMap_cons, append_assoc, readString_escape, ih]
    rfl

theorem readString_write (text : String) (rest : Text) :
    readString ((writeString text).tail ++ rest) = some (text.toList, rest) := by
  unfold writeString
  rw [tail_cons, append_assoc]
  exact readString_flatMap text.toList rest

/-! ### Numbers read back -/

/-- What may follow a number. -/
def EndsNumber (rest : Text) : Prop :=
  ∀ char ∈ rest.head?, isAsciiDigit char = false ∧ char ≠ '.' ∧ char ≠ 'e' ∧ char ≠ 'E'

variable {rest : Text}

theorem readFraction_ends (ends : EndsNumber rest) :
    readFraction rest = some ([], rest) := by
  unfold readFraction
  split
  · next tail => exact absurd rfl (ends '.' rfl).2.1
  · rfl

theorem readExponent_ends (ends : EndsNumber rest) :
    readExponent rest = some ([], rest) := by
  unfold readExponent
  cases rest with
  | nil => rfl
  | cons char tail =>
    have lower := (ends char rfl).2.2
    dsimp only
    rw [if_neg (not_or.mpr lower)]

variable {value : ℕ}

theorem isAsciiDigit_of_mem_writeNat (mem : char ∈ writeNat value) :
    isAsciiDigit char = true := by
  have digit := Nat.isDigit_of_mem_toDigits (by decide) (by decide) mem
  simp only [Char.isDigit, Bool.and_eq_true, decide_eq_true_eq, ge_iff_le,
    UInt32.le_iff_toNat_le] at digit
  simp only [isAsciiDigit, decide_eq_true_eq]
  exact digit

theorem head_writeNat_of_pos (positive : 0 < value) : (writeNat value).head? ≠ some '0' := by
  induction value using Nat.strong_induction_on with
  | _ value ih =>
    by_cases small : value < 10
    · have heads : ∀ digit < 10, 0 < digit → [Nat.digitChar digit].head? ≠ some '0' := by decide
      rw [writeNat, Nat.toDigits_of_lt_base small]
      exact heads value small positive
    · rw [writeNat, Nat.toDigits_of_base_le (by decide) (by omega),
        head?_append_of_ne_nil _ Nat.toDigits_ne_nil]
      exact ih (value / 10) (by omega) (by omega)

/-- A number of two digits or more does not start with a zero. -/
theorem no_leading_zero (value : ℕ) :
    ¬ (1 < (writeNat value).length ∧ (writeNat value).head? = some '0') := by
  rintro ⟨long, zero⟩
  have large : ¬ value < 10 := by
    intro small
    rw [writeNat, Nat.toDigits_of_lt_base small] at long
    exact absurd long (lt_irrefl 1)
  exact head_writeNat_of_pos (by omega) zero

theorem readDigits_writeNat (value : ℕ) (ends : EndsNumber rest) :
    readDigits (writeNat value ++ rest) = some (writeNat value, rest) := by
  have all : ∀ char ∈ writeNat value, isAsciiDigit char = true :=
    fun _ mem => isAsciiDigit_of_mem_writeNat mem
  have stops : rest.takeWhile isAsciiDigit = [] ∧ rest.dropWhile isAsciiDigit = rest := by
    cases rest with
    | nil => exact ⟨rfl, rfl⟩
    | cons char tail =>
      have other := (ends char rfl).1
      rw [takeWhile_cons_of_neg (by rw [other]; decide),
        dropWhile_cons_of_neg (by rw [other]; decide)]
      exact ⟨rfl, rfl⟩
  unfold readDigits
  rw [takeWhile_append_of_pos all, dropWhile_append_of_pos all, stops.1, stops.2,
    append_nil]
  exact if_neg Nat.toDigits_ne_nil

theorem readNumber_writeNat {value : ℕ} (fits : value < 2 ^ 64) {rest : Text}
    (ends : EndsNumber rest) :
    readNumber toFloat (writeNat value ++ rest) = some (.natural value, rest) := by
  have unsigned : ¬ (writeNat value ++ rest).head? = some '-' := by
    intro signed
    rw [writeNat, head?_append_of_ne_nil _ Nat.toDigits_ne_nil] at signed
    have digit := isAsciiDigit_of_mem_writeNat (mem_of_mem_head? signed)
    exact absurd digit (by decide)
  unfold readNumber
  simp only [unsigned, decide_false, if_false, readDigits_writeNat value ends,
    bind_eq_bind, bind_some, if_neg (no_leading_zero value), readFraction_ends ends,
    readExponent_ends ends, append_nil]
  unfold numberOf
  rw [writeNat, Nat.ofDigitChars_ten_toDigits]
  simp only [ne_eq, not_true_eq_false, if_false, Bool.false_eq_true, if_pos fits]

/-! ### Values read back -/

/-- What follows a value inside a text. -/
def Follows (rest : Text) : Prop := ∀ char ∈ rest.head?, char = ',' ∨ char = ']' ∨ char = '}'

theorem Follows.endsNumber (follows : Follows rest) : EndsNumber rest := by
  intro char first
  rcases follows char first with rfl | rfl | rfl <;> decide

theorem Follows.skipSpace (follows : Follows rest) : skipSpace rest = rest := by
  cases rest with
  | nil => rfl
  | cons char tail =>
    refine dropWhile_cons_of_neg ?_
    rcases follows char rfl with rfl | rfl | rfl <;> decide

theorem follows_cons {char : Char} (closes : char = ',' ∨ char = ']' ∨ char = '}') (rest : Text) :
    Follows (char :: rest) := by
  intro other first
  cases first
  exact closes

variable (toFloat) in
/-- The text starts like a value and is read as this one, whatever follows. -/
structure Reads (text : Text) (value : Json) : Prop where
  starts : ∀ rest, ∃ char tail, text ++ rest = char :: tail ∧ isSpace char = false ∧
    char ≠ ']' ∧ char ≠ '}'
  reads : ∀ fuel rest, 2 * text.length ≤ fuel → Follows rest →
    readValue toFloat fuel (text ++ rest) = some (value, rest)

/-- A text that starts like a value is not empty, so the fuel is not either. -/
theorem Reads.of_succ {text : Text} {value : Json}
    (starts : ∀ rest, ∃ char tail, text ++ rest = char :: tail ∧ isSpace char = false ∧
      char ≠ ']' ∧ char ≠ '}')
    (reads : ∀ fuel rest, 2 * text.length ≤ fuel + 1 → Follows rest →
      readValue toFloat (fuel + 1) (text ++ rest) = some (value, rest)) :
    Reads toFloat text value where
  starts := starts
  reads fuel rest enough follows := by
    obtain ⟨char, tail, first, -⟩ := starts []
    rw [append_nil] at first
    cases fuel with
    | zero => simp [first] at enough
    | succ fuel => exact reads fuel rest enough follows

theorem skipSpace_cons (other : isSpace char = false) (rest : Text) :
    skipSpace (char :: rest) = char :: rest :=
  dropWhile_cons_of_neg (by rw [other]; decide)

theorem reads_string (text : String) : Reads toFloat (writeString text) (.string text) := by
  refine .of_succ (fun rest => ⟨'"', _, rfl, by decide, by decide, by decide⟩)
    fun fuel rest _ _ => ?_
  unfold readValue
  rw [show writeString text ++ rest = '"' :: ((writeString text).tail ++ rest) from rfl,
    skipSpace_cons (by decide)]
  dsimp only
  rw [if_pos rfl, readString_write]
  simp [String.ofList_toList]

theorem reads_nat (fits : value < 2 ^ 64) :
    Reads toFloat (writeNat value) (.number (.natural value)) := by
  obtain ⟨char, tail, digits⟩ : ∃ char tail, writeNat value = char :: tail :=
    exists_cons_of_ne_nil Nat.toDigits_ne_nil
  have digit : isAsciiDigit char = true := isAsciiDigit_of_mem_writeNat (digits ▸ mem_cons_self)
  have other : ∀ symbol, isAsciiDigit symbol = false → char ≠ symbol := by
    intro symbol isOther same
    rw [same, isOther] at digit
    cases digit
  have space : isSpace char = false := by
    simp only [isSpace, other ' ' (by decide), other '\n' (by decide), other '\t' (by decide),
      other '\r' (by decide), decide_false, Bool.or_self]
  refine .of_succ
    (fun rest => ⟨char, tail ++ rest, ?_, space, other _ (by decide), other _ (by decide)⟩) ?_
  · rw [digits, cons_append]
  · intro fuel rest _ follows
    have number := @readNumber_writeNat toFloat value fits rest follows.endsNumber
    rw [digits, cons_append] at number ⊢
    unfold readValue
    rw [skipSpace_cons space]
    dsimp only
    have noWord : ∀ (word : Char) (letters : Text), isAsciiDigit word = false →
        ¬ (word :: letters).isPrefixOf (char :: (tail ++ rest)) = true := by
      intro word letters isOther starts
      rw [isPrefixOf_cons_cons, Bool.and_eq_true, beq_iff_eq] at starts
      exact other word isOther starts.1.symm
    rw [if_neg (other _ (by decide)), if_neg (other _ (by decide)), if_neg (other _ (by decide)),
      if_neg (noWord _ _ (by decide)), if_neg (noWord _ _ (by decide)),
      if_neg (noWord _ _ (by decide)), number]
    rfl

theorem reads_bool (value : Bool) : Reads toFloat (writeBool value) (.bool value) := by
  cases value with
  | true =>
    exact .of_succ (fun rest => ⟨'t', _, rfl, by decide, by decide, by decide⟩) fun _ _ _ _ => rfl
  | false =>
    exact .of_succ (fun rest => ⟨'f', _, rfl, by decide, by decide, by decide⟩) fun _ _ _ _ => rfl

/-! ### Arrays and objects read back -/

theorem readItems_write {texts : List Text} {values : List Json} (nonempty : texts ≠ [])
    (each : List.Forall₂ (Reads toFloat) texts values) {rest : Text}
    (enough : 2 * (writeItems ']' texts).length ≤ fuel) :
    readItems toFloat fuel (writeItems ']' texts ++ rest) = some (values, rest) := by
  induction each generalizing fuel with
  | nil => exact absurd rfl nonempty
  | @cons text value texts values reads each ih =>
    cases each with
    | nil =>
      simp only [writeItems, length_append, length_singleton] at enough
      obtain ⟨less, rfl⟩ := Nat.exists_eq_add_one.mpr (show 0 < fuel by omega)
      have closes := follows_cons (.inr (.inl rfl) : ']' = ',' ∨ ']' = ']' ∨ ']' = '}') rest
      have item := reads.reads less _ (by omega) closes
      unfold readItems
      rw [writeItems, append_assoc, singleton_append, item]
      simp only [bind_eq_bind, bind_some, closes.skipSpace]
      rw [if_neg (by decide), if_pos trivial]
    | @cons next nextValue texts values nextReads each =>
      simp only [writeItems, length_append, length_cons] at enough
      obtain ⟨less, rfl⟩ := Nat.exists_eq_add_one.mpr (show 0 < fuel by omega)
      have comma := follows_cons (.inl rfl : ',' = ',' ∨ ',' = ']' ∨ ',' = '}')
        (writeItems ']' (next :: texts) ++ rest)
      have item := reads.reads less _ (by omega) comma
      have later := @ih less (cons_ne_nil _ _) (by omega)
      unfold readItems
      rw [writeItems, append_assoc, cons_append, item]
      simp only [bind_eq_bind, bind_some, comma.skipSpace]
      rw [if_pos trivial, later]
      rfl

theorem reads_array {texts : List Text} {values : List Json}
    (each : List.Forall₂ (Reads toFloat) texts values) :
    Reads toFloat (writeArray texts) (.array values) := by
  refine .of_succ (fun rest => ⟨'[', _, rfl, by decide, by decide, by decide⟩)
    fun fuel rest enough _ => ?_
  simp only [writeArray, length_cons] at enough
  unfold readValue
  rw [writeArray, cons_append, skipSpace_cons (by decide)]
  dsimp only
  rw [if_neg (by decide), if_pos rfl]
  cases each with
  | nil => rfl
  | @cons text value texts values reads each =>
    have nonempty : text :: texts ≠ [] := cons_ne_nil _ _
    obtain ⟨char, tail, first, space, bracket, -⟩ :
        ∃ char tail, writeItems ']' (text :: texts) ++ rest = char :: tail ∧
          isSpace char = false ∧ char ≠ ']' ∧ char ≠ '}' := by
      cases each with
      | nil =>
        rw [writeItems, append_assoc]
        exact reads.starts _
      | cons _ _ =>
        rw [writeItems, append_assoc]
        exact reads.starts _
    have isOpen : ¬ (skipSpace (writeItems ']' (text :: texts) ++ rest)).head? = some ']' := by
      rw [first, skipSpace_cons space]
      exact fun same => bracket (Option.some.inj same)
    rw [if_neg isOpen, readItems_write nonempty (.cons reads each) (by omega)]
    rfl

/-- The fields and the texts they were written as. -/
def ReadsField (toFloat : Text → UInt64) (written : String × Text) (field : String × Json) : Prop :=
  written.1 = field.1 ∧ Reads toFloat written.2 field.2

/-- One field is read, and what its end says of the others. -/
theorem readFields_writeField {key : String} {text : Text} {value : Json}
    (reads : Reads toFloat text value) (enough : 2 * text.length ≤ fuel)
    (follows : Follows (char :: rest)) :
    readFields toFloat (fuel + 1) (writeField (key, text) ++ char :: rest) =
      if char = ',' then (readFields toFloat fuel rest).map (map (List.cons (key, value)) id)
      else if char = '}' then some ([(key, value)], rest) else none := by
  have keyed : writeField (key, text) ++ char :: rest =
      '"' :: ((writeString key).tail ++ (':' :: (text ++ char :: rest))) := by
    rw [writeField, append_assoc]
    rfl
  conv_lhs => unfold readFields
  rw [keyed, skipSpace_cons (by decide)]
  dsimp only
  rw [if_neg (by decide), readString_write]
  simp only [bind_eq_bind, bind_some]
  rw [skipSpace_cons (by decide)]
  dsimp only
  rw [if_neg (by decide), reads.reads fuel _ enough follows]
  simp only [bind_some, follows.skipSpace, String.ofList_toList]
  cases readFields toFloat fuel rest <;> rfl

theorem readFields_write {written : List (String × Text)} {fields : Fields}
    (nonempty : written ≠ []) (each : List.Forall₂ (ReadsField toFloat) written fields)
    {rest : Text} (enough : 2 * (writeItems '}' (written.map writeField)).length ≤ fuel) :
    readFields toFloat fuel (writeItems '}' (written.map writeField) ++ rest) =
      some (fields, rest) := by
  induction each generalizing fuel with
  | nil => exact absurd rfl nonempty
  | @cons text field texts fields reads each ih =>
    obtain ⟨key, text⟩ := text
    obtain ⟨name, value⟩ := field
    obtain ⟨rfl, reads⟩ := reads
    change Reads toFloat text value at reads
    have size : (writeField (key, text)).length = (writeString key).length + (text.length + 1) := by
      rw [writeField, length_append, length_cons]
    cases each with
    | nil =>
      rw [map_cons, map_nil, writeItems] at enough ⊢
      rw [length_append, length_singleton, size] at enough
      obtain ⟨less, rfl⟩ := Nat.exists_eq_add_one.mpr (show 0 < fuel by omega)
      rw [append_assoc]
      exact readFields_writeField reads (by omega) (follows_cons (.inr (.inr rfl)) rest)
    | cons nextReads each =>
      rw [map_cons, map_cons, writeItems, ← map_cons] at enough ⊢
      rw [length_append, length_cons, size] at enough
      obtain ⟨less, rfl⟩ := Nat.exists_eq_add_one.mpr (show 0 < fuel by omega)
      have later := @ih less (cons_ne_nil _ _) (by omega)
      rw [append_assoc, cons_append,
        readFields_writeField reads (by omega) (follows_cons (.inl rfl) _), if_pos rfl, later]
      rfl

theorem reads_object {written : List (String × Text)} {fields : Fields}
    (each : List.Forall₂ (ReadsField toFloat) written fields) :
    Reads toFloat (writeObject written) (.object fields) := by
  refine .of_succ (fun rest => ⟨'{', _, rfl, by decide, by decide, by decide⟩)
    fun fuel rest enough _ => ?_
  simp only [writeObject, length_cons] at enough
  unfold readValue
  rw [writeObject, cons_append, skipSpace_cons (by decide)]
  dsimp only
  rw [if_neg (by decide), if_neg (by decide), if_pos rfl]
  cases each with
  | nil => rfl
  | @cons text field texts fields reads each =>
    have nonempty : text :: texts ≠ [] := cons_ne_nil _ _
    obtain ⟨tail, first⟩ : ∃ tail,
        writeItems '}' ((text :: texts).map writeField) ++ rest = '"' :: tail := by
      cases each with
      | nil => exact ⟨_, rfl⟩
      | cons _ _ => exact ⟨_, rfl⟩
    have isOpen : ¬ (skipSpace (writeItems '}' ((text :: texts).map writeField) ++ rest)).head? =
        some '}' := by
      rw [first, skipSpace_cons (by decide)]
      exact fun same => absurd (Option.some.inj same) (by decide)
    rw [if_neg isOpen, readFields_write nonempty (.cons reads each) (by omega)]
    rfl

theorem reads_null : Reads toFloat ['n', 'u', 'l', 'l'] .null :=
  .of_succ (fun rest => ⟨'n', _, rfl, by decide, by decide, by decide⟩) fun _ _ _ _ => rfl

mutual

theorem reads_write (printFloat : UInt64 → Text) :
    ∀ value, Whole value → Reads toFloat (write printFloat value) value
  | null, _ => reads_null
  | bool value, _ => reads_bool value
  | number (.natural _), fits => reads_nat fits
  | number (.negative _), fits => fits.elim
  | number (.float _), fits => fits.elim
  | string text, _ => reads_string text
  | array items, each => reads_array (reads_writeEach printFloat items each)
  | object fields, each => reads_object (reads_writeFields printFloat fields each)

theorem reads_writeEach (printFloat : UInt64 → Text) : ∀ items, WholeEach items →
    List.Forall₂ (Reads toFloat) (writeEach printFloat items) items
  | [], _ => .nil
  | item :: items, each =>
    .cons (reads_write printFloat item each.1) (reads_writeEach printFloat items each.2)

theorem reads_writeFields (printFloat : UInt64 → Text) : ∀ fields, WholeFields fields →
    List.Forall₂ (ReadsField toFloat) (writeFields printFloat fields) fields
  | [], _ => .nil
  | (_, value) :: fields, each =>
    .cons ⟨rfl, reads_write printFloat value each.1⟩
      (reads_writeFields printFloat fields each.2)

end

/-- A whole text reads back. -/
theorem Reads.read {text : Text} {value : Json} (reads : Reads toFloat text value) :
    read toFloat text = some value := by
  have whole := reads.reads (2 * text.length + 2) [] (by omega) (by simp [Follows])
  rw [append_nil] at whole
  unfold Json.read
  rw [whole]
  rfl

/-- What is written is read back as it was. -/
theorem read_write (printFloat : UInt64 → Text) {value : Json} (whole : Whole value) :
    read toFloat (write printFloat value) = some value :=
  (reads_write printFloat value whole).read

end QsBitwarden.Lib.Json
