import QsBitwarden.Lib.Json
import QsBitwarden.Lib.Text

/-! Owns JavaScript's view of JSON values, `undefined` being `none`: which values are true,
what `String` and `Number` make of them, and `String.prototype.trim`. How numbers and whole
objects print, and how texts read as numbers, are parameters. -/

namespace QsBitwarden.Lib

/-- White space as `String.prototype.trim` has it. -/
def isJsWhiteSpace (char : Char) : Bool :=
  let code := char.toNat
  (9 ≤ code ∧ code ≤ 13) ∨ code = 0x20 ∨ code = 0xA0 ∨ code = 0x1680 ∨
    (0x2000 ≤ code ∧ code ≤ 0x200A) ∨ code = 0x2028 ∨ code = 0x2029 ∨ code = 0x202F ∨
    code = 0x205F ∨ code = 0x3000 ∨ code = 0xFEFF

def jsTrim (text : Text) : Text := dropEndWhile isJsWhiteSpace (text.dropWhile isJsWhiteSpace)

/-- White space in UTF-16: none lies beyond the first plane. -/
def isSpaceUnit (unit : ℕ) : Bool := isJsWhiteSpace (Char.ofNat unit)

structure Js where
  printNumber : JsonNumber → String
  /-- Arrays and objects as texts. -/
  printWhole : Json → String
  parseNumber : String → Option JsonNumber
  toLowerCase : String → String
  /-- Whether a number with a fraction is between 0 and 3. -/
  upToThree : UInt64 → Bool

def trimText (text : String) : String := String.ofList (jsTrim text.toList)

def JsonNumber.isZero : JsonNumber → Bool
  | .natural value => value = 0
  | .negative value => value = 0
  | .float bits => bits &&& 0x7FFFFFFFFFFFFFFF = 0

/-- A whole number below 2 to the 53 as a double. -/
def doubleBits (value : ℕ) : ℕ :=
  if value = 0 then 0
  else (1023 + Nat.log2 value) * 2 ^ 52 +
    (value - 2 ^ Nat.log2 value) * 2 ^ (52 - Nat.log2 value)

/-- `number === value`, for a whole number below 2 to the 53. -/
def JsonNumber.equals (number : JsonNumber) (value : ℕ) : Bool :=
  match number with
  | .natural other => other = value
  | .negative other => other = value
  | .float bits => bits.toNat = doubleBits value ∨ value = 0 ∧ bits.toNat = 2 ^ 63

/-- The value of a whole number that is not negative, also of one written as a fraction. -/
def JsonNumber.whole : JsonNumber → Option ℕ
  | .natural value => some value
  | .negative _ => none
  | .float bits =>
    let exponent := bits.toNat / 2 ^ 52
    let mantissa := 2 ^ 52 + bits.toNat % 2 ^ 52
    let unit := 2 ^ (1075 - exponent)
    if exponent < 1023 ∨ 2046 < exponent then none
    else if mantissa % unit = 0 then some (mantissa / unit * 2 ^ (exponent - 1075))
    else none

namespace Json

def truthy : Option Json → Bool
  | none => false
  | some .null => false
  | some (.bool value) => value
  | some (.number value) => !value.isZero
  | some (.string text) => text ≠ ""
  | some (.array _) => true
  | some (.object _) => true

/-- A property; only objects have any that are read here. -/
def property (value : Option Json) (key : String) : Option Json :=
  (value.bind asObject).bind (Fields.get · key)

/-- `String(value)`. -/
def text (js : Js) : Option Json → String
  | none => "undefined"
  | some .null => "null"
  | some (.bool value) => if value then "true" else "false"
  | some (.number value) => js.printNumber value
  | some (.string text) => text
  | some value => js.printWhole value

/-- `String(value || "")`. -/
def textOrEmpty (js : Js) (value : Option Json) : String :=
  if truthy value then text js value else ""

/-- The text of a value, empty if there is none. -/
def shownText (js : Js) : Option Json → String
  | none => ""
  | some .null => ""
  | some value => text js (some value)

/-- `Number(value)`; `none` is not a number. -/
def toNumber (js : Js) : Option Json → Option JsonNumber
  | none => none
  | some .null => some (.natural 0)
  | some (.bool value) => some (.natural value.toNat)
  | some (.number value) => some value
  | some (.string text) => js.parseNumber text
  | some value => js.parseNumber (js.printWhole value)

/-- A number as it is written: not a number becomes null. -/
def ofNumber : Option JsonNumber → Json
  | some value => .number value
  | none => .null

/-- The elements of an array or of an object that has a length. -/
def elements : Option Json → List (Option Json)
  | some (.array items) => items.map some
  | some (.object fields) =>
    match Fields.get fields "length" with
    | some (.number length) =>
      (List.range (length.whole.getD 0)).map fun index => Fields.get fields (toString index)
    | _ => []
  | _ => []

/-- `value === number`, for a whole number. -/
def isNumber (value : Option Json) (number : ℕ) : Bool :=
  match value with
  | some (.number other) => other = .natural number
  | _ => false

/-- A text, or null if there is none. -/
def ofText : Option String → Json
  | some text => .string text
  | none => .null

def isWhole : Json → Bool
  | .array _ => true
  | .object _ => true
  | _ => false

end Json

end QsBitwarden.Lib
