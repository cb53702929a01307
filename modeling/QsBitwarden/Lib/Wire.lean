import Mathlib.Data.List.Basic
import Mathlib.Order.MinMax

/-! Owns fixed-width unsigned arithmetic over natural numbers and the SSH wire
encoding of integers and length-prefixed strings. It does not own any message
built from them. -/

namespace QsBitwarden.Lib

open List

abbrev Bytes := List UInt8

/-- The byte that ends a line. -/
def newline : UInt8 := 10

/-! ### 64-bit unsigned integers -/

def u64Max : ℕ := 18446744073709551615

/-- `u64::saturating_add`. -/
def satAdd (left right : ℕ) : ℕ := min (left + right) u64Max

/-- `u64::saturating_mul`. -/
def satMul (left right : ℕ) : ℕ := min (left * right) u64Max

/-- `u64::wrapping_add`. -/
def wrappingAdd (left right : ℕ) : ℕ := (left + right) % (u64Max + 1)

/-- `u64::checked_add`. -/
def checkedAdd (left right : ℕ) : Option ℕ :=
  if left + right ≤ u64Max then some (left + right) else none

theorem checkedAdd_eq_some {left right sum : ℕ} (added : checkedAdd left right = some sum) :
    sum = left + right := by
  unfold checkedAdd at added
  split at added
  · exact (Option.some.inj added).symm
  · cases added

/-! ### SSH wire encoding (RFC 4251, section 5) -/

def putU32 (value : ℕ) : Bytes :=
  [UInt8.ofNat (value / 16777216), UInt8.ofNat (value / 65536), UInt8.ofNat (value / 256),
    UInt8.ofNat value]

def putString (bytes : Bytes) : Bytes := putU32 bytes.length ++ bytes

def readU8 : Bytes → Option (UInt8 × Bytes)
  | byte :: rest => some (byte, rest)
  | [] => none

def readU32 : Bytes → Option (ℕ × Bytes)
  | a :: b :: c :: d :: rest =>
    some (a.toNat * 16777216 + b.toNat * 65536 + c.toNat * 256 + d.toNat, rest)
  | _ => none

/-- One length-prefixed string and what follows it. -/
def readString (bytes : Bytes) : Option (Bytes × Bytes) :=
  match readU32 bytes with
  | some (length, rest) =>
    if length ≤ rest.length then some (rest.take length, rest.drop length) else none
  | none => none

@[simp] theorem putU32_length (value : ℕ) : (putU32 value).length = 4 := rfl

theorem putString_length (bytes : Bytes) : (putString bytes).length = bytes.length + 4 := by
  rw [putString, length_append, putU32_length, Nat.add_comm]

theorem readU8_eq_some_iff {bytes rest : Bytes} {byte : UInt8} :
    readU8 bytes = some (byte, rest) ↔ bytes = byte :: rest := by
  cases bytes with
  | nil => simp [readU8]
  | cons first others => simp [readU8]

theorem putU32_of_bytes (a b c d : UInt8) :
    putU32 (a.toNat * 16777216 + b.toNat * 65536 + c.toNat * 256 + d.toNat) = [a, b, c, d] := by
  have first := a.toNat_lt
  have second := b.toNat_lt
  have third := c.toNat_lt
  have fourth := d.toNat_lt
  have byte {value : ℕ} {byte : UInt8} (same : value % 256 = byte.toNat) :
      UInt8.ofNat value = byte := by
    apply UInt8.toNat_inj.mp
    rw [UInt8.toNat_ofNat', ← same]
  unfold putU32
  congr
  · exact byte (by omega)
  · exact byte (by omega)
  · exact byte (by omega)
  · exact byte (by omega)

/-- A number is read where its four bytes stand. -/
theorem readU32_eq_some_iff {bytes rest : Bytes} {value : ℕ} :
    readU32 bytes = some (value, rest) ↔ value < 4294967296 ∧ bytes = putU32 value ++ rest := by
  constructor
  · intro read
    match bytes with
    | a :: b :: c :: d :: others =>
      rw [readU32, Option.some.injEq, Prod.mk.injEq] at read
      have first := a.toNat_lt
      have second := b.toNat_lt
      have third := c.toNat_lt
      have fourth := d.toNat_lt
      rw [← read.1, ← read.2, putU32_of_bytes]
      exact ⟨by omega, rfl⟩
    | [] => cases read
    | [_] => cases read
    | [_, _] => cases read
    | [_, _, _] => cases read
  · rintro ⟨small, rfl⟩
    rw [putU32, cons_append, cons_append, cons_append, cons_append,
      nil_append, readU32, Option.some.injEq, Prod.mk.injEq]
    refine ⟨?_, rfl⟩
    rw [UInt8.toNat_ofNat', UInt8.toNat_ofNat', UInt8.toNat_ofNat', UInt8.toNat_ofNat']
    omega

/-- A string is read where its length and its bytes stand. -/
theorem readString_eq_some_iff {bytes text rest : Bytes} :
    readString bytes = some (text, rest) ↔
      text.length < 4294967296 ∧ bytes = putString text ++ rest := by
  unfold readString putString
  constructor
  · intro read
    cases header : readU32 bytes with
    | none =>
      rw [header] at read
      cases read
    | some found =>
      obtain ⟨length, others⟩ := found
      rw [header] at read
      dsimp only at read
      split_ifs at read with fits
      obtain ⟨small, rfl⟩ := readU32_eq_some_iff.mp header
      rw [Option.some.injEq, Prod.mk.injEq] at read
      obtain ⟨rfl, rfl⟩ := read
      rw [length_take_of_le fits, append_assoc, take_append_drop]
      exact ⟨small, rfl⟩
  · rintro ⟨small, rfl⟩
    rw [append_assoc, readU32_eq_some_iff.mpr ⟨small, rfl⟩]
    dsimp only
    rw [if_pos (by rw [length_append]; omega), take_left, drop_left]

theorem readString_putString {text : Bytes} (small : text.length < 4294967296) (rest : Bytes) :
    readString (putString text ++ rest) = some (text, rest) :=
  readString_eq_some_iff.mpr ⟨small, rfl⟩

/-- A string and what follows it can be told apart. -/
theorem putString_append_inj {left right leftRest rightRest : Bytes}
    (leftSmall : left.length < 4294967296) (rightSmall : right.length < 4294967296)
    (same : putString left ++ leftRest = putString right ++ rightRest) :
    left = right ∧ leftRest = rightRest := by
  have readLeft := readString_putString leftSmall leftRest
  have readRight := readString_putString rightSmall rightRest
  rw [same, readRight, Option.some.injEq, Prod.mk.injEq] at readLeft
  exact ⟨readLeft.1.symm, readLeft.2.symm⟩

theorem putU32_inj {left right : ℕ} (leftSmall : left < 4294967296)
    (rightSmall : right < 4294967296)
    (same : putU32 left = putU32 right) : left = right := by
  have readLeft : readU32 (putU32 left) = some (left, []) :=
    readU32_eq_some_iff.mpr ⟨leftSmall, (append_nil _).symm⟩
  have readRight : readU32 (putU32 right) = some (right, []) :=
    readU32_eq_some_iff.mpr ⟨rightSmall, (append_nil _).symm⟩
  rw [same, readRight, Option.some.injEq, Prod.mk.injEq] at readLeft
  exact readLeft.1.symm

/-! ### Reading in sequence -/

section Sequence

variable {Result : Type} {bytes : Bytes} {result : Result}

theorem readU8_bind_iff {next : UInt8 × Bytes → Option Result} :
    readU8 bytes >>= next = some result ↔
      ∃ byte rest, bytes = byte :: rest ∧ next (byte, rest) = some result := by
  simp [Option.bind_eq_some_iff, readU8_eq_some_iff]

theorem readString_bind_iff {next : Bytes × Bytes → Option Result} :
    readString bytes >>= next = some result ↔
      ∃ text rest, text.length < 4294967296 ∧ bytes = putString text ++ rest ∧
        next (text, rest) = some result := by
  simp [Option.bind_eq_some_iff, readString_eq_some_iff, and_assoc]

theorem guard_bind_iff {holds : Prop} [Decidable holds] {next : Unit → Option Result} :
    guard holds >>= next = some result ↔ holds ∧ next () = some result := by
  by_cases met : holds <;> simp [guard, met]

end Sequence

/-! ### The bytes of a text -/

theorem toList_loop (bytes : ByteArray) (index : ℕ) (read : List UInt8) :
    ByteArray.toList.loop bytes index read = read.reverse ++ bytes.data.toList.drop index := by
  fun_induction ByteArray.toList.loop bytes index read with
  | case1 index read inside ih =>
    have here : bytes.data.toList.drop index =
        bytes.get! index :: bytes.data.toList.drop (index + 1) := by
      have bound : index < bytes.data.toList.length := by
        rw [Array.length_toList]
        exact inside
      rw [drop_eq_getElem_cons bound]
      congr 1
      rw [Array.getElem_toList]
      exact (getElem!_pos bytes.data index inside).symm
    rw [ih, here, reverse_cons, append_assoc, singleton_append]
  | case2 index read outside =>
    rw [drop_eq_nil_of_le, append_nil]
    rw [Array.length_toList]
    exact Nat.le_of_not_lt outside

theorem toUTF8_toList (text : String) : text.toUTF8.toList = text.toByteArray.data.toList := by
  unfold ByteArray.toList
  rw [toList_loop]
  rfl

theorem fromUTF8_toUTF8_toList (text : String) :
    String.fromUTF8? ⟨text.toUTF8.toList.toArray⟩ = some text := by
  rw [toUTF8_toList]
  exact dif_pos text.isValidUTF8

theorem fromUTF8_eq_some_iff {bytes : ByteArray} {text : String} :
    String.fromUTF8? bytes = some text ↔ text.toUTF8 = bytes := by
  unfold String.fromUTF8?
  constructor
  · intro read
    split_ifs at read with valid
    exact congrArg String.toUTF8 (Option.some.inj read).symm
  · rintro rfl
    exact dif_pos text.isValidUTF8

theorem toUTF8_toList_length (text : String) :
    text.toUTF8.toList.length = text.utf8ByteSize := by
  rw [toUTF8_toList]
  rfl

end QsBitwarden.Lib
