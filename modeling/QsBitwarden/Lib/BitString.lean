import Mathlib.Data.Nat.Bitwise

/-! Owns the bits of a number as a list, and how they move through a masked buffer. It does not
own how long the buffer keeps them. -/

namespace QsBitwarden.Lib

/-- The lowest bits of the number, the highest of them first. -/
def bitString : ℕ → ℕ → List Bool
  | 0, _ => []
  | count + 1, value => value.testBit count :: bitString count value

@[simp]
theorem length_bitString (count value : ℕ) : (bitString count value).length = count := by
  induction count with
  | zero => rfl
  | succ count ih => rw [bitString, List.length_cons, ih]

variable {first second : ℕ}

theorem bitString_congr {count : ℕ}
    (same : ∀ place < count, first.testBit place = second.testBit place) :
    bitString count first = bitString count second := by
  induction count with
  | zero => rfl
  | succ count ih =>
    rw [bitString, bitString, same count count.lt_succ_self,
      ih fun place below => same place (by omega)]

theorem bitString_add (upper lower value : ℕ) :
    bitString (upper + lower) value =
      bitString upper (value >>> lower) ++ bitString lower value := by
  induction upper with
  | zero => rw [Nat.zero_add, bitString, List.nil_append]
  | succ upper ih =>
    rw [Nat.succ_add, bitString, bitString, ih, Nat.testBit_shiftRight, Nat.add_comm lower,
      List.cons_append]

/-- A new value moved in from below leaves the bits before it, as long as both fit. -/
theorem bitString_push {kept width room buffer value : ℕ} (fits : kept + width ≤ room)
    (small : value < 2 ^ width) :
    bitString (kept + width) ((buffer <<< width ||| value) % 2 ^ room) =
      bitString kept buffer ++ bitString width value := by
  rw [bitString_add]
  congr 1
  · apply bitString_congr
    intro place below
    have high : value.testBit (width + place) = false :=
      Nat.testBit_eq_false_of_lt (small.trans_le (Nat.pow_le_pow_right (by decide) (by omega)))
    rw [Nat.testBit_shiftRight, Nat.testBit_mod_two_pow, Nat.testBit_or, Nat.testBit_shiftLeft,
      high, Nat.add_sub_cancel_left]
    simp [show width + place < room by omega]
  · apply bitString_congr
    intro place below
    rw [Nat.testBit_mod_two_pow, Nat.testBit_or, Nat.testBit_shiftLeft]
    simp [show place < room by omega, Nat.not_le.mpr below]

end QsBitwarden.Lib
