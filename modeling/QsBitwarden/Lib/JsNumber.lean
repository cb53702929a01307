import Mathlib.Data.Int.Cast.Lemmas
import Mathlib.Tactic.Ring

/-! Owns JavaScript's arithmetic on whole numbers: the bitwise operators, which work on the
number modulo 2 to the 32, and the quotient of doubles under `Math.floor`. Sums and products
below 2 to the 53 are exact and stay plain. -/

namespace QsBitwarden.Lib.JsNumber

/-! ### Bitwise operators -/

/-- `ToInt32` and `ToUint32`, as bits. -/
def word (value : ℤ) : BitVec 32 := BitVec.ofInt 32 value

def bitAnd (x y : ℤ) : ℤ := (word x &&& word y).toInt

def bitOr (x y : ℤ) : ℤ := (word x ||| word y).toInt

def bitXor (x y : ℤ) : ℤ := (word x ^^^ word y).toInt

def bitNot (x : ℤ) : ℤ := (~~~word x).toInt

/-- `x << count`. -/
def shiftLeft (x : ℤ) (count : ℕ) : ℤ := (word x <<< count).toInt

/-- `x >>> count`. -/
def shiftRight (x : ℤ) (count : ℕ) : ℤ := (word x >>> count).toNat

@[simp]
theorem word_bitAnd (x y : ℤ) : word (bitAnd x y) = word x &&& word y := BitVec.ofInt_toInt

@[simp]
theorem word_bitOr (x y : ℤ) : word (bitOr x y) = word x ||| word y := BitVec.ofInt_toInt

@[simp]
theorem word_bitXor (x y : ℤ) : word (bitXor x y) = word x ^^^ word y := BitVec.ofInt_toInt

@[simp]
theorem word_bitNot (x : ℤ) : word (bitNot x) = ~~~word x := BitVec.ofInt_toInt

@[simp]
theorem word_shiftLeft (x : ℤ) (count : ℕ) : word (shiftLeft x count) = word x <<< count :=
  BitVec.ofInt_toInt

@[simp]
theorem word_shiftRight (x : ℤ) (count : ℕ) : word (shiftRight x count) = word x >>> count := by
  rw [word, shiftRight, BitVec.ofInt_natCast, BitVec.ofNat_toNat, BitVec.setWidth_eq]

@[simp]
theorem word_add (x y : ℤ) : word (x + y) = word x + word y := BitVec.ofInt_add x y

@[simp]
theorem word_natCast (value : ℕ) : word (value : ℤ) = BitVec.ofNat 32 value :=
  BitVec.ofInt_natCast 32 value

/-- Masked to its lowest bits, a number is the remainder. -/
theorem bitAnd_mask (x : ℤ) {count : ℕ} (small : count < 32) :
    bitAnd x (2 ^ count - 1 : ℕ) = ((word x).toNat % 2 ^ count : ℕ) := by
  have power : 2 ^ count < 2 ^ 32 := Nat.pow_lt_pow_right (by decide) small
  have half : 2 ^ count ≤ 2 ^ 31 := Nat.pow_le_pow_right (by decide) (by omega)
  have value : (word x &&& word (2 ^ count - 1 : ℕ)).toNat = (word x).toNat % 2 ^ count := by
    rw [word_natCast, BitVec.toNat_and, BitVec.toNat_ofNat, Nat.mod_eq_of_lt (by omega),
      Nat.and_two_pow_sub_one_eq_mod]
  have below : (word x).toNat % 2 ^ count < 2 ^ count := Nat.mod_lt _ (Nat.two_pow_pos count)
  rw [bitAnd, BitVec.toInt_eq_toNat_of_lt (by rw [value]; omega), value]

/-- Masked to a byte, a number is a byte. -/
theorem bitAnd_255 (x : ℤ) : bitAnd x 255 = ((word x).toNat % 256 : ℕ) := by
  have number : ((2 ^ 8 - 1 : ℕ) : ℤ) = 255 := rfl
  rw [← number, bitAnd_mask x (by decide)]
  rfl

/-! ### Quotients -/

/-- A fraction rounded to a whole number, halves to the even one. -/
def roundEven (numerator denominator : ℕ) : ℕ :=
  let quotient := numerator / denominator
  let rest := 2 * (numerator % denominator)
  if rest < denominator ∨ rest = denominator ∧ quotient % 2 = 0 then quotient else quotient + 1

/-- How many binary places a quotient has as a double: as many as make 53 digits. -/
def places (a b : ℕ) : ℕ :=
  let least := 52 + Nat.log2 b - Nat.log2 a
  if a * 2 ^ least / b < 2 ^ 52 then least + 1 else least

/-- `Math.floor(a / b)` of doubles, the quotient being rounded before. -/
def floorQuotient (a b : ℕ) : ℕ := roundEven (a * 2 ^ places a b) b / 2 ^ places a b

theorem div_le_roundEven (numerator denominator : ℕ) :
    numerator / denominator ≤ roundEven numerator denominator := by
  unfold roundEven
  dsimp only
  split_ifs <;> omega

/-- Rounding adds half a unit at most. -/
theorem two_mul_roundEven_le {numerator denominator : ℕ} :
    2 * (roundEven numerator denominator * denominator) ≤ 2 * numerator + denominator := by
  have whole := Nat.div_add_mod numerator denominator
  rw [Nat.mul_comm] at whole
  unfold roundEven
  dsimp only
  split_ifs with below
  · omega
  · rw [Nat.add_mul]
    omega

theorem log2_le_places {a b : ℕ} (small : a < 2 ^ 53) : Nat.log2 b ≤ places a b := by
  have digits : Nat.log2 a ≤ 52 := by
    by_cases zero : a = 0
    · rw [zero]
      decide
    · have := (Nat.log2_lt zero).mpr small
      omega
  unfold places
  dsimp only
  split_ifs <;> omega

/-- Up to 2 to the 53, the rounded quotient has the whole part of the exact one. -/
theorem floorQuotient_eq {a b : ℕ} (small : a < 2 ^ 53) (positive : 0 < b) :
    floorQuotient a b = a / b := by
  set unit := 2 ^ places a b with unit_eq
  have unit_positive : 0 < unit := Nat.two_pow_pos _
  -- one part in 2 * unit is less than one part in b
  have fine : b < 2 * unit := by
    calc b < 2 ^ (Nat.log2 b + 1) := Nat.lt_log2_self
      _ ≤ 2 ^ (places a b + 1) := Nat.pow_le_pow_right (by decide)
          (Nat.succ_le_succ (log2_le_places small))
      _ = 2 * unit := by rw [Nat.pow_succ, Nat.mul_comm]
  have lower : a / b * unit ≤ roundEven (a * unit) b := by
    apply Nat.le_trans _ (div_le_roundEven (a * unit) b)
    rw [Nat.le_div_iff_mul_le positive, Nat.mul_right_comm]
    exact Nat.mul_le_mul_right unit (Nat.div_mul_le_self a b)
  have upper : roundEven (a * unit) b < (a / b + 1) * unit := by
    have rounded := @two_mul_roundEven_le (a * unit) b
    have below : a + 1 ≤ (a / b + 1) * b := by
      have := Nat.lt_div_mul_add positive (a := a)
      rw [Nat.add_mul]
      omega
    have scaled := Nat.mul_le_mul_right unit below
    apply Nat.lt_of_mul_lt_mul_right (a := 2 * b)
    calc roundEven (a * unit) b * (2 * b) = 2 * (roundEven (a * unit) b * b) := by ring
      _ ≤ 2 * (a * unit) + b := rounded
      _ < 2 * (a * unit) + 2 * unit := by omega
      _ = 2 * ((a + 1) * unit) := by ring
      _ ≤ 2 * ((a / b + 1) * b * unit) := by omega
      _ = (a / b + 1) * unit * (2 * b) := by ring
  rw [floorQuotient, ← unit_eq]
  apply Nat.div_eq_of_lt_le
  · exact lower
  · exact upper

end QsBitwarden.Lib.JsNumber
