import Mathlib.Algebra.GroupWithZero.Nat
import Mathlib.Data.List.Forall2
import QsBitwarden.Lib.Text

/-! Owns UTF-16: the code units of a sequence of characters and the places where one character
ends and the next begins. It does not own the program's texts. -/

namespace QsBitwarden.Lib.Utf16

open List

abbrev Units := List ℕ

def isHigh (unit : ℕ) : Bool := 0xD800 ≤ unit && unit ≤ 0xDBFF

def isLow (unit : ℕ) : Bool := 0xDC00 ≤ unit && unit ≤ 0xDFFF

def ofChar (char : Char) : Units :=
  if char.toNat < 0x10000 then [char.toNat]
  else [0xD800 + (char.toNat - 0x10000) / 0x400, 0xDC00 + (char.toNat - 0x10000) % 0x400]

def units (chars : List Char) : Units := chars.flatMap ofChar

def WellFormed (text : Units) : Prop := ∃ chars, text = units chars

/-- A comparison of `charCodeAt` is false beyond the text. -/
def highAt (text : Units) (index : ℕ) : Bool := (text[index]?).any isHigh

def lowAt (text : Units) (index : ℕ) : Bool := (text[index]?).any isLow

/-- The index stands between the halves of a pair. -/
def inside (text : Units) (index : ℕ) : Bool :=
  0 < index && lowAt text index && highAt text (index - 1)

/-- One unit that is no surrogate, or a pair. -/
theorem ofChar_cases (char : Char) :
    (∃ unit, ofChar char = [unit] ∧ isHigh unit = false ∧ isLow unit = false) ∨
      ∃ high low, ofChar char = [high, low] ∧ isHigh high = true ∧ isLow low = true := by
  have valid : char.toNat < 0xD800 ∨ 0xDFFF < char.toNat ∧ char.toNat < 0x110000 := char.valid
  by_cases small : char.toNat < 0x10000
  · refine .inl ⟨char.toNat, if_pos small, ?_⟩
    simp only [isHigh, isLow, Bool.and_eq_false_iff, decide_eq_false_iff_not]
    omega
  · refine .inr ⟨_, _, if_neg small, ?_⟩
    simp only [isHigh, isLow, Bool.and_eq_true, decide_eq_true_eq]
    omega

theorem units_append (front back : List Char) : units (front ++ back) = units front ++ units back :=
  flatMap_append

theorem units_cons (char : Char) (rest : List Char) :
    units (char :: rest) = ofChar char ++ units rest := rfl

theorem lowAt_zero (chars : List Char) : lowAt (units chars) 0 = false := by
  cases chars with
  | nil => rfl
  | cons char rest =>
    rcases ofChar_cases char with ⟨unit, is, _, low⟩ | ⟨high, low, is, isHigh, _⟩
    · simpa [units_cons, is, lowAt] using low
    · simp only [Utf16.isHigh, Bool.and_eq_true, decide_eq_true_eq] at isHigh
      rw [units_cons, is]
      change isLow high = false
      simp only [isLow, Bool.and_eq_false_iff, decide_eq_false_iff_not]
      omega

/-! ### Cuts -/

/-- The index stands between two characters, or at an end. -/
def Cut (chars : List Char) (index : ℕ) : Prop :=
  ∃ front back, chars = front ++ back ∧ (units front).length = index

section Cuts

variable {chars : List Char} {index : ℕ}

theorem Cut.cons (cut : Cut chars index) (char : Char) :
    Cut (char :: chars) ((ofChar char).length + index) := by
  obtain ⟨front, back, rfl, rfl⟩ := cut
  exact ⟨char :: front, back, rfl, length_append⟩

theorem cut_zero (chars : List Char) : Cut chars 0 := ⟨[], chars, rfl, rfl⟩

theorem cut_length (chars : List Char) : Cut chars (units chars).length :=
  ⟨chars, [], (append_nil chars).symm, rfl⟩

theorem Cut.le (cut : Cut chars index) : index ≤ (units chars).length := by
  obtain ⟨front, back, rfl, rfl⟩ := cut
  simp [units_append]

theorem Cut.not_inside (cut : Cut chars index) : inside (units chars) index = false := by
  obtain ⟨front, back, rfl, rfl⟩ := cut
  have next := lowAt_zero back
  simp_all [inside, lowAt, units_append, getElem?_append_right]

/-- An index that is no cut has cuts on both sides. -/
theorem cut_or_inside (chars : List Char) {index : ℕ} (within : index ≤ (units chars).length) :
    Cut chars index ∨
      inside (units chars) index = true ∧ Cut chars (index - 1) ∧ Cut chars (index + 1) := by
  induction chars generalizing index with
  | nil =>
    rw [Nat.le_zero.mp within]
    exact .inl (cut_zero [])
  | cons char rest ih =>
    rw [units_cons, length_append] at within
    by_cases here : index < (ofChar char).length
    · rcases ofChar_cases char with ⟨unit, is, _, _⟩ | ⟨high, low, is, isHigh, isLow⟩
      · have zero : index = 0 := by
          rw [is, length_singleton] at here
          omega
        exact .inl (zero ▸ cut_zero _)
      · by_cases zero : index = 0
        · exact .inl (zero ▸ cut_zero _)
        · have one : index = 1 := by
            rw [is, length_cons, length_singleton] at here
            omega
          have next := (cut_zero rest).cons char
          rw [is] at next
          subst one
          refine .inr ⟨?_, cut_zero _, next⟩
          simp [inside, lowAt, highAt, units_cons, is, isHigh, isLow]
    · obtain ⟨below, rfl⟩ := Nat.exists_eq_add_of_le (Nat.le_of_not_lt here)
      rcases ih (Nat.le_of_add_le_add_left within) with cut | ⟨isInside, before, after⟩
      · exact .inl (cut.cons char)
      · have positive : 0 < below := by simp_all [inside]
        have next := before.cons char
        rw [← Nat.add_sub_assoc positive] at next
        refine .inr ⟨?_, next, after.cons char⟩
        have low : lowAt (units (char :: rest)) ((ofChar char).length + below) =
            lowAt (units rest) below := by
          rw [units_cons, lowAt, lowAt, getElem?_append_right (Nat.le_add_right _ _),
            Nat.add_sub_cancel_left]
        have high : highAt (units (char :: rest)) ((ofChar char).length + below - 1) =
            highAt (units rest) (below - 1) := by
          rw [units_cons, highAt, highAt, Nat.add_sub_assoc positive,
            getElem?_append_right (Nat.le_add_right _ _), Nat.add_sub_cancel_left]
        simp only [inside, low, high, Bool.and_eq_true, decide_eq_true_eq] at isInside ⊢
        exact ⟨⟨by omega, isInside.1.2⟩, isInside.2⟩

theorem cut_of_not_inside (within : index ≤ (units chars).length)
    (outside : inside (units chars) index = false) : Cut chars index :=
  (cut_or_inside chars within).resolve_right fun isInside => by simp_all

end Cuts

/-- Two cuts leave whole characters before, between and after them. -/
theorem split_of_cuts {chars : List Char} {start stop : ℕ} (first : Cut chars start)
    (second : Cut chars stop) (ordered : start ≤ stop) : ∃ kept removed rest,
      chars = kept ++ removed ++ rest ∧ (units kept).length = start ∧
        (units (kept ++ removed)).length = stop := by
  obtain ⟨kept, others, rfl, rfl⟩ := first
  obtain ⟨front, rest, same, rfl⟩ := second
  obtain ⟨removed, rfl, rfl⟩ | ⟨removed, rfl, rfl⟩ := append_eq_append_iff.mp same
  · exact ⟨kept, removed, rest, by simp, rfl, rfl⟩
  · have none : units removed = [] := by
      rw [units_append, length_append] at ordered
      exact length_eq_zero_iff.mp (by omega)
    exact ⟨front ++ removed, [], others, by simp, rfl, by simp [units_append, none]⟩

theorem WellFormed.append {front back : Units} (first : WellFormed front)
    (second : WellFormed back) : WellFormed (front ++ back) := by
  obtain ⟨chars, rfl⟩ := first
  obtain ⟨others, rfl⟩ := second
  exact ⟨chars ++ others, (units_append _ _).symm⟩

variable {back front : Units}

/-- A text that is cut outside its pairs leaves whole characters on both sides. -/
theorem WellFormed.split (whole : WellFormed (front ++ back))
    (outside : inside (front ++ back) front.length = false) :
    WellFormed front ∧ WellFormed back := by
  obtain ⟨chars, same⟩ := whole
  rw [same] at outside
  have within : front.length ≤ (units chars).length := by simp [← same]
  obtain ⟨before, after, rfl, length⟩ := cut_of_not_inside within outside
  rw [units_append] at same
  obtain ⟨rfl, rfl⟩ := append_inj same length.symm
  exact ⟨⟨before, rfl⟩, ⟨after, rfl⟩⟩

theorem WellFormed.behind (whole : WellFormed (front ++ back))
    (last : ∀ unit ∈ front.getLast?, isHigh unit = false) : WellFormed back := by
  refine (whole.split ?_).2
  rcases eq_nil_or_concat front with rfl | ⟨others, unit, rfl⟩
  · rfl
  · simp_all [inside, highAt]

theorem WellFormed.before (whole : WellFormed (front ++ back))
    (first : ∀ unit ∈ back.head?, isLow unit = false) : WellFormed front := by
  refine (whole.split ?_).1
  cases back <;> simp_all [inside, lowAt]

/-- Whole characters may be put between two of a text. -/
theorem WellFormed.insert {middle : Units} (whole : WellFormed (front ++ back))
    (added : WellFormed middle) (boundary : lowAt back 0 = false) :
    WellFormed (front ++ (middle ++ back)) := by
  have outside : inside (front ++ back) front.length = false := by
    simp_all [inside, lowAt, getElem?_append_right]
  obtain ⟨first, second⟩ := whole.split outside
  exact first.append (added.append second)

variable {text : Units}

theorem WellFormed.last {unit : ℕ} (whole : WellFormed (text ++ [unit])) :
    isHigh unit = false := by
  obtain ⟨chars, same⟩ := whole
  rcases eq_nil_or_concat chars with rfl | ⟨front, char, rfl⟩
  · simp [units] at same
  · have last := congrArg getLast? same
    rcases ofChar_cases char with ⟨one, is, high, _⟩ | ⟨one, low, is, _, isLow⟩
    · simp_all [units]
    · have : unit = low := by simpa [units_append, units, is] using last
      simp only [Utf16.isLow, Utf16.isHigh, Bool.and_eq_true, Bool.and_eq_false_iff,
        decide_eq_true_eq, decide_eq_false_iff_not] at isLow ⊢
      omega

/-! ### Bytes -/

/-- The text is one of characters, and they take at most `limit` bytes. -/
def Fits (limit : ℕ) (text : Units) : Prop :=
  ∃ chars, text = units chars ∧ (chars.map Char.utf8Size).sum ≤ limit

/-- The units are the same, or both ASCII. -/
def Alike (unit other : ℕ) : Prop := unit = other ∨ unit < 0x80 ∧ other < 0x80

end QsBitwarden.Lib.Utf16
