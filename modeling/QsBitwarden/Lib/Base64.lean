import QsBitwarden.Lib.Text
import QsBitwarden.Lib.Wire

/-! Owns base64 with padding, as a strict reader takes it: the bits left over in the last
symbol are zero, and padding stands at the end only. It does not own what is encoded. -/

namespace QsBitwarden.Lib.Base64

open List Option

/-! ### Symbols -/

def symbol (value : ℕ) : Char :=
  if value < 26 then Char.ofNat (65 + value)
  else if value < 52 then Char.ofNat (71 + value)
  else if value < 62 then Char.ofNat (value - 4)
  else if value = 62 then '+'
  else '/'

def valueOf (char : Char) : Option ℕ :=
  let code := char.toNat
  if 65 ≤ code ∧ code ≤ 90 then some (code - 65)
  else if 97 ≤ code ∧ code ≤ 122 then some (code - 71)
  else if 48 ≤ code ∧ code ≤ 57 then some (code + 4)
  else if char = '+' then some 62
  else if char = '/' then some 63
  else none

/-- The symbols and the padding. -/
def isSymbol (char : Char) : Bool := isAsciiAlphanumeric char || char ∈ ['+', '/', '=']

/-! ### The codec -/

def encode : Bytes → Text
  | [] => []
  | [a] => [symbol (a.toNat / 4), symbol (a.toNat % 4 * 16), '=', '=']
  | [a, b] =>
    [symbol (a.toNat / 4), symbol (a.toNat % 4 * 16 + b.toNat / 16), symbol (b.toNat % 16 * 4), '=']
  | a :: b :: c :: rest =>
    symbol (a.toNat / 4) :: symbol (a.toNat % 4 * 16 + b.toNat / 16) ::
      symbol (b.toNat % 16 * 4 + c.toNat / 64) :: symbol (c.toNat % 64) :: encode rest

/-- The last four symbols, padded. -/
def decodeLast (a b c : Char) : Option Bytes := do
  let a ← valueOf a
  let b ← valueOf b
  if c = '=' then
    if b % 16 = 0 then some [UInt8.ofNat (a * 4 + b / 16)] else none
  else
    let c ← valueOf c
    if c % 4 = 0 then some [UInt8.ofNat (a * 4 + b / 16), UInt8.ofNat (b % 16 * 16 + c / 4)]
    else none

def decode : Text → Option Bytes
  | [] => some []
  | a :: b :: c :: d :: rest =>
    if rest = [] ∧ d = '=' then decodeLast a b c
    else do
      let a ← valueOf a
      let b ← valueOf b
      let c ← valueOf c
      let d ← valueOf d
      let rest ← decode rest
      some (UInt8.ofNat (a * 4 + b / 16) :: UInt8.ofNat (b % 16 * 16 + c / 4) ::
        UInt8.ofNat (c % 4 * 64 + d) :: rest)
  | _ => none

/-! ### Reading back -/

theorem valueOf_symbol : ∀ value < 64, valueOf (symbol value) = some value := by
  decide

theorem symbol_ne_pad : ∀ value < 64, symbol value ≠ '=' := by
  decide

theorem ofNat_eq (byte : UInt8) {value : ℕ} (same : value = byte.toNat) :
    UInt8.ofNat value = byte := by
  rw [same, UInt8.ofNat_toNat]

theorem decode_encode (bytes : Bytes) : decode (encode bytes) = some bytes := by
  induction bytes using encode.induct with
  | case1 => rfl
  | case2 a =>
    have small := a.toNat_lt
    unfold encode decode
    rw [if_pos ⟨rfl, rfl⟩]
    unfold decodeLast
    simp only [valueOf_symbol (a.toNat / 4) (by omega),
      valueOf_symbol (a.toNat % 4 * 16) (by omega), bind_eq_bind, bind_some, if_true]
    rw [if_pos (by omega), ofNat_eq a (by omega)]
  | case3 a b =>
    have small := a.toNat_lt
    have small' := b.toNat_lt
    unfold encode decode
    rw [if_pos ⟨rfl, rfl⟩]
    unfold decodeLast
    simp only [valueOf_symbol (a.toNat / 4) (by omega),
      valueOf_symbol (a.toNat % 4 * 16 + b.toNat / 16) (by omega),
      valueOf_symbol (b.toNat % 16 * 4) (by omega), bind_eq_bind, bind_some,
      if_neg (symbol_ne_pad (b.toNat % 16 * 4) (by omega))]
    rw [if_pos (by omega), ofNat_eq a (by omega), ofNat_eq b (by omega)]
  | case4 a b c rest ih =>
    have small := a.toNat_lt
    have small' := b.toNat_lt
    have small'' := c.toNat_lt
    unfold encode decode
    rw [if_neg fun last => symbol_ne_pad (c.toNat % 64) (by omega) last.2]
    simp only [valueOf_symbol (a.toNat / 4) (by omega),
      valueOf_symbol (a.toNat % 4 * 16 + b.toNat / 16) (by omega),
      valueOf_symbol (b.toNat % 16 * 4 + c.toNat / 64) (by omega),
      valueOf_symbol (c.toNat % 64) (by omega), ih, bind_eq_bind,
      bind_some]
    rw [ofNat_eq a (by omega), ofNat_eq b (by omega),
      ofNat_eq c (by omega)]

/-! ### Lengths -/

theorem isSymbol_of_valueOf {char : Char} {value : ℕ} (means : valueOf char = some value) :
    isSymbol char = true := by
  unfold valueOf at means
  unfold isSymbol isAsciiAlphanumeric
  simp only at means ⊢
  split_ifs at means with upper lower digit plus slash
  · simp [upper]
  · simp [lower]
  · simp [digit]
  · simp [plus]
  · simp [slash]

theorem decodeLast_length {a b c : Char} {bytes : Bytes} (decoded : decodeLast a b c = some bytes) :
    [a, b, c].all isSymbol = true ∧ (bytes.length = 1 ∨ bytes.length = 2) := by
  unfold decodeLast at decoded
  simp only [bind_eq_bind, bind_eq_some_iff] at decoded
  obtain ⟨a', meansA, b', meansB, decoded⟩ := decoded
  have symbolA := isSymbol_of_valueOf meansA
  have symbolB := isSymbol_of_valueOf meansB
  split_ifs at decoded with pad
  · cases decoded
    have symbolC : isSymbol c = true := by
      rw [pad]
      decide
    simp [symbolA, symbolB, symbolC]
  · obtain ⟨c', meansC, decoded⟩ := bind_eq_some_iff.mp decoded
    split_ifs at decoded
    cases decoded
    simp [symbolA, symbolB, isSymbol_of_valueOf meansC]

/-- A text that decodes has symbols only, four for three bytes begun. -/
theorem length_of_decode {text : Text} {bytes : Bytes} (decoded : decode text = some bytes) :
    text.all isSymbol = true ∧ text.length = 4 * ((bytes.length + 2) / 3) := by
  induction text using decode.induct generalizing bytes with
  | case1 =>
    cases decoded
    exact ⟨rfl, rfl⟩
  | case2 a b c d rest last =>
    unfold decode at decoded
    rw [if_pos last] at decoded
    obtain ⟨symbols, length⟩ := decodeLast_length decoded
    obtain ⟨rfl, rfl⟩ := last
    refine ⟨?_, ?_⟩
    · simp only [all_cons, all_nil, Bool.and_true, Bool.and_eq_true] at symbols ⊢
      exact ⟨symbols.1, symbols.2.1, symbols.2.2, by decide⟩
    · simp only [length_cons, length_nil]
      omega
  | case3 a b c d rest more ih =>
    unfold decode at decoded
    rw [if_neg more] at decoded
    simp only [bind_eq_bind, bind_eq_some_iff] at decoded
    obtain ⟨a', meansA, b', meansB, c', meansC, d', meansD, tail, decodes, result⟩ := decoded
    cases result
    obtain ⟨symbols, length⟩ := ih decodes
    refine ⟨?_, ?_⟩
    · simp only [all_cons, isSymbol_of_valueOf meansA, isSymbol_of_valueOf meansB,
        isSymbol_of_valueOf meansC, isSymbol_of_valueOf meansD, symbols, Bool.and_self]
    · simp only [length_cons, length]
      omega
  | case4 text short others =>
    unfold decode at decoded
    split at decoded
    · exact absurd rfl short
    · exact absurd rfl (others _ _ _ _ _)
    · cases decoded

end QsBitwarden.Lib.Base64
