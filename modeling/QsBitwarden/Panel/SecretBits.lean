import Mathlib.Data.List.Induction
import QsBitwarden.Lib.BitString
import QsBitwarden.Panel.TotpAgreement

/-! Owns what the bytes of a TOTP secret are: the bits of its letters in order, as many as fill
bytes. It does not own the codes. -/

namespace QsBitwarden.Panel.Totp

open Lib Lib.Utf8 Vault.Totp List

/-- The bits of the bytes, in order. -/
def byteBits (bytes : Bytes) : List Bool := bytes.flatMap fun byte => bitString 8 byte.toNat

/-- The bits of the values, five each. -/
def valueBits (values : List ℕ) : List Bool := values.flatMap (bitString 5)

/-- Of the values read so far every bit is in the bytes or still in the buffer, in order. -/
structure Packed (values : List ℕ) (state : Vault.Totp.Bits) : Prop where
  short : state.bits < 8
  whole : byteBits state.out ++ bitString state.bits state.buffer = valueBits values

variable {values : List ℕ} {state : Vault.Totp.Bits}

theorem Packed.push (packed : Packed values state) {index : ℕ} (small : index < 32) :
    Packed (values ++ [index]) (state.push index) := by
  have short := packed.short
  have moved : bitString (state.bits + 5) ((state.buffer <<< 5 ||| index) &&& 0xffff) =
      bitString state.bits state.buffer ++ bitString 5 index := by
    have mask := Nat.and_two_pow_sub_one_eq_mod (state.buffer <<< 5 ||| index) 16
    rw [mask]
    exact bitString_push (by omega) small
  have extended : valueBits (values ++ [index]) = byteBits state.out ++
      bitString (state.bits + 5) ((state.buffer <<< 5 ||| index) &&& 0xffff) := by
    rw [moved, ← append_assoc, packed.whole]
    simp [valueBits]
  unfold Vault.Totp.Bits.push
  dsimp only
  generalize (state.buffer <<< 5 ||| index) &&& 0xffff = buffer at extended ⊢
  split_ifs with full
  · -- the highest eight of the bits become a byte; fewer than eight are left
    refine ⟨by dsimp only; omega, ?_⟩
    have split := bitString_add 8 (state.bits + 5 - 8) buffer
    rw [Nat.add_sub_cancel' full] at split
    have byte : bitString 8 (UInt8.ofNat (buffer >>> (state.bits + 5 - 8))).toNat =
        bitString 8 (buffer >>> (state.bits + 5 - 8)) := by
      apply bitString_congr
      intro place below
      rw [UInt8.toNat_ofNat', Nat.testBit_mod_two_pow]
      simp [below]
    rw [extended, split, ← byte]
    simp [byteBits]
  · exact ⟨by dsimp only; omega, extended.symm⟩

theorem packed_pushAll (small : ∀ value ∈ values, value < 32) : Packed values (pushAll values) := by
  induction values using reverseRecOn with
  | nil => exact ⟨by decide, rfl⟩
  | append_singleton values index ih =>
    rw [pushAll, foldl_append]
    exact (ih fun value mem => small value (by simp [mem])).push (small index (by simp))

theorem letterValues_small (text : Text) : ∀ value ∈ letterValues text, value < 32 := by
  intro value mem
  obtain ⟨char, -, found⟩ := mem_filterMap.mp mem
  exact (findIdx?_eq_some_iff_getElem.mp found).1

theorem Packed.length (packed : Packed values state) :
    state.out.length = 5 * values.length / 8 := by
  have lengths := congrArg List.length packed.whole
  have short := packed.short
  simp only [length_append, byteBits, valueBits, length_flatMap, length_bitString, map_const',
    sum_replicate_nat] at lengths
  omega

theorem Packed.bytes (packed : Packed values state) :
    byteBits state.out = (valueBits values).take (8 * (5 * values.length / 8)) := by
  have length : (byteBits state.out).length = 8 * (5 * values.length / 8) := by
    rw [← packed.length, Nat.mul_comm]
    simp [byteBits]
  rw [← packed.whole, ← length, take_left]

/-- Both decoders pack the bits of the letters: the bytes are the first bits, as many as fill
them, and the mask leaves those of the others in the buffer. -/
theorem base32_packs {text : Text} (ascii : IsAscii text) :
    (base32 text).length = 5 * (letterValues text).length / 8 ∧
      byteBits (base32 text) =
        (valueBits (letterValues text)).take (8 * (5 * (letterValues text).length / 8)) ∧
      decodeBase32 text = ofBytes (base32 text) ∧
      Packed (letterValues text) ((encode text).foldl Vault.Totp.Bits.read ⟨0, 0, []⟩) ∧
      (text.flatMap upperCase).foldl Bits.read ⟨0, 0, []⟩ =
        bitsOf ((encode text).foldl Vault.Totp.Bits.read ⟨0, 0, []⟩) := by
  have packed := packed_pushAll (letterValues_small text)
  have plain : Plain text := fun char mem high => absurd (ascii char mem) (Nat.not_lt.mpr high)
  rw [base32, foldl_read_encode, foldl_read_upperCase, letterValues_upperCase plain]
  refine ⟨packed.length, packed.bytes, ?_, packed, rfl⟩
  rw [decodeBase32_eq, plain.sameBytes, base32, foldl_read_encode]

theorem base32_packs_foo :
    (base32 "mZxW-6=".toList).length = 3 ∧
      base32 "mZxW-6=".toList = [0x66, 0x6f, 0x6f] :=
  ⟨(base32_packs (forall_mem_of_all (by decide))).1.trans (by decide +kernel), by decide +kernel⟩

end QsBitwarden.Panel.Totp
