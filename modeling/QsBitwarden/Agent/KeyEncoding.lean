import Mathlib.Data.Option.Basic
import QsBitwarden.Agent.Load
import QsBitwarden.Lib.Base64
import QsBitwarden.Lib.Utf8

/-! Owns the encoding a private key is read from (`decode_base64`, `load.rs`): it is the padded
standard base64 of the key, and no other text is read as the same key. It does not own what the
key is. -/

namespace QsBitwarden.Agent

open Lib List Option

/-- The base64 of some bytes, as the bytes a payload carries it in. -/
def encodeBase64 (bytes : Bytes) : Bytes := Utf8.encode (Base64.encode bytes)

/-! ### Symbols -/

/-- The byte of a six-bit value. -/
def sextetByte (value : ℕ) : UInt8 := Utf8.byteOf (Base64.symbol value)

theorem sextet_sextetByte : ∀ value < 64, sextet (sextetByte value) = some value := by
  decide

theorem sextetByte_ne_pad : ∀ value < 64, sextetByte value ≠ 61 := by
  decide

theorem symbol_isAscii : ∀ value < 64, (Base64.symbol value).toNat < 128 := by
  decide

theorem sextet_all : ∀ code < 256, (sextet (UInt8.ofNat code)).all
    fun value => value < 64 && sextetByte value = UInt8.ofNat code := by
  decide +kernel

variable {bits value : ℕ}

/-- The byte that stands for six bits. -/
def Symbol (value : ℕ) (byte : UInt8) : Prop := value < 64 ∧ byte = sextetByte value

theorem sextet_eq_some_iff {byte : UInt8} : sextet byte = some value ↔ Symbol value byte := by
  constructor
  · intro reads
    have all := sextet_all byte.toNat byte.toNat_lt
    rw [UInt8.ofNat_toNat, reads] at all
    simp only [all_some, Bool.and_eq_true, decide_eq_true_eq] at all
    exact ⟨all.1, all.2.symm⟩
  · rintro ⟨small, rfl⟩
    exact sextet_sextetByte value small

/-! ### The encoder, in bytes -/

theorem encode_symbol_cons (small : value < 64) (text : Text) :
    Utf8.encode (Base64.symbol value :: text) = sextetByte value :: Utf8.encode text := by
  rw [Utf8.encode_cons, Utf8.utf8EncodeChar_ascii (symbol_isAscii value small)]
  rfl

theorem encodeBase64_three (a b c : UInt8) (rest : Bytes) :
    encodeBase64 (a :: b :: c :: rest) =
      sextetByte (a.toNat / 4) :: sextetByte (a.toNat % 4 * 16 + b.toNat / 16) ::
        sextetByte (b.toNat % 16 * 4 + c.toNat / 64) :: sextetByte (c.toNat % 64) ::
          encodeBase64 rest := by
  have smallA := a.toNat_lt
  have smallB := b.toNat_lt
  have smallC := c.toNat_lt
  unfold encodeBase64
  rw [Base64.encode, encode_symbol_cons (by omega), encode_symbol_cons (by omega),
    encode_symbol_cons (by omega), encode_symbol_cons (by omega)]

theorem encodeBase64_two (a b : UInt8) :
    encodeBase64 [a, b] = [sextetByte (a.toNat / 4), sextetByte (a.toNat % 4 * 16 + b.toNat / 16),
      sextetByte (b.toNat % 16 * 4), 61] := by
  have smallA := a.toNat_lt
  have smallB := b.toNat_lt
  unfold encodeBase64
  rw [Base64.encode, encode_symbol_cons (by omega), encode_symbol_cons (by omega),
    encode_symbol_cons (by omega)]
  rfl

theorem encodeBase64_one (a : UInt8) :
    encodeBase64 [a] = [sextetByte (a.toNat / 4), sextetByte (a.toNat % 4 * 16), 61, 61] := by
  have small := a.toNat_lt
  unfold encodeBase64
  rw [Base64.encode, encode_symbol_cons (by omega), encode_symbol_cons (by omega)]
  rfl

/-! ### One group -/

theorem groupBits_eq_some_iff {byte : UInt8} {rest : Bytes} :
    groupBits (byte :: rest) = some bits ↔
      ∃ value lower, Symbol value byte ∧ groupBits rest = some lower ∧
        bits = value * 64 ^ rest.length + lower := by
  rw [groupBits]
  simp only [bind_eq_bind, bind_eq_some_iff, Option.pure_def, Option.some.injEq,
    sextet_eq_some_iff]
  constructor
  · rintro ⟨value, reads, lower, others, rfl⟩
    exact ⟨value, lower, reads, others, rfl⟩
  · rintro ⟨value, lower, reads, others, rfl⟩
    exact ⟨value, reads, lower, others, rfl⟩

theorem groupBits_nil : groupBits [] = some bits ↔ bits = 0 := by
  rw [groupBits, Option.some.injEq]
  exact eq_comm

variable {a b c : UInt8}

/-- The symbols of a group without padding. -/
theorem groupBits_four {d : UInt8} :
    groupBits [a, b, c, d] = some bits ↔
      ∃ va vb vc vd, Symbol va a ∧ Symbol vb b ∧ Symbol vc c ∧ Symbol vd d ∧
        bits = ((va * 64 + vb) * 64 + vc) * 64 + vd := by
  simp only [groupBits_eq_some_iff, groupBits_nil, length_cons, length_nil]
  constructor
  · rintro ⟨va, _, readsA, ⟨vb, _, readsB, ⟨vc, _, readsC, ⟨vd, _, readsD, rfl, rfl⟩, rfl⟩, rfl⟩,
      rfl⟩
    refine ⟨va, vb, vc, vd, readsA, readsB, readsC, readsD, ?_⟩
    omega
  · rintro ⟨va, vb, vc, vd, readsA, readsB, readsC, readsD, rfl⟩
    refine ⟨va, _, readsA,
      ⟨vb, _, readsB, ⟨vc, _, readsC, ⟨vd, _, readsD, rfl, rfl⟩, rfl⟩, rfl⟩, ?_⟩
    omega

theorem groupBits_three :
    groupBits [a, b, c] = some bits ↔
      ∃ va vb vc, Symbol va a ∧ Symbol vb b ∧ Symbol vc c ∧
        bits = (va * 64 + vb) * 64 + vc := by
  simp only [groupBits_eq_some_iff, groupBits_nil, length_cons, length_nil]
  constructor
  · rintro ⟨va, _, readsA, ⟨vb, _, readsB, ⟨vc, _, readsC, rfl, rfl⟩, rfl⟩, rfl⟩
    refine ⟨va, vb, vc, readsA, readsB, readsC, ?_⟩
    omega
  · rintro ⟨va, vb, vc, readsA, readsB, readsC, rfl⟩
    refine ⟨va, _, readsA, ⟨vb, _, readsB, ⟨vc, _, readsC, rfl, rfl⟩, rfl⟩, ?_⟩
    omega

theorem groupBits_two :
    groupBits [a, b] = some bits ↔
      ∃ va vb, Symbol va a ∧ Symbol vb b ∧ bits = va * 64 + vb := by
  simp only [groupBits_eq_some_iff, groupBits_nil, length_cons, length_nil]
  constructor
  · rintro ⟨va, _, readsA, ⟨vb, _, readsB, rfl, rfl⟩, rfl⟩
    exact ⟨va, vb, readsA, readsB, by omega⟩
  · rintro ⟨va, vb, readsA, readsB, rfl⟩
    exact ⟨va, _, readsA, ⟨vb, _, readsB, rfl, rfl⟩, by omega⟩

/-- The three bytes of a group's bits. -/
def groupBytes (bits : ℕ) : Bytes :=
  [UInt8.ofNat (bits / 65536), UInt8.ofNat (bits / 256), UInt8.ofNat bits]

variable {bytes : Bytes}

/-- What a group is read as, by the padding it ends in. -/
theorem decodeGroup_eq_some_iff {group : Bytes} {last : Bool} (padding : ℕ)
    (pads : (group.reverse.takeWhile (· = 61)).length = padding) :
    decodeGroup group last = some bytes ↔
      (padding ≤ 2 ∧ (padding = 0 ∨ last = true)) ∧
        ∃ upper, groupBits (group.take (4 - padding)) = some upper ∧
          ((groupBytes (upper * 64 ^ padding)).drop (3 - padding)).all (· = 0) = true ∧
          bytes = (groupBytes (upper * 64 ^ padding)).take (3 - padding) := by
  unfold decodeGroup
  rw [pads]
  simp only [bind_eq_bind, bind_eq_some_iff, Option.pure_def, Option.some.injEq,
    groupBytes]
  constructor
  · rintro ⟨⟨⟩, fits, upper, reads, ⟨⟩, zero, rfl⟩
    exact ⟨(guard_eq_some' _).mp fits, upper, reads, (guard_eq_some' _).mp zero, rfl⟩
  · rintro ⟨fits, upper, reads, zero, rfl⟩
    exact ⟨(), (guard_eq_some' _).mpr fits, upper, reads, (),
      (guard_eq_some' _).mpr zero, rfl⟩

theorem ofNat_eq_of_mod (byte : UInt8) (same : value % 256 = byte.toNat) :
    UInt8.ofNat value = byte := by
  apply UInt8.toNat_inj.mp
  rw [UInt8.toNat_ofNat']
  exact same

theorem ofNat_eq_zero_iff : UInt8.ofNat value = 0 ↔ value % 256 = 0 := by
  rw [← UInt8.toNat_inj, UInt8.toNat_ofNat']
  rfl

/-- Three bytes of a group without padding. -/
theorem decodeGroup_three {x y z : UInt8} {last : Bool} :
    decodeGroup (encodeBase64 [x, y, z]) last = some [x, y, z] := by
  have smallX := x.toNat_lt
  have smallY := y.toNat_lt
  have smallZ := z.toNat_lt
  have unpadded := sextetByte_ne_pad (z.toNat % 64) (by omega)
  rw [encodeBase64_three]
  refine (decodeGroup_eq_some_iff 0 ?_).mpr ⟨⟨by omega, .inl rfl⟩, _,
    groupBits_four.mpr ⟨_, _, _, _, ⟨?_, rfl⟩, ⟨?_, rfl⟩, ⟨?_, rfl⟩, ⟨?_, rfl⟩, rfl⟩, rfl, ?_⟩
  · simp [encodeBase64, Base64.encode, Utf8.encode, unpadded]
  · omega
  · omega
  · omega
  · omega
  · simp only [groupBytes, take_succ_cons, take_zero]
    rw [ofNat_eq_of_mod x (by omega), ofNat_eq_of_mod y (by omega),
      ofNat_eq_of_mod z (by omega)]

/-- Two bytes, with one character of padding. -/
theorem decodeGroup_two {x y : UInt8} : decodeGroup (encodeBase64 [x, y]) true = some [x, y] := by
  have smallX := x.toNat_lt
  have smallY := y.toNat_lt
  have once := sextetByte_ne_pad (y.toNat % 16 * 4) (by omega)
  rw [encodeBase64_two]
  refine (decodeGroup_eq_some_iff 1 ?_).mpr ⟨⟨by omega, .inr rfl⟩, _,
    groupBits_three.mpr ⟨_, _, _, ⟨?_, rfl⟩, ⟨?_, rfl⟩, ⟨?_, rfl⟩, rfl⟩, ?_, ?_⟩
  · simp [once]
  · omega
  · omega
  · omega
  · simp only [groupBytes, drop_succ_cons, drop_zero, all_cons, all_nil,
      Bool.and_true, decide_eq_true_eq]
    exact ofNat_eq_zero_iff.mpr (by omega)
  · simp only [groupBytes, take_succ_cons, take_zero]
    rw [ofNat_eq_of_mod x (by omega), ofNat_eq_of_mod y (by omega)]

/-- One byte, with two. -/
theorem decodeGroup_one {x : UInt8} : decodeGroup (encodeBase64 [x]) true = some [x] := by
  have small := x.toNat_lt
  have twice := sextetByte_ne_pad (x.toNat % 4 * 16) (by omega)
  rw [encodeBase64_one]
  refine (decodeGroup_eq_some_iff 2 ?_).mpr ⟨⟨by omega, .inr rfl⟩, _,
    groupBits_two.mpr ⟨_, _, ⟨?_, rfl⟩, ⟨?_, rfl⟩, rfl⟩, ?_, ?_⟩
  · simp [twice]
  · omega
  · omega
  · simp only [groupBytes, drop_succ_cons, drop_zero, all_cons, all_nil,
      Bool.and_true, Bool.and_eq_true, decide_eq_true_eq]
    exact ⟨ofNat_eq_zero_iff.mpr (by omega), ofNat_eq_zero_iff.mpr (by omega)⟩
  · simp only [groupBytes, take_succ_cons, take_zero]
    rw [ofNat_eq_of_mod x (by omega)]

/-- A group that is read is the encoding of what it is read as; only the last one is padded. -/
theorem encodeBase64_of_decodeGroup {d : UInt8} {last : Bool}
    (decoded : decodeGroup [a, b, c, d] last = some bytes) :
    (bytes.length = 3 ∨ last = true ∧ bytes ≠ []) ∧ [a, b, c, d] = encodeBase64 bytes := by
  by_cases unpadded : d = 61
  · by_cases once : c = 61
    · by_cases twice : b = 61
      · have pads : ([a, b, c, d].reverse.takeWhile (· = 61)).length =
            ([a].takeWhile (· = 61)).length + 3 := by
          simp [unpadded, once, twice]
        obtain ⟨⟨few, -⟩, -⟩ := (decodeGroup_eq_some_iff _ pads).mp decoded
        omega
      · obtain ⟨⟨-, final⟩, upper, reads, zero, rfl⟩ :=
          (decodeGroup_eq_some_iff 2 (by simp [unpadded, once, twice])).mp decoded
        obtain ⟨va, vb, ⟨smallA, rfl⟩, ⟨smallB, rfl⟩, rfl⟩ := groupBits_two.mp reads
        simp only [groupBytes, drop_succ_cons, drop_zero, all_cons, all_nil,
          Bool.and_true, Bool.and_eq_true, decide_eq_true_eq, ofNat_eq_zero_iff] at zero
        refine ⟨.inr ⟨final.resolve_left (by omega), by simp [groupBytes]⟩, ?_⟩
        simp only [groupBytes, take_succ_cons, take_zero, encodeBase64_one,
          UInt8.toNat_ofNat', unpadded, once, List.cons.injEq, and_true]
        exact ⟨congrArg sextetByte (by omega), congrArg sextetByte (by omega)⟩
    · obtain ⟨⟨-, final⟩, upper, reads, zero, rfl⟩ :=
        (decodeGroup_eq_some_iff 1 (by simp [unpadded, once])).mp decoded
      obtain ⟨va, vb, vc, ⟨smallA, rfl⟩, ⟨smallB, rfl⟩, ⟨smallC, rfl⟩, rfl⟩ :=
        groupBits_three.mp reads
      simp only [groupBytes, drop_succ_cons, drop_zero, all_cons, all_nil,
        Bool.and_true, decide_eq_true_eq, ofNat_eq_zero_iff] at zero
      refine ⟨.inr ⟨final.resolve_left (by omega), by simp [groupBytes]⟩, ?_⟩
      simp only [groupBytes, take_succ_cons, take_zero, encodeBase64_two,
        UInt8.toNat_ofNat', unpadded, List.cons.injEq, and_true]
      exact ⟨congrArg sextetByte (by omega), congrArg sextetByte (by omega),
        congrArg sextetByte (by omega)⟩
  · obtain ⟨-, bits, reads, -, rfl⟩ := (decodeGroup_eq_some_iff 0 (by simp [unpadded])).mp decoded
    obtain ⟨va, vb, vc, vd, ⟨smallA, rfl⟩, ⟨smallB, rfl⟩, ⟨smallC, rfl⟩, ⟨smallD, rfl⟩, rfl⟩ :=
      groupBits_four.mp reads
    refine ⟨.inl rfl, ?_⟩
    simp only [groupBytes, take_succ_cons, take_zero, encodeBase64_three,
      UInt8.toNat_ofNat', List.cons.injEq]
    exact ⟨congrArg sextetByte (by omega), congrArg sextetByte (by omega),
      congrArg sextetByte (by omega), congrArg sextetByte (by omega), rfl⟩

/-! ### All groups -/

/-- Reading what the encoder wrote, group by group. -/
theorem decodeGroups_encodeBase64 (bytes : Bytes) :
    decodeGroups (encodeBase64 bytes) = some bytes := by
  induction bytes using Base64.encode.induct with
  | case1 => rfl
  | case2 x =>
    have group := @decodeGroup_one x
    rw [encodeBase64_one] at group ⊢
    rw [decodeGroups, isEmpty_nil, group]
    rfl
  | case3 x y =>
    have group := @decodeGroup_two x y
    rw [encodeBase64_two] at group ⊢
    rw [decodeGroups, isEmpty_nil, group]
    rfl
  | case4 x y z rest ih =>
    have group := @decodeGroup_three x y z (encodeBase64 rest).isEmpty
    rw [encodeBase64_three] at group ⊢
    rw [decodeGroups, show encodeBase64 [] = [] from rfl] at *
    rw [group, ih]
    rfl

theorem encodeBase64_append {group following : Bytes}
    (whole : group.length = 3 ∨ following = []) :
    encodeBase64 (group ++ following) = encodeBase64 group ++ encodeBase64 following := by
  rcases whole with full | rfl
  · obtain ⟨x, y, z, rfl⟩ := length_eq_three.mp full
    rw [cons_append, cons_append, singleton_append, encodeBase64_three,
      encodeBase64_three]
    rfl
  · rw [append_nil]
    exact (append_nil _).symm

/-- What is read is the encoding of the result. -/
theorem encodeBase64_of_decodeGroups {encoded : Bytes}
    (decoded : decodeGroups encoded = some bytes) : encoded = encodeBase64 bytes := by
  induction encoded using decodeGroups.induct generalizing bytes with
  | case1 a b c d rest ih =>
    rw [decodeGroups] at decoded
    obtain ⟨group, decodedGroup, decoded⟩ := bind_eq_some_iff.mp decoded
    obtain ⟨following, decodedRest, result⟩ := bind_eq_some_iff.mp decoded
    cases result
    obtain ⟨length, same⟩ := encodeBase64_of_decodeGroup decodedGroup
    have tail := ih decodedRest
    -- Only the last group is padded, and nothing is read after it.
    have split : group.length = 3 ∨ following = [] := by
      rcases length with full | ⟨final, -⟩
      · exact .inl full
      · rw [isEmpty_iff.mp final] at decodedRest
        exact .inr (Option.some.inj decodedRest).symm
    rw [encodeBase64_append split, ← same, ← tail]
    rfl
  | case2 =>
    cases decoded
    rfl
  | case3 encoded notFour notEmpty =>
    rw [decodeGroups.eq_def] at decoded
    split at decoded
    · exact absurd rfl (notFour _ _ _ _ _)
    · exact absurd rfl notEmpty
    · cases decoded

/-- The reader takes exactly the padded base64 of a key that is not empty. -/
theorem decodeBase64_eq_some_iff {encoded bytes : Bytes} :
    decodeBase64 encoded = some bytes ↔ bytes ≠ [] ∧ encoded = encodeBase64 bytes := by
  unfold decodeBase64
  constructor
  · intro decoded
    split_ifs at decoded with empty
    have same := encodeBase64_of_decodeGroups decoded
    refine ⟨?_, same⟩
    rintro rfl
    exact empty same
  · rintro ⟨filled, rfl⟩
    have decoded := decodeGroups_encodeBase64 bytes
    rw [if_neg, decoded]
    intro empty
    rw [empty] at decoded
    exact filled (Option.some.inj decoded).symm

end QsBitwarden.Agent
