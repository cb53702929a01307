import QsBitwarden.Panel.Totp
import QsBitwarden.Vault.Totp

/-! Owns the agreement of the two readers of form values: the panel decodes escapes character by
character, the helper decodes bytes and reads them as UTF-8 at the end. -/

namespace QsBitwarden.Panel.Totp

open Lib Lib.JsNumber Lib.Utf8 List Option Vault.Totp

/-! ### Form values -/

variable {char : Char}

theorem byteOf_eq_iff {other : Char} (ascii : char.toNat < 128) (too : other.toNat < 128) :
    byteOf char = byteOf other ↔ char = other := by
  constructor
  · intro same
    rw [← ofNat_toNat_byteOf ascii, same, ofNat_toNat_byteOf too]
  · exact congrArg byteOf

theorem hexValue_byteOf (ascii : char.toNat < 128) :
    hexValue (byteOf char) = hexDigitValue char := by
  unfold hexValue hexDigitValue
  rw [toNat_byteOf ascii]
  dsimp only
  split_ifs <;> first | rfl | omega

theorem hexDigitValue_spaceForPlus (char : Char) :
    hexDigitValue (spaceForPlus char) = hexDigitValue char := by
  unfold spaceForPlus
  split_ifs with plus
  · rw [plus]
    rfl
  · rfl

/-- The bytes of a text and the text as the panel decodes it. -/
def raw (text : Text) : Bytes := text.map byteOf

def spaced (text : Text) : Text := text.map spaceForPlus

theorem unescape_plain (ascii : char.toNat < 128) (plain : char ≠ '%')
    (rest : Bytes) : unescape (byteOf char :: rest) =
      (unescape rest).map (byteOf (spaceForPlus char) :: ·) := by
  have percent : byteOf char ≠ 0x25 := fun same =>
    plain ((byteOf_eq_iff ascii (by decide)).mp (same.trans (by decide : _ = byteOf '%')))
  rw [unescape.eq_def]
  dsimp only
  by_cases plus : char = '+'
  · subst plus
    rw [if_pos (by decide)]
    rfl
  · have other : byteOf char ≠ 0x2B := fun same =>
      plus ((byteOf_eq_iff ascii (by decide)).mp (same.trans (by decide : _ = byteOf '+')))
    rw [if_neg other, if_neg percent, spaceForPlus, if_neg plus]

theorem toNat_spaceForPlus (ascii : char.toNat < 128) : (spaceForPlus char).toNat < 128 := by
  unfold spaceForPlus
  split_ifs
  · decide
  · exact ascii

/-- An escape is read alike, or by neither. -/
theorem octet_spaced_percent {rest : Text} (ascii : IsAscii rest) :
    (octet (spaced ('%' :: rest)) = none ∧ unescape (raw ('%' :: rest)) = none) ∨
      ∃ first others, rest.length = List.length others + 2 ∧ IsAscii others ∧
        octet (spaced ('%' :: rest)) = some (first, spaced others) ∧
        unescape (raw ('%' :: rest)) =
          (unescape (raw others)).map (first :: ·) := by
  match rest with
  | [] => exact .inl ⟨rfl, rfl⟩
  | [high] => exact .inl ⟨rfl, rfl⟩
  | high :: low :: others =>
    rw [isAscii_cons, isAscii_cons] at ascii
    have shape : spaced ('%' :: high :: low :: others) =
        '%' :: spaceForPlus high :: spaceForPlus low :: spaced others := rfl
    have bytes : raw ('%' :: high :: low :: others) =
        0x25 :: byteOf high :: byteOf low :: raw others := rfl
    rw [shape, bytes, octet, hexDigitValue_spaceForPlus, hexDigitValue_spaceForPlus,
      unescape.eq_def]
    dsimp only
    rw [if_neg (by decide), if_pos rfl, hexValue_byteOf ascii.1, hexValue_byteOf ascii.2.1]
    cases hexDigitValue high with
    | none => exact .inl ⟨rfl, rfl⟩
    | some first =>
      cases hexDigitValue low with
      | none => exact .inl ⟨rfl, rfl⟩
      | some second => exact .inr ⟨_, others, rfl, ascii.2.2, rfl, rfl⟩

theorem spaceForPlus_ne_percent (plain : char ≠ '%') : spaceForPlus char ≠ '%' := by
  unfold spaceForPlus
  split_ifs
  · decide
  · exact plain

theorem octet_of_ne (plain : char ≠ '%') (rest : Text) :
    octet (char :: rest) = none := by
  unfold octet
  split
  · rename_i same
    exact absurd (List.cons.inj same).1 plain
  · rfl

/-- So many escapes in a row are read alike; where there are not, the bytes are no tails either. -/
theorem octets_spaced (count : ℕ) {rest : Text} (ascii : IsAscii rest) :
    (∃ more others, List.length more = count ∧ List.length others ≤ rest.length ∧
        IsAscii others ∧ octets count (spaced rest) = some (more, spaced others) ∧
        unescape (raw rest) = (unescape (raw others)).map (more ++ ·)) ∨
      (octets count (spaced rest) = none ∧
        ∀ out, unescape (raw rest) = some out → ¬ (count ≤ List.length out ∧
          ∀ byte ∈ out.take count, isTail byte)) := by
  induction count generalizing rest with
  | zero =>
    refine .inl ⟨[], rest, rfl, le_rfl, ascii, rfl, ?_⟩
    cases unescape (raw rest) <;> rfl
  | succ count ih =>
    match rest with
    | [] =>
      refine .inr ⟨rfl, ?_⟩
      rintro out ⟨⟩ ⟨enough, -⟩
      exact absurd enough (Nat.not_succ_le_zero count)
    | char :: rest =>
      by_cases escape : char = '%'
      · subst escape
        obtain ⟨refused, nothing⟩ | ⟨first, others, shorter, ascii, read, bytes⟩ :=
          octet_spaced_percent (isAscii_cons.mp ascii).2
        · refine .inr ⟨?_, ?_⟩
          · rw [octets, refused]
            rfl
          · rw [nothing]
            rintro out ⟨⟩
        · have step : octets (count + 1) (spaced ('%' :: rest)) =
              (octets count (spaced others)).map fun found => (first :: found.1, found.2) := by
            rw [octets, read, bind_eq_bind, bind_some]
            dsimp only
            cases octets count (spaced others) <;> rfl
          obtain ⟨more, left, length, smaller, ascii, found, tail⟩ | ⟨failed, apart⟩ := ih ascii
          · refine .inl ⟨first :: more, left, ?_, ?_, ascii, ?_, ?_⟩
            · rw [length_cons, length]
            · rw [length_cons]
              omega
            · rw [step, found]
              rfl
            · rw [bytes, tail]
              cases unescape (raw left) <;> rfl
          · refine .inr ⟨?_, ?_⟩
            · rw [step, failed]
              rfl
            · rw [bytes]
              rintro out same ⟨enough, tails⟩
              obtain ⟨inner, decoded, rfl⟩ := map_eq_some_iff.mp same
              refine apart inner decoded ⟨Nat.le_of_succ_le_succ enough, ?_⟩
              intro byte mem
              exact tails byte (mem_cons_of_mem first mem)
      · -- a character that stands for itself is below 128, so it is no tail
        have unescaped : octet (spaced (char :: rest)) = none :=
          octet_of_ne (spaceForPlus_ne_percent escape) (spaced rest)
        rw [isAscii_cons] at ascii
        refine .inr ⟨?_, ?_⟩
        · rw [octets, unescaped]
          rfl
        · rintro out same ⟨-, tails⟩
          have shape : raw (char :: rest) = byteOf char :: raw rest := rfl
          rw [shape, unescape_plain ascii.1 escape] at same
          obtain ⟨inner, -, rfl⟩ := map_eq_some_iff.mp same
          have tail := tails (byteOf (spaceForPlus char)) mem_cons_self
          have low := toNat_byteOf (toNat_spaceForPlus ascii.1)
          have small := toNat_spaceForPlus ascii.1
          rw [isTail, low, decide_eq_true_eq] at tail
          omega

section Percent

variable {more : ℕ} {rest others left : Text} {first : UInt8} {tail : Bytes}

theorem decodeFrom_of_no_octet (refused : octet ('%' :: rest) = none) :
    decodeFrom (more + 1) ('%' :: rest) = none := by
  rw [decodeFrom, if_pos rfl, refused]
  rfl

theorem decodeFrom_of_no_octets (read : octet ('%' :: rest) = some (first, others))
    (refused : octets (width first - 1) others = none) :
    decodeFrom (more + 1) ('%' :: rest) = none := by
  rw [decodeFrom, if_pos rfl, read, bind_eq_bind, bind_some]
  dsimp only
  rw [refused]
  rfl

theorem decodeFrom_of_octets (read : octet ('%' :: rest) = some (first, others))
    (found : octets (width first - 1) others = some (tail, left)) :
    decodeFrom (more + 1) ('%' :: rest) = (character (first :: tail)).bind fun decoded =>
      (decodeFrom more left).map (decoded :: ·) := by
  rw [decodeFrom, if_pos rfl, read, bind_eq_bind, bind_some]
  dsimp only
  rw [found, bind_eq_bind, bind_some]
  dsimp only
  cases character (first :: tail) with
  | none => rfl
  | some decoded => cases decodeFrom more left <;> rfl

end Percent

/-- The panel decodes a form value as the bytes of it decode. -/
theorem decodeFrom_spaced {more : ℕ} {text : Text} (ascii : IsAscii text)
    (enough : text.length ≤ more) :
    decodeFrom more (spaced text) = (unescape (raw text)).bind Utf8.decode := by
  induction more generalizing text with
  | zero =>
    cases length_eq_zero_iff.mp (Nat.le_zero.mp enough)
    rfl
  | succ more ih =>
    match text with
    | [] => rfl
    | char :: rest =>
      have shorter : rest.length ≤ more := Nat.le_of_succ_le_succ enough
      rw [isAscii_cons] at ascii
      by_cases escape : char = '%'
      · subst escape
        obtain ⟨refused, nothing⟩ | ⟨first, others, two, others_ascii, read, bytes⟩ :=
          octet_spaced_percent ascii.2
        · rw [nothing]
          exact decodeFrom_of_no_octet refused
        · rw [bytes]
          obtain ⟨tail, left, length, smaller, left_ascii, found, all⟩ | ⟨failed, apart⟩ :=
            octets_spaced (width first - 1) others_ascii
          · refine (decodeFrom_of_octets read found).trans ?_
            rw [ih left_ascii (by omega), all]
            cases unescape (raw left) with
            | none => cases character (first :: tail) <;> rfl
            | some inner =>
              show _ = Utf8.decode (first :: (tail ++ inner))
              rw [decode_cons, ← length, take_left, drop_left]
              rfl
          · refine (decodeFrom_of_no_octets read failed).trans ?_
            cases decoded : unescape (raw others) with
            | none => rfl
            | some inner => exact (decode_of_no_tails (apart inner decoded)).symm
      · show decodeFrom (more + 1) (spaceForPlus char :: spaced rest) =
          (unescape (byteOf char :: raw rest)).bind Utf8.decode
        rw [decodeFrom, if_neg (spaceForPlus_ne_percent escape), ih ascii.2 shorter,
          unescape_plain ascii.1 escape]
        cases unescape (raw rest) with
        | none => rfl
        | some inner =>
          have small := toNat_spaceForPlus ascii.1
          show _ = Utf8.decode (byteOf (spaceForPlus char) :: inner)
          rw [decode_ascii (by rw [toNat_byteOf small]; exact small), ofNat_toNat_byteOf small]
          rfl

theorem formDecode_eq {text : Text} (ascii : IsAscii text) :
    formDecode text = Vault.Totp.formDecode text := by
  unfold formDecode decodeURIComponent Vault.Totp.formDecode
  rw [encode_ascii ascii]
  exact decodeFrom_spaced ascii (length_map _).ge

end QsBitwarden.Panel.Totp
