import QsBitwarden.Lib.Text
import QsBitwarden.Lib.Wire

/-! Owns UTF-8: the bytes of a text, strict reading, which refuses sequences that are cut,
longer than needed, of surrogates or beyond the last character, and reading that replaces them. -/

namespace QsBitwarden.Lib.Utf8

open List Option

def encode (text : Text) : Bytes := text.flatMap String.utf8EncodeChar

theorem encode_cons (char : Char) (text : Text) :
    encode (char :: text) = String.utf8EncodeChar char ++ encode text := rfl

theorem toUTF8_toList_eq_encode (text : String) : text.toUTF8.toList = encode text.toList := by
  calc text.toUTF8.toList = (String.ofList text.toList).toByteArray.data.toList := by
        rw [toUTF8_toList, String.ofList_toList]
    _ = encode text.toList := by
        rw [String.toByteArray_ofList]
        exact toList_data_toByteArray

/-- How many bytes a character has that starts with this one; zero if none does. -/
def width (first : UInt8) : ℕ :=
  let value := first.toNat
  if value < 0x80 then 1
  else if value < 0xC0 then 0
  else if value < 0xE0 then 2
  else if value < 0xF0 then 3
  else if value < 0xF8 then 4
  else 0

/-- A byte that continues a character. -/
def isTail (byte : UInt8) : Bool := 0x80 ≤ byte.toNat ∧ byte.toNat < 0xC0

/-- A code between two bounds as a character, surrogates aside. -/
def charBetween (least limit code : ℕ) : Option Char :=
  if least ≤ code ∧ code < limit ∧ ¬ (0xD800 ≤ code ∧ code < 0xE000) then some (Char.ofNat code)
  else none

/-- The character that a sequence of bytes is. -/
def character : Bytes → Option Char
  | [a] => charBetween 0 0x80 a.toNat
  | [a, b] =>
    if width a = 2 ∧ isTail b then charBetween 0x80 0x800 (a.toNat % 32 * 64 + b.toNat % 64)
    else none
  | [a, b, c] =>
    if width a = 3 ∧ isTail b ∧ isTail c then
      charBetween 0x800 0x10000 (a.toNat % 16 * 4096 + b.toNat % 64 * 64 + c.toNat % 64)
    else none
  | [a, b, c, d] =>
    if width a = 4 ∧ isTail b ∧ isTail c ∧ isTail d then
      charBetween 0x10000 0x110000
        (a.toNat % 8 * 262144 + b.toNat % 64 * 4096 + c.toNat % 64 * 64 + d.toNat % 64)
    else none
  | _ => none

/-- Reading; each character takes a byte at least. -/
def decodeFrom : ℕ → Bytes → Option Text
  | _, [] => some []
  | 0, _ :: _ => none
  | more + 1, first :: rest =>
    (character (first :: rest.take (width first - 1))).bind fun char =>
      (decodeFrom more (rest.drop (width first - 1))).map (char :: ·)

def decode (bytes : Bytes) : Option Text := decodeFrom bytes.length bytes

/-! ### Characters of one byte -/

def IsAscii (text : Text) : Prop := ∀ char ∈ text, char.toNat < 128

variable {char : Char} {text : Text}

theorem isAscii_cons :
    IsAscii (char :: text) ↔ char.toNat < 128 ∧ IsAscii text := forall_mem_cons

def byteOf (char : Char) : UInt8 := UInt8.ofNat char.toNat

theorem toNat_byteOf (ascii : char.toNat < 128) : (byteOf char).toNat = char.toNat := by
  rw [byteOf, UInt8.toNat_ofNat']
  omega

theorem utf8EncodeChar_ascii (ascii : char.toNat < 128) :
    String.utf8EncodeChar char = [byteOf char] := by
  have small : char.val.toNat ≤ 127 := Nat.le_of_lt_succ ascii
  simp only [String.utf8EncodeChar, if_pos small]
  rfl

variable {byte first : UInt8}

/-- Other characters have no byte that is a character of its own. -/
theorem high_of_mem_utf8EncodeChar (other : 128 ≤ char.toNat)
    (mem : byte ∈ String.utf8EncodeChar char) : 128 ≤ byte.toNat := by
  have large : ¬ char.val.toNat ≤ 127 := Nat.not_le.mpr other
  simp only [String.utf8EncodeChar, if_neg large] at mem
  split_ifs at mem <;>
    simp only [mem_cons, not_mem_nil, or_false] at mem <;>
    rcases mem with rfl | rfl | rfl | rfl <;>
    rw [UInt8.toNat_ofNat'] <;> omega

theorem encode_ascii (ascii : IsAscii text) : encode text = text.map byteOf := by
  unfold encode
  induction text with
  | nil => rfl
  | cons char rest ih =>
    rw [isAscii_cons] at ascii
    rw [flatMap_cons, utf8EncodeChar_ascii ascii.1, ih ascii.2]
    rfl

theorem ofNat_toNat_byteOf (ascii : char.toNat < 128) :
    Char.ofNat (byteOf char).toNat = char := by
  rw [toNat_byteOf ascii, Char.ofNat_toNat]

/-! ### Reading -/

/-- A character is read of as many bytes as its first one says, the others being tails. -/
theorem tails_of_character {more : Bytes} (read : character (first :: more) = some char) :
    more.length = width first - 1 ∧ ∀ byte ∈ more, isTail byte := by
  match more with
  | [] =>
    have ascii : first.toNat < 0x80 := by
      change charBetween 0 0x80 first.toNat = some char at read
      unfold charBetween at read
      split_ifs at read with bounds
      exact bounds.2.1
    rw [width, if_pos ascii]
    exact ⟨rfl, nofun⟩
  | [b] =>
    simp only [character] at read
    split_ifs at read with shape
    simp [shape]
  | [b, c] =>
    simp only [character] at read
    split_ifs at read with shape
    simp [shape]
  | [b, c, d] =>
    simp only [character] at read
    split_ifs at read with shape
    simp [shape]
  | b :: c :: d :: e :: rest => cases read

variable {count : ℕ} {bytes : Bytes}

/-- Steps beyond one a byte change nothing. -/
theorem decodeFrom_eq_decode (enough : bytes.length ≤ count) :
    decodeFrom count bytes = decode bytes := by
  suffices same : ∀ count other (bytes : Bytes), bytes.length ≤ count → bytes.length ≤ other →
      decodeFrom count bytes = decodeFrom other bytes from same _ _ _ enough le_rfl
  intro count
  induction count with
  | zero =>
    intro other bytes empty _
    cases length_eq_zero_iff.mp (Nat.le_zero.mp empty)
    cases other <;> rfl
  | succ count ih =>
    intro other bytes first second
    match bytes, other, second with
    | [], other, _ => cases other <;> rfl
    | byte :: rest, other + 1, second =>
      rw [length_cons] at first second
      rw [decodeFrom, decodeFrom, ih other _ (by rw [length_drop]; omega)
        (by rw [length_drop]; omega)]

theorem decode_cons (first : UInt8) (rest : Bytes) : decode (first :: rest) =
    (character (first :: rest.take (width first - 1))).bind fun char =>
      (decode (rest.drop (width first - 1))).map (char :: ·) := by
  rw [decode, length_cons, decodeFrom, decodeFrom_eq_decode (by rw [length_drop]; omega)]

theorem decode_ascii (ascii : first.toNat < 128) (rest : Bytes) :
    decode (first :: rest) = (decode rest).map (Char.ofNat first.toNat :: ·) := by
  have one : width first = 1 := if_pos ascii
  have char : character [first] = some (Char.ofNat first.toNat) := by
    show charBetween 0 0x80 first.toNat = _
    rw [charBetween, if_pos (by omega)]
  rw [decode_cons, one]
  simp only [Nat.sub_self, take_zero, drop_zero, char, bind_some]

/-- Without its tails no character is read. -/
theorem decode_of_no_tails {rest : Bytes}
    (apart : ¬ (width first - 1 ≤ rest.length ∧
      ∀ byte ∈ rest.take (width first - 1), isTail byte)) :
    decode (first :: rest) = none := by
  rw [decode_cons]
  cases read : character (first :: rest.take (width first - 1)) with
  | none => rfl
  | some char =>
    obtain ⟨whole, tails⟩ := tails_of_character read
    rw [length_take] at whole
    exact absurd ⟨by omega, tails⟩ apart

/-! ### Lossy reading -/

/-- Whether two bytes may start a character of three bytes or four. -/
def leads (first second : UInt8) : Bool :=
  let lead := first.toNat
  let next := second.toNat
  0xE0 ≤ lead ∧ lead ≤ 0xF4 ∧ isTail second ∧ (lead = 0xE0 → 0xA0 ≤ next) ∧
    (lead = 0xED → next < 0xA0) ∧ (lead = 0xF0 → 0x90 ≤ next) ∧ (lead = 0xF4 → next < 0x90)

/-- How many bytes one replacement stands for: the longest start of a character, or one. -/
def brokenLength : Bytes → ℕ
  | first :: second :: rest =>
    if leads first second then if width first = 4 ∧ rest.head?.any isTail then 3 else 2 else 1
  | _ => 1

/-- `String::from_utf8_lossy`; each step takes a byte at least. -/
def lossyFrom : ℕ → Bytes → Text
  | 0, _ => []
  | more + 1, bytes =>
    match bytes.toByteArray.utf8DecodeChar? 0 with
    | some char => char :: lossyFrom more (bytes.drop char.utf8Size)
    | none =>
      if bytes = [] then []
      else '\uFFFD' :: lossyFrom more (bytes.drop (brokenLength bytes))

def lossy (bytes : Bytes) : Text := lossyFrom bytes.length bytes

/-- How a reading that replaces goes through bytes: a character as it is, or one replacement for
up to three bytes that start none. -/
inductive Reads : Bytes → Text → Prop
  | nil : Reads [] []
  | char (char : Char) {rest : Bytes} {text : Text} (later : Reads rest text) :
      Reads (String.utf8EncodeChar char ++ rest) (char :: text)
  | broken {piece rest : Bytes} {text : Text} (filled : piece ≠ []) (short : piece.length ≤ 3)
      (high : ∀ byte ∈ piece, 128 ≤ byte.toNat)
      (other : piece ≠ String.utf8EncodeChar '\uFFFD') (later : Reads rest text) :
      Reads (piece ++ rest) ('\uFFFD' :: text)

theorem length_le_length_encode (text : Text) : text.length ≤ (encode text).length := by
  induction text with
  | nil => exact Nat.zero_le _
  | cons char rest ih =>
    have some := char.utf8Size_pos
    rw [encode_cons, length_append, String.length_utf8EncodeChar, length_cons]
    omega

theorem lossyFrom_encode (enough : text.length ≤ count) :
    lossyFrom count (encode text) = text := by
  induction text generalizing count with
  | nil => cases count <;> rfl
  | cons char rest ih =>
    have read : (encode (char :: rest)).toByteArray.utf8DecodeChar? 0 = some char :=
      utf8DecodeChar?_utf8Encode_cons
    cases count with
    | zero => cases enough
    | succ more =>
      rw [lossyFrom, read]
      dsimp only
      rw [encode_cons, ← String.length_utf8EncodeChar, drop_left,
        ih (Nat.le_of_succ_le_succ enough)]

/-- Nothing is replaced in the bytes of a text. -/
theorem lossy_encode (text : Text) : lossy (encode text) = text :=
  lossyFrom_encode (length_le_length_encode text)

theorem decodeChar_append (char : Char) (rest : Bytes) :
    (String.utf8EncodeChar char ++ rest).toByteArray.utf8DecodeChar? 0 = some char := by
  rw [toByteArray_append]
  exact ByteArray.utf8DecodeChar?_utf8EncodeChar_append

theorem append_of_decodeChar {char : Char}
    (read : bytes.toByteArray.utf8DecodeChar? 0 = some char) :
    bytes = String.utf8EncodeChar char ++ bytes.drop char.utf8Size := by
  obtain ⟨rest, whole⟩ := ByteArray.exists_of_utf8DecodeChar?_eq_some read
  have same : bytes = String.utf8EncodeChar char ++ rest.data.toList := by
    have lists := congrArg (fun array : ByteArray => array.data.toList) whole
    simpa using lists
  nth_rewrite 1 [same]
  rw [same, ← String.length_utf8EncodeChar, drop_left]

theorem utf8EncodeChar_byte (ascii : byte.toNat < 128) :
    String.utf8EncodeChar (Char.ofNat byte.toNat) = [byte] := by
  have same : (Char.ofNat byte.toNat).toNat = byte.toNat := toNat_ofNat (by omega)
  rw [utf8EncodeChar_ascii (by omega), byteOf, same, UInt8.ofNat_toNat]

/-- What one replacement stands for starts no character. -/
theorem brokenLength_piece (unread : bytes.toByteArray.utf8DecodeChar? 0 = none) :
    brokenLength bytes ≤ 3 ∧ ∀ byte ∈ bytes.take (brokenLength bytes), 128 ≤ byte.toNat := by
  have first : ∀ byte rest, bytes = byte :: rest → 128 ≤ byte.toNat := by
    intro byte rest whole
    by_contra ascii
    have read := decodeChar_append (Char.ofNat byte.toNat) rest
    rw [utf8EncodeChar_byte (Nat.not_le.mp ascii), singleton_append, ← whole, unread] at read
    cases read
  have tail {byte : UInt8} (is : isTail byte = true) : 128 ≤ byte.toNat := by
    simp only [isTail, decide_eq_true_eq] at is
    exact is.1
  rcases bytes with _ | ⟨byte, _ | ⟨second, rest⟩⟩
  · exact ⟨by decide, nofun⟩
  · exact ⟨Nat.le_add_left 1 2, by simpa [brokenLength] using first byte [] rfl⟩
  · have start := first byte _ rfl
    rw [brokenLength]
    split_ifs with leading four
    · have next : isTail second = true := by simp_all [leads]
      obtain ⟨third, more, rfl⟩ : ∃ third more, rest = third :: more := by
        cases rest with
        | nil => simp at four
        | cons third more => exact ⟨third, more, rfl⟩
      have last : isTail third = true := by simpa using four.2
      simp [start, tail next, tail last]
    · have next : isTail second = true := by simp_all [leads]
      simp [start, tail next]
    · simp [start]

theorem reads_lossyFrom (enough : bytes.length ≤ count) :
    Reads bytes (lossyFrom count bytes) := by
  induction count generalizing bytes with
  | zero =>
    rw [length_eq_zero_iff.mp (Nat.le_zero.mp enough)]
    exact .nil
  | succ more ih =>
    rw [lossyFrom]
    split
    · next char read =>
      have whole := append_of_decodeChar read
      have size := char.utf8Size_pos
      have later := @ih (bytes.drop char.utf8Size) (by rw [length_drop]; omega)
      nth_rewrite 1 [whole]
      exact .char char later
    · next unread =>
      split_ifs with empty
      · rw [empty]
        exact .nil
      · obtain ⟨short, high⟩ := brokenLength_piece unread
        have some : 0 < brokenLength bytes := by
          unfold brokenLength
          split
          · split_ifs <;> decide
          · decide
        have later := @ih (bytes.drop (brokenLength bytes)) (by rw [length_drop]; omega)
        nth_rewrite 1 [← take_append_drop (brokenLength bytes) bytes]
        refine .broken ?_ (by rw [length_take]; omega) high ?_ later
        · simpa [take_eq_nil_iff, empty] using some.ne'
        intro same
        have read := decodeChar_append '\uFFFD' (bytes.drop (brokenLength bytes))
        rw [← same, take_append_drop, unread] at read
        cases read

theorem reads_lossy (bytes : Bytes) : Reads bytes (lossy bytes) := reads_lossyFrom le_rfl

theorem Reads.ascii {rest : Bytes} (reads : Reads (byte :: rest) text) (ascii : byte.toNat < 128) :
    ∃ text', text = Char.ofNat byte.toNat :: text' ∧ Reads rest text' := by
  generalize whole : byte :: rest = bytes at reads
  cases reads with
  | nil => cases whole
  | @char char rest' text' later =>
    have same := decodeChar_append char rest'
    have own := decodeChar_append (Char.ofNat byte.toNat) rest
    rw [utf8EncodeChar_byte ascii, singleton_append, whole, same, Option.some.injEq] at own
    rw [own, utf8EncodeChar_byte ascii, singleton_append, cons.injEq] at whole
    exact ⟨text', by rw [own], whole.2 ▸ later⟩
  | @broken piece rest' text' filled short high other later =>
    cases piece with
    | nil => exact absurd rfl filled
    | cons first others =>
      cases whole
      have := high byte mem_cons_self
      omega

end QsBitwarden.Lib.Utf8
