import QsBitwarden.Panel.TotpForm

/-! Owns the agreement of the two TOTP generators: both read a key as the same algorithm, digits,
period and secret text, and their codes are the same function of the secret's bytes. The bytes
part where upper case brings ASCII letters out of other characters. -/

namespace QsBitwarden.Panel.Totp

open Lib Lib.JsNumber Lib.Utf8 Lib.Sha List Vault.Totp

/-! ### Numbers -/

/-- A number read on from what is read of it. -/
def numberFrom (read : ℕ) (digits : Text) : ℕ :=
  digits.foldl (fun value char => value * 10 + (char.toNat - 48)) read

theorem le_numberFrom (read : ℕ) (digits : Text) : read ≤ numberFrom read digits := by
  unfold numberFrom
  induction digits generalizing read with
  | nil => exact le_rfl
  | cons char rest ih =>
    rw [foldl_cons]
    exact Nat.le_trans (by omega) (ih _)

/-- Stopping at an overflow is looking at the whole number in the end. -/
theorem foldlM_readDigit (read : ℕ) (digits : Text) (small : read < 2 ^ 32) :
    digits.foldlM readDigit read =
      if digits.all isAsciiDigit ∧ numberFrom read digits < 2 ^ 32 then
        some (numberFrom read digits) else none := by
  induction digits generalizing read with
  | nil =>
    rw [if_pos ⟨rfl, small⟩]
    rfl
  | cons char rest ih =>
    rw [foldlM_cons, all_cons, readDigit]
    have step : numberFrom read (char :: rest) =
        numberFrom (read * 10 + (char.toNat - 48)) rest := rfl
    cases digit : isAsciiDigit char with
    | false => simp
    | true =>
      rw [if_pos rfl, Bool.true_and, step]
      dsimp only
      by_cases fits : read * 10 + (char.toNat - 48) < 2 ^ 32
      · rw [if_pos fits]
        exact ih _ fits
      · have large := le_numberFrom (read * 10 + (char.toNat - 48)) rest
        rw [if_neg fits, if_neg (by omega)]
        rfl

theorem parseU32_eq (value : Option Text) : parseU32 value = value.bind Vault.Totp.parseU32 := by
  cases value with
  | none => rfl
  | some text =>
    rw [parseU32, Option.bind_some, Option.bind_some]
    unfold unsignedDigits Vault.Totp.parseU32
    dsimp only
    rw [foldlM_readDigit 0 _ (by decide)]
    by_cases empty : withoutPlus text = []
    · rw [if_pos empty, if_neg (fun filled => filled.1 empty)]
    · rw [if_neg empty]
      cases digits : (withoutPlus text).all isAsciiDigit with
      | false => simp
      | true =>
        rw [if_pos ⟨empty, rfl⟩]
        dsimp only
        have bound : numberOf (withoutPlus text) ≤ 4294967295 ↔
            numberFrom 0 (withoutPlus text) < 2 ^ 32 := Nat.lt_succ_iff.symm
        simp only [bound, true_and]
        rfl

/-! ### Queries -/

/-- The panel's values as the helper keeps them. -/
def foundOf (parts : Parts) : Vault.Totp.Found :=
  ⟨parts "secret".toList, parts "algorithm".toList, parts "digits".toList, parts "period".toList⟩

theorem foundOf_put (parts : Parts) (name value : Text) :
    foundOf (fun other => if other = name then some value else parts other) =
      (foundOf parts).put name value := by
  unfold Vault.Totp.Found.put
  split_ifs with secret algorithm digits period
  · subst secret
    rfl
  · subst algorithm
    rfl
  · subst digits
    rfl
  · subst period
    rfl
  · unfold foundOf
    dsimp only
    rw [if_neg (Ne.symm secret), if_neg (Ne.symm algorithm), if_neg (Ne.symm digits),
      if_neg (Ne.symm period)]

theorem isAscii_upTo {text : Text} (ascii : IsAscii text) (mark : Char) :
    IsAscii (upTo mark text) :=
  fun char mem => ascii char ((takeWhile_sublist _).mem mem)

theorem isAscii_past {text : Text} (ascii : IsAscii text) (mark : Char) :
    IsAscii (past mark text) :=
  fun char mem => ascii char ((dropWhile_sublist _).mem (mem_of_mem_drop mem))

variable {char : Char}

theorem mem_intercalate {mark piece : Text} {pieces : List Text}
    (mem : piece ∈ pieces) (inside : char ∈ piece) : char ∈ mark.intercalate pieces := by
  induction pieces with
  | nil => cases mem
  | cons first rest ih =>
    cases rest with
    | nil =>
      rw [mem_singleton] at mem
      rw [intercalate_singleton, ← mem]
      exact inside
    | cons second rest =>
      rw [intercalate_cons_cons, append_assoc]
      rcases mem_cons.mp mem with rfl | later
      · exact mem_append_left _ inside
      · exact mem_append_right _ (mem_append_right _ (ih later))

theorem isAscii_splitOn {text : Text} (ascii : IsAscii text) (mark : Char) :
    ∀ piece ∈ text.splitOn mark, IsAscii piece := by
  intro piece mem char inside
  apply ascii
  have whole : [mark].intercalate (text.splitOn mark) = text := intercalate_splitOn mark
  rw [← whole]
  exact mem_intercalate mem inside

theorem readPair_eq (parts : Parts) {pair : Text} (filled : pair ≠ []) (ascii : IsAscii pair) :
    (foundOf parts).readPair pair = (parts.readPair pair).map foundOf := by
  unfold Vault.Totp.Found.readPair Parts.readPair
  rw [if_neg filled, formDecode_eq (isAscii_upTo ascii '='), formDecode_eq (isAscii_past ascii '=')]
  cases Vault.Totp.formDecode (upTo '=' pair) with
  | none => rfl
  | some name =>
    cases Vault.Totp.formDecode (past '=' pair) with
    | none => rfl
    | some value => exact congrArg some (foundOf_put parts name value).symm

/-- The empty pairs passed over, both loops end with the same values. -/
theorem foldlM_readPair {pairs : List Text} (ascii : ∀ pair ∈ pairs, IsAscii pair)
    (parts : Parts) :
    (pairs.filter (!·.isEmpty)).foldlM Vault.Totp.Found.readPair (foundOf parts) =
      (pairs.foldlM Parts.readPair parts).map foundOf := by
  induction pairs generalizing parts with
  | nil => rfl
  | cons pair rest ih =>
    have others := ih fun other mem => ascii other (by simp [mem])
    cases pair with
    | nil => exact others parts
    | cons char tail =>
      have read := readPair_eq parts (cons_ne_nil char tail) (ascii _ (by simp))
      rw [filter_cons_of_pos rfl, foldlM_cons, foldlM_cons, read]
      cases parts.readPair (char :: tail) with
      | none => rfl
      | some next => exact others next

/-! ### Keys -/

/-- What a key says, its secret still as a text. -/
structure Reading where
  algorithm : Vault.Totp.Algorithm
  digits : ℕ
  period : ℕ
  secret : Text
  deriving DecidableEq

/-- What the values of a query say; a missing secret, SHA-512 and digits below 1 or above 9 are
refused. -/
def Reading.ofFound (found : Vault.Totp.Found) : Option Reading :=
  found.secret.bind fun secret =>
    let digits := Vault.Totp.digitsOf found.digits
    if found.algorithm = some "sha512".toList ∨ digits < 1 ∨ 9 < digits then none
    else
      some ⟨if found.algorithm = some "sha256".toList then .sha256 else .sha1, digits,
        Vault.Totp.periodOf found.period, secret⟩

/-- An address of a host without a port, without blanks, whose query is well formed. -/
def readAddress (address : Text) : Option Reading :=
  if (upTo '/' (upTo '?' address)).all Vault.Totp.isHostByte ∧
      ¬ address.any Vault.Totp.isBlankByte then
    ((((past '?' address).splitOn '&').filter (!·.isEmpty)).foldlM Vault.Totp.Found.readPair
      ⟨none, none, none, none⟩).bind Reading.ofFound
  else none

def readKey (key : Text) : Option Reading :=
  let lower := key.map Char.toLower
  if key = [] ∨ !key.all (·.toNat < 128) then none
  else if "otpauth://".toList.isPrefixOf lower then readAddress (upTo '#' (lower.drop 10))
  else if "steam://".toList.isPrefixOf lower then some ⟨.steam, 5, 30, lower.drop 8⟩
  else some ⟨.sha1, 6, 30, lower⟩

/-- The helper's parameters for a reading. -/
def Reading.forHelper (reading : Reading) (secret : Bytes) : Vault.Totp.Params :=
  ⟨reading.algorithm, reading.digits, reading.period, secret⟩

def panelAlgorithm : Vault.Totp.Algorithm → Algorithm
  | .sha1 => .sha1
  | .sha256 => .sha256
  | .steam => .steam

def Reading.forPanel (reading : Reading) (secret : List ℤ) : Params :=
  ⟨panelAlgorithm reading.algorithm, reading.digits, reading.period, secret⟩

/-! The helper's reader. -/

theorem found_params_eq (found : Vault.Totp.Found) : found.params =
    (Reading.ofFound found).map fun reading =>
      reading.forHelper (Vault.Totp.base32 reading.secret) := by
  unfold Vault.Totp.Found.params Reading.ofFound Vault.Totp.algorithmOf
  cases found.secret with
  | none => rfl
  | some secret =>
    simp only [Option.bind_some]
    by_cases long : found.algorithm = some "sha512".toList
    · have other : some "sha512".toList ≠ some "sha256".toList := by decide
      rw [long, if_neg other, if_pos rfl, if_pos (.inl rfl)]
      rfl
    · by_cases few : Vault.Totp.digitsOf found.digits < 1 ∨ 9 < Vault.Totp.digitsOf found.digits
      · simp only [if_pos few, if_pos (Or.inr few), if_neg long]
        split_ifs <;> rfl
      · simp only [if_neg few, if_neg (not_or.mpr ⟨long, few⟩), if_neg long]
        split_ifs <;> rfl

theorem helper_parseOtpauth_eq (rest : Text) : Vault.Totp.parseOtpauth rest =
    (readAddress (upTo '#' rest)).map fun reading =>
      reading.forHelper (Vault.Totp.base32 reading.secret) := by
  unfold Vault.Totp.parseOtpauth readAddress
  dsimp only
  cases host : (upTo '/' (upTo '?' (upTo '#' rest))).all Vault.Totp.isHostByte with
  | false => simp
  | true =>
    cases blank : (upTo '#' rest).any Vault.Totp.isBlankByte with
    | true => simp
    | false =>
      rw [if_neg (by decide), if_neg (by decide), if_pos ⟨rfl, by decide⟩]
      cases List.foldlM Vault.Totp.Found.readPair ⟨none, none, none, none⟩ _ with
      | none => rfl
      | some found => exact found_params_eq found

theorem helper_parseKey_eq (key : Text) : Vault.Totp.parseKey key =
    (readKey key).map fun reading => reading.forHelper (Vault.Totp.base32 reading.secret) := by
  unfold Vault.Totp.parseKey readKey
  dsimp only
  split_ifs with refused address steam
  · rfl
  · rw [Vault.Totp.strip, if_pos address]
    exact helper_parseOtpauth_eq _
  · rw [Vault.Totp.strip, if_neg address, Vault.Totp.strip, if_pos steam]
    rfl
  · rw [Vault.Totp.strip, if_neg address, Vault.Totp.strip, if_neg steam]
    rfl

/-! The panel's reader. -/

theorem digitsOf_eq (value : Option Text) : digitsOf value = Vault.Totp.digitsOf value := by
  rw [digitsOf, parseU32_eq]
  rfl

theorem periodOf_eq (value : Option Text) : periodOf value = Vault.Totp.periodOf value := by
  rw [periodOf, parseU32_eq]
  rfl

theorem parts_params_eq (parts : Parts) : parts.params =
    (Reading.ofFound (foundOf parts)).map fun reading =>
      reading.forPanel (decodeBase32 reading.secret) := by
  unfold Parts.params Reading.ofFound foundOf
  cases parts "secret".toList with
  | none => rfl
  | some secret =>
    dsimp only
    rw [Option.bind_some, digitsOf_eq, periodOf_eq]
    by_cases long : parts "algorithm".toList = some "sha512".toList
    · rw [if_pos long, if_pos (.inl long)]
      rfl
    · rw [if_neg long]
      by_cases few : Vault.Totp.digitsOf (parts "digits".toList) < 1 ∨
        9 < Vault.Totp.digitsOf (parts "digits".toList)
      · rw [if_pos few, if_pos (.inr few)]
        rfl
      · rw [if_neg few, if_neg (not_or.mpr ⟨long, few⟩)]
        split_ifs <;> rfl

theorem isHostChar_eq : isHostChar = Vault.Totp.isHostByte := rfl

theorem isBlankChar_eq : isBlankChar = Vault.Totp.isBlankByte := by
  funext char
  unfold isBlankChar Vault.Totp.isBlankByte
  dsimp only
  rw [decide_eq_decide]
  omega

theorem parseOtpauth_eq {k : Text} (ascii : IsAscii k) : parseOtpauth k =
    (readAddress (upTo '#' (k.drop 10))).map fun reading =>
      reading.forPanel (decodeBase32 reading.secret) := by
  have rest_ascii : IsAscii (upTo '#' (k.drop 10)) :=
    isAscii_upTo (fun char mem => ascii char (mem_of_mem_drop mem)) '#'
  have pairs := foldlM_readPair (isAscii_splitOn (isAscii_past rest_ascii '?') '&') fun _ => none
  have start : foundOf (fun _ => none) = ⟨none, none, none, none⟩ := rfl
  have dropped : "otpauth://".toList.length = 10 := rfl
  unfold parseOtpauth readAddress
  dsimp only
  rw [isHostChar_eq, isBlankChar_eq, dropped, ← start, pairs]
  cases host : (upTo '/' (upTo '?' (upTo '#' (k.drop 10)))).all Vault.Totp.isHostByte with
  | false => simp
  | true =>
    cases blank : (upTo '#' (k.drop 10)).any Vault.Totp.isBlankByte with
    | true => simp
    | false =>
      rw [if_neg (by decide), if_neg (by decide), if_pos ⟨rfl, by decide⟩]
      cases List.foldlM Parts.readPair (fun _ => none) _ with
      | none => rfl
      | some parts => exact parts_params_eq parts

theorem isAscii_toLower {key : Text} (ascii : IsAscii key) : IsAscii (key.map Char.toLower) := by
  intro char mem
  obtain ⟨before, inside, rfl⟩ := mem_map.mp mem
  have small := ascii before inside
  unfold Char.toLower
  split_ifs with upper
  · have bound : before.val.toNat ≤ 90 := UInt32.le_iff_toNat_le.mp upper.2
    show (before.val + ('a'.val - 'A'.val)).toNat < 128
    have shift : ('a'.val - 'A'.val).toNat = 32 := rfl
    rw [UInt32.toNat_add, shift]
    omega
  · exact small

theorem parseKey_eq (key : Text) : parseKey key =
    (readKey key).map fun reading => reading.forPanel (decodeBase32 reading.secret) := by
  have refused_iff : (key = [] ∨ key.any (128 ≤ ·.toNat) = true) ↔
      (key = [] ∨ (!key.all (·.toNat < 128)) = true) := by
    rw [not_all_eq_any_not]
    simp
  unfold parseKey readKey
  dsimp only
  rw [if_congr refused_iff rfl rfl]
  split_ifs with refused address steam
  · rfl
  · apply parseOtpauth_eq
    apply isAscii_toLower
    intro char mem
    rw [not_or, Bool.not_eq_true, Bool.not_eq_false', all_eq_true] at refused
    exact of_decide_eq_true (refused.2 char mem)
  · rfl
  · rfl

/-! ### Secrets -/

/-- The panel's state for a state of the helper. -/
def bitsOf (state : Vault.Totp.Bits) : Bits := ⟨state.buffer, state.bits, ofBytes state.out⟩

/-- A byte of the buffer. -/
theorem pushed_byte {buffer : ℕ} (small : buffer < 2 ^ 16) (count : ℕ) :
    bitAnd (shiftRight buffer count) 0xff = ((UInt8.ofNat (buffer >>> count)).toNat : ℤ) := by
  rw [bitAnd_shiftRight, word_natCast, BitVec.toNat_ofNat, Nat.mod_eq_of_lt (by omega),
    Nat.shiftRight_eq_div_pow]

/-- Five bits moved into the buffer. -/
theorem moved_bits (buffer index : ℕ) :
    bitAnd (bitOr (shiftLeft buffer 5) index) 0xffff =
      ((buffer <<< 5 ||| index) &&& 0xffff : ℕ) := by
  have masked := bitAnd_mask (bitOr (shiftLeft buffer 5) index) (by decide : 16 < 32)
  have dvd : 2 ^ 16 ∣ 2 ^ 32 := Nat.pow_dvd_pow 2 (by decide)
  have exact : (buffer <<< 5 ||| index) &&& 0xffff = (buffer <<< 5 ||| index) % 2 ^ 16 :=
    Nat.and_two_pow_sub_one_eq_mod _ 16
  rw [word_bitOr, word_shiftLeft, word_natCast, word_natCast, BitVec.toNat_or,
    BitVec.toNat_shiftLeft, BitVec.toNat_ofNat, BitVec.toNat_ofNat, Nat.or_mod_two_pow,
    Nat.mod_mod_of_dvd _ dvd, Nat.mod_mod_of_dvd _ dvd] at masked
  rw [exact, Nat.or_mod_two_pow]
  refine masked.trans ?_
  congr 2
  rw [Nat.shiftLeft_eq, Nat.shiftLeft_eq]
  omega

theorem bitsOf_push {state : Vault.Totp.Bits} {index : ℕ}
    (found : base32Chars.findIdx? (· = char) = some index) :
    (bitsOf state).read char = bitsOf (state.push index) := by
  have small : (state.buffer <<< 5 ||| index) &&& 0xffff < 2 ^ 16 :=
    Nat.and_lt_two_pow _ (by decide)
  unfold Bits.read
  rw [found]
  unfold Vault.Totp.Bits.push bitsOf
  dsimp only
  rw [moved_bits, pushed_byte small]
  split_ifs
  · rw [ofBytes_append]
    rfl
  · rfl

/-- The value of a letter, in either case. -/
def letterValue (char : Char) : Option ℕ := base32Chars.findIdx? (· = char.toUpper)

/-- The values of what is read; other characters are passed over. -/
def letterValues (text : Text) : List ℕ := text.filterMap letterValue

theorem letterValues_append (front back : Text) :
    letterValues (front ++ back) = letterValues front ++ letterValues back := filterMap_append

theorem toUpper_of_high (high : 128 ≤ char.toNat) : char.toUpper = char := by
  have large : ¬ (char.val ≥ 'a'.val ∧ char.val ≤ 'z'.val) := by
    rintro ⟨-, le⟩
    have small : char.toNat ≤ 122 := UInt32.le_iff_toNat_le.mp le
    omega
  exact dif_neg large

theorem letters_ascii : ∀ code < 128,
    (Char.ofNat code).toUpper.toUpper = (Char.ofNat code).toUpper ∧
      letterIndex (byteOf (Char.ofNat code)) = letterValue (Char.ofNat code) := by
  decide +kernel

theorem letterIndex_high : ∀ code < 256, 128 ≤ code →
    letterIndex (UInt8.ofNat code) = none := by
  decide +kernel

theorem toUpper_toUpper (char : Char) : char.toUpper.toUpper = char.toUpper := by
  by_cases ascii : char.toNat < 128
  · have letters := (letters_ascii char.toNat ascii).1
    rwa [Char.ofNat_toNat] at letters
  · rw [toUpper_of_high (Nat.not_lt.mp ascii), toUpper_of_high (Nat.not_lt.mp ascii)]

theorem letterValue_toUpper (char : Char) : letterValue char.toUpper = letterValue char := by
  rw [letterValue, toUpper_toUpper, letterValue]

/-- A letter is one byte; the bytes of other characters are passed over. -/
theorem letterIndex_utf8EncodeChar (char : Char) :
    (String.utf8EncodeChar char).filterMap letterIndex = letterValues [char] := by
  unfold letterValues
  by_cases ascii : char.toNat < 128
  · have letters := (letters_ascii char.toNat ascii).2
    rw [Char.ofNat_toNat] at letters
    rw [utf8EncodeChar_ascii ascii, filterMap_cons, filterMap_cons, letters]
    rfl
  · have high := Nat.not_lt.mp ascii
    have missing : letterValue char = none := by
      rw [letterValue, findIdx?_eq_none_iff, toUpper_of_high high]
      intro letter mem
      have small : ∀ letter ∈ base32Chars, letter.toNat < 128 := forall_mem_of_all (by decide)
      rw [decide_eq_false_iff_not]
      rintro rfl
      exact ascii (small letter mem)
    have passed : ∀ byte ∈ String.utf8EncodeChar char, letterIndex byte = none := by
      intro byte mem
      have none := letterIndex_high byte.toNat byte.toNat_lt (high_of_mem_utf8EncodeChar high mem)
      rwa [UInt8.ofNat_toNat] at none
    rw [filterMap_eq_nil_iff.mpr passed, filterMap_cons, missing]
    rfl

theorem letterIndex_encode (text : Text) :
    (Utf8.encode text).filterMap letterIndex = letterValues text := by
  induction text with
  | nil => rfl
  | cons char rest ih =>
    rw [encode_cons, filterMap_append, letterIndex_utf8EncodeChar, ih, ← letterValues_append,
      singleton_append]

/-- The helper's loop over the values alone. -/
def pushAll (values : List ℕ) : Vault.Totp.Bits := values.foldl Vault.Totp.Bits.push ⟨0, 0, []⟩

theorem foldl_read_encode (text : Text) :
    (Utf8.encode text).foldl Vault.Totp.Bits.read ⟨0, 0, []⟩ = pushAll (letterValues text) := by
  rw [pushAll, ← letterIndex_encode, foldl_filterMap]
  congr
  funext state byte
  rw [Vault.Totp.Bits.read]
  cases letterIndex byte <;> rfl

theorem toUpper_of_mem_upperCase {upper : Char} (mem : upper ∈ upperCase char) :
    upper.toUpper = upper := by
  unfold upperCase at mem
  split_ifs at mem with ascii
  · rw [mem_singleton.mp mem]
    exact toUpper_toUpper char
  · split at mem <;>
      simp only [mem_cons, not_mem_nil, or_false, or_self] at mem <;>
      rcases mem with rfl | rfl | rfl <;> first | rfl | exact toUpper_of_high (by omega)

/-- The panel reads the secret in upper case as the helper would read it. -/
theorem foldl_read_upperCase (secret : Text) :
    (secret.flatMap upperCase).foldl Bits.read ⟨0, 0, []⟩ =
      bitsOf (pushAll (letterValues (secret.flatMap upperCase))) := by
  have all (text : Text) (upper : ∀ char ∈ text, char.toUpper = char) (state : Vault.Totp.Bits) :
      text.foldl Bits.read (bitsOf state) =
        bitsOf ((letterValues text).foldl Vault.Totp.Bits.push state) := by
    induction text generalizing state with
    | nil => rfl
    | cons char rest ih =>
      have others := ih fun other mem => upper other (by simp [mem])
      rw [foldl_cons, letterValues, filterMap_cons, letterValue, upper char (by simp)]
      cases found : base32Chars.findIdx? (· = char) with
      | none =>
        rw [Bits.read, found]
        exact others state
      | some index =>
        rw [bitsOf_push found]
        exact others _
  refine all _ ?_ ⟨0, 0, []⟩
  intro char mem
  obtain ⟨before, -, inside⟩ := mem_flatMap.mp mem
  exact toUpper_of_mem_upperCase inside

theorem decodeBase32_eq (secret : Text) :
    decodeBase32 secret = ofBytes (Vault.Totp.base32 (secret.flatMap upperCase)) := by
  rw [decodeBase32, foldl_read_upperCase, Vault.Totp.base32, foldl_read_encode]
  rfl

/-! ### Codes -/

theorem bitAnd_byte (byte : UInt8) {mask count : ℕ} (ones : mask = 2 ^ count - 1)
    (small : count < 32) : bitAnd (byte.toNat : ℤ) (mask : ℤ) = (byte.toNat &&& mask : ℕ) := by
  have below : byte.toNat < 2 ^ 32 := Nat.lt_trans byte.toNat_lt (by decide)
  rw [ones, bitAnd_mask _ small, word_natCast, BitVec.toNat_ofNat, Nat.mod_eq_of_lt below,
    Nat.and_two_pow_sub_one_eq_mod]

theorem shiftLeft_byte (byte : UInt8) {count : ℕ} (small : count ≤ 16) :
    shiftLeft (byte.toNat : ℤ) count = (byte.toNat <<< count : ℕ) := by
  have power : 2 ^ count ≤ 2 ^ 16 := Nat.pow_le_pow_right (by decide) small
  have below : byte.toNat * 2 ^ count < 2 ^ 31 := by
    calc byte.toNat * 2 ^ count ≤ 255 * 2 ^ 16 :=
          Nat.mul_le_mul (Nat.le_of_lt_succ byte.toNat_lt) power
      _ < 2 ^ 31 := by decide
  have value : (word (byte.toNat : ℤ) <<< count).toNat = byte.toNat * 2 ^ count := by
    rw [word_natCast, BitVec.toNat_shiftLeft, BitVec.toNat_ofNat, Nat.shiftLeft_eq,
      Nat.mod_eq_of_lt (Nat.lt_trans byte.toNat_lt (by decide)), Nat.mod_eq_of_lt (by omega)]
  rw [shiftLeft, BitVec.toInt_eq_toNat_of_lt (by rw [value]; omega), value, Nat.shiftLeft_eq]

/-- Four bytes put together by shifting are their sum. -/
theorem or_eq_sum {a b c d : ℕ} (small : b < 256 ∧ c < 256 ∧ d < 256) :
    a <<< 24 ||| b <<< 16 ||| c <<< 8 ||| d = a * 16777216 + b * 65536 + c * 256 + d := by
  have first : a <<< 24 ||| b <<< 16 = (a * 256 + b) <<< 16 := by
    rw [← Nat.shiftLeft_add_eq_or_of_lt (by rw [Nat.shiftLeft_eq]; omega)]
    simp only [Nat.shiftLeft_eq]
    omega
  have second : (a * 256 + b) <<< 16 ||| c <<< 8 = ((a * 256 + b) * 256 + c) <<< 8 := by
    rw [← Nat.shiftLeft_add_eq_or_of_lt (by rw [Nat.shiftLeft_eq]; omega)]
    simp only [Nat.shiftLeft_eq]
    omega
  rw [first, second, ← Nat.shiftLeft_add_eq_or_of_lt (by omega), Nat.shiftLeft_eq]
  omega

theorem binaryOf_eq (hash : Bytes) :
    binaryOf (ofBytes hash) = (Vault.Totp.binaryOf hash : ℤ) ∧
      Vault.Totp.binaryOf hash < 2 ^ 31 := by
  have offset : (bitAnd (element (ofBytes hash) ((ofBytes hash).length - 1)) 15).toNat =
      (hash.getD (List.length hash - 1) 0).toNat &&& 15 := by
    have number : (15 : ℤ) = (15 : ℕ) := rfl
    have ones : 15 = 2 ^ 4 - 1 := rfl
    rw [element_ofBytes, length_ofBytes, number, bitAnd_byte _ ones (by decide), Int.toNat_natCast]
  have top (byte : UInt8) : bitAnd (byte.toNat : ℤ) 127 = (byte.toNat &&& 127 : ℕ) := by
    have number : (127 : ℤ) = (127 : ℕ) := rfl
    have ones : 127 = 2 ^ 7 - 1 := rfl
    rw [number, bitAnd_byte byte ones (by decide)]
  have half (byte : UInt8) : byte.toNat &&& 127 < 2 ^ 7 := Nat.and_lt_two_pow _ (by decide)
  unfold binaryOf Vault.Totp.binaryOf
  dsimp only
  rw [offset]
  generalize (hash.getD (List.length hash - 1) 0).toNat &&& 15 = start
  rw [element_ofBytes, element_ofBytes, element_ofBytes, element_ofBytes, top,
    shiftLeft_byte _ (by decide), shiftLeft_byte _ (by decide)]
  have high := half (hash.getD start 0)
  have second := (hash.getD (start + 1) 0).toNat_lt
  have third := (hash.getD (start + 2) 0).toNat_lt
  have fourth := (hash.getD (start + 3) 0).toNat_lt
  rw [or_eq_sum ⟨second, third, fourth⟩, Nat.shiftLeft_eq, Nat.shiftLeft_eq]
  constructor
  · push_cast
    ring
  · omega

theorem steamCode_eq (digits : ℕ) {full : ℕ} (small : full < 2 ^ 53) :
    steamCode digits full = Vault.Totp.steamCode digits full := by
  induction digits generalizing full with
  | zero => rfl
  | succ digits ih =>
    have below : full / 26 < 2 ^ 53 := Nat.lt_of_le_of_lt (Nat.div_le_self full 26) small
    rw [steamCode, Vault.Totp.steamCode, floorQuotient_eq small (by decide),
      ih below]
    rfl

theorem prependZeros_eq {digits more : ℕ} {otp : Text} (enough : digits ≤ otp.length + more) :
    prependZeros digits more otp = otp.leftpad digits '0' := by
  induction more generalizing otp with
  | zero =>
    rw [Nat.add_zero] at enough
    rw [prependZeros, List.leftpad, Nat.sub_eq_zero_of_le enough]
    rfl
  | succ more ih =>
    rw [prependZeros]
    split_ifs with short
    · have one : digits - otp.length = digits - (otp.length + 1) + 1 := by omega
      rw [ih (by rw [length_cons]; omega), List.leftpad, List.leftpad,
        length_cons, one, replicate_succ', append_assoc]
      rfl
    · rw [List.leftpad, Nat.sub_eq_zero_of_le (Nat.not_lt.mp short)]
      rfl

theorem time_eq (counter : ℕ) :
    pushedBytes (counter / 4294967296 : ℕ) ++ pushedBytes (counter % 4294967296 : ℕ) =
      ofBytes (bigEndian 8 counter) := by
  have low : bigEndian 4 (counter % 4294967296) = bigEndian 4 counter := by
    unfold bigEndian
    apply map_congr_left
    intro place mem
    rw [mem_reverse, mem_range] at mem
    apply UInt8.toNat_inj.mp
    rw [UInt8.toNat_ofNat', UInt8.toNat_ofNat']
    interval_cases place <;> omega
  rw [pushedBytes_eq, pushedBytes_eq, low, ← ofBytes_append, ← bigEndian_eight]

theorem hmac_ofBytes_hashOf (algorithm : Vault.Totp.Algorithm) (secret time : Bytes) :
    hmac (if panelAlgorithm algorithm = .sha256 then sha256 else sha1) (ofBytes secret)
      (ofBytes time) = ofBytes (hashOf algorithm secret time) := by
  have short1 (message : Bytes) : (Sha.sha1 message).length ≤ 64 := by
    rw [length_sha1]
    decide
  have short256 (message : Bytes) : (Sha.sha256 message).length ≤ 64 := by
    rw [length_sha256]
    decide
  cases algorithm with
  | sha1 => exact hmac_ofBytes sha1_ofBytes short1 secret time
  | sha256 => exact hmac_ofBytes sha256_ofBytes short256 secret time
  | steam => exact hmac_ofBytes sha1_ofBytes short1 secret time

/-- On the same secret bytes both give the same code. -/
theorem deriveOtp_eq (reading : Reading) (secret : Bytes) (counter : ℕ) :
    deriveOtp (reading.forPanel (ofBytes secret)) counter =
      derive (reading.forHelper secret) counter := by
  have steam : panelAlgorithm reading.algorithm = .steam ↔ reading.algorithm = .steam := by
    cases reading.algorithm <;> decide
  have hash := hmac_ofBytes_hashOf reading.algorithm secret (bigEndian 8 counter)
  unfold deriveOtp derive Reading.forPanel Reading.forHelper
  dsimp only
  rw [time_eq, hash, if_congr steam rfl rfl]
  generalize hashOf reading.algorithm secret (bigEndian 8 counter) = value
  obtain ⟨same, small⟩ := binaryOf_eq value
  rw [same, Int.toNat_natCast]
  split_ifs
  · exact steamCode_eq _ (by omega)
  · exact prependZeros_eq (Nat.le_add_left _ _)

/-! ### Agreement -/

theorem period_pos {key : Text} {reading : Reading} (read : readKey key = some reading) :
    0 < reading.period := by
  have default (value : Option Text) : 0 < Vault.Totp.periodOf value := by
    unfold Vault.Totp.periodOf
    cases value.bind Vault.Totp.parseU32 with
    | none => decide
    | some number => exact Nat.le_max_right number 1
  unfold readKey at read
  dsimp only at read
  split_ifs at read
  · unfold readAddress at read
    split_ifs at read
    obtain ⟨found, -, fields⟩ := Option.bind_eq_some_iff.mp read
    unfold Reading.ofFound at fields
    obtain ⟨secret, -, whole⟩ := Option.bind_eq_some_iff.mp fields
    dsimp only at whole
    split_ifs at whole <;>
    · cases whole
      exact default found.period
  · cases read
    exact Nat.succ_pos 29
  · cases read
    exact Nat.succ_pos 29

/-- The secret has the same bytes read as it is and read in upper case. -/
def SameBytes (secret : Text) : Prop :=
  Vault.Totp.base32 (secret.flatMap upperCase) = Vault.Totp.base32 secret

instance (secret : Text) : Decidable (SameBytes secret) := inferInstanceAs (Decidable (_ = _))

/-- A secret without a character outside of ASCII that has ASCII letters in upper case. -/
def Plain (secret : Text) : Prop := ∀ char ∈ secret, 128 ≤ char.toNat → upperCase char = [char]

theorem letterValues_upperCase {secret : Text} (plain : Plain secret) :
    letterValues (secret.flatMap upperCase) = letterValues secret := by
  induction secret with
  | nil => rfl
  | cons char rest ih =>
    have one : letterValues (upperCase char) = letterValues [char] := by
      by_cases ascii : char.toNat < 128
      · rw [upperCase, if_pos ascii, letterValues, filterMap_cons, letterValue_toUpper]
        rfl
      · rw [plain char (by simp) (Nat.not_lt.mp ascii)]
    have others := ih fun other mem => plain other (by simp [mem])
    rw [flatMap_cons, letterValues_append, one, others, ← letterValues_append, singleton_append]

theorem Plain.sameBytes {secret : Text} (plain : Plain secret) : SameBytes secret := by
  rw [SameBytes, Vault.Totp.base32, foldl_read_encode, letterValues_upperCase plain,
    Vault.Totp.base32, foldl_read_encode]

/-- The helper and the panel answer alike, at every time, for every key whose secret has the same
bytes in upper case; so for every key whose secret has no letters to gain. -/
theorem totp_generators_agree (key : Text) :
    ((∀ reading, readKey key = some reading → SameBytes reading.secret) →
        ∀ t < 2 ^ 50, Vault.Totp.generate key (t / 1000) = generate key t) ∧
      ∀ reading, readKey key = some reading → Plain reading.secret → SameBytes reading.secret := by
  refine ⟨fun same t exact_ms => ?_, fun _ _ => Plain.sameBytes⟩
  unfold Vault.Totp.generate generate
  rw [helper_parseKey_eq, parseKey_eq]
  cases read : readKey key with
  | none => rfl
  | some reading =>
    have positive := period_pos read
    have seconds : t / 1000 < 2 ^ 53 := by omega
    have counter : floorQuotient (floorQuotient t 1000) reading.period =
        t / 1000 / reading.period := by
      have whole : floorQuotient t 1000 = t / 1000 := floorQuotient_eq (by omega) (by decide)
      rw [whole, floorQuotient_eq seconds positive]
    have helper : (reading.forHelper (Vault.Totp.base32 reading.secret)).period =
      reading.period := rfl
    have panel : (reading.forPanel (decodeBase32 reading.secret)).period =
      reading.period := rfl
    simp only [Option.map_some, helper, panel, counter]
    rw [decodeBase32_eq, deriveOtp_eq, same reading read]

theorem totp_generators_agree_rfc :
    Vault.Totp.generate "otpauth://totp/x?secret=GEZDGNBVGY3TQOJQGEZDGNBVGY3TQOJQ".toList 59 =
      generate "otpauth://totp/x?secret=GEZDGNBVGY3TQOJQGEZDGNBVGY3TQOJQ".toList 59000 := by
  have read : readKey "otpauth://totp/x?secret=GEZDGNBVGY3TQOJQGEZDGNBVGY3TQOJQ".toList =
      some ⟨.sha1, 6, 30, "gezdgnbvgy3tqojqgezdgnbvgy3tqojq".toList⟩ := by
    decide +kernel
  obtain ⟨agree, plain⟩ := totp_generators_agree
    "otpauth://totp/x?secret=GEZDGNBVGY3TQOJQGEZDGNBVGY3TQOJQ".toList
  refine agree (fun reading same => plain reading same ?_) 59000 (by decide)
  rw [read, Option.some.injEq] at same
  rw [← same]
  exact forall_mem_of_all (by decide)

/-- The bytes need not be the same: HMAC takes a zero byte more for padding. -/
example : ¬ SameBytes ['\u1E9A', '\u1E9A'] ∧
    Vault.Totp.generate "otpauth://totp/x?secret=%e1%ba%9a%e1%ba%9a".toList 59 =
      generate "otpauth://totp/x?secret=%e1%ba%9a%e1%ba%9a".toList 59000 := by
  decide +kernel

/-- A sharp s in the secret is two letters for the panel and nothing for the helper. -/
theorem totp_generators_differ :
    Vault.Totp.generate "otpauth://totp/x?secret=%c3%9f".toList 59 =
        some ("812658".toList, 30) ∧
      generate "otpauth://totp/x?secret=%c3%9f".toList 59000 = some ("113747".toList, 30) := by
  decide +kernel

end QsBitwarden.Panel.Totp
