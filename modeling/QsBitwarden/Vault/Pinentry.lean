import QsBitwarden.Lib.Replace
import QsBitwarden.Lib.Utf8
import QsBitwarden.Vault.Helper
import QsBitwarden.Vault.Streams

/-! Owns the way of a typed secret from pinentry's lines through the panel's script
(`PINENTRY_SCRIPT` in `BitwardenModel.js`) and the helper's reading of its output to the store.
It does not own the prompts, nor the store itself. -/

namespace QsBitwarden.Vault

open Lib List Utf8
open Option (bind_eq_some_iff map_eq_some_iff)

/-! ### The script -/

/-- `PINENTRY_EXIT`. -/
def exitCancelled : ℤ := 1
def exitEmpty : ℤ := 3
def exitFailed : ℤ := 4
def exitShort : ℤ := 5

/-- `D `, `OK` and `ERR`. -/
def dataMark : Bytes := [68, 32]
def okWord : Bytes := [79, 75]
def errWord : Bytes := [69, 82, 82]

/-- A line that is a word alone, or starts with it and a blank. -/
def isReply (word line : Bytes) : Bool := line = word ∨ (word ++ [32]).isPrefixOf line

/-- Whether the code of an `ERR` line is pinentry's cancel or its timeout. -/
def cancels (line : Bytes) : Bool :=
  let code := (if (errWord ++ [32]).isPrefixOf line then line.drop 4 else line).takeWhile (· ≠ 32)
  let value := code.foldl (fun value digit => value * 10 + (digit.toNat - 48)) 0
  code ≠ [] ∧ (code.all fun byte => 48 ≤ byte.toNat ∧ byte.toNat ≤ 57) ∧
    (value % 65536 = 99 ∨ value % 65536 = 62)

/-- The script after `GETPIN`, from the lines pinentry sends: its exit code and what it prints.
`count` is the shell's count of characters, `least` the length asked for. -/
def getPin (count : Bytes → ℕ) (least : Option ℕ) (data : Bytes) : List Bytes → ℤ × Bytes
  | [] => (exitFailed, [])
  | line :: lines =>
    if dataMark.isPrefixOf line then getPin count least (data ++ line.drop 2) lines
    else if isReply okWord line then
      if data = [] then (exitEmpty, [])
      -- each `%XX` stands for one character
      else if least.any fun least => count data < 2 * data.count 37 + least then (exitShort, [])
      else (0, data)
    else if isReply errWord line then (if cancels line then exitCancelled else exitFailed, [])
    else getPin count least data lines

/-- The lines that send data in chunks, and an `OK` line. -/
def answerLines (chunks : List Bytes) (ok : Bytes) : List Bytes :=
  chunks.map (dataMark ++ ·) ++ [ok]

variable {count : Bytes → ℕ} {least : Option ℕ} {chunks : List Bytes} {ok : Bytes}

/-- A script that ends well prints what the lines have, joined. -/
theorem getPin_answerLines (ends : isReply okWord ok) (data : Bytes)
    (exits : (getPin count least data (answerLines chunks ok)).1 = 0) :
    (getPin count least data (answerLines chunks ok)).2 = data ++ chunks.flatten := by
  induction chunks generalizing data with
  | nil =>
    have other : ¬ dataMark.isPrefixOf ok := by
      intro marked
      obtain ⟨rest, rfl⟩ := isPrefixOf_iff_prefix.mp marked
      simp [isReply, okWord, dataMark] at ends
    rw [answerLines, map_nil, nil_append, getPin, if_neg other, if_pos ends] at exits ⊢
    split_ifs at exits ⊢
    · exact absurd exits (by decide)
    · exact absurd exits (by decide)
    · exact (append_nil _).symm
  | cons chunk chunks ih =>
    have marked : dataMark.isPrefixOf (dataMark ++ chunk) :=
      isPrefixOf_iff_prefix.mpr (prefix_append _ _)
    have later : getPin count least data (answerLines (chunk :: chunks) ok) =
        getPin count least (data ++ chunk) (answerLines chunks ok) := by
      change getPin count least data ((dataMark ++ chunk) :: answerLines chunks ok) = _
      rw [getPin, if_pos marked]
      rfl
    rw [later] at exits ⊢
    rw [ih _ exits, flatten_cons, append_assoc]

/-! ### Assuan data -/

/-- Bytes as a `D` line writes them: each as itself or as `%` and two hex digits, and `%`, CR
and LF always so. -/
inductive Written : Bytes → Bytes → Prop
  | nil : Written [] []
  | itself {byte : UInt8} {bytes data : Bytes} (plain : byte ∉ [37, 13, 10])
      (rest : Written bytes data) : Written (byte :: bytes) (byte :: data)
  | escaped {byte high low : UInt8} {upper lower : ℕ} {bytes data : Bytes}
      (first : hexDigit high = some upper) (second : hexDigit low = some lower)
      (value : upper * 16 + lower = byte.toNat) (rest : Written bytes data) :
      Written (byte :: bytes) (37 :: high :: low :: data)

variable {bytes data : Bytes}

theorem Written.decodeBytes (written : Written bytes data) (nonzero : 0 ∉ bytes) :
    decodeBytes data = some bytes := by
  induction written with
  | nil => rfl
  | itself plain rest ih =>
    rw [mem_cons, not_or] at nonzero
    rw [Vault.decodeBytes.eq_def]
    simp_all [eq_comm]
  | @escaped byte _ _ _ _ _ _ first second value rest ih =>
    rw [mem_cons, not_or] at nonzero
    have some : byte.toNat ≠ 0 := fun zero => nonzero.1 (UInt8.toNat_inj.mp zero).symm
    rw [Vault.decodeBytes.eq_def]
    simp only [if_true, first, second, Option.bind_eq_bind, Option.bind_some]
    rw [value, if_neg some, ih nonzero.2, UInt8.ofNat_toNat, Option.map_some]

theorem Written.unbroken (written : Written bytes data) : 10 ∉ data := by
  induction written with
  | nil => exact not_mem_nil
  | itself plain rest ih => simp_all [eq_comm]
  | @escaped _ high low _ _ _ _ first second value rest ih =>
    have digits : ∀ digit value, hexDigit digit = some value → (10 : UInt8) ≠ digit := by
      rintro _ value digit rfl
      cases digit
    simp [digits _ _ first, digits _ _ second, ih]

/-- A line end is read only where there is one. -/
theorem unbroken_of_reads {shown : Text} (reads : Utf8.Reads data shown) (unbroken : 10 ∉ data) :
    '\n' ∉ shown := by
  induction reads with
  | nil => exact not_mem_nil
  | char char later ih =>
    rw [mem_append, not_or] at unbroken
    rw [mem_cons, not_or]
    refine ⟨?_, ih unbroken.2⟩
    rintro rfl
    exact unbroken.1 (by decide)
  | broken filled short high other later ih =>
    rw [mem_append, not_or] at unbroken
    rw [mem_cons, not_or]
    exact ⟨by decide, ih unbroken.2⟩

theorem decodeBytes_append {front : Bytes} (high : ∀ byte ∈ front, 128 ≤ byte.toNat)
    (rest : Bytes) : decodeBytes (front ++ rest) = (decodeBytes rest).map (front ++ ·) := by
  induction front with
  | nil => simp
  | cons byte front ih =>
    rw [forall_mem_cons] at high
    have plain : byte ≠ 37 ∧ byte ≠ 0 := by
      constructor <;> rintro rfl <;> exact absurd high.1 (by decide)
    rw [cons_append, decodeBytes.eq_def]
    simp [plain, ih high.2, Function.comp_def]

theorem hexDigit_ascii {digit : UInt8} {value : ℕ} (hex : hexDigit digit = some value) :
    digit.toNat < 128 := by
  simp only [hexDigit] at hex
  split_ifs at hex <;> omega

/-- What is decoded from replaced data is no shorter, and the same only if nothing was replaced. -/
theorem decodeBytes_of_reads {data : Bytes} {shown : Text} {bytes bytes' : Bytes}
    (reads : Utf8.Reads data shown) (plain : decodeBytes data = some bytes)
    (replaced : decodeBytes (encode shown) = some bytes') :
    bytes.length ≤ bytes'.length ∧ (bytes = bytes' → data = encode shown) := by
  induction size : data.length using Nat.strong_induction_on
    generalizing data shown bytes bytes' with
  | _ length ih =>
    subst size
    cases reads with
    | nil =>
      cases plain
      exact ⟨Nat.zero_le _, fun _ => rfl⟩
    | @char char rest text later =>
      rw [encode_cons] at replaced ⊢
      have some := char.utf8Size_pos
      have smaller : rest.length < (String.utf8EncodeChar char ++ rest).length := by
        rw [length_append, String.length_utf8EncodeChar]
        omega
      by_cases ascii : char.toNat < 128
      · rw [utf8EncodeChar_ascii ascii, singleton_append] at plain replaced ⊢
        rw [singleton_append]
        rw [decodeBytes.eq_def] at plain replaced
        dsimp only at plain replaced
        by_cases percent : byteOf char = 37
        · -- the two digits are ASCII, so they are read as they are
          rw [if_pos percent] at plain replaced
          rcases rest with _ | ⟨high, _ | ⟨low, rest⟩⟩
          · cases plain
          · cases plain
          · obtain ⟨upper, first, plain⟩ := bind_eq_some_iff.mp plain
            obtain ⟨lower, second, plain⟩ := bind_eq_some_iff.mp plain
            obtain ⟨_, rfl, afterHigh⟩ := later.ascii (hexDigit_ascii first)
            obtain ⟨text, rfl, afterLow⟩ := afterHigh.ascii (hexDigit_ascii second)
            rw [encode_cons, utf8EncodeChar_byte (hexDigit_ascii first), encode_cons,
              utf8EncodeChar_byte (hexDigit_ascii second), singleton_append,
              singleton_append] at replaced ⊢
            simp only [first, second, Option.bind_eq_bind, Option.bind_some] at replaced
            split_ifs at plain replaced
            obtain ⟨following, before, rfl⟩ := map_eq_some_iff.mp plain
            obtain ⟨following', after, rfl⟩ := map_eq_some_iff.mp replaced
            obtain ⟨shorter, same⟩ := ih _ (by simp only [length_cons] at smaller ⊢; omega)
              afterLow before after rfl
            refine ⟨Nat.succ_le_succ shorter, fun whole => ?_⟩
            rw [same (cons.inj whole).2]
        · rw [if_neg percent] at plain replaced
          split_ifs at plain replaced with zero
          obtain ⟨following, first, rfl⟩ := map_eq_some_iff.mp plain
          obtain ⟨following', second, rfl⟩ := map_eq_some_iff.mp replaced
          obtain ⟨shorter, same⟩ := ih _ smaller later first second rfl
          refine ⟨Nat.succ_le_succ shorter, fun whole => ?_⟩
          rw [same (cons.inj whole).2]
      · have high := fun byte (mem : byte ∈ _) =>
          high_of_mem_utf8EncodeChar (Nat.not_lt.mp ascii) mem
        rw [decodeBytes_append high] at plain replaced
        obtain ⟨following, first, rfl⟩ := map_eq_some_iff.mp plain
        obtain ⟨following', second, rfl⟩ := map_eq_some_iff.mp replaced
        obtain ⟨shorter, same⟩ := ih _ smaller later first second rfl
        refine ⟨by simpa using shorter, fun whole => ?_⟩
        rw [same (append_cancel_left whole)]
    | @broken piece rest text filled short high other later =>
      have replacement : ∀ byte ∈ String.utf8EncodeChar '\uFFFD', 128 ≤ byte.toNat :=
        fun _ => high_of_mem_utf8EncodeChar (by decide)
      have long : (String.utf8EncodeChar '\uFFFD').length = 3 := by decide
      have some := length_pos_iff.mpr filled
      rw [encode_cons, decodeBytes_append replacement] at replaced
      rw [decodeBytes_append high] at plain
      have smaller : rest.length < (piece ++ rest).length := by
        rw [length_append]
        omega
      obtain ⟨following, first, rfl⟩ := map_eq_some_iff.mp plain
      obtain ⟨following', second, rfl⟩ := map_eq_some_iff.mp replaced
      obtain ⟨shorter, -⟩ := ih _ smaller later first second rfl
      rw [length_append, length_append, long]
      refine ⟨by omega, fun whole => ?_⟩
      have lengths := congrArg length whole
      rw [length_append, length_append, long] at lengths
      exact absurd (append_inj whole (by omega)).1 other

/-- The text comes back from what is shown of its data just if that is the data itself. -/
theorem Written.decodeAssuan_iff {text : String} {shown : Text}
    (written : Written text.toUTF8.toList data) (nulFree : 0 ∉ text.toUTF8.toList)
    (reads : Utf8.Reads data shown) :
    decodeAssuan (String.ofList (dropEndWhile (· = '\n') shown)) = some text ↔
      data = encode shown := by
  have unbroken : ∀ char ∈ shown, decide (char = '\n') = false := by
    intro char mem
    refine decide_eq_false ?_
    rintro rfl
    exact unbroken_of_reads reads written.unbroken mem
  have whole := dropEndWhile_append unbroken []
  rw [append_nil] at whole
  rw [whole, decodeAssuan, toUTF8_toList_eq_encode, String.toList_ofList,
    show dropEndWhile _ [] = [] from rfl, append_nil]
  have decoded := written.decodeBytes nulFree
  constructor
  · intro answer
    obtain ⟨bytes, replaced, same⟩ := bind_eq_some_iff.mp answer
    have own : text.toUTF8.toList = bytes := by
      have array : text.toByteArray = ⟨bytes.toArray⟩ := fromUTF8_eq_some_iff.mp same
      rw [toUTF8_toList, array]
    exact (decodeBytes_of_reads reads decoded replaced).2 own
  · rintro rfl
    rw [decoded]
    exact fromUTF8_toUTF8_toList text

/-! ### The helper -/

def maxStdout : ℕ := 24 * 1024 * 1024

/-- What `run` makes of the drained output: none if it was cut. -/
def outputText (drained : Drained) : Option String :=
  if drained.truncated then none else some (String.ofList (lossy drained.bytes))

variable {libraries : Libraries} {helper : Helper} {run : ActiveRun} {serial : ℕ}
  {name text err : String} {reads : List Bytes}

/-- A run of pinentry's script that ended well makes the helper hold the text that was typed just
if its data is the bytes of a text: no character is escaped in part. -/
theorem pinentry_answer_held
    (waits : helper.unlisted.find? (·.serial = serial) = some run)
    (captures : run.capture = .pinentry name) (current : helper.store.generation = run.generation)
    (filled : text ≠ "") (nulFree : 0 ∉ text.toUTF8.toList)
    (written : Written text.toUTF8.toList chunks.flatten) (ends : isReply okWord ok)
    (exits : (getPin count least [] (answerLines chunks ok)).1 = 0)
    (printed : reads.flatten = (getPin count least [] (answerLines chunks ok)).2)
    (nonempty : ∀ read ∈ reads, read ≠ []) (fits : chunks.flatten.length ≤ maxStdout) :
    let after := (helper.finish libraries serial 0
      (outputText (drain (reads.map some) maxStdout)) err).2
    ((∃ shown, chunks.flatten = Utf8.encode shown) → after.store.secret name = some text) ∧
      (after.store.secret name = some text → helper.store.secret name ≠ some text →
        ∃ shown, chunks.flatten = Utf8.encode shown) := by
  intro after
  rw [getPin_answerLines ends [] exits, nil_append] at printed
  have drained := drainKeeps_drainFrom nonempty (drainKeeps_nothing maxStdout)
  rw [nil_append, printed] at drained
  have uncut : (drain (reads.map some) maxStdout).truncated = false := by
    rw [Bool.eq_false_iff]
    exact fun cut => absurd (drained.truncated.mp cut) (Nat.not_lt.mpr fits)
  have output : outputText (drain (reads.map some) maxStdout) =
      some (String.ofList (lossy chunks.flatten)) := by
    have all : (drain (reads.map some) maxStdout).bytes = chunks.flatten := drained.whole uncut
    rw [outputText, uncut, all]
    rfl
  have decodes := written.decodeAssuan_iff nulFree (reads_lossy _)
  have utf8 : (∃ shown, chunks.flatten = encode shown) ↔
      chunks.flatten = encode (lossy chunks.flatten) := by
    refine ⟨?_, fun whole => ⟨_, whole⟩⟩
    rintro ⟨shown, whole⟩
    rw [whole, lossy_encode]
  rw [utf8, ← decodes]
  subst after
  simp only [output, Helper.finish, waits, keep, captures, current, decide_true,
    Option.isNone_some, Bool.false_eq_true, false_and, if_false, and_self, if_true,
    Option.getD_some, String.toList_ofList]
  generalize decodeAssuan _ = answer
  cases answer with
  | none => exact ⟨nofun, fun held fresh => absurd held fresh⟩
  | some pin =>
    by_cases empty : pin = ""
    · subst empty
      exact ⟨fun same => absurd (Option.some.inj same).symm filled,
        fun held fresh => absurd held fresh⟩
    · have held : (helper.store.setSecret name pin).secret name = some pin := by
        simp [Store.secret, Store.setSecret]
      have kept : Option.filter (fun pin => decide (pin ≠ "")) (some pin) = some pin := by
        simp [Option.filter_some, empty]
      rw [kept]
      exact ⟨held.trans, fun same _ => held.symm.trans same⟩

/-- A helper that waits for one run of the script. -/
def asking : Helper :=
  { Helper.initial with unlisted := [⟨0, 1, .pinentry "pin", 0, ⟨[], [], [], none⟩⟩] }

/-- A letter of two bytes, sent and read a byte at a time. -/
theorem pinentry_answer_held_split :
    (asking.finish jsonLibraries 0 0 (outputText (drain ([[0xC3], [0xA9]].map some) maxStdout))
      "").2.store.secret "pin" = some "é" := by
  have written : Written "é".toUTF8.toList [0xC3, 0xA9] := by
    rw [show "é".toUTF8.toList = [0xC3, 0xA9] by decide +kernel]
    exact .itself (by decide) (.itself (by decide) .nil)
  exact (@pinentry_answer_held List.length none [[0xC3], [0xA9]] okWord jsonLibraries asking _ 0
    "pin" "é" "" [[0xC3], [0xA9]] rfl rfl rfl (by decide) (by decide +kernel) written (by decide)
    (by decide) (by decide) (by decide) (by decide)).1 ⟨['é'], by decide +kernel⟩

/-- Its second byte alone is escaped: the first is replaced before the data is decoded, and
nothing is held. -/
theorem half_escaped_answer_lost :
    Written "é".toUTF8.toList [0xC3, 37, 65, 57] ∧
      getPin List.length none [] (answerLines [[0xC3, 37, 65, 57]] okWord) =
        (0, [0xC3, 37, 65, 57]) ∧
      (asking.finish jsonLibraries 0 0 (outputText (drain [some [0xC3, 37, 65, 57]] maxStdout))
        "").2.store.secret "pin" = none := by
  refine ⟨?_, by decide, by decide +kernel⟩
  rw [show "é".toUTF8.toList = [0xC3, 0xA9] by decide +kernel]
  exact .itself (by decide) (.escaped (rfl : hexDigit 65 = some 10) rfl rfl .nil)

end QsBitwarden.Vault
