import QsBitwarden.Lib.Js
import QsBitwarden.Lib.Replace
import QsBitwarden.Vault.Helper

/-! Owns the panel's search for a session key in the output of a login or unlock
(`extractSessionToken`), and that it finds the helper's placeholder where the helper found a
key and nothing where the helper found none. The two scanners differ in the white space they
know and in the assignments they take; both are kept as they are. -/

namespace QsBitwarden.Panel

open Lib Vault List Option

/-! ### The panel's scanner -/

/-- `isSessionToken` of the panel: it trims first. The pattern is the helper's. -/
def isSessionKey (value : Text) : Bool := isSessionToken (jsTrim value)

def sessionMarker : Text := "BW_SESSION=".toList

def inValue (char : Char) : Bool := char ∉ ['"', '\n', '\r']

def withoutQuote : Text → Text
  | '"' :: rest => rest
  | rest => rest

/-- The group of `/BW_SESSION="?([^"\n\r]+)"?/`, behind the marker. -/
def sessionValue (rest : Text) : Option Text :=
  let value := (withoutQuote rest).takeWhile inValue
  if value = [] then none else some value

/-- The group of the first match. -/
def sessionMatch : Text → Option Text
  | [] => none
  | char :: rest =>
    if sessionMarker.isPrefixOf (char :: rest) then
      (sessionValue ((char :: rest).drop sessionMarker.length)).or (sessionMatch rest)
    else sessionMatch rest

/-- The empty text stands for no key. -/
def extractSessionToken (raw : Text) : Text :=
  let text := jsTrim raw
  match (sessionMatch text).filter isSessionKey with
  | some value => jsTrim value
  | none => (((text.splitOn '\n').map jsTrim).find? isSessionKey).getD []

/-! ### Texts both sides read alike -/

/-- No white space that only one side knows. -/
def KnownBlanks (text : Text) : Prop := ∀ char ∈ text, char ≠ '\u0085' ∧ char ≠ '\uFEFF'

/-- The first assignment has a value, behind one quote at most. -/
def Assigned (text : Text) : Prop :=
  ∀ rest ∈ afterFirst sessionMarker text, (sessionValue rest).isSome

instance (text : Text) : Decidable (Assigned text) :=
  inferInstanceAs (Decidable (∀ rest ∈ afterFirst sessionMarker text, _))

theorem isJsWhiteSpace_eq {char : Char} (known : char ≠ '\u0085' ∧ char ≠ '\uFEFF') :
    isJsWhiteSpace char = isWhiteSpace char := by
  have next : char.toNat ≠ 0x85 := fun same => known.1 (Char.toNat_inj.mp same)
  have mark : char.toNat ≠ 0xFEFF := fun same => known.2 (Char.toNat_inj.mp same)
  unfold isJsWhiteSpace isWhiteSpace
  simp only [next, mark, false_or, or_false]

variable {text : Text}

theorem jsTrim_eq (known : KnownBlanks text) : jsTrim text = trim text := by
  have front : text.dropWhile isJsWhiteSpace = text.dropWhile isWhiteSpace :=
    dropWhile_congr_mem fun char mem => isJsWhiteSpace_eq (known char mem)
  unfold jsTrim trim dropEndWhile
  rw [front]
  congr 1
  apply dropWhile_congr_mem
  intro char mem
  have inside := (dropWhile_suffix _).subset (mem_reverse.mp mem)
  exact isJsWhiteSpace_eq (known char inside)

theorem KnownBlanks.subset {text part : Text} (known : KnownBlanks text) (inside : part ⊆ text) :
    KnownBlanks part := fun char mem => known char (inside mem)

theorem KnownBlanks.trim (known : KnownBlanks text) : KnownBlanks (trim text) :=
  known.subset fun _ mem => (dropWhile_suffix _).subset ((dropEndWhile_begins _).subset mem)

variable {rest value : Text}

theorem isSessionKey_eq (known : KnownBlanks value) :
    isSessionKey value = isSessionToken (trim value) := by
  rw [isSessionKey, jsTrim_eq known]

theorem isSessionKey_jsTrim (value : Text) : isSessionKey (jsTrim value) = isSessionKey value :=
  congrArg isSessionToken (dropEnds_idempotent value)

/-! ### Assignments -/

theorem withoutQuote_of_ne {char : Char} (other : char ≠ '"') (rest : Text) :
    withoutQuote (char :: rest) = char :: rest := by
  rw [withoutQuote]
  simpa using other

theorem sessionMatch_of_missing (missing : afterFirst sessionMarker text = none) :
    sessionMatch text = none := by
  induction text with
  | nil => rfl
  | cons char rest ih =>
    rw [afterFirst] at missing
    rw [sessionMatch]
    by_cases there : sessionMarker.isPrefixOf (char :: rest)
    · rw [if_pos there] at missing
      cases missing
    · rw [if_neg there] at missing ⊢
      exact ih missing

theorem sessionMatch_of_first (first : afterFirst sessionMarker text = some rest)
    (assigned : sessionValue rest = some value) :
    sessionMatch text = some value := by
  induction text with
  | nil => cases first
  | cons char others ih =>
    rw [afterFirst] at first
    rw [sessionMatch]
    by_cases there : sessionMarker.isPrefixOf (char :: others)
    · rw [if_pos there, Option.some.injEq] at first
      rw [if_pos there, first, assigned, some_or]
    · rw [if_neg there] at first ⊢
      exact ih first

/-- The value the helper takes, behind the marker. -/
def helperValue (rest : Text) : Text := trim ((rest.dropWhile (· = '"')).takeWhile inValue)

theorem exportedSession_def (text : Text) :
    exportedSession text = (afterFirst sessionMarker text).map helperValue := rfl

/-- One quote at most is all that the helper drops from a value. -/
theorem helperValue_eq (assigned : sessionValue rest = some value) :
    helperValue rest = trim value := by
  unfold sessionValue at assigned
  simp only [ite_none_left_eq_some, Option.some.injEq] at assigned
  obtain ⟨filled, shape⟩ := assigned
  have quotes : (withoutQuote rest).dropWhile (· = '"') = withoutQuote rest := by
    cases inner : withoutQuote rest with
    | nil => rfl
    | cons char others =>
      have plain : char ≠ '"' := by
        rintro rfl
        rw [inner] at filled
        exact filled rfl
      simp [plain]
  have whole : rest.dropWhile (· = '"') = (withoutQuote rest).dropWhile (· = '"') := by
    unfold withoutQuote
    split <;> simp
  rw [helperValue, whole, quotes, shape]

/-- On a text with a value behind the first marker, both take that value. -/
theorem exportedSession_eq (assigned : Assigned text) :
    exportedSession text = (sessionMatch text).map trim := by
  rw [exportedSession_def]
  cases first : afterFirst sessionMarker text with
  | none => rw [sessionMatch_of_missing first, map_none, map_none]
  | some rest =>
    obtain ⟨value, shape⟩ := isSome_iff_exists.mp (assigned rest first)
    rw [sessionMatch_of_first first shape, map_some, map_some,
      helperValue_eq shape]

theorem sessionValue_subset (assigned : sessionValue rest = some value) :
    value ⊆ rest := by
  unfold sessionValue at assigned
  simp only [ite_none_left_eq_some, Option.some.injEq] at assigned
  rw [← assigned.2]
  intro char mem
  have inside := takeWhile_prefix _ |>.subset mem
  unfold withoutQuote at inside
  split at inside
  · exact mem_cons_of_mem _ inside
  · exact inside

theorem sessionMatch_subset (found : sessionMatch text = some value) :
    value ⊆ text := by
  induction text with
  | nil => cases found
  | cons char rest ih =>
    have later : sessionMatch rest = some value → value ⊆ char :: rest := fun found =>
      subset_cons_of_subset char (ih found)
    rw [sessionMatch] at found
    by_cases there : sessionMarker.isPrefixOf (char :: rest)
    · rw [if_pos there, or_eq_some_iff] at found
      rcases found with here | ⟨-, found⟩
      · intro other mem
        exact (drop_suffix _ _).subset (sessionValue_subset here mem)
      · exact later found
    · rw [if_neg there] at found
      exact later found

/-! ### Lines -/

theorem find_lines_eq (known : KnownBlanks text) :
    ((text.splitOn '\n').map jsTrim).find? isSessionKey =
      (trimmedLines text).find? isSessionToken := by
  have same {line : Text} (known : KnownBlanks line) :
      isSessionKey (jsTrim line) = isSessionToken (trim line) := by
    rw [isSessionKey_jsTrim, isSessionKey_eq known]
  induction text using line_induction with
  | last text whole =>
    rw [splitOn_eq_singleton whole, trimmedLines_whole whole]
    by_cases empty : text = []
    · subst empty
      decide
    · rw [if_neg empty, map_singleton, find?_singleton, find?_singleton,
        same known, jsTrim_eq known]
  | more first second whole ih =>
    have front : KnownBlanks first := known.subset (by simp)
    have back : KnownBlanks second := known.subset (by simp)
    rw [splitOn_append_cons_self_of_not_mem whole, trimmedLines_append_cons whole,
      map_cons, find?_cons, find?_cons, same front, jsTrim_eq front,
      ih back]

/-- On a text that both sides read alike they find the same key. -/
theorem extractSessionToken_eq {raw : Text} (known : KnownBlanks raw)
    (assigned : Assigned (trim raw)) :
    extractSessionToken raw = (extractSession raw).getD [] := by
  have lines := find_lines_eq known.trim
  have exported := exportedSession_eq assigned
  unfold extractSessionToken extractSession
  simp only [jsTrim_eq known, exported, lines]
  cases found : sessionMatch (trim raw) with
  | none => rfl
  | some value =>
    have blanks := known.trim.subset (sessionMatch_subset found)
    have key := isSessionKey_eq blanks
    by_cases token : isSessionToken (trim value)
    · rw [token] at key
      simp only [map_some, Option.filter, key, token, if_true, getD_some]
      exact jsTrim_eq blanks
    · rw [Bool.not_eq_true] at token
      rw [token] at key
      simp only [map_some, Option.filter, key, token, Bool.false_eq_true, if_false]
      rfl

/-! ### The forwarded text -/

theorem of_isSessionToken (token : isSessionToken value) :
    value ≠ [] ∧ ∀ char ∈ value, isWhiteSpace char = false ∧ inValue char := by
  simp only [isSessionToken, Bool.and_eq_true, decide_eq_true_eq, List.all_eq_true] at token
  constructor
  · rintro rfl
    exact absurd token.1 (by decide)
  · intro char mem
    have kind := token.2 char mem
    by_cases symbol : char ∈ ['+', '/', '=', '_', '-']
    · have symbols : ∀ other ∈ ['+', '/', '=', '_', '-'],
          isWhiteSpace other = false ∧ inValue other := forall_mem_of_all (by decide)
      exact symbols char symbol
    · have letter : isAsciiAlphanumeric char := by simpa [symbol] using kind
      simp only [isAsciiAlphanumeric, decide_eq_true_eq] at letter
      constructor
      · simp only [isWhiteSpace, decide_eq_false_iff_not]
        omega
      · simp only [inValue, decide_eq_true_eq]
        intro outside
        have codes : ∀ other ∈ ['"', '\n', '\r'], other.toNat < 48 := forall_mem_of_all (by decide)
        have code := codes char outside
        omega

theorem isSessionToken_of_extractSession {raw key : Text}
    (found : extractSession raw = some key) : isSessionToken key := by
  unfold extractSession at found
  simp only at found
  split at found
  · rename_i value exported
    rw [filter_eq_some_iff] at exported
    rw [← Option.some.inj found]
    exact exported.2
  · exact find?_some found

/-- The output as the panel is shown it. -/
def shown (key text : Text) : Text := replaceAll key heldSession.toList text

theorem stays_heldSession : Stays isWhiteSpace heldSession.toList :=
  ⟨by decide, forall_mem_of_all (by decide)⟩

section Shown

variable {key : Text} (token : isSessionToken key)
include token

theorem stays_token : Stays isWhiteSpace key :=
  ⟨(of_isSessionToken token).1, fun char mem => ((of_isSessionToken token).2 char mem).1⟩

theorem trim_shown (text : Text) : trim (shown key text) = shown key (trim text) :=
  trim_replaceAll (stays_token token) stays_heldSession text

theorem trimmedLines_shown (text : Text) :
    trimmedLines (shown key text) = (trimmedLines text).map (shown key) :=
  trimmedLines_replaceAll (stays_token token) stays_heldSession text

theorem takeWhile_shown (text : Text) :
    (shown key text).takeWhile inValue = shown key (text.takeWhile inValue) := by
  obtain ⟨filled, chars⟩ := of_isSessionToken token
  exact takeWhile_replaceAll filled (fun char mem => (chars char mem).2)
    (forall_mem_of_all (by decide)) text

/-- No key is made by replacing. -/
theorem isSessionToken_shown {value : Text} (other : isSessionToken value = false) :
    isSessionToken (shown key value) = false := by
  obtain ⟨filled, -⟩ := of_isSessionToken token
  simp only [isSessionToken, Bool.and_eq_true, decide_eq_true_eq, List.all_eq_true] at token
  by_cases short : value.length < 32
  · have same : shown key value = value := replaceAll_eq_self filled (by omega)
    rw [same, other]
  · -- long enough, so it has a character that keys do not have
    have foreign : ∃ char ∈ value,
        ¬ (isAsciiAlphanumeric char || char ∈ ['+', '/', '=', '_', '-']) := by
      by_contra none
      push Not at none
      have long : 32 ≤ value.length := by omega
      have all := List.all_eq_true.mpr none
      rw [isSessionToken, all, decide_eq_true long] at other
      cases other
    obtain ⟨char, mem, strange⟩ := foreign
    have outside : char ∉ key := fun inside => strange (token.2 char inside)
    have stays : char ∈ shown key value := mem_replaceAll_of_mem filled outside mem
    rw [Bool.eq_false_iff]
    intro held
    rw [isSessionToken, Bool.and_eq_true, List.all_eq_true] at held
    exact strange (held.2 char stays)

theorem shown_ne_nil (nonempty : text ≠ []) : shown key text ≠ [] :=
  replaceAll_ne_nil (of_isSessionToken token).1 (by decide) nonempty

theorem dropQuotes_shown (text : Text) :
    (shown key text).dropWhile (· = '"') = shown key (text.dropWhile (· = '"')) := by
  obtain ⟨filled, chars⟩ := of_isSessionToken token
  refine dropWhile_replaceAll ⟨filled, ?_⟩ ⟨by decide, forall_mem_of_all (by decide)⟩ text
  intro char mem
  have inside := (chars char mem).2
  rw [decide_eq_false_iff_not]
  rintro rfl
  exact absurd inside (by decide)

theorem withoutQuote_shown (text : Text) :
    withoutQuote (shown key text) = shown key (withoutQuote text) := by
  obtain ⟨filled, chars⟩ := of_isSessionToken token
  have outside : '"' ∉ key := fun inside => absurd (chars _ inside).2 (by decide)
  cases text with
  | nil => rfl
  | cons char rest =>
    by_cases quote : char = '"'
    · subst quote
      have passes : shown key ('"' :: rest) = '"' :: shown key rest :=
        replaceAll_append_cons filled outside [] rest
      rw [passes]
      rfl
    · rw [withoutQuote_of_ne quote]
      by_cases found : key <+: char :: rest
      · obtain ⟨behind, shape⟩ := found
        have passes : shown key (char :: rest) = heldSession.toList ++ shown key behind := by
          rw [← shape]
          exact replaceAll_found filled behind
        rw [passes]
        rfl
      · have passes : shown key (char :: rest) = char :: shown key rest := replaceAll_kept found
        rw [passes, withoutQuote_of_ne quote]

theorem sessionValue_shown {rest : Text} (assigned : (sessionValue rest).isSome) :
    (sessionValue (shown key rest)).isSome := by
  unfold sessionValue at assigned ⊢
  simp only [isSome_ite'] at assigned ⊢
  rw [withoutQuote_shown token, takeWhile_shown token]
  exact shown_ne_nil token assigned

theorem KnownBlanks.shown (known : KnownBlanks text) :
    KnownBlanks (shown key text) :=
  forall_mem_replaceAll (of_isSessionToken token).1 _ (forall_mem_of_all (by decide)) known

variable (apart : Apart sessionMarker key)
include apart

theorem afterFirst_shown (text : Text) :
    afterFirst sessionMarker (shown key text) =
      (afterFirst sessionMarker text).map (shown key) :=
  afterFirst_replaceAll (of_isSessionToken token).1 (by decide) apart (by decide +kernel) text

theorem Assigned.shown (assigned : Assigned text) : Assigned (shown key text) := by
  intro rest first
  rw [afterFirst_shown token apart] at first
  obtain ⟨before, there, rfl⟩ := mem_map.mp first
  exact sessionValue_shown token (assigned before there)

theorem exportedSession_shown (text : Text) :
    exportedSession (shown key text) = (exportedSession text).map (shown key) := by
  have values (rest : Text) : helperValue (shown key rest) = shown key (helperValue rest) := by
    unfold helperValue
    rw [dropQuotes_shown token, takeWhile_shown token, trim_shown token]
  rw [exportedSession_def, exportedSession_def, afterFirst_shown token apart]
  cases afterFirst sessionMarker text with
  | none => rfl
  | some rest => exact congrArg some (values rest)

/-- In the text for the panel the helper would find its placeholder. -/
theorem extractSession_shown {raw : Text} (found : extractSession raw = some key) :
    extractSession (shown key raw) = some heldSession.toList := by
  have self : shown key key = heldSession.toList := replaceAll_self (of_isSessionToken token).1
  have isToken : isSessionToken heldSession.toList := by decide
  have lines := trimmedLines_shown token (trim raw)
  have exports := exportedSession_shown token apart (trim raw)
  unfold extractSession at found ⊢
  simp only [trim_shown token, exports] at found ⊢
  by_cases exported : ((exportedSession (trim raw)).filter isSessionToken).isSome
  · -- the assigned value is the key
    obtain ⟨value, shape⟩ := isSome_iff_exists.mp exported
    rw [shape, Option.some.injEq] at found
    subst found
    rw [filter_eq_some_iff] at shape
    rw [shape.1, map_some, self, Option.filter, if_pos isToken]
  · -- no assigned value is a key before or after, so the lines decide
    rw [not_isSome_iff_eq_none] at exported
    have after : ((exportedSession (trim raw)).map (shown key)).filter isSessionToken = none := by
      rw [filter_eq_none_iff] at exported ⊢
      intro value there
      obtain ⟨before, assigned, rfl⟩ := mem_map.mp there
      rw [Bool.not_eq_true]
      exact isSessionToken_shown token (by simpa using exported before assigned)
    rw [exported] at found
    rw [after]
    show (trimmedLines _).find? isSessionToken = _
    obtain ⟨-, first, second, shape, others⟩ := find?_eq_some_iff_append.mp found
    have shape : trimmedLines (trim raw) = first ++ key :: second := shape
    rw [lines, shape, find?_eq_some_iff_append]
    refine ⟨isToken, first.map (shown key), second.map (shown key), ?_, ?_⟩
    · rw [map_append, map_cons, self]
    · intro line mem
      obtain ⟨before, there, rfl⟩ := mem_map.mp mem
      have other : isSessionToken before = false := by simpa using others before there
      rw [isSessionToken_shown token other]
      rfl

end Shown

/-- A key in base64 with its padding, as `bw` prints one, is apart from the marker. -/
theorem apart_padded {body : Text}
    (plain : ∀ char ∈ body, isAsciiAlphanumeric char || char ∈ ['+', '/'])
    (long : 11 ≤ body.length) : Apart sessionMarker (body ++ ['=', '=']) := by
  have noUnderscore : '_' ∉ body ++ ['=', '='] := by
    rw [mem_append, not_or]
    exact ⟨fun mem => absurd (plain _ mem) (by decide), by decide⟩
  have noEquals : '=' ∉ body := fun mem => absurd (plain _ mem) (by decide)
  constructor
  · rintro part ending filled (before | after)
    · have ending := (mem_tails _ _).mp ending
      exact noUnderscore (ending.subset (before.subset (by decide)))
    · -- the part ends with padding, which the marker has at its end only
      have ending := (mem_tails _ _).mp ending
      have padded : '=' ∈ part := by
        have split : body ++ ['=', '='] = body ++ ['='] ++ ['='] := by simp
        rw [split, suffix_concat_iff] at ending
        rcases ending with empty | ⟨front, rfl, -⟩
        · exact absurd empty filled
        · simp
      have starts : ∀ start ∈ sessionMarker.inits, '=' ∈ start → '_' ∈ start := by decide
      have inside := starts part ((mem_inits _ _).mpr after) padded
      exact noUnderscore (ending.subset inside)
  · have short : sessionMarker.length = 11 := rfl
    rintro part ending filled (before | after)
    · have fits := before.length_le
      have ending := ((mem_tails _ _).mp ending).length_le
      rw [length_append] at fits
      simp only [length_cons] at fits
      omega
    · have ends : ∀ rest ∈ sessionMarker.tails, rest ≠ [] → '=' ∈ rest := by decide
      have padded := ends part ending filled
      have ending := ((mem_tails _ _).mp ending).length_le
      have inside := prefix_of_prefix_length_le after (prefix_append ..) (by omega)
      exact noEquals (inside.subset padded)

/-! ### Both sides agree -/

/-- The output of a run that ended with code 0, as `keep` forwards it: the panel finds the
placeholder where the helper found a key, and no key where it found none. -/
theorem session_key_agrees (libraries : Libraries) (store : Store) (generation : ℕ) (text : String)
    (known : KnownBlanks text.toList) (assigned : Assigned (trim text.toList))
    (apart : ∀ key ∈ extractSession text.toList, Apart sessionMarker key) :
    extractSessionToken (keep libraries store generation .session 0 text).1.toList =
      if (extractSession text.toList).isSome then heldSession.toList else [] := by
  cases found : extractSession text.toList with
  | none =>
    have forwarded : (keep libraries store generation .session 0 text).1 = text := by
      simp only [keep, if_true, found]
    rw [forwarded, extractSessionToken_eq known assigned, found]
    rfl
  | some key =>
    have token := isSessionToken_of_extractSession found
    have apart := apart key found
    have forwarded : (keep libraries store generation .session 0 text).1 =
        String.ofList (shown key text.toList) := by
      simp only [keep, if_true, found]
      split <;> rfl
    have assigned' : Assigned (trim (shown key text.toList)) := by
      rw [trim_shown token]
      exact Assigned.shown token apart assigned
    rw [forwarded, String.toList_ofList,
      extractSessionToken_eq (KnownBlanks.shown token known) assigned',
      extractSession_shown token apart found]
    rfl

def plainKey : Text := List.replicate 86 'A' ++ ['=', '=']

/-- What `bw unlock` prints of a key, twice. -/
def unlockOutput : Text :=
  "$ export BW_SESSION=\"".toList ++ plainKey ++ "\"\n> $env:BW_SESSION=\"".toList ++ plainKey ++
    "\"\n".toList

theorem session_key_agrees_unlocked :
    KnownBlanks unlockOutput ∧ Assigned (trim unlockOutput) ∧
      extractSession unlockOutput = some plainKey ∧
      extractSessionToken (keep ⟨fun _ => none, fun _ => "", id⟩ .empty 0 .session 0
        (String.ofList unlockOutput)).1.toList = heldSession.toList := by
  have known : KnownBlanks unlockOutput := forall_mem_of_all (by decide +kernel)
  have assigned : Assigned (trim unlockOutput) := by decide +kernel
  have found : extractSession unlockOutput = some plainKey := by decide +kernel
  have agrees := session_key_agrees ⟨fun _ => none, fun _ => "", id⟩ .empty 0
    (String.ofList unlockOutput)
  rw [String.toList_ofList, found] at agrees
  refine ⟨known, assigned, found, agrees known assigned ?_⟩
  intro key same
  rw [← Option.some.inj same]
  exact apart_padded (forall_mem_of_all (by decide)) (by decide)

/-- Behind a byte order mark the panel finds a key that the helper does not, and behind an
empty assignment too; behind a doubled quote it misses the placeholder. -/
theorem scanners_differ :
    (extractSession ('\uFEFF' :: plainKey) = none ∧
      extractSessionToken ('\uFEFF' :: plainKey) = plainKey) ∧
    (extractSession ("BW_SESSION=\nBW_SESSION=\"".toList ++ plainKey ++ ['"']) = none ∧
      extractSessionToken ("BW_SESSION=\nBW_SESSION=\"".toList ++ plainKey ++ ['"']) =
        plainKey) ∧
    (extractSession ("BW_SESSION=\"\"".toList ++ plainKey) = some plainKey ∧
      extractSessionToken (shown plainKey ("BW_SESSION=\"\"".toList ++ plainKey)) = []) := by
  decide +kernel

end QsBitwarden.Panel
