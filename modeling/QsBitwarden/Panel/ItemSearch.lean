import Mathlib.Tactic.Tauto
import QsBitwarden.Lib.Joined
import QsBitwarden.Panel.PublicView
import QsBitwarden.Vault.StoreMap

/-! Owns the agreement of the two searches: the helper's over one joined text an item, and the
panel's over the fields of a row. Lower case is a parameter of both, with the facts about it that
the helper relies on. It does not own when either is used. -/

namespace QsBitwarden.Panel

open Lib Lib.Json Vault ItemView List

/-! ### Lower case -/

/-- What lower case is relied on for: NUL separates words and is not made, and white space stays
what it is. -/
structure LowersText (lower : String → String) : Prop where
  empty : lower "" = ""
  joined : ∀ left right : String, lower (left ++ "\x00" ++ right) =
    lower left ++ "\x00" ++ lower right
  free : ∀ text : String, '\x00' ∉ text.toList → '\x00' ∉ (lower text).toList
  trimmed : ∀ text : String,
    (lower (String.ofList (trim text.toList))).toList = trim (lower text).toList

theorem LowersText.intercalate {lower : String → String} (lowers : LowersText lower)
    (parts : List String) :
    lower ("\x00".intercalate parts) = "\x00".intercalate (parts.map lower) := by
  induction parts with
  | nil => exact lowers.empty
  | cons first rest ih =>
    cases rest with
    | nil => simp
    | cons second others =>
      rw [String.intercalate_cons_cons, lowers.joined, ih]
      simp only [map_cons, String.intercalate_cons_cons]

/-- A text both languages trim alike. -/
def TrimsAlike (text : String) : Prop := jsTrim text.toList = trim text.toList

/-! ### Searchable items -/

/-- An item both sides read alike. -/
structure Searchable (it : Fields) : Prop where
  id : ∃ id, it.get "id" = some (.string id)
  name : ∃ name ≠ "", it.get "name" = some (.string name)
  texts : HasTexts it
  uris : property (it.get "login") "uris" = none ∨
    property (it.get "login") "uris" = some .null ∨
    ∃ uris, property (it.get "login") "uris" = some (.array uris) ∧
      uris.length ≤ maxListEntries ∧ ∀ entry ∈ uris, IsText (property (some entry) "uri")
  reprompt : IsWholeNumber (it.get "reprompt")
  publicKey : textAt it ["publicKey"] = ""
  fingerprint : textAt it ["fingerprint"] = ""
  names : ∀ key ∈ ["title", "firstName", "middleName", "lastName"],
    TrimsAlike (textAt it ["identity", key])

section Found

variable {js : Js} {formatAttachmentSize : Option Json → String} {libraries : Libraries}
  {it : Fields} {needle : String}

theorem textOrEmpty_eq_textAt {path : List String} {value : Option Json}
    (found : getPath it path = value) (text : IsText value) :
    textOrEmpty js value = textAt it path := by
  unfold textAt
  rw [found]
  rcases text with rfl | rfl | ⟨text, rfl⟩
  · rfl
  · rfl
  · by_cases empty : text = ""
    · simp [textOrEmpty, truthy, empty, asStr]
    · simp [textOrEmpty, truthy, empty, asStr, Json.text]

/-- The texts of the card or the identity, empty without one. -/
theorem textAt_of_falsy {part key : String} (missing : truthy (it.get part) = false) :
    textAt it [part, key] = "" := by
  unfold textAt
  rw [getPath_two]
  cases found : it.get part with
  | none => rfl
  | some value =>
    rw [found] at missing
    cases value with
    | object fields => cases missing
    | _ => rfl

section Parts

variable (searchable : Searchable it)

include searchable

theorem row_name : (itemRow js formatAttachmentSize it).name = textAt it ["name"] := by
  obtain ⟨name, there, found⟩ := searchable.name
  have shown : textOrUntitled js (it.get "name") = name := by
    rw [found]
    exact if_pos (by simp [truthy, there])
  have held : textAt it ["name"] = name := by
    change ((it.get "name").bind asStr).getD "" = name
    rw [found]
    rfl
  rw [held]
  exact shown

theorem row_username :
    (itemRow js formatAttachmentSize it).username = textAt it ["login", "username"] :=
  textOrEmpty_eq_textAt (getPath_two it _ _) (searchable.texts.login "username" (by decide))

theorem partText_card {key : String} (listed : key ∈ cardKeys) :
    partText js cardKeys (it.get "card") key = textAt it ["card", key] := by
  rw [partText_of_mem listed]
  exact textOrEmpty_eq_textAt (getPath_two it _ _) (searchable.texts.card key listed)

theorem partText_identity {key : String} (listed : key ∈ identityKeys) :
    partText js identityKeys (it.get "identity") key = textAt it ["identity", key] := by
  rw [partText_of_mem listed]
  exact textOrEmpty_eq_textAt (getPath_two it _ _) (searchable.texts.identity key listed)

theorem row_fullName :
    identityFullName (partText js identityKeys (it.get "identity")) = fullName it := by
  have each : ∀ key ∈ ["title", "firstName", "middleName", "lastName"],
      trimText (partText js identityKeys (it.get "identity") key) =
        String.ofList (trim (textAt it ["identity", key]).toList) := by
    intro key mem
    have listed : ∀ key ∈ ["title", "firstName", "middleName", "lastName"],
        key ∈ identityKeys := by decide
    rw [partText_identity searchable (listed key mem), trimText,
      searchable.names key mem]
  unfold identityFullName nonEmptyParts fullName
  rw [map_map]
  dsimp only
  rw [← map_congr_left each]
  rfl

/-- Whether an item asks for the master password, on both sides. -/
theorem row_reprompt : (itemRow js formatAttachmentSize it).reprompt = 1 ↔
    (it.get "reprompt").bind asU64 = some 1 := by
  change repromptValue js (it.get "reprompt") = 1 ↔ _
  unfold repromptValue
  rcases searchable.reprompt with none | null | ⟨number, natural⟩ | ⟨number, negative, found⟩
  · rw [none]
    simp [toNumber]
  · rw [null]
    simp [toNumber, asU64, JsonNumber.equals]
  · rw [natural]
    simp [toNumber, asU64, JsonNumber.equals]
  · have other : number ≠ 1 := by omega
    rw [found]
    simp [toNumber, asU64, JsonNumber.equals, other]

/-- The websites that are not empty are the row's. -/
theorem row_uris (missing : textHas js needle "" = false) :
    ((itemRow js formatAttachmentSize it).uris.take maxListEntries).any (textHas js needle) = true ↔
      ∃ uri ∈ websites it, textHas js needle uri = true := by
  have short : (itemRow js formatAttachmentSize it).uris.length ≤ maxListEntries :=
    (length_filterMap_le _ _).trans (length_take_le _ _)
  have same : getPath it ["login", "uris"] = property (it.get "login") "uris" := getPath_two it _ _
  rw [take_of_length_le short, any_eq_true]
  change (∃ uri ∈ loginUris js (it.get "login"), textHas js needle uri = true) ↔ _
  unfold loginUris websites
  rw [same]
  rcases searchable.uris with none | null | ⟨uris, array, fits, texts⟩
  · rw [none]
    exact Iff.rfl
  · rw [null]
    exact Iff.rfl
  · rw [array]
    have all : listEntries (some (.array uris)) = uris.map some :=
      take_of_length_le (by rw [elements, length_map]; exact fits)
    rw [all]
    simp only [mem_filterMap, mem_map]
    constructor
    · rintro ⟨uri, ⟨entry, ⟨element, mem, rfl⟩, shown⟩, found⟩
      rw [Option.ite_none_right_eq_some] at shown
      refine ⟨uri, ⟨element, mem, ?_⟩, found⟩
      change (property (some element) "uri").bind asStr = _
      rcases texts element mem with none | null | ⟨text, isText⟩
      · simp [none, truthy] at shown
      · simp [null, truthy] at shown
      · rw [isText] at shown ⊢
        exact shown.2
    · rintro ⟨uri, ⟨element, mem, isText⟩, found⟩
      obtain ⟨value, there, isText⟩ := Option.bind_eq_some_iff.mp isText
      obtain rfl : value = .string uri := by
        cases value with
        | string text => exact congrArg Json.string (Option.some.inj isText)
        | _ => cases isText
      refine ⟨uri, ⟨some element, ⟨element, mem, rfl⟩, ?_⟩, found⟩
      rw [show property (some element) "uri" = some (.string uri) from there]
      refine if_pos ?_
      have filled : uri ≠ "" := by
        rintro rfl
        rw [missing] at found
        cases found
      simp [truthy, filled]

end Parts

/-- What the helper holds of an item, by its id. -/
def heldOf (libraries : Libraries) (it : Fields) (id : String) : Held where
  id := id
  full := libraries.toString (.object it)
  haystack := haystack libraries it
  cardDigits := String.ofList ((textAt it ["card", "number"]).toList.filter isAsciiDigit)

/-- The joined text has the query exactly if a part has it. -/
theorem haystack_has (lowers : LowersText libraries.toLowercase)
    (alike : js.toLowerCase = libraries.toLowercase) (filled : needle ≠ "")
    (free : '\x00' ∉ needle.toList) (parts : List String) :
    needle.toList <:+: (libraries.toLowercase ("\x00".intercalate parts)).toList ↔
      ∃ part ∈ parts, textHas js needle part = true := by
  have nonempty : needle.toList ≠ [] := fun empty => filled (String.toList_eq_nil_iff.mp empty)
  rw [lowers.intercalate, String.toList_intercalate]
  change needle.toList <:+: ['\x00'].intercalate _ ↔ _
  rw [infix_intercalate_iff free nonempty]
  simp only [map_map, mem_map, Function.comp_apply, textHas, decide_eq_true_eq, alike]
  constructor
  · rintro ⟨text, ⟨part, mem, rfl⟩, found⟩
    exact ⟨part, mem, found⟩
  · rintro ⟨part, mem, found⟩
    exact ⟨_, ⟨part, mem, rfl⟩, found⟩

/-- The digits rule on both sides. -/
def lastFourHave (needle number : String) : Prop :=
  let digits := needle.toList.filter isAsciiDigit
  let known := number.toList.filter isAsciiDigit
  4 ≤ known.length ∧ digits <:+: lastChars 4 known ∧ digits ≠ []

theorem cardHas_iff (card : String → String) : cardHas js needle card = true ↔
    textHas js needle (card "brand") = true ∨ textHas js needle (card "cardholderName") = true ∨
      lastFourHave needle (card "number") := by
  unfold cardHas lastFourHave
  simp only [Bool.or_eq_true, Bool.and_eq_true, decide_eq_true_eq, or_assoc, and_assoc]

theorem identityHas_iff (identity : String → String) : identityHas js needle identity = true ↔
    textHas js needle (identityFullName identity) = true ∨
      textHas js needle (identity "email") = true ∨
      textHas js needle (identity "username") = true ∨
      textHas js needle (identity "company") = true := by
  unfold identityHas
  simp only [Bool.or_eq_true, or_assoc]

theorem found_iff (id : String) : Store.found needle (heldOf libraries it id) = true ↔
    needle.toList <:+: (haystack libraries it).toList ∨
      lastFourHave needle (textAt it ["card", "number"]) := by
  unfold Store.found lastFourHave heldOf
  simp only [decide_eq_true_eq, String.toList_ofList]
  tauto

/-- The parts of the search text, one by one. -/
theorem exists_mem_parts {holds : String → Prop} {a b c d e f g h i j k : String}
    {rest : List String} :
    (∃ part ∈ [a, b, c, d, e, f, g, h, i, j, k] ++ rest, holds part) ↔
      holds a ∨ holds b ∨ holds c ∨ holds d ∨ holds e ∨ holds f ∨ holds g ∨ holds h ∨ holds i ∨
        holds j ∨ holds k ∨ ∃ part ∈ rest, holds part := by
  simp only [mem_append, mem_cons, not_mem_nil, or_false, or_and_right, exists_or,
    exists_eq_left, or_assoc]

/-- The order in which the two sides look. -/
theorem same_cases {name username notes brand holder digits full email user company uris : Prop} :
    (((((name ∨ username) ∨ notes) ∨ brand ∨ holder ∨ digits) ∨ full ∨ email ∨ user ∨ company) ∨
        uris) ↔
      (name ∨ username ∨ notes ∨ False ∨ False ∨ brand ∨ holder ∨ email ∨ user ∨ company ∨ full ∨
        uris) ∨ digits := by
  tauto

section Agreement

variable (lowers : LowersText libraries.toLowercase)
  (alike : js.toLowerCase = libraries.toLowercase)
  (filled : needle ≠ "") (searchable : Searchable it)

include lowers alike filled

theorem textHas_empty : textHas js needle "" = false := by
  unfold textHas
  rw [alike, lowers.empty, decide_eq_false_iff_not]
  intro found
  exact filled (String.toList_eq_nil_iff.mp (infix_nil.mp found))

include searchable

theorem row_card : (itemRow js formatAttachmentSize it).card.any (cardHas js needle) = true ↔
    textHas js needle (textAt it ["card", "brand"]) = true ∨
      textHas js needle (textAt it ["card", "cardholderName"]) = true ∨
      lastFourHave needle (textAt it ["card", "number"]) := by
  change (textsAt js cardKeys (it.get "card")).any _ = true ↔ _
  unfold textsAt
  by_cases there : truthy (it.get "card") = true
  · rw [if_pos there, Option.any_some, cardHas_iff, partText_card searchable (by decide),
      partText_card searchable (by decide), partText_card searchable (by decide)]
  · rw [if_neg there]
    rw [Bool.not_eq_true] at there
    simp [textAt_of_falsy there, textHas_empty lowers alike filled, lastFourHave]

theorem row_identity :
    (itemRow js formatAttachmentSize it).identity.any (identityHas js needle) = true ↔
      textHas js needle (fullName it) = true ∨
        textHas js needle (textAt it ["identity", "email"]) = true ∨
        textHas js needle (textAt it ["identity", "username"]) = true ∨
        textHas js needle (textAt it ["identity", "company"]) = true := by
  change (textsAt js identityKeys (it.get "identity")).any _ = true ↔ _
  unfold textsAt
  by_cases there : truthy (it.get "identity") = true
  · rw [if_pos there, Option.any_some, identityHas_iff, row_fullName searchable,
      partText_identity searchable (by decide), partText_identity searchable (by decide),
      partText_identity searchable (by decide)]
  · rw [if_neg there]
    rw [Bool.not_eq_true] at there
    have blank : trim [] = [] := rfl
    have nameless : fullName it = "" := by simp [fullName, textAt_of_falsy there, blank]
    simp [textAt_of_falsy there, nameless, textHas_empty lowers alike filled]

theorem row_notes :
    ((itemRow js formatAttachmentSize it).reprompt ≠ 1 ∧
        textHas js needle (itemRow js formatAttachmentSize it).notes = true) ↔
      textHas js needle (if (it.get "reprompt").bind asU64 = some 1 then ""
        else textAt it ["notes"]) = true := by
  have notes : (itemRow js formatAttachmentSize it).notes = textAt it ["notes"] :=
    textOrEmpty_eq_textAt rfl searchable.texts.notes
  rw [notes, Ne, row_reprompt searchable]
  split_ifs with asks
  · simp [asks, textHas_empty lowers alike filled]
  · simp [asks]

/-- The row has a query exactly if the helper finds the item by it. -/
theorem rowHas_iff_found (free : '\x00' ∉ needle.toList) (id : String) :
    rowHas js needle (itemRow js formatAttachmentSize it) = true ↔
      Store.found needle (heldOf libraries it id) = true := by
  have blank := textHas_empty lowers alike filled
  have noKeys : (itemRow js formatAttachmentSize it).publicKey = "" ∧
      (itemRow js formatAttachmentSize it).fingerprint = "" := ⟨rfl, rfl⟩
  rw [found_iff]
  unfold rowHas haystack
  rw [haystack_has lowers alike filled free, exists_mem_parts, searchable.publicKey,
    searchable.fingerprint, noKeys.1, noKeys.2, blank]
  simp only [Bool.or_eq_true, Bool.and_eq_true, decide_eq_true_eq, Bool.or_false,
    Bool.false_eq_true, row_name searchable, row_username searchable,
    row_notes lowers alike filled searchable, row_card lowers alike filled searchable,
    row_identity lowers alike filled searchable, row_uris searchable blank]
  exact same_cases

end Agreement

end Found

/-! ### Whole lists -/

/-- The store after some items were held, one after the other. -/
def holdAll (libraries : Libraries) (items : List Fields) : Store :=
  items.foldl (Store.hold libraries) .empty

def itemId (it : Fields) : String := ((it.get "id").bind asStr).getD ""

section Lists

variable {js : Js} {formatAttachmentSize : Option Json → String} {libraries : Libraries}

variable {store : Store} {id : String}

theorem hold_fresh {it : Fields}
    (named : it.get "id" = some (.string id)) (fresh : store.index.lookup id = none) :
    (store.hold libraries it).items = store.items ++ [heldOf libraries it id] := by
  have text : (it.get "id").bind asStr = some id := by rw [named]; rfl
  unfold Store.hold
  rw [text]
  dsimp only
  rw [fresh]
  rfl

theorem hold_exact {it : Fields} (exact : store.Exact)
    (named : it.get "id" = some (.string id)) : (store.hold libraries it).Exact := by
  have read : readItem libraries (.object it) = some (id, libraries.toString (.object it)) := by
    unfold readItem
    change (it.get "id").bind _ = _
    rw [named]
    rfl
  exact (Store.holdValue_of_read exact read).1

theorem lookup_of_notMem (exact : store.Exact)
    (fresh : id ∉ store.items.map Held.id) : store.index.lookup id = none := by
  cases found : store.index.lookup id with
  | none => rfl
  | some position =>
    obtain ⟨held, there, named⟩ := (exact id position).mp found
    exact absurd (mem_map.mpr ⟨held, mem_of_getElem? there, named⟩) fresh

variable {items : List Fields}

theorem items_foldl_hold (exact : store.Exact)
    (named : ∀ it ∈ items, ∃ id, it.get "id" = some (.string id))
    (distinct : (store.items.map Held.id ++ items.map itemId).Nodup) :
    (items.foldl (Store.hold libraries) store).items =
      store.items ++ items.map fun it => heldOf libraries it (itemId it) := by
  induction items generalizing store with
  | nil => exact (append_nil _).symm
  | cons it rest ih =>
    obtain ⟨id, hasId⟩ := named it mem_cons_self
    have sameId : itemId it = id := by
      unfold itemId
      rw [hasId]
      rfl
    rw [map_cons, sameId] at distinct
    have fresh : id ∉ store.items.map Held.id := by
      intro held
      exact (nodup_append.mp distinct).2.2 id held id mem_cons_self rfl
    have pushed : (store.hold libraries it).items = store.items ++ [heldOf libraries it id] :=
      hold_fresh hasId (lookup_of_notMem exact fresh)
    have distinctLater :
        ((store.hold libraries it).items.map Held.id ++ rest.map itemId).Nodup := by
      rw [pushed, map_append, append_assoc]
      exact distinct
    rw [foldl_cons, ih (hold_exact exact hasId)
      (fun other mem => named other (mem_cons_of_mem _ mem)) distinctLater, pushed,
      map_cons, sameId, append_assoc]
    rfl

theorem items_holdAll (searchable : ∀ it ∈ items, Searchable it)
    (distinct : (items.map itemId).Nodup) :
    (holdAll libraries items).items = items.map fun it => heldOf libraries it (itemId it) :=
  items_foldl_hold Store.exact_empty (fun it mem => (searchable it mem).id) distinct

theorem mem_of_mem_trim {text : Text} {char : Char} (mem : char ∈ trim text) : char ∈ text := by
  unfold trim dropEndWhile at mem
  have front := mem_reverse.mp mem
  have inner := mem_reverse.mp ((dropWhile_sublist _).subset front)
  exact (dropWhile_sublist _).subset inner

/-- The two sides look for the same text. -/
theorem trimText_lower (lowers : LowersText libraries.toLowercase)
    (alike : js.toLowerCase = libraries.toLowercase) {query : String}
    (trims : TrimsAlike (js.toLowerCase query)) :
    trimText (js.toLowerCase query) =
      libraries.toLowercase (String.ofList (trim query.toList)) := by
  apply String.toList_inj.mp
  unfold trimText
  rw [String.toList_ofList, trims, alike, lowers.trimmed]

theorem row_id {it : Fields} (searchable : Searchable it) :
    (itemRow js formatAttachmentSize it).id = itemId it :=
  @textOrEmpty_eq_textAt js it ["id"] _ rfl (.inr (.inr searchable.id))

/-- The ids the helper returns, in load order. -/
theorem search_holdAll (lowers : LowersText libraries.toLowercase)
    (alike : js.toLowerCase = libraries.toLowercase)
    (searchable : ∀ it ∈ items, Searchable it) (distinct : (items.map itemId).Nodup)
    {query : String} (free : '\x00' ∉ query.toList) (trims : TrimsAlike (js.toLowerCase query)) :
    (holdAll libraries items).search libraries query =
      (items.filter fun it => matchesQuery js (itemRow js formatAttachmentSize it) query).map
        itemId := by
  have same := trimText_lower lowers alike trims
  unfold Store.search
  rw [items_holdAll searchable distinct]
  dsimp only
  rw [← same]
  by_cases filled : trimText (js.toLowerCase query) = ""
  · have all : (items.filter fun it =>
        matchesQuery js (itemRow js formatAttachmentSize it) query) = items := by
      apply filter_eq_self.mpr
      intro it mem
      unfold matchesQuery
      simp [filled]
    rw [if_pos filled, all, map_map]
    rfl
  · have needleFree : '\x00' ∉ (trimText (js.toLowerCase query)).toList := by
      rw [same]
      apply lowers.free
      rw [String.toList_ofList]
      exact fun mem => free (mem_of_mem_trim mem)
    have asked : query ≠ "" := by
      rintro rfl
      apply filled
      rw [same]
      exact lowers.empty
    have each : ∀ it ∈ items,
        Store.found (trimText (js.toLowerCase query)) (heldOf libraries it (itemId it)) =
          matchesQuery js (itemRow js formatAttachmentSize it) query := by
      intro it mem
      rw [Bool.eq_iff_iff, ← @rowHas_iff_found js formatAttachmentSize libraries it _ lowers alike
        filled (searchable it mem) needleFree (itemId it)]
      unfold matchesQuery
      simp [asked, filled]
    rw [if_neg filled, filter_map, map_map]
    have kept : items.filter (Store.found (trimText (js.toLowerCase query)) ∘
        fun it => heldOf libraries it (itemId it)) =
          items.filter fun it => matchesQuery js (itemRow js formatAttachmentSize it) query := by
      apply filter_congr
      intro it mem
      rw [Function.comp_apply, each it mem]
    rw [kept]
    rfl

theorem mem_parseItems {inOrder : ItemView → ItemView → Bool}
    {row : ItemView} : row ∈ parseItems js formatAttachmentSize inOrder (items.map .object) ↔
      ∃ it ∈ items, itemRow js formatAttachmentSize it = row := by
  have objects : (items.map Json.object).filterMap itemObject = items := by
    rw [filterMap_map]
    exact filterMap_some
  unfold parseItems
  rw [objects, mem_mergeSort, mem_map]

/-- The last four digits of a number that has as many. -/
def lastFour (number : String) : Option Text :=
  let digits := number.toList.filter isAsciiDigit
  if 4 ≤ digits.length then some (lastChars 4 digits) else none

theorem lastFourHave_iff (needle number : String) : lastFourHave needle number ↔
    ∃ four, lastFour number = some four ∧ needle.toList.filter isAsciiDigit <:+: four ∧
      needle.toList.filter isAsciiDigit ≠ [] := by
  unfold lastFourHave lastFour
  dsimp only
  split_ifs with long
  · simp [long]
  · simp [long]

theorem rowHas_without_notes {row : ItemView} (asks : row.reprompt = 1) (q notes : String) :
    rowHas js q { row with notes := notes } = rowHas js q row := by
  unfold rowHas
  simp [asks]

theorem cardHas_update {card : String → String} {number : String}
    (same : lastFour number = lastFour (card "number")) (q : String) :
    cardHas js q (Function.update card "number" number) = cardHas js q card := by
  rw [Bool.eq_iff_iff, cardHas_iff, cardHas_iff, lastFourHave_iff, lastFourHave_iff,
    Function.update_self, same]
  simp

end Lists

/-- The helper and the panel find the same items; notes behind the master password are not
searched, and a card number counts by its last four digits. -/
theorem searches_agree {js : Js} {libraries : Libraries}
    (lowers : LowersText libraries.toLowercase) (alike : js.toLowerCase = libraries.toLowercase)
    {items : List Fields} (searchable : ∀ it ∈ items, Searchable it)
    (distinct : (items.map itemId).Nodup) {query : String} (free : '\x00' ∉ query.toList)
    (trims : TrimsAlike (js.toLowerCase query)) (formatAttachmentSize : Option Json → String)
    (inOrder : ItemView → ItemView → Bool) :
    (holdAll libraries items).search libraries query =
        (items.filter fun it => matchesQuery js (itemRow js formatAttachmentSize it) query).map
          itemId ∧
      (∀ id, id ∈ (holdAll libraries items).search libraries query ↔
        ∃ row ∈ parseItems js formatAttachmentSize inOrder (items.map .object),
          row.id = id ∧ matchesQuery js row query = true) ∧
      (∀ row : ItemView, row.reprompt = 1 → ∀ notes,
        matchesQuery js { row with notes := notes } query = matchesQuery js row query) ∧
      ∀ (row : ItemView) card number, row.card = some card →
        lastFour number = lastFour (card "number") →
        matchesQuery js { row with card := some (Function.update card "number" number) } query =
          matchesQuery js row query := by
  have found : (holdAll libraries items).search libraries query =
      (items.filter fun it => matchesQuery js (itemRow js formatAttachmentSize it) query).map
        itemId := search_holdAll lowers alike searchable distinct free trims
  refine ⟨found, ?_, ?_, ?_⟩
  · intro id
    rw [found, mem_map]
    constructor
    · rintro ⟨it, mem, rfl⟩
      obtain ⟨listed, matched⟩ := mem_filter.mp mem
      exact ⟨_, mem_parseItems.mpr ⟨it, listed, rfl⟩, row_id (searchable it listed), matched⟩
    · rintro ⟨row, listed, rfl, matched⟩
      obtain ⟨it, mem, rfl⟩ := mem_parseItems.mp listed
      exact ⟨it, mem_filter.mpr ⟨mem, matched⟩, (row_id (searchable it mem)).symm⟩
  · intro row asks notes
    unfold matchesQuery
    dsimp only
    rw [rowHas_without_notes asks]
  · intro row card number isCard same
    unfold matchesQuery rowHas
    dsimp only
    rw [isCard, Option.any_some, Option.any_some, cardHas_update same]

/-! ### Two lists -/

/-- Texts in lower case already. -/
theorem lowersText_id : LowersText id where
  empty := rfl
  joined _ _ := rfl
  free _ outside := outside
  trimmed _ := String.toList_ofList

def lowerJs : Js := { plainJs with toLowerCase := id }

/-- Libraries for texts in lower case. -/
def lowerLibraries : Libraries := ⟨fun _ => none, fun _ => "", id⟩

/-- A card that asks for the master password. -/
def lockedCard : Fields :=
  [("card", .object [("brand", .string "visa"), ("number", .string "4111 1111 1111 1234")]),
    ("id", .string "c1"), ("name", .string "bank"), ("notes", .string "pin in the safe"),
    ("reprompt", .number (.natural 1)), ("type", .number (.natural 3))]

theorem searchable_lockedCard : Searchable lockedCard where
  id := ⟨"c1", rfl⟩
  name := ⟨"bank", by decide, rfl⟩
  texts :=
    { name := .inr (.inr ⟨_, rfl⟩)
      notes := .inr (.inr ⟨_, rfl⟩)
      login := fun key mem => .inl rfl
      card := by
        intro key mem
        simp only [cardKeys, mem_cons, not_mem_nil, or_false] at mem
        rcases mem with rfl | rfl | rfl | rfl | rfl | rfl
        · exact .inl rfl
        · exact .inr (.inr ⟨_, rfl⟩)
        · exact .inr (.inr ⟨_, rfl⟩)
        · exact .inl rfl
        · exact .inl rfl
        · exact .inl rfl
      identity := fun key mem => .inl rfl
      fields := nofun }
  uris := .inl rfl
  reprompt := .inr (.inr (.inl ⟨1, rfl⟩))
  publicKey := rfl
  fingerprint := rfl
  names := by
    intro key mem
    have blank : textAt lockedCard ["identity", key] = "" := rfl
    rw [blank]
    exact (rfl : jsTrim [] = trim [])

theorem searches_agree_card :
    (holdAll lowerLibraries [lockedCard]).search lowerLibraries "1234" = ["c1"] ∧
      (holdAll lowerLibraries [lockedCard]).search lowerLibraries "safe" = [] := by
  have each : ∀ it ∈ [lockedCard], Searchable it := by
    intro it mem
    rw [mem_singleton.mp mem]
    exact searchable_lockedCard
  constructor
  all_goals
    refine (@searches_agree lowerJs _ lowersText_id rfl _ each (by decide) _ (by decide)
      (by unfold TrimsAlike; decide) (fun _ => "") fun _ _ => true).1.trans ?_
    decide +kernel

/-- A note that has a public key of its own. -/
def keyedNote : Fields :=
  [("id", .string "n1"), ("name", .string "door"), ("publicKey", .string "ssh-ed25519"),
    ("reprompt", .number (.natural 0)), ("type", .number (.natural 2))]

theorem hasTexts_keyedNote : HasTexts keyedNote where
  name := .inr (.inr ⟨_, rfl⟩)
  notes := .inl rfl
  login key mem := .inl rfl
  card key mem := .inl rfl
  identity key mem := .inl rfl
  fields field mem := by cases mem

/-- The helper searches that key, and the row does not have it. -/
theorem public_key_is_found_by_helper_only :
    HasTexts keyedNote ∧
      (holdAll lowerLibraries [keyedNote]).search lowerLibraries "ssh" = ["n1"] ∧
      matchesQuery lowerJs (itemRow lowerJs (fun _ => "") keyedNote) "ssh" = false := by
  refine ⟨hasTexts_keyedNote, ?_, ?_⟩
  · decide +kernel
  · decide +kernel

end QsBitwarden.Panel
