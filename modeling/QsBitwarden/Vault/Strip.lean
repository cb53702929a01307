import QsBitwarden.Vault.Store

/-! Owns what a vault read hands to the panel: which parts of the document are taken out,
that all others stay, and that two documents which differ only in what is taken out give
the same text. It does not own the items the store keeps. -/

namespace QsBitwarden.Vault

open Lib List Fields

/-! ### What stripping means -/

def loginSecrets : List String := ["password", "totp", "fido2Credentials"]
def identitySecrets : List String := ["ssn", "passportNumber", "licenseNumber"]

/-- The keys of an item that stripping is about. -/
def strippedKeys : List String :=
  ["login", "identity", "card", "fields", "passwordHistory", "notes", "qsbwHeld"]

/-- An object loses these keys and nothing else; any other value stays. -/
inductive Without (keys : List String) : Json → Json → Prop
  | object {before after : Fields} (gone : ∀ key ∈ keys, after.get key = none)
      (kept : ∀ key ∉ keys, after.get key = before.get key) :
      Without keys (.object before) (.object after)
  | other {value : Json} (notObject : value.asObject = none) : Without keys value value

/-- A text keeps its last four characters; any other value stays. -/
inductive LastFour : Json → Json → Prop
  | text (text : String) :
      LastFour (.string text) (.string (String.ofList (lastChars 4 text.toList)))
  | other {value : Json} (notText : value.asStr = none) : LastFour value value

inductive StrippedCard : Json → Json → Prop
  | object {before after : Fields} (code : after.get "code" = none)
      (number : Option.Rel LastFour (before.get "number") (after.get "number"))
      (kept : ∀ key ∉ ["code", "number"], after.get key = before.get key) :
      StrippedCard (.object before) (.object after)
  | other {value : Json} (notObject : value.asObject = none) : StrippedCard value value

/-- The type of a custom field whose value is hidden. -/
def hiddenType (field : Fields) : Prop := (field.get "type").bind Json.asU64 = some 1

inductive StrippedField : Json → Json → Prop
  | hidden {before after : Fields} (hidden : hiddenType before)
      (gone : after.get "value" = none)
      (kept : ∀ key ∉ ["value"], after.get key = before.get key) :
      StrippedField (.object before) (.object after)
  | shown {field : Fields} (shown : ¬hiddenType field) :
      StrippedField (.object field) (.object field)
  | other {value : Json} (notObject : value.asObject = none) : StrippedField value value

/-- An array is stripped element by element; any other value stays. -/
inductive Elementwise (element : Json → Json → Prop) : Json → Json → Prop
  | array {before after : List Json} (each : List.Forall₂ element before after) :
      Elementwise element (.array before) (.array after)
  | other {value : Json} (notArray : value.asArray = none) : Elementwise element value value

/-- One object with one flag for each of the seven values, and no other key. -/
structure Flags (item flags : Fields) : Prop where
  each : ∀ flag ∈ heldPaths, flags.get flag.1 = some (.bool (present item flag.2))
  only : ∀ key ∉ heldPaths.map Prod.fst, flags.get key = none

structure StrippedItem (before after : Fields) : Prop where
  login : Option.Rel (Without loginSecrets) (before.get "login") (after.get "login")
  identity : Option.Rel (Without identitySecrets) (before.get "identity") (after.get "identity")
  card : Option.Rel StrippedCard (before.get "card") (after.get "card")
  fields : Option.Rel (Elementwise StrippedField) (before.get "fields") (after.get "fields")
  passwordHistory : after.get "passwordHistory" = none
  notes : after.get "notes" = none
  held : ∃ flags, after.get "qsbwHeld" = some (.object flags) ∧ Flags before flags
  kept : ∀ key ∉ strippedKeys, after.get key = before.get key

inductive StrippedValue : Json → Json → Prop
  | item {before after : Fields} (stripped : StrippedItem before after) :
      StrippedValue (.object before) (.object after)
  | other {value : Json} (notObject : value.asObject = none) : StrippedValue value value

/-- The items are stripped and every other key of the document stays. -/
structure StrippedVault (before after : Fields) : Prop where
  items : Option.Rel (Elementwise StrippedValue) (before.get "items") (after.get "items")
  kept : ∀ key ≠ "items", after.get key = before.get key

/-! ### Documents that differ in secrets only -/

inductive SameOutside (keys : List String) : Json → Json → Prop
  | same (value : Json) : SameOutside keys value value
  | objects {left right : Fields} (agree : ∀ key ∉ keys, left.get key = right.get key) :
      SameOutside keys (.object left) (.object right)

inductive SameLastFour : Json → Json → Prop
  | same (value : Json) : SameLastFour value value
  | texts {left right : String} (agree : lastChars 4 left.toList = lastChars 4 right.toList) :
      SameLastFour (.string left) (.string right)

inductive SameCard : Json → Json → Prop
  | same (value : Json) : SameCard value value
  | objects {left right : Fields}
      (number : Option.Rel SameLastFour (left.get "number") (right.get "number"))
      (agree : ∀ key ∉ ["code", "number"], left.get key = right.get key) :
      SameCard (.object left) (.object right)

inductive SameField : Json → Json → Prop
  | same (value : Json) : SameField value value
  | hidden {left right : Fields} (hidden : hiddenType left)
      (agree : ∀ key ∉ ["value"], left.get key = right.get key) :
      SameField (.object left) (.object right)

inductive SameElements (element : Json → Json → Prop) : Json → Json → Prop
  | same (value : Json) : SameElements element value value
  | arrays {left right : List Json} (each : List.Forall₂ element left right) :
      SameElements element (.array left) (.array right)

/-- A text that is not empty. -/
def NonEmptyText (item : Fields) (path : List String) : Prop :=
  ∃ text, getPath item path = some (.string text) ∧ text ≠ ""

def TextOrNull (item : Fields) (path : List String) : Prop :=
  ∀ value, getPath item path = some value → value = .null ∨ ∃ text, value = .string text

structure SameItem (left right : Fields) : Prop where
  login : Option.Rel (SameOutside loginSecrets) (left.get "login") (right.get "login")
  identity : Option.Rel (SameOutside identitySecrets) (left.get "identity") (right.get "identity")
  card : Option.Rel SameCard (left.get "card") (right.get "card")
  fields : Option.Rel (SameElements SameField) (left.get "fields") (right.get "fields")
  agree : ∀ key ∉ strippedKeys, left.get key = right.get key
  texts : ∀ flag ∈ heldPaths, TextOrNull left flag.2 ∧ TextOrNull right flag.2
  nonEmpty : ∀ flag ∈ heldPaths, NonEmptyText left flag.2 ↔ NonEmptyText right flag.2

inductive SameValue : Json → Json → Prop
  | items {left right : Fields} (same : SameItem left right) :
      SameValue (.object left) (.object right)

/-- Two documents whose items are objects that differ only in secrets. -/
structure SameVault (left right : Fields) : Prop where
  items : Option.Rel (SameElements SameValue) (left.get "items") (right.get "items")
  agree : ∀ key ≠ "items", left.get key = right.get key

/-! ### Optional values and arrays -/

section Generic

variable {relation : Json → Json → Prop} {change : Json → Json} {left right : Option Json}

theorem rel_map (each : ∀ value, relation value (change value)) (value : Option Json) :
    Option.Rel relation value (value.map change) := by
  cases value with
  | none => exact .none
  | some value => exact .some (each value)

theorem map_eq_of_rel (related : Option.Rel relation left right)
    (equal : ∀ first second, left = some first → right = some second → relation first second →
      change first = change second) : left.map change = right.map change := by
  cases related with
  | none => rfl
  | some both => exact congrArg some (equal _ _ rfl rfl both)

/-- Change every element of an array. -/
def mapArray (change : Json → Json) : Json → Json
  | .array items => .array (items.map change)
  | other => other

theorem elementwise_mapArray (each : ∀ value, relation value (change value)) (value : Json) :
    Elementwise relation value (mapArray change value) := by
  cases value with
  | array items =>
    refine .array ?_
    rw [List.forall₂_map_right_iff]
    exact List.forall₂_same.mpr fun value _ => each value
  | _ => exact .other rfl

theorem mapArray_eq_of_same {first second : Json} (same : SameElements relation first second)
    (firstSorted : first.Sorted) (secondSorted : second.Sorted)
    (equal : ∀ left right, left.Sorted → right.Sorted → relation left right →
      change left = change right) : mapArray change first = mapArray change second := by
  cases same with
  | same => rfl
  | @arrays lefts rights each =>
    have items : lefts.map change = rights.map change := by
      induction each with
      | nil => rfl
      | cons both _ ih =>
        have heads := equal _ _ (firstSorted.item mem_cons_self)
          (secondSorted.item mem_cons_self) both
        have tails := ih
          (.array fun value mem => firstSorted.item (mem_cons_of_mem _ mem))
          (.array fun value mem => secondSorted.item (mem_cons_of_mem _ mem))
        rw [map_cons, map_cons, heads, tails]
    exact congrArg Json.array items

end Generic

/-! ### Objects that lose keys -/

/-- An object without these keys. -/
def removeKeys (keys : List String) : Json → Json
  | .object fields => .object (keys.foldl remove fields)
  | other => other

theorem without_removeKeys (keys : List String) (value : Json) :
    Without keys value (removeKeys keys value) := by
  cases value with
  | object fields =>
    refine .object ?_ ?_
    · intro key mem
      rw [get_removeAll, if_pos mem]
    · intro key absent
      rw [get_removeAll, if_neg absent]
  | _ => exact .other rfl

/-- Objects that agree on the other keys are the same once these are gone. -/
theorem removeAll_eq_of_agree {keys : List String} {left right : Fields}
    (leftOrdered : left.Ordered) (rightOrdered : right.Ordered)
    (agree : ∀ key ∉ keys, left.get key = right.get key) :
    keys.foldl remove left = keys.foldl remove right := by
  refine (leftOrdered.removeAll keys).ext (rightOrdered.removeAll keys) ?_
  intro key
  rw [get_removeAll, get_removeAll]
  by_cases gone : key ∈ keys
  · rw [if_pos gone, if_pos gone]
  · rw [if_neg gone, if_neg gone]
    exact agree key gone

variable {left right : Json}

theorem removeKeys_eq_of_same {keys : List String}
    (same : SameOutside keys left right) (leftSorted : left.Sorted) (rightSorted : right.Sorted) :
    removeKeys keys left = removeKeys keys right := by
  cases same with
  | same => rfl
  | objects agree =>
    exact congrArg Json.object
      (removeAll_eq_of_agree leftSorted.ordered rightSorted.ordered agree)

/-! ### Cards -/

/-- A card without its code, its number cut to the last four. -/
def stripWholeCard (card : Json) : Json := stripCard (removeKeys ["code"] card)

/-- What stripping does to the card number's value. -/
def cutNumber : Json → Json
  | .string number => .string (String.ofList (lastChars 4 number.toList))
  | other => other

theorem stripWholeCard_object (card : Fields) :
    stripWholeCard (.object card) = .object ((card.remove "code").update "number" cutNumber) := by
  have change : (fun
      | .string number => .string (String.ofList (lastChars 4 number.toList))
      | other => other) = cutNumber := by
    funext value
    cases value <;> rfl
  exact congrArg (fun cut => Json.object ((card.remove "code").update "number" cut)) change

theorem lastFour_cutNumber (value : Json) : LastFour value (cutNumber value) := by
  cases value with
  | string text => exact .text text
  | _ => exact .other rfl

theorem cutNumber_eq_of_same (same : SameLastFour left right) :
    cutNumber left = cutNumber right := by
  cases same with
  | same => rfl
  | texts agree => exact congrArg (fun chars => Json.string (String.ofList chars)) agree

theorem get_stripWholeCard (card : Fields) (key : String) :
    ((card.remove "code").update "number" cutNumber).get key =
      if key = "number" then (card.get "number").map cutNumber
      else if key = "code" then none else card.get key := by
  rw [get_update, get_remove]
  by_cases number : key = "number"
  · rw [if_pos number, if_pos number, number]
    simp
  · rw [if_neg number, if_neg number]

theorem strippedCard_stripWholeCard (card : Json) : StrippedCard card (stripWholeCard card) := by
  cases card with
  | object card =>
    rw [stripWholeCard_object]
    refine .object ?_ ?_ ?_
    · rw [get_stripWholeCard]
      simp
    · rw [get_stripWholeCard, if_pos rfl]
      exact rel_map lastFour_cutNumber _
    · intro key absent
      simp only [mem_cons, not_mem_nil, or_false, not_or] at absent
      rw [get_stripWholeCard, if_neg absent.2, if_neg absent.1]
  | _ => exact .other rfl

theorem stripWholeCard_eq_of_same (same : SameCard left right)
    (leftSorted : left.Sorted) (rightSorted : right.Sorted) :
    stripWholeCard left = stripWholeCard right := by
  cases same with
  | same => rfl
  | objects number agree =>
    rw [stripWholeCard_object, stripWholeCard_object]
    refine congrArg Json.object
      (leftSorted.ordered.remove.update.ext rightSorted.ordered.remove.update ?_)
    intro key
    rw [get_stripWholeCard, get_stripWholeCard]
    by_cases isNumber : key = "number"
    · rw [if_pos isNumber, if_pos isNumber]
      exact map_eq_of_rel number fun _ _ _ _ both => cutNumber_eq_of_same both
    · rw [if_neg isNumber, if_neg isNumber]
      by_cases isCode : key = "code"
      · rw [if_pos isCode, if_pos isCode]
      · rw [if_neg isCode, if_neg isCode]
        exact agree key (by simp [isCode, isNumber])

/-! ### Custom fields -/

theorem stripField_hidden {field : Fields} (hidden : hiddenType field) :
    stripField (.object field) = .object (field.remove "value") :=
  if_pos hidden

theorem stripField_shown {field : Fields} (shown : ¬hiddenType field) :
    stripField (.object field) = .object field :=
  if_neg shown

theorem strippedField_stripField (field : Json) : StrippedField field (stripField field) := by
  cases field with
  | object field =>
    by_cases hidden : hiddenType field
    · rw [stripField_hidden hidden]
      refine .hidden hidden (by rw [get_remove, if_pos rfl]) ?_
      intro key absent
      rw [get_remove, if_neg (by simpa using absent)]
    · rw [stripField_shown hidden]
      exact .shown hidden
  | _ => exact .other rfl

theorem stripField_eq_of_same (same : SameField left right)
    (leftSorted : left.Sorted) (rightSorted : right.Sorted) :
    stripField left = stripField right := by
  cases same with
  | same => rfl
  | @hidden left right hidden agree =>
    have alsoHidden : hiddenType right := by
      unfold hiddenType at hidden ⊢
      rw [← agree "type" (by simp)]
      exact hidden
    rw [stripField_hidden hidden, stripField_hidden alsoHidden]
    exact congrArg Json.object
      (removeAll_eq_of_agree leftSorted.ordered rightSorted.ordered agree)

theorem stripFields_eq : stripFields = mapArray stripField := by
  funext value
  cases value <;> rfl

/-! ### Items -/

section Item

variable (item : Fields)

theorem removePath_one (last : String) : removePath item [last] = item.remove last := by
  rw [removePath]

theorem removePath_two (key last : String) :
    removePath item [key, last] = item.update key (removeKeys [last]) := by
  have change : (fun
      | .object inner => .object (removePath inner [last])
      | other => other) = removeKeys [last] := by
    funext value
    cases value <;> rfl
  exact congrArg (item.update key) change

theorem removeKeys_removeKeys (first second : List String) (value : Json) :
    removeKeys second (removeKeys first value) = removeKeys (first ++ second) value := by
  cases value with
  | object fields => exact congrArg Json.object foldl_append.symm
  | _ => rfl

/-- The item before its flags are added. -/
def withoutSecrets : Fields :=
  update (update (secretPaths.foldl removePath item) "card" stripCard) "fields"
    stripFields

/-- The removals, one key of the item after the other. -/
theorem withoutSecrets_eq : withoutSecrets item =
    (((((((((((item.update "login" (removeKeys ["password"])).update "login"
      (removeKeys ["totp"])).update "login" (removeKeys ["fido2Credentials"])).remove
      "passwordHistory").remove "notes").update "card" (removeKeys ["code"])).update "identity"
      (removeKeys ["ssn"])).update "identity" (removeKeys ["passportNumber"])).update "identity"
      (removeKeys ["licenseNumber"])).update "card" stripCard).update "fields" stripFields) := by
  simp only [withoutSecrets, secretPaths, foldl_cons, foldl_nil, removePath_one,
    removePath_two]

theorem stripItem_eq :
    stripItem item = (withoutSecrets item).insert "qsbwHeld" (.object (heldFlags item)) := rfl

/-- What becomes of the value at a key, the flags aside. -/
def stripAt (key : String) (value : Option Json) : Option Json :=
  if key = "login" then value.map (removeKeys loginSecrets)
  else if key = "identity" then value.map (removeKeys identitySecrets)
  else if key = "card" then value.map stripWholeCard
  else if key = "fields" then value.map (mapArray stripField)
  else if key = "passwordHistory" ∨ key = "notes" then none
  else value

theorem get_stripItem (key : String) : (stripItem item).get key =
    if key = "qsbwHeld" then some (.object (heldFlags item)) else stripAt key (item.get key) := by
  have whole : stripCard ∘ removeKeys ["code"] = stripWholeCard := rfl
  rw [stripItem_eq, withoutSecrets_eq]
  by_cases stripped : key ∈ strippedKeys
  · simp only [strippedKeys, mem_cons, not_mem_nil, or_false] at stripped
    rcases stripped with rfl | rfl | rfl | rfl | rfl | rfl | rfl <;>
      simp [stripAt, get_insert, get_update, get_remove, Function.comp_def,
        removeKeys_removeKeys, loginSecrets, identitySecrets, stripFields_eq, ← whole]
  · simp only [strippedKeys, mem_cons, not_mem_nil, or_false, not_or] at stripped
    simp [stripAt, get_insert, get_update, get_remove, stripped]

theorem get_stripItem_kept {key : String} (kept : key ∉ strippedKeys) :
    (stripItem item).get key = item.get key := by
  simp only [strippedKeys, mem_cons, not_mem_nil, or_false, not_or] at kept
  rw [get_stripItem]
  simp [stripAt, kept]

theorem flags_heldFlags : Flags item (heldFlags item) where
  each flag mem := by
    simp only [heldPaths, mem_cons, not_mem_nil, or_false] at mem
    rcases mem with rfl | rfl | rfl | rfl | rfl | rfl | rfl <;>
      simp [heldFlags, heldPaths, get_insert]
  only key absent := by
    simp only [heldPaths, map_cons, map_nil, mem_cons, not_mem_nil, or_false,
      not_or] at absent
    simp [heldFlags, heldPaths, get_insert, absent]

theorem strippedItem_stripItem : StrippedItem item (stripItem item) where
  login := by
    rw [get_stripItem]
    exact rel_map (without_removeKeys _) _
  identity := by
    rw [get_stripItem]
    exact rel_map (without_removeKeys _) _
  card := by
    rw [get_stripItem]
    exact rel_map strippedCard_stripWholeCard _
  fields := by
    rw [get_stripItem]
    exact rel_map (elementwise_mapArray strippedField_stripField) _
  passwordHistory := get_stripItem item _
  notes := get_stripItem item _
  held := ⟨heldFlags item, get_stripItem item _, flags_heldFlags item⟩
  kept _ := get_stripItem_kept item

end Item

theorem ordered_stripItem {item : Fields} (ordered : item.Ordered) : (stripItem item).Ordered := by
  rw [stripItem_eq, withoutSecrets_eq]
  exact ordered.update.update.update.remove.remove.update.update.update.update.update.update.insert

theorem present_iff_nonEmptyText {item : Fields} {path : List String}
    (text : TextOrNull item path) : present item path = true ↔ NonEmptyText item path := by
  unfold present NonEmptyText
  cases found : getPath item path with
  | none => simp
  | some value =>
    rcases text value found with rfl | ⟨text, rfl⟩
    · simp
    · simp

theorem heldFlags_eq_of_same {left right : Fields} (same : SameItem left right) :
    heldFlags left = heldFlags right := by
  unfold heldFlags
  refine foldl_ext _ _ _ ?_
  intro flags flag mem
  have texts := same.texts flag mem
  have equal : present left flag.2 = present right flag.2 := by
    rw [Bool.eq_iff_iff, present_iff_nonEmptyText texts.1, present_iff_nonEmptyText texts.2]
    exact same.nonEmpty flag mem
  rw [equal]

section Same

variable {left right : Fields}

/-- Items that differ only in secrets are the same once stripped. -/
theorem stripItem_eq_of_same (same : SameItem left right)
    (leftSorted : Json.Sorted (.object left)) (rightSorted : Json.Sorted (.object right)) :
    stripItem left = stripItem right := by
  refine (ordered_stripItem leftSorted.ordered).ext (ordered_stripItem rightSorted.ordered) ?_
  intro key
  rw [get_stripItem, get_stripItem, heldFlags_eq_of_same same]
  split_ifs with held
  · rfl
  by_cases kept : key ∉ strippedKeys
  · rw [same.agree key kept]
  simp only [strippedKeys, mem_cons, not_mem_nil, or_false, not_not] at kept
  rcases kept with rfl | rfl | rfl | rfl | rfl | rfl | rfl
  · exact map_eq_of_rel same.login fun _ _ inLeft inRight both =>
      removeKeys_eq_of_same both (leftSorted.get inLeft) (rightSorted.get inRight)
  · exact map_eq_of_rel same.identity fun _ _ inLeft inRight both =>
      removeKeys_eq_of_same both (leftSorted.get inLeft) (rightSorted.get inRight)
  · exact map_eq_of_rel same.card fun _ _ inLeft inRight both =>
      stripWholeCard_eq_of_same both (leftSorted.get inLeft) (rightSorted.get inRight)
  · exact map_eq_of_rel same.fields fun _ _ inLeft inRight both =>
      mapArray_eq_of_same both (leftSorted.get inLeft) (rightSorted.get inRight)
        fun _ _ first second field => stripField_eq_of_same field first second
  · rfl
  · rfl
  · exact absurd rfl held

end Same

/-! ### Vault reads -/

theorem strippedValue_stripValue (value : Json) : StrippedValue value (stripValue value) := by
  cases value with
  | object item => exact .item (strippedItem_stripItem item)
  | _ => exact .other rfl

theorem stripValue_eq_of_same (leftSorted : left.Sorted)
    (rightSorted : right.Sorted) (same : SameValue left right) :
    stripValue left = stripValue right := by
  cases same with
  | items same => exact congrArg Json.object (stripItem_eq_of_same same leftSorted rightSorted)

theorem stripItems_eq : stripItems = mapArray stripValue := by
  funext value
  cases value <;> rfl

theorem strippedVault_update (vault : Fields) :
    StrippedVault vault (vault.update "items" stripItems) where
  items := by
    rw [get_update, if_pos rfl, stripItems_eq]
    exact rel_map (elementwise_mapArray strippedValue_stripValue) _
  kept key other := by rw [get_update, if_neg other]

theorem update_eq_of_same {left right : Fields} (same : SameVault left right)
    (leftSorted : Json.Sorted (.object left)) (rightSorted : Json.Sorted (.object right)) :
    left.update "items" stripItems = right.update "items" stripItems := by
  refine leftSorted.ordered.update.ext rightSorted.ordered.update ?_
  intro key
  rw [get_update, get_update]
  by_cases items : key = "items"
  · rw [if_pos items, if_pos items, items, stripItems_eq]
    exact map_eq_of_rel same.items fun _ _ inLeft inRight both =>
      mapArray_eq_of_same both (leftSorted.get inLeft) (rightSorted.get inRight)
        fun _ _ first second => stripValue_eq_of_same first second
  · rw [if_neg items, if_neg items]
    exact same.agree key items

theorem text_of_read {libraries : Libraries} {raw : String} {vault : Fields}
    (read : libraries.fromStr raw = some (.object vault)) (store : Store) (replace : Bool) :
    (store.stripVault libraries raw replace).1 =
      some (libraries.toString (.object (vault.update "items" stripItems))) := by
  unfold Store.stripVault
  rw [read]

/-- The text handed to the panel is a document with nothing but the secrets gone and one
object of flags added to each item; and documents that differ only in the secrets give one
text, whatever the store held. A reader keeps the keys of an object in order. -/
theorem strip_hides_secrets (libraries : Libraries)
    (sorted : ∀ raw value, libraries.fromStr raw = some value → value.Sorted) :
    (∀ raw vault, libraries.fromStr raw = some (.object vault) → ∀ store replace,
      ∃ stripped, StrippedVault vault stripped ∧
        (Store.stripVault libraries store raw replace).1 =
          some (libraries.toString (.object stripped))) ∧
    ∀ raw vault raw' vault', libraries.fromStr raw = some (.object vault) →
      libraries.fromStr raw' = some (.object vault') → SameVault vault vault' →
      ∀ store store' replace replace',
        (Store.stripVault libraries store raw replace).1 =
          (Store.stripVault libraries store' raw' replace').1 := by
  constructor
  · intro raw vault read store replace
    exact ⟨_, strippedVault_update vault, text_of_read read store replace⟩
  · intro raw vault raw' vault' read read' same store store' replace replace'
    rw [text_of_read read store replace, text_of_read read' store' replace',
      update_eq_of_same same (sorted raw _ read) (sorted raw' _ read')]

/-- A document with one login, by its password. -/
def oneLogin (password : String) : Fields :=
  [("items", .array [.object [("login", .object [("password", .string password)]),
    ("name", .string "bank")]])]

theorem sameVault_oneLogin {left right : String} (leftSome : left ≠ "") (rightSome : right ≠ "") :
    SameVault (oneLogin left) (oneLogin right) where
  items := by
    refine .some (.arrays (.cons (.items ?_) .nil))
    refine ⟨.some (.objects ?_), .none, .none, .none, ?_, fun flag mem => ?_, fun flag mem => ?_⟩
    · intro key absent
      have other : key ≠ "password" := fun same => absent (by rw [same]; simp [loginSecrets])
      rw [get_cons, get_cons, if_neg other, if_neg other]
    · intro key absent
      have other : key ≠ "login" := fun same => absent (by rw [same]; simp [strippedKeys])
      simp [get_cons, other]
    all_goals
      simp only [heldPaths, mem_cons, not_mem_nil, or_false] at mem
      rcases mem with rfl | rfl | rfl | rfl | rfl | rfl | rfl <;>
        simp [TextOrNull, NonEmptyText, getPath, get_cons, Json.asObject, leftSome, rightSome]
  agree key other := by
    unfold oneLogin
    rw [get_cons, get_cons, if_neg other, if_neg other]

/-- The text of that document. -/
def oneLoginText (password : String) : String :=
  jsonLibraries.toString (.object (oneLogin password))

theorem oneLoginText_reads (password : String) :
    jsonLibraries.fromStr (oneLoginText password) = some (.object (oneLogin password)) :=
  jsonLibraries_reads ⟨⟨⟨⟨trivial, trivial⟩, trivial, trivial⟩, trivial⟩, trivial⟩ rfl

theorem strip_hides_secrets_oneLogin :
    (Store.empty.stripVault jsonLibraries (oneLoginText "hunter2") true).1 =
      (Store.empty.stripVault jsonLibraries (oneLoginText "correct horse") false).1 := by
  have sorted (raw : String) (value : Json) (read : jsonLibraries.fromStr raw = some value) :
      value.Sorted := by
    obtain ⟨document, -, rfl⟩ := Option.map_eq_some_iff.mp read
    exact Json.sorted_mapped document
  exact (strip_hides_secrets jsonLibraries sorted).2 _ _ _ _ (oneLoginText_reads _)
    (oneLoginText_reads _) (sameVault_oneLogin (by decide) (by decide)) .empty .empty true false

end QsBitwarden.Vault
