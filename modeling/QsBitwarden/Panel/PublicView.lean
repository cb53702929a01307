import QsBitwarden.Panel.ItemView
import QsBitwarden.Panel.UnchangedEdit
import QsBitwarden.Vault.Strip

/-! Owns the detail without its secrets: the row of a stripped item and the detail of the full
item give the same view, and the view is the same whatever the secrets are. It does not own the
way a single secret is asked for. -/

namespace QsBitwarden.Panel

open Lib Lib.Json Vault List Option

/-! ### Properties that stripping keeps -/

theorem truthy_map_of_whole {change : Json → Json}
    (keeps : ∀ value, truthy (some (change value)) = truthy (some value)) (value : Option Json) :
    truthy (value.map change) = truthy value := by
  cases value with
  | none => rfl
  | some value => exact keeps value

theorem property_removeKeys (keys : List String) (value : Option Json) (key : String) :
    property (value.map (removeKeys keys)) key =
      if key ∈ keys then none else property value key := by
  cases value with
  | none => exact (ite_self none).symm
  | some value =>
    cases value with
    | object fields => exact Fields.get_removeAll keys
    | _ => exact (ite_self none).symm

theorem truthy_removeKeys (keys : List String) (value : Option Json) :
    truthy (value.map (removeKeys keys)) = truthy value :=
  truthy_map_of_whole (fun value => by cases value <;> rfl) value

theorem property_stripWholeCard (value : Option Json) (key : String) :
    property (value.map stripWholeCard) key =
      if key = "number" then (property value "number").map cutNumber
      else if key = "code" then none else property value key := by
  cases value with
  | none => simp [property]
  | some value =>
    cases value with
    | object card =>
      rw [map_some, stripWholeCard_object]
      exact get_stripWholeCard card key
    | _ => simp [property, stripWholeCard, removeKeys, stripCard, asObject]

theorem truthy_stripWholeCard (value : Option Json) :
    truthy (value.map stripWholeCard) = truthy value :=
  truthy_map_of_whole (fun value => by cases value <;> rfl) value

/-! ### Items that agree outside their secrets -/

open ItemView

variable (js : Js) (formatAttachmentSize : Option Json → String)

def cardSecrets : List String := ["number", "code"]

/-- Custom fields alike but for the value, which only a hidden one may have of its own. -/
structure SameEntry (left right : Option Json) : Prop where
  agree : ∀ key ≠ "value", property left key = property right key
  value : (fieldNumber js left).any (·.equals 1) = false →
    property left "value" = property right "value"

structure Agrees (left right : Fields) : Prop where
  login : ∀ key ∉ loginSecrets, property (left.get "login") key = property (right.get "login") key
  card : ∀ key ∉ cardSecrets, property (left.get "card") key = property (right.get "card") key
  cardThere : truthy (left.get "card") = truthy (right.get "card")
  identity : ∀ key ∉ identitySecrets,
    property (left.get "identity") key = property (right.get "identity") key
  identityThere : truthy (left.get "identity") = truthy (right.get "identity")
  fields : List.Forall₂ (SameEntry js) (listEntries (left.get "fields"))
    (listEntries (right.get "fields"))
  kept : ∀ key ∉ strippedKeys, left.get key = right.get key

variable {js formatAttachmentSize} {left right : Fields}

/-! ### Custom fields in the view -/

/-- The linked ids that are not secret point at what agrees. -/
theorem Agrees.linked (agrees : Agrees js left right) {entry : ℕ × String × String}
    (listed : entry ∈ linkedFields) (shown : entry.1 ∉ sensitiveIds) :
    property (left.get entry.2.1) entry.2.2 = property (right.get entry.2.1) entry.2.2 := by
  have parts : ∀ entry ∈ linkedFields, entry.1 ∉ sensitiveIds →
      entry.2.1 = "login" ∧ entry.2.2 ∉ loginSecrets ∨
      entry.2.1 = "card" ∧ entry.2.2 ∉ cardSecrets ∨
      entry.2.1 = "identity" ∧ entry.2.2 ∉ identitySecrets := by decide
  rcases parts entry listed shown with ⟨part, key⟩ | ⟨part, key⟩ | ⟨part, key⟩
  · rw [part]
    exact agrees.login _ key
  · rw [part]
    exact agrees.card _ key
  · rw [part]
    exact agrees.identity _ key

theorem identityFullName_congr {texts texts' : String → String}
    (same : ∀ key ∈ ["title", "firstName", "middleName", "lastName"], texts key = texts' key) :
    identityFullName texts = identityFullName texts' := by
  unfold identityFullName
  rw [map_congr_left same]

theorem Agrees.linkedCustomFieldValue (agrees : Agrees js left right)
    {linkedId : Option (Option JsonNumber)}
    (shown : linkedCustomFieldIsSensitive linkedId = false) :
    ItemView.linkedCustomFieldValue js left linkedId =
      ItemView.linkedCustomFieldValue js right linkedId := by
  unfold ItemView.linkedCustomFieldValue
  cases found : linkedFields.find? fun entry => linkedIs linkedId entry.1 with
  | none =>
    have names : ∀ key ∈ ["title", "firstName", "middleName", "lastName"],
        key ∉ identitySecrets := by decide
    have same := identityFullName_congr fun key mem =>
      congrArg (textOrEmpty js) (agrees.identity key (names key mem))
    dsimp only
    rw [same]
  | some entry =>
    have listed := mem_of_find?_eq_some found
    have named := find?_some found
    have outside : entry.1 ∉ sensitiveIds := by
      intro secret
      have sensitive : linkedCustomFieldIsSensitive linkedId = true :=
        any_eq_true.mpr ⟨entry.1, secret, named⟩
      rw [shown] at sensitive
      cases sensitive
    exact congrArg (shownText js) (agrees.linked listed outside)

section Entry

variable {field field' : Option Json}

section

variable (same : SameEntry js field field')

include same

theorem SameEntry.fieldNumber :
    ItemView.fieldNumber js field = ItemView.fieldNumber js field' := by
  unfold ItemView.fieldNumber
  rw [same.agree "type" (by decide)]

theorem SameEntry.linkedIdOf :
    ItemView.linkedIdOf js field = ItemView.linkedIdOf js field' := by
  unfold ItemView.linkedIdOf
  rw [same.agree "linkedId" (by decide)]

theorem SameEntry.isSensitive :
    ItemView.isSensitive js field = ItemView.isSensitive js field' := by
  unfold ItemView.isSensitive
  rw [same.fieldNumber, same.linkedIdOf]

end

/-- A custom field that is not sensitive has the same value. -/
theorem Agrees.customFieldValue (agrees : Agrees js left right) (same : SameEntry js field field')
    (shown : ItemView.isSensitive js field = false) :
    ItemView.customFieldValue js left field = ItemView.customFieldValue js right field' := by
  unfold ItemView.isSensitive at shown
  obtain ⟨plain, unlinked⟩ := Bool.or_eq_false_iff.mp shown
  unfold ItemView.customFieldValue
  rw [← same.fieldNumber, ← same.linkedIdOf, ← same.value plain]
  split_ifs with linked
  · rw [linked, Bool.true_and] at unlinked
    exact agrees.linkedCustomFieldValue unlinked
  · rfl

/-- One custom field gives the same entry of the view. -/
theorem Agrees.publicField (agrees : Agrees js left right) (same : SameEntry js field field')
    (index : ℕ) :
    (itemCustomField js left field index).map ItemView.publicField =
      (itemCustomField js right field' index).map ItemView.publicField := by
  have value : (if ItemView.isSensitive js field' then withheld
        else ItemView.customFieldValue js left field) =
      if ItemView.isSensitive js field' then withheld
        else ItemView.customFieldValue js right field' := by
    split_ifs with sensitive
    · rfl
    · rw [← same.isSensitive, Bool.not_eq_true] at sensitive
      exact agrees.customFieldValue same sensitive
  unfold itemCustomField
  rw [same.agree "name" (by decide), same.fieldNumber, same.linkedIdOf, same.isSensitive]
  by_cases named : truthy (property field' "name") = true
  · rw [if_pos named, if_pos named, map_some, map_some]
    unfold ItemView.publicField
    dsimp only
    rw [value]
  · rw [if_neg named, if_neg named]

end Entry

theorem Agrees.publicFields (agrees : Agrees js left right) :
    (itemCustomFields js (left.get "fields") left).map ItemView.publicField =
      (itemCustomFields js (right.get "fields") right).map ItemView.publicField := by
  unfold itemCustomFields
  rw [map_filterMap, map_filterMap]
  have entries := agrees.fields
  generalize listEntries (left.get "fields") = fields at entries
  generalize listEntries (right.get "fields") = fields' at entries
  generalize 0 = start
  induction entries generalizing start with
  | nil => rfl
  | cons same _ ih =>
    rw [zipIdx_cons, zipIdx_cons, filterMap_cons, filterMap_cons,
      ih]
    dsimp only
    rw [agrees.publicField same start]

/-! ### The whole view -/

variable {first second : ItemView}

/-- A view of an item that has the detail's texts, whatever it says about secrets. -/
structure BuiltFrom (js : Js) (formatAttachmentSize : Option Json → String) (it : Fields)
    (view : ItemView) : Prop where
  texts : view =
    { ordinaryDetail js formatAttachmentSize it with
      hasPassword := view.hasPassword, hasNotes := view.hasNotes, hasTotp := view.hasTotp,
      fields := view.fields, heldFlags := view.heldFlags, rawObject := view.rawObject }

theorem builtFrom_itemRow (it : Fields) :
    BuiltFrom js formatAttachmentSize it (itemRow js formatAttachmentSize it) := ⟨rfl⟩

theorem builtFrom_ordinaryDetail (it : Fields) :
    BuiltFrom js formatAttachmentSize it (ordinaryDetail js formatAttachmentSize it) := ⟨rfl⟩

variable {keys : List String}

theorem map_textsAt {part part' : Option Json}
    {change change' : (String → String) → String → String} (there : truthy part = truthy part')
    (same : change (partText js keys part) = change' (partText js keys part')) :
    (textsAt js keys part).map change = (textsAt js keys part').map change' := by
  unfold textsAt
  rw [there]
  by_cases shown : truthy part' = true
  · rw [if_pos shown, if_pos shown, map_some, map_some, same]
  · rw [if_neg shown, if_neg shown]
    rfl

variable {key : String}

theorem partText_of_mem (listed : key ∈ keys)
    (part : Option Json) : partText js keys part key = textOrEmpty js (property part key) :=
  if_pos listed

theorem partText_congr {part part' : Option Json} (same : property part key = property part' key) :
    partText js keys part key = partText js keys part' key := by
  unfold partText
  rw [same]

variable (js left right first second) in
/-- The same secrets are there in two items and their details. -/
structure SameThere : Prop where
  password : first.hasPassword = second.hasPassword
  notes : (first.hasNotes || first.notes ≠ "") = (second.hasNotes || second.notes ≠ "")
  totp : first.hasTotp = second.hasTotp
  number : (textOrEmpty js (property (left.get "card") "number") ≠ "" : Bool) =
    (textOrEmpty js (property (right.get "card") "number") ≠ "" : Bool)
  code : first.has "cardCode" (textOrEmpty js (property (left.get "card") "code")) =
    second.has "cardCode" (textOrEmpty js (property (right.get "card") "code"))
  numbers : ∀ key ∈ identitySecrets,
    first.has key (textOrEmpty js (property (left.get "identity") key)) =
      second.has key (textOrEmpty js (property (right.get "identity") key))

section

variable (agrees : Agrees js left right) (there : SameThere js left right first second)

include agrees there

theorem Agrees.publicCard :
    (cardDetail js (left.get "card")).map (ItemView.publicCard first) =
      (cardDetail js (right.get "card")).map (ItemView.publicCard second) := by
  apply map_textsAt agrees.cardThere
  funext key
  have listed : "number" ∈ cardKeys ∧ "code" ∈ cardKeys := by decide
  unfold ItemView.publicCard
  rw [partText_of_mem listed.1, partText_of_mem listed.1, partText_of_mem listed.2,
    partText_of_mem listed.2, there.number, there.code]
  split_ifs with isNumber isCode
  · rfl
  · rfl
  · exact partText_congr (agrees.card key (by simp [cardSecrets, isNumber, isCode]))

theorem Agrees.publicIdentity :
    (identityDetail js (left.get "identity")).map (ItemView.publicIdentity first) =
      (identityDetail js (right.get "identity")).map (ItemView.publicIdentity second) := by
  apply map_textsAt agrees.identityThere
  funext key
  have listed : ∀ key ∈ identitySecrets, key ∈ identityKeys := by decide
  unfold ItemView.publicIdentity
  split_ifs with secret
  · rw [partText_of_mem (listed key secret), partText_of_mem (listed key secret),
      there.numbers key secret]
  · exact partText_congr (agrees.identity key secret)

/-- Items that agree outside their secrets have the same view, if the same secrets exist. -/
theorem Agrees.publicItemDetail (built : BuiltFrom js formatAttachmentSize left first)
    (built' : BuiltFrom js formatAttachmentSize right second)
    (fields : first.fields.map ItemView.publicField = second.fields.map ItemView.publicField) :
    ItemView.publicItemDetail first = ItemView.publicItemDetail second := by
  have kept := agrees.kept
  have card : first.card.map (ItemView.publicCard first) =
      second.card.map (ItemView.publicCard second) := by
    rw [show first.card = cardDetail js (left.get "card") by rw [built.texts]; rfl,
      show second.card = cardDetail js (right.get "card") by rw [built'.texts]; rfl]
    exact agrees.publicCard there
  have identity : first.identity.map (ItemView.publicIdentity first) =
      second.identity.map (ItemView.publicIdentity second) := by
    rw [show first.identity = identityDetail js (left.get "identity") by rw [built.texts]; rfl,
      show second.identity = identityDetail js (right.get "identity") by rw [built'.texts]; rfl]
    exact agrees.publicIdentity there
  have reprompt : first.reprompt = second.reprompt := by
    rw [built.texts, built'.texts]
    exact congrArg (repromptValue js) (kept "reprompt" (by decide))
  unfold ItemView.publicItemDetail
  rw [there.password, there.notes, there.totp, card, identity, reprompt, map_take, map_take,
    fields, built.texts, built'.texts]
  dsimp only [ordinaryDetail, formDetail, loginUris]
  rw [agrees.login "username" (by decide), agrees.login "uris" (by decide),
    kept "id" (by decide), kept "organizationId" (by decide), kept "collectionIds" (by decide),
    kept "folderId" (by decide), kept "name" (by decide), kept "type" (by decide),
    kept "favorite" (by decide), kept "attachments" (by decide)]

end

/-! ### Stripped items -/

/-- A text, null or nothing wherever the panel reads a text. -/
structure HasTexts (it : Fields) : Prop where
  name : IsText (it.get "name")
  notes : IsText (it.get "notes")
  login : ∀ key ∈ ["username", "password", "totp"], IsText (property (it.get "login") key)
  card : ∀ key ∈ cardKeys, IsText (property (it.get "card") key)
  identity : ∀ key ∈ identityKeys, IsText (property (it.get "identity") key)
  fields : ∀ field ∈ listEntries (it.get "fields"),
    IsText (property field "name") ∧ IsText (property field "value")

/-- A number written without fraction or exponent, null or nothing. -/
def IsWholeNumber (value : Option Json) : Prop :=
  value = none ∨ value = some .null ∨ (∃ number, value = some (.number (.natural number))) ∨
    ∃ number < 0, value = some (.number (.negative number))

variable {value : Option Json}

theorem textOrEmpty_ne_iff (text : IsText value) :
    (textOrEmpty js value ≠ "" : Bool) = truthy value := by
  rcases text with rfl | rfl | ⟨text, rfl⟩
  · rfl
  · rfl
  · by_cases empty : text = ""
    · simp [textOrEmpty, truthy, empty]
    · simp [textOrEmpty, truthy, empty, Json.text]

variable {path : List String}

theorem present_text (text : IsText value) {item : Fields} (found : getPath item path = value) :
    present item path = truthy value := by
  unfold present
  rw [found]
  rcases text with rfl | rfl | ⟨text, rfl⟩ <;> rfl

theorem getPath_two (item : Fields) (part key : String) :
    getPath item [part, key] = property (item.get part) key := rfl

section Stripped

variable {it : Fields} (js)

theorem stripItem_notes : (stripItem it).get "notes" = none := get_stripItem it _

theorem stripItem_login : (stripItem it).get "login" =
    (it.get "login").map (removeKeys loginSecrets) := get_stripItem it _

theorem stripItem_identity : (stripItem it).get "identity" =
    (it.get "identity").map (removeKeys identitySecrets) := get_stripItem it _

theorem stripItem_card : (stripItem it).get "card" = (it.get "card").map stripWholeCard :=
  get_stripItem it _

theorem stripItem_fields :
    (stripItem it).get "fields" = (it.get "fields").map (mapArray stripField) := get_stripItem it _

theorem hidden_fieldNumber {field : Fields} (hidden : hiddenType field) :
    (fieldNumber js (some (.object field))).any (·.equals 1) = true := by
  obtain ⟨value, found, isOne⟩ := bind_eq_some_iff.mp hidden
  have number : property (some (.object field)) "type" = some (.number (.natural 1)) := by
    cases value with
    | number number =>
      cases number with
      | natural one => cases isOne; exact found
      | _ => cases isOne
    | _ => cases isOne
  unfold fieldNumber
  rw [number]
  rfl

theorem sameEntry_stripField (field : Json) :
    SameEntry js (some (stripField field)) (some field) := by
  cases field with
  | object field =>
    by_cases hidden : hiddenType field
    · have kept : ∀ key ≠ "value",
          property (some (stripField (.object field))) key =
            property (some (.object field)) key := by
        intro key other
        rw [stripField_hidden hidden]
        exact (Fields.get_remove).trans (if_neg other)
      refine ⟨kept, ?_⟩
      intro shown
      have same : fieldNumber js (some (stripField (.object field))) =
          fieldNumber js (some (.object field)) := by
        unfold fieldNumber
        rw [kept "type" (by decide)]
      rw [same, hidden_fieldNumber js hidden] at shown
      cases shown
    · rw [stripField_shown hidden]
      exact ⟨fun _ _ => rfl, fun _ => rfl⟩
  | _ => exact ⟨fun _ _ => rfl, fun _ => rfl⟩

theorem sameEntry_refl (field : Option Json) : SameEntry js field field :=
  ⟨fun _ _ => rfl, fun _ => rfl⟩

theorem sameEntries_strip (fields : Option Json) :
    List.Forall₂ (SameEntry js) (listEntries (fields.map (mapArray stripField)))
      (listEntries fields) := by
  have same : ∀ value, List.Forall₂ (SameEntry js) (listEntries value) (listEntries value) :=
    fun value => forall₂_same.mpr fun field _ => sameEntry_refl js field
  cases fields with
  | none => exact same none
  | some value =>
    cases value with
    | array items =>
      unfold listEntries elements
      dsimp only [map_some, mapArray]
      refine forall₂_take _ ?_
      rw [List.map_map, forall₂_map_left_iff, forall₂_map_right_iff]
      exact forall₂_same.mpr fun field _ => sameEntry_stripField js field
    | _ => exact same _

theorem agrees_stripItem : Agrees js (stripItem it) it where
  login key kept := by rw [stripItem_login, property_removeKeys, if_neg kept]
  card key kept := by
    simp only [cardSecrets, mem_cons, not_mem_nil, or_false, not_or] at kept
    rw [stripItem_card, property_stripWholeCard, if_neg kept.1, if_neg kept.2]
  cardThere := by rw [stripItem_card, truthy_stripWholeCard]
  identity key kept := by rw [stripItem_identity, property_removeKeys, if_neg kept]
  identityThere := by rw [stripItem_identity, truthy_removeKeys]
  fields := by
    rw [stripItem_fields]
    exact sameEntries_strip js _
  kept _ := get_stripItem_kept it

theorem heldBy_stripItem :
    heldBy ((stripItem it).get "qsbwHeld") = some (.object (heldFlags it)) := by
  rw [get_stripItem]
  rfl

variable {flag : String}

theorem property_heldFlags (listed : (flag, path) ∈ heldPaths) :
    property (some (.object (heldFlags it))) flag = some (.bool (present it path)) :=
  (flags_heldFlags it).each (flag, path) listed

theorem itemRow_heldFlags (row : Fields) :
    (itemRow js formatAttachmentSize row).heldFlags = heldBy (row.get "qsbwHeld") := rfl

/-- A flag of the helper says whether the secret is there. -/
theorem has_row {value : String} (listed : (flag, path) ∈ heldPaths) :
    (itemRow js formatAttachmentSize (stripItem it)).has flag value = present it path := by
  unfold has
  rw [itemRow_heldFlags, heldBy_stripItem, property_heldFlags listed]
  rfl

theorem has_ordinaryDetail (flag value : String) :
    (ordinaryDetail js formatAttachmentSize it).has flag value = (value ≠ "" : Bool) := by
  unfold has
  exact Bool.false_or _

theorem truthy_cutNumber (text : IsText value) :
    (textOrEmpty js (value.map cutNumber) ≠ "" : Bool) = (textOrEmpty js value ≠ "" : Bool) := by
  have cutText : IsText (value.map cutNumber) := by
    rcases text with rfl | rfl | ⟨text, rfl⟩
    · exact .inl rfl
    · exact .inr (.inl rfl)
    · exact .inr (.inr ⟨_, rfl⟩)
  rw [textOrEmpty_ne_iff cutText, textOrEmpty_ne_iff text]
  rcases text with rfl | rfl | ⟨text, rfl⟩
  · rfl
  · rfl
  · have empty : lastChars 4 text.toList = [] ↔ text.toList = [] := by
      unfold lastChars
      rw [reverse_eq_nil_iff, take_eq_nil_iff, reverse_eq_nil_iff]
      simp
    simp [truthy, cutNumber, empty]

theorem itemRow_flags (row : Fields) :
    (itemRow js formatAttachmentSize row).hasPassword =
        (truthy (property (row.get "login") "password") ||
          truthy (property (heldBy (row.get "qsbwHeld")) "password")) ∧
      ((itemRow js formatAttachmentSize row).hasNotes =
          (truthy (row.get "notes") || truthy (property (heldBy (row.get "qsbwHeld")) "notes")) ∧
        (itemRow js formatAttachmentSize row).notes = textOrEmpty js (row.get "notes")) ∧
      (itemRow js formatAttachmentSize row).hasTotp =
        (truthy (property (row.get "login") "totp") ||
          truthy (property (heldBy (row.get "qsbwHeld")) "totp")) :=
  ⟨rfl, ⟨rfl, rfl⟩, rfl⟩

theorem itemRow_fields (row : Fields) (held : (heldBy (row.get "qsbwHeld")).isSome) :
    (itemRow js formatAttachmentSize row).fields =
      itemCustomFields js (row.get "fields") row := if_pos held

/-- Taken out of the login and flagged. -/
theorem held_login (secret : key ∈ loginSecrets)
    (listed : (flag, ["login", key]) ∈ heldPaths) (text : IsText (property (it.get "login") key)) :
    (truthy (property ((stripItem it).get "login") key) ||
      truthy (property (heldBy ((stripItem it).get "qsbwHeld")) flag)) =
        truthy (property (it.get "login") key) := by
  rw [stripItem_login, property_removeKeys, if_pos secret, heldBy_stripItem,
    property_heldFlags listed, present_text text (getPath_two it _ _)]
  rfl

theorem held_notes (text : IsText (it.get "notes")) :
    ((truthy ((stripItem it).get "notes") ||
        truthy (property (heldBy ((stripItem it).get "qsbwHeld")) "notes")) ||
      (textOrEmpty js ((stripItem it).get "notes") ≠ "" : Bool)) =
        (truthy (it.get "notes") || (textOrEmpty js (it.get "notes") ≠ "" : Bool)) := by
  have listed : ("notes", ["notes"]) ∈ heldPaths := by decide
  have found : getPath it ["notes"] = it.get "notes" := rfl
  rw [stripItem_notes, heldBy_stripItem, property_heldFlags listed, present_text text found,
    textOrEmpty_ne_iff text, Bool.or_self]
  cases truthy (it.get "notes") <;> rfl

/-- The row of a stripped item and the detail of the full one. -/
theorem publicItemDetail_stripItem (texts : HasTexts it) :
    publicItemDetail (itemRow js formatAttachmentSize (stripItem it)) =
      publicItemDetail (ordinaryDetail js formatAttachmentSize it) := by
  have number : (textOrEmpty js (property ((stripItem it).get "card") "number") ≠ "" : Bool) =
      (textOrEmpty js (property (it.get "card") "number") ≠ "" : Bool) := by
    rw [stripItem_card, property_stripWholeCard, if_pos rfl]
    exact truthy_cutNumber js (texts.card "number" (by decide))
  have flagged : ∀ {flag part key value : String}, (flag, [part, key]) ∈ heldPaths →
      IsText (property (it.get part) key) →
      (itemRow js formatAttachmentSize (stripItem it)).has flag value =
        (ordinaryDetail js formatAttachmentSize it).has flag
          (textOrEmpty js (property (it.get part) key)) := by
    intro flag part key value listed text
    rw [has_row js listed, has_ordinaryDetail, textOrEmpty_ne_iff text,
      present_text text (getPath_two it _ _)]
  refine (agrees_stripItem js).publicItemDetail ⟨?_, ?_, ?_, number, ?_, ?_⟩ (builtFrom_itemRow _)
    (builtFrom_ordinaryDetail _) ?_
  · rw [(itemRow_flags js _).1]
    exact held_login (by decide) (by decide) (texts.login "password" (by decide))
  · rw [(itemRow_flags js _).2.1.1, (itemRow_flags js _).2.1.2]
    exact held_notes js texts.notes
  · rw [(itemRow_flags js _).2.2]
    exact held_login (by decide) (by decide) (texts.login "totp" (by decide))
  · exact flagged (by decide) (texts.card "code" (by decide))
  · intro key secret
    have listed : ∀ key ∈ identitySecrets,
        (key, ["identity", key]) ∈ heldPaths ∧ key ∈ identityKeys := by decide
    exact flagged (listed key secret).1 (texts.identity key (listed key secret).2)
  · rw [itemRow_fields js _ (by rw [heldBy_stripItem]; rfl)]
    exact (agrees_stripItem js).publicFields

end Stripped

/-! ### Items that differ in their secrets -/

/-- Equal, or two texts that are not empty. -/
inductive SameSecret : Option Json → Option Json → Prop
  | same (value : Option Json) : SameSecret value value
  | texts {first second : String} (there : first ≠ "") (there' : second ≠ "") :
      SameSecret (some (.string first)) (some (.string second))

/-- A part of an item that has its secrets under these keys. -/
inductive SamePart (secrets : List String) : Option Json → Option Json → Prop
  | same (part : Option Json) : SamePart secrets part part
  | objects {first second : Fields} (agree : ∀ key ∉ secrets, first.get key = second.get key)
      (differ : ∀ key ∈ secrets, SameSecret (first.get key) (second.get key)) :
      SamePart secrets (some (.object first)) (some (.object second))

/-- Custom fields that are equal, or hidden with values of their own. -/
inductive SameCustom (js : Js) : Json → Json → Prop
  | same (field : Json) : SameCustom js field field
  | hidden {first second : Fields}
      (type : (fieldNumber js (some (.object first))).any (·.equals 1) = true)
      (agree : ∀ key ≠ "value", first.get key = second.get key)
      (value : SameSecret (first.get "value") (second.get "value")) :
      SameCustom js (.object first) (.object second)

inductive SameCustoms (js : Js) : Option Json → Option Json → Prop
  | same (fields : Option Json) : SameCustoms js fields fields
  | arrays {first second : List Json} (each : List.Forall₂ (SameCustom js) first second) :
      SameCustoms js (some (.array first)) (some (.array second))

/-- Two items that differ only in secret values that are not empty. -/
structure SameButSecrets (js : Js) (left right : Fields) : Prop where
  notes : SameSecret (left.get "notes") (right.get "notes")
  login : SamePart ["password", "totp"] (left.get "login") (right.get "login")
  card : SamePart cardSecrets (left.get "card") (right.get "card")
  identity : SamePart identitySecrets (left.get "identity") (right.get "identity")
  fields : SameCustoms js (left.get "fields") (right.get "fields")
  kept : ∀ key ∉ ["notes", "login", "card", "identity", "fields"], left.get key = right.get key

section Secrets

variable {secrets : List String} {part part' : Option Json} {value value' : Option Json}

theorem SameSecret.truthy (same : SameSecret value value') :
    Json.truthy value = Json.truthy value' := by
  cases same with
  | same => rfl
  | texts there there' => simp [Json.truthy, there, there']

theorem SameSecret.shown (same : SameSecret value value') :
    (textOrEmpty js value ≠ "" : Bool) = (textOrEmpty js value' ≠ "" : Bool) := by
  cases same with
  | same => rfl
  | texts there there' => simp [textOrEmpty, Json.truthy, Json.text, there, there']

theorem SamePart.kept (same : SamePart secrets part part') {key : String} (kept : key ∉ secrets) :
    property part key = property part' key := by
  cases same with
  | same => rfl
  | objects agree differ => exact agree key kept

theorem SamePart.there (same : SamePart secrets part part') :
    truthy part = truthy part' := by
  cases same <;> rfl

theorem SamePart.secret (same : SamePart secrets part part')
    (secret : key ∈ secrets) : SameSecret (property part key) (property part' key) := by
  cases same with
  | same => exact .same _
  | objects agree differ => exact differ key secret

theorem SameCustom.sameEntry {field field' : Json} (same : SameCustom js field field') :
    SameEntry js (some field) (some field') := by
  cases same with
  | same => exact sameEntry_refl js _
  | hidden type agree value =>
    refine ⟨agree, ?_⟩
    intro shown
    rw [type] at shown
    cases shown

theorem SameCustoms.sameEntries (same : SameCustoms js part part') :
    List.Forall₂ (SameEntry js) (listEntries part) (listEntries part') := by
  cases same with
  | same => exact forall₂_same.mpr fun field _ => sameEntry_refl js field
  | arrays each =>
    refine forall₂_take _ ?_
    rw [elements, elements, forall₂_map_left_iff, forall₂_map_right_iff]
    exact each.imp fun _ _ same => same.sameEntry

section

variable (same : SameButSecrets js left right)

include same

theorem SameButSecrets.agrees : Agrees js left right where
  login key kept := by
    have other : key ∉ ["password", "totp"] := by
      intro secret
      have listed : ∀ key ∈ ["password", "totp"], key ∈ loginSecrets := by decide
      exact kept (listed key secret)
    exact same.login.kept other
  card key kept := same.card.kept kept
  cardThere := same.card.there
  identity key kept := same.identity.kept kept
  identityThere := same.identity.there
  fields := same.fields.sameEntries
  kept key kept := by
    have listed : ∀ key ∈ ["notes", "login", "card", "identity", "fields"], key ∈ strippedKeys := by
      decide
    exact same.kept key fun secret => kept (listed key secret)

theorem SameButSecrets.ordinary :
    publicItemDetail (ordinaryDetail js formatAttachmentSize left) =
      publicItemDetail (ordinaryDetail js formatAttachmentSize right) := by
  refine same.agrees.publicItemDetail ⟨?_, ?_, ?_, ?_, ?_, ?_⟩ (builtFrom_ordinaryDetail _)
    (builtFrom_ordinaryDetail _) ?_
  · exact (same.login.secret (by decide)).truthy
  · change (truthy (left.get "notes") || (textOrEmpty js (left.get "notes") ≠ "" : Bool)) =
      (truthy (right.get "notes") || (textOrEmpty js (right.get "notes") ≠ "" : Bool))
    rw [same.notes.truthy, same.notes.shown]
  · exact (same.login.secret (by decide)).truthy
  · exact (same.card.secret (by decide)).shown
  · rw [has_ordinaryDetail, has_ordinaryDetail]
    exact (same.card.secret (by decide)).shown
  · intro key secret
    rw [has_ordinaryDetail, has_ordinaryDetail]
    exact (same.identity.secret secret).shown
  · exact same.agrees.publicFields

/-- An SSH key's detail has none of the secrets. -/
theorem SameButSecrets.sshKey :
    publicItemDetail (sshKeyDetail js left) = publicItemDetail (sshKeyDetail js right) := by
  have reprompt : (sshKeyDetail js left).reprompt = (sshKeyDetail js right).reprompt :=
    congrArg (repromptValue js) (same.kept "reprompt" (by decide))
  unfold publicItemDetail
  rw [reprompt]
  dsimp only [sshKeyDetail]
  rw [same.kept "id" (by decide), same.kept "organizationId" (by decide),
    same.kept "collectionIds" (by decide), same.kept "folderId" (by decide),
    same.kept "name" (by decide), same.kept "favorite" (by decide)]
  rfl

end

end Secrets

/-- The detail without secrets is one, from the helper's row and from the full item, and no
secret that is there can be told from another by it. -/
theorem public_view_hides_secrets (js : Js) (formatAttachmentSize : Option Json → String) :
    (∀ it, HasTexts it → isSshKey js it = false →
      publicItemDetail (itemRow js formatAttachmentSize (stripItem it)) =
        publicItemDetail (ItemView.itemDetailFromObject js formatAttachmentSize it)) ∧
    ∀ left right, SameButSecrets js left right →
      publicItemDetail (ItemView.itemDetailFromObject js formatAttachmentSize left) =
        publicItemDetail (ItemView.itemDetailFromObject js formatAttachmentSize right) := by
  constructor
  · intro it texts ordinary
    unfold ItemView.itemDetailFromObject
    rw [if_neg (by rw [ordinary]; exact Bool.false_ne_true)]
    exact publicItemDetail_stripItem js texts
  · intro left right same
    have sameType : isSshKey js left = isSshKey js right := by
      unfold isSshKey
      rw [same.kept "type" (by decide)]
    unfold ItemView.itemDetailFromObject
    rw [sameType]
    split_ifs
    · exact same.sshKey
    · exact same.ordinary

/-- A login with a password, a hidden field that holds it too and a field linked to it. -/
def guardedLogin (secret : String) : Fields :=
  [("fields", .array
      [.object [("name", .string "pin"), ("type", .number (.natural 1)), ("value", .string secret)],
        .object [("linkedId", .number (.natural 101)), ("name", .string "same"),
          ("type", .number (.natural 3)), ("value", .null)]]),
    ("id", .string "i1"), ("login", .object [("password", .string secret)]),
    ("name", .string "mail"), ("type", .number (.natural 1))]

theorem hasTexts_guardedLogin (secret : String) : HasTexts (guardedLogin secret) where
  name := .inr (.inr ⟨_, rfl⟩)
  notes := .inl rfl
  login key mem := by
    rcases mem_cons.mp mem with rfl | mem
    · exact .inl rfl
    rcases mem_cons.mp mem with rfl | mem
    · exact .inr (.inr ⟨_, rfl⟩)
    rcases mem_cons.mp mem with rfl | mem
    · exact .inl rfl
    · cases mem
  card key mem := .inl rfl
  identity key mem := .inl rfl
  fields field mem := by
    rcases mem_cons.mp mem with rfl | mem
    · exact ⟨.inr (.inr ⟨_, rfl⟩), .inr (.inr ⟨_, rfl⟩)⟩
    rcases mem_cons.mp mem with rfl | mem
    · exact ⟨.inr (.inr ⟨_, rfl⟩), .inr (.inl rfl)⟩
    · cases mem

theorem sameButSecrets_guardedLogin {first second : String} (there : first ≠ "")
    (there' : second ≠ "") : SameButSecrets plainJs (guardedLogin first) (guardedLogin second) where
  notes := .same _
  login := by
    refine .objects ?_ ?_
    · intro key kept
      have other : key ≠ "password" := fun same => kept (by rw [same]; simp)
      rw [Fields.get_cons, Fields.get_cons, if_neg other, if_neg other]
    · intro key secret
      rcases mem_cons.mp secret with rfl | secret
      · exact .texts there there'
      · rw [mem_singleton.mp secret]
        exact .same none
  card := .same _
  identity := .same _
  fields := by
    refine .arrays (.cons (.hidden rfl ?_ (.texts there there')) (.cons (.same _) .nil))
    intro key other
    simp [Fields.get_cons, other]
  kept key kept := by
    simp only [mem_cons, not_mem_nil, or_false, not_or] at kept
    simp [guardedLogin, Fields.get_cons, kept]

theorem public_view_hides_secrets_guarded :
    publicItemDetail (itemRow plainJs (fun _ => "") (stripItem (guardedLogin "hunter2"))) =
      publicItemDetail (ItemView.itemDetailFromObject plainJs (fun _ => "")
        (guardedLogin "correct horse")) :=
  ((public_view_hides_secrets plainJs fun _ => "").1 (guardedLogin "hunter2")
      (hasTexts_guardedLogin "hunter2") rfl).trans
    ((public_view_hides_secrets plainJs fun _ => "").2 _ _
      (sameButSecrets_guardedLogin (by decide) (by decide)))

end QsBitwarden.Panel
