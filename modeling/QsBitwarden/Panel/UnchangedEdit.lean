import QsBitwarden.Panel.FormParts

/-! Owns the edit form saved as it was opened: which stored items come back with nothing
altered or dropped, among those that `bw` returns. -/

namespace QsBitwarden.Panel

open Lib Lib.Json List Option Fields

/-! ### Items -/

/-- An item as `bw` returns it, any other keys beside. -/
structure Returned (type : ℕ) (stored : Fields) : Prop where
  type_eq : stored.get "type" = some (.number (.natural type))
  editable : type ∈ [1, 2, 3, 4]
  name : ∃ text, stored.get "name" = some (.string text)
  notes : IsText (stored.get "notes")
  favorite : stored.get "favorite" = none ∨ ∃ on, stored.get "favorite" = some (.bool on)
  organizationId : IsId ["", "personal", "all"] (stored.get "organizationId")
  folderId : IsId ["", "all", "none"] (stored.get "folderId")
  collectionIds : stored.get "collectionIds" = none ∨ stored.get "collectionIds" = some .null ∨
    ∃ ids, stored.get "collectionIds" = some (.array ids)
  login : type = 1 → ∃ login, stored.get "login" = some (.object login) ∧ ReturnedLogin login
  card : type = 3 → ∃ card, stored.get "card" = some (.object card) ∧ TextsAt cardKeys card
  identity : type = 4 → ∃ identity, stored.get "identity" = some (.object identity) ∧
    TextsAt identityKeys identity
  fields : stored.get "fields" = none ∨ stored.get "fields" = some .null ∨
    ∃ fields, stored.get "fields" = some (.array fields) ∧
      ∀ item ∈ fields, ∃ field, item = .object field ∧ ReturnedField field

structure Unaltered (stored : Fields) : Prop where
  named : stored.get "name" ≠ some (.string "")
  websites : ∀ (login : Fields) (uris : List Json), isNumber (stored.get "type") 1 →
    stored.get "login" = some (.object login) → login.get "uris" = some (.array uris) →
    uris.length ≤ maxListEntries
  fields : stored.get "fields" ≠ some .null
  count : ∀ fields, stored.get "fields" = some (.array fields) → fields.length ≤ maxListEntries
  field : ∀ fields, stored.get "fields" = some (.array fields) →
    ∀ field : Fields, .object field ∈ fields → FieldKept field

/-- An item whose form can be saved: it has a title, an item of an organization has collections,
and every custom field has a label. -/
structure Saveable (stored : Fields) : Prop where
  titled : ∀ name, stored.get "name" = some (.string name) → name ≠ "" → trimText name ≠ ""
  collected : isNull (stored.get "organizationId") = false →
    ∃ id ids, stored.get "collectionIds" = some (.array (id :: ids))
  labelled : ∀ items, stored.get "fields" = some (.array items) →
    ∀ field : Fields, .object field ∈ items.take maxListEntries →
      ∃ label, field.get "name" = some (.string label) ∧ trimText label ≠ ""

/-- A personal item has no collections to keep. -/
def keptPart (stored : Fields) : Fields :=
  if isNull (stored.get "organizationId") then stored.remove "collectionIds" else stored

section Unchanged

variable {js : Js}

variable {type : ℕ} {stored : Fields} {items : List Json}

theorem Returned.fields_of_array (returned : Returned type stored)
    (there : stored.get "fields" = some (.array items)) :
    ReturnedFields items := by
  simpa [there, ReturnedFields] using returned.fields

/-! ### The payload -/

/-- The form as it is opened for a stored item. -/
def openedForm (js : Js) (stored : Fields) : EditForm :=
  startEditItemNow js (formDetail js stored)

theorem orElse_self (text : String) : orElse text text = text := by
  unfold orElse
  split <;> rfl

/-- The keys every item has, written. -/
abbrev headPayload (js : Js) (stored : Fields) : Fields :=
  writeHead js stored (openedForm js stored)

variable {key : String} {old value : Json}

theorem get_headPayload (js : Js) (stored : Fields) (key : String) :
    (headPayload js stored).get key =
      if key = "folderId" then some (ofText (selectedFolderId (openedForm js stored).folderId))
      else if key = "organizationId" then
        some (ofText (selectedOrganizationId (openedForm js stored).orgId))
      else if key = "favorite" then some (.bool (openedForm js stored).favorite)
      else if key = "notes" then
        some (formValue js (stored.get "notes") (openedForm js stored).notes .string)
      else if key = "name" then some (formValue js (stored.get "name")
        (orElse (openedForm js stored).name "Untitled") trimmedText)
      else stored.get key := by
  simp [writeHead, writeValue, get_insert]

/-- An id is chosen in the form as it is stored. -/
theorem ofText_selected {words : List String} (blank : "" ∈ words) {value : Option Json}
    (isId : IsId words value) (there : value = some old) :
    ofText (if (idOrNull js value).getD "" ∈ words then none
      else some ((idOrNull js value).getD "")) = old := by
  rcases isId with rfl | rfl | ⟨text, foreign, rfl⟩
  · cases there
  · cases there
    simp [idOrNull, truthy, blank, ofText]
  · cases there
    have filled : text ≠ "" := fun empty => foreign (empty ▸ blank)
    simp [idOrNull, truthy, filled, Json.text, foreign, ofText]

/-- Apart from the name, what every item has is written as it was. -/
theorem within_headPayload (returned : Returned type stored)
    (other : key ≠ "name") (there : stored.get key = some old) :
    (headPayload js stored).get key = some old := by
  rw [get_headPayload, if_neg other]
  split_ifs with folder organization favorite notes
  · subst folder
    exact congrArg some (ofText_selected (by decide) returned.folderId there)
  · subst organization
    exact congrArg some (ofText_selected (by decide) returned.organizationId there)
  · subst favorite
    obtain ⟨on, shape⟩ := returned.favorite.resolve_left (by rw [there]; exact some_ne_none _)
    change some (Json.bool (truthy (stored.get "favorite"))) = _
    rw [← there, shape]
    rfl
  · subst notes
    change some (formValue js (stored.get "notes") (textOrEmpty js (stored.get "notes")) _) = _
    rw [there]
    exact congrArg some (formValue_unchanged (there ▸ returned.notes) .string)
  · exact there

/-! ### Collections and the item's own type -/

theorem get_writeCollections_of_ne (payload : Fields) (form : EditForm)
    (other : key ≠ "collectionIds") :
    (writeCollections payload form).get key = payload.get key := by
  unfold writeCollections
  split_ifs
  · rw [get_remove, if_neg other]
  · rw [get_insert, if_neg other]
  · rfl
  · rw [get_insert, if_neg other]

/-- What a form without a problem is like. -/
theorem validateItemForm_iff {form : EditForm} : validateItemForm form = "" ↔
    trimText form.name ≠ "" ∧
      ¬ (form.orgId ∉ ["", "personal", "all"] ∧ form.collectionIds.isEmpty) ∧
      ∀ field ∈ form.customFields.take maxListEntries, trimText field.name ≠ "" := by
  unfold validateItemForm
  split_ifs with untitled bare
  · simp [untitled]
  · simp [bare]
  · dsimp only
    split
    · next index found =>
      obtain ⟨inside, blank, -⟩ := findIdx?_eq_some_iff_getElem.mp found
      refine iff_of_false (by simp) fun valid => ?_
      exact valid.2.2 _ (getElem_mem inside) (of_decide_eq_true blank)
    · next missing =>
      rw [findIdx?_eq_none_iff] at missing
      refine iff_of_true rfl ⟨untitled, bare, fun field mem => ?_⟩
      simpa using missing field mem

/-- The form has an organization exactly for an item of one. -/
theorem orgId_foreign_iff {stored : Fields}
    (isId : IsId ["", "personal", "all"] (stored.get "organizationId")) :
    (openedForm js stored).orgId ∉ ["", "personal", "all"] ↔
      isNull (stored.get "organizationId") = false := by
  have opened : (openedForm js stored).orgId =
      (idOrNull js (stored.get "organizationId")).getD "" := rfl
  rw [opened]
  rcases isId with missing | empty | ⟨text, foreign, shape⟩
  · simp [missing, idOrNull, truthy, isNull]
  · simp [empty, idOrNull, truthy, isNull]
  · have filled : text ≠ "" := by
      rintro rfl
      exact foreign (by decide)
    have chosen : (idOrNull js (some (.string text))).getD "" = text := by
      simp [idOrNull, truthy, filled, Json.text]
    rw [shape, chosen]
    exact iff_of_true foreign rfl

theorem collectionIds_eq (js : Js) (stored : Fields) : (openedForm js stored).collectionIds =
    ((stored.get "collectionIds").bind asArray).getD [] := rfl

theorem collectionIds_isEmpty_iff : (openedForm js stored).collectionIds.isEmpty = false ↔
      ∃ id ids, stored.get "collectionIds" = some (.array (id :: ids)) := by
  rw [collectionIds_eq]
  cases stored.get "collectionIds" with
  | none => simp
  | some value =>
    cases value with
    | array ids => cases ids <;> simp [asArray]
    | _ => simp [asArray]

variable {payload : Fields}

/-- An item of an organization keeps its collections; it cannot be saved without any. -/
theorem get_writeCollections (isId : IsId ["", "personal", "all"] (stored.get "organizationId"))
    (valid : validateItemForm (openedForm js stored) = "")
    (owned : isNull (stored.get "organizationId") = false)
    (there : stored.get "collectionIds" = some old) :
    (writeCollections payload (openedForm js stored)).get "collectionIds" = some old := by
  have foreign := (@orgId_foreign_iff js stored isId).mpr owned
  have filled : (openedForm js stored).collectionIds.isEmpty = false := by
    have bare := (validateItemForm_iff.mp valid).2.1
    rw [not_and] at bare
    simpa using bare foreign
  have chosen : selectedOrganizationId (openedForm js stored).orgId ≠ none := by
    rw [selectedOrganizationId, if_neg foreign]
    exact some_ne_none _
  obtain ⟨id, ids, shape⟩ := collectionIds_isEmpty_iff.mp filled
  unfold writeCollections
  rw [if_neg chosen, if_pos (by rw [filled]; rfl), get_insert, if_pos rfl,
    collectionIds_eq, shape, ← there, shape]
  rfl

/-- A payload in which the item's own part is still as stored. -/
def Pristine (stored payload : Fields) : Prop :=
  ∀ key ∈ ["type", "login", "card", "identity"], payload.get key = stored.get key

theorem writeTypeFields_login {payload login : Fields} (pristine : Pristine stored payload)
    (type : stored.get "type" = some (.number (.natural 1)))
    (there : stored.get "login" = some (.object login)) :
    writeTypeFields js payload (openedForm js stored) =
      payload.insert "login" (.object (writtenLogin js login)) := by
  have uri : (openedForm js stored).uri = openedUri js (stored.get "login") := rfl
  have username : (openedForm js stored).username =
      textOrEmpty js (property (stored.get "login") "username") := rfl
  have password : (openedForm js stored).password =
      textOrEmpty js (property (stored.get "login") "password") := orElse_self _
  have totp : (openedForm js stored).totp =
      textOrEmpty js (property (stored.get "login") "totp") := orElse_self _
  unfold writeTypeFields objectAt
  rw [pristine "type" (by decide), type, pristine "login" (by decide), username, password, totp,
    uri, there]
  rfl

/-- A card or an identity is written as it was. -/
theorem within_updateTypeFields {keys : List String} (distinct : keys.Nodup) {object : Fields}
    (texts : TextsAt keys object) :
    Within object (updateTypeFields js keys object fun key => textOrEmpty js (object.get key)) := by
  have names : (keys.map fun key => (key, trimmedText)).map Prod.fst = keys := by
    rw [List.map_map]
    exact map_id keys
  rw [updateTypeFields_eq]
  apply within_writeEach
  · rwa [names]
  · rwa [names]
  · exact fun key mem => rfl
  · exact fun key value there => there
  · exact fun key mem => rfl

theorem detail_typeCode (positive : type ≠ 0)
    (there : stored.get "type" = some (.number (.natural type))) :
    (formDetail js stored).typeCode = some (.natural type) := by
  show (if truthy (stored.get "type") then toNumber js (stored.get "type")
    else some (.natural 1)) = _
  rw [there]
  simp [truthy, JsonNumber.isZero, positive, toNumber]

theorem openedForm_typeCode (positive : type ≠ 0)
    (there : stored.get "type" = some (.number (.natural type))) :
    (openedForm js stored).typeCode = some (.natural type) := by
  simp only [openedForm, startEditItemNow, detail_typeCode positive there]
  simp [JsonNumber.isZero, positive]

/-- The parts that are written text by text: cards and identities. -/
def textParts : List (String × List String × ℕ) :=
  [("card", cardKeys, 3), ("identity", identityKeys, 4)]

theorem writeTypeFields_texts {payload object : Fields} {own : String} {keys : List String}
    (pristine : Pristine stored payload) (part : (own, keys, type) ∈ textParts)
    (typed : stored.get "type" = some (.number (.natural type)))
    (there : stored.get own = some (.object object)) :
    writeTypeFields js payload (openedForm js stored) =
      payload.insert own (.object
        (updateTypeFields js keys object fun key => textOrEmpty js (object.get key))) := by
  simp only [textParts, mem_cons, not_mem_nil, or_false, Prod.mk.injEq] at part
  unfold writeTypeFields EditForm.typeFields objectAt
  rcases part with ⟨rfl, rfl, rfl⟩ | ⟨rfl, rfl, rfl⟩
  all_goals
    rw [pristine "type" (by decide), typed, openedForm_typeCode (by decide) typed]
    change payload.insert _
      (.object (updateTypeFields js _ (((payload.get _).bind asObject).getD [])
      ((textsAt js _ (stored.get _)).getD _))) = _
    rw [there]
  · rw [pristine "card" (by decide), there]
    rfl
  · rw [pristine "identity" (by decide), there]
    rfl

theorem writeTypeFields_note (pristine : Pristine stored payload)
    (type : stored.get "type" = some (.number (.natural 2))) :
    writeTypeFields js payload (openedForm js stored) = payload := by
  unfold writeTypeFields EditForm.typeFields
  rw [pristine "type" (by decide), type, openedForm_typeCode (by decide) type]
  rfl

/-! ### The whole item -/

/-- The payload of a form that was not changed, before its custom fields. -/
def typedPayload (js : Js) (stored : Fields) : Fields :=
  writeTypeFields js (writeCollections (headPayload js stored) (openedForm js stored))
    (openedForm js stored)

/-- The payload of a form that was not changed. -/
def unchangedPayload (js : Js) (stored : Fields) : Fields :=
  (typedPayload js stored).insert "fields"
    (customFieldsPayload js (openedForm js stored).customFields)

/-- A returned item has a form; it is saved unless it has a problem. -/
theorem savedUnchanged_eq (returned : Returned type stored) :
    savedUnchanged js stored = if validateItemForm (openedForm js stored) = "" then
      some (unchangedPayload js stored) else none := by
  have editable := returned.editable
  simp only [mem_cons, not_mem_nil, or_false] at editable
  have writable : type ≠ 0 ∧ type ≠ 5 := by omega
  have number : toNumber js (stored.get "type") = some (.natural type) := by
    rw [returned.type_eq]
    rfl
  have raw : (formDetail js stored).rawObject = some stored := rfl
  have built : buildEditPayload js (formDetail js stored) (openedForm js stored) =
      some (unchangedPayload js stored) := by
    rw [buildEditPayload, if_neg]
    · rfl
    · rw [detail_typeCode writable.1 returned.type_eq, raw, Option.any_some, number]
      simp [writable.2]
  rw [← built, ← ite_not]
  rfl

theorem keeps_insert {own : String} {new : Json}
    (there : payload.get key = some value) (keeps : key = own → Keeps value new) :
    ∃ kept, (payload.insert own new).get key = some kept ∧ Keeps value kept := by
  rw [get_insert]
  by_cases same : key = own
  · rw [if_pos same]
    exact ⟨new, rfl, keeps same⟩
  · rw [if_neg same]
    exact ⟨value, there, .same value⟩

/-- The object of the item's own type keeps its values, if a login does. -/
theorem keeps_writeTypeFields (returned : Returned type stored) (pristine : Pristine stored payload)
    (logins : ∀ login, type = 1 → stored.get "login" = some (.object login) →
      Keeps (.object login) (.object (writtenLogin js login)))
    (before : stored.get key = some value) (there : payload.get key = some value) :
    ∃ kept, (writeTypeFields js payload (openedForm js stored)).get key = some kept ∧
      Keeps value kept := by
  have texts {own : String} {keys : List String} {type : ℕ} {object : Fields}
      (part : (own, keys, type) ∈ textParts) (distinct : keys.Nodup)
      (typed : stored.get "type" = some (.number (.natural type)))
      (found : stored.get own = some (.object object)) (shape : TextsAt keys object) :
      ∃ kept, (writeTypeFields js payload (openedForm js stored)).get key = some kept ∧
        Keeps value kept := by
    rw [writeTypeFields_texts pristine part typed found]
    apply keeps_insert there
    rintro rfl
    obtain rfl := Option.some.inj (before.symm.trans found)
    exact keeps_of_get (within_updateTypeFields distinct shape)
  have typed := returned.type_eq
  have editable := returned.editable
  simp only [mem_cons, not_mem_nil, or_false] at editable
  rcases editable with rfl | rfl | rfl | rfl
  · obtain ⟨login, object, -⟩ := returned.login rfl
    rw [writeTypeFields_login pristine typed object]
    apply keeps_insert there
    rintro rfl
    obtain rfl := Option.some.inj (before.symm.trans object)
    exact logins login rfl object
  · rw [writeTypeFields_note pristine typed]
    exact ⟨value, there, .same value⟩
  · obtain ⟨card, object, shape⟩ := returned.card rfl
    exact texts (by decide) (by decide) typed object shape
  · obtain ⟨identity, object, shape⟩ := returned.identity rfl
    exact texts (by decide) (by decide) typed object shape

theorem get_writeTypeFields_of_notMem (payload : Fields) (form : EditForm)
    (other : key ∉ ["login", "card", "identity"]) :
    (writeTypeFields js payload form).get key = payload.get key := by
  simp only [mem_cons, not_mem_nil, or_false, not_or] at other
  unfold writeTypeFields
  cases form.typeFields with
  | none =>
    dsimp only
    split_ifs
    · rw [get_insert, if_neg other.1]
    · rfl
  | some values =>
    dsimp only
    split_ifs
    · rw [get_insert, if_neg other.1]
    · rw [get_insert, if_neg other.2.1]
    · rw [get_insert, if_neg other.2.2]
    · rfl

theorem pristine_writeCollections (js : Js) (stored : Fields) (form : EditForm) :
    Pristine stored (writeCollections (headPayload js stored) form) := by
  intro key mem
  simp only [mem_cons, not_mem_nil, or_false] at mem
  rcases mem with rfl | rfl | rfl | rfl <;>
    rw [get_writeCollections_of_ne _ _ (by decide), get_headPayload] <;> rfl

theorem get_keptPart_iff : (keptPart stored).get key = some value ↔ stored.get key = some value ∧
      (key = "collectionIds" → isNull (stored.get "organizationId") = false) := by
  unfold keptPart
  cases personal : isNull (stored.get "organizationId") with
  | false => simp
  | true =>
    rw [if_pos rfl, get_remove]
    by_cases collections : key = "collectionIds" <;> simp [collections]

theorem customFields_eq (js : Js) (stored : Fields) : (openedForm js stored).customFields =
    if truthy (stored.get "fields") then copyCustomFieldsForForm js (stored.get "fields") else [] :=
  rfl

theorem customFields_array (there : stored.get "fields" = some (.array items)) :
    (openedForm js stored).customFields = copyCustomFieldsForForm js (some (.array items)) := by
  rw [customFields_eq, there]
  rfl

/-- A form without a problem has no field without a label, up to the limit. -/
theorem labelled_of_valid (valid : validateItemForm (openedForm js stored) = "")
    (there : stored.get "fields" = some (.array items))
    (returned : ReturnedFields items) : Labelled js (items.take maxListEntries) := by
  intro field mem
  obtain ⟨copied, inForm, name⟩ := mem_copied_take js returned mem
  rw [← name]
  apply (validateItemForm_iff.mp valid).2.2
  rwa [customFields_array there]

/-- The custom fields are kept exactly when they are a list with nothing to cut and nothing to
change. -/
theorem keeps_customFields_iff
    (lower : js.toLowerCase "true" = "true" ∧ js.toLowerCase "false" = "false")
    (returned : Returned type stored) (valid : validateItemForm (openedForm js stored) = "") :
    (∀ old, stored.get "fields" = some old →
        Keeps old (customFieldsPayload js (openedForm js stored).customFields)) ↔
      stored.get "fields" ≠ some .null ∧
        ∀ items, stored.get "fields" = some (.array items) → items.length ≤ maxListEntries ∧
          ∀ field : Fields, .object field ∈ items → FieldKept field := by
  rcases returned.fields with missing | empty | ⟨items, there, each⟩
  · simp [missing]
  · rw [customFields_eq, empty]
    simp [truthy, customFieldsPayload, keeps_null_iff]
  · rw [customFields_array there, customFieldsPayload_eq each, there]
    have iff := keeps_fields_iff lower each (labelled_of_valid valid there each)
    constructor
    · intro keeps
      refine ⟨by simp, fun others same => ?_⟩
      cases same
      exact iff.mp (keeps _ rfl)
    · rintro ⟨-, kept⟩ old same
      cases same
      exact iff.mpr (kept items rfl)

/-- Beside the name and the custom fields, the form writes every part as it was, if it does so with
a login. -/
theorem keeps_typedPayload (returned : Returned type stored)
    (valid : validateItemForm (openedForm js stored) = "")
    (logins : ∀ login, type = 1 → stored.get "login" = some (.object login) →
      Keeps (.object login) (.object (writtenLogin js login)))
    (other : key ≠ "name") (there : (keptPart stored).get key = some value) :
    ∃ kept, (typedPayload js stored).get key = some kept ∧ Keeps value kept := by
  rw [get_keptPart_iff] at there
  apply keeps_writeTypeFields returned (pristine_writeCollections js stored _) logins there.1
  by_cases collections : key = "collectionIds"
  · subst collections
    exact get_writeCollections returned.organizationId valid (there.2 rfl) there.1
  · rw [get_writeCollections_of_ne _ _ collections]
    exact within_headPayload returned other there.1

theorem get_typedPayload_name (js : Js) (stored : Fields) :
    ∃ kept, (typedPayload js stored).get "name" = some kept := by
  rw [typedPayload, get_writeTypeFields_of_notMem _ _ (by decide),
    get_writeCollections_of_ne _ _ (by decide), get_headPayload]
  exact ⟨_, rfl⟩

/-- The name is kept unless it is empty: an item without one is written as untitled. -/
theorem get_typedPayload_name_iff {text : String}
    (there : stored.get "name" = some (.string text)) :
    (typedPayload js stored).get "name" = some (.string text) ↔ text ≠ "" := by
  have opened : (openedForm js stored).name = textOrUntitled js (stored.get "name") := rfl
  rw [typedPayload, get_writeTypeFields_of_notMem _ _ (by decide),
    get_writeCollections_of_ne _ _ (by decide), get_headPayload, opened, there]
  by_cases empty : text = ""
  · subst empty
    simp [textOrUntitled, truthy, orElse, formValue, shownText, Json.text, trimmedText]
    decide
  · simp [textOrUntitled, truthy, empty, orElse, formValue, shownText, Json.text]

/-- The name in the form is blank exactly for a blank name that is not empty. -/
theorem trimText_name_iff {name : String} (there : stored.get "name" = some (.string name)) :
    trimText (openedForm js stored).name ≠ "" ↔ (name ≠ "" → trimText name ≠ "") := by
  have opened : (openedForm js stored).name = textOrUntitled js (stored.get "name") := rfl
  rw [opened, there]
  by_cases empty : name = ""
  · subst empty
    have untitled : trimText "Untitled" ≠ "" := by decide
    exact ⟨fun _ filled => absurd rfl filled, fun _ => untitled⟩
  · simp [textOrUntitled, truthy, empty, Json.text]

/-- A label is a text that is not blank. -/
theorem trimText_label_iff {value : Option Json} (isText : IsText value) :
    trimText (textOrEmpty js value) ≠ "" ↔
      ∃ label, value = some (.string label) ∧ trimText label ≠ "" := by
  constructor
  · intro labelled
    exact ⟨_, textOrEmpty_of_labelled isText labelled, labelled⟩
  · rintro ⟨label, rfl, labelled⟩
    rwa [textOrEmpty_of_isText isText]

theorem labelled_iff (returned : ReturnedFields items) :
    (∀ field ∈ (copyCustomFieldsForForm js (some (.array items))).take maxListEntries,
        trimText field.name ≠ "") ↔
      ∀ field : Fields, .object field ∈ items.take maxListEntries →
        ∃ label, field.get "name" = some (.string label) ∧ trimText label ≠ "" := by
  constructor
  · intro labelled field mem
    obtain ⟨copied, inForm, name⟩ := mem_copied_take js returned mem
    obtain ⟨other, same, shape⟩ := returned _ (mem_of_mem_take mem)
    cases same
    exact (trimText_label_iff shape.name).mp (name ▸ labelled copied inForm)
  · intro labelled copied inForm
    obtain ⟨field, mem, shape, name⟩ := of_mem_copied_take returned inForm
    rw [name]
    exact (trimText_label_iff shape.name).mpr (labelled field mem)

/-- The form of a returned item can be saved unless its title, its collections or a label are
missing. -/
theorem validateItemForm_opened_iff {type : ℕ} {stored : Fields} (returned : Returned type stored) :
    validateItemForm (openedForm js stored) = "" ↔ Saveable stored := by
  obtain ⟨name, titled⟩ := returned.name
  rw [validateItemForm_iff, trimText_name_iff titled, not_and,
    orgId_foreign_iff returned.organizationId]
  constructor
  · rintro ⟨title, collected, labelled⟩
    constructor
    · intro other there
      rw [titled, Option.some.injEq, Json.string.injEq] at there
      exact there ▸ title
    · intro owned
      exact collectionIds_isEmpty_iff.mp (Bool.eq_false_iff.mpr (collected owned))
    · intro items there
      rw [customFields_array there] at labelled
      exact (labelled_iff (returned.fields_of_array there)).mp labelled
  · intro saveable
    refine ⟨saveable.titled name titled, fun owned => ?_, ?_⟩
    · exact Bool.eq_false_iff.mp (collectionIds_isEmpty_iff.mpr (saveable.collected owned))
    · rcases returned.fields with missing | empty | ⟨items, there, each⟩
      · rw [customFields_eq, missing]
        exact nofun
      · rw [customFields_eq, empty]
        exact nofun
      · rw [customFields_array there]
        exact (labelled_iff each).mpr (saveable.labelled items there)

theorem keeps_saved_iff
    (lower : js.toLowerCase "true" = "true" ∧ js.toLowerCase "false" = "false")
    (returned : Returned type stored) (valid : validateItemForm (openedForm js stored) = "") :
    Keeps (.object (keptPart stored)) (.object (unchangedPayload js stored)) ↔
      Unaltered stored := by
  unfold unchangedPayload
  obtain ⟨name, titled⟩ := returned.name
  have customFields := keeps_customFields_iff lower returned valid
  constructor
  · intro keeps
    have apart {key : String} (other : key ≠ "fields" ∧ key ≠ "collectionIds") {value kept : Json}
        (there : stored.get key = some value)
        (found : (typedPayload js stored).get key = some kept) : Keeps value kept := by
      apply keeps.get_of_eq (get_keptPart_iff.mpr ⟨there, fun same => absurd same other.2⟩)
      rw [get_insert, if_neg other.1, found]
    have written := customFields.mp fun old there =>
      keeps.get_of_eq (get_keptPart_iff.mpr ⟨there, by simp⟩)
        (by rw [get_insert, if_pos rfl])
    constructor
    · obtain ⟨kept, found⟩ := get_typedPayload_name js stored
      have same := keeps_string_iff.mp (apart (by decide) titled found)
      rw [same, get_typedPayload_name_iff titled] at found
      rwa [titled, ne_eq, Option.some.injEq, Json.string.injEq]
    · intro login uris isLogin there listed
      have isLogin : type = 1 := by
        rw [returned.type_eq] at isLogin
        simpa [isNumber] using isLogin
      subst isLogin
      obtain ⟨other, same, shape⟩ := returned.login rfl
      rw [there] at same
      cases same
      have found : (typedPayload js stored).get "login" =
          some (.object (writtenLogin js login)) := by
        rw [typedPayload, writeTypeFields_login (pristine_writeCollections js stored _)
          returned.type_eq there, get_insert, if_pos rfl]
      exact (keeps_login_iff shape).mp (apart (by decide) there found) uris listed
    · exact written.1
    · exact fun items there => (written.2 items there).1
    · exact fun items there => (written.2 items there).2
  · intro unaltered
    apply keeps_object
    intro key value there
    rw [get_insert]
    by_cases isFields : key = "fields"
    · subst isFields
      rw [if_pos rfl]
      refine ⟨_, rfl, customFields.mpr ?_ value (get_keptPart_iff.mp there).1⟩
      exact ⟨unaltered.fields, fun items found =>
        ⟨unaltered.count items found, unaltered.field items found⟩⟩
    · rw [if_neg isFields]
      have before := (get_keptPart_iff.mp there).1
      by_cases isName : key = "name"
      · subst isName
        rw [titled, Option.some.injEq] at before
        subst before
        have filled : name ≠ "" := fun empty => unaltered.named (empty ▸ titled)
        exact ⟨_, (get_typedPayload_name_iff titled).mpr filled, .same _⟩
      · refine keeps_typedPayload returned valid (fun login isLogin object => ?_) isName there
        subst isLogin
        obtain ⟨other, same, shape⟩ := returned.login rfl
        rw [object] at same
        cases same
        refine (keeps_login_iff shape).mpr fun uris listed => ?_
        refine unaltered.websites login uris ?_ object listed
        rw [returned.type_eq]
        rfl

/-- Opening the form of an item that `bw` returned and saving it as it is writes the item with
nothing altered or dropped exactly when the form can be saved and it has nothing that the form
writes in another way. -/
theorem unchanged_edit_keeps_item
    (lower : js.toLowerCase "true" = "true" ∧ js.toLowerCase "false" = "false") {type : ℕ}
    {stored : Fields} (returned : Returned type stored) :
    (∃ saved, savedUnchanged js stored = some saved ∧
        Keeps (.object (keptPart stored)) (.object saved)) ↔
      Saveable stored ∧ Unaltered stored := by
  rw [← @validateItemForm_opened_iff js _ _ returned, savedUnchanged_eq returned]
  by_cases valid : validateItemForm (openedForm js stored) = ""
  · simp [valid, keeps_saved_iff lower returned valid]
  · simp [valid]

end Unchanged

/-! ### An item with a custom field -/

/-- Conversions for texts without letters beyond ASCII and for whole numbers. -/
def plainJs : Js :=
  { printNumber := fun
      | .natural value => toString value
      | .negative value => toString value
      | .float _ => "NaN"
    printWhole := fun _ => "[object Object]"
    parseNumber := fun text => text.toNat?.map .natural
    toLowerCase := fun text => String.ofList (text.toList.map Char.toLower)
    upToThree := fun _ => false }

/-- A login with one custom field. -/
def loginWith (field : Fields) : Fields :=
  [("object", .string "item"), ("id", .string "i1"), ("organizationId", .null), ("folderId", .null),
    ("type", .number (.natural 1)), ("reprompt", .number (.natural 0)), ("name", .string "mail"),
    ("notes", .null), ("favorite", .bool false),
    ("login", .object [("fido2Credentials", .array []), ("username", .string "me "),
      ("password", .null), ("totp", .null)]),
    ("collectionIds", .array []), ("fields", .array [.object field])]

theorem returned_loginWith {field : Fields} (returned : ReturnedField field) :
    Returned 1 (loginWith field) := by
  constructor
  · rfl
  · decide
  · exact ⟨"mail", rfl⟩
  · exact .inr (.inl rfl)
  · exact .inr ⟨false, rfl⟩
  · exact .inr (.inl rfl)
  · exact .inr (.inl rfl)
  · exact .inr (.inr ⟨[], rfl⟩)
  · refine fun _ => ⟨_, rfl, ⟨fun key mem => ?_, .inl rfl⟩⟩
    simp only [mem_cons, not_mem_nil, or_false] at mem
    rcases mem with rfl | rfl | rfl
    · exact .inr (.inr ⟨"me ", rfl⟩)
    · exact .inr (.inl rfl)
    · exact .inr (.inl rfl)
  · exact fun other => absurd other (by decide)
  · exact fun other => absurd other (by decide)
  · refine .inr (.inr ⟨_, rfl, fun item mem => ?_⟩)
    exact ⟨field, mem_singleton.mp mem, returned⟩

def textField (value : Json) (rest : Fields) : Fields :=
  [("name", .string "pin"), ("value", value), ("type", .number (.natural 0))] ++ rest

theorem fieldKept_textField (value : String) : FieldKept (textField (.string value) []) := by
  constructor
  · intro key other there
    unfold textField at there
    rw [append_nil, get_cons, get_cons, get_cons, get_nil] at there
    split_ifs at there <;> simp_all [fieldKeys]
  · exact fun same => by cases same
  · rfl

theorem unchanged_edit_keeps_text_field :
    ∃ saved, savedUnchanged plainJs (loginWith (textField (.string "1234") [])) = some saved ∧
      Keeps (.object (keptPart (loginWith (textField (.string "1234") [])))) (.object saved) := by
  have field : ReturnedField (textField (.string "1234") []) :=
    ⟨.inr ⟨0, by decide, rfl⟩, .inr (.inr ⟨"pin", rfl⟩), .inr (.inr ⟨"1234", rfl⟩), .inl rfl⟩
  apply (unchanged_edit_keeps_item (by decide) (returned_loginWith field)).mpr
  constructor
  · constructor
    · rintro name ⟨⟩ -
      decide
    · exact nofun
    · rintro items ⟨⟩ other mem
      rw [Json.object.inj (mem_singleton.mp mem)]
      exact ⟨"pin", rfl, by decide⟩
  · constructor
    · intro same
      exact absurd (Json.string.inj (Option.some.inj same)) (by decide)
    · rintro login uris - ⟨⟩ ⟨⟩
    · rintro ⟨⟩
    · rintro items ⟨⟩
      decide
    · rintro items ⟨⟩ other mem
      rw [Json.object.inj (mem_singleton.mp mem)]
      exact fieldKept_textField "1234"

/-- A text field without a value comes back with an empty one, and its empty linked id is gone. -/
theorem unchanged_edit_alters_null_value :
    Returned 1 (loginWith (textField .null [("linkedId", .null)])) ∧
      ∃ saved, savedUnchanged plainJs (loginWith (textField .null [("linkedId", .null)])) =
          some saved ∧
        Fields.get saved "fields" = some (.array [.object [("name", .string "pin"),
          ("type", .number (.natural 0)), ("value", .string "")]]) ∧
        ¬ Keeps (.object (keptPart (loginWith (textField .null [("linkedId", .null)]))))
          (.object saved) := by
  have field : ReturnedField (textField .null [("linkedId", .null)]) :=
    ⟨.inr ⟨0, by decide, rfl⟩, .inr (.inr ⟨"pin", rfl⟩), .inr (.inl rfl), .inr (.inl rfl)⟩
  refine ⟨returned_loginWith field, _, rfl, rfl, fun keeps => ?_⟩
  have fields := @Keeps.get_of_eq _ _ "fields" _ _ keeps rfl rfl
  cases keeps_array_iff.mp fields with
  | cons entry rest =>
    have value := @Keeps.get_of_eq _ _ "value" _ _ entry rfl rfl
    cases keeps_null_iff.mp value

end QsBitwarden.Panel
