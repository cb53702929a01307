import QsBitwarden.Lib.JsonKeeps
import QsBitwarden.Panel.EditForm

/-! Owns what the edit form writes back for parts of an item that nobody changed: single texts,
custom fields and logins, as `bw` returns them. -/

namespace QsBitwarden.Panel

open Lib Lib.Json List Option Fields

/-! ### Parts as `bw` returns them -/

/-- A text, null or nothing. -/
def IsText (value : Option Json) : Prop :=
  value = none ∨ value = some .null ∨ ∃ text, value = some (.string text)

/-- An id, null or nothing; the panel's own words for a choice are no ids. -/
def IsId (words : List String) (value : Option Json) : Prop :=
  value = none ∨ value = some .null ∨ ∃ text ∉ words, value = some (.string text)

def TextsAt (keys : List String) (object : Fields) : Prop := ∀ key ∈ keys, IsText (object.get key)

structure ReturnedLogin (login : Fields) : Prop where
  texts : TextsAt ["username", "password", "totp"] login
  uris : login.get "uris" = none ∨ login.get "uris" = some .null ∨
    ∃ uris, login.get "uris" = some (.array uris) ∧
      ∀ uri ∈ uris, ∃ entry : Fields, uri = .object entry ∧ IsText (entry.get "uri")

/-- The type of a custom field, text if it says none. -/
def fieldType (field : Fields) : ℕ :=
  match field.get "type" with
  | some (.number (.natural type)) => type
  | _ => 0

/-- A custom field, any other keys beside. -/
structure ReturnedField (field : Fields) : Prop where
  type : field.get "type" = none ∨
    ∃ type ≤ 3, field.get "type" = some (.number (.natural type))
  name : IsText (field.get "name")
  value : IsText (field.get "value")
  linkedId : field.get "linkedId" = none ∨ field.get "linkedId" = some .null ∨
    ∃ id, field.get "linkedId" = some (.number (.natural id))

/-! ### Custom fields that come back as they were -/

def fieldKeys : List String := ["name", "type", "value", "linkedId"]

/-- A custom field that is written as it was: it has no other keys; a linked id only if it is a
linked field; and its value, if it has one, is what its type is written with. -/
structure FieldKept (field : Fields) : Prop where
  keys : ∀ key value, field.get key = some value → key ∈ fieldKeys
  value :
    if fieldType field = 3 then field.get "value" = none ∨ field.get "value" = some .null
    else if fieldType field = 2 then field.get "value" = none ∨
      field.get "value" = some (.string "true") ∨ field.get "value" = some (.string "false")
    else field.get "value" ≠ some .null
  linkedId :
    if fieldType field = 3 then field.get "linkedId" ≠ some .null else field.get "linkedId" = none

section Parts

variable {js : Js}

/-! ### Values written back -/

variable {value : Option Json}

theorem textOrEmpty_of_isText (isText : IsText value) :
    textOrEmpty js value = shownText js value := by
  rcases isText with rfl | rfl | ⟨text, rfl⟩
  · rfl
  · rfl
  · by_cases empty : text = ""
    · subst empty
      rfl
    · simp [textOrEmpty, truthy, empty, Json.text, shownText]

/-- A text loaded into the form and not changed is stored as it was. -/
theorem formValue_unchanged {old : Json} (isText : IsText (some old)) (clean : String → Json) :
    formValue js (some old) (textOrEmpty js (some old)) clean = old := by
  rw [formValue, textOrEmpty_of_isText isText, if_pos rfl, getD_some]

/-- Every value of the first object is in the second, as it was. -/
def Within (first second : Fields) : Prop :=
  ∀ key value, first.get key = some value → second.get key = some value

/-- Keys written from the form one after the other, each cleaned its own way. -/
def writeEach (js : Js) (writes : List (String × (String → Json))) (object : Fields)
    (values : String → String) : Fields :=
  writes.foldl (fun object write => writeValue js write.2 object write.1 (values write.1)) object

theorem updateTypeFields_eq (keys : List String) (object : Fields) (values : String → String) :
    updateTypeFields js keys object values =
      writeEach js (keys.map fun key => (key, trimmedText)) object values := by
  unfold updateTypeFields writeEach
  rw [foldl_map]

theorem get_writeEach_of_notMem {writes : List (String × (String → Json))} {key : String}
    (other : key ∉ writes.map Prod.fst) (object : Fields) (values : String → String) :
    (writeEach js writes object values).get key = object.get key := by
  unfold writeEach
  induction writes generalizing object with
  | nil => rfl
  | cons write rest ih =>
    rw [map_cons, mem_cons, not_or] at other
    rw [foldl_cons, ih other.2, writeValue, get_insert,
      if_neg other.1]

/-- Texts written back unchanged leave the object's values as they were. -/
theorem within_writeEach {base : Fields} {writes : List (String × (String → Json))}
    {values : String → String} (distinct : (writes.map Prod.fst).Nodup)
    (texts : TextsAt (writes.map Prod.fst) base)
    (unchanged : ∀ key ∈ writes.map Prod.fst, values key = textOrEmpty js (base.get key))
    {object : Fields} (within : Within base object)
    (pristine : ∀ key ∈ writes.map Prod.fst, object.get key = base.get key) :
    Within base (writeEach js writes object values) := by
  unfold writeEach
  induction writes generalizing object with
  | nil => exact within
  | cons write rest ih =>
    rw [map_cons, nodup_cons] at distinct
    have here : write.1 ∈ (write :: rest).map Prod.fst := by simp
    have later {key : String} (mem : key ∈ rest.map Prod.fst) :
        key ∈ (write :: rest).map Prod.fst := by
      rw [map_cons]
      exact mem_cons_of_mem _ mem
    rw [foldl_cons]
    refine ih distinct.2 (fun key mem => texts key (later mem))
      (fun key mem => unchanged key (later mem)) ?_ ?_
    · intro key value there
      rw [writeValue, get_insert]
      by_cases same : key = write.1
      · subst same
        rw [if_pos rfl, pristine _ here, unchanged _ here, there]
        exact congrArg some (formValue_unchanged (there ▸ texts _ here) write.2)
      · rw [if_neg same]
        exact within key value there
    · intro key mem
      have differs : key ≠ write.1 := fun same => distinct.1 (same ▸ mem)
      rw [writeValue, get_insert, if_neg differs]
      exact pristine key (later mem)

/-! ### Custom fields -/

/-- A stored field, through the form. -/
def writtenField (js : Js) (item : Json) : Option Json :=
  (copyCustomField js (some item)).bind (customFieldPayload js)

/-- What the value of a field of a type becomes. -/
def writtenValue (js : Js) (type : ℕ) (value : Option Json) : Json :=
  if type = 3 then .null
  else if type = 2 then
    .string (if customFieldBooleanValue js value then "true" else "false")
  else .string (shownText js value)

def writtenLink (type : ℕ) (linkedId : Option Json) : Option Json :=
  if type = 3 ∧ !isNull linkedId then linkedId else none

variable {field : Fields}

theorem ReturnedField.fieldType_le (returned : ReturnedField field) :
    fieldType field ≤ 3 := by
  unfold fieldType
  rcases returned.type with missing | ⟨type, known, shape⟩
  · rw [missing]
    exact Nat.zero_le 3
  · rw [shape]
    exact known

theorem copyCustomField_object (returned : ReturnedField field) :
    copyCustomField js (some (.object field)) = some
      { name := textOrEmpty js (field.get "name")
        value := if fieldType field = 2 then .inl (customFieldBooleanValue js (field.get "value"))
          else .inr (shownText js (field.get "value"))
        type := some (.natural (fieldType field))
        linkedId := if isNull (field.get "linkedId") then none
          else some (toNumber js (field.get "linkedId")) } := by
  have get (key : String) : property (some (.object field)) key = field.get key := rfl
  unfold copyCustomField
  simp only [truthy, if_true, get]
  rcases returned.type with missing | ⟨type, known, shape⟩
  · have type : fieldType field = 0 := by rw [fieldType, missing]
    simp [missing, type, toNumber]
  · have same : fieldType field = type := by rw [fieldType, shape]
    by_cases zero : type = 0
    · simp [shape, same, zero, toNumber, JsonNumber.isZero]
    · simp [shape, same, zero, toNumber, JsonNumber.isZero]

/-- A field as it is written: its name, its type and what its type needs. -/
structure WrittenAs (js : Js) (field new : Fields) : Prop where
  name : new.get "name" = some (.string (textOrEmpty js (field.get "name")))
  type : new.get "type" = some (.number (.natural (fieldType field)))
  value : new.get "value" = some (writtenValue js (fieldType field) (field.get "value"))
  linkedId : new.get "linkedId" = writtenLink (fieldType field) (field.get "linkedId")
  others : ∀ key ∉ fieldKeys, new.get key = none

/-- The entry a field is written from. -/
def fieldEntry (name : String) (type : ℕ) (value : Json) : Fields :=
  insert (insert [("name", .string name)] "type" (.number (.natural type))) "value"
    value

theorem get_fieldEntry (name : String) (type : ℕ) (value : Json) (key : String) :
    (fieldEntry name type value).get key =
      if key = "value" then some value
      else if key = "type" then some (.number (.natural type))
      else if key = "name" then some (.string name)
      else none := by
  unfold fieldEntry
  rw [get_insert, get_insert, get_cons, get_nil]

/-- A linked field has its id beside. -/
theorem writtenAs_of_entry {field new : Fields} {value : Json}
    (same : value = writtenValue js (fieldType field) (field.get "value"))
    (entry : ∀ key ≠ "linkedId", new.get key =
      (fieldEntry (textOrEmpty js (field.get "name")) (fieldType field) value).get key)
    (link : new.get "linkedId" = writtenLink (fieldType field) (field.get "linkedId")) :
    WrittenAs js field new where
  name := entry "name" (by decide)
  type := entry "type" (by decide)
  value := by
    rw [← same]
    exact entry "value" (by decide)
  linkedId := link
  others key other := by
    simp only [fieldKeys, mem_cons, not_mem_nil, or_false, not_or] at other
    rw [entry key other.2.2.2, get_fieldEntry, if_neg other.2.2.1, if_neg other.2.1,
      if_neg other.1]

theorem writtenField_object (returned : ReturnedField field)
    (labelled : trimText (textOrEmpty js (field.get "name")) ≠ "") :
    ∃ new : Fields, writtenField js (.object field) = some (.object new) ∧
      WrittenAs js field new := by
  have small := returned.fieldType_le
  have type : customFieldType js (some (.natural (fieldType field))) =
      .natural (fieldType field) := if_neg (by omega)
  unfold writtenField
  rw [copyCustomField_object returned, bind_some]
  unfold customFieldPayload
  simp only [if_neg labelled, type, JsonNumber.natural.injEq]
  by_cases linked : fieldType field = 3
  · rw [if_pos linked]
    have value : (.null : Json) = writtenValue js (fieldType field) (field.get "value") :=
      (if_pos linked).symm
    rcases returned.linkedId with missing | empty | ⟨id, shape⟩
    · rw [missing]
      refine ⟨_, rfl, writtenAs_of_entry value (fun _ _ => rfl) ?_⟩
      simp [writtenLink, missing, isNull, get_insert, get_cons]
    · rw [empty]
      refine ⟨_, rfl, writtenAs_of_entry value (fun _ _ => rfl) ?_⟩
      simp [writtenLink, empty, isNull, get_insert, get_cons]
    · rw [shape]
      refine ⟨_, rfl, writtenAs_of_entry value (fun key other => ?_) ?_⟩
      · rw [get_insert, if_neg other]
        rfl
      · simp [writtenLink, linked, shape, isNull, get_insert, toNumber, ofNumber]
  · have unlinked : none = writtenLink (fieldType field) (field.get "linkedId") := by
      simp [writtenLink, linked]
    rw [if_neg linked]
    by_cases switch : fieldType field = 2
    · rw [if_pos switch]
      refine ⟨_, rfl, writtenAs_of_entry ?_ (fun _ _ => rfl) unlinked⟩
      simp [writtenValue, switch]
    · rw [if_neg switch]
      refine ⟨_, rfl, writtenAs_of_entry ?_ (fun _ _ => rfl) unlinked⟩
      simp [writtenValue, switch, linked]

theorem textOrEmpty_of_labelled (isText : IsText value)
    (labelled : trimText (textOrEmpty js value) ≠ "") :
    value = some (.string (textOrEmpty js value)) := by
  rcases isText with rfl | rfl | ⟨text, rfl⟩
  · exact absurd rfl labelled
  · exact absurd rfl labelled
  · rw [textOrEmpty_of_isText (.inr (.inr ⟨text, rfl⟩))]
    rfl

/-- A value is kept exactly when its type is written with it. -/
theorem keeps_value_iff (lower : js.toLowerCase "true" = "true" ∧ js.toLowerCase "false" = "false")
    (type : ℕ) (isText : IsText value) :
    (∀ old, value = some old → Keeps old (writtenValue js type value)) ↔
      if type = 3 then value = none ∨ value = some .null
      else if type = 2 then value = none ∨ value = some (.string "true") ∨
        value = some (.string "false")
      else value ≠ some .null := by
  unfold writtenValue
  rcases isText with rfl | rfl | ⟨text, rfl⟩
  · by_cases linked : type = 3 <;> by_cases switch : type = 2 <;> simp [linked, switch]
  · by_cases linked : type = 3 <;> by_cases switch : type = 2 <;>
      simp [linked, switch, keeps_null_iff]
  · by_cases linked : type = 3
    · simp [linked, keeps_string_iff]
    · by_cases switch : type = 2
      · rw [if_neg linked, if_neg linked, if_pos switch, if_pos switch]
        simp only [Option.some.injEq, forall_eq', keeps_string_iff, Json.string.injEq,
          customFieldBooleanValue, Json.text, reduceCtorEq, false_or]
        constructor
        · intro same
          by_cases on : js.toLowerCase text = "true"
          · exact .inl (by simpa [on] using same.symm)
          · exact .inr (by simpa [on] using same.symm)
        · rintro (rfl | rfl)
          · simp [lower.1]
          · simp [lower.2]
      · simp [linked, switch, shownText, Json.text, keeps_string_iff]

theorem keeps_field_iff (lower : js.toLowerCase "true" = "true" ∧ js.toLowerCase "false" = "false")
    {field new : Fields} (returned : ReturnedField field)
    (labelled : trimText (textOrEmpty js (field.get "name")) ≠ "")
    (written : WrittenAs js field new) :
    Keeps (.object field) (.object new) ↔ FieldKept field := by
  have values := keeps_value_iff lower (fieldType field) returned.value
  constructor
  · intro keeps
    constructor
    · intro key value there
      by_contra other
      obtain ⟨kept, found, -⟩ := keeps.get there
      rw [written.others key other] at found
      cases found
    · exact values.mp fun old there => keeps.get_of_eq there written.value
    · rcases returned.linkedId with missing | empty | ⟨id, shape⟩
      · simp [missing]
      · obtain ⟨kept, found, -⟩ := keeps.get empty
        rw [written.linkedId, empty] at found
        simp [writtenLink, isNull] at found
      · obtain ⟨kept, found, -⟩ := keeps.get shape
        rw [written.linkedId, shape] at found
        by_cases linked : fieldType field = 3
        · simp [linked, shape]
        · simp [writtenLink, linked] at found
  · intro kept
    apply keeps_object
    intro key old there
    have known := kept.keys key old there
    simp only [fieldKeys, mem_cons, not_mem_nil, or_false] at known
    rcases known with rfl | rfl | rfl | rfl
    · have named := textOrEmpty_of_labelled returned.name labelled
      rw [there] at named
      rw [Option.some.inj named, ← there]
      exact ⟨_, written.name, .same _⟩
    · have typed : old = .number (.natural (fieldType field)) := by
        rcases returned.type with missing | ⟨type, -, shape⟩
        · rw [missing] at there
          cases there
        · rw [fieldType, shape]
          rw [shape] at there
          exact (Option.some.inj there).symm
      rw [typed]
      exact ⟨_, written.type, .same _⟩
    · exact ⟨_, written.value, values.mpr kept.value old there⟩
    · have link := kept.linkedId
      by_cases linked : fieldType field = 3
      · rw [if_pos linked, there] at link
        have filled : isNull (some old) = false := by
          cases old <;> first | rfl | exact absurd rfl link
        refine ⟨old, ?_, .same old⟩
        rw [written.linkedId, there]
        simp [writtenLink, linked, filled]
      · rw [if_neg linked, there] at link
        cases link

/-! ### The list of custom fields -/

variable {items : List Json}

/-- Where each element has an image, the images stand at the elements' places. -/
theorem filterMap_eq_map_of_some {Item Image : Type*} {image : Item → Option Image}
    {value : Item → Image} {items : List Item}
    (each : ∀ item ∈ items, image item = some (value item)) :
    items.filterMap image = items.map value := by
  rw [filterMap_congr each, filterMap_eq_map']

def ReturnedFields (items : List Json) : Prop :=
  ∀ item ∈ items, ∃ field, item = .object field ∧ ReturnedField field

/-- The form has a field for each stored one. -/
theorem copied_take (returned : ReturnedFields items) (count : ℕ) :
    (copyCustomFieldsForForm js (some (.array items))).take count =
      (items.take count).filterMap (copyCustomField js ∘ some) := by
  have each : ∀ item ∈ items, (copyCustomField js ∘ some) item =
      some (((copyCustomField js ∘ some) item).getD ⟨"", .inl false, none, none⟩) := by
    intro item mem
    obtain ⟨field, rfl, shape⟩ := returned item mem
    rw [Function.comp_apply, copyCustomField_object shape]
    rfl
  unfold copyCustomFieldsForForm elements
  rw [filterMap_map, filterMap_eq_map_of_some each, ← map_take,
    filterMap_eq_map_of_some fun item mem => each item (mem_of_mem_take mem)]

theorem mem_copied_take (js : Js) (returned : ReturnedFields items) {count : ℕ}
    (mem : .object field ∈ items.take count) :
    ∃ copied ∈ (copyCustomFieldsForForm js (some (.array items))).take count,
      copied.name = textOrEmpty js (field.get "name") := by
  obtain ⟨other, same, shape⟩ := returned _ (mem_of_mem_take mem)
  cases same
  rw [copied_take returned]
  exact ⟨_, mem_filterMap.mpr ⟨.object field, mem, copyCustomField_object shape⟩, rfl⟩

theorem of_mem_copied_take (returned : ReturnedFields items) {count : ℕ} {copied : FormField}
    (mem : copied ∈ (copyCustomFieldsForForm js (some (.array items))).take count) :
    ∃ field : Fields, .object field ∈ items.take count ∧ ReturnedField field ∧
      copied.name = textOrEmpty js (field.get "name") := by
  rw [copied_take returned] at mem
  obtain ⟨item, inside, same⟩ := mem_filterMap.mp mem
  obtain ⟨field, rfl, shape⟩ := returned item (mem_of_mem_take inside)
  rw [Function.comp_apply, copyCustomField_object shape, Option.some.injEq] at same
  exact ⟨field, inside, shape, same ▸ rfl⟩

theorem customFieldsPayload_eq (returned : ReturnedFields items) :
    customFieldsPayload js (copyCustomFieldsForForm js (some (.array items))) =
      .array ((items.take maxListEntries).filterMap (writtenField js)) := by
  unfold customFieldsPayload
  rw [copied_take returned, filterMap_filterMap]
  rfl

/-- Every field that is written has a label. -/
def Labelled (js : Js) (items : List Json) : Prop :=
  ∀ field : Fields, .object field ∈ items → trimText (textOrEmpty js (field.get "name")) ≠ ""

/-- The fields are kept exactly when none is cut off and each is written as it was. -/
theorem keeps_fields_iff
    (lower : js.toLowerCase "true" = "true" ∧ js.toLowerCase "false" = "false")
    (returned : ReturnedFields items) (labelled : Labelled js (items.take maxListEntries)) :
    Keeps (.array items) (.array ((items.take maxListEntries).filterMap (writtenField js))) ↔
      items.length ≤ maxListEntries ∧
        ∀ field : Fields, .object field ∈ items → FieldKept field := by
  have each : ∀ item ∈ items.take maxListEntries,
      writtenField js item = some ((writtenField js item).getD .null) := by
    intro item mem
    obtain ⟨field, rfl, shape⟩ := returned item (mem_of_mem_take mem)
    obtain ⟨new, written, -⟩ := writtenField_object shape (labelled field mem)
    rw [written]
    rfl
  rw [filterMap_eq_map_of_some each, keeps_array_iff]
  by_cases whole : items.length ≤ maxListEntries
  · -- nothing is cut off: each field stands against its own image
    rw [take_of_length_le whole] at labelled ⊢
    rw [forall₂_map_right_iff, forall₂_same, and_iff_right whole]
    have field_iff {field : Fields} (mem : .object field ∈ items) :
        Keeps (.object field) ((writtenField js (.object field)).getD .null) ↔
          FieldKept field := by
      obtain ⟨other, same, shape⟩ := returned _ mem
      cases same
      obtain ⟨new, image, writtenAs⟩ := writtenField_object shape (labelled field mem)
      rw [image]
      exact keeps_field_iff lower shape (labelled field mem) writtenAs
    constructor
    · exact fun keeps field mem => (field_iff mem).mp (keeps _ mem)
    · intro kept item mem
      obtain ⟨field, rfl, -⟩ := returned item mem
      exact (field_iff mem).mpr (kept field mem)
  · refine iff_of_false (fun keeps => whole ?_) fun kept => whole kept.1
    have counts := keeps.length_eq
    rw [length_map, length_take] at counts
    omega

/-! ### Logins -/

theorem listEntries_array (items : List Json) :
    listEntries (some (.array items)) = (items.take maxListEntries).map some := by
  rw [listEntries, elements, map_take]

/-- The address the form opens with. -/
def openedUri (js : Js) (login : Option Json) : String :=
  ((loginUriEntries js login).head?.or (loginUris js login).head?).getD ""

/-- A list up to the limit. -/
def firstEntries : Json → Json
  | .array items => .array (items.take maxListEntries)
  | other => other

/-- The websites are written up to the limit. -/
theorem editedUris_unchanged {login : Fields} (returned : ReturnedLogin login) {old : Json}
    (there : login.get "uris" = some old) :
    editedUris js (some old) (openedUri js (some (.object login))) = firstEntries old := by
  have uris : property (some (.object login)) "uris" = some old := there
  have texts := returned.uris
  rw [there] at texts
  rcases texts with missing | empty | ⟨items, shape, objects⟩
  · cases missing
  · cases empty
    unfold openedUri loginUriEntries loginUris editedUris
    rw [uris]
    rfl
  · cases shape
    have whole : (listEntries (some (.array items))).filterMap (fun entry => entry.filter isWhole) =
        items.take maxListEntries := by
      rw [listEntries_array, filterMap_map]
      have each : ∀ item ∈ items.take maxListEntries,
          ((fun entry => entry.filter isWhole) ∘ some) item = some item := by
        intro item mem
        obtain ⟨entry, rfl, -⟩ := objects item (mem_of_mem_take mem)
        rfl
      rw [filterMap_congr each, filterMap_some]
    unfold editedUris firstEntries
    simp only [whole]
    cases taken : items.take maxListEntries with
    | nil =>
      have none : items = [] := by
        rw [take_eq_nil_iff] at taken
        exact taken.resolve_left (by decide)
      subst none
      unfold openedUri loginUriEntries loginUris
      rw [uris]
      rfl
    | cons first rest =>
      have inside : first ∈ items := mem_of_mem_take (taken ▸ mem_cons_self)
      obtain ⟨entry, rfl, -⟩ := objects first inside
      have opened : openedUri js (some (.object login)) =
          shownText js (property (some (.object entry)) "uri") := by
        unfold openedUri loginUriEntries
        rw [uris, listEntries_array, taken]
        rfl
      simp only [opened, if_true]

/-- The login as it is written. -/
def writtenLogin (js : Js) (login : Fields) : Fields :=
  let texts := updateLoginFields js login (textOrEmpty js (login.get "username"))
    (textOrEmpty js (login.get "password")) (textOrEmpty js (login.get "totp"))
  texts.insert "uris" (editedUris js (texts.get "uris") (openedUri js (some (.object login))))

def loginWrites : List (String × (String → Json)) :=
  [("username", trimmedText), ("password", .string), ("totp", trimmedOrNull)]

theorem keeps_login_iff {login : Fields} (returned : ReturnedLogin login) :
    Keeps (.object login) (.object (writtenLogin js login)) ↔
      ∀ uris, login.get "uris" = some (.array uris) → uris.length ≤ maxListEntries := by
  let texts := writeEach js loginWrites login fun key => textOrEmpty js (login.get key)
  have shape : writtenLogin js login =
      texts.insert "uris"
        (editedUris js (texts.get "uris") (openedUri js (some (.object login)))) := rfl
  have within : Within login texts := by
    have isText : TextsAt (loginWrites.map Prod.fst) login := returned.texts
    apply within_writeEach (by decide) isText
    · exact fun key mem => rfl
    · exact fun key value there => there
    · exact fun key mem => rfl
  have untouched : texts.get "uris" = login.get "uris" :=
    get_writeEach_of_notMem (by decide) login _
  rw [shape, untouched]
  constructor
  · intro keeps uris there
    have written := keeps.get_of_eq there (by rw [get_insert, if_pos rfl])
    rw [there, editedUris_unchanged returned there] at written
    have counts := (keeps_array_iff.mp written).length_eq
    rw [length_take] at counts
    omega
  · intro short
    apply keeps_of_get
    intro key value there
    rw [get_insert]
    by_cases same : key = "uris"
    · subst same
      rw [if_pos rfl, there, editedUris_unchanged returned there]
      cases value with
      | array uris => rw [firstEntries, take_of_length_le (short uris there)]
      | _ => rfl
    · rw [if_neg same]
      exact within key value there

end Parts

end QsBitwarden.Panel
