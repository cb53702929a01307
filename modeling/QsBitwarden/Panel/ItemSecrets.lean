import QsBitwarden.Lib.JsonText
import QsBitwarden.Panel.PublicView
import QsBitwarden.Vault.Answers

/-! Owns the agreement between the secret rows of the detail and the helper's answers to them:
the row's name leads the helper to the value that the full item has there. It does not own when
the panel asks. -/

namespace QsBitwarden.Panel

open Lib Lib.Json Vault ItemView List SecretField

/-! ### Names of custom fields -/

theorem toList_customFieldKey (index : ℕ) :
    (customFieldKey index).toList = customName ++ writeNat index := by
  have number : (toString index).toList = writeNat index := by
    rw [Nat.toString_eq_ofList_toDigits, String.toList_ofList]
    rfl
  unfold customFieldKey
  rw [String.toList_append, number]
  rfl

variable {index : ℕ}

theorem parseIndex_writeNat (small : index < 10000) :
    parseIndex (writeNat index) = some index := by
  have short : (writeNat index).length ≤ 4 :=
    (Nat.length_toDigits_le_iff (by decide) (by decide)).mpr small
  have digits : (writeNat index).all isAsciiDigit = true :=
    all_eq_true.mpr fun _ mem => isAsciiDigit_of_mem_writeNat mem
  unfold parseIndex
  rw [if_neg]
  · rw [writeNat, Nat.ofDigitChars_ten_toDigits]
  · rintro (empty | long | other | zero)
    · exact Nat.toDigits_ne_nil empty
    · omega
    · exact other digits
    · exact no_leading_zero index zero

theorem lookup_customFieldKey {Value : Type*} {names : List (String × Value)} (index : ℕ)
    (others : ∀ entry ∈ names, ¬ customName <+: entry.1.toList) :
    names.lookup (customFieldKey index) = none := by
  rw [lookup_eq_none_iff]
  intro entry mem
  rw [bne_iff_ne]
  intro same
  apply others entry mem
  rw [← same, toList_customFieldKey]
  exact prefix_append _ _

theorem front_customFieldKey (index : ℕ) :
    customName.isPrefixOf (customFieldKey index).toList = true :=
  isPrefixOf_iff_prefix.mpr (toList_customFieldKey index ▸ prefix_append _ _)

/-- A custom field within the panel's limit has a name the helper reads. -/
theorem parse_customFieldKey (small : index < 10000) :
    parse (customFieldKey index) = some (.custom index) := by
  unfold parse
  have fixed : fixedNames.lookup (customFieldKey index) = none :=
    lookup_customFieldKey index (by decide)
  rw [fixed]
  dsimp only
  rw [if_pos (front_customFieldKey index), toList_customFieldKey, drop_left,
    parseIndex_writeNat small]
  rfl

/-! ### The helper's answers for a held item -/

/-- The store has an item under an id, and its text reads back. -/
structure HeldAs (libraries : Libraries) (store : Store) (id : String) (it : Fields) : Prop where
  item : store.item id = some (libraries.toString (.object it))
  reads : libraries.fromStr (libraries.toString (.object it)) = some (.object it)

/-- The helper's answer under a name. -/
def answer (libraries : Libraries) (store : Store) (id name : String) : Option String :=
  (parse name).bind (store.itemSecret libraries id)

section Answers

variable {libraries : Libraries} {store : Store} {id : String} {it : Fields}

theorem getValue_one (key : String) : getValue (.object it) [key] = it.get key := by
  change (it.get key).bind some = it.get key
  exact Option.bind_fun_some _

theorem getValue_two (part key : String) :
    getValue (.object it) [part, key] = property (it.get part) key := by
  change (it.get part).bind (fun value => (mem value key).bind some) = _
  simp only [Option.bind_fun_some]
  exact (Option.bind_assoc _ _ _).symm

section

variable (held : HeldAs libraries store id it)

include held

theorem valueAt_held (path : List String) :
    store.valueAt libraries id path = (getValue (.object it) path).bind asStr := by
  unfold Store.valueAt
  rw [held.item]
  change (libraries.fromStr (libraries.toString (.object it))).bind _ = _
  rw [held.reads]
  rfl

theorem answer_fixed {name : String} {field : SecretField}
    {path : List String} (parsed : parse name = some field)
    (fixed : field.path = some path) :
    answer libraries store id name = (getValue (.object it) path).bind asStr := by
  unfold answer Store.itemSecret
  rw [parsed, Option.bind_some, fixed]
  exact valueAt_held held path

theorem answer_custom (small : index < 10000) :
    answer libraries store id (customFieldKey index) = customSecret (.object it) index := by
  unfold answer Store.itemSecret
  rw [parse_customFieldKey small, Option.bind_some]
  change (store.item id).bind (fun text => (libraries.fromStr text).bind _) = _
  rw [held.item, Option.bind_some, held.reads]
  rfl

end

/-- What the panel shows of a text is what the helper takes of it. -/
theorem asStr_of_textOrEmpty {js : Js} {value : Option Json} (text : IsText value)
    (there : textOrEmpty js value ≠ "") : value.bind asStr = some (textOrEmpty js value) := by
  rcases text with rfl | rfl | ⟨text, rfl⟩
  · exact absurd rfl there
  · exact absurd rfl there
  · by_cases empty : text = ""
    · rw [empty] at there
      exact absurd rfl there
    · simp [textOrEmpty, truthy, empty, Json.text, asStr]

theorem asStr_of_shownText {js : Js} {value : Option Json} (text : IsText value)
    (there : shownText js value ≠ "") : value.bind asStr = some (shownText js value) := by
  rcases text with rfl | rfl | ⟨text, rfl⟩
  · exact absurd rfl there
  · exact absurd rfl there
  · rfl

end Answers

/-! ### Custom fields -/

/-- The custom fields are a list, and their types and linked ids are whole numbers. -/
structure WholeCustoms (it : Fields) : Prop where
  list : it.get "fields" = none ∨ it.get "fields" = some .null ∨
    ∃ items, it.get "fields" = some (.array items)
  numbers : ∀ field ∈ listEntries (it.get "fields"),
    IsWholeNumber (property field "type") ∧ IsWholeNumber (property field "linkedId")

section Customs

variable {js : Js} {it : Fields} {fields : Option Json}

/-- Where an entry of the view comes from. -/
theorem of_mem_itemCustomFields {field : CustomField}
    (shown : field ∈ itemCustomFields js fields it) :
    ∃ entry, (listEntries fields)[field.index]? = some entry ∧
      itemCustomField js it entry field.index = some field := by
  obtain ⟨⟨entry, index⟩, listed, built⟩ := mem_filterMap.mp shown
  have place := mem_zipIdx_iff_getElem?.mp listed
  have named : field.index = index := by
    unfold itemCustomField at built
    rw [Option.ite_none_right_eq_some] at built
    cases built.2
    rfl
  rw [named]
  exact ⟨entry, place, built⟩

theorem itemCustomFields_inj {field other : CustomField}
    (shown : field ∈ itemCustomFields js fields it) (shown' : other ∈ itemCustomFields js fields it)
    (same : field.index = other.index) : field = other := by
  obtain ⟨entry, place, built⟩ := of_mem_itemCustomFields shown
  obtain ⟨entry', place', built'⟩ := of_mem_itemCustomFields shown'
  rw [same, place'] at place
  cases place
  rw [same, built'] at built
  exact (Option.some.inj built).symm

theorem length_itemCustomFields (fields : Option Json) :
    (itemCustomFields js fields it).length ≤ maxListEntries := by
  refine (length_filterMap_le _ _).trans ?_
  rw [length_zipIdx]
  exact length_take_le _ _

theorem index_lt {field : CustomField}
    (shown : field ∈ itemCustomFields js fields it) : field.index < maxListEntries := by
  obtain ⟨entry, place, -⟩ := of_mem_itemCustomFields shown
  have below := (List.getElem?_eq_some_iff.mp place).1
  have limit : (listEntries fields).length ≤ maxListEntries := length_take_le _ _
  omega

/-- The whole numbers that an id in this list can be. -/
theorem natural_of_equals {value : Option Json} (whole : IsWholeNumber value) {id : ℕ}
    (positive : 0 < id) (same : (toNumber js value).any (·.equals id) = true) :
    value = some (.number (.natural id)) := by
  rcases whole with rfl | rfl | ⟨number, rfl⟩ | ⟨number, negative, rfl⟩
  · cases same
  · have zero : 0 = id := of_decide_eq_true same
    omega
  · have equal : number = id := of_decide_eq_true same
    rw [equal]
  · have equal : number = (id : ℤ) := of_decide_eq_true same
    omega

variable {entry : Option Json}

theorem natural_of_fieldNumber
    (whole : IsWholeNumber (property entry "type")) {id : ℕ} (positive : 0 < id)
    (same : (fieldNumber js entry).any (·.equals id) = true) :
    property entry "type" = some (.number (.natural id)) := by
  unfold fieldNumber at same
  split_ifs at same
  · exact natural_of_equals whole positive same
  · have zero : 0 = id := of_decide_eq_true same
    omega

theorem natural_of_linkedIs
    (whole : IsWholeNumber (property entry "linkedId")) {id : ℕ} (positive : 0 < id)
    (same : linkedIs (linkedIdOf js entry) id = true) :
    property entry "linkedId" = some (.number (.natural id)) := by
  unfold linkedIs linkedIdOf linkedNumber at same
  split_ifs at same
  · have zero : 0 = id := of_decide_eq_true same
    omega
  · exact natural_of_equals whole positive same

/-- The panel's table and the helper's agree on the secret ids. -/
theorem linkedTables (id : ℕ) (secret : id ∈ sensitiveIds) :
    ∃ part key, linkedSecretPath id = some [part, key] ∧
      ((part = "login" ∧ key = "password") ∨ (part = "card" ∧ key ∈ cardKeys) ∨
        (part = "identity" ∧ key ∈ identityKeys)) ∧
      linkedFields.find? (fun entry => linkedIs (some (some (.natural id))) entry.1) =
        some (id, part, key) := by
  simp only [sensitiveIds, mem_cons, not_mem_nil, or_false] at secret
  rcases secret with rfl | rfl | rfl | rfl | rfl | rfl
  · exact ⟨"login", "password", rfl, by decide, by decide⟩
  · exact ⟨"card", "code", rfl, by decide, by decide⟩
  · exact ⟨"card", "number", rfl, by decide, by decide⟩
  · exact ⟨"identity", "ssn", rfl, by decide, by decide⟩
  · exact ⟨"identity", "passportNumber", rfl, by decide, by decide⟩
  · exact ⟨"identity", "licenseNumber", rfl, by decide, by decide⟩

theorem linkedSecretPath_eq_none {id : ℕ} (shown : id ∉ sensitiveIds) :
    linkedSecretPath id = none := by
  simp only [sensitiveIds, mem_cons, not_mem_nil, or_false, not_or] at shown
  simp [linkedSecretPath, shown]

/-- What the helper answers for one element of the item's `fields`. -/
def fieldAnswer (it : Fields) (entry : Option Json) : Option String :=
  ((property entry "type").bind asU64).bind fun type =>
    if type = 1 then (property entry "value").bind asStr
    else if type = 3 then
      ((property entry "linkedId").bind asU64).bind fun id =>
        (linkedSecretPath id).bind fun path => (getValue (.object it) path).bind asStr
    else none

theorem element_of_entry {items : List Json}
    (place : (listEntries (some (.array items)))[index]? = some entry) :
    ∃ element, items[index]? = some element ∧ entry = some element := by
  change ((items.map some).take maxListEntries)[index]? = some entry at place
  rw [getElem?_take, Option.ite_none_right_eq_some, getElem?_map] at place
  obtain ⟨element, there, same⟩ := Option.map_eq_some_iff.mp place.2
  exact ⟨element, there, same.symm⟩

theorem customSecret_eq {items : List Json} {element : Json}
    (list : it.get "fields" = some (.array items)) (place : items[index]? = some element) :
    customSecret (.object it) index = fieldAnswer it (some element) := by
  have fields : mem (.object it) "fields" = some (.array items) := list
  have parts : ∀ key, mem element key = property (some element) key := fun key => rfl
  unfold customSecret fieldAnswer
  simp only [fields, Option.bind_eq_bind, Option.bind_some, asArray, place, parts,
    Option.bind_assoc]

section Answer

variable {libraries : Libraries} {store : Store} {id : String} {field : CustomField}

/-- The helper looks at the element the panel's field was read from. -/
theorem answer_field (held : HeldAs libraries store id it) (customs : WholeCustoms it)
    (shown : field ∈ itemCustomFields js (it.get "fields") it) :
    ∃ entry ∈ listEntries (it.get "fields"), itemCustomField js it entry field.index = some field ∧
      answer libraries store id (customFieldKey field.index) = fieldAnswer it entry := by
  obtain ⟨entry, place, built⟩ := of_mem_itemCustomFields shown
  refine ⟨entry, mem_of_getElem? place, built, ?_⟩
  rw [answer_custom held ((index_lt shown).trans (by decide))]
  rcases customs.list with none | null | ⟨items, list⟩
  · rw [none] at place
    cases place
  · rw [null] at place
    cases place
  · rw [list] at place
    obtain ⟨element, there, rfl⟩ := element_of_entry place
    exact customSecret_eq list there

variable {entry : Option Json}

theorem itemCustomField_parts (built : itemCustomField js it entry index = some field) :
    field.value = customFieldValue js it entry ∧ field.sensitive = isSensitive js entry := by
  unfold itemCustomField at built
  rw [Option.ite_none_right_eq_some] at built
  cases built.2
  exact ⟨rfl, rfl⟩

theorem fieldAnswer_hidden (texts : IsText (property entry "value"))
    (type : property entry "type" = some (.number (.natural 1)))
    (there : customFieldValue js it entry ≠ "") :
    fieldAnswer it entry = some (customFieldValue js it entry) := by
  have value : customFieldValue js it entry = shownText js (property entry "value") := by
    unfold customFieldValue fieldNumber
    rw [type]
    rfl
  unfold fieldAnswer
  rw [value] at there ⊢
  rw [type]
  exact asStr_of_shownText texts there

theorem fieldAnswer_linked (texts : HasTexts it) {linked : ℕ}
    (type : property entry "type" = some (.number (.natural 3)))
    (link : property entry "linkedId" = some (.number (.natural linked)))
    (secret : linked ∈ sensitiveIds) (there : customFieldValue js it entry ≠ "") :
    fieldAnswer it entry = some (customFieldValue js it entry) := by
  obtain ⟨part, key, path, read, found⟩ := linkedTables linked secret
  have linkedId : linkedIdOf js entry = some (some (.natural linked)) := by
    unfold linkedIdOf
    rw [link]
    rfl
  have value : customFieldValue js it entry = shownText js (property (it.get part) key) := by
    unfold customFieldValue fieldNumber linkedCustomFieldValue
    rw [type, linkedId, found]
    rfl
  have text : IsText (property (it.get part) key) := by
    rcases read with ⟨rfl, rfl⟩ | ⟨rfl, listed⟩ | ⟨rfl, listed⟩
    · exact texts.login _ (by decide)
    · exact texts.card _ listed
    · exact texts.identity _ listed
  unfold fieldAnswer
  rw [type, link]
  change (linkedSecretPath linked).bind _ = _
  rw [path, Option.bind_some, getValue_two]
  rw [value] at there ⊢
  exact asStr_of_shownText text there

theorem answer_sensitive (held : HeldAs libraries store id it) (texts : HasTexts it)
    (customs : WholeCustoms it) (shown : field ∈ itemCustomFields js (it.get "fields") it)
    (sensitive : field.sensitive = true) (there : field.value ≠ "") :
    answer libraries store id (customFieldKey field.index) = some field.value := by
  obtain ⟨entry, listed, built, answered⟩ := answer_field held customs shown
  obtain ⟨value, isSensitive⟩ := itemCustomField_parts built
  rw [isSensitive, ItemView.isSensitive, Bool.or_eq_true, Bool.and_eq_true] at sensitive
  rw [value] at there
  rw [answered, value]
  rcases sensitive with hidden | ⟨linked, secret⟩
  · have type := natural_of_fieldNumber (customs.numbers entry listed).1 (by decide) hidden
    exact fieldAnswer_hidden (texts.fields entry listed).2 type there
  · have type := natural_of_fieldNumber (customs.numbers entry listed).1 (by decide) linked
    obtain ⟨id, mem, same⟩ := any_eq_true.mp secret
    have positive : ∀ id ∈ sensitiveIds, 0 < id := by decide
    have link := natural_of_linkedIs (customs.numbers entry listed).2 (positive id mem) same
    exact fieldAnswer_linked texts type link mem there

theorem natural_of_asU64 {value : Option Json} {number : ℕ}
    (read : value.bind asU64 = some number) :
    value = some (.number (.natural number)) := by
  obtain ⟨json, rfl, read⟩ := Option.bind_eq_some_iff.mp read
  cases json with
  | number found =>
    cases found with
    | natural _ =>
      cases read
      rfl
    | _ => cases read
  | _ => cases read

/-- What the helper answers is drawn as a secret. -/
theorem isSensitive_of_fieldAnswer {value : String} (answered : fieldAnswer it entry = some value) :
    isSensitive js entry = true := by
  obtain ⟨type, typed, answered⟩ := Option.bind_eq_some_iff.mp answered
  have number : fieldNumber js entry = some (.natural type) := by
    unfold fieldNumber
    rw [natural_of_asU64 typed]
    cases type <;> rfl
  unfold isSensitive
  rw [number, Bool.or_eq_true, Bool.and_eq_true]
  split_ifs at answered with hidden linked
  · exact .inl (decide_eq_true hidden)
  · obtain ⟨id, link, answered⟩ := Option.bind_eq_some_iff.mp answered
    refine .inr ⟨decide_eq_true linked, any_eq_true.mpr ⟨id, ?_, ?_⟩⟩
    · by_contra outside
      rw [linkedSecretPath_eq_none outside] at answered
      cases answered
    · unfold linkedIdOf
      rw [natural_of_asU64 link]
      exact decide_eq_true rfl

theorem answer_not_sensitive (held : HeldAs libraries store id it) (customs : WholeCustoms it)
    (shown : field ∈ itemCustomFields js (it.get "fields") it) (plain : field.sensitive = false) :
    answer libraries store id (customFieldKey field.index) = none := by
  obtain ⟨entry, listed, built, answered⟩ := answer_field held customs shown
  rw [(itemCustomField_parts built).2] at plain
  rw [answered, Option.eq_none_iff_forall_not_mem]
  intro value found
  rw [isSensitive_of_fieldAnswer found] at plain
  cases plain

end Answer

end Customs

/-! ### The rows of the detail -/

/-- The rows of a part whose text is not empty, by the name the helper gets. -/
def partRows (part : Option (String → String)) (rows : List (String × String)) : List String :=
  rows.filterMap fun row => part.bind fun texts => if texts row.2 ≠ "" then some row.1 else none

/-- The rows a view draws as secret, by the name the helper gets. -/
def secretRows (view : ItemView) : List String :=
  (if view.hasPassword then ["password"] else []) ++ (if view.hasNotes then ["notes"] else []) ++
    partRows view.card [("cardNumber", "number"), ("cardCode", "code")] ++
    partRows view.identity [("ssn", "ssn"), ("passportNumber", "passportNumber"),
      ("licenseNumber", "licenseNumber")] ++
    (view.fields.filter (·.sensitive)).map fun field => customFieldKey field.index

/-- A name is answered with the value of the full item. -/
def Answered (js : Js) (detail : ItemView) (libraries : Libraries) (store : Store)
    (id name : String) : Prop :=
  ∃ value, detailSecretValue js detail name = some value ∧
    (value ≠ "" → answer libraries store id name = some value)

section Rows

variable {js : Js} {formatAttachmentSize : Option Json → String} {libraries : Libraries}
  {store : Store} {id : String} {it : Fields}

theorem answered_of_text (held : HeldAs libraries store id it) {name : String}
    {field : SecretField} {path : List String} (parsed : parse name = some field)
    (fixed : field.path = some path) (text : IsText (getValue (.object it) path))
    (detail : ItemView)
    (shown : detailSecretValue js detail name =
      some (textOrEmpty js (getValue (.object it) path))) :
    Answered js detail libraries store id name := by
  refine ⟨_, shown, ?_⟩
  intro there
  rw [answer_fixed held parsed fixed]
  exact asStr_of_textOrEmpty text there

theorem mem_partRows {part : Option (String → String)} {rows : List (String × String)}
    {name : String} (drawn : name ∈ partRows part rows) :
    part.isSome ∧ ∃ key, (name, key) ∈ rows := by
  obtain ⟨row, listed, found⟩ := mem_filterMap.mp drawn
  obtain ⟨texts, there, shown⟩ := Option.bind_eq_some_iff.mp found
  rw [Option.ite_none_right_eq_some] at shown
  obtain ⟨-, same⟩ := shown
  cases same
  exact ⟨by rw [there]; rfl, row.2, listed⟩

theorem textsAt_of_isSome {keys : List String} {part : Option Json}
    (there : (textsAt js keys part).isSome) :
    textsAt js keys part = some (partText js keys part) := by
  unfold textsAt at there ⊢
  split_ifs at there ⊢
  · rfl
  · cases there

variable {detail : ItemView}

/-- A row of the card or the identity. -/
theorem answered_part (held : HeldAs libraries store id it) {keys : List String}
    {part key name : String} (listed : key ∈ keys) (text : IsText (property (it.get part) key))
    (there : (textsAt js keys (it.get part)).isSome) {field : SecretField}
    (parsed : parse name = some field) (fixed : field.path = some [part, key])
    (shown : detailSecretValue js detail name = (textsAt js keys (it.get part)).map (· key)) :
    Answered js detail libraries store id name := by
  refine answered_of_text held parsed fixed ?_ detail ?_
  · rw [getValue_two]
    exact text
  · rw [shown, textsAt_of_isSome there, Option.map_some, partText_of_mem listed, getValue_two]

theorem detailSecretValue_custom {field : CustomField}
    (decimal : js.parseNumber (toString field.index) = some (.natural field.index))
    (short : detail.fields.length ≤ maxListEntries) (shown : field ∈ detail.fields)
    (only : ∀ other ∈ detail.fields, other.index = field.index → other = field) :
    detailSecretValue js detail (customFieldKey field.index) = some field.value := by
  have index : js.parseNumber (String.ofList ((customFieldKey field.index).toList.drop
      "customField:".toList.length)) = some (.natural field.index) := by
    rw [toList_customFieldKey, ← decimal, Nat.toString_eq_ofList_toDigits]
    exact congrArg (fun text => js.parseNumber (String.ofList text)) drop_left
  have found : (detail.fields.reverse.find? fun other =>
      (some (JsonNumber.natural field.index)).any (·.equals other.index)).isSome :=
    find?_isSome.mpr ⟨field, mem_reverse.mpr shown, decide_eq_true rfl⟩
  obtain ⟨other, search⟩ := Option.isSome_iff_exists.mp found
  have equal := find?_some search
  have same : field.index = other.index := of_decide_eq_true equal
  have listed := mem_reverse.mp (mem_of_find?_eq_some search)
  unfold detailSecretValue
  change (if customName.isPrefixOf (customFieldKey field.index).toList = true then
    _ else _) = _
  rw [if_pos (front_customFieldKey _), take_of_length_le short]
  dsimp only
  rw [index, search, only other listed same.symm]

/-- The secret custom fields of the view are those of the detail. -/
theorem of_mem_publicFields {field : CustomField}
    (drawn : field ∈ (publicItemDetail detail).fields.filter (·.sensitive)) :
    ∃ original ∈ detail.fields, original.sensitive = true ∧ original.index = field.index := by
  obtain ⟨listed, sensitive⟩ := mem_filter.mp drawn
  obtain ⟨original, mem, rfl⟩ := mem_map.mp listed
  exact ⟨original, mem_of_mem_take mem, sensitive, rfl⟩

end Rows

/-- Each secret row is answered with its own value, and no other custom field is answered. -/
theorem secret_rows_answered {js : Js} {formatAttachmentSize : Option Json → String}
    {libraries : Libraries} {store : Store} {id : String} {it : Fields}
    (decimals : ∀ number < maxListEntries,
      js.parseNumber (toString number) = some (.natural number))
    (held : HeldAs libraries store id it) (texts : HasTexts it) (customs : WholeCustoms it)
    (ordinary : isSshKey js it = false) :
    (∀ name ∈ secretRows (publicItemDetail (itemRow js formatAttachmentSize (stripItem it))),
      Answered js (ItemView.itemDetailFromObject js formatAttachmentSize it) libraries store id
        name) ∧
    ∀ field ∈ itemCustomFields js (it.get "fields") it, field.sensitive = false →
      answer libraries store id (customFieldKey field.index) = none := by
  refine ⟨?_, fun field shown plain => answer_not_sensitive held customs shown plain⟩
  have detail : ItemView.itemDetailFromObject js formatAttachmentSize it =
      ordinaryDetail js formatAttachmentSize it :=
    if_neg (by rw [ordinary]; exact Bool.false_ne_true)
  rw [publicItemDetail_stripItem js texts, detail]
  intro name drawn
  simp only [secretRows, mem_append, or_assoc] at drawn
  rcases drawn with password | notes | card | identity | custom
  · rw [mem_ite_nil_right, mem_singleton] at password
    rw [password.2]
    refine answered_of_text held rfl rfl ?_ _ ?_
    · rw [getValue_two]
      exact texts.login "password" (by decide)
    · rw [getValue_two]
      rfl
  · rw [mem_ite_nil_right, mem_singleton] at notes
    rw [notes.2]
    refine answered_of_text held rfl rfl ?_ _ ?_
    · rw [getValue_one]
      exact texts.notes
    · rw [getValue_one]
      rfl
  · obtain ⟨there, key, listed⟩ := mem_partRows card
    have there : (cardDetail js (it.get "card")).isSome := by
      rw [← Option.isSome_map]
      exact there
    simp only [mem_cons, not_mem_nil, or_false, Prod.mk.injEq] at listed
    rcases listed with ⟨rfl, rfl⟩ | ⟨rfl, rfl⟩
    · exact answered_part held (by decide) (texts.card "number" (by decide)) there rfl rfl rfl
    · exact answered_part held (by decide) (texts.card "code" (by decide)) there rfl rfl rfl
  · obtain ⟨there, key, listed⟩ := mem_partRows identity
    have there : (identityDetail js (it.get "identity")).isSome := by
      rw [← Option.isSome_map]
      exact there
    simp only [mem_cons, not_mem_nil, or_false, Prod.mk.injEq] at listed
    rcases listed with ⟨rfl, rfl⟩ | ⟨rfl, rfl⟩ | ⟨rfl, rfl⟩
    · exact answered_part held (by decide) (texts.identity "ssn" (by decide)) there rfl rfl rfl
    · exact answered_part held (by decide) (texts.identity "passportNumber" (by decide)) there
        rfl rfl rfl
    · exact answered_part held (by decide) (texts.identity "licenseNumber" (by decide)) there
        rfl rfl rfl
  · obtain ⟨drawnField, listed, rfl⟩ := mem_map.mp custom
    obtain ⟨field, shown, sensitive, same⟩ := of_mem_publicFields listed
    have short : (ordinaryDetail js formatAttachmentSize it).fields.length ≤ maxListEntries :=
      length_itemCustomFields _
    rw [← same]
    refine ⟨field.value, ?_, ?_⟩
    · exact detailSecretValue_custom (decimals _ (index_lt shown)) short shown
        fun other listed same => itemCustomFields_inj listed shown same
    · intro there
      exact answer_sensitive held texts customs shown sensitive there

/-- Conversions that read every text as a decimal number. -/
def decimalJs : Js :=
  { plainJs with parseNumber := fun text => some (.natural (Nat.ofDigitChars 10 text.toList 0)) }

theorem decimalJs_reads (number : ℕ) :
    decimalJs.parseNumber (toString number) = some (.natural number) := by
  change some (JsonNumber.natural (Nat.ofDigitChars 10 (toString number).toList 0)) = _
  rw [Nat.toString_eq_ofList_toDigits, String.toList_ofList, Nat.ofDigitChars_ten_toDigits]

theorem heldAs_hold {it : Fields} {id : String} (named : it.get "id" = some (.string id))
    (whole : Json.Whole (.object it)) (sorted : Json.mapped (.object it) = .object it) :
    HeldAs jsonLibraries (Store.empty.hold jsonLibraries it) id it where
  item := by
    have text : (it.get "id").bind asStr = some id := by rw [named]; rfl
    unfold Store.hold Store.item Store.held fetch
    rw [text]
    dsimp only [Store.empty]
    rw [AList.lookup_empty]
    dsimp only
    rw [AList.lookup_insert]
    rfl
  reads := jsonLibraries_reads whole sorted

theorem wholeCustoms_guardedLogin (secret : String) : WholeCustoms (guardedLogin secret) where
  list := .inr (.inr ⟨_, rfl⟩)
  numbers field mem := by
    rcases mem_cons.mp mem with rfl | mem
    · exact ⟨.inr (.inr (.inl ⟨1, rfl⟩)), .inl rfl⟩
    rcases mem_cons.mp mem with rfl | mem
    · exact ⟨.inr (.inr (.inl ⟨3, rfl⟩)), .inr (.inr (.inl ⟨101, rfl⟩))⟩
    · cases mem

theorem heldAs_guardedLogin (secret : String) : HeldAs jsonLibraries
    (Store.empty.hold jsonLibraries (guardedLogin secret)) "i1" (guardedLogin secret) := by
  refine heldAs_hold rfl ?_ rfl
  simp [guardedLogin, Json.Whole, Json.WholeEach, Json.WholeFields]

theorem secret_rows_answered_guarded :
    customFieldKey 1 ∈ secretRows (publicItemDetail
        (itemRow decimalJs (fun _ => "") (stripItem (guardedLogin "hunter2")))) ∧
      Answered decimalJs
        (ItemView.itemDetailFromObject decimalJs (fun _ => "") (guardedLogin "hunter2"))
        jsonLibraries (Store.empty.hold jsonLibraries (guardedLogin "hunter2")) "i1"
        (customFieldKey 1) := by
  have drawn : customFieldKey 1 ∈ secretRows (publicItemDetail
      (itemRow decimalJs (fun _ => "") (stripItem (guardedLogin "hunter2")))) := by
    decide +kernel
  exact ⟨drawn, (secret_rows_answered (fun number _ => decimalJs_reads number)
    (heldAs_guardedLogin "hunter2") (hasTexts_guardedLogin "hunter2")
    (wholeCustoms_guardedLogin "hunter2") rfl).1 _ drawn⟩

/-- A note with a hidden field whose type is written as a text. -/
def typedAsText : Fields :=
  [("fields", .array [.object [("name", .string "pin"), ("type", .string "1"),
      ("value", .string "1234")]]),
    ("id", .string "i1"), ("name", .string "door"), ("type", .number (.natural 2))]

theorem hasTexts_typedAsText : HasTexts typedAsText where
  name := .inr (.inr ⟨_, rfl⟩)
  notes := .inl rfl
  login key mem := .inl rfl
  card key mem := .inl rfl
  identity key mem := .inl rfl
  fields field mem := by
    rcases mem_cons.mp mem with rfl | mem
    · exact ⟨.inr (.inr ⟨_, rfl⟩), .inr (.inr ⟨_, rfl⟩)⟩
    · cases mem

theorem heldAs_typedAsText :
    HeldAs jsonLibraries (Store.empty.hold jsonLibraries typedAsText) "i1" typedAsText := by
  refine heldAs_hold rfl ?_ rfl
  simp [typedAsText, Json.Whole, Json.WholeEach, Json.WholeFields]

/-- The panel draws the field as a secret, and the helper has no answer for it. -/
theorem text_type_is_unanswered :
    HasTexts typedAsText ∧ isSshKey decimalJs typedAsText = false ∧
      HeldAs jsonLibraries (Store.empty.hold jsonLibraries typedAsText) "i1" typedAsText ∧
      customFieldKey 0 ∈ secretRows (publicItemDetail
        (itemRow decimalJs (fun _ => "") (stripItem typedAsText))) ∧
      detailSecretValue decimalJs
        (ItemView.itemDetailFromObject decimalJs (fun _ => "") typedAsText)
        (customFieldKey 0) = some "1234" ∧
      answer jsonLibraries (Store.empty.hold jsonLibraries typedAsText) "i1"
        (customFieldKey 0) = none := by
  refine ⟨hasTexts_typedAsText, rfl, heldAs_typedAsText, ?_, ?_, ?_⟩
  · decide +kernel
  · decide +kernel
  · rw [answer_custom heldAs_typedAsText (by decide)]
    rfl

end QsBitwarden.Panel
