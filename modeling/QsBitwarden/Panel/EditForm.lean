import QsBitwarden.Lib.Js
import QsBitwarden.Panel.SavedItem

/-! Owns the way of an item through the edit form: what the form reads of the item's detail,
the form loaded from it, the checks before a save, and the payload that writes the form over
the stored object. Items of type 5 have no form. -/

namespace QsBitwarden.Panel

open Lib Lib.Json

section Form

variable (js : Js)

/-! ### The detail -/

/-- The entries of a list that are read. -/
def listEntries (value : Option Json) : List (Option Json) := (elements value).take maxListEntries

def cardKeys : List String := ["cardholderName", "brand", "number", "expMonth", "expYear", "code"]

def identityKeys : List String :=
  ["title", "firstName", "middleName", "lastName", "username", "company", "email", "phone", "ssn",
    "passportNumber", "licenseNumber", "address1", "address2", "address3", "city", "state",
    "postalCode", "country"]

/-- What the form reads of a detail. -/
structure Detail where
  name : String
  typeCode : Option JsonNumber
  favorite : Bool
  organizationId : Option String
  folderId : Option String
  notes : String
  username : String
  password : String
  totpKey : String
  uris : List String
  /-- The card's and the identity's texts, by key. -/
  card : Option (String → String)
  identity : Option (String → String)
  rawObject : Option Fields

def loginUris (login : Option Json) : List String :=
  (listEntries (property login "uris")).filterMap fun entry =>
    if truthy (property entry "uri") then some (text js (property entry "uri")) else none

/-- The text of a part under one of the keys that are read. -/
def partText (keys : List String) (part : Option Json) (key : String) : String :=
  if key ∈ keys then textOrEmpty js (property part key) else ""

def textsAt (keys : List String) (part : Option Json) : Option (String → String) :=
  if truthy part then some (partText js keys part) else none

def cardDetail (card : Option Json) : Option (String → String) := textsAt js cardKeys card

def identityDetail (identity : Option Json) : Option (String → String) :=
  textsAt js identityKeys identity

def idOrNull (value : Option Json) : Option String :=
  if truthy value then some (text js value) else none

def textOrUntitled (value : Option Json) : String :=
  if truthy value then text js value else "Untitled"

/-- This part of `itemDetailFromObject`, for items that are no SSH keys. -/
def formDetail (it : Fields) : Detail :=
  let login := it.get "login"
  { name := textOrUntitled js (it.get "name")
    typeCode := if truthy (it.get "type") then toNumber js (it.get "type") else some (.natural 1)
    favorite := truthy (it.get "favorite")
    organizationId := idOrNull js (it.get "organizationId")
    folderId := idOrNull js (it.get "folderId")
    notes := textOrEmpty js (it.get "notes")
    username := textOrEmpty js (property login "username")
    password := textOrEmpty js (property login "password")
    totpKey := textOrEmpty js (property login "totp")
    uris := loginUris js login
    card := cardDetail js (it.get "card")
    identity := identityDetail js (it.get "identity")
    rawObject := some it }

/-! ### The form -/

/-- A custom field in the form: its value is a switch or a text, its linked id null or a
number. -/
structure FormField where
  name : String
  value : Bool ⊕ String
  type : Option JsonNumber
  linkedId : Option (Option JsonNumber)

structure EditForm where
  typeCode : Option JsonNumber
  name : String
  username : String
  password : String
  totp : String
  uri : String
  notes : String
  favorite : Bool
  orgId : String
  folderId : String
  collectionIds : List Json
  customFields : List FormField
  cardValues : String → String
  identityValues : String → String

def customFieldBooleanValue (value : Option Json) : Bool :=
  match value with
  | some (.bool true) => true
  | _ => js.toLowerCase (text js value) = "true"

def isNull : Option Json → Bool
  | none => true
  | some .null => true
  | _ => false

def copyCustomField (field : Option Json) : Option FormField :=
  if truthy field then
    let type := property field "type"
    let value := property field "value"
    let linkedId := property field "linkedId"
    some
      { name := textOrEmpty js (property field "name")
        value :=
          if toNumber js type = some (.natural 2) then .inl (customFieldBooleanValue js value)
          else .inr (shownText js value)
        type := if truthy type then toNumber js type else some (.natural 0)
        linkedId := if isNull linkedId then none else some (toNumber js linkedId) }
  else none

def copyCustomFieldsForForm (fields : Option Json) : List FormField :=
  (elements fields).filterMap (copyCustomField js)

/-- The texts of the websites, as stored. -/
def loginUriEntries (login : Option Json) : List String :=
  (listEntries (property login "uris")).filterMap fun entry =>
    entry.bind fun value =>
      if value.isWhole then some (shownText js (property entry "uri")) else none

def orElse (first second : String) : String := if first ≠ "" then first else second

def startEditItemNow (item : Detail) : EditForm :=
  let login := item.rawObject.bind (·.get "login")
  let fields := item.rawObject.bind (·.get "fields")
  { typeCode :=
      match item.typeCode with
      | some code => if code.isZero then some (.natural 1) else some code
      | none => some (.natural 1)
    name := item.name
    username := item.username
    password := orElse item.password (textOrEmpty js (property login "password"))
    totp := orElse item.totpKey (textOrEmpty js (property login "totp"))
    uri := ((loginUriEntries js login).head?.or item.uris.head?).getD ""
    notes := item.notes
    favorite := item.favorite
    orgId := item.organizationId.getD ""
    folderId := item.folderId.getD ""
    collectionIds := ((item.rawObject.bind (·.get "collectionIds")).bind asArray).getD []
    -- without fields in the stored object the detail has none either
    customFields := if truthy fields then copyCustomFieldsForForm js fields else []
    cardValues := item.card.getD fun _ => ""
    identityValues := item.identity.getD fun _ => "" }

/-- `formTypeFields`: the card's or the identity's boxes, if the form has any. -/
def EditForm.typeFields (form : EditForm) : Option (String → String) :=
  if form.typeCode = some (.natural 3) then some form.cardValues
  else if form.typeCode = some (.natural 4) then some form.identityValues
  else none

/-- `validateItemForm`, the empty text being no problem. -/
def validateItemForm (form : EditForm) : String :=
  if trimText form.name = "" then "Item title is required"
  else if form.orgId ∉ ["", "personal", "all"] ∧ form.collectionIds.isEmpty then
    "Pick at least one collection for an organization item"
  else
    let unlabelled := fun field : FormField => trimText field.name = ""
    match (form.customFields.take maxListEntries).findIdx? unlabelled with
    | some index => "Custom field " ++ toString (index + 1) ++ " needs a label"
    | none => ""

/-! ### The payload -/

/-- A value the form did not change is written back as stored. -/
def formValue (stored : Option Json) (typed : String) (clean : String → Json) : Json :=
  if typed = shownText js stored then stored.getD (.string typed) else clean typed

def trimmedText (value : String) : Json := .string (trimText value)

def trimmedOrNull (value : String) : Json :=
  if trimText value = "" then .null else .string (trimText value)

/-- Set a key from the form. -/
def writeValue (clean : String → Json) (object : Fields) (key typed : String) : Fields :=
  object.insert key (formValue js (object.get key) typed clean)

def updateLoginFields (login : Fields) (username password totp : String) : Fields :=
  let login := writeValue js trimmedText login "username" username
  let login := writeValue js .string login "password" password
  writeValue js trimmedOrNull login "totp" totp

/-- The properties of an object, or of an array by its indices. -/
def propertiesOf : Json → Fields
  | .object fields => fields
  | .array items => items.zipIdx.map fun (item, index) => (toString index, item)
  | _ => []

def editedUris (stored : Option Json) (typed : String) : Json :=
  let kept := (listEntries stored).filterMap fun entry => entry.filter isWhole
  match kept with
  | [] =>
    if trimText typed = "" then stored.getD (.array [])
    else .array [.object [("match", .null), ("uri", .string (trimText typed))]]
  | first :: rest =>
    if typed = shownText js (property (some first) "uri") then .array (first :: rest)
    else if trimText typed = "" then .array rest
    else
      let replaced := propertiesOf first
      let replaced := replaced.insert "match" ((property (some first) "match").getD .null)
      let replaced := replaced.insert "uri" (.string (trimText typed))
      .array (.object replaced :: rest)

/-- `updateCardFields` and `updateIdentityFields`. -/
def updateTypeFields (keys : List String) (object : Fields) (values : String → String) : Fields :=
  keys.foldl (fun object key => writeValue js trimmedText object key (values key)) object

/-- The type of a custom field as it is written. -/
def customFieldType : Option JsonNumber → JsonNumber
  | some (.natural type) => if 3 < type then .natural 0 else .natural type
  | some (.negative _) => .natural 0
  | some (.float bits) => if js.upToThree bits then .float bits else .natural 0
  | none => .natural 0

def customFieldPayload (field : FormField) : Option Json :=
  if trimText field.name = "" then none
  else
    let type := customFieldType js field.type
    let entry : Fields := Fields.insert [("name", .string field.name)] "type" (.number type)
    if type = .natural 3 then
      let entry := entry.insert "value" .null
      match field.linkedId with
      | some linkedId => some (.object (entry.insert "linkedId" (ofNumber linkedId)))
      | none => some (.object entry)
    else if type = .natural 2 then
      let on := match field.value with
        | .inl switch => switch
        | .inr value => js.toLowerCase value = "true"
      some (.object (entry.insert "value" (.string (if on then "true" else "false"))))
    else
      let value := match field.value with
        | .inl switch => if switch then "true" else "false"
        | .inr value => value
      some (.object (entry.insert "value" (.string value)))

def customFieldsPayload (fields : List FormField) : Json :=
  .array ((fields.take maxListEntries).filterMap (customFieldPayload js))

def selectedOrganizationId (organizationId : String) : Option String :=
  if organizationId ∈ ["", "personal", "all"] then none else some organizationId

def selectedFolderId (folderId : String) : Option String :=
  if folderId ∈ ["", "all", "none"] then none else some folderId

/-- The object under a key, a new one if there is none. -/
def objectAt (payload : Fields) (key : String) : Fields := ((payload.get key).bind asObject).getD []

/-- The fields of the item's own type. -/
def writeTypeFields (payload : Fields) (form : EditForm) : Fields :=
  if isNumber (payload.get "type") 1 || !truthy (payload.get "type") then
    let login := updateLoginFields js (objectAt payload "login") form.username form.password
      form.totp
    let uris := editedUris js (login.get "uris") form.uri
    payload.insert "login" (.object (login.insert "uris" uris))
  else
    match form.typeFields with
    | some values =>
      if isNumber (payload.get "type") 3 then
        payload.insert "card"
          (.object (updateTypeFields js cardKeys (objectAt payload "card") values))
      else if isNumber (payload.get "type") 4 then
        payload.insert "identity"
          (.object (updateTypeFields js identityKeys (objectAt payload "identity") values))
      else payload
    | none => payload

/-- The keys every item has. -/
def writeHead (payload : Fields) (form : EditForm) : Fields :=
  let payload := writeValue js trimmedText payload "name" (orElse form.name "Untitled")
  let payload := writeValue js .string payload "notes" form.notes
  let payload := payload.insert "favorite" (.bool form.favorite)
  let payload := payload.insert "organizationId" (ofText (selectedOrganizationId form.orgId))
  payload.insert "folderId" (ofText (selectedFolderId form.folderId))

/-- The collections of an item of an organization. -/
def writeCollections (payload : Fields) (form : EditForm) : Fields :=
  if selectedOrganizationId form.orgId = none then payload.remove "collectionIds"
  else if !form.collectionIds.isEmpty then
    payload.insert "collectionIds" (.array form.collectionIds)
  else if truthy (payload.get "collectionIds") then payload
  else payload.insert "collectionIds" (.array [])

/-- The stored object with the form written over it; none for an item that is read-only. -/
def buildEditPayload (item : Detail) (form : EditForm) : Option Fields :=
  if item.typeCode = some (.natural 5) ∨
      item.rawObject.any fun raw => toNumber js (raw.get "type") = some (.natural 5) then none
  else
    let payload := writeHead js (item.rawObject.getD []) form
    let payload := writeCollections payload form
    let payload := writeTypeFields js payload form
    some (payload.insert "fields" (customFieldsPayload js form.customFields))

/-- What is saved when the form of a stored item is opened and saved as it is. -/
def savedUnchanged (stored : Fields) : Option Fields :=
  let item := formDetail js stored
  let form := startEditItemNow js item
  if validateItemForm form ≠ "" then none else buildEditPayload js item form

end Form

end QsBitwarden.Panel
