import Mathlib.Data.List.Infix
import QsBitwarden.Panel.EditForm

/-! Owns an item as the panel's list and detail read it (`parseItems`, `itemDetailFromObject`,
`publicItemDetail`), the secrets named one by one and the search over rows. A row's subtitle is
left out, and the fallback size text of an attachment and the order of the rows are parameters.
It does not own the item as the helper keeps it. -/

namespace QsBitwarden.Panel

open Lib Lib.Json

/-! ### Parts of an item -/

/-- `itemTypeName`; a name that every JavaScript object inherits gives that member. -/
inductive ItemType
  | login
  | secureNote
  | card
  | identity
  | sshKey
  | inherited (mem : String)
  deriving DecidableEq, Repr

structure Attachment where
  id : String
  fileName : String
  size : String
  sizeName : String
  deriving DecidableEq, Repr

/-- A custom field as the detail shows it; its linked id is null or a number. -/
structure CustomField where
  name : String
  index : ℕ
  value : String
  type : Option JsonNumber
  linkedId : Option (Option JsonNumber)
  sensitive : Bool
  deriving DecidableEq, Repr

/-- A row of the list or the open detail. -/
structure ItemView extends Detail where
  id : String
  collectionIds : List String
  type : ItemType
  hasPassword : Bool
  hasNotes : Bool
  hasTotp : Bool
  reprompt : ℕ
  attachments : List Attachment
  fields : List CustomField
  publicKey : String
  fingerprint : String
  /-- Which secrets the helper holds, null if it does not hold the item. -/
  heldFlags : Option Json
  secretsWithheld : Bool

namespace ItemView

section Reading

variable (js : Js) (formatAttachmentSize : Option Json → String)

/-- Names that `ITEM_TYPES` inherits. -/
def objectMembers : List String :=
  ["constructor", "hasOwnProperty", "isPrototypeOf", "propertyIsEnumerable", "toLocaleString",
    "toString", "valueOf", "__proto__", "__defineGetter__", "__defineSetter__",
    "__lookupGetter__", "__lookupSetter__"]

def itemTypeName (type : Option Json) : ItemType :=
  let name := text js type
  if name = "1" then .login
  else if name = "2" then .secureNote
  else if name = "3" then .card
  else if name = "4" then .identity
  else if name = "5" then .sshKey
  else if name ∈ objectMembers then .inherited name
  else .login

def idList (ids : Option Json) : List String := (listEntries ids).map (text js)

def parseAttachments (raw : Option Json) : List Attachment :=
  (listEntries raw).filterMap fun attachment =>
    if truthy (property attachment "id") then
      some
        { id := text js (property attachment "id")
          fileName := orElse (textOrEmpty js (property attachment "fileName")) "attachment"
          size := textOrEmpty js (property attachment "size")
          sizeName := orElse (textOrEmpty js (property attachment "sizeName"))
            (formatAttachmentSize (property attachment "size")) }
    else none

def nonEmptyParts (parts : List String) : List String := (parts.map trimText).filter (· ≠ "")

def identityFullName (identity : String → String) : String :=
  " ".intercalate (nonEmptyParts (["title", "firstName", "middleName", "lastName"].map identity))

def repromptValue (value : Option Json) : ℕ := if (toNumber js value).any (·.equals 1) then 1 else 0

/-! ### Custom fields -/

/-- The item's own fields by `LinkedIdType`, apart from the full name. -/
def linkedFields : List (ℕ × String × String) :=
  [(100, "login", "username"), (101, "login", "password"), (300, "card", "cardholderName"),
    (301, "card", "expMonth"), (302, "card", "expYear"), (303, "card", "code"),
    (304, "card", "brand"), (305, "card", "number"), (400, "identity", "title"),
    (401, "identity", "middleName"), (402, "identity", "address1"), (403, "identity", "address2"),
    (404, "identity", "address3"), (405, "identity", "city"), (406, "identity", "state"),
    (407, "identity", "postalCode"), (408, "identity", "country"), (409, "identity", "company"),
    (410, "identity", "email"), (411, "identity", "phone"), (412, "identity", "ssn"),
    (413, "identity", "username"), (414, "identity", "passportNumber"),
    (415, "identity", "licenseNumber"), (416, "identity", "firstName"),
    (417, "identity", "lastName")]

/-- `Number(linkedId)` of a linked id that is null or a number. -/
def linkedNumber (linkedId : Option (Option JsonNumber)) : Option JsonNumber :=
  linkedId.getD (some (.natural 0))

def linkedIs (linkedId : Option (Option JsonNumber)) (id : ℕ) : Bool :=
  (linkedNumber linkedId).any (·.equals id)

def linkedCustomFieldValue (item : Fields) (linkedId : Option (Option JsonNumber)) : String :=
  match linkedFields.find? fun entry => linkedIs linkedId entry.1 with
  | some (_, part, key) => shownText js (property (item.get part) key)
  | none =>
    if linkedIs linkedId 418 then
      identityFullName fun key => textOrEmpty js (property (item.get "identity") key)
    else ""

def sensitiveIds : List ℕ := [101, 303, 305, 412, 414, 415]

def linkedCustomFieldIsSensitive (linkedId : Option (Option JsonNumber)) : Bool :=
  sensitiveIds.any (linkedIs linkedId)

/-- `Number(field.type || 0)`. -/
def fieldNumber (field : Option Json) : Option JsonNumber :=
  if truthy (property field "type") then toNumber js (property field "type") else some (.natural 0)

/-- The linked id of a custom field, null or a number. -/
def linkedIdOf (field : Option Json) : Option (Option JsonNumber) :=
  if isNull (property field "linkedId") then none
  else some (toNumber js (property field "linkedId"))

def customFieldValue (item : Fields) (field : Option Json) : String :=
  if (fieldNumber js field).any (·.equals 3) then
    linkedCustomFieldValue js item (linkedIdOf js field)
  else shownText js (property field "value")

def isSensitive (field : Option Json) : Bool :=
  (fieldNumber js field).any (·.equals 1) ||
    (fieldNumber js field).any (·.equals 3) && linkedCustomFieldIsSensitive (linkedIdOf js field)

def itemCustomField (item : Fields) (field : Option Json) (index : ℕ) : Option CustomField :=
  if truthy (property field "name") then
    some
      { name := textOrEmpty js (property field "name")
        index := index
        value := customFieldValue js item field
        type := fieldNumber js field
        linkedId := linkedIdOf js field
        sensitive := isSensitive js field }
  else none

def itemCustomFields (fields : Option Json) (item : Fields) : List CustomField :=
  (listEntries fields).zipIdx.filterMap fun entry => itemCustomField js item entry.1 entry.2

/-! ### Rows and details -/

/-- What the helper says it holds: an object, or an array, which says nothing. -/
def heldBy (value : Option Json) : Option Json := value.filter isWhole

def ordinaryDetail (it : Fields) : ItemView :=
  let login := it.get "login"
  { formDetail js it with
    id := textOrEmpty js (it.get "id")
    collectionIds := idList js (it.get "collectionIds")
    type := itemTypeName js (it.get "type")
    hasPassword := truthy (property login "password")
    hasNotes := truthy (it.get "notes")
    hasTotp := truthy (property login "totp")
    reprompt := repromptValue js (it.get "reprompt")
    attachments := parseAttachments js formatAttachmentSize (it.get "attachments")
    fields := itemCustomFields js (it.get "fields") it
    publicKey := ""
    fingerprint := ""
    heldFlags := none
    secretsWithheld := false }

/-- One row of `parseItems`, with the fields of a detail where they are the same. -/
def itemRow (it : Fields) : ItemView :=
  let login := it.get "login"
  let held := heldBy (it.get "qsbwHeld")
  { ordinaryDetail js formatAttachmentSize it with
    hasPassword := truthy (property login "password") || truthy (property held "password")
    hasNotes := truthy (it.get "notes") || truthy (property held "notes")
    hasTotp := truthy (property login "totp") || truthy (property held "totp")
    fields := if held.isSome then itemCustomFields js (it.get "fields") it else []
    heldFlags := held
    rawObject := if held.isSome then none else some it }

/-- A list element that is an object; of an array nothing is read. -/
def itemObject : Json → Option Fields
  | .object fields => some fields
  | .array _ => some []
  | _ => none

def parseItems (inOrder : ItemView → ItemView → Bool) (items : List Json) : List ItemView :=
  ((items.filterMap itemObject).map (itemRow js formatAttachmentSize)).mergeSort inOrder

/-- `Number(it.type) === 5`. -/
def isSshKey (it : Fields) : Bool := (toNumber js (it.get "type")).any (·.equals 5)

def sshKeyDetail (it : Fields) : ItemView :=
  let key := it.get "sshKey"
  let orElse (values : List (Option Json)) := textOrEmpty js ((values.find? truthy).getD none)
  { id := textOrEmpty js (it.get "id")
    organizationId := idOrNull js (it.get "organizationId")
    collectionIds := idList js (it.get "collectionIds")
    folderId := idOrNull js (it.get "folderId")
    name := textOrUntitled js (it.get "name")
    type := .sshKey
    typeCode := some (.natural 5)
    favorite := truthy (it.get "favorite")
    notes := ""
    username := ""
    password := ""
    totpKey := ""
    hasPassword := false
    hasNotes := false
    hasTotp := false
    uris := []
    reprompt := repromptValue js (it.get "reprompt")
    attachments := []
    card := none
    identity := none
    fields := []
    publicKey := orElse [property key "publicKey", it.get "publicKey"]
    fingerprint := orElse [property key "fingerprint", property key "keyFingerprint",
      it.get "fingerprint", it.get "keyFingerprint"]
    heldFlags := none
    rawObject := some it
    secretsWithheld := false }

def itemDetailFromObject (it : Fields) : ItemView :=
  if isSshKey js it then sshKeyDetail js it else ordinaryDetail js formatAttachmentSize it

end Reading

/-! ### The public view -/

/-- Stands in for a secret. -/
def withheld : String := "•"

def mask (shown : Bool) : String := if shown then withheld else ""

/-- Whether a secret exists: the helper's flag; without one, all of an item it holds, else the
text itself. -/
def has (src : ItemView) (flag value : String) : Bool :=
  match property src.heldFlags flag with
  | some held => truthy (some held)
  | none => src.heldFlags.isSome || value ≠ ""

def publicCard (src : ItemView) (card : String → String) (key : String) : String :=
  if key = "number" then mask (card "number" ≠ "")
  else if key = "code" then mask (src.has "cardCode" (card "code"))
  else card key

def publicIdentity (src : ItemView) (identity : String → String) (key : String) : String :=
  if key ∈ ["ssn", "passportNumber", "licenseNumber"] then mask (src.has key (identity key))
  else identity key

def publicField (field : CustomField) : CustomField :=
  { field with value := if field.sensitive then withheld else field.value }

/-- A number that is neither zero nor NaN, else 1. -/
def numberOrOne (number : Option JsonNumber) : Option JsonNumber :=
  match number.filter fun number => !number.isZero with
  | some number => some number
  | none => some (.natural 1)

def publicItemDetail (src : ItemView) : ItemView where
  id := src.id
  organizationId := src.organizationId.filter (· ≠ "")
  collectionIds := src.collectionIds.take maxListEntries
  folderId := src.folderId.filter (· ≠ "")
  name := orElse src.name "Untitled"
  type := src.type
  typeCode := numberOrOne src.typeCode
  favorite := src.favorite
  notes := ""
  username := src.username
  password := ""
  totpKey := ""
  hasPassword := src.hasPassword
  hasNotes := src.hasNotes || src.notes ≠ ""
  hasTotp := src.hasTotp
  uris := src.uris.take maxListEntries
  reprompt := if src.reprompt = 1 then 1 else 0
  attachments := src.attachments.take maxListEntries
  card := src.card.map (publicCard src)
  identity := src.identity.map (publicIdentity src)
  fields := (src.fields.take maxListEntries).map publicField
  publicKey := ""
  fingerprint := ""
  heldFlags := none
  rawObject := none
  secretsWithheld := true

/-! ### Secrets by name -/

/-- The name the helper gets for a custom field. -/
def customFieldKey (index : ℕ) : String := "customField:" ++ toString index

/-- The values that have a name of their own; a card or an identity that is missing has none. -/
def secretValues (detail : ItemView) : List (String × Option String) :=
  [("password", some detail.password), ("notes", some detail.notes),
    ("cardNumber", detail.card.map (· "number")), ("cardCode", detail.card.map (· "code")),
    ("ssn", detail.identity.map (· "ssn")),
    ("passportNumber", detail.identity.map (· "passportNumber")),
    ("licenseNumber", detail.identity.map (· "licenseNumber"))]

def detailSecretValue (js : Js) (detail : ItemView) (key : String) : Option String :=
  let value := (detail.secretValues.lookup key).join
  let start := "customField:".toList
  if start.isPrefixOf key.toList then
    let index := js.parseNumber (String.ofList (key.toList.drop start.length))
    -- the loop keeps the last field at the position
    match (detail.fields.take maxListEntries).reverse.find? fun field =>
        index.any (·.equals field.index) with
    | some field => some field.value
    | none => value
  else value

/-! ### Search -/

section Search

variable (js : Js) (q : String)

def textHas (value : String) : Bool := q.toList <:+: (js.toLowerCase value).toList

/-- A card by what its row displays; by its number only in the last four digits. -/
def cardHas (card : String → String) : Bool :=
  let number := (card "number").toList.filter isAsciiDigit
  let digits := q.toList.filter isAsciiDigit
  textHas js q (card "brand") || textHas js q (card "cardholderName") ||
    (4 ≤ number.length && digits <:+: lastChars 4 number && digits ≠ [])

def identityHas (identity : String → String) : Bool :=
  textHas js q (identityFullName identity) || textHas js q (identity "email") ||
    textHas js q (identity "username") || textHas js q (identity "company")

/-- `matchesQuery` for a query that is not blank, lower case and trimmed. -/
def rowHas (item : ItemView) : Bool :=
  textHas js q item.name || textHas js q item.username ||
    (item.reprompt ≠ 1 && textHas js q item.notes) || textHas js q item.publicKey ||
    textHas js q item.fingerprint || item.card.any (cardHas js q) ||
    item.identity.any (identityHas js q) || (item.uris.take maxListEntries).any (textHas js q)

end Search

def matchesQuery (js : Js) (item : ItemView) (query : String) : Bool :=
  let q := trimText (js.toLowerCase query)
  query = "" || q = "" || rowHas js q item

end ItemView

end QsBitwarden.Panel
