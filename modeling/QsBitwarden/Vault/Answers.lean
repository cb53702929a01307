import Mathlib.Data.List.Infix
import QsBitwarden.Lib.KeyedList
import QsBitwarden.Vault.Store

/-! Owns what the store answers (`store.rs`): an item in full, one of its secrets, and the ids
whose search text has a query. It does not own how the items came to be held. -/

namespace QsBitwarden.Vault

open Lib

/-! ### Secrets by name -/

/-- A value the panel may ask for one at a time. -/
inductive SecretField
  | password
  | notes
  | cardNumber
  | cardCode
  | ssn
  | passportNumber
  | licenseNumber
  /-- The custom field at this position in the item's `fields`. -/
  | custom (index : ℕ)
  deriving DecidableEq, Repr

namespace SecretField

def fixedNames : List (String × SecretField) :=
  [("password", .password), ("notes", .notes), ("cardNumber", .cardNumber),
    ("cardCode", .cardCode), ("ssn", .ssn), ("passportNumber", .passportNumber),
    ("licenseNumber", .licenseNumber)]

def customName : Text := "customField:".toList

/-- Plain digits without a leading zero, so a field has one name. -/
def parseIndex (index : Text) : Option ℕ :=
  if index = [] ∨ 4 < index.length ∨ ¬index.all isAsciiDigit ∨
      (1 < index.length ∧ index.head? = some '0') then none
  else some (Nat.ofDigitChars 10 index 0)

def parse (name : String) : Option SecretField :=
  match fixedNames.lookup name with
  | some field => some field
  | none =>
    if customName.isPrefixOf name.toList then
      (parseIndex (name.toList.drop customName.length)).map .custom
    else none

def path : SecretField → Option (List String)
  | .password => some ["login", "password"]
  | .notes => some ["notes"]
  | .cardNumber => some ["card", "number"]
  | .cardCode => some ["card", "code"]
  | .ssn => some ["identity", "ssn"]
  | .passportNumber => some ["identity", "passportNumber"]
  | .licenseNumber => some ["identity", "licenseNumber"]
  | .custom _ => none

end SecretField

/-- The item field a linked custom field points at, for those the panel treats as secret. -/
def linkedSecretPath (linkedId : ℕ) : Option (List String) :=
  if linkedId = 101 then some ["login", "password"]
  else if linkedId = 303 then some ["card", "code"]
  else if linkedId = 305 then some ["card", "number"]
  else if linkedId = 412 then some ["identity", "ssn"]
  else if linkedId = 414 then some ["identity", "passportNumber"]
  else if linkedId = 415 then some ["identity", "licenseNumber"]
  else none

/-- A member of an object; other values have none. -/
def mem (value : Json) (key : String) : Option Json := value.asObject.bind (Fields.get · key)

/-- `get_value`: the value at a path of keys. -/
def getValue (value : Json) (path : List String) : Option Json := path.foldlM mem value

/-- What a custom field answers: its own value if it is hidden, the secret it links to, or
nothing. -/
def customSecret (item : Json) (index : ℕ) : Option String := do
  let custom ← (← (← mem item "fields").asArray)[index]?
  let type ← (← mem custom "type").asU64
  if type = 1 then (← mem custom "value").asStr
  else if type = 3 then
    let path ← linkedSecretPath (← (← mem custom "linkedId").asU64)
    (← getValue item path).asStr
  else none

/-! ### The store's answers -/

namespace Store

/-- The item held under an id. The source takes the position without asking whether the list
reaches so far. -/
def held (store : Store) (id : String) : Option Held := fetch store.index store.items id

def item (store : Store) (id : String) : Option String := (store.held id).map Held.full

/-- One string at a path of a held item. -/
def valueAt (libraries : Libraries) (store : Store) (id : String) (path : List String) :
    Option String := do
  let item ← libraries.fromStr (← store.item id)
  (← getValue item path).asStr

def itemSecret (libraries : Libraries) (store : Store) (id : String) (field : SecretField) :
    Option String :=
  match field.path, field with
  | some path, _ => store.valueAt libraries id path
  | none, .custom index => do customSecret (← libraries.fromStr (← store.item id)) index
  | none, _ => none

/-- Whether an item's search text has the query, or the last four digits of its card number
have the query's digits. -/
def found (needle : String) (held : Held) : Bool :=
  let digits := needle.toList.filter isAsciiDigit
  needle.toList <:+: held.haystack.toList ∨
    digits ≠ [] ∧ 4 ≤ held.cardDigits.toList.length ∧
      digits <:+: lastChars 4 held.cardDigits.toList

/-- The ids that match a query, in load order. -/
def search (libraries : Libraries) (store : Store) (query : String) : List String :=
  let needle := libraries.toLowercase (String.ofList (trim query.toList))
  if needle = "" then store.items.map Held.id
  else (store.items.filter (found needle)).map Held.id

end Store

end QsBitwarden.Vault
