import QsBitwarden.Lib.JsonText
import QsBitwarden.Lib.Maps
import QsBitwarden.Lib.Text
import QsBitwarden.Lib.Wire

/-! Owns the vault as the helper holds it (`store.rs`): the session key, named secrets and
every item, and the vault read with its secrets taken out. The JSON reader and printer
and Unicode lower case are parameters. It does not own the runs that fill the store. -/

namespace QsBitwarden.Vault

open Lib Fields

/-- What the helper calls of `serde_json` and of the Unicode tables. -/
structure Libraries where
  fromStr : String → Option Json
  toString : Json → String
  toLowercase : String → String

/-- Libraries to run on: fractions are not told apart, and only ASCII has lower case. -/
def jsonLibraries : Libraries where
  fromStr raw := (Json.read (fun _ => 0) raw.toList).map Json.mapped
  toString value := String.ofList (Json.write (fun _ => []) value)
  toLowercase := String.toLower

theorem jsonLibraries_reads {value : Json} (whole : value.Whole) (sorted : value.mapped = value) :
    jsonLibraries.fromStr (jsonLibraries.toString value) = some value := by
  dsimp only [jsonLibraries]
  rw [String.toList_ofList, Json.read_write _ whole, Option.map_some, sorted]

/-! ### Session keys -/

/-- A session key as `bw` prints one. -/
def isSessionToken (value : Text) : Bool :=
  32 ≤ value.length && value.all fun char =>
    isAsciiAlphanumeric char || char ∈ ['+', '/', '=', '_', '-']

/-- The value of `export BW_SESSION="..."`, if the text has one. -/
def exportedSession (text : Text) : Option Text :=
  (afterFirst "BW_SESSION=".toList text).map fun rest =>
    trim ((rest.dropWhile (· = '"')).takeWhile fun char => char ∉ ['"', '\n', '\r'])

/-- The session key in `bw unlock` or `bw login` output: the exported one, else the first
line that is a key. -/
def extractSession (raw : Text) : Option Text :=
  let text := trim raw
  match (exportedSession text).filter isSessionToken with
  | some value => some value
  | none => ((lines text).map trim).find? isSessionToken

/-! ### Items -/

/-- The value at a path of object keys. -/
def getPath : Fields → List String → Option Json
  | _, [] => none
  | fields, [last] => get fields last
  | fields, key :: rest => ((get fields key).bind Json.asObject).bind (getPath · rest)

def textAt (item : Fields) (path : List String) : String :=
  ((getPath item path).bind Json.asStr).getD ""

def present (item : Fields) (path : List String) : Bool :=
  match getPath item path with
  | some (.string text) => text ≠ ""
  | some .null => false
  | none => false
  | some (.array items) => !items.isEmpty
  | some _ => true

/-- The full name the panel's search compares: the parts that are not blank. -/
def fullName (item : Fields) : String :=
  let parts := ["title", "firstName", "middleName", "lastName"].map fun key =>
    String.ofList (trim (textAt item ["identity", key]).toList)
  " ".intercalate (parts.filter (· ≠ ""))

def websites (item : Fields) : List String :=
  match getPath item ["login", "uris"] with
  | some (.array uris) => uris.filterMap fun entry =>
    ((entry.asObject).bind (get · "uri")).bind Json.asStr
  | _ => []

/-- The search text: notes are left out for an item that asks for the master password. -/
def haystack (libraries : Libraries) (item : Fields) : String :=
  let notes := if (get item "reprompt").bind Json.asU64 = some 1 then ""
    else textAt item ["notes"]
  let parts := [textAt item ["name"], textAt item ["login", "username"], notes,
    textAt item ["publicKey"], textAt item ["fingerprint"], textAt item ["card", "brand"],
    textAt item ["card", "cardholderName"], textAt item ["identity", "email"],
    textAt item ["identity", "username"], textAt item ["identity", "company"], fullName item]
  libraries.toLowercase ("\x00".intercalate (parts ++ websites item))

structure Held where
  id : String
  full : String
  haystack : String
  cardDigits : String
  deriving DecidableEq, Repr

/-! ### The store -/

structure Store where
  session : Option String
  secrets : AList fun _ : String => String
  items : List Held
  index : AList fun _ : String => ℕ
  generation : ℕ

namespace Store

def empty : Store := ⟨none, ∅, [], ∅, 0⟩

def setSession (store : Store) (key : String) : Store := { store with session := some key }

def secret (store : Store) (name : String) : Option String := store.secrets.lookup name

def setSecret (store : Store) (name value : String) : Store :=
  { store with secrets := store.secrets.insert name value }

def forgetSecret (store : Store) (name : String) : Store :=
  { store with secrets := store.secrets.erase name }

/-- Everything but the secrets named in `keep`: a lock, a logout or an account switch. -/
def forget (store : Store) (keep : List String) : Store where
  generation := wrappingAdd store.generation 1
  session := none
  secrets := retain (· ∈ keep) store.secrets
  items := []
  index := ∅

def forgetItem (store : Store) (id : String) : Store :=
  match store.index.lookup id with
  | none => store
  | some position =>
    let items := store.items.eraseIdx position
    { store with
      items := items
      index := (items.zipIdx.drop position).foldl
        (fun index entry => index.insert entry.1.id entry.2) (store.index.erase id) }

/-- Copies the session key into a secret; false if there is none. -/
def holdSession (store : Store) (name : String) : Bool × Store :=
  match store.session with
  | none => (false, store)
  | some key => (true, store.setSecret name key)

/-! ### Vault reads -/

variable (libraries : Libraries)

def hold (store : Store) (item : Fields) : Store :=
  match (get item "id").bind Json.asStr with
  | none => store
  | some id =>
    let held : Held := {
      id := id
      full := libraries.toString (.object item)
      haystack := haystack libraries item
      cardDigits := String.ofList ((textAt item ["card", "number"]).toList.filter isAsciiDigit) }
    match store.index.lookup id with
    | some position => { store with items := store.items.set position held }
    | none =>
      { store with
        index := store.index.insert id store.items.length
        items := store.items ++ [held] }

/-- `hold` for what is an object. -/
def holdValue (store : Store) (value : Json) : Store :=
  match value with
  | .object item => store.hold libraries item
  | _ => store

end Store

/-- Removed from every item before the panel sees it. -/
def secretPaths : List (List String) :=
  [["login", "password"], ["login", "totp"], ["login", "fido2Credentials"], ["passwordHistory"],
    ["notes"], ["card", "code"], ["identity", "ssn"], ["identity", "passportNumber"],
    ["identity", "licenseNumber"]]

/-- The flags the panel gets in place of the secrets, and the paths they are about. -/
def heldPaths : List (String × List String) :=
  [("password", ["login", "password"]), ("totp", ["login", "totp"]), ("notes", ["notes"]),
    ("cardCode", ["card", "code"]), ("ssn", ["identity", "ssn"]),
    ("passportNumber", ["identity", "passportNumber"]),
    ("licenseNumber", ["identity", "licenseNumber"])]

def heldFlags (item : Fields) : Fields :=
  heldPaths.foldl (fun held flag => held.insert flag.1 (.bool (present item flag.2))) []

/-- `remove`: nothing happens where a parent is not an object. -/
def removePath : Fields → List String → Fields
  | fields, [] => fields
  | fields, [last] => remove fields last
  | fields, key :: rest => update fields key fun
      | .object inner => .object (removePath inner rest)
      | other => other

/-- A card number keeps only its last four characters. -/
def stripCard : Json → Json
  | .object card => .object (update card "number" fun
      | .string number => .string (String.ofList (lastChars 4 number.toList))
      | other => other)
  | other => other

/-- A hidden custom field loses its value. -/
def stripField : Json → Json
  | .object field =>
    if (get field "type").bind Json.asU64 = some 1 then
      .object (remove field "value")
    else .object field
  | other => other

def stripFields : Json → Json
  | .array fields => .array (fields.map stripField)
  | other => other

/-- Takes the secrets out of an item and records which there were. -/
def stripItem (item : Fields) : Fields :=
  let held := heldFlags item
  let item := secretPaths.foldl removePath item
  let item := update item "card" stripCard
  let item := update item "fields" stripFields
  insert item "qsbwHeld" (.object held)

def stripValue : Json → Json
  | .object item => .object (stripItem item)
  | other => other

def stripItems : Json → Json
  | .array items => .array (items.map stripValue)
  | other => other

/-- The elements under a key, if it has an array. -/
def arrayAt (fields : Fields) (key : String) : List Json :=
  match get fields key with
  | some (.array items) => items
  | _ => []

/-- A vault read: the items are held in full, and the text the panel gets has no secrets.
Nothing for a text that is not a JSON object. -/
def Store.stripVault (libraries : Libraries) (store : Store) (raw : String) (replace : Bool) :
    Option String × Store :=
  match libraries.fromStr raw with
  | some (.object vault) =>
    let store := if replace then { store with items := [], index := ∅ } else store
    let store := (arrayAt vault "items").foldl (Store.holdValue libraries) store
    let store := (arrayAt vault "sshKeys").foldl (Store.holdValue libraries) store
    (some (libraries.toString (.object (update vault "items" stripItems))), store)
  | _ => (none, store)

end QsBitwarden.Vault
