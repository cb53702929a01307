import Mathlib.Data.List.Forall2
import QsBitwarden.Lib.Js

/-! Owns the panel's `jq` filter over the items that `bw` lists (`SANITIZED_ITEMS_FILTER`,
`BitwardenModel.js`): ordinary items whole, SSH keys by their public parts, nothing else. A
filter that fails prints nothing. How `jq` reads a text as a number is a parameter. -/

namespace QsBitwarden.Panel.ItemFilter

open Lib List Json

/-! ### Operators -/

/-- `.key` of an object. -/
def field (item : Fields) (key : String) : Json := (item.get key).getD .null

/-- `.key` of any value; `none` is an error. -/
def index (value : Json) (key : String) : Option Json :=
  match value with
  | .null => some .null
  | .object fields => some (field fields key)
  | _ => none

/-- `first // second`: an error, null and false give way. -/
def alternative (first second : Option Json) : Option Json :=
  match first with
  | none => second
  | some .null => second
  | some (.bool false) => second
  | value => value

def toNumber (parse : String → Option JsonNumber) : Json → Option Json
  | .number value => some (.number value)
  | .string text => (parse text).map .number
  | _ => none

/-- `value == number`. -/
def equals (number : ℕ) : Json → Bool
  | .number value => value.equals number
  | _ => false

def stringOrEmpty : Json → Json
  | .string text => .string text
  | _ => .string ""

def stringOrNull : Json → Json
  | .string text => .string text
  | _ => .null

def boolOrFalse : Json → Json
  | .bool value => .bool value
  | _ => .bool false

def repromptOrZero (value : Json) : Json :=
  if equals 0 value || equals 1 value then value else .number (.natural 0)

def stringsOf : Json → Json
  | .array items => .array (items.filter fun item => item.asStr.isSome)
  | _ => .array []

/-! ### The filter -/

variable (parse : String → Option JsonNumber)

def itemType (item : Fields) : Json := (toNumber parse (field item "type")).getD .null

def ordinaryType (item : Fields) : Bool :=
  let type := itemType parse item
  equals 1 type || equals 2 type || equals 3 type || equals 4 type

def sshType (item : Fields) : Bool := equals 5 (itemType parse item)

/-- `.sshKey.key`. -/
def sshPart (item : Fields) (key : String) : Option Json := index (field item "sshKey") key

/-- What is printed of an SSH key. -/
def publicItem (item : Fields) : Json :=
  .object [
    ("id", stringOrEmpty (field item "id")),
    ("name", stringOrEmpty (field item "name")),
    ("type", .number (.natural 5)),
    ("organizationId", stringOrNull (field item "organizationId")),
    ("collectionIds", stringsOf (field item "collectionIds")),
    ("folderId", stringOrNull (field item "folderId")),
    ("favorite", boolOrFalse (field item "favorite")),
    ("reprompt", repromptOrZero (field item "reprompt")),
    ("publicKey", stringOrEmpty
      ((alternative (sshPart item "publicKey") (field item "publicKey")).getD .null)),
    ("fingerprint", stringOrEmpty
      ((alternative (sshPart item "fingerprint") (alternative (sshPart item "keyFingerprint")
        (alternative (field item "fingerprint") (field item "keyFingerprint")))).getD .null))]

def sanitizedItems : Json → Option Json
  | .array items =>
    let objects := items.filterMap asObject
    let ordinary := objects.filter (ordinaryType parse)
    if ordinary.any fun item => (item.get "sshKey").isSome then none
    else some (.object [
      ("sshCapability", .string
        (if objects.any (sshType parse) then "confirmed" else "unconfirmed")),
      ("items", .array (ordinary.map .object)),
      ("sshKeys", .array ((objects.filter (sshType parse)).map publicItem))])
  | _ => none

/-! ### What is printed -/

def publicKeys : List String :=
  ["type", "id", "name", "organizationId", "collectionIds", "folderId", "favorite", "reprompt",
    "publicKey", "fingerprint", "keyFingerprint"]

def sshPublicKeys : List String := ["publicKey", "fingerprint", "keyFingerprint"]

/-- Items that differ, if at all, in keys of an SSH key outside the public ones. -/
inductive Alike : Json → Json → Prop
  | same (item : Json) : Alike item item
  | ssh {left right : Fields} (type : sshType parse left = true)
      (outer : ∀ key ∈ publicKeys, left.get key = right.get key)
      (inner : ∀ key ∈ sshPublicKeys,
        property (left.get "sshKey") key = property (right.get "sshKey") key) :
      Alike (.object left) (.object right)

variable {parse}

theorem not_ordinaryType {item : Fields} (ssh : sshType parse item = true) :
    ordinaryType parse item = false := by
  unfold sshType at ssh
  unfold ordinaryType
  generalize itemType parse item = type at ssh ⊢
  cases type with
  | number value =>
    cases value with
    | natural value =>
      obtain rfl : value = 5 := of_decide_eq_true ssh
      rfl
    | negative value =>
      obtain rfl : value = 5 := of_decide_eq_true ssh
      rfl
    | float bits =>
      have five : bits.toNat = doubleBits 5 := by simpa [equals, JsonNumber.equals] using ssh
      simp only [equals, JsonNumber.equals, five]
      decide
  | _ => cases ssh

/-- Where the part of `sshKey` cannot be read, it gives way like one that is missing. -/
theorem alternative_sshPart (item : Fields) (key : String) (second : Option Json) :
    alternative (sshPart item key) second =
      alternative ((property (item.get "sshKey") key).getD .null) second := by
  unfold sshPart field
  cases item.get "sshKey" with
  | none => rfl
  | some value => cases value <;> rfl

theorem publicItem_alike {left right : Fields}
    (outer : ∀ key ∈ publicKeys, left.get key = right.get key)
    (inner : ∀ key ∈ sshPublicKeys,
      property (left.get "sshKey") key = property (right.get "sshKey") key) :
    publicItem left = publicItem right := by
  have fields : ∀ key ∈ publicKeys, field left key = field right key := fun key mem => by
    rw [field, outer key mem, field]
  simp only [publicKeys, forall_mem_cons] at fields
  simp only [sshPublicKeys, forall_mem_cons] at inner
  simp only [publicItem, alternative_sshPart, fields, inner]

/-- All that is printed is made of these three. -/
theorem parts_alike {items others : List Json} (alike : Forall₂ (Alike parse) items others) :
    (items.filterMap asObject).filter (ordinaryType parse) =
        (others.filterMap asObject).filter (ordinaryType parse) ∧
      (items.filterMap asObject).any (sshType parse) =
        (others.filterMap asObject).any (sshType parse) ∧
      ((items.filterMap asObject).filter (sshType parse)).map publicItem =
        ((others.filterMap asObject).filter (sshType parse)).map publicItem := by
  induction alike with
  | nil => exact ⟨rfl, rfl, rfl⟩
  | cons first _ ih =>
    cases first with
    | same =>
      simp only [filterMap_cons]
      split
      · exact ih
      · simp only [filter_cons, any_cons, apply_ite (map publicItem), map_cons, ih, and_self]
    | ssh type outer inner =>
      have other := type
      rw [sshType, itemType, field, outer _ mem_cons_self] at other
      have other : sshType parse _ = true := other
      simp only [filterMap_cons, asObject, filter_cons, any_cons, map_cons, type, other,
        not_ordinaryType type, not_ordinaryType other, publicItem_alike outer inner, ih,
        Bool.true_or, if_true, Bool.false_eq_true, if_false, and_self]

/-- The output does not depend on what is private of an SSH key; an SSH key on an ordinary item
stops it; and otherwise it has the ordinary items as they are, and of the others SSH keys only. -/
theorem private_keys_stay {items others : List Json}
    (alike : Forall₂ (Alike parse) items others) :
    sanitizedItems parse (.array items) = sanitizedItems parse (.array others) ∧
      ((∃ item, .object item ∈ items ∧ ordinaryType parse item = true ∧
          (item.get "sshKey").isSome = true) → sanitizedItems parse (.array items) = none) ∧
      ((∀ item, .object item ∈ items → ordinaryType parse item = true →
          item.get "sshKey" = none) →
        ∃ capability, sanitizedItems parse (.array items) = some (.object [
          ("sshCapability", capability),
          ("items", .array (items.filter fun item => item.asObject.any (ordinaryType parse))),
          ("sshKeys", .array (((items.filterMap Json.asObject).filter (sshType parse)).map
            publicItem))])) := by
  have ordinary : ((items.filterMap asObject).filter (ordinaryType parse)).map object =
      items.filter fun item => item.asObject.any (ordinaryType parse) := by
    clear alike
    induction items with
    | nil => rfl
    | cons item rest ih =>
      cases item with
      | object fields =>
        have head : filterMap asObject (.object fields :: rest) = fields :: _ := rfl
        rw [head, filter_cons, filter_cons, apply_ite (map object), map_cons, ih]
        rfl
      | _ => exact ih
  refine ⟨?_, fun ⟨item, mem, type, carries⟩ => ?_, fun free => ?_⟩
  · simp only [sanitizedItems, parts_alike alike]
  · refine if_pos (any_eq_true.mpr ⟨item, mem_filter.mpr ⟨mem_filterMap.mpr ?_, type⟩, carries⟩)
    exact ⟨_, mem, rfl⟩
  · rw [← ordinary]
    refine ⟨_, if_neg (Bool.not_eq_true _ ▸ any_eq_false.mpr fun item mem carries => ?_)⟩
    obtain ⟨kept, type⟩ := mem_filter.mp mem
    obtain ⟨value, mem, is⟩ := mem_filterMap.mp kept
    cases value <;> cases is
    rw [free item mem type] at carries
    cases carries

/-- An SSH key whose type is a text. -/
def sampleKey (privateKey notes : String) : Fields :=
  [("notes", .string notes), ("sshKey", .object [("privateKey", .string privateKey),
    ("publicKey", .string "ssh-ed25519 AAAA")]), ("type", .string "5")]

theorem private_keys_stay_sample :
    sanitizedItems (fun text => if text = "5" then some (.natural 5) else none)
        (.array [.object [("type", .number (.natural 1))], .object (sampleKey "one" "here")]) =
      sanitizedItems (fun text => if text = "5" then some (.natural 5) else none)
        (.array [.object [("type", .number (.natural 1))], .object (sampleKey "two" "there")]) := by
  refine (private_keys_stay (.cons (.same _) (.cons (.ssh ?_ ?_ ?_) .nil))).1
  · rfl
  · simp [publicKeys, sampleKey, Fields.get_cons]
  · simp [sshPublicKeys, sampleKey, Fields.get_cons, property, asObject]

end QsBitwarden.Panel.ItemFilter
