import Mathlib.Data.String.Basic

/-! Owns JSON values whose objects are kept in key order, as a tree map prints them, with
the operations that look a key up, set it, remove it and change its value in place. It
does not own the text form or any particular document. -/

namespace QsBitwarden.Lib

open List

/-- A number as a reader keeps it: a whole one apart from any other. -/
inductive JsonNumber
  | natural (value : ℕ)
  | negative (value : ℤ)
  | float (bits : UInt64)
  deriving DecidableEq, Repr

inductive Json
  | null
  | bool (value : Bool)
  | number (value : JsonNumber)
  | string (text : String)
  | array (items : List Json)
  | object (fields : List (String × Json))

abbrev Fields := List (String × Json)

namespace Json

def asStr : Json → Option String
  | string text => some text
  | _ => none

def asU64 : Json → Option ℕ
  | number (.natural value) => some value
  | _ => none

def asObject : Json → Option Fields
  | object fields => some fields
  | _ => none

def asArray : Json → Option (List Json)
  | array items => some items
  | _ => none

end Json

namespace Fields

variable {fields other : Fields} {key name : String} {value : Json} {change : Json → Json}

/-- The keys ascend, so each occurs once. -/
def Ordered (fields : Fields) : Prop := fields.Pairwise fun left right => left.1 < right.1

def get (fields : Fields) (key : String) : Option Json := List.lookup key fields

def remove (fields : Fields) (key : String) : Fields := fields.filter fun entry => entry.1 ≠ key

/-- Set a key, at its place in the order. -/
def insert (fields : Fields) (key : String) (value : Json) : Fields :=
  match fields with
  | [] => [(key, value)]
  | (name, old) :: rest =>
    if key = name then (key, value) :: rest
    else if key < name then (key, value) :: (name, old) :: rest
    else (name, old) :: insert rest key value

/-- Change the value under a key in place. -/
def update (fields : Fields) (key : String) (change : Json → Json) : Fields :=
  fields.map fun entry => if entry.1 = key then (entry.1, change entry.2) else entry

/-! ### Lookups -/

@[simp] theorem get_nil : get [] key = none := rfl

theorem get_cons (entry : String × Json) (rest : Fields) :
    get (entry :: rest) key = if key = entry.1 then some entry.2 else get rest key := by
  unfold get
  rw [lookup_cons]
  by_cases same : key = entry.1
  · simp [same]
  · simp [same, beq_false_of_ne same]

theorem get_remove :
    (fields.remove key).get name = if name = key then none else fields.get name := by
  induction fields with
  | nil => simp [remove]
  | cons entry rest ih =>
    unfold remove at ih ⊢
    rw [filter_cons, get_cons]
    by_cases dropped : entry.1 = key
    · simp only [dropped, ne_eq, not_true, decide_false, Bool.false_eq_true, if_false]
      rw [ih]
      by_cases named : name = key
      · simp [named]
      · simp [named]
    · simp only [ne_eq, dropped, not_false_eq_true, decide_true, if_true]
      rw [get_cons, ih]
      by_cases here : name = entry.1
      · simp [here, dropped]
      · simp [here]

theorem get_insert :
    (fields.insert key value).get name = if name = key then some value else fields.get name := by
  induction fields with
  | nil => rw [insert, get_cons]
  | cons entry rest ih =>
    unfold insert
    by_cases same : key = entry.1
    · rw [if_pos same, get_cons, get_cons]
      by_cases named : name = key
      · simp [named]
      · simp [named, ← same]
    · rw [if_neg same]
      by_cases before : key < entry.1
      · rw [if_pos before, get_cons]
      · rw [if_neg before, get_cons, get_cons, ih]
        by_cases named : name = key
        · simp [named, same]
        · simp [named]

theorem get_update : (fields.update key change).get name =
    if name = key then (fields.get name).map change else fields.get name := by
  induction fields with
  | nil => simp [update]
  | cons entry rest ih =>
    unfold update at ih ⊢
    rw [map_cons, get_cons, get_cons, ih]
    by_cases named : name = key
    · by_cases here : entry.1 = key
      · simp [named, here]
      · have differs : key ≠ entry.1 := fun eq => here eq.symm
        simp [named, here, differs]
    · by_cases here : entry.1 = key
      · simp [named, here]
      · simp [named, here]

/-! ### Order -/

theorem Ordered.remove (ordered : fields.Ordered) : (fields.remove key).Ordered :=
  List.Pairwise.filter _ ordered

theorem Ordered.update (ordered : fields.Ordered) : (fields.update key change).Ordered := by
  refine List.Pairwise.map _ (fun left right less => ?_) ordered
  have keeps : ∀ entry : String × Json,
      (if entry.1 = key then (entry.1, change entry.2) else entry).1 = entry.1 := by
    intro entry
    split <;> rfl
  rw [keeps left, keeps right]
  exact less

theorem mem_insert {entry : String × Json} (mem : entry ∈ fields.insert key value) :
    entry = (key, value) ∨ entry ∈ fields := by
  induction fields with
  | nil => exact .inl (mem_singleton.mp mem)
  | cons head rest ih =>
    unfold insert at mem
    split_ifs at mem with same before
    · exact (mem_cons.mp mem).imp_right (mem_cons_of_mem _)
    · exact mem_cons.mp mem
    · rcases mem_cons.mp mem with here | later
      · exact .inr (here ▸ mem_cons_self)
      · exact (ih later).imp_right (mem_cons_of_mem _)

theorem Ordered.insert (ordered : fields.Ordered) : (fields.insert key value).Ordered := by
  induction fields with
  | nil => exact pairwise_singleton _ _
  | cons head rest ih =>
    obtain ⟨above, tail⟩ := pairwise_cons.mp ordered
    unfold Fields.insert
    split_ifs with same before
    · refine pairwise_cons.mpr ⟨fun entry mem => ?_, tail⟩
      rw [same]
      exact above entry mem
    · refine pairwise_cons.mpr ⟨fun entry mem => ?_, ordered⟩
      rcases mem_cons.mp mem with rfl | later
      · exact before
      · exact before.trans (above entry later)
    · refine pairwise_cons.mpr ⟨fun entry mem => ?_, ih tail⟩
      rcases mem_insert mem with rfl | later
      · exact lt_of_le_of_ne (not_lt.mp before) (Ne.symm same)
      · exact above entry later

/-- A key below all others is not there. -/
theorem get_eq_none_of_below (below : ∀ entry ∈ fields, key < entry.1) : fields.get key = none :=
  lookup_eq_none_iff.mpr fun entry mem => bne_iff_ne.mpr (below entry mem).ne

theorem get_eq_none_of_lt {entry : String × Json} {rest : Fields}
    (ordered : Ordered (entry :: rest)) (before : key < entry.1) :
    get (entry :: rest) key = none := by
  obtain ⟨above, -⟩ := pairwise_cons.mp ordered
  refine get_eq_none_of_below fun other mem => ?_
  rcases mem_cons.mp mem with rfl | later
  · exact before
  · exact before.trans (above other later)

/-- Ordered objects with the same value under every key are the same. -/
theorem Ordered.ext (ordered : fields.Ordered) (otherOrdered : other.Ordered)
    (agree : ∀ key, fields.get key = other.get key) : fields = other := by
  induction fields generalizing other with
  | nil =>
    cases other with
    | nil => rfl
    | cons entry rest =>
      have found := agree entry.1
      rw [get_cons, if_pos rfl] at found
      cases found
  | cons entry rest ih =>
    cases other with
    | nil =>
      have found := agree entry.1
      rw [get_cons, if_pos rfl] at found
      cases found
    | cons entry' rest' =>
      -- the least keys agree, or one side would miss its own
      have keys : entry.1 = entry'.1 := by
        rcases lt_trichotomy entry.1 entry'.1 with less | same | greater
        · have found := agree entry.1
          rw [get_cons, if_pos rfl, get_eq_none_of_lt otherOrdered less] at found
          cases found
        · exact same
        · have found := agree entry'.1
          rw [get_eq_none_of_lt ordered greater, get_cons, if_pos rfl] at found
          cases found
      have heads : entry = entry' := by
        have found := agree entry.1
        rw [get_cons, if_pos rfl, get_cons, if_pos keys] at found
        exact Prod.ext keys (Option.some.inj found)
      subst heads
      obtain ⟨above, tail⟩ := pairwise_cons.mp ordered
      obtain ⟨above', tail'⟩ := pairwise_cons.mp otherOrdered
      have tails : rest = rest' := by
        refine ih tail tail' fun key => ?_
        by_cases here : key = entry.1
        · rw [here, get_eq_none_of_below above, get_eq_none_of_below above']
        · have found := agree key
          rwa [get_cons, get_cons, if_neg here, if_neg here] at found
      rw [tails]

theorem get_removeAll (keys : List String) :
    (keys.foldl remove fields).get name = if name ∈ keys then none else fields.get name := by
  induction keys generalizing fields with
  | nil => simp
  | cons key rest ih =>
    rw [foldl_cons, ih, get_remove]
    by_cases here : name = key
    · simp [here]
    · simp [here]

theorem Ordered.removeAll (ordered : fields.Ordered) (keys : List String) :
    (keys.foldl Fields.remove fields).Ordered := by
  induction keys generalizing fields with
  | nil => exact ordered
  | cons key rest ih => exact ih ordered.remove

theorem mem_of_get (found : fields.get key = some value) : (key, value) ∈ fields := by
  induction fields with
  | nil => cases found
  | cons entry rest ih =>
    rw [get_cons] at found
    by_cases here : key = entry.1
    · rw [if_pos here] at found
      rw [here, ← Option.some.inj found]
      exact mem_cons_self
    · rw [if_neg here] at found
      exact mem_cons_of_mem _ (ih found)

end Fields

/-! ### Whole values -/

namespace Json

/-- Every object in the value has its keys in order. -/
inductive Sorted : Json → Prop
  | null : Sorted .null
  | bool (value : Bool) : Sorted (.bool value)
  | number (value : JsonNumber) : Sorted (.number value)
  | string (text : String) : Sorted (.string text)
  | array {items : List Json} (each : ∀ item ∈ items, Sorted item) : Sorted (.array items)
  | object {fields : Fields} (ordered : fields.Ordered)
      (each : ∀ entry ∈ fields, Sorted entry.2) : Sorted (.object fields)

namespace Sorted

variable {fields : Fields} {items : List Json} {key : String} {value : Json}

theorem ordered (sorted : Sorted (.object fields)) : fields.Ordered := by
  cases sorted with
  | object ordered each => exact ordered

theorem of_mem (sorted : Sorted (.object fields)) {entry : String × Json}
    (mem : entry ∈ fields) : Sorted entry.2 := by
  cases sorted with
  | object ordered each => exact each entry mem

theorem item (sorted : Sorted (.array items)) (mem : value ∈ items) : Sorted value := by
  cases sorted with
  | array each => exact each value mem

theorem get (sorted : Sorted (.object fields)) (found : fields.get key = some value) :
    Sorted value :=
  sorted.of_mem (Fields.mem_of_get found)

theorem insert (sorted : Sorted (.object fields)) (also : Sorted value) :
    Sorted (.object (fields.insert key value)) := by
  refine .object sorted.ordered.insert fun entry mem => ?_
  rcases Fields.mem_insert mem with rfl | old
  · exact also
  · exact sorted.of_mem old

end Sorted

end Json

end QsBitwarden.Lib
