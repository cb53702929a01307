import Mathlib.Data.List.Nodup
import Mathlib.Data.List.Perm.Basic
import QsBitwarden.Lib.Json

/-! Owns the rows of the panel's item list while an item is saved: the row shown at once, the
saved item the vault's answer puts in its place, and the row restored when the save is
refused. The reader of the answer, the reader of the form's payload and the order of names
are parameters; the rest of a row is carried along as it is. -/

namespace QsBitwarden.Panel

open Lib List Option

/-! ### Rows -/

structure Row where
  id : String
  name : String
  favorite : Bool
  pending : Bool
  details : Json

/-- The rows of an answer. Its `items` hold the keys as well. -/
structure SanitizedEnvelope where
  items : List Row
  sshKeys : List Row

structure ListLibraries where
  parseSanitizedEnvelope : String → Option SanitizedEnvelope
  localeCompare : String → String → ℤ

def maxListEntries : ℕ := 4096

/-- Lists are read up to their first 4096 entries. -/
def toList (items : List Row) : List Row := items.take maxListEntries

def compareItems (libraries : ListLibraries) (a b : Row) : ℤ :=
  if a.favorite ≠ b.favorite then if a.favorite then -1 else 1
  else libraries.localeCompare a.name b.name

def sortItems (libraries : ListLibraries) (rows : List Row) : List Row :=
  rows.mergeSort fun a b => compareItems libraries a b ≤ 0

def findItemById (items : List Row) (id : String) : Option Row := (toList items).find? (·.id = id)

/-- One turn of the loop: the rows put out so far, and whether the row was met. -/
def replaceRow (id : String) (replacement : Option Row) (state : List Row × Bool) (row : Row) :
    List Row × Bool :=
  if row.id = id then (state.1 ++ replacement.toList, true) else (state.1 ++ [row], state.2)

/-- Replace or insert by id, or remove with no replacement, then sort. -/
def replaceItemById (libraries : ListLibraries) (items : List Row) (id : String)
    (replacement : Option Row) : List Row :=
  let (out, replaced) := (toList items).foldl (replaceRow id replacement) ([], false)
  sortItems libraries (if replaced then out else out ++ replacement.toList)

/-- The one item of an answer. -/
def savedItem (libraries : ListLibraries) (raw : String) : Option Row := do
  let envelope ← libraries.parseSanitizedEnvelope raw
  match envelope.items ++ envelope.sshKeys with
  | [one] => if one.id = "" then none else some one
  | _ => none

/-- The row an answer replaces: the provisional one of a create, else the item's own. -/
def replacedId (replacingId : String) (saved : Row) : String :=
  if replacingId = "" then saved.id else replacingId

def spliceSavedItem (libraries : ListLibraries) (items : List Row) (raw replacingId : String) :
    Option (List Row) :=
  (savedItem libraries raw).map fun one =>
    replaceItemById libraries items (replacedId replacingId one) (some one)

/-! ### A save -/

structure Save where
  id : String
  isCreate : Bool
  previous : Option Row

structure ItemList where
  items : List Row
  pendingSave : Option Save
  /-- How often the whole list was asked for again. -/
  reloads : ℕ

def pendingItemId (seed : ℕ) : String := "qsbw-pending:" ++ toString seed

/-- A form that passed its checks: the id of the item edited, and the row its payload reads
as. -/
structure ItemForm where
  editing : Option String
  payloadRow : Option Row

def ItemForm.rowId (form : ItemForm) (now : ℕ) : String := form.editing.getD (pendingItemId now)

def ItemForm.optimisticItem (form : ItemForm) (now : ℕ) : Option Row :=
  form.payloadRow.map fun row => { row with id := form.rowId now, pending := true }

/-- One save at a time. -/
def saveItemForm (libraries : ListLibraries) (now : ℕ) (form : ItemForm) (list : ItemList) :
    ItemList :=
  if list.pendingSave.isSome then list
  else
    let rowId := form.rowId now
    let save : Save :=
      { id := rowId, isCreate := form.editing.isNone
        previous := if form.editing.isSome then findItemById list.items rowId else none }
    { list with
      pendingSave := some save
      items := match form.optimisticItem now with
        | some row => replaceItemById libraries list.items rowId (some row)
        | none => list.items }

def savedUnsanitizedMarker : String := "__QSBW_SAVED_UNSANITIZED__"

def isUnsanitized (stdout : String) : Bool := savedUnsanitizedMarker.toList.isPrefixOf stdout.toList

def onSaveItemFinished (libraries : ListLibraries) (stale : Bool) (exitCode : ℤ) (stdout : String)
    (list : ItemList) : ItemList :=
  let save := list.pendingSave
  let list := { list with pendingSave := none }
  if stale then list
  else if exitCode ≠ 0 then
    match save with
    | some save => { list with items := replaceItemById libraries list.items save.id save.previous }
    | none => list
  else
    let spliced :=
      if isUnsanitized stdout then none
      else spliceSavedItem libraries list.items stdout ((save.map (·.id)).getD "")
    match spliced with
    | some items => { list with items := items }
    | none =>
      -- a provisional row must not survive a reload it is not part of
      let items := match save with
        | some save =>
          if save.isCreate then replaceItemById libraries list.items save.id none else list.items
        | none => list.items
      { list with items := items, reloads := list.reloads + 1 }

/-! ### Replacing a row -/

section Replacing

variable {libraries : ListLibraries} {items : List Row}

/-- What the loop puts out, one row at a time. -/
theorem foldl_replaceRow (id : String) (replacement : Option Row) (rows out : List Row)
    (met : Bool) :
    rows.foldl (replaceRow id replacement) (out, met) =
      (out ++ rows.flatMap fun row => if row.id = id then replacement.toList else [row],
        met || rows.any (·.id = id)) := by
  induction rows generalizing out met with
  | nil => simp
  | cons row rest ih =>
    rw [foldl_cons, replaceRow]
    by_cases same : row.id = id
    · rw [if_pos same, ih]
      simp [same]
    · rw [if_neg same, ih]
      simp [same]

theorem flatMap_replace_of_missing {id : String} {rows : List Row}
    (missing : ∀ row ∈ rows, row.id ≠ id) (replacement : Option Row) :
    (rows.flatMap fun row => if row.id = id then replacement.toList else [row]) =
      rows.filter (·.id ≠ id) := by
  induction rows with
  | nil => rfl
  | cons row rest ih =>
    have other := missing row (by simp)
    have rest := ih fun row mem => missing row (by simp [mem])
    rw [flatMap_cons, if_neg other, rest, filter_cons]
    simp [other]

/-- With distinct ids the row is met once at most. -/
theorem flatMap_replace_perm {id : String} {rows : List Row} (distinct : (rows.map Row.id).Nodup)
    (met : rows.any (·.id = id)) (replacement : Option Row) :
    (rows.flatMap fun row => if row.id = id then replacement.toList else [row]).Perm
      (rows.filter (·.id ≠ id) ++ replacement.toList) := by
  induction rows with
  | nil => simp at met
  | cons row rest ih =>
    rw [map_cons, nodup_cons] at distinct
    by_cases same : row.id = id
    · have missing : ∀ other ∈ rest, other.id ≠ id := by
        intro other mem again
        exact distinct.1 (mem_map.mpr ⟨other, mem, again.trans same.symm⟩)
      rw [flatMap_cons, if_pos same, flatMap_replace_of_missing missing, filter_cons]
      simp only [same, ne_eq, not_true_eq_false, decide_false, Bool.false_eq_true, if_false]
      exact perm_append_comm
    · have later : rest.any (·.id = id) := by simpa [same] using met
      rw [flatMap_cons, if_neg same, filter_cons]
      simp only [same, ne_eq, not_false_eq_true, decide_true, if_true, cons_append,
        nil_append]
      exact (ih distinct.2 later).cons row

theorem replaceItemById_perm (distinct : (items.map Row.id).Nodup) (id : String)
    (replacement : Option Row) :
    (replaceItemById libraries items id replacement).Perm
      ((toList items).filter (·.id ≠ id) ++ replacement.toList) := by
  have taken : ((toList items).map Row.id).Nodup := distinct.sublist ((take_sublist _ _).map Row.id)
  unfold replaceItemById sortItems
  rw [foldl_replaceRow]
  refine (mergeSort_perm _ _).trans ?_
  simp only [nil_append, Bool.false_or]
  by_cases met : (toList items).any (·.id = id)
  · rw [if_pos met]
    exact flatMap_replace_perm taken met replacement
  · have missing : ∀ row ∈ toList items, row.id ≠ id := by simpa using met
    rw [if_neg met, flatMap_replace_of_missing missing]

end Replacing

/-! ### The saved item among the others -/

/-- The saved item is in the list once, every other row is as it was, and no two rows have
one id. -/
structure Spliced (items : List Row) (replaced : String) (saved : Row) (result : List Row) :
    Prop where
  others : ∀ row : Row, row.id ≠ replaced → row.id ≠ saved.id → (row ∈ result ↔ row ∈ items)
  once : result.filter (·.id = saved.id) = [saved]
  distinct : (result.map Row.id).Nodup

/-- No row is cut off but the replaced one or the item's own, and the item's own row is the one
replaced, if the list has one. -/
def Fits (items : List Row) (replaced : String) (saved : Row) : Prop :=
  (∀ row ∈ items.drop maxListEntries, row.id = replaced ∨ row.id = saved.id) ∧
    ∀ row ∈ toList items, row.id = saved.id → replaced = saved.id

section Splicing

variable {items result : List Row} {replaced : String} {saved : Row}

section

variable (distinct : (items.map Row.id).Nodup)

include distinct

theorem not_mem_drop_of_mem_take {row other : Row}
    (first : row ∈ toList items) (last : other ∈ items.drop maxListEntries) :
    row.id ≠ other.id := by
  have whole := take_append_drop maxListEntries items
  rw [← whole, map_append, nodup_append] at distinct
  exact distinct.2.2 _ (mem_map_of_mem first) _ (mem_map_of_mem last)

theorem Spliced.fits (shape : result.Perm ((toList items).filter (·.id ≠ replaced) ++ [saved]))
    (spliced : Spliced items replaced saved result) : Fits items replaced saved := by
  constructor
  · intro row last
    by_contra neither
    rw [not_or] at neither
    have kept := (spliced.others row neither.1 neither.2).mpr (mem_of_mem_drop last)
    rw [shape.mem_iff, mem_append, mem_filter, mem_singleton] at kept
    rcases kept with ⟨first, -⟩ | same
    · exact not_mem_drop_of_mem_take distinct first last rfl
    · exact neither.2 (congrArg Row.id same)
  · intro row first own
    by_contra other
    -- the item's own row stays beside the saved item
    have self : [saved].filter (·.id = saved.id) = [saved] := by simp
    have twice := (shape.filter (·.id = saved.id)).length_eq
    rw [spliced.once, filter_append, length_append, self, length_singleton] at twice
    have there : row ∈ ((toList items).filter (·.id ≠ replaced)).filter (·.id = saved.id) := by
      rw [mem_filter, mem_filter]
      refine ⟨⟨first, ?_⟩, ?_⟩
      · simpa [own] using Ne.symm other
      · simpa using own
    have positive := length_pos_of_mem there
    omega

theorem Fits.spliced (shape : result.Perm ((toList items).filter (·.id ≠ replaced) ++ [saved]))
    (fits : Fits items replaced saved) : Spliced items replaced saved result := by
  obtain ⟨cut, own⟩ := fits
  -- no kept row has the saved item's id
  have apart : ∀ row ∈ (toList items).filter (·.id ≠ replaced), row.id ≠ saved.id := by
    intro row mem same
    rw [mem_filter, decide_eq_true_eq] at mem
    exact mem.2 (same.trans (own row mem.1 same).symm)
  constructor
  · intro row other foreign
    rw [shape.mem_iff, mem_append, mem_filter, mem_singleton, decide_eq_true_eq]
    constructor
    · rintro (⟨first, -⟩ | same)
      · exact mem_of_mem_take first
      · exact absurd (congrArg Row.id same) foreign
    · intro mem
      rw [← take_append_drop maxListEntries items, mem_append] at mem
      rcases mem with first | last
      · exact .inl ⟨first, other⟩
      · exact ((cut row last).elim other foreign).elim
  · have found := shape.filter (·.id = saved.id)
    have none : ((toList items).filter (·.id ≠ replaced)).filter (·.id = saved.id) = [] := by
      rw [filter_eq_nil_iff]
      intro row mem
      simpa using apart row mem
    have self : [saved].filter (·.id = saved.id) = [saved] := by simp
    rw [filter_append, none, self, nil_append] at found
    exact perm_singleton.mp found
  · have ids := shape.map Row.id
    rw [ids.nodup_iff, map_append, nodup_append]
    refine ⟨?_, by simp, ?_⟩
    · have taken : ((toList items).map Row.id).Nodup :=
        distinct.sublist ((take_sublist _ _).map Row.id)
      exact taken.sublist (filter_sublist.map Row.id)
    · intro id kept other single same
      obtain ⟨row, mem, rfl⟩ := mem_map.mp kept
      rw [map_singleton, mem_singleton] at single
      exact apart row mem (same.trans single)

end

/-- Exactly when it fits. -/
theorem spliced_iff (libraries : ListLibraries) (distinct : (items.map Row.id).Nodup)
    (replaced : String) (saved : Row) :
    Spliced items replaced saved (replaceItemById libraries items replaced (some saved)) ↔
      Fits items replaced saved :=
  have shape := replaceItemById_perm distinct replaced (some saved)
  ⟨Spliced.fits distinct shape, Fits.spliced distinct shape⟩

end Splicing

/-! ### Finished saves -/

theorem saveItemForm_items (libraries : ListLibraries) (now : ℕ) (form : ItemForm)
    {list : ItemList} {row : Row} (free : list.pendingSave = none)
    (reads : form.optimisticItem now = some row) :
    (saveItemForm libraries now form list).items =
      replaceItemById libraries list.items row.id (some row) := by
  have own : row.id = form.rowId now := by
    unfold ItemForm.optimisticItem at reads
    obtain ⟨payload, -, rfl⟩ := map_eq_some_iff.mp reads
    rfl
  unfold saveItemForm
  rw [free, own]
  simp only [isSome_none, Bool.false_eq_true, if_false, reads]

theorem onSaveItemFinished_items (libraries : ListLibraries) {stdout : String} {saved : Row}
    (answered : savedItem libraries stdout = some saved) (whole : isUnsanitized stdout = false)
    (list : ItemList) :
    (onSaveItemFinished libraries false 0 stdout list).items =
      replaceItemById libraries list.items
        (replacedId ((list.pendingSave.map (·.id)).getD "") saved) (some saved) := by
  unfold onSaveItemFinished spliceSavedItem
  simp only [Bool.false_eq_true, if_false, ne_eq, not_true_eq_false, whole, answered,
    map_some]

/-- For a list with distinct ids: the row shown at once, and the saved item of the answer,
stand among the others as they should exactly when nothing else is cut off and the item's own
row, if there is one, is the row replaced. -/
theorem saved_item_keeps_list (libraries : ListLibraries) (list : ItemList)
    (distinct : (list.items.map Row.id).Nodup) :
    (∀ (now : ℕ) (form : ItemForm) (row : Row), list.pendingSave = none →
      form.optimisticItem now = some row →
      (Spliced list.items row.id row (saveItemForm libraries now form list).items ↔
        Fits list.items row.id row)) ∧
    (∀ (stdout : String) (saved : Row), savedItem libraries stdout = some saved →
      isUnsanitized stdout = false →
      (Spliced list.items (replacedId ((list.pendingSave.map (·.id)).getD "") saved) saved
          (onSaveItemFinished libraries false 0 stdout list).items ↔
        Fits list.items (replacedId ((list.pendingSave.map (·.id)).getD "") saved) saved)) := by
  constructor
  · intro now form row free reads
    rw [saveItemForm_items libraries now form free reads]
    exact spliced_iff libraries distinct row.id row
  · intro stdout saved answered whole
    rw [onSaveItemFinished_items libraries answered whole]
    exact spliced_iff libraries distinct _ saved

/-! ### Samples -/

def plainRow (id : String) : Row := ⟨id, id, false, false, .null⟩

/-- Libraries that read every answer as one item. -/
def answering (row : Row) : ListLibraries := ⟨fun _ => some ⟨[row], []⟩, fun _ _ => 0⟩

/-- A create whose provisional row is still in the list. -/
def creating : ItemList :=
  { items := [plainRow "a", plainRow "qsbw-pending:7"]
    pendingSave := some ⟨"qsbw-pending:7", true, none⟩, reloads := 0 }

theorem saved_item_keeps_list_created :
    (creating.items.map Row.id).Nodup ∧
      Spliced creating.items "qsbw-pending:7" (plainRow "b")
        (onSaveItemFinished (answering (plainRow "b")) false 0 "b" creating).items := by
  have distinct : (creating.items.map Row.id).Nodup := by decide
  have fits : Fits creating.items "qsbw-pending:7" (plainRow "b") := by
    constructor
    · simp [creating, maxListEntries]
    · simp [creating, toList, maxListEntries, plainRow]
  refine ⟨distinct, ?_⟩
  exact ((saved_item_keeps_list (answering (plainRow "b")) creating distinct).2 "b" (plainRow "b")
    rfl (by decide)).mpr fits

/-- The same create after a refresh: the list has the new item, and no provisional row. -/
def refreshed : ItemList := { creating with items := [plainRow "a", plainRow "b"] }

def numberedRow (number : ℕ) : Row := plainRow (String.ofList (List.replicate (number + 1) 'n'))

theorem numberedRow_id_inj {first second : ℕ}
    (same : (numberedRow first).id = (numberedRow second).id) : first = second := by
  have lengths := congrArg String.length same
  simpa [numberedRow, plainRow] using lengths

/-- One row more than is read. -/
def longList : ItemList :=
  { items := (List.range (maxListEntries + 1)).map numberedRow, pendingSave := none, reloads := 0 }

/-- After the refresh the created item is in the list twice, and a list of 4097 items loses one
that was not saved. -/
theorem saved_item_twice_or_lost :
    ((refreshed.items.map Row.id).Nodup ∧
      ¬ Spliced refreshed.items "qsbw-pending:7" (plainRow "b")
        (onSaveItemFinished (answering (plainRow "b")) false 0 "b" refreshed).items) ∧
    ((longList.items.map Row.id).Nodup ∧
      ¬ Spliced longList.items (numberedRow 0).id (numberedRow 0)
        (onSaveItemFinished (answering (numberedRow 0)) false 0 "n" longList).items) := by
  have short : (refreshed.items.map Row.id).Nodup := by decide
  have long : (longList.items.map Row.id).Nodup := by
    unfold longList
    rw [List.map_map]
    exact List.Nodup.map (fun first second same => numberedRow_id_inj same) nodup_range
  constructor
  · refine ⟨short, ?_⟩
    rw [onSaveItemFinished_items (answering (plainRow "b")) rfl (by decide),
      show replacedId _ (plainRow "b") = "qsbw-pending:7" from rfl, spliced_iff _ short]
    intro fits
    have there : plainRow "b" ∈ toList refreshed.items := by
      simp [refreshed, toList, maxListEntries]
    exact absurd (fits.2 _ there rfl) (by decide)
  · refine ⟨long, ?_⟩
    rw [onSaveItemFinished_items (answering (numberedRow 0)) rfl (by decide),
      show replacedId _ (numberedRow 0) = (numberedRow 0).id from rfl, spliced_iff _ long]
    intro fits
    have there : numberedRow maxListEntries ∈ longList.items.drop maxListEntries := by
      unfold longList
      rw [← map_drop, List.mem_map]
      refine ⟨maxListEntries, ?_, rfl⟩
      rw [range_succ, drop_append_of_le_length (by simp)]
      simp
    rcases fits.1 _ there with same | same
    · exact absurd (numberedRow_id_inj same) (by decide)
    · exact absurd (numberedRow_id_inj same) (by decide)

end QsBitwarden.Panel
