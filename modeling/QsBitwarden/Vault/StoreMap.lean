import QsBitwarden.Vault.Answers

/-! Owns the store as a map from ids to items: after any calls its index is exact, an id has the
item that was last read under it, and dropping an item drops that one. It does not own what the
panel gets of a vault read. -/

namespace QsBitwarden.Vault

open Lib List Option Indexes

/-! ### Calls -/

/-- A call that changes the store. -/
inductive StoreCall
  | setSession (key : String)
  | setSecret (name value : String)
  | forgetSecret (name : String)
  | forget (keep : List String)
  | forgetItem (id : String)
  | holdSession (name : String)
  | stripVault (raw : String) (replace : Bool)
  deriving DecidableEq, Repr

variable (libraries : Libraries)

def Store.call (store : Store) : StoreCall → Store
  | .setSession key => store.setSession key
  | .setSecret name value => store.setSecret name value
  | .forgetSecret name => store.forgetSecret name
  | .forget keep => store.forget keep
  | .forgetItem id => store.forgetItem id
  | .holdSession name => (store.holdSession name).2
  | .stripVault raw replace => (store.stripVault libraries raw replace).2

/-- The store after some calls, the last one first. -/
def storeAfter (calls : List StoreCall) : Store :=
  calls.foldr (fun call store => store.call libraries call) .empty

/-! ### The map the store is meant to be -/

/-- What is held of one element of a vault read: its id and the item as printed. -/
def readItem (value : Json) : Option (String × String) := do
  let item ← value.asObject
  let id ← (← item.get "id").asStr
  return (id, libraries.toString (.object item))

/-- What a vault read holds, in order; nothing for a text that is not one. -/
def readItems (raw : String) : Option (List (String × String)) := do
  let vault ← (← libraries.fromStr raw).asObject
  return (arrayAt vault "items" ++ arrayAt vault "sshKeys").filterMap (readItem libraries)

/-- The item as last read under an id since it was last dropped. -/
def lastRead (id : String) : List StoreCall → Option String
  | [] => none
  | .forget _ :: _ => none
  | .forgetItem gone :: earlier => if id = gone then none else lastRead id earlier
  | .stripVault raw replace :: earlier =>
    match readItems libraries raw with
    | none => lastRead id earlier
    | some read => (read.reverse.lookup id).or (if replace then none else lastRead id earlier)
  | .setSession _ :: earlier => lastRead id earlier
  | .setSecret _ _ :: earlier => lastRead id earlier
  | .forgetSecret _ :: earlier => lastRead id earlier
  | .holdSession _ :: earlier => lastRead id earlier

/-! ### Reads -/

namespace Store

/-- The index has every held id at its position, and no other. -/
def Exact (store : Store) : Prop := Indexes Held.id store.index store.items

variable {libraries} {store : Store}

theorem exact_empty : Exact empty := indexes_empty

theorem holdValue_of_unread {value : Json} (unread : readItem libraries value = none) :
    store.holdValue libraries value = store := by
  cases value with
  | object item =>
    cases named : (Fields.get item "id").bind Json.asStr with
    | none => simp [holdValue, hold, named]
    | some id =>
      obtain ⟨json, found, text⟩ := bind_eq_some_iff.mp named
      simp [readItem, Json.asObject, found, text] at unread
  | null => rfl
  | bool _ => rfl
  | number _ => rfl
  | string _ => rfl
  | array _ => rfl

/-- An element that is held takes the place of what its id had, and every other id keeps what
it has. -/
theorem holdValue_of_read {value : Json} {id full : String} (exact : store.Exact)
    (read : readItem libraries value = some (id, full)) :
    (store.holdValue libraries value).Exact ∧ ∀ name,
      (store.holdValue libraries value).item name =
        if name = id then some full else store.item name := by
  obtain ⟨item, object, rest⟩ := bind_eq_some_iff.mp read
  obtain ⟨json, found, rest⟩ := bind_eq_some_iff.mp rest
  obtain ⟨name, text, rest⟩ := bind_eq_some_iff.mp rest
  cases rest
  cases value with
  | object fields =>
    cases object
    have named : (item.get "id").bind Json.asStr = some id := by rw [found]; exact text
    unfold holdValue hold
    simp only [named]
    generalize held : (Held.mk id _ _ _) = new
    have newId : new.id = id := by rw [← held]
    have newFull : new.full = libraries.toString (.object item) := by rw [← held]
    cases place : store.index.lookup id with
    | none =>
      rw [← newId] at place ⊢
      refine ⟨push exact place, fun name => ?_⟩
      unfold Store.item Store.held
      dsimp only
      rw [fetch_push exact]
      split_ifs
      · rw [map_some, newFull]
      · rfl
    | some position =>
      rw [← newId] at place ⊢
      refine ⟨set exact place, fun name => ?_⟩
      unfold Store.item Store.held
      dsimp only
      rw [fetch_set exact place]
      split_ifs
      · rw [map_some, newFull]
      · rfl
  | null => cases object
  | bool _ => cases object
  | number _ => cases object
  | string _ => cases object
  | array _ => cases object

/-- A list of elements: an id has the last of them under it, else what it had. -/
theorem foldl_holdValue (exact : store.Exact) (values : List Json) :
    (values.foldl (holdValue libraries) store).Exact ∧ ∀ id,
      (values.foldl (holdValue libraries) store).item id =
        (((values.filterMap (readItem libraries)).reverse.lookup id).or (store.item id)) := by
  induction values generalizing store with
  | nil => exact ⟨exact, fun id => rfl⟩
  | cons value rest ih =>
    rw [foldl_cons]
    cases read : readItem libraries value with
    | none =>
      rw [holdValue_of_unread read, filterMap_cons_none read]
      exact ih exact
    | some entry =>
      have held := holdValue_of_read exact read
      refine ⟨(ih held.1).1, fun id => ?_⟩
      rw [(ih held.1).2 id, held.2 id, filterMap_cons_some read,
        reverse_cons, lookup_append, Option.or_assoc]
      congr 1
      rw [lookup_cons]
      by_cases same : id = entry.1
      · simp [same]
      · rw [beq_eq_false_iff_ne.mpr same, if_neg same]
        rfl

theorem stripVault_of_unread {raw : String} (unread : readItems libraries raw = none)
    (replace : Bool) : (store.stripVault libraries raw replace).2 = store := by
  unfold stripVault
  split
  · next vault read => simp [readItems, read, Json.asObject] at unread
  · rfl

section

variable (exact : store.Exact)

include exact

theorem stripVault_of_read {raw : String} {read : List (String × String)}
    (items : readItems libraries raw = some read) (replace : Bool) :
    (store.stripVault libraries raw replace).2.Exact ∧ ∀ id,
      (store.stripVault libraries raw replace).2.item id =
        (read.reverse.lookup id).or (if replace then none else store.item id) := by
  obtain ⟨value, parsed, rest⟩ := bind_eq_some_iff.mp items
  obtain ⟨vault, object, rest⟩ := bind_eq_some_iff.mp rest
  cases rest
  cases value with
  | object fields =>
    cases object
    unfold stripVault
    simp only [parsed]
    rw [← foldl_append]
    cases replace with
    | false => exact foldl_holdValue exact _
    | true =>
      have cleared : Exact { store with items := [], index := ∅ } := indexes_empty
      exact foldl_holdValue cleared _
  | null => cases object
  | bool _ => cases object
  | number _ => cases object
  | string _ => cases object
  | array _ => cases object

/-! ### Dropping an item -/

theorem items_forgetItem (gone : String) :
    (store.forgetItem gone).items = store.items.filter fun held => held.id ≠ gone := by
  unfold forgetItem
  cases place : store.index.lookup gone with
  | none =>
    refine (filter_eq_self.mpr fun held mem => ?_).symm
    simpa using ne_of_absent exact place mem
  | some position => exact eraseIdx exact place

theorem exact_forgetItem (gone : String) : (store.forgetItem gone).Exact := by
  unfold forgetItem
  cases place : store.index.lookup gone with
  | none => exact exact
  | some position => exact erase exact place

theorem item_forgetItem (gone id : String) :
    (store.forgetItem gone).item id = if id = gone then none else store.item id := by
  unfold Store.item Store.held forgetItem
  cases place : store.index.lookup gone with
  | none =>
    dsimp only
    split_ifs with same
    · rw [fetch, same, place]
      rfl
    · rfl
  | some position =>
    have dropped := fetch_erase exact place id
    unfold reindex at dropped
    dsimp only
    rw [dropped]
    split_ifs <;> rfl

theorem search_forgetItem (gone query : String) : (store.forgetItem gone).search libraries query =
      (store.search libraries query).filter (· ≠ gone) := by
  unfold search
  rw [items_forgetItem exact gone]
  dsimp only
  split_ifs
  · rw [List.filter_map]
    rfl
  · rw [List.filter_map, filter_comm]
    rfl

end

theorem itemSecret_of_item {other : Store} {id : String} (same : store.item id = other.item id)
    (field : SecretField) :
    store.itemSecret libraries id field = other.itemSecret libraries id field := by
  unfold itemSecret valueAt
  rw [same]

/-- One id is gone, and nothing else the store answers has changed. -/
structure DropsOnly (libraries : Libraries) (gone : String) (before after : Store) : Prop where
  item : ∀ id, after.item id = if id = gone then none else before.item id
  search : ∀ query, after.search libraries query = (before.search libraries query).filter (· ≠ gone)
  itemSecret : ∀ id ≠ gone, ∀ field,
    after.itemSecret libraries id field = before.itemSecret libraries id field
  session : after.session = before.session
  secret : ∀ name, after.secret name = before.secret name
  generation : after.generation = before.generation

theorem forgetItem_dropsOnly (exact : store.Exact) (gone : String) :
    DropsOnly libraries gone store (store.forgetItem gone) where
  item := item_forgetItem exact gone
  search := search_forgetItem exact gone
  itemSecret id other field :=
    itemSecret_of_item (by rw [item_forgetItem exact, if_neg other]) field
  session := by
    unfold forgetItem
    split <;> rfl
  secret name := by
    unfold forgetItem
    split <;> rfl
  generation := by
    unfold forgetItem
    split <;> rfl

/-! ### Whole histories -/

theorem holdSession_exact (exact : store.Exact) (name : String) :
    (store.holdSession name).2.Exact ∧
    ∀ id, (store.holdSession name).2.item id = store.item id := by
  unfold holdSession
  split
  · exact ⟨exact, fun _ => rfl⟩
  · exact ⟨exact, fun _ => rfl⟩

/-- One call keeps the index exact and gives each id what the call makes of it. -/
theorem call_exact (call : StoreCall) (earlier : List StoreCall) (exact : store.Exact)
    (items : ∀ id, store.item id = lastRead libraries id earlier) :
    (store.call libraries call).Exact ∧
      ∀ id, (store.call libraries call).item id = lastRead libraries id (call :: earlier) := by
  cases call with
  | setSession key => exact ⟨exact, items⟩
  | setSecret name value => exact ⟨exact, items⟩
  | forgetSecret name => exact ⟨exact, items⟩
  | forget keep => exact ⟨indexes_empty, fun _ => rfl⟩
  | holdSession name =>
    have kept := holdSession_exact exact name
    exact ⟨kept.1, fun id => (kept.2 id).trans (items id)⟩
  | forgetItem gone =>
    refine ⟨exact_forgetItem exact gone, fun id => ?_⟩
    rw [call, item_forgetItem exact, items, lastRead]
  | stripVault raw replace =>
    rw [call]
    cases read : readItems libraries raw with
    | none =>
      rw [stripVault_of_unread read]
      refine ⟨exact, fun id => ?_⟩
      simp only [lastRead, read, items]
    | some entries =>
      have held := stripVault_of_read exact read replace
      refine ⟨held.1, fun id => ?_⟩
      rw [held.2 id]
      simp only [lastRead, read, items]

end Store

theorem storeAfter_exact (calls : List StoreCall) :
    (storeAfter libraries calls).Exact ∧
      ∀ id, (storeAfter libraries calls).item id = lastRead libraries id calls := by
  induction calls with
  | nil => exact ⟨Store.exact_empty, fun _ => rfl⟩
  | cons call earlier ih => exact Store.call_exact call earlier ih.1 ih.2

theorem search_blank {libraries : Libraries} (blank : libraries.toLowercase "" = "")
    (store : Store) {query : String} (empty : trim query.toList = []) :
    store.search libraries query = store.items.map Held.id := by
  unfold Store.search
  rw [empty]
  exact if_pos blank

theorem mem_ids_iff {store : Store} (exact : store.Exact) (id : String) :
    id ∈ store.items.map Held.id ↔ (store.item id).isSome := by
  rw [List.mem_map, Store.item, isSome_map, isSome_iff_exists]
  constructor
  · rintro ⟨held, mem, named⟩
    exact ⟨held, (fetch_eq_some_iff exact).mpr ⟨mem, named⟩⟩
  · rintro ⟨held, found⟩
    exact ⟨held, (fetch_eq_some_iff exact).mp found⟩

/-- After any calls the store is the map from ids to the items last read. -/
theorem store_is_exact_map (blank : libraries.toLowercase "" = "") (calls : List StoreCall) :
    (storeAfter libraries calls).Exact ∧
      (∀ id, (storeAfter libraries calls).item id = lastRead libraries id calls) ∧
      (∀ query : String, trim query.toList = [] →
        ((storeAfter libraries calls).search libraries query).Nodup ∧
        ∀ id, id ∈ (storeAfter libraries calls).search libraries query ↔
          ((storeAfter libraries calls).item id).isSome) ∧
      ∀ gone, Store.DropsOnly libraries gone (storeAfter libraries calls)
        ((storeAfter libraries calls).forgetItem gone) := by
  obtain ⟨exact, items⟩ := storeAfter_exact libraries calls
  refine ⟨exact, items, ?_, fun gone => Store.forgetItem_dropsOnly exact gone⟩
  intro query empty
  rw [search_blank blank _ empty]
  exact ⟨nodup exact, mem_ids_iff exact⟩

/-- A vault with one item for each letter, named by it and numbered. -/
def letters (names : List String) : String :=
  jsonLibraries.toString (.object [("items", .array (names.zipIdx.map fun entry =>
    .object [("id", .string entry.1), ("nr", .number (.natural entry.2))]))])

/-- Three items are read, one of them twice; another read moves one, and one is dropped. -/
def letterCalls : List StoreCall :=
  [.forgetItem "b", .stripVault (letters ["c", "d"]) false,
    .stripVault (letters ["a", "b", "c", "b"]) true]

theorem store_is_exact_map_letters :
    jsonLibraries.toLowercase "" = "" ∧
      (storeAfter jsonLibraries letterCalls).item "c" = some "\x7b\"id\":\"c\",\"nr\":0\x7d" ∧
      (storeAfter jsonLibraries letterCalls).item "b" = none ∧
      ((storeAfter jsonLibraries letterCalls).search jsonLibraries " ").Nodup := by
  have blank : jsonLibraries.toLowercase "" = "" := by decide +kernel
  have map := store_is_exact_map jsonLibraries blank letterCalls
  refine ⟨blank, ?_, ?_, (map.2.2.1 " " (by decide)).1⟩
  · rw [map.2.1]
    decide +kernel
  · rw [map.2.1]
    decide +kernel

end QsBitwarden.Vault
