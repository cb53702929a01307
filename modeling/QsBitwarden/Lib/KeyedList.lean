import Mathlib.Data.List.AList

/-! Owns lists whose elements have a key of their own, with an index from keys to positions:
when the index is exact, and that adding at the end, replacing in place and removing with the
later positions moved up keep it so. It does not own any particular elements. -/

namespace QsBitwarden.Lib

open List Option

variable {Key Item : Type*} [DecidableEq Key]

/-- The index has the position of every element, under its key, and nothing else. -/
def Indexes (key : Item → Key) (index : AList fun _ : Key => ℕ) (items : List Item) : Prop :=
  ∀ name position, index.lookup name = some position ↔
    ∃ item, items[position]? = some item ∧ key item = name

/-- The element the index has under a key. -/
def fetch (index : AList fun _ : Key => ℕ) (items : List Item) (name : Key) : Option Item :=
  (index.lookup name).bind fun position => items[position]?

variable {key : Item → Key} {index : AList fun _ : Key => ℕ} {items : List Item} {item : Item}
  {name : Key} {position : ℕ}

theorem indexes_empty : Indexes key (∅ : AList fun _ : Key => ℕ) ([] : List Item) := by
  intro name position
  simp

section

variable (indexes : Indexes key index items)

include indexes

theorem Indexes.lookup (here : items[position]? = some item) :
    index.lookup (key item) = some position :=
  (indexes _ _).mpr ⟨item, here, rfl⟩

theorem Indexes.ne_of_absent
    (absent : index.lookup name = none) (there : item ∈ items) : key item ≠ name := by
  intro same
  obtain ⟨position, here⟩ := mem_iff_getElem?.mp there
  rw [← same, indexes.lookup here] at absent
  cases absent

theorem Indexes.position_inj {other : ℕ} {item' : Item}
    (here : items[position]? = some item) (there : items[other]? = some item')
    (same : key item = key item') : position = other := by
  have found := indexes.lookup here
  rw [same, indexes.lookup there] at found
  exact (Option.some.inj found).symm

theorem Indexes.nodup : (items.map key).Nodup := by
  rw [nodup_iff_getElem?_ne_getElem?]
  intro first second before bound same
  rw [length_map] at bound
  have firstBound : first < items.length := Nat.lt_trans before bound
  rw [getElem?_map, getElem?_map, getElem?_eq_getElem firstBound,
    getElem?_eq_getElem bound] at same
  have equal := indexes.position_inj (getElem?_eq_getElem firstBound)
    (getElem?_eq_getElem bound) (Option.some.inj same)
  omega

theorem Indexes.fetch_eq_some_iff :
    fetch index items name = some item ↔ item ∈ items ∧ key item = name := by
  unfold fetch
  rw [bind_eq_some_iff]
  constructor
  · rintro ⟨position, found, here⟩
    obtain ⟨other, there, named⟩ := (indexes _ _).mp found
    rw [here] at there
    cases there
    exact ⟨mem_of_getElem? here, named⟩
  · rintro ⟨mem, rfl⟩
    obtain ⟨position, here⟩ := getElem?_of_mem mem
    exact ⟨position, indexes.lookup here, here⟩

/-! ### Adding and replacing -/

theorem Indexes.push (absent : index.lookup (key item) = none) :
    Indexes key (index.insert (key item) items.length) (items ++ [item]) := by
  intro name position
  by_cases added : name = key item
  · subst added
    rw [AList.lookup_insert]
    constructor
    · intro same
      cases same
      exact ⟨item, by simp, rfl⟩
    · rintro ⟨other, here, named⟩
      rcases Nat.lt_or_ge position items.length with old | new
      · rw [getElem?_append_left old] at here
        have found := indexes.lookup here
        rw [named, absent] at found
        cases found
      · rw [getElem?_append_right new] at here
        have last := (List.getElem?_eq_some_iff.mp here).1
        rw [length_singleton] at last
        rw [show position = items.length by omega]
  · rw [AList.lookup_insert_ne added, indexes name position]
    constructor
    · rintro ⟨other, here, named⟩
      have old := (List.getElem?_eq_some_iff.mp here).1
      exact ⟨other, by rw [getElem?_append_left old, here], named⟩
    · rintro ⟨other, here, named⟩
      refine ⟨other, ?_, named⟩
      rcases Nat.lt_or_ge position items.length with old | new
      · rwa [getElem?_append_left old] at here
      · rw [getElem?_append_right new, getElem?_singleton] at here
        split_ifs at here
        cases here
        exact absurd named.symm added

theorem Indexes.set (found : index.lookup (key item) = some position) :
    Indexes key index (items.set position item) := by
  obtain ⟨old, there, same⟩ := (indexes _ _).mp found
  have bound := (List.getElem?_eq_some_iff.mp there).1
  intro name other
  rw [indexes name other]
  by_cases here : position = other
  · subst here
    rw [there, getElem?_set_self bound]
    constructor
    · rintro ⟨_, ⟨⟩, named⟩
      exact ⟨item, rfl, same.symm.trans named⟩
    · rintro ⟨_, ⟨⟩, named⟩
      exact ⟨old, rfl, same.trans named⟩
  · rw [getElem?_set_ne here]

/-- After an addition the new element is found, and what was found before. -/
theorem Indexes.fetch_push :
    fetch (index.insert (key item) items.length) (items ++ [item]) name =
      if name = key item then some item else fetch index items name := by
  unfold fetch
  split_ifs with added
  · rw [added, AList.lookup_insert]
    simp
  · rw [AList.lookup_insert_ne added]
    cases found : index.lookup name with
    | none => rfl
    | some position =>
      obtain ⟨other, here, -⟩ := (indexes _ _).mp found
      have old := (List.getElem?_eq_some_iff.mp here).1
      exact getElem?_append_left old

theorem Indexes.fetch_set (found : index.lookup (key item) = some position) :
    fetch index (items.set position item) name =
      if name = key item then some item else fetch index items name := by
  obtain ⟨old, there, same⟩ := (indexes _ _).mp found
  have bound := (List.getElem?_eq_some_iff.mp there).1
  unfold fetch
  split_ifs with replaced
  · rw [replaced, found]
    exact getElem?_set_self bound
  · cases others : index.lookup name with
    | none => rfl
    | some other =>
      refine getElem?_set_ne ?_
      rintro rfl
      obtain ⟨item', here, named⟩ := (indexes _ _).mp others
      rw [there] at here
      cases here
      exact replaced (named.symm.trans same)

end

/-! ### Removing -/

/-- Every position from this one on, written into the index again. -/
def reindex (key : Item → Key) (index : AList fun _ : Key => ℕ) (entries : List (Item × ℕ)) :
    AList fun _ : Key => ℕ :=
  entries.foldl (fun index entry => index.insert (key entry.1) entry.2) index

theorem lookup_reindex_of_notMem {entries : List (Item × ℕ)}
    (absent : ∀ entry ∈ entries, key entry.1 ≠ name) :
    (reindex key index entries).lookup name = index.lookup name := by
  induction entries generalizing index with
  | nil => rfl
  | cons entry rest ih =>
    have other : name ≠ key entry.1 := (absent entry (by simp)).symm
    calc (reindex key index (entry :: rest)).lookup name
        = (index.insert (key entry.1) entry.2).lookup name :=
          ih fun later mem => absent later (by simp [mem])
      _ = index.lookup name := AList.lookup_insert_ne other

theorem lookup_reindex_of_mem {entries : List (Item × ℕ)} {entry : Item × ℕ}
    (distinct : (entries.map fun entry => key entry.1).Nodup) (mem : entry ∈ entries) :
    (reindex key index entries).lookup (key entry.1) = some entry.2 := by
  induction entries generalizing index with
  | nil => cases mem
  | cons first rest ih =>
    rw [map_cons, nodup_cons] at distinct
    rcases mem_cons.mp mem with rfl | later
    · have absent : ∀ other ∈ rest, key other.1 ≠ key entry.1 := by
        intro other mem same
        exact distinct.1 (mem_map.mpr ⟨other, mem, same⟩)
      calc (reindex key index (entry :: rest)).lookup (key entry.1)
          = (index.insert (key entry.1) entry.2).lookup (key entry.1) :=
            lookup_reindex_of_notMem absent
        _ = some entry.2 := AList.lookup_insert _
    · exact ih distinct.2 later

/-- The element at a later position, with its position. -/
theorem mem_drop_zipIdx {entry : Item × ℕ} :
    entry ∈ items.zipIdx.drop position ↔ position ≤ entry.2 ∧ items[entry.2]? = some entry.1 := by
  rw [mem_iff_getElem?]
  constructor
  · rintro ⟨offset, here⟩
    rw [getElem?_drop, getElem?_zipIdx] at here
    obtain ⟨item, there, rfl⟩ := map_eq_some_iff.mp here
    simp only [Nat.zero_add]
    exact ⟨Nat.le_add_right _ _, there⟩
  · rintro ⟨later, here⟩
    refine ⟨entry.2 - position, ?_⟩
    rw [getElem?_drop, getElem?_zipIdx, Nat.add_sub_cancel' later, here]
    simp

/-- Where an element of the shorter list stood in the longer one. -/
theorem getElem?_eraseIdx_shift (other : ℕ) :
    (items.eraseIdx position)[other]? = items[if other < position then other else other + 1]? := by
  rw [getElem?_eraseIdx]
  split_ifs <;> rfl

theorem Indexes.nodup_entries (indexes : Indexes key index items) (entries : List Item)
    (sub : entries.Sublist items) (start : ℕ) :
    ((entries.zipIdx.drop start).map fun entry => key entry.1).Nodup := by
  have keys : (entries.zipIdx.map fun entry => key entry.1) = entries.map key := by
    calc entries.zipIdx.map (fun entry => key entry.1) = (entries.zipIdx.map Prod.fst).map key := by
          rw [List.map_map]
          rfl
      _ = entries.map key := by rw [zipIdx_map_fst]
  rw [map_drop, keys]
  exact (indexes.nodup.sublist (sub.map key)).sublist (drop_sublist _ _)

/-- The index once the element under a key is removed and the later ones have moved up. -/
theorem Indexes.erase (indexes : Indexes key index items)
    (found : index.lookup name = some position) :
    Indexes key (reindex key (index.erase name) ((items.eraseIdx position).zipIdx.drop position))
      (items.eraseIdx position) := by
  obtain ⟨gone, there, named⟩ := (indexes _ _).mp found
  intro other place
  by_cases later : ∃ entry ∈ (items.eraseIdx position).zipIdx.drop position, key entry.1 = other
  · obtain ⟨entry, mem, rfl⟩ := later
    rw [lookup_reindex_of_mem (indexes.nodup_entries _ (eraseIdx_sublist _ _) _) mem]
    obtain ⟨-, here⟩ := mem_drop_zipIdx.mp mem
    constructor
    · intro same
      cases same
      exact ⟨entry.1, here, rfl⟩
    · rintro ⟨item, here', same⟩
      rw [getElem?_eraseIdx_shift] at here here'
      have places := indexes.position_inj here here' same.symm
      congr 1
      split_ifs at places <;> omega
  · have absent : ∀ entry ∈ (items.eraseIdx position).zipIdx.drop position, key entry.1 ≠ other :=
      fun entry mem same => later ⟨entry, mem, same⟩
    -- No element at or behind the gap has the key.
    have before : ∀ place item, (items.eraseIdx position)[place]? = some item → key item = other →
        place < position := by
      intro place item here same
      by_contra behind
      exact absent (item, place) (mem_drop_zipIdx.mpr ⟨Nat.le_of_not_lt behind, here⟩) same
    rw [lookup_reindex_of_notMem absent]
    by_cases removed : other = name
    · subst removed
      rw [AList.lookup_erase]
      constructor
      · intro impossible
        cases impossible
      · rintro ⟨item, here, same⟩
        have early := before place item here same
        rw [getElem?_eraseIdx_shift, if_pos early] at here
        have place' := indexes.position_inj here there (same.trans named.symm)
        omega
    · rw [AList.lookup_erase_ne removed, indexes other place]
      constructor
      · rintro ⟨item, here, same⟩
        have early : place < position := by
          by_contra behind
          have distinct : place ≠ position := by
            rintro rfl
            rw [there] at here
            cases here
            exact removed (same.symm.trans named)
          have moved : (items.eraseIdx position)[place - 1]? = some item := by
            rw [getElem?_eraseIdx_shift, if_neg (by omega), Nat.sub_add_cancel (by omega)]
            exact here
          have earlier := before (place - 1) item moved same
          omega
        exact ⟨item, by rw [getElem?_eraseIdx_shift, if_pos early, here], same⟩
      · rintro ⟨item, here, same⟩
        have early := before place item here same
        rw [getElem?_eraseIdx_shift, if_pos early] at here
        exact ⟨item, here, same⟩

/-- Taking out one position takes out one key. -/
theorem eraseIdx_eq_filter {gone : Item} (distinct : (items.map key).Nodup)
    (here : items[position]? = some gone) :
    items.eraseIdx position = items.filter fun item => key item ≠ key gone := by
  induction items generalizing position with
  | nil => cases here
  | cons first rest ih =>
    rw [map_cons, nodup_cons] at distinct
    cases position with
    | zero =>
      cases here
      have kept : ∀ item ∈ rest, key item ≠ key gone := by
        intro item mem same
        exact distinct.1 (mem_map.mpr ⟨item, mem, same⟩)
      rw [eraseIdx_zero, tail_cons, filter_cons_of_neg (by simp)]
      exact (filter_eq_self.mpr fun item mem => by simpa using kept item mem).symm
    | succ position =>
      rw [getElem?_cons_succ] at here
      have other : key first ≠ key gone := by
        intro same
        exact distinct.1 (mem_map.mpr ⟨gone, mem_of_getElem? here, same.symm⟩)
      rw [eraseIdx_cons_succ, filter_cons_of_pos (by simpa using other),
        ih distinct.2 here]

theorem Indexes.eraseIdx (indexes : Indexes key index items)
    (found : index.lookup name = some position) :
    items.eraseIdx position = items.filter fun item => key item ≠ name := by
  obtain ⟨gone, there, rfl⟩ := (indexes _ _).mp found
  exact eraseIdx_eq_filter indexes.nodup there

/-- After a removal everything else is found as before. -/
theorem Indexes.fetch_erase (indexes : Indexes key index items)
    (found : index.lookup name = some position) (other : Key) :
    fetch (reindex key (index.erase name) ((items.eraseIdx position).zipIdx.drop position))
        (items.eraseIdx position) other =
      if other = name then none else fetch index items other := by
  apply Option.ext
  intro item
  rw [(indexes.erase found).fetch_eq_some_iff, indexes.eraseIdx found, mem_filter]
  split_ifs with removed
  · subst removed
    constructor
    · rintro ⟨⟨-, different⟩, same⟩
      simp [same] at different
    · intro impossible
      cases impossible
  · rw [indexes.fetch_eq_some_iff]
    constructor
    · rintro ⟨⟨mem, -⟩, same⟩
      exact ⟨mem, same⟩
    · rintro ⟨mem, rfl⟩
      exact ⟨⟨mem, by simpa using removed⟩, rfl⟩

end QsBitwarden.Lib
