import Mathlib.Data.List.AList
import Mathlib.Data.Multiset.MapFold

/-! Owns finite maps seen as the multiset of their values: what an insertion or an
erasure does to it, and iteration in any order of the keys. It does not own any
particular keys or values. -/

namespace QsBitwarden.Lib

open List Option

variable {Key Value : Type*} {map : AList fun _ : Key => Value} {key : Key} {value : Value}

/-- The values of a map, each as often as it occurs. -/
def values (map : AList fun _ : Key => Value) : Multiset Value := ↑(map.entries.map (·.2))

variable [DecidableEq Key]

/-- An entry of a map after an insertion. -/
theorem mem_entries_insert {entry : (_ : Key) × Value}
    (mem : entry ∈ (map.insert key value).entries) :
    entry = ⟨key, value⟩ ∨ entry ∈ map.entries := by
  rw [AList.entries_insert] at mem
  exact (mem_cons.mp mem).imp_right fun old => (kerase_sublist key _).subset old

theorem entries_perm (found : map.lookup key = some value) :
    map.entries.Perm (⟨key, value⟩ :: (map.erase key).entries) := by
  have mem : key ∈ map.entries.keys := dlookup_isSome.mp (by
    change (map.lookup key).isSome = true
    rw [found]
    rfl)
  obtain ⟨other, before, after, absent, entries, erased⟩ := exists_of_kerase mem
  have same : other = value := by
    have first : map.entries.dlookup key = some other := by
      rw [entries, dlookup_append, dlookup_eq_none.mpr absent, none_or,
        dlookup_cons_eq]
    exact Option.some.inj (first.symm.trans found)
  have taken : (map.erase key).entries = before ++ after := erased
  rw [taken, entries, same]
  exact perm_middle

theorem values_erase (found : map.lookup key = some value) :
    values map = value ::ₘ values (map.erase key) := by
  rw [values, values, Multiset.cons_coe, Multiset.coe_eq_coe]
  exact (entries_perm found).map _

theorem values_insert : values (map.insert key value) = value ::ₘ values (map.erase key) := by
  rw [values, AList.entries_insert, map_cons, ← Multiset.cons_coe]
  rfl

theorem erase_of_notMem (absent : key ∉ map) : map.erase key = map :=
  AList.ext (kerase_of_notMem_keys absent)

/-- `HashMap::retain` by key. -/
def retain (keep : Key → Bool) (map : AList fun _ : Key => Value) : AList fun _ : Key => Value :=
  ⟨map.entries.filter fun entry => keep entry.1, map.nodupKeys.sublist filter_sublist⟩

omit [DecidableEq Key] in
theorem mem_retain {keep : Key → Bool} :
    key ∈ retain keep map ↔ key ∈ map ∧ keep key = true := by
  simp [retain, AList.mem_keys, AList.keys, List.keys]

/-- The entries of a map, in the order of these keys. -/
def entriesBy (keys : List Key) (map : AList fun _ : Key => Value) : List (Key × Value) :=
  keys.filterMap fun key => (map.lookup key).map (key, ·)

theorem entriesBy_keys :
    entriesBy map.keys map = map.entries.map fun entry => (entry.1, entry.2) := by
  have each : ∀ entries : List ((_ : Key) × Value), entries ⊆ map.entries →
      entries.keys.filterMap (fun key => (map.lookup key).map (key, ·)) =
        entries.map fun entry => (entry.1, entry.2) := by
    intro entries
    induction entries with
    | nil => exact fun _ => rfl
    | cons entry rest ih =>
      intro subset
      have found : map.lookup entry.1 = some entry.2 :=
        AList.mem_lookup_iff.mpr (subset mem_cons_self)
      rw [keys_cons, filterMap_cons_some (b := (entry.1, entry.2)) (by rw [found]; rfl),
        map_cons, ih fun other mem => subset (mem_cons_of_mem _ mem)]
  exact each map.entries (List.Subset.refl _)

theorem entriesBy_perm {keys : List Key} (perm : keys.Perm map.keys) :
    (entriesBy keys map).Perm (map.entries.map fun entry => (entry.1, entry.2)) :=
  @entriesBy_keys _ _ map _ ▸ perm.filterMap _

end QsBitwarden.Lib
