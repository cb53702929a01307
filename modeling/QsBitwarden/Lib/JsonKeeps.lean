import Mathlib.Data.List.Forall2
import QsBitwarden.Lib.Json

/-! Owns what it means that a JSON value keeps another: nothing of it is altered or dropped,
at any depth; objects may have gained keys. -/

namespace QsBitwarden.Lib.Json

open Option

inductive Keeps : Json → Json → Prop
  | same (value : Json) : Keeps value value
  | object {old new : Fields}
      (present : ∀ key value, old.get key = some value → (new.get key).isSome)
      (each : ∀ key value kept, old.get key = some value → new.get key = some kept →
        Keeps value kept) :
      Keeps (.object old) (.object new)
  | array {old new : List Json} (length : old.length = new.length)
      (each : ∀ (index : ℕ) (value kept : Json), old[index]? = some value →
        new[index]? = some kept → Keeps value kept) :
      Keeps (.array old) (.array new)

variable {old new : Fields} {key : String} {value kept : Json}

theorem keeps_object (each : ∀ key value, old.get key = some value →
    ∃ kept, new.get key = some kept ∧ Keeps value kept) : Keeps (.object old) (.object new) := by
  constructor
  · intro key value there
    obtain ⟨kept, found, -⟩ := each key value there
    rw [found]
    rfl
  · intro key value kept there found
    obtain ⟨other, again, keeps⟩ := each key value there
    rw [found, Option.some.injEq] at again
    rw [again]
    exact keeps

/-- An object with the same values under its keys is kept. -/
theorem keeps_of_get (each : ∀ key value, old.get key = some value → new.get key = some value) :
    Keeps (.object old) (.object new) :=
  keeps_object fun key value there => ⟨value, each key value there, .same value⟩

theorem Keeps.get (keeps : Keeps (.object old) (.object new)) (there : old.get key = some value) :
    ∃ kept, new.get key = some kept ∧ Keeps value kept := by
  cases keeps with
  | same => exact ⟨value, there, .same value⟩
  | object present each =>
    obtain ⟨kept, found⟩ := isSome_iff_exists.mp (present key value there)
    exact ⟨kept, found, each key value kept there found⟩

theorem Keeps.get_of_eq (keeps : Keeps (.object old) (.object new))
    (there : old.get key = some value) (found : new.get key = some kept) : Keeps value kept := by
  obtain ⟨other, again, holds⟩ := keeps.get there
  rw [found, Option.some.injEq] at again
  rw [again]
  exact holds

theorem keeps_null_iff : Keeps .null kept ↔ kept = .null := by
  constructor
  · intro keeps
    cases keeps
    rfl
  · rintro rfl
    exact .same .null

theorem keeps_string_iff {text : String} : Keeps (.string text) kept ↔ kept = .string text := by
  constructor
  · intro keeps
    cases keeps
    rfl
  · rintro rfl
    exact .same _

theorem keeps_array_iff {items others : List Json} :
    Keeps (.array items) (.array others) ↔ List.Forall₂ Keeps items others := by
  constructor
  · intro keeps
    cases keeps with
    | same => exact List.forall₂_same.mpr fun value _ => .same value
    | array length each =>
      refine List.forall₂_iff_get.mpr ⟨length, fun index first second => ?_⟩
      exact each index _ _ (by simp) (by simp)
  · intro each
    obtain ⟨length, each⟩ := List.forall₂_iff_get.mp each
    refine .array length fun index value kept there found => ?_
    obtain ⟨first, rfl⟩ := List.getElem?_eq_some_iff.mp there
    obtain ⟨second, rfl⟩ := List.getElem?_eq_some_iff.mp found
    exact each index first second

end QsBitwarden.Lib.Json
