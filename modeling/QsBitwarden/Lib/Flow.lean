import Mathlib.Data.List.Basic

/-! Owns pre- and postconditions of computations that may stop early: a predicate on
how an `Except` ends, its rules for sequencing and for loops over a list. It does not
own any particular state. -/

namespace QsBitwarden.Lib

open List

universe u

variable {Error Item : Type*} {Value Value' : Type u}

/-- The computation ends well with `good`, or stops with `stopped`. -/
def Ensures (good : Value → Prop) (stopped : Error → Prop) : Except Error Value → Prop
  | .ok value => good value
  | .error error => stopped error

variable {good : Value → Prop} {stopped : Error → Prop}

variable {flow : Except Error Value}

variable {good' : Value → Prop}

theorem Ensures.mono {stopped' : Error → Prop}
    (ensures : Ensures good stopped flow) (goodMono : ∀ value, good value → good' value)
    (stoppedMono : ∀ error, stopped error → stopped' error) : Ensures good' stopped' flow := by
  cases flow with
  | ok value => exact goodMono value ensures
  | error error => exact stoppedMono error ensures

theorem Ensures.imp (ensures : Ensures good stopped flow)
    (goodMono : ∀ value, good value → good' value) : Ensures good' stopped flow :=
  ensures.mono goodMono fun _ stopped => stopped

theorem ensures_true (flow : Except Error Value) :
    Ensures (fun _ => True) (fun _ => True) flow := by
  cases flow with
  | ok value => trivial
  | error error => trivial

theorem Ensures.and {stopped' : Error → Prop}
    (one : Ensures good stopped flow) (other : Ensures good' stopped' flow) :
    Ensures (fun value => good value ∧ good' value) (fun error => stopped error ∧ stopped' error)
      flow := by
  cases flow with
  | ok value => exact ⟨one, other⟩
  | error error => exact ⟨one, other⟩

/-- What holds after the first part is the second part's precondition. -/
theorem Ensures.bind {next : Value → Except Error Value'}
    {good' : Value' → Prop} (first : Ensures good stopped flow)
    (second : ∀ value, good value → Ensures good' stopped (next value)) :
    Ensures good' stopped (flow >>= next) := by
  cases flow with
  | ok value => exact second value first
  | error error => exact first

/-- The state a computation ends with, whether or not it stopped. -/
def ending : Except Value Value → Value
  | .ok value => value
  | .error value => value

theorem Ensures.ending {holds : Value → Prop} {flow : Except Value Value}
    (ensures : Ensures holds holds flow) : holds (ending flow) := by
  cases flow with
  | ok value => exact ensures
  | error value => exact ensures

/-- A loop keeps an invariant that may speak of the items still to come. -/
theorem ensures_foldlM {body : Value → Item → Except Error Value}
    (inv : List Item → Value → Prop)
    (step : ∀ item rest value, inv (item :: rest) value →
      Ensures (inv rest) stopped (body value item))
    {items : List Item} {value : Value} (start : inv items value) :
    Ensures (inv []) stopped (items.foldlM body value) := by
  induction items generalizing value with
  | nil => exact start
  | cons item rest ih =>
    rw [foldlM_cons]
    exact Ensures.bind (step item rest value start) fun value' kept => ih kept

end QsBitwarden.Lib
