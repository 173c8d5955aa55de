/-
Key-value stores as partial functions, with the two updates a store offers.
-/
import Mathlib.Logic.Function.Basic
import Mathlib.Tactic.Common

universe u v w

/-- A store: every key has at most one value. -/
abbrev Map (K : Type u) (V : Type v) := K → Option V

namespace Map

variable {K : Type u} {V : Type v}

/-- The store without any entry. -/
def empty : Map K V := fun _ => none

@[simp] theorem empty_apply (key : K) : (empty : Map K V) key = none := rfl

/-- The store of what `f` tells of the values. -/
def view {W : Type w} (m : Map K V) (f : V → W) : Map K W :=
  fun key => (m key).map f

theorem view_apply {W : Type w} (m : Map K V) (f : V → W) (key : K) :
    m.view f key = (m key).map f := rfl

variable [DecidableEq K]

/-- Write `value` under `key`. -/
def save (m : Map K V) (key : K) (value : V) : Map K V :=
  Function.update m key (some value)

/-- Delete `key`. -/
def remove (m : Map K V) (key : K) : Map K V :=
  Function.update m key none

variable {m : Map K V} {key other : K} {value : V}

@[simp] theorem save_self : m.save key value key = some value := by
  simp [save]

@[simp] theorem save_of_ne (h : other ≠ key) :
    m.save key value other = m other := by
  simp [save, h]

@[simp] theorem remove_self : m.remove key key = none := by
  simp [remove]

@[simp] theorem remove_of_ne (h : other ≠ key) :
    m.remove key other = m other := by
  simp [remove, h]

theorem save_apply :
    m.save key value other = if other = key then some value else m other := by
  simp [save, Function.update_apply]

theorem remove_apply :
    m.remove key other = if other = key then none else m other := by
  simp [remove, Function.update_apply]

/-- Change the values under some of the keys. -/
def updateAll (m : Map K V) (f : V → V) (keys : List K) : Map K V :=
  fun key => if key ∈ keys then (m key).map f else m key

/-- Delete some of the keys. -/
def removeAll (m : Map K V) (keys : List K) : Map K V :=
  fun key => if key ∈ keys then none else m key

theorem updateAll_apply {f : V → V} {keys : List K} :
    m.updateAll f keys key =
      if key ∈ keys then (m key).map f else m key := rfl

theorem removeAll_apply {keys : List K} :
    m.removeAll keys key = if key ∈ keys then none else m key := rfl

@[simp] theorem updateAll_nil {f : V → V} : m.updateAll f [] = m := by
  funext other
  simp [updateAll_apply]

@[simp] theorem removeAll_nil : m.removeAll [] = m := by
  funext other
  simp [removeAll_apply]

/-- A change that is made once more does not count. -/
theorem updateAll_save {f : V → V} {keys : List K} (hf : ∀ v, f (f v) = f v)
    (h : m key = some value) :
    (m.save key (f value)).updateAll f keys = m.updateAll f (key :: keys) := by
  funext other
  rw [updateAll_apply, updateAll_apply, save_apply]
  by_cases hother : other = key
  · rw [hother, h]
    simp [hf]
  · simp [hother]

theorem removeAll_remove {keys : List K} :
    (m.remove key).removeAll keys = m.removeAll (key :: keys) := by
  funext other
  rw [removeAll_apply, removeAll_apply, remove_apply]
  by_cases hother : other = key <;> simp [hother]

/-- Only which keys are listed counts. -/
theorem removeAll_congr {keys keys' : List K}
    (h : ∀ key, key ∈ keys ↔ key ∈ keys') :
    m.removeAll keys = m.removeAll keys' := by
  funext other
  rw [removeAll_apply, removeAll_apply]
  by_cases hother : other ∈ keys
  · rw [if_pos hother, if_pos ((h other).mp hother)]
  · rw [if_neg hother, if_neg (mt (h other).mpr hother)]

/-- Keys whose values the change leaves alone do not count. -/
theorem updateAll_congr {f : V → V} {keys keys' : List K}
    (h : ∀ key ∈ keys, key ∈ keys')
    (hsame : ∀ key ∈ keys', key ∉ keys → (m key).map f = m key) :
    m.updateAll f keys' = m.updateAll f keys := by
  funext other
  rw [updateAll_apply, updateAll_apply]
  by_cases hother : other ∈ keys
  · rw [if_pos hother, if_pos (h other hother)]
  · rw [if_neg hother]
    by_cases hmore : other ∈ keys'
    · rw [if_pos hmore, hsame other hmore hother]
    · rw [if_neg hmore]

/-- Writing the value that is there changes nothing. -/
theorem save_eq_self (h : m key = some value) : m.save key value = m := by
  funext other
  rw [save_apply]
  split
  · rename_i heq
    rw [heq, h]
  · rfl

/-! ### A view of the values -/

section

variable {W : Type w}

theorem view_save {f : V → W} :
    (m.save key value).view f = (m.view f).save key (f value) := by
  funext other
  rw [view_apply, save_apply, save_apply, view_apply]
  split <;> rfl

theorem view_remove {f : V → W} :
    (m.remove key).view f = (m.view f).remove key := by
  funext other
  rw [view_apply, remove_apply, remove_apply, view_apply]
  split <;> rfl

theorem view_updateAll {f : V → W} {g : V → V} {g' : W → W} {keys : List K}
    (h : ∀ v, f (g v) = g' (f v)) :
    (m.updateAll g keys).view f = (m.view f).updateAll g' keys := by
  funext other
  rw [view_apply, updateAll_apply, updateAll_apply, view_apply]
  split
  · rw [Option.map_map, Option.map_map]
    exact congrArg (Option.map · (m other)) (funext h)
  · rfl

theorem view_removeAll {f : V → W} {keys : List K} :
    (m.removeAll keys).view f = (m.view f).removeAll keys := by
  funext other
  rw [view_apply, removeAll_apply, removeAll_apply, view_apply]
  split <;> rfl

end

end Map
