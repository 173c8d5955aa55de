/-
Histories: one entry for every number up to the latest one, written in order
and never again.
-/
import NeutronContracts.Lib.KeyValue
import Mathlib.Tactic.Common

namespace History

universe u

variable {V : Type u} {entries entries' later : Map Nat V} {last : Nat} {v : V}

/-- There is an entry for every number up to `last` and for no other. -/
def Upto (entries : Map Nat V) (last : Nat) : Prop :=
  ∀ n, (entries n).isSome = true ↔ n ≤ last

/-- What was written is still there. -/
def Extends (entries entries' : Map Nat V) : Prop :=
  ∀ n v, entries n = some v → entries' n = some v

theorem Extends.refl (entries : Map Nat V) : Extends entries entries :=
  fun _ _ h => h

/-- The first entry. -/
theorem upto_first (hempty : ∀ n, entries n = none) :
    Upto (entries.save 0 v) 0 := by
  intro n
  by_cases h : n = 0
  · subst h
    simp
  · simp [hempty, h]

theorem Upto.next (h : Upto entries last) :
    Upto (entries.save (last + 1) v) (last + 1) := by
  intro n
  by_cases heq : n = last + 1
  · subst heq
    simp
  · rw [Map.save_of_ne heq, h n]
    omega

/-- The next entry rewrites none. -/
theorem Upto.extends_next (h : Upto entries last) :
    Extends entries (entries.save (last + 1) v) := by
  intro n value hvalue
  have hle : n ≤ last := (h n).mp (by rw [hvalue]; rfl)
  rw [Map.save_of_ne (by omega), hvalue]

theorem extends_of_empty (hempty : ∀ n, entries n = none) :
    Extends entries later := by
  intro n value hvalue
  simp [hempty n] at hvalue

end History
