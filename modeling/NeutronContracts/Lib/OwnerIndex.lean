/-
A table of owned items with an index of the items of every owner.  The two are
written by different operations; `InStep` says that they tell the same.
-/
import Mathlib.Data.List.Nodup
import NeutronContracts.Lib.KeyValue

namespace OwnerIndex

universe u v

variable {K : Type u} {O : Type v} {owner owner' : Map K O}
  {listed listed' : O → List K} {k : K} {o : O}

/-- Every owner lists the items it owns, each of them once. -/
structure InStep (owner : Map K O) (listed : O → List K) : Prop where
  mem_iff : ∀ o k, k ∈ listed o ↔ owner k = some o
  nodup : ∀ o, (listed o).Nodup

theorem inStep_empty : InStep (Map.empty : Map K O) fun _ => [] :=
  ⟨by simp, fun _ => List.nodup_nil⟩

namespace InStep

/-- An item that is listed has no other owner. -/
theorem unique (h : InStep owner listed) {first second : O}
    (hfirst : k ∈ listed first) (hsecond : k ∈ listed second) :
    first = second :=
  Option.some.inj (((h.mem_iff first k).mp hfirst).symm.trans
    ((h.mem_iff second k).mp hsecond))

variable [DecidableEq K] [DecidableEq O]

/-- A new item is given to an owner and appended to its list. -/
theorem add (h : InStep owner listed) (hfree : owner k = none)
    (hlisted : ∀ other, listed' other =
      if other = o then listed o ++ [k] else listed other) :
    InStep (owner.save k o) listed' := by
  have hnew : ∀ other, k ∉ listed other := by
    intro other hmem
    rw [h.mem_iff, hfree] at hmem
    cases hmem
  constructor
  · intro other key
    rw [hlisted, Map.save_apply]
    by_cases hkey : key = k
    · rw [hkey, if_pos rfl]
      by_cases hother : other = o
      · simp [hother]
      · simp [hother, hnew, Ne.symm hother]
    · rw [if_neg hkey, ← h.mem_iff]
      by_cases hother : other = o
      · simp [hother, hkey]
      · simp [hother]
  · intro other
    rw [hlisted]
    split
    · apply List.Nodup.append (h.nodup o) (List.nodup_singleton k)
      simp [hnew]
    · exact h.nodup other

/-- An owner gives up a part of its items. -/
theorem drop (h : InStep owner listed) (keep : K → Bool)
    (howner : owner' =
      owner.removeAll ((listed o).filter fun key => !keep key))
    (hlisted : ∀ other, listed' other =
      if other = o then (listed o).filter keep else listed other) :
    InStep owner' listed' := by
  constructor
  · intro other key
    rw [hlisted, howner, Map.removeAll_apply]
    by_cases hother : other = o
    · rw [if_pos hother, hother, List.mem_filter, h.mem_iff]
      by_cases howned : owner key = some o
      · cases hkeep : keep key <;> simp [h.mem_iff, howned, hkeep]
      · simp [h.mem_iff, howned]
    · rw [if_neg hother]
      by_cases hmem : key ∈ listed o
      · have hnot : key ∉ listed other := fun hmem' =>
          hother (h.unique hmem' hmem)
        have howned := (h.mem_iff o key).mp hmem
        simp only [hnot, false_iff]
        split <;> simp [howned, Ne.symm hother]
      · simp [List.mem_filter, hmem, h.mem_iff]
  · intro other
    rw [hlisted]
    split
    · exact (h.nodup o).filter _
    · exact h.nodup other

end InStep

end OwnerIndex
