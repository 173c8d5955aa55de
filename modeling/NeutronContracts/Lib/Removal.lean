/-
Taking entries off a list by their keys.

All entries with a key leave together, so what leaves is what was meant to
leave exactly when each entry that is meant is the only one with its key.
-/
import Mathlib.Data.List.Perm.Basic
import Mathlib.Data.List.Count
import Mathlib.Tactic.Common

namespace Removal

variable {α κ : Type*} [DecidableEq κ] {key : α → κ} {entries taken : List α}
  {keys : List κ} {x : α}

/-- Among entries with different keys each one is alone with its key. -/
theorem filter_key_of_nodup (hnodup : (taken.map key).Nodup) (hx : x ∈ taken) :
    (taken.filter fun y => decide (key y = key x)) = [x] := by
  induction taken with
  | nil => cases hx
  | cons first rest ih =>
      rw [List.map_cons, List.nodup_cons] at hnodup
      obtain ⟨hnew, hrest⟩ := hnodup
      rcases List.mem_cons.mp hx with rfl | hmem
      · have hnone : (rest.filter fun y => decide (key y = key x)) = [] := by
          rw [List.filter_eq_nil_iff]
          intro y hy
          rw [decide_eq_true_eq]
          exact fun heq => hnew (heq ▸ List.mem_map_of_mem hy)
        rw [List.filter_cons_of_pos (by simp), hnone]
      · have hne : key first ≠ key x := fun heq =>
          hnew (heq ▸ List.mem_map_of_mem hmem)
        rw [List.filter_cons_of_neg (by simpa using hne), ih hrest hmem]

/-- When exactly the `taken` entries leave with the keys, each of them is the
only one with its key. -/
theorem alone_of_perm (hnodup : (taken.map key).Nodup)
    (hperm : (entries.filter fun y => decide (key y ∈ keys)).Perm taken)
    (hx : x ∈ taken) :
    key x ∈ keys ∧ (entries.filter fun y => decide (key y = key x)) = [x] := by
  have hkey : key x ∈ keys := by
    simpa using (List.mem_filter.mp (hperm.mem_iff.mpr hx)).2
  refine ⟨hkey, ?_⟩
  have hsame : (entries.filter fun y => decide (key y = key x)) =
      (entries.filter fun y => decide (key y ∈ keys)).filter
        fun y => decide (key y = key x) := by
    rw [List.filter_filter]
    refine List.filter_congr fun y _ => ?_
    by_cases heq : key y = key x
    · simp [heq, hkey]
    · simp [heq]
  have halone := hperm.filter fun y => decide (key y = key x)
  rw [filter_key_of_nodup hnodup hx] at halone
  rw [hsame, List.perm_singleton.mp halone]

/-- When each of the `taken` entries is the only one with its key, exactly
these leave with their keys. -/
theorem perm_of_alone [DecidableEq α] (hnodup : (taken.map key).Nodup)
    (halone : ∀ x ∈ taken,
      (entries.filter fun y => decide (key y = key x)) = [x]) :
    (entries.filter fun y => decide (key y ∈ taken.map key)).Perm taken := by
  rw [List.perm_iff_count]
  intro y
  by_cases hkey : key y ∈ taken.map key
  · obtain ⟨x, hx, hsame⟩ := List.mem_map.mp hkey
    have hy : decide (key y = key x) = true := by simp [hsame]
    calc (entries.filter fun y => decide (key y ∈ taken.map key)).count y
        = entries.count y :=
          List.count_filter (decide_eq_true hkey)
      _ = (entries.filter fun y => decide (key y = key x)).count y :=
          (List.count_filter (p := fun y => decide (key y = key x)) hy).symm
      _ = (taken.filter fun y => decide (key y = key x)).count y := by
          rw [halone x hx, filter_key_of_nodup hnodup hx]
      _ = taken.count y :=
          List.count_filter (p := fun y => decide (key y = key x)) hy
  · have hleft : y ∉ entries.filter fun y => decide (key y ∈ taken.map key) :=
      fun hy => hkey (by simpa using (List.mem_filter.mp hy).2)
    have hright : y ∉ taken := fun hy => hkey (List.mem_map_of_mem hy)
    rw [List.count_eq_zero.mpr hleft, List.count_eq_zero.mpr hright]

end Removal
