/-
A balance kept for many holders.

The balance covers the holders when no finite set of them is owed more than
the balance, taken together.  The rule below is for a step that concerns one
holder: the others are owed what they were owed, and the balance changes by
what that holder brings or takes.
-/
import Mathlib.Algebra.BigOperators.Group.Finset.Basic
import Mathlib.Algebra.Order.BigOperators.Group.Finset
import Mathlib.Data.Int.Order.Basic
import Mathlib.Algebra.Order.Ring.Int
import Mathlib.Tactic.Common

namespace Custody

universe u

variable {ι : Type u}

/-- No finite set of holders is owed more than the balance. -/
def Covered (holder : ι → Prop) (owed : ι → ℤ) (balance : ℤ) : Prop :=
  ∀ holders : Finset ι, (∀ i ∈ holders, holder i) →
    ∑ i ∈ holders, owed i ≤ balance

variable {holder holder' : ι → Prop} {owed owed' : ι → ℤ} {balance δ : ℤ}
  {b : ι}

theorem covered_of_no_holder (hnone : ∀ i, ¬ holder i)
    (hbalance : 0 ≤ balance) : Covered holder owed balance := by
  intro holders hmem
  rcases holders.eq_empty_or_nonempty with rfl | ⟨i, hi⟩
  · simpa using hbalance
  · exact absurd (hmem i hi) (hnone i)

namespace Covered

/-- A single holder is covered. -/
theorem single (h : Covered holder owed balance) (hb : holder b) :
    owed b ≤ balance := by
  simpa using h {b} (by simpa using hb)

/-- A holder that is not in the set leaves the rest of the balance to it. -/
theorem rest_le [DecidableEq ι] (h : Covered holder owed balance)
    (hb : holder b) {holders : Finset ι} (hmem : ∀ i ∈ holders, holder i)
    (hnot : b ∉ holders) : ∑ i ∈ holders, owed i ≤ balance - owed b := by
  have hall := h (insert b holders) (by
    intro i hi
    rcases Finset.mem_insert.mp hi with rfl | hi
    · exact hb
    · exact hmem i hi)
  rw [Finset.sum_insert hnot] at hall
  omega

/-- A step that concerns the holder `b`.  What leaves the balance was owed to
`b`, and what `b` is owed afterwards it was owed before or has brought. -/
theorem step (h : Covered holder owed balance)
    (hframe : ∀ i, i ≠ b → holder' i → holder i ∧ owed' i = owed i)
    (hspare : 0 ≤ δ ∨ holder b ∧ 0 ≤ owed b + δ)
    (hself : holder' b → holder b ∧ owed' b ≤ owed b + δ ∨ owed' b ≤ δ) :
    Covered holder' owed' (balance + δ) := by
  classical
  intro holders hmem
  have hothers : ∀ i ∈ holders.erase b, holder i ∧ owed' i = owed i := by
    intro i hi
    obtain ⟨hne, hi⟩ := Finset.mem_erase.mp hi
    exact hframe i hne (hmem i hi)
  have hsum : ∑ i ∈ holders.erase b, owed' i =
      ∑ i ∈ holders.erase b, owed i :=
    Finset.sum_congr rfl fun i hi => (hothers i hi).2
  have herase := h (holders.erase b) fun i hi => (hothers i hi).1
  by_cases hb : b ∈ holders
  · rw [← Finset.add_sum_erase holders owed' hb, hsum]
    rcases hself (hmem b hb) with ⟨hold, hle⟩ | hle
    · have hrest := h.rest_le hold (fun i hi => (hothers i hi).1)
        (Finset.notMem_erase b holders)
      omega
    · omega
  · rw [Finset.erase_eq_of_notMem hb] at hsum herase hothers
    rw [hsum]
    rcases hspare with hspare | ⟨hold, hspare⟩
    · omega
    · have hrest := h.rest_le hold (fun i hi => (hothers i hi).1) hb
      omega

end Covered

end Custody
