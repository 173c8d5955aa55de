/-
An amount split evenly: everybody gets the quotient, and the first one what
the division leaves over as well.
-/
import Mathlib.Algebra.BigOperators.Group.List.Basic
import Mathlib.Algebra.Group.Action.Defs
import Mathlib.Algebra.GroupWithZero.Nat
import Mathlib.Algebra.Order.Group.Nat
import Mathlib.Tactic.Common

namespace EvenSplit

variable {total n : Nat}

def shares (total : Nat) : Nat → List Nat
  | 0 => []
  | n + 1 =>
      (total / (n + 1) + (total - total / (n + 1) * (n + 1))) ::
        List.replicate n (total / (n + 1))

theorem length_shares (total n : Nat) : (shares total n).length = n := by
  cases n with
  | zero => rfl
  | succ n => rw [shares, List.length_cons, List.length_replicate]

theorem sum_shares (h : 0 < n) : (shares total n).sum = total := by
  cases n with
  | zero => exact absurd h (Nat.lt_irrefl 0)
  | succ n =>
      have hle : total / (n + 1) * (n + 1) ≤ total := Nat.div_mul_le_self _ _
      rw [shares, List.sum_cons, List.sum_replicate, smul_eq_mul,
        Nat.mul_comm n]
      rw [Nat.mul_add_one] at hle ⊢
      omega

/-- No two shares are as far apart as there are shares. -/
theorem share_lt {x y : Nat} (hx : x ∈ shares total n)
    (hy : y ∈ shares total n) : x < y + n := by
  cases n with
  | zero => cases hx
  | succ n =>
      have hrest : total - total / (n + 1) * (n + 1) < n + 1 := by
        rw [← Nat.mod_eq_sub_div_mul]
        exact Nat.mod_lt total (Nat.succ_pos n)
      have hbounds : ∀ z ∈ shares total (n + 1), total / (n + 1) ≤ z ∧
          z ≤ total / (n + 1) + (total - total / (n + 1) * (n + 1)) := by
        intro z hz
        rcases List.mem_cons.mp hz with rfl | hlater
        · exact ⟨Nat.le_add_right _ _, le_rfl⟩
        · rw [List.eq_of_mem_replicate hlater]
          exact ⟨le_rfl, Nat.le_add_right _ _⟩
      have hlow := (hbounds y hy).1
      have hhigh := (hbounds x hx).2
      omega

/-- There is something for everybody when there are at least as many units as
shares, and only then. -/
theorem shares_pos_iff (h : 0 < n) :
    (∀ x ∈ shares total n, 0 < x) ↔ n ≤ total := by
  cases n with
  | zero => exact absurd h (Nat.lt_irrefl 0)
  | succ n =>
      constructor
      · intro hpos
        by_contra hless
        have hquot : total / (n + 1) = 0 :=
          Nat.div_eq_of_lt (Nat.lt_of_not_le hless)
        have hfirst := hpos _ List.mem_cons_self
        have hn : n = 0 := by
          by_contra hne
          have hlater := hpos (total / (n + 1)) (List.mem_cons_of_mem _
            (List.mem_replicate.mpr ⟨hne, rfl⟩))
          omega
        subst hn
        rw [hquot] at hfirst
        omega
      · intro hle x hx
        have hquot : 0 < total / (n + 1) := Nat.div_pos hle h
        rcases List.mem_cons.mp hx with rfl | hlater
        · exact Nat.add_pos_left hquot _
        · rw [List.eq_of_mem_replicate hlater]
          exact hquot

end EvenSplit
