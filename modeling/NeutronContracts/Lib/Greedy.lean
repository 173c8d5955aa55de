/-
An amount taken from a list of capacities, from the first of them first, until
nothing remains to be taken.
-/
import Mathlib.Algebra.BigOperators.Group.List.Basic
import Mathlib.Algebra.GroupWithZero.Nat
import Mathlib.Tactic.Common

universe u

namespace Greedy

variable {K : Type u} {need : Nat} {caps : List (K × Nat)}

/-- What remains to be taken in the end, and what was taken from whom. -/
def fill : Nat → List (K × Nat) → Nat × List (K × Nat)
  | need, [] => (need, [])
  | need, cap :: rest =>
      if need = 0 then (0, [])
      else
        let last := fill (need - min cap.2 need) rest
        (last.1, (cap.1, min cap.2 need) :: last.2)

@[simp] theorem fill_zero (caps : List (K × Nat)) : fill 0 caps = (0, []) := by
  cases caps <;> rfl

theorem fill_cons {cap : K × Nat} {rest : List (K × Nat)} (h : need ≠ 0) :
    fill need (cap :: rest) = ((fill (need - min cap.2 need) rest).1,
      (cap.1, min cap.2 need) :: (fill (need - min cap.2 need) rest).2) := by
  rw [fill, if_neg h]

/-- The capacities together decide what remains. -/
theorem fill_left (need : Nat) (caps : List (K × Nat)) :
    (fill need caps).1 = need - (caps.map Prod.snd).sum := by
  induction caps generalizing need with
  | nil => rfl
  | cons cap rest ih =>
      by_cases hdone : need = 0
      · simp [hdone]
      · rw [fill_cons hdone, ih, List.map_cons, List.sum_cons]
        omega

/-- Nothing gets lost. -/
theorem fill_sum (need : Nat) (caps : List (K × Nat)) :
    ((fill need caps).2.map Prod.snd).sum + (fill need caps).1 = need := by
  induction caps generalizing need with
  | nil => simp [fill]
  | cons cap rest ih =>
      by_cases hdone : need = 0
      · simp [hdone]
      · have hrest := ih (need - min cap.2 need)
        rw [fill_cons hdone, List.map_cons, List.sum_cons]
        omega

/-- It is taken from the first ones, from each of them once. -/
theorem fill_keys (need : Nat) (caps : List (K × Nat)) :
    (fill need caps).2.map Prod.fst <+: caps.map Prod.fst := by
  induction caps generalizing need with
  | nil => exact List.prefix_rfl
  | cons cap rest ih =>
      by_cases hdone : need = 0
      · simp [hdone]
      · rw [fill_cons hdone, List.map_cons, List.map_cons]
        exact List.cons_prefix_cons.mpr ⟨rfl, ih _⟩

/-- Nobody gives more than the capacity. -/
theorem fill_le (need : Nat) (caps : List (K × Nat)) :
    ∀ share ∈ (fill need caps).2, ∃ cap ∈ caps,
      cap.1 = share.1 ∧ share.2 ≤ cap.2 := by
  induction caps generalizing need with
  | nil => simp [fill]
  | cons cap rest ih =>
      by_cases hdone : need = 0
      · simp [hdone]
      · rw [fill_cons hdone, List.forall_mem_cons]
        constructor
        · exact ⟨cap, List.mem_cons_self, rfl, Nat.min_le_left _ _⟩
        · intro share hshare
          obtain ⟨other, hother, hle⟩ := ih _ share hshare
          exact ⟨other, List.mem_cons_of_mem _ hother, hle⟩

/-- All but the last one give everything. -/
theorem fill_full (need : Nat) (caps : List (K × Nat)) :
    (fill need caps).2.dropLast <+: caps := by
  induction caps generalizing need with
  | nil => exact List.prefix_rfl
  | cons cap rest ih =>
      by_cases hdone : need = 0
      · simp [hdone]
      · rw [fill_cons hdone]
        by_cases hlast : (fill (need - min cap.2 need) rest).2 = []
        · simp [hlast]
        · have hmore : need - min cap.2 need ≠ 0 := by
            intro hzero
            exact hlast (by rw [hzero, fill_zero])
          have hall : min cap.2 need = cap.2 := by omega
          rw [List.dropLast_cons_of_ne_nil hlast]
          exact List.cons_prefix_cons.mpr ⟨Prod.ext rfl hall, ih _⟩

/-- From the largest capacity downwards, nobody is asked for nothing when
everything can be taken. -/
theorem fill_pos (hsorted : caps.Pairwise fun cap later => later.2 ≤ cap.2)
    (hdone : (fill need caps).1 = 0) :
    ∀ share ∈ (fill need caps).2, 0 < share.2 := by
  induction caps generalizing need with
  | nil => simp [fill]
  | cons cap rest ih =>
      by_cases hneed : need = 0
      · simp [hneed]
      · rw [List.pairwise_cons] at hsorted
        rw [fill_cons hneed] at hdone ⊢
        rw [List.forall_mem_cons]
        refine ⟨?_, ih hsorted.2 hdone⟩
        by_contra hzero
        have hcap : cap.2 = 0 := by
          dsimp only at hzero
          omega
        have hnothing : (rest.map Prod.snd).sum = 0 := by
          refine List.sum_eq_zero fun amount hamount => ?_
          obtain ⟨later, hlater, rfl⟩ := List.mem_map.mp hamount
          exact Nat.le_zero.mp (hcap ▸ hsorted.1 later hlater)
        rw [fill_left, hnothing, hcap] at hdone
        omega

end Greedy
