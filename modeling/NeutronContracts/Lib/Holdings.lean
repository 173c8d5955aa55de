/-
Amounts that are held in several places.

A book says how much is held in every place.  It changes by deposits, by
withdrawals and by transfers from one place to another.  The rules below say
in which places something can be held after a list of such moves, and how much
is held in all places together.
-/
import Mathlib.Algebra.BigOperators.Finprod
import Mathlib.Data.Option.Basic
import Mathlib.Tactic.Common

namespace Holdings

universe u

variable {ι : Type u}

/-- How much is held in every place. -/
abbrev Book (ι : Type u) := ι → Nat

/-- Nothing is held anywhere. -/
def empty : Book ι := fun _ => 0

inductive Move (ι : Type u)
  | deposit (place : ι) (amount : Nat)
  | withdraw (place : ι) (amount : Nat)
  | transfer (source target : ι) (amount : Nat)

/-- The place that a move adds to. -/
def Move.target : Move ι → Option ι
  | .deposit place _ => some place
  | .withdraw _ _ => none
  | .transfer _ target _ => some target

/-- Something is held in the places of `P` only. -/
def Within (book : Book ι) (P : ι → Prop) : Prop := ∀ i, book i ≠ 0 → P i

variable {book : Book ι} {P Q : ι → Prop}

theorem within_empty : Within (empty : Book ι) P := fun _ h => absurd rfl h

/-- The places where nothing is held can be left out. -/
theorem Within.restrict (h : Within book P)
    (hzero : ∀ i, P i → ¬ Q i → book i = 0) : Within book Q := by
  intro i hi
  by_contra hnot
  exact hi (hzero i (h i hi) hnot)

variable [DecidableEq ι]

def add (book : Book ι) (place : ι) (amount : Nat) : Book ι :=
  Function.update book place (book place + amount)

def sub (book : Book ι) (place : ι) (amount : Nat) : Book ι :=
  Function.update book place (book place - amount)

def Move.apply (book : Book ι) : Move ι → Book ι
  | .deposit place amount => add book place amount
  | .withdraw place amount => sub book place amount
  | .transfer source target amount =>
      add (sub book source amount) target amount

def applyAll (book : Book ι) (moves : List (Move ι)) : Book ι :=
  moves.foldl Move.apply book

variable {place : ι} {amount : Nat} {moves : List (Move ι)}

theorem Within.add (h : Within book P) (hplace : P place) :
    Within (add book place amount) P := by
  intro i hi
  by_cases heq : i = place
  · exact heq ▸ hplace
  · rw [Holdings.add, Function.update_of_ne heq] at hi
    exact h i hi

theorem Within.sub (h : Within book P) : Within (sub book place amount) P := by
  intro i hi
  apply h
  by_cases heq : i = place
  · subst heq
    rw [Holdings.sub, Function.update_self] at hi
    omega
  · rwa [Holdings.sub, Function.update_of_ne heq] at hi

theorem Within.apply {move : Move ι} (h : Within book P)
    (htarget : ∀ i ∈ move.target, P i) : Within (move.apply book) P := by
  cases move with
  | deposit place amount => exact h.add (htarget place rfl)
  | withdraw place amount => exact h.sub
  | transfer source target amount => exact h.sub.add (htarget target rfl)

/-- Moves that add to places of `P` only leave nothing elsewhere. -/
theorem Within.applyAll (h : Within book P)
    (htargets : ∀ move ∈ moves, ∀ i ∈ move.target, P i) :
    Within (applyAll book moves) P := by
  induction moves generalizing book with
  | nil => exact h
  | cons move rest ih =>
      rw [List.forall_mem_cons] at htargets
      exact ih (h.apply htargets.1) htargets.2

/-! ### The total -/

/-- Something is held in finitely many places only. -/
def Bounded (book : Book ι) : Prop := (Function.support book).Finite

/-- What is held in all places together. -/
noncomputable def total (book : Book ι) : Nat := ∑ᶠ i, book i

omit [DecidableEq ι] in
theorem bounded_empty : Bounded (empty : Book ι) := by
  have hsupport : Function.support (empty : Book ι) = ∅ :=
    Function.support_eq_empty_iff.mpr rfl
  rw [Bounded, hsupport]
  exact Set.finite_empty

omit [DecidableEq ι] in
@[simp] theorem total_empty : total (empty : Book ι) = 0 := finsum_zero

theorem Bounded.update {n : Nat} (h : Bounded book) :
    Bounded (Function.update book place n) := by
  apply (Set.Finite.insert place h).subset
  intro i hi
  by_cases heq : i = place
  · exact Set.mem_insert_iff.mpr (.inl heq)
  · rw [Function.mem_support, Function.update_of_ne heq] at hi
    exact Set.mem_insert_of_mem _ hi

/-- The total follows what is written in one place. -/
theorem total_update {n : Nat} (h : Bounded book) :
    total (Function.update book place n) + book place = total book + n := by
  let places := insert place h.toFinset
  have hmem : place ∈ places := Finset.mem_insert_self _ _
  have hbook : total book = ∑ i ∈ places, book i := by
    apply finsum_eq_sum_of_support_subset
    intro i hi
    exact Finset.mem_insert_of_mem (h.mem_toFinset.mpr hi)
  have hupdated : total (Function.update book place n) =
      ∑ i ∈ places, Function.update book place n i := by
    apply finsum_eq_sum_of_support_subset
    intro i hi
    by_cases heq : i = place
    · exact heq ▸ hmem
    · rw [Function.mem_support, Function.update_of_ne heq] at hi
      exact Finset.mem_insert_of_mem (h.mem_toFinset.mpr hi)
  rw [hbook, hupdated, Finset.sum_update_of_mem hmem,
    Finset.sum_eq_add_sum_sdiff_singleton_of_mem hmem book]
  omega

/-- The place that a move takes from holds what it takes. -/
def Move.Covered (book : Book ι) : Move ι → Prop
  | .deposit _ _ => True
  | .withdraw place amount => amount ≤ book place
  | .transfer source _ amount => amount ≤ book source

/-- What a move brings in from outside. -/
def Move.inflow : Move ι → Nat
  | .deposit _ amount => amount
  | _ => 0

/-- What a move takes out. -/
def Move.outflow : Move ι → Nat
  | .withdraw _ amount => amount
  | _ => 0

/-- What a move takes from a place. -/
def Move.taken (i : ι) : Move ι → Nat
  | .deposit _ _ => 0
  | .withdraw place amount => if i = place then amount else 0
  | .transfer source _ amount => if i = source then amount else 0

omit [DecidableEq ι] in
/-- No place holds more than all places together. -/
theorem le_total (h : Bounded book) (i : ι) : book i ≤ total book := by
  classical
  have hupdated := @total_update _ book _ i 0 h
  omega

omit [DecidableEq ι] in
/-- Nor do some of the places together. -/
theorem sum_le_total (h : Bounded book) (places : Finset ι) :
    ∑ i ∈ places, book i ≤ total book := by
  classical
  have htotal : total book = ∑ i ∈ places ∪ h.toFinset, book i := by
    apply finsum_eq_sum_of_support_subset
    intro i hi
    exact Finset.mem_union_right _ (h.mem_toFinset.mpr hi)
  rw [htotal]
  exact Finset.sum_le_sum_of_subset Finset.subset_union_left

theorem total_add (h : Bounded book) :
    total (add book place amount) = total book + amount := by
  have := @total_update _ book _ place (book place + amount) h
  rw [add]
  omega

theorem total_sub (h : Bounded book) (hcovered : amount ≤ book place) :
    total (sub book place amount) + amount = total book := by
  have := @total_update _ book _ place (book place - amount) h
  rw [sub]
  omega

theorem Bounded.apply {move : Move ι} (h : Bounded book) :
    Bounded (move.apply book) := by
  cases move with
  | deposit place amount => exact h.update
  | withdraw place amount => exact h.update
  | transfer source target amount => exact h.update.update

/-- A covered move changes the total by what it brings in and takes out. -/
theorem total_apply {move : Move ι} (h : Bounded book)
    (hcovered : move.Covered book) :
    total (move.apply book) + move.outflow = total book + move.inflow := by
  cases move with
  | deposit place amount => exact total_add h
  | withdraw place amount => exact total_sub h hcovered
  | transfer source target amount =>
      have hsub : Bounded (sub book source amount) := h.update
      rw [Move.apply, total_add hsub]
      exact total_sub h hcovered

theorem add_at (i : ι) :
    add book place amount i = book i + if i = place then amount else 0 := by
  rw [add, Function.update_apply]
  split
  · next heq => subst heq; rfl
  · rfl

theorem sub_at (i : ι) :
    sub book place amount i = book i - if i = place then amount else 0 := by
  rw [sub, Function.update_apply]
  split
  · next heq => subst heq; rfl
  · rfl

theorem le_add (i : ι) : book i ≤ add book place amount i := by
  rw [add, Function.update_apply]
  split
  · next heq => subst heq; exact Nat.le_add_right _ _
  · exact le_rfl

theorem le_sub (i : ι) :
    book i ≤ sub book place amount i + if i = place then amount else 0 := by
  rw [sub, Function.update_apply]
  split
  · next heq => subst heq; omega
  · exact le_rfl

/-- A move lowers what is held in a place at most by what it takes there. -/
theorem le_apply (move : Move ι) (i : ι) :
    book i ≤ move.apply book i + move.taken i := by
  cases move with
  | deposit place amount => exact le_add i
  | withdraw place amount => exact le_sub i
  | transfer source target amount =>
      exact (le_sub i).trans (Nat.add_le_add_right (le_add i) _)

/-- Nobody gets more than the whole amount. -/
theorem add_le (i : ι) : add book place amount i ≤ book i + amount := by
  rw [add, Function.update_apply]
  split
  · next heq => subst heq; exact le_rfl
  · exact Nat.le_add_right _ _

/-- A covered withdrawal takes the whole amount. -/
theorem sub_self_add (h : amount ≤ book place) :
    sub book place amount place + amount = book place := by
  rw [sub, Function.update_self]
  exact Nat.sub_add_cancel h

/-- A covered transfer leaves its source no more than before, also when it is
the target. -/
theorem transfer_le {target : ι} (h : amount ≤ book place) :
    (Move.transfer place target amount).apply book place ≤ book place := by
  have hback := @add_le ι (sub book place amount) _ target amount place
  rw [sub_self_add h] at hback
  exact hback

end Holdings
