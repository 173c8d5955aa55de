/-
What `allocate_unbond_amount` chooses.  The loop fills the amount from the
largest delegations downwards, passing over the validators without a free
unbonding entry, so it fails exactly when the others together are too small.
-/
import NeutronContracts.Lib.Greedy
import NeutronContracts.Properties.UnbondSlots

namespace NeutronContracts

open Fallible

namespace StakeManager

/-- The validator has a free unbonding entry, its oldest time not counted when
it has expired. -/
def Eligible (store : Storage) (currentTime period : Nat)
    (delegation : Delegation) : Prop :=
  (Window.expire currentTime period
    (unbondTimes store delegation.delegator delegation.validator)).length < 7

instance (store : Storage) (currentTime period : Nat) :
    DecidablePred (Eligible store currentTime period) :=
  fun _ => inferInstanceAs (Decidable (_ < _))

/-- What the eligible validators offer, in the order of the delegations. -/
def capacities (store : Storage) (currentTime period : Nat)
    (delegations : List Delegation) : List (String × Nat) :=
  (delegations.filter fun delegation =>
      decide (Eligible store currentTime period delegation)).map
    fun delegation => (delegation.validator, delegation.amount.amount)

/-- The delegations of the eligible validators. -/
def eligibleTotal (store : Storage) (currentTime period : Nat)
    (delegations : List Delegation) : Nat :=
  ((capacities store currentTime period delegations).map Prod.snd).sum

/-- The end of the unbonding period of every oldest time is a 64-bit number. -/
def PeriodsFit (store : Storage) (period : Nat)
    (delegations : List Delegation) : Prop :=
  ∀ delegation ∈ delegations, ∀ oldest ∈
    (unbondTimes store delegation.delegator delegation.validator).head?,
    oldest + period < U64.limit

instance (store : Storage) (period : Nat) (delegations : List Delegation) :
    Decidable (PeriodsFit store period delegations) :=
  inferInstanceAs (Decidable (∀ delegation ∈ delegations, ∀ oldest ∈
    (unbondTimes store delegation.delegator delegation.validator).head?,
    oldest + period < U64.limit))

/-- The amounts are positive, make up the whole, name distinct validators that
are eligible and whose delegations cover them, and all but the last are whole
delegations. -/
structure Allocation (store : Storage) (currentTime period : Nat)
    (delegations : List Delegation) (unbondAmount : Nat)
    (infos : List ValidatorUnbondInfo) : Prop where
  positive : ∀ info ∈ infos, 0 < info.unbondAmount
  total : (infos.map (·.unbondAmount)).sum = unbondAmount
  distinct : (infos.map (·.validator)).Nodup
  covered : ∀ info ∈ infos, ∃ delegation ∈ delegations,
    Eligible store currentTime period delegation ∧
    delegation.validator = info.validator ∧
    info.unbondAmount ≤ delegation.amount.amount
  whole : ∀ info ∈ infos.dropLast, ∃ delegation ∈ delegations,
    delegation.validator = info.validator ∧
    info.unbondAmount = delegation.amount.amount

section

variable {store next : Storage} {currentTime period remaining left : Nat}
  {infos result : List ValidatorUnbondInfo} {full : Bool}
  {delegation : Delegation} {rest delegations : List Delegation}

/-! ### One visit -/

theorem eligible_of_clear
    (h : clearTimestamps store currentTime period delegation.delegator
      delegation.validator = .ok (next, full)) :
    full = false ↔ Eligible store currentTime period delegation := by
  obtain ⟨htimes, hfull⟩ := clearTimestamps_times h
  rw [htimes, if_pos rfl] at hfull
  rw [Eligible, ← Nat.not_le, ← hfull, Bool.not_eq_true]

/-- A visit leaves the times of the other validators alone. -/
theorem unbondTimes_of_clear
    (h : clearTimestamps store currentTime period delegation.delegator
      delegation.validator = .ok (next, full))
    (hnot : delegation.validator ∉ rest.map (·.validator)) :
    ∀ other ∈ rest, unbondTimes next other.delegator other.validator =
      unbondTimes store other.delegator other.validator := by
  intro other hother
  rw [(clearTimestamps_times h).1, if_neg]
  rintro hkey
  exact hnot ((Prod.mk.inj hkey).2 ▸ List.mem_map_of_mem hother)

theorem capacities_congr
    (h : ∀ other ∈ rest, unbondTimes next other.delegator other.validator =
      unbondTimes store other.delegator other.validator) :
    capacities next currentTime period rest =
      capacities store currentTime period rest := by
  have hsame : ∀ other ∈ rest, decide (Eligible next currentTime period other) =
      decide (Eligible store currentTime period other) := by
    intro other hother
    rw [decide_eq_decide, Eligible, Eligible, h other hother]
  rw [capacities, capacities, List.filter_congr hsame]

theorem capacities_cons :
    capacities store currentTime period (delegation :: rest) =
      if Eligible store currentTime period delegation then
        (delegation.validator, delegation.amount.amount) ::
          capacities store currentTime period rest
      else capacities store currentTime period rest := by
  by_cases heligible : Eligible store currentTime period delegation
  · simp [capacities, heligible]
  · simp [capacities, heligible]

theorem clearTimestamps_defined (currentTime : Nat)
    (h : ∀ oldest ∈ (unbondTimes store delegation.delegator
      delegation.validator).head?, oldest + period < U64.limit) :
    ∃ cleared, clearTimestamps store currentTime period delegation.delegator
      delegation.validator = .ok cleared := by
  unfold clearTimestamps
  split
  · exact ⟨_, rfl⟩
  · exact ⟨_, rfl⟩
  · rename_i oldest later hsome
    have hfits : oldest + period < U64.limit :=
      h oldest (by simp [unbondTimes, hsome])
    refine exists_bind_eq_ok.mpr ⟨_, addBelow_eq_ok.mpr ⟨hfits, rfl⟩, ?_⟩
    split
    · exact ⟨_, rfl⟩
    · exact ⟨_, rfl⟩

/-! ### The loop -/

/-- The loop fills what remains from the eligible validators. -/
theorem Allocates.fill (hnodup : (delegations.map (·.validator)).Nodup)
    (h : Allocates currentTime period store remaining infos delegations next
      left result) :
    ∃ chosen, result = infos ++ chosen ∧
      Greedy.fill remaining
          (capacities store currentTime period delegations) =
        (left, chosen.map fun info => (info.validator, info.unbondAmount)) := by
  induction h with
  | nil => exact ⟨[], (List.append_nil _).symm, rfl⟩
  | enough => exact ⟨[], (List.append_nil _).symm, Greedy.fill_zero _⟩
  | @skip store middle _ _ _ _ _ delegation rest hmore hclear hrest ih =>
      rw [List.map_cons, List.nodup_cons] at hnodup
      have hsame : capacities middle currentTime period rest =
          capacities store currentTime period rest :=
        capacities_congr (unbondTimes_of_clear hclear hnodup.1)
      obtain ⟨chosen, hresult, hfill⟩ := ih hnodup.2
      refine ⟨chosen, hresult, ?_⟩
      rw [capacities_cons, if_neg (by simp [← eligible_of_clear hclear]),
        ← hsame, hfill]
  | @choose store middle _ _ _ _ _ delegation rest hmore hclear hrest ih =>
      rw [List.map_cons, List.nodup_cons] at hnodup
      have hsame : capacities middle currentTime period rest =
          capacities store currentTime period rest :=
        capacities_congr (unbondTimes_of_clear hclear hnodup.1)
      obtain ⟨chosen, hresult, hfill⟩ := ih hnodup.2
      rw [List.append_assoc] at hresult
      refine ⟨_, hresult, ?_⟩
      rw [capacities_cons, if_pos ((eligible_of_clear hclear).mp rfl),
        Greedy.fill_cons hmore, ← hsame, hfill]
      rfl

theorem allocateLoop_defined (currentTime remaining : Nat)
    (infos : List ValidatorUnbondInfo)
    (hnodup : (delegations.map (·.validator)).Nodup)
    (hfits : PeriodsFit store period delegations) :
    ∃ last, allocateLoop currentTime period store remaining infos
      delegations = .ok last := by
  induction delegations generalizing store remaining infos with
  | nil => exact ⟨_, rfl⟩
  | cons delegation rest ih =>
      rw [List.map_cons, List.nodup_cons] at hnodup
      rw [PeriodsFit, List.forall_mem_cons] at hfits
      rw [allocateLoop]
      by_cases hdone : remaining = 0
      · exact ⟨_, if_pos hdone⟩
      · rw [if_neg hdone]
        obtain ⟨⟨middle, full⟩, hclear⟩ :=
          clearTimestamps_defined currentTime hfits.1
        have hrest : PeriodsFit middle period rest := by
          intro other hother
          rw [unbondTimes_of_clear hclear hnodup.1 other hother]
          exact hfits.2 other hother
        refine exists_bind_eq_ok.mpr ⟨_, hclear, ?_⟩
        dsimp only
        split
        · exact ih _ _ hnodup.2 hrest
        · exact ih _ _ hnodup.2 hrest

/-! ### The allocation -/

theorem eligibleTotal_perm {other : List Delegation}
    (h : other.Perm delegations) :
    eligibleTotal store currentTime period other =
      eligibleTotal store currentTime period delegations :=
  (((h.filter _).map _).map _).sum_eq

/-- The delegations in the order in which the loop visits them. -/
def byAmount (delegations : List Delegation) : List Delegation :=
  delegations.insertionSort fun a b => b.amount.amount ≤ a.amount.amount

theorem byAmount_perm (delegations : List Delegation) :
    (byAmount delegations).Perm delegations :=
  List.perm_insertionSort _ delegations

theorem byAmount_sorted : (byAmount delegations).Pairwise
    fun d later => later.amount.amount ≤ d.amount.amount := by
  refine @List.pairwise_insertionSort _ _ _ ⟨?_⟩ ⟨?_⟩ delegations
  · exact fun a b => Nat.le_total b.amount.amount a.amount.amount
  · exact fun a b c hab hbc => hbc.trans hab

theorem capacities_byAmount_sorted :
    (capacities store currentTime period (byAmount delegations)).Pairwise
      fun cap later => later.2 ≤ cap.2 :=
  List.pairwise_map.mpr (byAmount_sorted.filter _)

theorem mem_capacities {cap : String × Nat}
    (h : cap ∈ capacities store currentTime period (byAmount delegations)) :
    ∃ delegation ∈ delegations, Eligible store currentTime period delegation ∧
      delegation.validator = cap.1 ∧ delegation.amount.amount = cap.2 := by
  obtain ⟨delegation, hmem, rfl⟩ := List.mem_map.mp h
  obtain ⟨hmem, heligible⟩ := List.mem_filter.mp hmem
  exact ⟨delegation, (byAmount_perm delegations).mem_iff.mp hmem,
    of_decide_eq_true heligible, rfl, rfl⟩

theorem capacities_nodup (h : (delegations.map (·.validator)).Nodup) :
    ((capacities store currentTime period delegations).map Prod.fst).Nodup := by
  have hkeys : (capacities store currentTime period delegations).map Prod.fst =
      (delegations.filter fun delegation =>
        decide (Eligible store currentTime period delegation)).map
          (·.validator) := by
    simp [capacities, Function.comp_def]
  rw [hkeys]
  exact h.sublist (List.filter_sublist.map _)

theorem allocation_of_ok {unbondAmount : Nat}
    (hnodup : (delegations.map (·.validator)).Nodup)
    (h : allocateUnbondAmount store currentTime delegations unbondAmount
      period = .ok (next, infos)) :
    unbondAmount ≤ eligibleTotal store currentTime period delegations ∧
      Allocation store currentTime period delegations unbondAmount infos := by
  have hvisited : ((byAmount delegations).map (·.validator)).Nodup :=
    ((byAmount_perm delegations).map _).nodup_iff.mpr hnodup
  obtain ⟨chosen, rfl, hfill⟩ := (allocateUnbondAmount_ok h).fill hvisited
  -- what the abstract filling says, read off the list of the infos
  have hleft := Greedy.fill_left unbondAmount
    (capacities store currentTime period (byAmount delegations))
  have hsum := Greedy.fill_sum unbondAmount
    (capacities store currentTime period (byAmount delegations))
  have hkeys := Greedy.fill_keys unbondAmount
    (capacities store currentTime period (byAmount delegations))
  have hle := Greedy.fill_le unbondAmount
    (capacities store currentTime period (byAmount delegations))
  have hfull := Greedy.fill_full unbondAmount
    (capacities store currentTime period (byAmount delegations))
  have hpos := Greedy.fill_pos capacities_byAmount_sorted
    (congrArg Prod.fst hfill)
  rw [hfill] at hleft hsum hkeys hle hfull hpos
  simp only [List.map_map, Function.comp_def] at hsum hkeys
  constructor
  · rw [← eligibleTotal_perm (byAmount_perm delegations)]
    exact Nat.sub_eq_zero_iff_le.mp hleft.symm
  constructor
  case positive =>
      intro info hinfo
      exact hpos _ (List.mem_map_of_mem hinfo)
  case total => exact hsum
  case distinct =>
      exact (capacities_nodup hvisited).sublist hkeys.sublist
  case covered =>
      intro info hinfo
      obtain ⟨cap, hcap, hkey, hamount⟩ := hle _ (List.mem_map_of_mem hinfo)
      obtain ⟨delegation, hmem, heligible, hvalidator, hsame⟩ :=
        mem_capacities hcap
      exact ⟨delegation, hmem, heligible, hvalidator.trans hkey,
        hamount.trans_eq hsame.symm⟩
  case whole =>
      intro info hinfo
      rw [← List.map_dropLast] at hfull
      obtain ⟨delegation, hmem, -, hvalidator, hsame⟩ :=
        mem_capacities (hfull.subset (List.mem_map_of_mem hinfo))
      exact ⟨delegation, hmem, hvalidator, hsame.symm⟩

theorem allocate_of_enough {unbondAmount : Nat}
    (hnodup : (delegations.map (·.validator)).Nodup)
    (hfits : PeriodsFit store period delegations)
    (henough : unbondAmount ≤
      eligibleTotal store currentTime period delegations) :
    ∃ next infos, allocateUnbondAmount store currentTime delegations
      unbondAmount period = .ok (next, infos) := by
  have hvisited : ((byAmount delegations).map (·.validator)).Nodup :=
    ((byAmount_perm delegations).map _).nodup_iff.mpr hnodup
  have hfits' : PeriodsFit store period (byAmount delegations) :=
    fun d hd => hfits d ((byAmount_perm delegations).mem_iff.mp hd)
  obtain ⟨⟨next, left, infos⟩, hloop⟩ :=
    allocateLoop_defined currentTime unbondAmount [] hvisited hfits'
  obtain ⟨_, -, hfill⟩ := (allocates_of_ok hloop).fill hvisited
  have hleft := Greedy.fill_left unbondAmount
    (capacities store currentTime period (byAmount delegations))
  rw [hfill] at hleft
  rw [← eligibleTotal_perm (byAmount_perm delegations)] at henough
  have hdone : left = 0 := hleft.trans (Nat.sub_eq_zero_of_le henough)
  refine ⟨next, infos, ?_⟩
  simp only [allocateUnbondAmount, bind_eq_ok, Prod.exists, rejectIf_eq_ok,
    not_not, pure_eq_ok]
  exact ⟨next, left, infos, hloop, (), hdone, rfl⟩

end

/-- For delegations to distinct validators an allocation that is made is exact
and drawn from eligible validators that offer enough; and when no unbonding
period ends beyond the 64-bit range, it is made exactly when they do. -/
theorem allocation_exact {store : Storage} {currentTime period : Nat}
    {delegations : List Delegation} {unbondAmount : Nat}
    (hnodup : (delegations.map (·.validator)).Nodup)
    (hpos : 0 < unbondAmount) :
    (∀ next infos, allocateUnbondAmount store currentTime delegations
        unbondAmount period = .ok (next, infos) →
      unbondAmount ≤ eligibleTotal store currentTime period delegations ∧
        infos ≠ [] ∧
        Allocation store currentTime period delegations unbondAmount infos) ∧
    (PeriodsFit store period delegations →
      ((∃ next infos, allocateUnbondAmount store currentTime delegations
        unbondAmount period = .ok (next, infos)) ↔
      unbondAmount ≤ eligibleTotal store currentTime period delegations)) := by
  refine ⟨fun next infos h => ?_, fun hfits => ⟨?_, ?_⟩⟩
  · obtain ⟨henough, halloc⟩ := allocation_of_ok hnodup h
    refine ⟨henough, ?_, halloc⟩
    rintro rfl
    exact hpos.ne halloc.total
  · rintro ⟨next, infos, h⟩
    exact (allocation_of_ok hnodup h).1
  · exact allocate_of_enough hnodup hfits

namespace Sample

/-- Two delegations; the validator of the smaller one has an undelegation on
record. -/
def report : List Delegation :=
  [⟨"pool", "val1", ⟨"uatom", 10⟩⟩, ⟨"pool", "val2", ⟨"uatom", 30⟩⟩]

def recorded : Storage :=
  Storage.blank.saveUnbondsTime "pool" "val1" [1700000000]

/-- The most days whose seconds are a 64-bit number. -/
def longPeriod : Nat := 213503982334601 * 86400

end Sample

theorem allocation_exact_sample :
    ∃ next infos, allocateUnbondAmount Sample.recorded 1700086400
        Sample.report 35 1814400 = .ok (next, infos) ∧
      (infos.map (·.unbondAmount)).sum = 35 := by
  have hnodup : (Sample.report.map (·.validator)).Nodup := by decide
  have hall := @allocation_exact Sample.recorded 1700086400 1814400
    Sample.report 35 hnodup (by decide)
  obtain ⟨next, infos, h⟩ := (hall.2 (by decide)).mpr (by decide)
  exact ⟨next, infos, h, (hall.1 next infos h).2.2.total⟩

/-- Enough is offered, but a configured period is so long that its end
overflows. -/
theorem allocation_exact_fails :
    Sample.longPeriod < U64.limit ∧
      (Sample.report.map (·.validator)).Nodup ∧
      ¬ ((∃ next infos, allocateUnbondAmount Sample.recorded 1700086400
          Sample.report 35 Sample.longPeriod = .ok (next, infos)) ↔
        35 ≤ eligibleTotal Sample.recorded 1700086400 Sample.longPeriod
          Sample.report) := by
  have hfail : (allocateUnbondAmount Sample.recorded 1700086400 Sample.report
      35 Sample.longPeriod).toOption.isNone = true := by decide
  refine ⟨by decide, by decide, fun hiff => ?_⟩
  obtain ⟨next, infos, h⟩ := hiff.mpr (by decide)
  simp [h, Except.toOption] at hfail

end StakeManager

end NeutronContracts
