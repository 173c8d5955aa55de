/-
The rate of a pool without slashing.  The fees of an activation are minted at
the old rate and are worth at most the reward, so at the old rate the shares
stay covered, and the new rate is the largest one at which they are.
-/
import NeutronContracts.Properties.ExchangeRate

namespace NeutronContracts

open StakeManager Fallible Fund

variable {store store' : Storage} {querier : Querier} {a : String}
  {p : PoolInfo} {stackInfo : Stack} {rsp : Response}

theorem rateOf_eq {active shares rate : Nat} (hshares : 0 < shares)
    (h : rateOf active shares = .ok rate) :
    rate = rateFor calBase shares active := by
  unfold rateOf at h
  rw [if_pos hshares] at h
  simp only [bind_eq_ok, mulBelow_eq_ok, divExact_eq_ok] at h
  obtain ⟨_, ⟨-, rfl⟩, -, rfl⟩ := h
  rfl

/-- What an activation without a loss finds still covers the shares at the old
rate, its fees included. -/
theorem covered_of_reward (act : Activation p stackInfo) (hbacked : Backed p)
    (hfee : p.platformFeeCommission ≤ calBase)
    (htotal : p.eraSnapshot.active ≤ act.totalAmount) :
    Covered calBase p.rate
      (p.totalLsdTokenAmount + act.platformFee + act.stackFee)
      act.plainActive := by
  have hshares := protocolFees_ok act.fees
  have hactive : act.plainActive =
      p.active + (act.totalAmount - p.eraSnapshot.active) := by
    have hafter := activeAfterEra_ok act.active
    omega
  rw [Nat.add_assoc, hshares, hactive]
  exact Covered.reward hbacked hfee

/-- The rate that an activation without a loss computes is at least the old
one. -/
theorem rate_le_plainRate (act : Activation p stackInfo) (hbacked : Backed p)
    (hfee : p.platformFeeCommission ≤ calBase)
    (htotal : p.eraSnapshot.active ≤ act.totalAmount)
    (hshares : 0 < p.totalLsdTokenAmount + act.platformFee + act.stackFee) :
    p.rate ≤ act.plainRate := by
  rw [rateOf_eq hshares act.rate]
  exact (covered_iff_le_rateFor hshares).mp
    (covered_of_reward act hbacked hfee htotal)

/-- An activation that finds no loss and leaves shares does not take the
correction of the first stake, does not lower the rate and leaves the shares
backed. -/
theorem rate_never_falls (hp : store.pools a = some p)
    (hbacked : Backed p) (hfee : p.platformFeeCommission ≤ calBase)
    (htotal : ∀ delegations, queryDelegationByAddr store querier a
      p.sdkGreaterOrEqualV047 = .ok delegations →
      p.eraSnapshot.active ≤ (delegations.result.map (·.amount.amount)).sum)
    (h : executeEraActive store querier a = .ok (store', rsp)) :
    ∃ p' stackInfo, ∃ act : Activation p stackInfo,
      store.stack = some stackInfo ∧
      eraTotalAmount store querier a p = .ok act.totalAmount ∧
      store'.pools a = some p' ∧ p' = act.apply ∧
      (0 < p'.totalLsdTokenAmount →
        p.rate ≤ p'.rate ∧ ¬ Corrected p act.plainRate act.plainActive ∧
          p'.rate = act.plainRate ∧ p'.active = act.plainActive ∧
          Backed p') := by
  obtain ⟨q, stackInfo, act, fees, icq, next, hq, -, -, hstack, hsum, hstore,
    -⟩ := executeEraActive_ok h
  obtain rfl := Option.some.inj (hp.symm.trans hq)
  have hpool : store'.pools a = some act.apply := by
    rw [hstore]
    exact Map.save_self
  obtain ⟨delegations, hquery, -, hdelegated⟩ := eraTotalAmount_ok hsum
  have hnoloss := htotal delegations hquery
  rw [← hdelegated] at hnoloss
  refine ⟨act.apply, stackInfo, act, hstack, hsum, hpool, rfl,
    fun hshares => ?_⟩
  have hrate := rate_le_plainRate act hbacked hfee hnoloss hshares
  have hplain : ¬ Corrected p act.plainRate act.plainActive := by
    rintro ⟨hdefault, hbelow, -⟩
    rw [hdefault] at hrate
    exact Nat.not_lt.mpr hrate hbelow
  rcases correctFirstStake_ok act.corrected with ⟨hcorrected, -⟩ |
    ⟨-, hnewRate, hnewActive⟩
  · exact absurd hcorrected hplain
  · refine ⟨?_, hplain, hnewRate, hnewActive,
      backed_of_active act hbacked hfee⟩
    change p.rate ≤ act.newRate
    rw [hnewRate]
    exact hrate

/-- The result of a call is no smaller than the snapshot. -/
def Sample.noLoss (p : PoolInfo) (queried : QueryResult (List Delegation)) :
    Bool :=
  decide (p.eraSnapshot.active ≤ (queried.result.map (·.amount.amount)).sum)

/-- A reward of 50 on a stake of 1000 raises the rate. -/
theorem rate_never_falls_sample : ∃ w p store' rsp p',
    Sample.run (Sample.setup ++ Sample.firstBond ++ Sample.collected ++
      Sample.activated.take 2) = some w ∧
    w.store.pools Sample.pool = some p ∧
    executeEraActive w.store (Sample.querier 4 [("val1", 1050)] 0)
      Sample.pool = .ok (store', rsp) ∧
    store'.pools Sample.pool = some p' ∧
    (0 < p'.totalLsdTokenAmount → p.rate ≤ p'.rate) := by
  obtain ⟨w, p, hw, hp, htest⟩ := Sample.exists_of_run
    (Sample.setup ++ Sample.firstBond ++ Sample.collected ++
      Sample.activated.take 2)
    (fun w p =>
      (executeEraActive w.store (Sample.querier 4 [("val1", 1050)] 0)
        Sample.pool).toOption.isSome &&
      decide (p.rate * p.totalLsdTokenAmount ≤ p.active * calBase) &&
      decide (p.platformFeeCommission ≤ calBase) &&
      (queryDelegationByAddr w.store (Sample.querier 4 [("val1", 1050)] 0)
        Sample.pool p.sdkGreaterOrEqualV047).toOption.all (Sample.noLoss p))
    (by decide +kernel)
  simp only [Bool.and_eq_true, decide_eq_true_eq,
    Option.isSome_iff_exists] at htest
  obtain ⟨⟨⟨⟨⟨store', rsp⟩, hactive⟩, hbacked⟩, hfee⟩, hnoloss⟩ := htest
  have hactive := toOption_eq_some.mp hactive
  obtain ⟨p', _, _, -, -, hp', -, hgrowth⟩ := rate_never_falls hp hbacked hfee
    (fun queried hquery => by
      rw [toOption_eq_some.mpr hquery] at hnoloss
      exact of_decide_eq_true hnoloss) hactive
  exact ⟨w, p, store', rsp, p', hw, hp, hactive, hp',
    fun hshares => (hgrowth hshares).1⟩

end NeutronContracts
