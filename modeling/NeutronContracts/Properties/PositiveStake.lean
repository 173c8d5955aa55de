/-
When every delegation and undelegation of a transaction is for a positive
amount.  The rebond step, `execute_pool_delegate` and a large bond step divide
by the number of validators without looking whether there is a unit for each.
-/
import NeutronContracts.Properties.NetStake

namespace NeutronContracts

open Fallible

namespace StakeManager

/-- No delegation and no undelegation is for nothing. -/
structure AllPositive (msgs : List ProtobufAny) : Prop where
  delegations : ∀ x ∈ delegatedAmounts msgs, 0 < x
  undelegations : ∀ x ∈ undelegatedAmounts msgs, 0 < x

section

variable {store next : Storage} {querier : Querier} {env : Env}
  {a denom text : String} {p : PoolInfo} {validators : List String}
  {delegations : List Delegation} {infos result : List ValidatorUnbondInfo}
  {msgs : List ProtobufAny} {selectVals : List String}
  {amount total currentTime period remaining left : Nat}

/-! ### Splits -/

theorem allPositive_split (a denom : String) (total : Nat)
    (hne : validators ≠ []) :
    AllPositive (splitDelegations a denom (total / validators.length)
        (total - total / validators.length * validators.length) validators) ↔
      validators.length ≤ total := by
  rw [← EvenSplit.shares_pos_iff (List.length_pos_of_ne_nil hne),
    ← delegatedAmounts_split a denom total validators]
  constructor
  · exact fun h => h.delegations
  · intro hpos
    refine ⟨hpos, ?_⟩
    rw [undelegatedAmounts_split]
    exact fun x hx => absurd hx List.not_mem_nil

/-! ### Undelegations -/

/-- What remains after the loop is at least what its delegations lack. -/
theorem Allocates.le_left
    (h : Allocates currentTime period store remaining infos delegations next
      left result) :
    remaining ≤ left + (delegations.map (·.amount.amount)).sum := by
  induction h with
  | nil => exact Nat.le_add_right _ _
  | enough => exact Nat.zero_le _
  | skip hmore hclear hrest ih =>
      rw [List.map_cons, List.sum_cons]
      omega
  | choose hmore hclear hrest ih =>
      rw [List.map_cons, List.sum_cons]
      omega

/-- From the largest delegation downwards, a loop that covers everything takes
something from everybody it chooses. -/
theorem Allocates.pos
    (h : Allocates currentTime period store remaining infos delegations next
      left result)
    (hdone : left = 0)
    (hsorted : delegations.Pairwise fun d later =>
      later.amount.amount ≤ d.amount.amount)
    (hinfos : ∀ info ∈ infos, 0 < info.unbondAmount) :
    ∀ info ∈ result, 0 < info.unbondAmount := by
  induction h with
  | nil => exact hinfos
  | enough => exact hinfos
  | skip hmore hclear hrest ih =>
      exact ih hdone (List.pairwise_cons.mp hsorted).2 hinfos
  | @choose _ _ _ _ _ _ _ delegation rest hmore hclear hrest ih =>
      rw [List.pairwise_cons] at hsorted
      apply ih hdone hsorted.2
      intro info hinfo
      rcases List.mem_append.mp hinfo with hold | hnew
      · exact hinfos info hold
      · obtain rfl := List.mem_singleton.mp hnew
        by_contra hzero
        have hamount : delegation.amount.amount = 0 := by
          dsimp only at hzero
          omega
        -- nothing is left to take from the smaller delegations
        have hnothing : (rest.map (·.amount.amount)).sum = 0 := by
          refine List.sum_eq_zero fun x hx => ?_
          obtain ⟨later, hlater, rfl⟩ := List.mem_map.mp hx
          exact Nat.le_zero.mp (hamount ▸ hsorted.1 later hlater)
        have hleft := hrest.le_left
        omega

theorem Unbonds.pos (h : Unbonds store env p delegations amount next infos) :
    ∀ info ∈ infos, 0 < info.unbondAmount := by
  cases h with
  | nothing hzero => exact fun info hinfo => absurd hinfo List.not_mem_nil
  | allocated hpos hne halloc =>
      exact (allocateUnbondAmount_ok halloc).pos rfl byAmount_sorted
        fun info hinfo => absurd hinfo List.not_mem_nil

theorem withdrawRewardTxs_eq_map (a : String) (validators ops : List String) :
    ∃ others : List String, withdrawRewardTxs a validators ops =
      others.map (genWithdrawRewardTxs a) := by
  unfold withdrawRewardTxs
  split
  · exact ⟨_, rfl⟩
  · exact ⟨[], rfl⟩

theorem allPositive_exits (delegatingVals : List String)
    (h : Unbonds store env p delegations amount next infos) :
    AllPositive (infos.map (fun unbond =>
        genUndelegateTxs a unbond.validator denom unbond.unbondAmount) ++
      withdrawRewardTxs a delegatingVals (infos.map (·.validator))) := by
  obtain ⟨others, hothers⟩ := withdrawRewardTxs_eq_map a delegatingVals
    (infos.map (·.validator))
  rw [hothers]
  have hdelegated := delegated_exitMsgs a denom infos others
  have hamounts := undelegatedAmounts_exitMsgs a denom infos others
  rw [exitMsgs] at hdelegated hamounts
  constructor
  · rw [delegatedAmounts, hdelegated]
    exact fun x hx => absurd hx List.not_mem_nil
  · rw [hamounts]
    intro x hx
    obtain ⟨info, hinfo, rfl⟩ := List.mem_map.mp hx
    exact h.pos info hinfo

/-! ### Bond steps that stake -/

/-- A small stake goes to one validator; a larger one is split. -/
theorem allPositive_stake (h : eraStakeMsgs a p selectVals = .ok msgs)
    (hmore : p.eraSnapshot.unbond < p.eraSnapshot.bond) :
    AllPositive msgs ↔
      p.eraSnapshot.bond - p.eraSnapshot.unbond < stakeSplitThreshold ∨
        selectVals.length ≤ p.eraSnapshot.bond - p.eraSnapshot.unbond := by
  cases selectVals with
  | nil => cases h
  | cons first rest =>
      simp only [eraStakeMsgs, bind_eq_ok, rejectIf_eq_ok] at h
      obtain ⟨_, -, h⟩ := h
      by_cases hsmall :
          p.eraSnapshot.bond - p.eraSnapshot.unbond < stakeSplitThreshold
      · rw [if_pos hsmall] at h
        cases h
        refine iff_of_true ?_ (.inl hsmall)
        rw [← List.singleton_append]
        constructor
        · rw [delegatedAmounts, delegated_append, delegated_rewards]
          intro x hx
          obtain rfl := List.mem_singleton.mp hx
          exact Nat.sub_pos_of_lt hmore
        · rw [undelegatedAmounts_append, undelegatedAmounts_rewards]
          exact fun x hx => absurd hx List.not_mem_nil
      · rw [if_neg hsmall] at h
        cases h
        rw [or_iff_right hsmall]
        exact allPositive_split a p.remoteDenom _ (List.cons_ne_nil first rest)

end

/-! ### The three calls -/

section

variable {store store' : Storage} {querier : Querier} {env : Env}
  {info : MessageInfo} {a : String} {p : PoolInfo} {rsp : Response}
  {selectVals : List String} {stakeAmount : Nat}

theorem bond_positive_iff (hp : store.pools a = some p)
    (h : executeEraBond store querier env info a selectVals =
      .ok (store', rsp)) :
    AllPositive rsp.txMsgs ↔
      p.eraSnapshot.bond - p.eraSnapshot.unbond < stakeSplitThreshold ∨
        selectVals.length ≤ p.eraSnapshot.bond - p.eraSnapshot.unbond := by
  obtain ⟨next, sub, payload, -, -, hmsgs⟩ := executeEraBond_msgs hp h
  replace hmsgs := bondMsgs_of_ok hmsgs
  generalize rsp.txMsgs = msgs, payload.message = text at hmsgs ⊢
  cases hmsgs with
  | unbond hless hquery hfresh hunbonds =>
      refine iff_of_true (allPositive_exits _ hunbonds) (.inl ?_)
      rw [Nat.sub_eq_zero_of_le hless]
      decide
  | stake hmore hstake => exact allPositive_stake hstake hmore

theorem rebond_positive_iff (hp : store.pools a = some p)
    (h : executeEraRebond store querier info a selectVals =
      .ok (store', rsp)) :
    AllPositive rsp.txMsgs ↔ p.eraSnapshot.restakeAmount = 0 ∨
      selectVals.length ≤ p.eraSnapshot.restakeAmount := by
  rcases executeEraRebond_msgs hp h with ⟨hzero, hmsgs⟩ | ⟨hmore, hne, hmsgs⟩
  · rw [hmsgs]
    refine iff_of_true ⟨?_, ?_⟩ (.inl hzero)
    · exact fun x hx => absurd hx List.not_mem_nil
    · exact fun x hx => absurd hx List.not_mem_nil
  · rw [hmsgs, or_iff_right hmore]
    exact allPositive_split a p.remoteDenom p.eraSnapshot.restakeAmount hne

theorem delegate_positive_iff (hp : store.pools a = some p)
    (h : executePoolDelegate store querier info a stakeAmount =
      .ok (store', rsp)) :
    AllPositive rsp.txMsgs ↔ p.validatorAddrs.length ≤ stakeAmount := by
  obtain ⟨hne, hmsgs⟩ := executePoolDelegate_msgs hp h
  rw [hmsgs]
  exact allPositive_split a p.remoteDenom stakeAmount hne

end

/-- An accepted bond step, rebond step or pool delegation sends no message for
nothing exactly when it does not split less than one unit for each
validator. -/
theorem positive_amounts_iff {store store' : Storage} {querier : Querier}
    {info : MessageInfo} {a : String} {p : PoolInfo} {rsp : Response}
    (hp : store.pools a = some p) :
    (∀ env selectVals,
      executeEraBond store querier env info a selectVals =
        .ok (store', rsp) →
      (AllPositive rsp.txMsgs ↔
        p.eraSnapshot.bond - p.eraSnapshot.unbond < stakeSplitThreshold ∨
          selectVals.length ≤
            p.eraSnapshot.bond - p.eraSnapshot.unbond)) ∧
    (∀ selectVals, executeEraRebond store querier info a selectVals =
        .ok (store', rsp) →
      (AllPositive rsp.txMsgs ↔ p.eraSnapshot.restakeAmount = 0 ∨
        selectVals.length ≤ p.eraSnapshot.restakeAmount)) ∧
    (∀ stakeAmount, executePoolDelegate store querier info a stakeAmount =
        .ok (store', rsp) →
      (AllPositive rsp.txMsgs ↔ p.validatorAddrs.length ≤ stakeAmount)) :=
  ⟨fun _ _ => bond_positive_iff hp, fun _ => rebond_positive_iff hp,
    fun _ => delegate_positive_iff hp⟩

end StakeManager

namespace Sample

open StakeManager

/-- A reward of 50 that is rebonded over 51 entries of one validator. -/
def manyVals : List String := List.replicate 51 "val1"

theorem exists_rebond :
    ∃ (store store' : Storage) (p : PoolInfo) (rsp : Response),
      store.pools pool = some p ∧ p.eraSnapshot.restakeAmount = 50 ∧
      executeEraRebond store (querier 3 [] 0) ⟨user, fee⟩ pool manyVals =
        .ok (store', rsp) := by
  obtain ⟨w, p, -, hp, htest⟩ := exists_of_run
    (setup ++ firstBond ++ collected)
    (fun w p => decide (p.eraSnapshot.restakeAmount = 50) &&
      (executeEraRebond w.store (querier 3 [] 0) ⟨user, fee⟩ pool
        manyVals).toOption.isSome) (by decide +kernel)
  rw [Bool.and_eq_true, decide_eq_true_eq] at htest
  obtain ⟨⟨store', rsp⟩, hrebond⟩ := Option.isSome_iff_exists.mp htest.2
  exact ⟨w.store, store', p, rsp, hp, htest.1, toOption_eq_some.mp hrebond⟩

theorem exists_delegate :
    ∃ (store store' : Storage) (p : PoolInfo) (rsp : Response),
      store.pools pool = some p ∧ p.validatorAddrs.length = 2 ∧
      executePoolDelegate store (querier 1 [] 0) ⟨admin, fee⟩ pool 1 =
        .ok (store', rsp) := by
  obtain ⟨w, p, -, hp, htest⟩ := exists_of_run setup
    (fun w p => decide (p.validatorAddrs.length = 2) &&
      (executePoolDelegate w.store (querier 1 [] 0) ⟨admin, fee⟩ pool
        1).toOption.isSome) (by decide +kernel)
  rw [Bool.and_eq_true, decide_eq_true_eq] at htest
  obtain ⟨⟨store', rsp⟩, hdelegate⟩ := Option.isSome_iff_exists.mp htest.2
  exact ⟨w.store, store', p, rsp, hp, htest.1, toOption_eq_some.mp hdelegate⟩

end Sample

namespace StakeManager

theorem positive_amounts_sample :
    ∃ (store store' : Storage) (p : PoolInfo) (rsp : Response),
      store.pools Sample.pool = some p ∧
      executeEraRebond store (Sample.querier 3 [] 0)
        ⟨Sample.user, Sample.fee⟩ Sample.pool Sample.manyVals =
          .ok (store', rsp) ∧
      ¬ AllPositive rsp.txMsgs := by
  obtain ⟨store, store', p, rsp, hp, hamount, h⟩ := Sample.exists_rebond
  refine ⟨store, store', p, rsp, hp, h, ?_⟩
  rw [(positive_amounts_iff hp).2.1 _ h, hamount]
  decide

/-- Anyone can ask for a rebond with delegations of nothing, and the admin can
delegate less than one unit for each validator. -/
theorem positive_amounts_fails :
    (¬ ∀ (store store' : Storage) (querier : Querier) (info : MessageInfo)
      (a : String) (selectVals : List String) (rsp : Response),
      executeEraRebond store querier info a selectVals = .ok (store', rsp) →
        AllPositive rsp.txMsgs) ∧
    ¬ ∀ (store store' : Storage) (querier : Querier) (info : MessageInfo)
      (a : String) (stakeAmount : Nat) (rsp : Response), 0 < stakeAmount →
      executePoolDelegate store querier info a stakeAmount =
          .ok (store', rsp) →
        AllPositive rsp.txMsgs := by
  constructor
  · intro hall
    obtain ⟨store, store', p, rsp, hp, hamount, h⟩ := Sample.exists_rebond
    have hlength := (rebond_positive_iff hp h).mp (hall _ _ _ _ _ _ _ h)
    rw [hamount] at hlength
    exact absurd hlength (by decide)
  · intro hall
    obtain ⟨store, store', p, rsp, hp, hlength, h⟩ := Sample.exists_delegate
    have hle := (delegate_positive_iff hp h).mp
      (hall _ _ _ _ _ _ _ Nat.one_pos h)
    omega

end StakeManager

end NeutronContracts
