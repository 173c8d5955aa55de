/-
The amounts in the transactions of the bond step, of the rebond step and of
`execute_pool_delegate`, and the validators they go to.
-/
import Mathlib.Data.List.Dedup
import NeutronContracts.Lib.EvenSplit
import NeutronContracts.Properties.Allocation

namespace NeutronContracts

open Fallible

namespace StakeManager

/-- The messages for the host in a response. -/
def Response.txMsgs (rsp : Response) : List ProtobufAny :=
  rsp.messages.flatMap fun sub => hostMsgs sub.msg

/-- The validators and amounts of the delegations. -/
def delegated (msgs : List ProtobufAny) : List (String × Nat) :=
  msgs.filterMap fun m =>
    match m.value with
    | .delegate _ validator amount => some (validator, amount.amount)
    | _ => none

/-- The amounts of the undelegations. -/
def undelegatedAmounts (msgs : List ProtobufAny) : List Nat :=
  msgs.filterMap fun m =>
    match m.value with
    | .undelegate _ _ amount => some amount.amount
    | _ => none

def delegatedAmounts (msgs : List ProtobufAny) : List Nat :=
  (delegated msgs).map Prod.snd

/-- The message concerns the validator. -/
def HostMsg.names (validator : String) : HostMsg → Bool
  | .delegate _ v _ => v = validator
  | .undelegate _ v _ => v = validator
  | .beginRedelegate _ src dst _ => src = validator ∨ dst = validator
  | .withdrawDelegatorReward _ v => v = validator
  | _ => false

/-- Undelegations and reward withdrawals. -/
def HostMsg.isExit : HostMsg → Bool
  | .undelegate _ _ _ => true
  | .withdrawDelegatorReward _ _ => true
  | _ => false

/-- The difference between what enters the pool and what leaves it, staked
with validators of the pool. -/
structure MovesNet (p : PoolInfo) (msgs : List ProtobufAny) : Prop where
  net : ((delegatedAmounts msgs).sum : Int) - (undelegatedAmounts msgs).sum =
    (p.eraSnapshot.bond : Int) - p.eraSnapshot.unbond
  targets : ∀ d ∈ delegated msgs, d.1 ∈ p.validatorAddrs

/-- One undelegation or reward withdrawal for each validator. -/
structure ExitsOnce (validators : List String) (msgs : List ProtobufAny) :
    Prop where
  once : ∀ v ∈ validators, (msgs.countP fun m => m.value.names v) = 1
  exits : ∀ m ∈ msgs, m.value.isExit = true

/-- The whole amount, in parts that differ by less than their number. -/
structure SplitsEvenly (total n : Nat) (msgs : List ProtobufAny) : Prop where
  total : (delegatedAmounts msgs).sum = total
  close : ∀ x ∈ delegatedAmounts msgs, ∀ y ∈ delegatedAmounts msgs, x < y + n

section

variable {store next : Storage} {querier : Querier} {env : Env}
  {a denom text : String} {p : PoolInfo} {validators ops : List String}
  {delegations : List Delegation} {infos : List ValidatorUnbondInfo}
  {msgs : List ProtobufAny} {selectVals : List String} {amount total : Nat}

/-! ### Splits -/

/-- The split of the source into a quotient and a remainder. -/
theorem delegated_split (a denom : String) (total : Nat)
    (validators : List String) :
    delegated (splitDelegations a denom (total / validators.length)
        (total - total / validators.length * validators.length) validators) =
      validators.zip (EvenSplit.shares total validators.length) := by
  cases validators with
  | nil => rfl
  | cons first rest =>
      generalize hquot : total / (first :: rest).length = quot
      have hrest : ∀ rest : List String, (delegated (rest.map fun validator =>
          genDelegationTxs a validator denom quot)) =
            rest.zip (List.replicate rest.length quot) := by
        intro rest
        induction rest with
        | nil => rfl
        | cons validator rest ih =>
            rw [List.length_cons, List.replicate_succ, List.zip_cons_cons, ← ih]
            rfl
      rw [List.length_cons] at hquot ⊢
      rw [EvenSplit.shares, hquot, List.zip_cons_cons, ← hrest]
      rfl

theorem delegatedAmounts_split (a denom : String) (total : Nat)
    (validators : List String) :
    delegatedAmounts (splitDelegations a denom (total / validators.length)
        (total - total / validators.length * validators.length) validators) =
      EvenSplit.shares total validators.length := by
  rw [delegatedAmounts, delegated_split, List.map_snd_zip]
  rw [EvenSplit.length_shares]

theorem splitsEvenly_split (a denom : String) (total : Nat)
    (hne : validators ≠ []) :
    SplitsEvenly total validators.length
      (splitDelegations a denom (total / validators.length)
        (total - total / validators.length * validators.length)
        validators) := by
  have hpos := List.length_pos_of_ne_nil hne
  constructor
  · rw [delegatedAmounts_split, EvenSplit.sum_shares hpos]
  · rw [delegatedAmounts_split]
    exact fun x hx y hy => EvenSplit.share_lt hx hy

/-- The targets of a split are the validators it is made for. -/
theorem mem_of_delegated_split {d : String × Nat}
    (h : d ∈ delegated (splitDelegations a denom (total / validators.length)
      (total - total / validators.length * validators.length) validators)) :
    d.1 ∈ validators := by
  rw [delegated_split] at h
  exact (List.of_mem_zip h).1

theorem undelegatedAmounts_split (a denom : String) (quot rest : Nat)
    (validators : List String) :
    undelegatedAmounts (splitDelegations a denom quot rest validators) =
      [] := by
  cases validators with
  | nil => rfl
  | cons first others =>
      simp [undelegatedAmounts, splitDelegations, genDelegationTxs,
        List.filterMap_map]

/-! ### The bond step -/

theorem delegated_append (first second : List ProtobufAny) :
    delegated (first ++ second) = delegated first ++ delegated second :=
  List.filterMap_append

theorem undelegatedAmounts_append (first second : List ProtobufAny) :
    undelegatedAmounts (first ++ second) =
      undelegatedAmounts first ++ undelegatedAmounts second :=
  List.filterMap_append

theorem delegated_rewards (a : String) (validators : List String) :
    delegated (validators.map (genWithdrawRewardTxs a)) = [] := by
  simp [delegated, genWithdrawRewardTxs, List.filterMap_map]

theorem undelegatedAmounts_rewards (a : String) (validators : List String) :
    undelegatedAmounts (validators.map (genWithdrawRewardTxs a)) = [] := by
  simp [undelegatedAmounts, genWithdrawRewardTxs, List.filterMap_map]

/-- More enters than leaves: the difference is staked. -/
theorem movesNet_stake (h : eraStakeMsgs a p selectVals = .ok msgs)
    (hmore : p.eraSnapshot.unbond < p.eraSnapshot.bond) : MovesNet p msgs := by
  cases selectVals with
  | nil => cases h
  | cons first rest =>
      simp only [eraStakeMsgs, bind_eq_ok, rejectIf_eq_ok,
        Decidable.not_not] at h
      obtain ⟨_, hmem, h⟩ := h
      split at h
      · cases h
        constructor
        · rw [← List.singleton_append, delegatedAmounts, delegated_append,
            undelegatedAmounts_append, delegated_rewards,
            undelegatedAmounts_rewards]
          simp only [delegated, undelegatedAmounts, genDelegationTxs]
          simp
          omega
        · intro d hd
          rw [← List.singleton_append, delegated_append,
            delegated_rewards] at hd
          obtain rfl := List.mem_singleton.mp hd
          exact hmem first List.mem_cons_self
      · cases h
        constructor
        · have hsplit := (splitsEvenly_split a p.remoteDenom
            (p.eraSnapshot.bond - p.eraSnapshot.unbond)
            (List.cons_ne_nil first rest)).total
          rw [hsplit, undelegatedAmounts_split, List.sum_nil]
          omega
        · exact fun d hd => hmem d.1 (mem_of_delegated_split hd)

/-- The undelegations cover what is missing, and everybody else pays out the
reward. -/
theorem withdrawRewardTxs_rest (a : String) (hvals : validators.Nodup)
    (hops : ops.Nodup) (hsub : ops ⊆ validators) :
    withdrawRewardTxs a validators ops =
      (validators.filter fun v => decide (v ∉ ops)).map
        (genWithdrawRewardTxs a) := by
  rw [withdrawRewardTxs, hvals.dedup]
  split
  · rfl
  · rename_i hlength
    have hperm : ops.Perm validators :=
      (List.subperm_of_subset hops hsub).perm_of_length_le
        (not_not.mp hlength).ge
    have hnone : validators.filter (fun v => decide (v ∉ ops)) = [] :=
      List.filter_eq_nil_iff.mpr fun v hv => by simpa using hperm.mem_iff.mpr hv
    rw [hnone]
    rfl

/-- What a bond step undelegates. -/
structure Undelegates (delegations : List Delegation) (amount : Nat)
    (infos : List ValidatorUnbondInfo) : Prop where
  total : (infos.map (·.unbondAmount)).sum = amount
  distinct : (infos.map (·.validator)).Nodup
  known : infos.map (·.validator) ⊆ delegations.map (·.validator)

theorem undelegates_of_unbonds (hnodup : (delegations.map (·.validator)).Nodup)
    (h : Unbonds store env p delegations amount next infos) :
    Undelegates delegations amount infos := by
  cases h with
  | nothing hzero => exact ⟨hzero.symm, List.nodup_nil, List.nil_subset _⟩
  | allocated hpos hne halloc =>
      have hall := (allocation_of_ok hnodup halloc).2
      refine ⟨hall.total, hall.distinct, fun v hv => ?_⟩
      obtain ⟨info, hinfo, rfl⟩ := List.mem_map.mp hv
      obtain ⟨d, hd, -, hvalidator, -⟩ := hall.covered info hinfo
      exact List.mem_map.mpr ⟨d, hd, hvalidator⟩

/-- The messages of a bond step that unbonds. -/
def exitMsgs (a denom : String) (infos : List ValidatorUnbondInfo)
    (others : List String) : List ProtobufAny :=
  infos.map (fun unbond =>
      genUndelegateTxs a unbond.validator denom unbond.unbondAmount) ++
    others.map (genWithdrawRewardTxs a)

theorem delegated_exitMsgs (a denom : String)
    (infos : List ValidatorUnbondInfo) (others : List String) :
    delegated (exitMsgs a denom infos others) = [] := by
  rw [exitMsgs, delegated_append, delegated_rewards, List.append_nil]
  simp [delegated, genUndelegateTxs, List.filterMap_map]

theorem undelegatedAmounts_exitMsgs (a denom : String)
    (infos : List ValidatorUnbondInfo) (others : List String) :
    undelegatedAmounts (exitMsgs a denom infos others) =
      infos.map (·.unbondAmount) := by
  rw [exitMsgs, undelegatedAmounts_append, undelegatedAmounts_rewards,
    List.append_nil]
  simp only [undelegatedAmounts, genUndelegateTxs, List.filterMap_map,
    Function.comp_def]
  exact congrFun List.filterMap_eq_map' _

theorem movesNet_exits {others : List String}
    (hless : p.eraSnapshot.bond ≤ p.eraSnapshot.unbond)
    (h : Undelegates delegations (p.eraSnapshot.unbond - p.eraSnapshot.bond)
      infos) : MovesNet p (exitMsgs a p.remoteDenom infos others) := by
  constructor
  · rw [delegatedAmounts, delegated_exitMsgs, undelegatedAmounts_exitMsgs,
      h.total]
    simp
    omega
  · rw [delegated_exitMsgs]
    exact fun d hd => absurd hd List.not_mem_nil

/-- How many messages of a bond step that unbonds concern a validator. -/
theorem countP_exitMsgs (a denom : String) (infos : List ValidatorUnbondInfo)
    (others : List String) (v : String) :
    (exitMsgs a denom infos others).countP (fun m => m.value.names v) =
      (infos.map (·.validator) ++ others).count v := by
  rw [exitMsgs, List.countP_append, List.countP_map, List.countP_map,
    List.count_append, List.count_eq_countP, List.count_eq_countP,
    List.countP_map]
  rfl

theorem exitsOnce_of_undelegates
    (hnodup : (delegations.map (·.validator)).Nodup)
    (h : Undelegates delegations amount infos) :
    ExitsOnce (delegations.map (·.validator)) (exitMsgs a denom infos
      ((delegations.map (·.validator)).filter fun v =>
        decide (v ∉ infos.map (·.validator)))) := by
  constructor
  · intro v hv
    rw [countP_exitMsgs]
    refine List.count_eq_one_of_mem ?_ ?_
    · refine h.distinct.append (hnodup.filter _) fun v hop hrest => ?_
      exact of_decide_eq_true (List.mem_filter.mp hrest).2 hop
    · by_cases hop : v ∈ infos.map (·.validator)
      · exact List.mem_append_left _ hop
      · exact List.mem_append_right _
          (List.mem_filter.mpr ⟨hv, decide_eq_true hop⟩)
  · intro m hm
    rcases List.mem_append.mp hm with hundelegate | hreward
    · obtain ⟨_, -, rfl⟩ := List.mem_map.mp hundelegate
      rfl
    · obtain ⟨_, -, rfl⟩ := List.mem_map.mp hreward
      rfl

end

/-! ### The three calls -/

section

variable {store store' : Storage} {querier : Querier} {env : Env}
  {info : MessageInfo} {a : String} {p : PoolInfo} {rsp : Response}
  {selectVals : List String} {stakeAmount : Nat}

/-- The messages and the text that an accepted bond step sends. -/
theorem executeEraBond_msgs (hp : store.pools a = some p)
    (h : executeEraBond store querier env info a selectVals =
      .ok (store', rsp)) :
    ∃ next sub payload, rsp.messages = [sub] ∧ sub.payload = some payload ∧
      eraBondMsgs store querier env a p selectVals =
        .ok (next, rsp.txMsgs, payload.message) := by
  obtain ⟨q, next, msgs, tx, payload, hq, -, hmsgs, htx, -, -, -, hrsp⟩ :=
    executeEraBond_ok h
  obtain rfl := Option.some.inj (hp.symm.trans hq)
  have htxMsgs : rsp.txMsgs = msgs := by
    simp [Response.txMsgs, hrsp, hostMsgs, htx]
  exact ⟨next, _, payload, hrsp, rfl, by rw [htxMsgs, hmsgs]⟩

theorem executeEraRebond_msgs (hp : store.pools a = some p)
    (h : executeEraRebond store querier info a selectVals =
      .ok (store', rsp)) :
    p.eraSnapshot.restakeAmount = 0 ∧ rsp.txMsgs = [] ∨
      p.eraSnapshot.restakeAmount ≠ 0 ∧ selectVals ≠ [] ∧
        rsp.txMsgs = splitDelegations a p.remoteDenom
          (p.eraSnapshot.restakeAmount / selectVals.length)
          (p.eraSnapshot.restakeAmount -
            p.eraSnapshot.restakeAmount / selectVals.length *
              selectVals.length) selectVals := by
  obtain ⟨q, hq, -, hcases⟩ := executeEraRebond_ok h
  obtain rfl := Option.some.inj (hp.symm.trans hq)
  rcases hcases with ⟨hzero, -, rfl⟩ |
    ⟨hmore, msgs, tx, payload, hmsgs, htx, -, -, -, hrsp⟩
  · exact .inl ⟨hzero, rfl⟩
  · have htxMsgs : rsp.txMsgs = msgs := by
      simp [Response.txMsgs, hrsp, hostMsgs, htx]
    cases selectVals with
    | nil => cases hmsgs
    | cons first rest =>
        simp only [rebondMsgs, bind_eq_ok, pure_eq_ok] at hmsgs
        obtain ⟨_, -, rfl⟩ := hmsgs
        exact .inr ⟨hmore, List.cons_ne_nil first rest, htxMsgs⟩

theorem executePoolDelegate_msgs (hp : store.pools a = some p)
    (h : executePoolDelegate store querier info a stakeAmount =
      .ok (store', rsp)) :
    p.validatorAddrs ≠ [] ∧ rsp.txMsgs = splitDelegations a p.remoteDenom
      (stakeAmount / p.validatorAddrs.length)
      (stakeAmount - stakeAmount / p.validatorAddrs.length *
        p.validatorAddrs.length) p.validatorAddrs := by
  have hne : p.validatorAddrs ≠ [] := by
    simp only [executePoolDelegate, bind_eq_ok, orError_eq_ok,
      rejectIf_eq_ok] at h
    obtain ⟨q, hq, _, -, _, -, _, hlength, -⟩ := h
    obtain rfl := Option.some.inj (hp.symm.trans hq)
    exact fun hnil => hlength (by rw [hnil]; rfl)
  obtain ⟨q, tx, hq, -, htx, -, hrsp⟩ := executePoolDelegate_ok h
  obtain rfl := Option.some.inj (hp.symm.trans hq)
  exact ⟨hne, by simp [Response.txMsgs, hrsp, hostMsgs, htx]⟩

theorem bond_moves_net (hp : store.pools a = some p)
    (hnodup : ∀ queried, queryDelegationByAddr store querier a
      p.sdkGreaterOrEqualV047 = .ok queried →
      (queried.result.map (·.validator)).Nodup)
    (h : executeEraBond store querier env info a selectVals =
      .ok (store', rsp)) :
    MovesNet p rsp.txMsgs ∧
      (p.eraSnapshot.bond ≤ p.eraSnapshot.unbond →
        ∃ queried, queryDelegationByAddr store querier a
            p.sdkGreaterOrEqualV047 = .ok queried ∧
          ExitsOnce (queried.result.map (·.validator)) rsp.txMsgs) := by
  obtain ⟨next, sub, payload, -, -, hmsgs⟩ := executeEraBond_msgs hp h
  replace hmsgs := bondMsgs_of_ok hmsgs
  generalize rsp.txMsgs = msgs, payload.message = text at hmsgs ⊢
  cases hmsgs with
  | @unbond queried _ infos hless hquery hfresh hunbonds =>
      have hvals := hnodup queried hquery
      have hundelegates := undelegates_of_unbonds hvals hunbonds
      rw [withdrawRewardTxs_rest a hvals hundelegates.distinct
        hundelegates.known]
      exact ⟨movesNet_exits hless hundelegates, fun _ => ⟨queried, hquery,
        exitsOnce_of_undelegates hvals hundelegates⟩⟩
  | stake hmore hstake =>
      exact ⟨movesNet_stake hstake hmore,
        fun hle => absurd hmore (Nat.not_lt.mpr hle)⟩

theorem rebond_splits_evenly (hp : store.pools a = some p)
    (h : executeEraRebond store querier info a selectVals =
      .ok (store', rsp)) :
    SplitsEvenly p.eraSnapshot.restakeAmount selectVals.length rsp.txMsgs := by
  rcases executeEraRebond_msgs hp h with ⟨hzero, hmsgs⟩ | ⟨-, hne, hmsgs⟩
  · rw [hmsgs]
    exact ⟨hzero.symm, fun x hx => absurd hx List.not_mem_nil⟩
  · rw [hmsgs]
    exact splitsEvenly_split a p.remoteDenom p.eraSnapshot.restakeAmount hne

end

/-- Every accepted bond step moves the difference between the bond and the
unbond of its snapshot, staking with validators of the pool only; when it
unbonds, every validator of the delegation result is undelegated from or pays
its reward out, once.  Every accepted rebond step and pool delegation stakes
its whole amount in parts that differ by less than the number of
validators. -/
theorem stake_moved_exactly {store store' : Storage} {querier : Querier}
    {info : MessageInfo} {a : String} {p : PoolInfo} {rsp : Response}
    (hp : store.pools a = some p) :
    (∀ env selectVals,
      (∀ queried, queryDelegationByAddr store querier a
        p.sdkGreaterOrEqualV047 = .ok queried →
        (queried.result.map (·.validator)).Nodup) →
      executeEraBond store querier env info a selectVals =
        .ok (store', rsp) →
      MovesNet p rsp.txMsgs ∧
        (p.eraSnapshot.bond ≤ p.eraSnapshot.unbond →
          ∃ queried, queryDelegationByAddr store querier a
              p.sdkGreaterOrEqualV047 = .ok queried ∧
            ExitsOnce (queried.result.map (·.validator)) rsp.txMsgs)) ∧
    (∀ selectVals, executeEraRebond store querier info a selectVals =
        .ok (store', rsp) →
      SplitsEvenly p.eraSnapshot.restakeAmount selectVals.length
        rsp.txMsgs) ∧
    (∀ stakeAmount, executePoolDelegate store querier info a stakeAmount =
        .ok (store', rsp) →
      SplitsEvenly stakeAmount p.validatorAddrs.length rsp.txMsgs) := by
  refine ⟨fun env selectVals => bond_moves_net hp,
    fun selectVals => rebond_splits_evenly hp, fun stakeAmount h => ?_⟩
  obtain ⟨hne, hmsgs⟩ := executePoolDelegate_msgs hp h
  rw [hmsgs]
  exact splitsEvenly_split a p.remoteDenom stakeAmount hne

/-- More is to be unbonded than bonded, and the pool has delegations with two
validators. -/
def Sample.unstaked : List Event := Sample.setup ++ Sample.firstEra ++ [
  Sample.allowBurn 4 500, Sample.unstake 4 500,
  Sample.call 5 (Sample.querier 0 [] 0) (.eraUpdate Sample.pool)
    (Sample.packetId 0)]

def Sample.delegating : Querier :=
  Sample.querier 6 [("val1", 600), ("val2", 450)] 0

/-- The query has the delegations of the two validators. -/
def Sample.twoEach (queried : QueryResult (List Delegation)) : Bool :=
  decide (queried.result.map (·.validator) = ["val1", "val2"])

/-- An unstake is undelegated from one of two validators, and the other one
pays its reward out. -/
theorem stake_moved_exactly_sample :
    ∃ w p store' rsp, Sample.run Sample.unstaked = some w ∧
      w.store.pools Sample.pool = some p ∧
      executeEraBond w.store Sample.delegating
        ⟨Sample.day 6, Sample.net.self⟩ ⟨Sample.user, Sample.fee⟩ Sample.pool
        [] = .ok (store', rsp) ∧
      p.eraSnapshot.bond < p.eraSnapshot.unbond ∧ MovesNet p rsp.txMsgs ∧
      ExitsOnce ["val1", "val2"] rsp.txMsgs := by
  obtain ⟨w, p, hw, hp, htest⟩ := Sample.exists_of_run Sample.unstaked
    (fun w p =>
      decide (p.eraSnapshot.bond < p.eraSnapshot.unbond) &&
      (executeEraBond w.store Sample.delegating
        ⟨Sample.day 6, Sample.net.self⟩ ⟨Sample.user, Sample.fee⟩ Sample.pool
        []).toOption.isSome &&
      (queryDelegationByAddr w.store Sample.delegating Sample.pool
        p.sdkGreaterOrEqualV047).toOption.all Sample.twoEach)
    (by decide +kernel)
  simp only [Bool.and_eq_true, decide_eq_true_eq] at htest
  obtain ⟨⟨hless, hsome⟩, hall⟩ := htest
  obtain ⟨⟨store', rsp⟩, hbond⟩ := Option.isSome_iff_exists.mp hsome
  have hbond := toOption_eq_some.mp hbond
  have htwo : ∀ queried, queryDelegationByAddr w.store Sample.delegating
      Sample.pool p.sdkGreaterOrEqualV047 = .ok queried →
      queried.result.map (·.validator) = ["val1", "val2"] := by
    intro queried hquery
    rw [toOption_eq_some.mpr hquery] at hall
    exact of_decide_eq_true hall
  obtain ⟨hmoves, hexits⟩ := (stake_moved_exactly hp).1 _ _
    (fun queried hquery => by rw [htwo queried hquery]; decide) hbond
  obtain ⟨queried, hquery, hexits⟩ := hexits hless.le
  rw [htwo queried hquery] at hexits
  exact ⟨w, p, store', rsp, hw, hp, hbond, hless, hmoves, hexits⟩

end StakeManager

end NeutronContracts
