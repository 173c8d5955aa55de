/-
The bond step as the only way on.  A pool that waits for it can make it with
some choice of validators exactly when there is something to write into the
transaction: a validator to stake with, a delegation whose reward can be
withdrawn, or enough delegated stake that may still be undelegated.
-/
import Mathlib.Data.List.Dedup
import NeutronContracts.Chain.Sound

namespace NeutronContracts

open StakeManager Fallible

namespace StakeManager

/-- The amounts that the loop of `allocate_unbond_amount` may undelegate, up to
the first undelegation time that overflows. -/
def freeAmounts (currentTime unbondingPeriodSeconds : Nat) :
    Storage → List Delegation → List Nat
  | _, [] => []
  | store, delegation :: rest =>
      match clearTimestamps store currentTime unbondingPeriodSeconds
          delegation.delegator delegation.validator with
      | .error _ => []
      | .ok (next, full) =>
          if full then
            freeAmounts currentTime unbondingPeriodSeconds next rest
          else
            delegation.amount.amount ::
              freeAmounts currentTime unbondingPeriodSeconds next rest

/-- What can be undelegated at `currentTime`, the largest delegation first. -/
def freeStake (store : Storage) (currentTime unbondingPeriodSeconds : Nat)
    (delegations : List Delegation) : Nat :=
  (freeAmounts currentTime unbondingPeriodSeconds store
    (delegations.insertionSort fun a b =>
      b.amount.amount ≤ a.amount.amount)).sum

/-- The pool can make its bond step: it can stake with a validator of its own,
or it can undelegate what is missing, or nothing is missing and some reward can
be withdrawn. -/
def CanBond (store : Storage) (currentTime : Nat) (p : PoolInfo)
    (delegations : List Delegation) : Prop :=
  if p.eraSnapshot.unbond < p.eraSnapshot.bond then p.validatorAddrs ≠ []
  else if p.eraSnapshot.unbond = p.eraSnapshot.bond then delegations ≠ []
  else
    p.unbondingPeriod * p.eraSeconds < U64.limit ∧
      p.eraSnapshot.unbond - p.eraSnapshot.bond ≤
        freeStake store currentTime (p.unbondingPeriod * p.eraSeconds)
          delegations

instance (store : Storage) (currentTime : Nat) (p : PoolInfo)
    (delegations : List Delegation) :
    Decidable (CanBond store currentTime p delegations) :=
  inferInstanceAs (Decidable (if p.eraSnapshot.unbond < p.eraSnapshot.bond then
    p.validatorAddrs ≠ []
  else if p.eraSnapshot.unbond = p.eraSnapshot.bond then delegations ≠ []
  else
    p.unbondingPeriod * p.eraSeconds < U64.limit ∧
      p.eraSnapshot.unbond - p.eraSnapshot.bond ≤
        freeStake store currentTime (p.unbondingPeriod * p.eraSeconds)
          delegations))

/-- The bond step is accepted and submits a transaction with a message. -/
def SubmitsBond (store : Storage) (querier : Querier) (env : Env)
    (info : MessageInfo) (poolAddr : String) (selectVals : List String) :
    Prop :=
  ∃ store' rsp tx, executeEraBond store querier env info poolAddr selectVals =
      .ok (store', rsp) ∧
    .submitTx tx ∈ rsp.messages.map (·.msg) ∧ tx.msgs ≠ []

variable {store next : Storage} {querier : Querier} {env : Env}
  {info : MessageInfo} {poolAddr : String} {p : PoolInfo}
  {delegations : List Delegation} {currentTime period amount : Nat}

/-- The loop is done exactly when the free amounts cover what remains. -/
theorem allocateLoop_done_iff {remaining : Nat}
    (infos : List ValidatorUnbondInfo) :
    (∃ next result, allocateLoop currentTime period store remaining infos
        delegations = .ok (next, 0, result)) ↔
      remaining ≤ (freeAmounts currentTime period store delegations).sum := by
  induction delegations generalizing store remaining infos with
  | nil =>
      simp [allocateLoop, freeAmounts, pure, Except.pure]
  | cons delegation rest ih =>
      rw [allocateLoop]
      by_cases hdone : remaining = 0
      · subst hdone
        simp [pure, Except.pure]
      · rw [if_neg hdone, freeAmounts]
        cases hclear : clearTimestamps store currentTime period
            delegation.delegator delegation.validator with
        | error e =>
            refine iff_of_false ?_ ?_
            · rintro ⟨_, _, h⟩
              simp at h
            · simpa using hdone
        | ok cleared =>
            obtain ⟨middle, full⟩ := cleared
            cases full with
            | true => exact ih infos
            | false =>
                refine (ih _).trans ?_
                simp only [Bool.false_eq_true, if_false, List.sum_cons]
                split <;> omega

/-- The loop only adds to its result, and it adds something when it takes
something. -/
theorem Allocates.infos {remaining left : Nat}
    {infos result : List ValidatorUnbondInfo}
    (h : Allocates currentTime period store remaining infos delegations next
      left result) :
    infos <+: result ∧ (result = infos → left = remaining) := by
  induction h with
  | nil => exact ⟨List.prefix_rfl, fun _ => rfl⟩
  | enough => exact ⟨List.prefix_rfl, fun _ => rfl⟩
  | skip hmore hclear hrest ih => exact ih
  | choose hmore hclear hrest ih =>
      refine ⟨(List.prefix_append _ _).trans ih.1, ?_⟩
      rintro rfl
      have hlength := ih.1.length_le
      simp only [List.length_append, List.length_singleton] at hlength
      omega

/-- A missing amount can be undelegated exactly when enough is free. -/
theorem unbondInfos_possible_iff (hamount : 0 < amount) :
    (∃ next infos, unbondInfos store env p delegations amount =
        .ok (next, infos) ∧ infos ≠ []) ↔
      p.unbondingPeriod * p.eraSeconds < U64.limit ∧
        amount ≤ freeStake store env.block.seconds
          (p.unbondingPeriod * p.eraSeconds) delegations := by
  simp only [unbondInfos, hamount, if_true, allocateUnbondAmount, bind_eq_ok,
    mulBelow_eq_ok, Prod.exists, rejectIf_eq_ok, pure_eq_ok, Prod.mk.injEq,
    freeStake]
  constructor
  · rintro ⟨_, _, ⟨_, ⟨hperiod, rfl⟩, _, _,
      ⟨next, left, infos, hloop, _, hleft, rfl, rfl⟩, _, -, rfl, rfl⟩, -⟩
    obtain rfl := Decidable.not_not.mp hleft
    exact ⟨hperiod, (allocateLoop_done_iff _).mp ⟨next, infos, hloop⟩⟩
  · rintro ⟨hperiod, hfree⟩
    obtain ⟨next, infos, hloop⟩ :=
      (allocateLoop_done_iff []).mpr hfree
    have hinfos : infos ≠ [] := by
      intro hnone
      have hleft := (allocates_of_ok hloop).infos.2 hnone
      omega
    exact ⟨next, infos, ⟨_, ⟨hperiod, rfl⟩, next, infos,
      ⟨next, 0, infos, hloop, (), by simp, rfl, rfl⟩, (), hinfos, rfl, rfl⟩,
      hinfos⟩

/-- Without undelegations there is one reward message for every validator with
a delegation. -/
theorem withdrawRewardTxs_eq_nil {delegatingVals : List String} :
    withdrawRewardTxs poolAddr delegatingVals [] = [] ↔
      delegatingVals = [] := by
  cases delegatingVals with
  | nil => simp [withdrawRewardTxs]
  | cons first rest =>
      have hmem : first ∈ (first :: rest).dedup :=
        List.mem_dedup.mpr List.mem_cons_self
      simp [withdrawRewardTxs, List.ne_nil_of_mem hmem]

/-- When at least as much leaves as enters, the query decides. -/
theorem eraUnbondMsgs_possible_iff
    {queried : QueryResult (List Delegation)}
    (hquery : queryDelegationByAddr store querier poolAddr
      p.sdkGreaterOrEqualV047 = .ok queried)
    (hfresh : p.eraSnapshot.lastStepHeight < queried.lastSubmittedLocalHeight)
    (hless : ¬ p.eraSnapshot.unbond < p.eraSnapshot.bond) :
    (∃ next msgs text, eraUnbondMsgs store querier env poolAddr p =
        .ok (next, msgs, text) ∧ msgs ≠ []) ↔
      CanBond store env.block.seconds p queried.result := by
  simp only [eraUnbondMsgs, hquery, bind_eq_ok, Except.ok.injEq,
    exists_eq_left', rejectIf_eq_ok, Nat.not_le, hfresh, true_and, Prod.exists,
    pure_eq_ok, Prod.mk.injEq, CanBond, hless, if_false]
  by_cases hequal : p.eraSnapshot.unbond = p.eraSnapshot.bond
  · simp only [hequal, Nat.sub_self, unbondInfos, lt_irrefl, if_false, if_true,
      pure_eq_ok, Prod.mk.injEq]
    constructor
    · rintro ⟨_, _, _, ⟨_, _, _, ⟨rfl, rfl⟩, rfl, rfl, rfl⟩, hmsgs⟩ hnone
      simp [hnone, withdrawRewardTxs] at hmsgs
    · intro hsome
      refine ⟨_, _, _, ⟨(), _, _, ⟨rfl, rfl⟩, rfl, rfl, rfl⟩, ?_⟩
      simpa [withdrawRewardTxs_eq_nil] using hsome
  · rw [if_neg hequal, ← unbondInfos_possible_iff (by omega)]
    constructor
    · rintro ⟨_, _, _, ⟨_, next, infos, hinfos, rfl, rfl, rfl⟩, -⟩
      refine ⟨next, infos, hinfos, ?_⟩
      have hamount : 0 < p.eraSnapshot.unbond - p.eraSnapshot.bond := by omega
      simp only [unbondInfos, hamount, if_true, bind_eq_ok, Prod.exists,
        rejectIf_eq_ok, pure_eq_ok, Prod.mk.injEq] at hinfos
      obtain ⟨_, -, _, _, -, _, hne, -, rfl⟩ := hinfos
      exact hne
    · rintro ⟨next, infos, hinfos, hne⟩
      refine ⟨_, _, _, ⟨(), next, infos, hinfos, rfl, rfl, rfl⟩, ?_⟩
      simp [hne]

/-- When more enters than leaves, any validator of the pool will do. -/
theorem eraStakeMsgs_possible_iff (poolAddr : String) (p : PoolInfo) :
    (∃ selectVals msgs, eraStakeMsgs poolAddr p selectVals = .ok msgs ∧
        msgs ≠ []) ↔ p.validatorAddrs ≠ [] := by
  constructor
  · rintro ⟨selectVals, msgs, h, -⟩ hnone
    cases selectVals with
    | nil => cases h
    | cons first rest =>
        simp only [eraStakeMsgs, bind_eq_ok, rejectIf_eq_ok,
          Decidable.not_not] at h
        obtain ⟨_, hall, -⟩ := h
        have hfirst := hall first List.mem_cons_self
        simp [hnone] at hfirst
  · intro hsome
    obtain ⟨validator, hvalidator⟩ := List.exists_mem_of_ne_nil _ hsome
    refine ⟨[validator], [genDelegationTxs poolAddr validator p.remoteDenom
      (p.eraSnapshot.bond - p.eraSnapshot.unbond)], ?_, List.cons_ne_nil _ _⟩
    simp only [eraStakeMsgs, bind_eq_ok, rejectIf_eq_ok]
    refine ⟨(), by simpa using hvalidator, ?_⟩
    split
    · rfl
    · simp [splitDelegations]

theorem executeEraBond_possible_iff
    {queried : QueryResult (List Delegation)} {fee : IbcFee}
    {icas : IcaInfo × IcaInfo × String}
    (hp : store.pools poolAddr = some p) (hstatus : p.status = .eraUpdateEnded)
    (hinfo : store.infoOfIcaId p.icaId = some icas)
    (hfee : checkIbcFee querier info = .ok fee)
    (hquery : queryDelegationByAddr store querier poolAddr
      p.sdkGreaterOrEqualV047 = .ok queried)
    (hfresh :
      p.eraSnapshot.lastStepHeight < queried.lastSubmittedLocalHeight) :
    (∃ selectVals, SubmitsBond store querier env info poolAddr selectVals) ↔
      CanBond store env.block.seconds p queried.result := by
  have hsubmits : ∀ selectVals,
      SubmitsBond store querier env info poolAddr selectVals ↔
        ∃ next msgs text, eraBondMsgs store querier env poolAddr p selectVals =
          .ok (next, msgs, text) ∧ msgs ≠ [] := by
    intro selectVals
    constructor
    · rintro ⟨store', rsp, tx, h, htx, hmsgs⟩
      obtain ⟨q, next, msgs, tx', payload, hq, -, hbond, rfl, -, -, -, hrsp⟩ :=
        executeEraBond_ok h
      obtain rfl := Option.some.inj (hp.symm.trans hq)
      obtain rfl : tx = tx' := by simpa [hrsp] using htx
      exact ⟨next, _, _, hbond, hmsgs⟩
    · rintro ⟨next, msgs, text, hbond, hmsgs⟩
      obtain ⟨times, hnext⟩ := eraBondMsgs_store hbond
      have hinfo' : next.infoOfIcaId p.icaId = some icas := by
        rw [hnext]
        exact hinfo
      let payload : SudoPayload :=
        ⟨text, poolAddr, icas.1.ctrlPortId, .eraBond⟩
      let tx : SubmitTx := ⟨icas.1.ctrlConnectionId, p.icaId, msgs, "",
        defaultTimeoutSeconds, fee⟩
      refine ⟨setStatus (next.queuePayload payload) poolAddr p .bondStarted,
        Response.new.addSubmessage
          ⟨.submitTx tx, some next.replyId, some payload⟩, tx, ?_, ?_, hmsgs⟩
      · simp only [executeEraBond, hp, hstatus, hbond, hinfo', hfee, load,
          orError, rejectIf, bind, Except.bind, pure, Except.pure]
        rfl
      · simp [Response.addSubmessage]
  simp only [hsubmits]
  by_cases hmore : p.eraSnapshot.unbond < p.eraSnapshot.bond
  · have hbranch : ¬ p.eraSnapshot.bond ≤ p.eraSnapshot.unbond :=
      Nat.not_le.mpr hmore
    rw [CanBond, if_pos hmore, ← eraStakeMsgs_possible_iff poolAddr]
    simp only [eraBondMsgs, hbranch, if_false, bind_eq_ok, pure_eq_ok,
      Prod.mk.injEq]
    constructor
    · rintro ⟨selectVals, _, _, _, ⟨msgs, h, rfl, rfl, rfl⟩, hne⟩
      exact ⟨selectVals, _, h, hne⟩
    · rintro ⟨selectVals, msgs, h, hne⟩
      exact ⟨selectVals, _, _, _, ⟨msgs, h, rfl, rfl, rfl⟩, hne⟩
  · rw [← eraUnbondMsgs_possible_iff hquery hfresh hmore]
    simp only [eraBondMsgs, Nat.not_lt.mp hmore, if_true]
    constructor
    · rintro ⟨_, h⟩
      exact h
    · intro h
      exact ⟨[], h⟩

end StakeManager

namespace World

/-- In every reachable state, the bond step can be made with some choice of
validators exactly when there is something to put into it. -/
theorem bond_step_iff {net : Network} {block : BlockInfo}
    {deployer : MessageInfo} {lsdTokenCodeId : Nat} {evs : List Event}
    {w : World} {a : String} {p : PoolInfo} {querier : Querier} {env : Env}
    {info : MessageInfo} {queried : QueryResult (List Delegation)}
    (hrun : Transition.exec (step net)
      (genesis block deployer lsdTokenCodeId) evs = some w)
    (hp : w.store.pools a = some p) (hstatus : p.status = .eraUpdateEnded)
    (hquery : queryDelegationByAddr w.store querier a
      p.sdkGreaterOrEqualV047 = .ok queried)
    (hfresh : p.eraSnapshot.lastStepHeight < queried.lastSubmittedLocalHeight)
    (hfee : ∃ fee, checkIbcFee querier info = .ok fee) :
    (∃ selectVals, SubmitsBond w.store querier env info a selectVals) ↔
      CanBond w.store env.block.seconds p queried.result := by
  have hs : Sound net w := sound_run hrun
  obtain ⟨icas, hinfo, -⟩ := hs.known a p hp
  obtain ⟨fee, hfee⟩ := hfee
  exact executeEraBond_possible_iff hp hstatus hinfo hfee hquery hfresh

end World

namespace Sample

/-- What is known of the pool right before a bond step on day `n`. -/
def beforeBond (n : Nat) (evs : List Event) (w : World) (p : PoolInfo)
    (queried : QueryResult (List Delegation)) : Prop :=
  run evs = some w ∧ w.store.pools pool = some p ∧
    p.status = .eraUpdateEnded ∧
    queryDelegationByAddr w.store (querier n [] 0) pool
      p.sdkGreaterOrEqualV047 = .ok queried ∧
    p.eraSnapshot.lastStepHeight < queried.lastSubmittedLocalHeight

theorem exists_beforeBond (n : Nat) (evs : List Event)
    (test : World → PoolInfo → QueryResult (List Delegation) → Bool)
    (h : (run evs).any (fun w => (w.store.pools pool).any fun p =>
      (queryDelegationByAddr w.store (querier n [] 0) pool
        p.sdkGreaterOrEqualV047).toOption.any fun queried =>
          decide (p.status = .eraUpdateEnded) &&
          decide (p.eraSnapshot.lastStepHeight <
            queried.lastSubmittedLocalHeight) && test w p queried) = true) :
    ∃ w p queried, beforeBond n evs w p queried ∧
      test w p queried = true := by
  obtain ⟨w, p, hw, hp, hany⟩ := exists_of_run evs _ h
  obtain ⟨queried, hquery, htest⟩ := (Option.any_eq_true _ _).mp hany
  simp only [Bool.and_eq_true, decide_eq_true_eq] at htest
  obtain ⟨⟨hstatus, hfresh⟩, htest⟩ := htest
  exact ⟨w, p, queried, ⟨hw, hp, hstatus, toOption_eq_some.mp hquery, hfresh⟩,
    htest⟩

theorem fee_checked (n : Nat) :
    ∃ fee', checkIbcFee (querier n [] 0) ⟨user, fee⟩ = .ok fee' :=
  ⟨_, rfl⟩

end Sample

namespace World

/-- The first stake can be bonded. -/
theorem bond_step_sample :
    ∃ w p queried, Sample.beforeBond 3 (Sample.setup ++
        Sample.firstBond.take 3) w p queried ∧
      ∃ selectVals, SubmitsBond w.store (Sample.querier 3 [] 0)
        ⟨Sample.day 3, Sample.net.self⟩ ⟨Sample.user, Sample.fee⟩ Sample.pool
        selectVals := by
  obtain ⟨w, p, queried, hbefore, hcan⟩ := Sample.exists_beforeBond 3
    (Sample.setup ++ Sample.firstBond.take 3)
    (fun w p queried => decide (CanBond w.store (Sample.day 3).seconds p
      queried.result)) (by decide +kernel)
  obtain ⟨hw, hp, hstatus, hquery, hfresh⟩ := id hbefore
  exact ⟨w, p, queried, hbefore, (bond_step_iff hw hp hstatus hquery hfresh
    (Sample.fee_checked 3)).mpr (of_decide_eq_true hcan)⟩

/-- A pool without stake, unstake and delegations is stuck in its first
era. -/
theorem bond_step_fails :
    ¬ ∀ (net : Network) (block : BlockInfo) (deployer : MessageInfo)
      (lsdTokenCodeId : Nat) (evs : List Event) (w : World),
      Transition.exec (step net) (genesis block deployer lsdTokenCodeId) evs =
        some w →
      ∀ (a : String) (p : PoolInfo), w.store.pools a = some p →
        p.status = .eraUpdateEnded →
      ∀ (querier : Querier) (env : Env) (info : MessageInfo)
        (queried : QueryResult (List Delegation)),
        queryDelegationByAddr w.store querier a p.sdkGreaterOrEqualV047 =
          .ok queried →
        p.eraSnapshot.lastStepHeight < queried.lastSubmittedLocalHeight →
        (∃ fee, checkIbcFee querier info = .ok fee) →
        ∃ selectVals, SubmitsBond w.store querier env info a selectVals := by
  intro hall
  obtain ⟨w, p, queried, ⟨hw, hp, hstatus, hquery, hfresh⟩, hcannot⟩ :=
    Sample.exists_beforeBond 3 (Sample.setup ++
        [Sample.call 2 (Sample.querier 0 [] 0) (.eraUpdate Sample.pool)
          (Sample.packetId 2)])
      (fun w p queried => decide (¬ CanBond w.store (Sample.day 3).seconds p
        queried.result)) (by decide +kernel)
  have hsubmits := hall Sample.net (Sample.day 1) ⟨Sample.admin, []⟩ 1 _ w hw
    Sample.pool p hp hstatus (Sample.querier 3 [] 0)
    ⟨Sample.day 3, Sample.net.self⟩ ⟨Sample.user, Sample.fee⟩ queried hquery
    hfresh (Sample.fee_checked 3)
  have hs : Sound Sample.net w := sound_run hw
  obtain ⟨icas, hinfo, -⟩ := hs.known Sample.pool p hp
  obtain ⟨fee, hfee⟩ := Sample.fee_checked 3
  exact of_decide_eq_true hcannot ((executeEraBond_possible_iff hp hstatus
    hinfo hfee hquery hfresh).mp hsubmits)

end World

end NeutronContracts
