/-
The liquid staking tokens of a pool are backed: at the rate of the pool they
are never worth more than its active stake.  Every operation rounds in favour
of the pool, and the correction of the first stake only applies when no fee
is minted.
-/
import NeutronContracts.Chain.EraProtocol
import NeutronContracts.Lib.Fund

namespace NeutronContracts

open StakeManager Fallible Fund

/-- `rate * total_lsd_token_amount ≤ active * CAL_BASE` -/
def Backed (p : PoolInfo) : Prop :=
  Covered calBase p.rate p.totalLsdTokenAmount p.active

section

variable {p : PoolInfo} {stackInfo : Stack} {total platformFee stackFee : Nat}

/-- The fees together are the share of the platform in the reward. -/
theorem protocolFees_ok
    (h : protocolFees p stackInfo total = .ok (platformFee, stackFee)) :
    platformFee + stackFee =
      (total - p.eraSnapshot.active) * p.platformFeeCommission / p.rate := by
  unfold protocolFees at h
  split at h
  case isTrue =>
      simp only [bind_eq_ok, mulBelow_eq_ok, divExact_eq_ok, subExact_eq_ok,
        pure_eq_ok, Prod.mk.injEq] at h
      obtain ⟨_, ⟨-, rfl⟩, _, ⟨-, rfl⟩, _, ⟨-, rfl⟩, _, ⟨-, rfl⟩, _,
        ⟨hle, rfl⟩, rfl, rfl⟩ := h
      exact Nat.sub_add_cancel hle
  case isFalse hle =>
      simp only [pure_eq_ok, Prod.mk.injEq] at h
      obtain ⟨rfl, rfl⟩ := h
      simp [Nat.sub_eq_zero_of_le (Nat.not_lt.mp hle)]

theorem activeAfterEra_ok {active : Nat}
    (h : activeAfterEra p total = .ok active) :
    active = p.active + total - p.eraSnapshot.active := by
  simp only [activeAfterEra, bind_eq_ok, addBelow_eq_ok, pure_eq_ok] at h
  obtain ⟨_, ⟨-, rfl⟩, rfl⟩ := h
  split <;> omega

theorem rateOf_ok {active shares rate : Nat}
    (h : rateOf active shares = .ok rate) :
    Covered calBase rate shares active ∧
      (rate < calBase → active < shares) := by
  unfold rateOf at h
  split at h
  case isTrue hpos =>
      simp only [bind_eq_ok, mulBelow_eq_ok, divExact_eq_ok] at h
      obtain ⟨_, ⟨-, rfl⟩, -, rfl⟩ := h
      refine ⟨covered_rateFor calBase shares active, fun hlt => ?_⟩
      rcases lt_of_rateFor_lt hlt with hzero | hless
      · omega
      · exact hless
  case isFalse hzero =>
      simp only [pure_eq_ok] at h
      obtain rfl := Nat.eq_zero_of_not_pos hzero
      exact ⟨covered_zero _ _ _, fun hlt => absurd (h ▸ hlt) (lt_irrefl _)⟩

/-- The branch of the first-stake correction. -/
def Corrected (p : PoolInfo) (plainRate plainActive : Nat) : Prop :=
  p.rate = defaultRate ∧ plainRate < defaultRate ∧
    p.active < plainActive + 1000

theorem correctFirstStake_ok {plainRate plainActive newRate newActive : Nat}
    (h : correctFirstStake p plainRate plainActive =
      .ok (newRate, newActive)) :
    Corrected p plainRate plainActive ∧ newRate = defaultRate ∧
        newActive = p.active ∨
      ¬ Corrected p plainRate plainActive ∧ newRate = plainRate ∧
        newActive = plainActive := by
  unfold correctFirstStake at h
  split at h
  case isTrue hrate =>
      simp only [bind_eq_ok, addBelow_eq_ok] at h
      obtain ⟨_, ⟨-, rfl⟩, h⟩ := h
      split at h
      case isTrue hactive =>
          simp only [pure_eq_ok, Prod.mk.injEq] at h
          exact .inl ⟨⟨hrate.1, hrate.2, hactive⟩, h.1.symm, h.2.symm⟩
      case isFalse hactive =>
          simp only [pure_eq_ok, Prod.mk.injEq] at h
          exact .inr ⟨fun hc => hactive hc.2.2, h.1.symm, h.2.symm⟩
  case isFalse hrate =>
      simp only [pure_eq_ok, Prod.mk.injEq] at h
      exact .inr ⟨fun hc => hrate ⟨hc.1, hc.2.1⟩, h.1.symm, h.2.symm⟩

/-- The correction only happens in an era without reward: no fee is minted,
and the active stake would have dropped. -/
theorem corrected_without_fees (act : Activation p stackInfo)
    (hbacked : Backed p) (hfee : p.platformFeeCommission ≤ calBase)
    (hc : Corrected p act.plainRate act.plainActive) :
    act.platformFee = 0 ∧ act.stackFee = 0 ∧ act.plainActive < p.active := by
  have hfees := protocolFees_ok act.fees
  have hactive := activeAfterEra_ok act.active
  have hless := (rateOf_ok act.rate).2 hc.2.1
  have hshares : p.totalLsdTokenAmount ≤ p.active := by
    unfold Backed at hbacked
    rw [hc.1] at hbacked
    exact (covered_one (by decide)).mp hbacked
  have hbound : (act.totalAmount - p.eraSnapshot.active) *
      p.platformFeeCommission / p.rate ≤
        act.totalAmount - p.eraSnapshot.active := by
    rw [hc.1]
    apply Nat.div_le_of_le_mul
    rw [Nat.mul_comm defaultRate]
    exact Nat.mul_le_mul_left _ hfee
  -- with a reward the new stake would cover the old shares and the fees
  have hloss : act.totalAmount ≤ p.eraSnapshot.active := by omega
  rw [Nat.sub_eq_zero_of_le hloss] at hfees hbound
  omega

theorem backed_of_active (act : Activation p stackInfo) (hbacked : Backed p)
    (hfee : p.platformFeeCommission ≤ calBase) : Backed act.apply := by
  unfold Backed Activation.apply
  rcases correctFirstStake_ok act.corrected with ⟨hc, hrate, hactive⟩ |
    ⟨-, hrate, hactive⟩
  · obtain ⟨hplatform, hstack, -⟩ :=
      corrected_without_fees act hbacked hfee hc
    rw [hrate, hactive, hplatform, hstack, ← hc.1]
    exact hbacked
  · rw [hrate, hactive]
    exact (rateOf_ok act.rate).1

end

theorem migratedRate_ok {p : PoolInfo} {rate : Nat}
    (h : migratedRate p = .ok rate) :
    Covered calBase rate p.totalLsdTokenAmount p.active := by
  unfold migratedRate at h
  split at h
  case isTrue hzero =>
      rw [hzero]
      exact covered_zero _ _ _
  case isFalse =>
      simp only [bind_eq_ok, mulBelow_eq_ok, divExact_eq_ok] at h
      obtain ⟨_, ⟨-, rfl⟩, -, rfl⟩ := h
      exact covered_rateFor calBase p.totalLsdTokenAmount p.active

section

variable {store : Storage} {querier : Querier} {env : Env}
  {info : MessageInfo} {a : String} {p p' : PoolInfo} {msg : ExecuteMsg}
  {sent : Option SubMsg}

theorem backed_of_era (h : EraStep store querier env a p msg sent p')
    (hbacked : Backed p) (hfee : p.platformFeeCommission ≤ calBase) :
    Backed p' := by
  cases h with
  | init htarget hstatus hcalls => exact covered_zero _ _ _
  | migrate htarget hstatus hrate hcal hcalls => exact migratedRate_ok hcal
  | active hstatus hshares hstack act htotal =>
      exact backed_of_active act hbacked hfee
  | _ => exact hbacked

/-- Every accepted call keeps the tokens backed. -/
theorem backed_of_call (h : ExecStep store querier env info a p msg sent p')
    (hbacked : Backed p) (hfee : p.platformFeeCommission ≤ calBase) :
    Backed p' := by
  cases h with
  | stake hfunds hdenom hrate => exact hbacked.deposit _
  | unstake hfee hle hburned htoken hactive htotal hlarge =>
      subst htoken
      exact hbacked.redeem _
  | config hpool hconfig =>
      obtain ⟨_, _, _, _, _, _, _, _, _, _, _, rfl⟩ := hconfig
      exact hbacked
  | era hera => exact backed_of_era hera hbacked hfee
  | _ => exact hbacked

/-- Every handled answer keeps the tokens backed. -/
theorem backed_of_answer {height : Nat} {payload : SudoPayload}
    {answer : Answer} (h : AnswerStep height p payload answer p')
    (hbacked : Backed p) : Backed p' := by
  cases h with
  | stakeLsm htype hcredit hrate => exact hbacked.deposit _
  | era hera => cases hera <;> exact hbacked
  | _ => exact hbacked

end

namespace World

variable {net : Network} {w w' : World} {ev : Event} {a : String}
  {p p' : PoolInfo}

/-- No commission takes more than everything. -/
def CommissionsBounded (a : String) (w : World) : Prop :=
  (∀ p ∈ w.store.pools a, p.platformFeeCommission ≤ calBase ∧
    p.unbondCommission ≤ calBase) ∧
  ∀ stack ∈ w.store.stack, stack.stackFeeCommission ≤ calBase

instance (a : String) (w : World) : Decidable (CommissionsBounded a w) :=
  inferInstanceAs (Decidable (_ ∧ _))

theorem backed_of_move (hmove : PoolMove net w ev w' a p p')
    (hbacked : Backed p) (hfee : p.platformFeeCommission ≤ calBase) :
    Backed p' := by
  cases hmove with
  | executed haction hstep hsends => exact backed_of_call hstep hbacked hfee
  | answered haction hpacket hpayload hpool hstep hpending =>
      exact backed_of_answer hstep hbacked
  | _ => exact hbacked

/-- The tokens of the pool are backed, in a sound state. -/
def AllBacked (net : Network) (a : String) (w : World) : Prop :=
  Sound net w ∧ ∀ p, w.store.pools a = some p → Backed p

theorem allBacked_step (hinv : AllBacked net a w)
    (hstep : w.step net ev = some w') (hbound : CommissionsBounded a w) :
    AllBacked net a w' :=
  ⟨sound_step hinv.1 hstep, pool_invariant hinv.1 hstep hinv.2
    (fun _ _ hp _ hbacked hmove =>
      backed_of_move hmove hbacked (hbound.1 _ hp).1)
    fun _ _ _ _ _ _ _ => covered_zero _ _ _⟩

theorem allBacked_genesis (net : Network) (a : String) (block : BlockInfo)
    (info : MessageInfo) (lsdTokenCodeId : Nat) :
    AllBacked net a (genesis block info lsdTokenCodeId) :=
  ⟨sound_genesis net block info lsdTokenCodeId, fun _ h => nomatch h⟩

/-- The tokens of a pool are backed in every reachable state, so that no
unstake takes more than there is. -/
theorem lsd_tokens_backed {net : Network} {a : String} {block : BlockInfo}
    {info : MessageInfo} {lsdTokenCodeId : Nat} {evs : List Event}
    (hbound : Transition.AllSteps (step net)
      (fun w _ _ => CommissionsBounded a w)
      (genesis block info lsdTokenCodeId) evs)
    {w : World}
    (hrun : Transition.exec (step net) (genesis block info lsdTokenCodeId)
      evs = some w)
    {p : PoolInfo} (hp : w.store.pools a = some p) :
    p.rate * p.totalLsdTokenAmount ≤ p.active * calBase ∧
      ∀ burned, burned ≤ p.totalLsdTokenAmount →
        burned * p.rate / calBase ≤ p.active := by
  have hinv := Transition.AllSteps.invariant_last (AllBacked net a)
    (fun _ _ _ hinv hstep hb => allBacked_step hinv hstep hb)
    (allBacked_genesis net a block info lsdTokenCodeId) hbound hrun
  have hbacked := hinv.2 p hp
  exact ⟨hbacked, fun burned hburned => hbacked.worth_le hburned⟩

/-- After the first era of a fresh pool. -/
theorem lsd_tokens_backed_sample :
    ∃ w p, Sample.run (Sample.setup ++ Sample.firstEra) = some w ∧
      w.store.pools Sample.pool = some p ∧
      p.rate * p.totalLsdTokenAmount ≤ p.active * calBase ∧
      ∀ burned, burned ≤ p.totalLsdTokenAmount →
        burned * p.rate / calBase ≤ p.active := by
  obtain ⟨w, p, hw, hp, -⟩ := Sample.exists_of_run
    (Sample.setup ++ Sample.firstEra) (fun _ _ => true) (by decide +kernel)
  exact ⟨w, p, hw, hp, lsd_tokens_backed (by decide +kernel) hw hp⟩

end World

end NeutronContracts
