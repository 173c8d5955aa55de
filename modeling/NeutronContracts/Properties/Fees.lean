/-
The commissions as fractions.  No call checks the commissions it sets; as long
as those that are named are fractions, no fee exceeds what it is taken from,
and the subtractions of the fees do not fail.
-/
import NeutronContracts.Chain.Records
import NeutronContracts.Properties.Backing

namespace NeutronContracts

open StakeManager Fallible

/-- The fee of the platform on a reward, before the stack takes its share. -/
def rawPlatformFee (p : PoolInfo) (reward : Nat) : NeutronResult Nat := do
  let scaled ← Uint128.mul reward p.platformFeeCommission
  Uint128.div scaled p.rate

/-- The share of the stack in the fee of the platform. -/
def stackFeeOf (stackInfo : Stack) (platformFeeRaw : Nat) :
    NeutronResult Nat := do
  let scaled ← Uint128.mul platformFeeRaw stackInfo.stackFeeCommission
  Uint128.div scaled calBase

/-- No fee exceeds what it is taken from, at any amount and any reward, and
both subtractions of a fee succeed. -/
structure FeesBounded (p : PoolInfo) (stackInfo : Stack) : Prop where
  unstake : ∀ amount fee, unstakeCommission p amount = .ok fee → fee ≤ amount
  burn : ∀ amount fee, unstakeCommission p amount = .ok fee →
    Uint128.sub amount fee = (.ok (amount - fee) : NeutronResult Nat)
  stack : ∀ reward raw fee, rawPlatformFee p reward = .ok raw →
    stackFeeOf stackInfo raw = .ok fee → fee ≤ raw
  split : ∀ total raw fee, p.eraSnapshot.active < total →
    rawPlatformFee p (total - p.eraSnapshot.active) = .ok raw →
      stackFeeOf stackInfo raw = .ok fee →
        protocolFees p stackInfo total = .ok (raw - fee, fee)
  platform : ∀ reward raw, rawPlatformFee p reward = .ok raw →
    raw * p.rate / calBase ≤ reward

section

variable {p p' : PoolInfo} {stackInfo : Stack}

/-- A fraction of an amount is at most the amount. -/
theorem fraction_le {commission : Nat} (h : commission ≤ calBase)
    (amount : Nat) : amount * commission / calBase ≤ amount := by
  apply Nat.div_le_of_le_mul
  rw [Nat.mul_comm calBase]
  exact Nat.mul_le_mul_left amount h

theorem unstakeCommission_le {amount fee : Nat}
    (h : p.unbondCommission ≤ calBase)
    (hfee : unstakeCommission p amount = .ok fee) : fee ≤ amount := by
  rw [unstakeCommission_ok hfee]
  exact fraction_le h amount

theorem stackFeeOf_le {raw fee : Nat}
    (h : stackInfo.stackFeeCommission ≤ calBase)
    (hfee : stackFeeOf stackInfo raw = .ok fee) : fee ≤ raw := by
  simp only [stackFeeOf, bind_eq_ok, mulBelow_eq_ok, divExact_eq_ok] at hfee
  obtain ⟨_, ⟨-, rfl⟩, -, rfl⟩ := hfee
  exact fraction_le h raw

/-- At the old rate the fee of the platform is worth at most the reward. -/
theorem rawPlatformFee_worth {reward raw : Nat}
    (h : p.platformFeeCommission ≤ calBase)
    (hraw : rawPlatformFee p reward = .ok raw) :
    raw * p.rate / calBase ≤ reward := by
  simp only [rawPlatformFee, bind_eq_ok, mulBelow_eq_ok,
    divExact_eq_ok] at hraw
  obtain ⟨_, ⟨-, rfl⟩, -, rfl⟩ := hraw
  calc reward * p.platformFeeCommission / p.rate * p.rate / calBase
      ≤ reward * p.platformFeeCommission / calBase :=
        Nat.div_le_div_right (Nat.div_mul_le_self _ _)
    _ ≤ reward := fraction_le h reward

/-- The fees of an era are what the two computations give. -/
theorem protocolFees_eq {total raw fee : Nat}
    (hreward : p.eraSnapshot.active < total)
    (hraw : rawPlatformFee p (total - p.eraSnapshot.active) = .ok raw)
    (hfee : stackFeeOf stackInfo raw = .ok fee) (hle : fee ≤ raw) :
    protocolFees p stackInfo total = .ok (raw - fee, fee) := by
  simp only [rawPlatformFee, bind_eq_ok] at hraw
  obtain ⟨scaled, hscaled, hraw⟩ := hraw
  simp only [stackFeeOf, bind_eq_ok] at hfee
  obtain ⟨scaledFee, hscaledFee, hfee⟩ := hfee
  simp only [protocolFees, if_pos hreward, bind_eq_ok, pure_eq_ok]
  exact ⟨scaled, hscaled, raw, hraw, scaledFee, hscaledFee, fee, hfee,
    raw - fee, subExact_eq_ok.mpr ⟨hle, rfl⟩, rfl⟩

theorem feesBounded_of_fractions (hplatform : p.platformFeeCommission ≤ calBase)
    (hunbond : p.unbondCommission ≤ calBase)
    (hstack : stackInfo.stackFeeCommission ≤ calBase) :
    FeesBounded p stackInfo where
  unstake _ _ hfee := unstakeCommission_le hunbond hfee
  burn _ _ hfee :=
    subExact_eq_ok.mpr ⟨unstakeCommission_le hunbond hfee, rfl⟩
  stack _ _ _ _ hfee := stackFeeOf_le hstack hfee
  split _ _ _ hreward hraw hfee :=
    protocolFees_eq hreward hraw hfee (stackFeeOf_le hstack hfee)
  platform _ _ hraw := rawPlatformFee_worth hplatform hraw

end

/-- The commissions a call names. -/
def StakeManager.ExecuteMsg.commissions : ExecuteMsg → List Nat
  | .initPool param => param.platformFeeCommission.toList
  | .migratePool param => param.platformFeeCommission.toList
  | .configPool param =>
      param.unbondCommission.toList ++ param.platformFeeCommission.toList
  | .configStack param => param.stackFeeCommission.toList
  | _ => []

namespace Sample

/-- A commission of one percent on unstaking. -/
def charged : List Event := setup ++ firstEra ++
  [configure 4 { unchanged with unbondCommission := some 10000 }]

/-- The commission on an unstake is set to twice the amount, and the share of
the stack to twice the fee of the platform. -/
def overcharged : List Event := setup ++ firstBond ++ [
  configure 2 { unchanged with unbondCommission := some 2000000 },
  call 2 (querier 0 [] 0)
    (.configStack
      { stackFeeReceiver := none
        newAdmin := none
        stackFeeCommission := some 2000000
        lsdTokenCodeId := none
        addEntrustedPool := none })
    (packetId 0)]

end Sample

namespace World

variable {net : Network} {w w' : World} {ev : Event} {a : String}
  {p p' : PoolInfo}

/-- Every commission that is named for pool `a` or for the stack is a
fraction. -/
def NamesFractions (a : String) (w : World) (ev : Event) : Prop :=
  match ev.action with
  | .execute _ _ msg _ =>
      msg.target w.store = some a ∨ msg.target w.store = none →
        ∀ commission ∈ msg.commissions, commission ≤ calBase
  | _ => True

instance (a : String) (w : World) (ev : Event) :
    Decidable (NamesFractions a w ev) :=
  match ev with
  | ⟨_, .execute _ _ msg _⟩ => inferInstanceAs (Decidable
      (msg.target w.store = some a ∨ msg.target w.store = none →
        ∀ commission ∈ msg.commissions, commission ≤ calBase))
  | ⟨_, .answer _ _ _ _⟩ => .isTrue trivial
  | ⟨_, .openAck _ _ _ _⟩ => .isTrue trivial
  | ⟨_, .kvQueryResult _ _⟩ => .isTrue trivial
  | ⟨_, .token _ _ _ _⟩ => .isTrue trivial

theorem named_le (h : NamesFractions a w ev) {querier : Querier}
    {info : MessageInfo} {msg : ExecuteMsg} {id : PacketId}
    (haction : ev.action = .execute querier info msg id)
    (htarget : msg.target w.store = some a ∨ msg.target w.store = none) :
    ∀ commission ∈ msg.commissions, commission ≤ calBase := by
  unfold NamesFractions at h
  rw [haction] at h
  exact h htarget

/-- A commission that is named or else kept. -/
theorem getD_le_calBase {named : Option Nat} {old : Nat}
    (hnamed : ∀ commission ∈ named.toList, commission ≤ calBase)
    (hold : old ≤ calBase) : named.getD old ≤ calBase := by
  cases named with
  | none => exact hold
  | some commission => exact hnamed commission (by simp)

theorem fractions_of_move (hmove : PoolMove net w ev w' a p p')
    (hnamed : NamesFractions a w ev)
    (hold : p.platformFeeCommission ≤ calBase ∧
      p.unbondCommission ≤ calBase) :
    p'.platformFeeCommission ≤ calBase ∧ p'.unbondCommission ≤ calBase := by
  cases hmove with
  | executed haction hstep hsends =>
      have hnamed := fun htarget => named_le hnamed haction (.inl htarget)
      cases hstep with
      | config hpool hconfig =>
          have hnamed := hnamed (congrArg some hpool)
          obtain ⟨_, _, _, _, _, _, _, _, _, _, _, rfl⟩ := hconfig
          simp only [ExecuteMsg.commissions, List.mem_append] at hnamed
          exact ⟨getD_le_calBase (fun c hc => hnamed c (.inr hc)) hold.1,
            getD_le_calBase (fun c hc => hnamed c (.inl hc)) hold.2⟩
      | era hera =>
          cases hera with
          | init htarget =>
              exact ⟨getD_le_calBase (hnamed htarget) (by decide),
                Nat.zero_le _⟩
          | migrate htarget =>
              exact ⟨getD_le_calBase (hnamed htarget) (by decide),
                Nat.zero_le _⟩
          | _ => exact hold
      | _ => exact hold
  | answered haction hpacket hpayload hpool hstep hpending =>
      cases hstep with
      | era hera => cases hera <;> exact hold
      | _ => exact hold
  | _ => exact hold

theorem stackFraction_step (hs : Sound net w)
    (hstep : w.step net ev = some w') (hnamed : NamesFractions a w ev)
    (hold : ∀ stack ∈ w.store.stack, stack.stackFeeCommission ≤ calBase) :
    ∀ stack ∈ w'.store.stack, stack.stackFeeCommission ≤ calBase := by
  by_cases hconfig : ∃ querier info param id,
      ev.action = .execute querier info (.configStack param) id
  · obtain ⟨querier, info, param, id, haction⟩ := hconfig
    obtain ⟨store, rsp, sent, hexec⟩ := executed_of_step hs hstep haction
    obtain ⟨stack, stack', hstack, hfee, hstore, -⟩ :=
      executeConfigStack_ok hexec.call
    rw [hexec.records.stack, hstore]
    intro saved hsaved
    obtain rfl := Option.some.inj hsaved
    rw [hfee]
    exact getD_le_calBase (named_le hnamed haction (.inr rfl))
      (hold stack hstack)
  · rw [stack_of_step hs hstep fun querier info param id haction =>
      hconfig ⟨querier, info, param, id, haction⟩]
    exact hold

theorem commissionsBounded_step (hs : Sound net w)
    (hstep : w.step net ev = some w') (hnamed : NamesFractions a w ev)
    (h : CommissionsBounded a w) : CommissionsBounded a w' := by
  refine ⟨?_, stackFraction_step hs hstep hnamed h.2⟩
  exact pool_invariant hs hstep h.1
    (fun _ _ _ _ hold hmove => fractions_of_move hmove hnamed hold)
    fun _ _ _ _ _ _ _ => ⟨Nat.zero_le _, Nat.zero_le _⟩

theorem commissionsBounded_genesis (a : String) (block : BlockInfo)
    (info : MessageInfo) (lsdTokenCodeId : Nat) :
    CommissionsBounded a (genesis block info lsdTokenCodeId) := by
  refine ⟨fun _ h => (nomatch h), fun stack hstack => ?_⟩
  obtain rfl := Option.some.inj hstack
  exact (by decide : 100000 ≤ calBase)

/-- As long as the calls name fractions, no fee exceeds what it is taken from
in any reachable state. -/
theorem fees_bounded {net : Network} {a : String} {block : BlockInfo}
    {info : MessageInfo} {lsdTokenCodeId : Nat} {evs : List Event}
    (hnamed : Transition.AllSteps (step net)
      (fun w ev _ => NamesFractions a w ev)
      (genesis block info lsdTokenCodeId) evs)
    {w : World}
    (hrun : Transition.exec (step net) (genesis block info lsdTokenCodeId)
      evs = some w)
    {p : PoolInfo} (hp : w.store.pools a = some p)
    {stackInfo : Stack} (hstack : w.store.stack = some stackInfo) :
    FeesBounded p stackInfo := by
  have hinv := Transition.AllSteps.invariant_last
    (fun w => Sound net w ∧ CommissionsBounded a w)
    (fun _ _ _ hinv hstep hnamed => ⟨sound_step hinv.1 hstep,
      commissionsBounded_step hinv.1 hstep hnamed hinv.2⟩)
    ⟨sound_genesis net block info lsdTokenCodeId,
      commissionsBounded_genesis a block info lsdTokenCodeId⟩ hnamed hrun
  obtain ⟨hpools, hstacks⟩ := hinv.2
  exact feesBounded_of_fractions (hpools p hp).1 (hpools p hp).2
    (hstacks stackInfo hstack)

theorem fees_bounded_sample :
    ∃ w p stackInfo, Sample.run Sample.charged = some w ∧
      w.store.pools Sample.pool = some p ∧ w.store.stack = some stackInfo ∧
      FeesBounded p stackInfo := by
  obtain ⟨w, p, hw, hp, hstack⟩ := Sample.exists_of_run Sample.charged
    (fun w _ => w.store.stack.isSome) (by decide +kernel)
  obtain ⟨stackInfo, hstack⟩ := Option.isSome_iff_exists.mp hstack
  exact ⟨w, p, stackInfo, hw, hp, hstack,
    fees_bounded (by decide +kernel) hw hp hstack⟩

/-- Without fractions an unstake of 1000 shares costs 2000, and of a fee of 5
on a reward of 50 the stack takes 10. -/
theorem fees_bounded_fails :
    ∃ w p stackInfo, Sample.run Sample.overcharged = some w ∧
      w.store.pools Sample.pool = some p ∧ w.store.stack = some stackInfo ∧
      unstakeCommission p 1000 = .ok 2000 ∧
      rawPlatformFee p 50 = .ok 5 ∧ stackFeeOf stackInfo 5 = .ok 10 ∧
      ¬ FeesBounded p stackInfo := by
  obtain ⟨w, p, hw, hp, htest⟩ := Sample.exists_of_run Sample.overcharged
    (fun w p => decide ((unstakeCommission p 1000).toOption = some 2000 ∧
      (rawPlatformFee p 50).toOption = some 5 ∧
      (w.store.stack.bind fun stackInfo =>
        (stackFeeOf stackInfo 5).toOption) = some 10)) (by decide +kernel)
  simp only [decide_eq_true_eq, toOption_eq_some, Option.bind_eq_some_iff]
    at htest
  obtain ⟨hunstake, hraw, stackInfo, hstack, hfee⟩ := htest
  exact ⟨w, p, stackInfo, hw, hp, hstack, hunstake, hraw, hfee,
    fun h => absurd (h.unstake 1000 2000 hunstake) (by decide)⟩

end World

end NeutronContracts
