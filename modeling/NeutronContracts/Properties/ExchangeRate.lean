/-
The exchange rate as a divisor.  Only an activation can bring it to zero, by
dividing a stake that has shrunk to less than a millionth of a coin for every
share; migration checks for a rate of zero, the activation does not.
-/
import NeutronContracts.Properties.Backing

namespace NeutronContracts

open StakeManager Fallible Fund

/-- A share has a price, and nothing fails by a division through it. -/
structure RateDefined (p : PoolInfo) : Prop where
  positive : 0 < p.rate
  division : ∀ n, ∃ quotient,
    (Uint128.div n p.rate : NeutronResult Nat) = .ok quotient

theorem rateDefined_iff {p : PoolInfo} : RateDefined p ↔ 0 < p.rate := by
  refine ⟨RateDefined.positive, fun h => ⟨h, fun n => ?_⟩⟩
  exact ⟨_, divExact_eq_ok.mpr ⟨h.ne', rfl⟩⟩

instance (p : PoolInfo) : Decidable (RateDefined p) :=
  decidable_of_iff _ rateDefined_iff.symm

/-- The shares after an activation that finds `total` delegated. -/
def eraShares (p : PoolInfo) (total : Nat) : Nat :=
  p.totalLsdTokenAmount +
    (total - p.eraSnapshot.active) * p.platformFeeCommission / p.rate

/-- The stake after an activation that finds `total` delegated. -/
def eraStake (p : PoolInfo) (total : Nat) : Nat :=
  p.active + total - p.eraSnapshot.active

/-- There are no shares or enough stake for them, or the rate is the default
one and the stake has not fallen by 1000. -/
def Priced (p : PoolInfo) (total : Nat) : Prop :=
  eraShares p total = 0 ∨ eraShares p total ≤ eraStake p total * calBase ∨
    (p.rate = defaultRate ∧ p.active < eraStake p total + 1000)

instance (p : PoolInfo) (total : Nat) : Decidable (Priced p total) :=
  inferInstanceAs (Decidable (_ ∨ _))

section

variable {p : PoolInfo} {stackInfo : Stack}

theorem rateOf_pos_iff {active shares rate : Nat}
    (h : rateOf active shares = .ok rate) :
    0 < rate ↔ shares = 0 ∨ shares ≤ active * calBase := by
  unfold rateOf at h
  split at h
  case isTrue hpos =>
      simp only [bind_eq_ok, mulBelow_eq_ok, divExact_eq_ok] at h
      obtain ⟨_, ⟨-, rfl⟩, -, rfl⟩ := h
      rw [Nat.div_pos_iff]
      constructor
      · exact fun hrate => .inr hrate.2
      · rintro (hzero | hle)
        · omega
        · exact ⟨hpos, hle⟩
  case isFalse hzero =>
      simp only [pure_eq_ok] at h
      obtain rfl := h
      exact ⟨fun _ => .inl (Nat.eq_zero_of_not_pos hzero), fun _ => by decide⟩

/-- An activation leaves a price exactly when it finds enough delegated. -/
theorem newRate_pos_iff (act : Activation p stackInfo) :
    0 < act.newRate ↔ Priced p act.totalAmount := by
  have hshares : p.totalLsdTokenAmount + act.platformFee + act.stackFee =
      eraShares p act.totalAmount := by
    rw [eraShares, ← protocolFees_ok act.fees, Nat.add_assoc]
  have hstake : act.plainActive = eraStake p act.totalAmount :=
    activeAfterEra_ok act.active
  have hplain := rateOf_pos_iff act.rate
  have hcorrected := correctFirstStake_ok act.corrected
  rw [hshares, hstake] at hplain
  rw [hstake] at hcorrected
  unfold Priced
  rcases hcorrected with ⟨⟨hdefault, -, hloss⟩, hrate, -⟩ |
    ⟨hnot, hrate, -⟩
  · rw [hrate]
    exact ⟨fun _ => .inr (.inr ⟨hdefault, hloss⟩), fun _ => by decide⟩
  · rw [hrate, hplain]
    constructor
    · rintro (hzero | hle)
      · exact .inl hzero
      · exact .inr (.inl hle)
    · rintro (hzero | hle | ⟨hdefault, hloss⟩)
      · exact .inl hzero
      · exact .inr hle
      -- a rate of zero would have been corrected
      · rw [← hplain]
        by_contra hnone
        refine hnot ⟨hdefault, ?_, hloss⟩
        rw [Nat.eq_zero_of_not_pos hnone]
        decide

end

namespace World

variable {net : Network} {w w' : World} {ev : Event} {a : String}
  {p p' : PoolInfo}

/-- The rate of a started pool is defined. -/
def RatesDefined (a : String) (w : World) : Prop :=
  ∀ p ∈ w.store.pools a, p.status ≠ .registerEnded → RateDefined p

instance (a : String) (w : World) : Decidable (RatesDefined a w) :=
  inferInstanceAs (Decidable (∀ p ∈ w.store.pools a,
    p.status ≠ .registerEnded → RateDefined p))

/-- An activation finds enough delegated for the shares of the pool. -/
def FindsStake (a : String) (w : World) (ev : Event) : Prop :=
  ∀ querier ∈ activation a ev, ∀ p ∈ w.store.pools a,
    ∀ total ∈ (eraTotalAmount w.store querier a p).toOption, Priced p total

instance (a : String) (w : World) (ev : Event) :
    Decidable (FindsStake a w ev) :=
  inferInstanceAs (Decidable (∀ querier ∈ activation a ev,
    ∀ p ∈ w.store.pools a,
      ∀ total ∈ (eraTotalAmount w.store querier a p).toOption,
        Priced p total))

/-- How an event changes the rate of a pool that has started. -/
inductive RateMove (a : String) (w : World) (ev : Event) (p p' : PoolInfo) :
    Prop
  | kept (hrate : p'.rate = p.rate)
  | activated {querier stackInfo}
      (hactivation : activation a ev = some querier)
      (act : Activation p stackInfo)
      (htotal : eraTotalAmount w.store querier a p = .ok act.totalAmount)
      (hrate : p'.rate = act.newRate)

theorem rateMove_of_move (hlive : p.status ≠ .registerEnded)
    (hmove : PoolMove net w ev w' a p p') : RateMove a w ev p p' := by
  cases hmove with
  | executed haction hexec hsends =>
      cases hexec with
      | era hera =>
          cases hera with
          | init _ hfresh => exact absurd hfresh hlive
          | migrate _ hfresh => exact absurd hfresh hlive
          | active hstatus hshares hstack act htotal =>
              exact .activated (activation_eq_some.mpr ⟨_, _, haction⟩) act
                htotal rfl
          | _ => exact .kept rfl
      | config hpool hconfig =>
          obtain ⟨_, _, _, _, _, _, _, _, _, _, _, rfl⟩ := hconfig
          exact .kept rfl
      | _ => exact .kept rfl
  | answered haction hpacket hpayload hpool hanswer hpending =>
      cases hanswer with
      | era hera => cases hera <;> exact .kept rfl
      | _ => exact .kept rfl
  | _ => exact .kept rfl

theorem rate_of_start (h : Start w ev a p p') : 0 < p'.rate := by
  cases h with
  | init => exact (by decide : 0 < calBase)
  | migrate haction htarget hrate => exact Nat.pos_of_ne_zero hrate

/-- The book-keeping, and the rate of pool `a`. -/
structure RateKept (net : Network) (a : String) (w : World) : Prop where
  sound : Sound net w
  fresh : ∀ p, w.store.pools a = some p → p.status = .registerEnded →
    Unstarted w a p
  defined : RatesDefined a w

theorem ratesDefined_step_iff (h : RateKept net a w)
    (hstep : w.step net ev = some w') :
    RatesDefined a w' ↔ FindsStake a w ev := by
  constructor
  · intro hdefined querier hactivation p hp total htotal
    obtain ⟨info, id, haction⟩ := activation_eq_some.mp hactivation
    obtain ⟨q, stackInfo, act, hq, -, -, hfound, hq'⟩ :=
      active_of_step h.sound hstep haction
    obtain rfl := Option.some.inj (hp.symm.trans hq)
    obtain rfl := Except.ok.inj
      ((toOption_eq_some.mp htotal).symm.trans hfound)
    exact (newRate_pos_iff act).mp (hdefined _ hq' nofun).positive
  · intro hfinds
    refine pool_invariant (J := fun p' =>
      p'.status ≠ .registerEnded → RateDefined p') h.sound hstep
      h.defined ?_ ?_
    · intro p p' hp hp' hpool hmove hlive'
      rw [rateDefined_iff]
      by_cases hfresh : p.status = .registerEnded
      · exact rate_of_start
          (start_of_move hmove (h.fresh p hp hfresh) hfresh hlive')
      · cases rateMove_of_move hfresh hmove with
        | kept hrate => exact hrate ▸ (hpool hfresh).positive
        | activated hactivation act htotal hrate =>
            rw [hrate, newRate_pos_iff]
            exact hfinds _ hactivation p hp _ (toOption_eq_some.mpr htotal)
    · exact fun _ _ _ _ _ _ _ hlive => absurd rfl hlive

theorem rateKept_step (h : RateKept net a w)
    (hstep : w.step net ev = some w') (hfinds : FindsStake a w ev) :
    RateKept net a w' :=
  ⟨sound_step h.sound hstep, unstarted_step h.sound hstep h.fresh,
    (ratesDefined_step_iff h hstep).mpr hfinds⟩

/-- The rate of a started pool is positive in every state of a run exactly
when every activation finds enough delegated for the shares. -/
theorem rate_defined (net : Network) (a : String) (block : BlockInfo)
    (info : MessageInfo) (lsdTokenCodeId : Nat) (evs : List Event) :
    Transition.AllSteps (step net) (fun _ _ w' => RatesDefined a w')
        (genesis block info lsdTokenCodeId) evs ↔
      Transition.AllSteps (step net) (fun w ev _ => FindsStake a w ev)
        (genesis block info lsdTokenCodeId) evs := by
  refine Transition.AllSteps.iff_of_invariant (P := fun _ _ _ => True)
    (RateKept net a) ?_ ?_ ?_ (.of_forall fun _ _ _ _ => trivial)
  · exact fun _ _ _ hinv hstep _ => ratesDefined_step_iff hinv hstep
  · exact fun _ _ _ hinv hstep _ => rateKept_step hinv hstep
  · exact ⟨sound_genesis net block info lsdTokenCodeId,
      fun _ h => (nomatch h), fun _ h => (nomatch h)⟩

/-- The delegations of the first stake are slashed to nothing before they are
counted for the first time. -/
theorem rate_defined_fails :
    let evs := Sample.setup ++ [Sample.stake 1 10000] ++
      Sample.firstBond.tail ++
      [Sample.call 3 (Sample.querier 3 [] 0) (.eraCollectWithdraw Sample.pool)
          (Sample.packetId 0),
        Sample.call 3 (Sample.querier 3 [] 0) (.eraRebond Sample.pool [])
          (Sample.packetId 0),
        Sample.call 4 (Sample.querier 4 [("val1", 0)] 0)
          (.eraActive Sample.pool) (Sample.packetId 0)]
    (Sample.run evs).isSome ∧
      ¬ Transition.AllSteps (step Sample.net)
        (fun _ _ w' => RatesDefined Sample.pool w') Sample.genesis evs :=
  ⟨by decide +kernel, by decide +kernel⟩

end World

end NeutronContracts
