/-
The era ledger: what an activation makes of the active stake, in terms of the
delegations it reads and the stake that is still to be bonded and unbonded.

Stakes and unstakes move the same amount in two counters, the bond step
subtracts what the snapshot has frozen, and an activation adds the whole
delegation total and subtracts the snapshot.  Shares credited after the
snapshot are in the total and in the live counter, so they count twice.
-/
import NeutronContracts.Properties.Backing

namespace NeutronContracts

open StakeManager Fallible Fund

/-- The statuses between the end of the bond step and the activation. -/
def afterBond (status : EraStatus) : Prop :=
  status = .bondEnded ∨ status = .withdrawStarted ∨
    status = .withdrawEnded ∨ status = .rebondEnded

/-- The live counters against the snapshot, with the stake `credited` by
answers since the snapshot. -/
structure Balanced (p : PoolInfo) (credited : Nat) : Prop where
  before : beforeBond p.status →
    p.active + p.unbond + p.eraSnapshot.bond =
      p.eraSnapshot.active + p.bond + p.eraSnapshot.unbond + credited
  after : afterBond p.status →
    p.active + p.unbond = p.eraSnapshot.active + p.bond + credited

/-- Whether an activation takes the branch of the first-stake correction. -/
def correctionTaken (p : PoolInfo) (stackInfo : Stack) (total : Nat) : Bool :=
  match protocolFees p stackInfo total, activeAfterEra p total with
  | .ok (platformFee, stackFee), .ok plainActive =>
      match rateOf plainActive
          (p.totalLsdTokenAmount + platformFee + stackFee) with
      | .ok plainRate => decide (p.rate = defaultRate ∧
          plainRate < defaultRate ∧ p.active < plainActive + 1000)
      | .error _ => false
  | _, _ => false

section

variable {p : PoolInfo} {stackInfo : Stack}

theorem correctionTaken_iff (act : Activation p stackInfo) :
    correctionTaken p stackInfo act.totalAmount = true ↔
      Corrected p act.plainRate act.plainActive := by
  simp only [correctionTaken, act.fees, act.active, act.rate,
    decide_eq_true_eq]
  rfl

theorem newActive_plain (act : Activation p stackInfo)
    (h : correctionTaken p stackInfo act.totalAmount = false) :
    act.newActive = p.active + act.totalAmount - p.eraSnapshot.active := by
  rcases correctFirstStake_ok act.corrected with ⟨hc, -⟩ | ⟨-, -, hactive⟩
  · rw [(correctionTaken_iff act).mpr hc] at h
    cases h
  · rw [hactive, activeAfterEra_ok act.active]

theorem newActive_corrected (act : Activation p stackInfo)
    (h : correctionTaken p stackInfo act.totalAmount = true) :
    act.newActive = p.active := by
  rcases correctFirstStake_ok act.corrected with ⟨-, -, hactive⟩ | ⟨hc, -⟩
  · exact hactive
  · exact absurd ((correctionTaken_iff act).mp h) hc

end

namespace World

variable {net : Network} {w w' : World} {ev : Event} {a : String}
  {p p' : PoolInfo}

/-- The stake that answers have credited since the snapshot of the era. -/
def creditAfter (a : String) (credited : Nat) (ev : Event)
    (p p' : PoolInfo) : Nat :=
  match ev.action with
  | .execute _ _ (.eraUpdate poolAddr) _ =>
      if poolAddr = a then 0 else credited
  | .answer _ _ _ _ => credited + (p'.active - p.active)
  | _ => credited

/-- A call other than the update of the pool credits nothing. -/
theorem creditAfter_execute {credited : Nat} {querier : Querier}
    {info : MessageInfo} {msg : ExecuteMsg} {id : PacketId}
    (haction : ev.action = .execute querier info msg id)
    (hmsg : msg ≠ .eraUpdate a) :
    creditAfter a credited ev p p' = credited := by
  unfold creditAfter
  rw [haction]
  split
  · rename_i heq
    simp only [Action.execute.injEq] at heq
    obtain ⟨-, -, rfl, -⟩ := heq
    split
    · rename_i hpool
      exact absurd (by rw [hpool]) hmsg
    · rfl
  · rename_i heq
    cases heq
  · rfl

theorem balanced_of_era {querier : Querier} {info : MessageInfo}
    {msg : ExecuteMsg} {id : PacketId} {sent : Option SubMsg}
    {credited : Nat} (hb : Balanced p credited)
    (haction : ev.action = .execute querier info msg id)
    (hera : EraStep w.store querier ⟨ev.block, net.self⟩ a p msg sent p') :
    Balanced p' (creditAfter a credited ev p p') := by
  cases hera with
  | init htarget hstatus hcalls =>
      exact ⟨by simp [beforeBond], by simp [afterBond]⟩
  | migrate htarget hstatus hrate hcal hcalls =>
      exact ⟨by simp [beforeBond], by simp [afterBond]⟩
  | retry htarget hmsg hstatus hcalls =>
      exact ⟨by simp [beforeBond, hstatus], by simp [afterBond, hstatus]⟩
  | eraUpdate hstatus hupdate hbond =>
      refine ⟨fun _ => ?_, by simp [afterBond]⟩
      simp [creditAfter, haction, startEra]
      omega
  | eraUpdateSent hstatus hupdate hbond hcalls =>
      refine ⟨fun _ => ?_, by simp [afterBond, startEra]⟩
      simp [creditAfter, haction, startEra]
      omega
  | eraBond hstatus hmsgs hsent hcalls =>
      rw [creditAfter_execute haction (by simp)]
      exact ⟨fun _ => hb.before (.inr (.inl hstatus)), by simp [afterBond]⟩
  | collect hstatus hinfo hamount =>
      rw [creditAfter_execute haction (by simp)]
      exact ⟨by simp [beforeBond], fun _ => hb.after (.inl hstatus)⟩
  | collectSent hstatus hinfo hamount hne hcalls hmsgs =>
      rw [creditAfter_execute haction (by simp)]
      exact ⟨by simp [beforeBond], fun _ => hb.after (.inl hstatus)⟩
  | rebond hstatus hzero =>
      rw [creditAfter_execute haction (by simp)]
      exact ⟨by simp [beforeBond],
        fun _ => hb.after (.inr (.inr (.inl hstatus)))⟩
  | rebondSent hstatus hne hmsgs hsent hcalls =>
      rw [creditAfter_execute haction (by simp)]
      exact hb
  | active hstatus hshares hstack act htotal =>
      exact ⟨by simp [beforeBond, Activation.apply],
        by simp [afterBond, Activation.apply]⟩

theorem balanced_of_answer {id : PacketId} {answer : Answer} {height : Nat}
    {querier : Querier} {bankAccepts : Bool} {payload : SudoPayload}
    {credited : Nat} (hb : Balanced p credited)
    (haction : ev.action = .answer id answer querier bankAccepts)
    (hawaited : payload.txType.isEra = true →
      awaited p.status = some payload.txType)
    (hera : EraAnswer height p payload answer p') :
    Balanced p' (creditAfter a credited ev p p') := by
  have hstatus : ∀ txType, payload.txType = txType → txType.isEra = true →
      awaited p.status = some txType := by
    rintro _ rfl hkind
    exact hawaited hkind
  cases hera with
  | setWithdraw htype => exact ⟨by simp [beforeBond], by simp [afterBond]⟩
  | setWithdrawFailed htype hfailed =>
      exact ⟨by simp [beforeBond], by simp [afterBond]⟩
  | eraUpdate htype =>
      have hstarted := status_of_awaited.1.mp (hstatus _ htype rfl)
      refine ⟨fun _ => ?_, by simp [afterBond]⟩
      simpa [creditAfter, haction] using hb.before (.inl hstarted)
  | eraUpdateFailed htype hfailed hera =>
      exact ⟨by simp [beforeBond], by simp [afterBond]⟩
  | eraBond htype hbond hunbond =>
      have hstarted := status_of_awaited.2.1.mp (hstatus _ htype rfl)
      refine ⟨by simp [beforeBond], fun _ => ?_⟩
      have hbefore := hb.before (.inr (.inr hstarted))
      simp only [creditAfter, haction, Nat.sub_self, Nat.add_zero]
      omega
  | eraBondFailed htype hfailed =>
      have hstarted := status_of_awaited.2.1.mp (hstatus _ htype rfl)
      refine ⟨fun _ => ?_, by simp [afterBond]⟩
      simpa [creditAfter, haction] using hb.before (.inr (.inr hstarted))
  | collect htype =>
      have hstarted := status_of_awaited.2.2.1.mp (hstatus _ htype rfl)
      refine ⟨by simp [beforeBond], fun _ => ?_⟩
      simpa [creditAfter, haction] using hb.after (.inr (.inl hstarted))
  | collectFailed htype hfailed =>
      have hstarted := status_of_awaited.2.2.1.mp (hstatus _ htype rfl)
      refine ⟨by simp [beforeBond], fun _ => ?_⟩
      simpa [creditAfter, haction] using hb.after (.inr (.inl hstarted))
  | rebond htype =>
      have hstarted := status_of_awaited.2.2.2.mp (hstatus _ htype rfl)
      refine ⟨by simp [beforeBond], fun _ => ?_⟩
      simpa [creditAfter, haction] using
        hb.after (.inr (.inr (.inl hstarted)))
  | rebondFailed htype hfailed =>
      have hstarted := status_of_awaited.2.2.2.mp (hstatus _ htype rfl)
      refine ⟨by simp [beforeBond], fun _ => ?_⟩
      simpa [creditAfter, haction] using
        hb.after (.inr (.inr (.inl hstarted)))

/-- Every move of a pool in its cycle keeps the counters balanced. -/
theorem balanced_of_move {credited : Nat} (hc : InCycle w a p)
    (hb : Balanced p credited) (hmove : PoolMove net w ev w' a p p') :
    Balanced p' (creditAfter a credited ev p p') := by
  cases hmove with
  | executed haction hstep hsends =>
      rcases hstep.calm_or_era with hcalm | hera
      · rw [creditAfter_execute haction]
        · have hledger := hcalm.ledger
          refine ⟨fun h => ?_, fun h => ?_⟩
          · have hbefore := hb.before (hcalm.status ▸ h)
            rw [hcalm.snapshot]
            omega
          · have hafter := hb.after (hcalm.status ▸ h)
            rw [hcalm.snapshot]
            omega
        · rintro rfl
          exact hcalm.call rfl rfl
      · exact balanced_of_era hb haction hera
  | answered haction hpacket hpayload hpool hstep hpending =>
      rcases hstep.calm_or_era with hcalm | hera
      · have hactive := hcalm.active
        refine ⟨fun h => ?_, fun h => ?_⟩
        · have hbefore := hb.before (hcalm.status ▸ h)
          rw [hcalm.snapshot, hcalm.bond, hcalm.unbond]
          simp only [creditAfter, haction]
          omega
        · have hafter := hb.after (hcalm.status ▸ h)
          rw [hcalm.snapshot, hcalm.bond, hcalm.unbond]
          simp only [creditAfter, haction]
          omega
      · exact balanced_of_answer hb haction (fun hkind =>
          (hc.awaited_of_packet hpacket hpayload hpool hkind).2) hera
  | answeredElsewhere haction hpacket helsewhere hpending =>
      simpa [creditAfter, haction] using hb
  | vain haction hpacket hpayload hpool hvain hpending =>
      simpa [creditAfter, haction] using hb
  | idle hexecute hanswer hpending =>
      have hsame : creditAfter a credited ev p p = credited := by
        unfold creditAfter
        split
        · rename_i h
          exact absurd h (hexecute _ _ _ _)
        · rename_i h
          exact absurd h (hanswer _ _ _ _)
        · rfl
      rw [hsame]
      exact hb

/-- A pool that has just come into being is in no era. -/
theorem balanced_registered (icaId admin : String) (credited : Nat) :
    Balanced (registeredPool icaId admin) credited :=
  ⟨by simp [beforeBond, registeredPool], by simp [afterBond, registeredPool]⟩

/-! ### Without shares -/

/-- Whether the event stakes shares in pool `a`. -/
def stakesLsm (a : String) (ev : Event) : Bool :=
  match ev.action with
  | .execute _ _ (.stakeLsm _ poolAddr) _ => decide (poolAddr = a)
  | _ => false

/-- The pool is in order, its ledger balances, its tokens are backed and no
share is on its way. -/
structure Plain (w : World) (a : String) (p : PoolInfo) : Prop where
  order : InOrder w a p
  balanced : Balanced p 0
  backed : Backed p
  noLsm : ∀ id, ¬ w.Unanswered a .stakeLsm id

theorem noLsm_of_move (hnone : ∀ id, ¬ w.Unanswered a .stakeLsm id)
    (hev : stakesLsm a ev = false) (hmove : PoolMove net w ev w' a p p') :
    ∀ id, ¬ w'.Unanswered a .stakeLsm id := by
  intro id hid
  cases hmove with
  | executed haction hstep hsends =>
      rename_i querier info msg _ sent
      rcases unanswered_of_sends hsends hid with hold | ⟨sub, rfl, hcalls⟩
      · exact hnone id hold
      obtain ⟨hkind, htarget⟩ := hstep.sends hcalls
      cases msg with
      | stakeLsm user poolAddr =>
          obtain rfl := Option.some.inj htarget
          simp [stakesLsm, haction] at hev
      | _ => cases hkind
  | answered _ _ _ _ _ hpending =>
      exact hnone id (unanswered_of_remove hpending hid)
  | answeredElsewhere _ _ _ hpending =>
      exact hnone id (unanswered_of_remove hpending hid)
  | vain _ _ _ _ _ hpending =>
      exact hnone id (unanswered_of_remove hpending hid)
  | idle _ _ hpending =>
      obtain ⟨packet, payload, hpacket, hrest⟩ := hid
      exact hnone id ⟨packet, payload, hpending ▸ hpacket, hrest⟩

/-- Without shares on their way no answer changes the active stake. -/
theorem active_of_answer {id : PacketId} {answer : Answer}
    {querier : Querier} {bankAccepts : Bool}
    (hnone : ∀ id, ¬ w.Unanswered a .stakeLsm id)
    (haction : ev.action = .answer id answer querier bankAccepts)
    (hmove : PoolMove net w ev w' a p p') : p'.active = p.active := by
  cases hmove with
  | answered haction' hpacket hpayload hpool hstep hpending =>
      rcases hstep.calm_or_era with hcalm | hera
      · rw [hcalm.active, lsmCredit, if_neg]
        · rfl
        · rintro ⟨htype, -⟩
          exact hnone _ ⟨_, _, hpacket, hpayload, hpool, htype⟩
      · cases hera <;> rfl
  | executed haction' => exact absurd (haction.symm.trans haction') (by simp)
  | _ => rfl

theorem creditAfter_zero (hnone : ∀ id, ¬ w.Unanswered a .stakeLsm id)
    (hmove : PoolMove net w ev w' a p p') : creditAfter a 0 ev p p' = 0 := by
  unfold creditAfter
  split
  · split <;> rfl
  · rename_i haction
    simp [active_of_answer hnone haction hmove]
  · rfl

/-- What the era ledger is about: an orderly pool without shares. -/
structure PlainRun (a : String) (w : World) (ev : Event) : Prop where
  orderly : Orderly a w ev
  bounded : CommissionsBounded a w
  noLsm : stakesLsm a ev = false

instance (a : String) (w : World) (ev : Event) : Decidable (PlainRun a w ev) :=
  decidable_of_iff
    (Orderly a w ev ∧ CommissionsBounded a w ∧ stakesLsm a ev = false)
    ⟨fun ⟨horderly, hbounded, hlsm⟩ => ⟨horderly, hbounded, hlsm⟩,
      fun h => ⟨h.orderly, h.bounded, h.noLsm⟩⟩

def AllPlain (net : Network) (a : String) (w : World) : Prop :=
  Sound net w ∧ ∀ p, w.store.pools a = some p → Plain w a p

theorem allPlain_step (hinv : AllPlain net a w)
    (hstep : w.step net ev = some w') (hplain : PlainRun a w ev) :
    AllPlain net a w' := by
  obtain ⟨hs, hI⟩ := hinv
  have horder := inOrder_step hs hstep (fun p hp => (hI p hp).order)
    hplain.orderly
  refine ⟨sound_step hs hstep, pool_invariant hs hstep hI ?_ ?_⟩
  · intro p p' hp hp' hpool hmove
    have hbalanced := balanced_of_move hpool.order.cycle hpool.balanced hmove
    rw [creditAfter_zero hpool.noLsm hmove] at hbalanced
    exact ⟨horder p' hp', hbalanced,
      backed_of_move hmove hpool.backed (hplain.bounded.1 p hp).1,
      noLsm_of_move hpool.noLsm hplain.noLsm hmove⟩
  · intro icaId admin _ _ hnone _ _
    exact ⟨⟨inCycle_registered hnone, Outstanding.matched_of_idle
      (idle_of_not_unanswered hnone) not_false⟩,
      balanced_registered icaId admin 0, covered_zero _ _ _,
      hnone .stakeLsm⟩

/-- What an activation makes of the active stake. -/
def EraLedger (a : String) (w : World) (ev : Event) (w' : World) : Prop :=
  ∀ querier, activation a ev = some querier →
    ∃ p p' stackInfo total,
      w.store.pools a = some p ∧ w'.store.pools a = some p' ∧
      w.store.stack = some stackInfo ∧
      eraTotalAmount w.store querier a p = .ok total ∧
      (correctionTaken p stackInfo total = false →
        p'.active = total + p'.bond - p'.unbond) ∧
      (correctionTaken p stackInfo total = true →
        p'.active = p.active ∧ total + p'.bond - p'.unbond < p'.active ∧
          p'.active < total + p'.bond - p'.unbond + 1000)

theorem eraLedger_of_step (hinv : AllPlain net a w)
    (hstep : w.step net ev = some w') (hplain : PlainRun a w ev) :
    EraLedger a w ev w' := by
  intro querier hev
  obtain ⟨info, id, haction⟩ := activation_eq_some.mp hev
  obtain ⟨p, stackInfo, act, hp, hstack, hstatus, htotal, hp'⟩ :=
    active_of_step hinv.1 hstep haction
  have hpool := hinv.2 p hp
  have hafter := hpool.balanced.after (.inr (.inr (.inr hstatus)))
  refine ⟨p, act.apply, stackInfo, act.totalAmount, hp, hp', hstack, htotal,
    fun hplainBranch => ?_, fun hbranch => ?_⟩
  · change act.newActive = act.totalAmount + p.bond - p.unbond
    rw [newActive_plain act hplainBranch]
    omega
  · have hc := (correctionTaken_iff act).mp hbranch
    obtain ⟨-, -, hless⟩ := corrected_without_fees act hpool.backed
      (hplain.bounded.1 p hp).1 hc
    have hactive := activeAfterEra_ok act.active
    have hbound := hc.2.2
    change act.newActive = p.active ∧
      act.totalAmount + p.bond - p.unbond < act.newActive ∧
      act.newActive < act.totalAmount + p.bond - p.unbond + 1000
    rw [newActive_corrected act hbranch]
    omega

/-- The era ledger holds at every activation of an orderly pool without
shares. -/
theorem era_ledger {net : Network} {a : String} {block : BlockInfo}
    {info : MessageInfo} {lsdTokenCodeId : Nat} {evs : List Event}
    (hplain : Transition.AllSteps (step net) (fun w ev _ => PlainRun a w ev)
      (genesis block info lsdTokenCodeId) evs) :
    Transition.AllSteps (step net) (EraLedger a)
      (genesis block info lsdTokenCodeId) evs :=
  Transition.AllSteps.of_invariant (AllPlain net a)
    (fun _ _ _ hinv hstep hp => ⟨allPlain_step hinv hstep hp,
      eraLedger_of_step hinv hstep hp⟩)
    ⟨sound_genesis net block info lsdTokenCodeId, fun _ h => nomatch h⟩ hplain

/-- The first era of a fresh pool. -/
theorem era_ledger_sample :
    Transition.AllSteps (step Sample.net) (EraLedger Sample.pool)
      Sample.genesis (Sample.setup ++ Sample.firstEra) :=
  era_ledger (by decide +kernel)

end World

end NeutronContracts
