/-
Mutual exclusion of the era steps: a packet of an era step is unanswered
exactly while the status says so, and there is never a second one.  The
rebond step sends its packet without saving its status, so the law holds
exactly in the runs in which that packet is never sent, and the answers that
set the withdraw address arrive before the first era.
-/
import NeutronContracts.Chain.EraProtocol

namespace NeutronContracts

open StakeManager Outstanding

/-- The status of a pool while the packet of a step is unanswered. -/
def startedBy : TxType → Option EraStatus
  | .eraUpdate => some .eraUpdateStarted
  | .eraBond => some .bondStarted
  | .eraCollectWithdraw => some .withdrawStarted
  | .eraRebond => some .rebondStarted
  | _ => none

/-- The statuses to which the answer to a packet leads. -/
def nextStatuses : TxType → EraStatus → List EraStatus
  | .setWithdrawAddr, .initStarted => [.activeEnded, .initFailed]
  | .setWithdrawAddr, .initFailed => [.activeEnded]
  | .eraUpdate, .eraUpdateStarted => [.eraUpdateEnded, .activeEnded]
  | .eraBond, .bondStarted => [.bondEnded, .eraUpdateEnded]
  | .eraCollectWithdraw, .withdrawStarted => [.withdrawEnded, .bondEnded]
  | .eraRebond, .rebondStarted => [.rebondEnded, .withdrawEnded]
  | _, _ => []

namespace World

/-- The packets of the era steps and the status agree, and at most one of the
packets is unanswered. -/
structure Exclusive (w : World) (a : String) (p : PoolInfo) : Prop where
  exists_iff : ∀ txType status, startedBy txType = some status →
    ((∃ id, w.Unanswered a txType id) ↔ p.status = status)
  unique : ∀ id id' txType txType', startedBy txType ≠ none →
    startedBy txType' ≠ none → w.Unanswered a txType id →
    w.Unanswered a txType' id' → id = id'

/-- An answer moves the status along the edge of its own packet, or not at
all. -/
def InTurn (a : String) (w : World) (ev : Event) (w' : World) : Prop :=
  ∀ id answer querier bankAccepts txType p p',
    ev.action = .answer id answer querier bankAccepts →
    w.Unanswered a txType id → w.store.pools a = some p →
    w'.store.pools a = some p' →
    p'.status = p.status ∨ p'.status ∈ nextStatuses txType p.status

/-- What mutual exclusion asks of a step. -/
def Mutual (a : String) (w : World) (ev : Event) (w' : World) : Prop :=
  (∀ p', w'.store.pools a = some p' → Exclusive w' a p') ∧ InTurn a w ev w'

/-- The rebond step has nothing to restake, and the withdraw address is
answered before the first era begins (or is only confirmed later). -/
structure RebondFree (a : String) (w : World) (ev : Event) : Prop where
  rebond : ∀ querier info selectVals id p,
    ev.action = .execute querier info (.eraRebond a selectVals) id →
      w.store.pools a = some p → p.eraSnapshot.restakeAmount = 0
  init : ∀ id answer querier bankAccepts p,
    ev.action = .answer id answer querier bankAccepts →
      w.Unanswered a .setWithdrawAddr id → w.store.pools a = some p →
        p.status = .initStarted ∨ p.status = .initFailed ∨
          answer = .success ∧ p.status = .activeEnded

variable {net : Network} {w w' : World} {ev : Event} {a : String}
  {p p' : PoolInfo}

theorem isEra_of_startedBy {txType : TxType} (h : startedBy txType ≠ none) :
    txType.isEra = true := by
  cases txType <;> simp [startedBy, TxType.isEra] at h ⊢

/-- Without rebond packets the invariant of the cycle is mutual exclusion. -/
theorem InCycle.exclusive (hc : InCycle w a p)
    (hnone : ∀ id, ¬ w.Unanswered a .eraRebond id) : Exclusive w a p := by
  have hexists : ∀ txType status, txType.isEra = true →
      (awaited p.status = some txType ↔ p.status = status) →
      mustWait status →
      ((∃ id, w.Unanswered a txType id) ↔ p.status = status) := by
    intro txType status hkind hawaited hmust
    have hiff : (∃ id, w.waiting TxType.isEra a id = some txType) ↔
        awaited p.status = some txType := by
      refine hc.matched.exists_iff (fun hmay => ?_) fun other h h' => ?_
      · rw [hawaited.mp hmay]
        exact hmust
      · exact Option.some.inj (h'.symm.trans h)
    rw [← hawaited, ← hiff]
    simp only [waiting_eq_some, hkind, and_true]
  refine ⟨fun txType status hstarted => ?_, fun id id' txType txType' h h'
    hid hid' => ?_⟩
  · cases txType with
    | eraUpdate =>
        obtain rfl := Option.some.inj hstarted
        exact hexists _ _ rfl status_of_awaited.1 (.inl rfl)
    | eraBond =>
        obtain rfl := Option.some.inj hstarted
        exact hexists _ _ rfl status_of_awaited.2.1 (.inr (.inl rfl))
    | eraCollectWithdraw =>
        obtain rfl := Option.some.inj hstarted
        exact hexists _ _ rfl status_of_awaited.2.2.1 (.inr (.inr rfl))
    | eraRebond =>
        obtain rfl := Option.some.inj hstarted
        exact iff_of_false (fun ⟨id, hid⟩ => hnone id hid) hc.rebond
    | _ => cases hstarted
  · exact hc.matched.unique id id' txType txType'
      (waiting_eq_some.mpr ⟨hid, isEra_of_startedBy h⟩)
      (waiting_eq_some.mpr ⟨hid', isEra_of_startedBy h'⟩)

/-- No rebond packet is unanswered. -/
def NoRebond (w : World) (a : String) : Prop :=
  ∀ id, ¬ w.Unanswered a .eraRebond id

theorem noRebond_of_move (hnone : NoRebond w a)
    (hp : w.store.pools a = some p) (hfree : RebondFree a w ev)
    (hmove : PoolMove net w ev w' a p p') : NoRebond w' a := by
  intro id hid
  cases hmove with
  | executed haction hstep hsends =>
      rename_i querier info msg _ sent
      rcases unanswered_of_sends hsends hid with hold | ⟨sub, rfl, hcalls⟩
      · exact hnone id hold
      obtain ⟨hkind, htarget⟩ := hstep.sends hcalls
      -- only a rebond step with something to restake sends such a packet
      cases msg with
      | eraRebond poolAddr selectVals =>
          obtain rfl := Option.some.inj htarget
          have hzero := hfree.rebond _ _ _ _ p haction hp
          rcases hstep.calm_or_era with hcalm | hera
          · exact hcalm.call rfl rfl
          · cases hera with
            | rebondSent _ hne => exact hne hzero
            | retry _ hmsg => rcases hmsg with ⟨_, h⟩ | ⟨_, h⟩ <;> cases h
      | _ => cases hkind
  | answered _ _ _ _ _ hpending =>
      exact hnone id (unanswered_of_remove hpending hid)
  | answeredElsewhere _ _ _ hpending =>
      exact hnone id (unanswered_of_remove hpending hid)
  | vain _ _ _ _ _ hpending =>
      exact hnone id (unanswered_of_remove hpending hid)
  | idle _ _ hpending =>
      obtain ⟨packet, payload, hpacket, hrest⟩ := hid
      exact hnone id ⟨packet, payload, hpending ▸ hpacket, hrest⟩

/-- The invariant of the runs without a rebond packet. -/
def Undisturbed (net : Network) (a : String) (w : World) : Prop :=
  Sound net w ∧ ∀ p, w.store.pools a = some p → InCycle w a p ∧ NoRebond w a

theorem RebondFree.tame (h : RebondFree a w ev)
    (hinv : ∀ p, w.store.pools a = some p → InCycle w a p ∧ NoRebond w a) :
    Tame a w ev where
  rebond _ _ _ _ p _ hp hstatus := by
    intro id
    cases hid : w.waiting TxType.isEra a id with
    | none => rfl
    | some txType =>
        have hmay := (hinv p hp).1.matched.may id txType hid
        rw [mayWait, hstatus] at hmay
        obtain rfl := Option.some.inj hmay
        exact absurd (waiting_eq_some.mp hid).1 ((hinv p hp).2 id)
  init := h.init

theorem undisturbed_step (hinv : Undisturbed net a w)
    (hstep : w.step net ev = some w') (hfree : RebondFree a w ev) :
    Undisturbed net a w' :=
  ⟨sound_step hinv.1 hstep, pool_invariant hinv.1 hstep hinv.2
    (fun _ _ hp _ hI hmove => ⟨inCycle_of_move hinv.1 hp hI.1
      (hfree.tame hinv.2) hmove, noRebond_of_move hI.2 hp hfree hmove⟩)
    fun _ _ _ _ hnone _ _ => ⟨inCycle_registered hnone, hnone .eraRebond⟩⟩

/-- The answer to a packet of a step, in a pool in its cycle. -/
theorem answer_inv {id : PacketId} {answer : Answer} {querier : Querier}
    {bankAccepts : Bool} {txType : TxType} (hc : InCycle w a p)
    (hp : w.store.pools a = some p) (hmove : PoolMove net w ev w' a p p')
    (haction : ev.action = .answer id answer querier bankAccepts)
    (hid : w.Unanswered a txType id) :
    (txType.isStep = false ∧ p'.status = p.status) ∨
      ∃ payload, payload.poolAddr = a ∧ payload.txType = txType ∧
        (txType.isEra = true → awaited p.status = some txType) ∧
        EraAnswer ev.block.height p payload answer p' := by
  obtain ⟨packet, payload, hpacket, hpayload, hpool, htype⟩ := hid
  cases hmove with
  | executed haction' => exact absurd (haction.symm.trans haction') (by simp)
  | idle _ hanswer => exact absurd haction (hanswer _ _ _ _)
  | answered haction' hpacket' hpayload' hpool' hstep =>
      rw [haction, Action.answer.injEq] at haction'
      obtain ⟨rfl, rfl, -⟩ := haction'
      obtain rfl := Option.some.inj (hpacket.symm.trans hpacket')
      obtain rfl := Option.some.inj (hpayload.symm.trans hpayload')
      rcases hstep.calm_or_era with hcalm | hera
      · refine .inl ⟨?_, hcalm.status⟩
        simp [← htype, TxType.isStep, hcalm.kind]
      · refine .inr ⟨payload, hpool, htype, fun hkind => ?_, hera⟩
        rw [← htype] at hkind ⊢
        exact (hc.awaited_of_packet hpacket hpayload hpool hkind).2
  | answeredElsewhere haction' hpacket' helsewhere =>
      rw [haction, Action.answer.injEq] at haction'
      obtain ⟨rfl, -⟩ := haction'
      obtain rfl := Option.some.inj (hpacket.symm.trans hpacket')
      exact absurd hpool (helsewhere payload hpayload)
  | vain haction' hpacket' hpayload' hpool' hvain =>
      rw [haction, Action.answer.injEq] at haction'
      obtain ⟨rfl, rfl, -⟩ := haction'
      obtain rfl := Option.some.inj (hpacket.symm.trans hpacket')
      obtain rfl := Option.some.inj (hpayload.symm.trans hpayload')
      refine .inl ⟨?_, rfl⟩
      rw [← htype]
      exact hc.not_vain hp hpacket hpayload hpool hvain

theorem init_answer {height : Nat} {payload : SudoPayload} {answer : Answer}
    (h : EraAnswer height p payload answer p')
    (htype : payload.txType = .setWithdrawAddr) :
    (answer = .success ∧ p'.status = .activeEnded) ∨
      p'.status = .initFailed := by
  cases h with
  | setWithdraw => exact .inl ⟨rfl, rfl⟩
  | setWithdrawFailed => exact .inr rfl
  | _ => simp_all

theorem inTurn_of_free (hinv : Undisturbed net a w)
    (hstep : w.step net ev = some w') (hfree : RebondFree a w ev) :
    InTurn a w ev w' := by
  intro id answer querier bankAccepts txType p p' haction hid hp hp'
  obtain ⟨next, hnext, hmove⟩ := pool_move hinv.1 hstep hp
  obtain rfl := Option.some.inj (hnext.symm.trans hp')
  have hc := (hinv.2 p hp).1
  rcases answer_inv hc hp hmove haction hid with ⟨-, hsame⟩ |
    ⟨payload, -, htype, hawaited, hera⟩
  · exact .inl hsame
  have hstatus : txType.isEra = true → awaited p.status = some txType :=
    hawaited
  cases hera with
  | setWithdraw h =>
      obtain rfl := htype.symm.trans h
      rcases hfree.init _ _ _ _ p haction hid hp with h | h | ⟨-, h⟩
      all_goals simp [h, nextStatuses]
  | setWithdrawFailed h hfailed =>
      obtain rfl := htype.symm.trans h
      rcases hfree.init _ _ _ _ p haction hid hp with h | h | ⟨h, -⟩
      · simp [h, nextStatuses]
      · simp [h]
      · exact absurd h hfailed
  | eraUpdate h =>
      obtain rfl := htype.symm.trans h
      simp [status_of_awaited.1.mp (hstatus rfl), nextStatuses]
  | eraUpdateFailed h hfailed =>
      obtain rfl := htype.symm.trans h
      simp [status_of_awaited.1.mp (hstatus rfl), nextStatuses]
  | eraBond h =>
      obtain rfl := htype.symm.trans h
      simp [status_of_awaited.2.1.mp (hstatus rfl), nextStatuses]
  | eraBondFailed h hfailed =>
      obtain rfl := htype.symm.trans h
      simp [status_of_awaited.2.1.mp (hstatus rfl), nextStatuses]
  | collect h =>
      obtain rfl := htype.symm.trans h
      simp [status_of_awaited.2.2.1.mp (hstatus rfl), nextStatuses]
  | collectFailed h hfailed =>
      obtain rfl := htype.symm.trans h
      simp [status_of_awaited.2.2.1.mp (hstatus rfl), nextStatuses]
  | rebond h =>
      obtain rfl := htype.symm.trans h
      exact absurd hid ((hinv.2 p hp).2 id)
  | rebondFailed h hfailed =>
      obtain rfl := htype.symm.trans h
      exact absurd hid ((hinv.2 p hp).2 id)

/-- A step after which mutual exclusion holds is free of rebond packets. -/
theorem free_of_mutual (hinv : Undisturbed net a w)
    (hstep : w.step net ev = some w') (hmutual : Mutual a w ev w') :
    RebondFree a w ev := by
  refine ⟨fun querier info selectVals id p haction hp => ?_,
    fun id answer querier bankAccepts p haction hid hp => ?_⟩
  · obtain ⟨p', hp', hmove⟩ := pool_move hinv.1 hstep hp
    cases hmove with
    | executed haction' hexec hsends =>
        rw [haction, Action.execute.injEq] at haction'
        obtain ⟨rfl, rfl, rfl, rfl⟩ := haction'
        rcases hexec.calm_or_era with hcalm | hera
        · exact absurd rfl (hcalm.call rfl)
        cases hera with
        | rebond hstatus hzero => exact hzero
        | rebondSent hstatus hne hmsgs hsent hcalls =>
            -- the packet is unanswered now, the status is still the old one
            have hunanswered : w'.Unanswered a .eraRebond id := by
              have hwaits : w'.waiting TxType.isEra a =
                  (w.waiting TxType.isEra a).save id .eraRebond :=
                waiting_of_sends_calls hinv.1 hsends hcalls rfl
              have hid : w'.waiting TxType.isEra a id = some .eraRebond := by
                rw [hwaits, Map.save_self]
              exact (waiting_eq_some.mp hid).1
            have hstarted := ((hmutual.1 _ hp').exists_iff .eraRebond
              .rebondStarted rfl).mp ⟨id, hunanswered⟩
            exact absurd (hstatus.symm.trans hstarted) (by simp)
        | retry _ hmsg =>
            rcases hmsg with ⟨_, hmsg⟩ | ⟨_, hmsg⟩ <;> cases hmsg
    | answered haction' => simp [haction] at haction'
    | answeredElsewhere haction' => simp [haction] at haction'
    | vain haction' => simp [haction] at haction'
    | idle hexecute => exact absurd haction (hexecute _ _ _ _)
  · obtain ⟨p', hp', hmove⟩ := pool_move hinv.1 hstep hp
    have hturn := hmutual.2 id answer querier bankAccepts _ p p' haction hid
      hp hp'
    rcases answer_inv (hinv.2 p hp).1 hp hmove haction hid with
      ⟨hkind, -⟩ | ⟨payload, -, htype, -, hera⟩
    · cases hkind
    have hinit : ∀ status, status ∈ nextStatuses .setWithdrawAddr p.status →
        p.status = .initStarted ∨ p.status = .initFailed := by
      intro status hmem
      cases hp : p.status <;> simp [hp, nextStatuses] at hmem ⊢
    rcases init_answer hera htype with ⟨hsuccess, hstatus⟩ | hstatus
    · rw [hstatus] at hturn
      rcases hturn with hsame | hmem
      · exact .inr (.inr ⟨hsuccess, hsame.symm⟩)
      · exact (hinit _ hmem).imp_right .inl
    · rw [hstatus] at hturn
      rcases hturn with hsame | hmem
      · exact .inr (.inl hsame.symm)
      · exact (hinit _ hmem).imp_right .inl

/-- Mutual exclusion holds at every step of exactly those runs in which no
rebond packet is sent and the withdraw address is answered in time. -/
theorem era_mutual_exclusion_iff (net : Network) (a : String)
    (block : BlockInfo) (info : MessageInfo) (lsdTokenCodeId : Nat)
    (evs : List Event) :
    Transition.AllSteps (step net) (Mutual a)
        (genesis block info lsdTokenCodeId) evs ↔
      Transition.AllSteps (step net) (fun w ev _ => RebondFree a w ev)
        (genesis block info lsdTokenCodeId) evs := by
  refine Transition.AllSteps.iff_of_invariant (P := fun _ _ _ => True)
    (Undisturbed net a) ?_ ?_ ?_ ?_
  · intro w ev w' hinv hstep _
    refine ⟨free_of_mutual hinv hstep, fun hfree => ⟨fun p' hp' => ?_,
      inTurn_of_free hinv hstep hfree⟩⟩
    obtain ⟨hc, hnone⟩ := (undisturbed_step hinv hstep hfree).2 p' hp'
    exact hc.exclusive hnone
  · exact fun w ev w' hinv hstep _ hfree => undisturbed_step hinv hstep hfree
  · exact ⟨sound_genesis net block info lsdTokenCodeId, fun _ h => nomatch h⟩
  · exact .of_forall fun _ _ _ _ => trivial

/-- Two rebond packets of the same reward are unanswered. -/
def rebondedTwice (w : World) (_ : PoolInfo) : Bool :=
  decide (w.waiting TxType.isEra Sample.pool (Sample.packetId 5) =
      some .eraRebond) &&
    decide (w.waiting TxType.isEra Sample.pool (Sample.packetId 6) =
      some .eraRebond)

/-- Nothing stops a second rebond call while the first packet is
unanswered. -/
theorem era_mutual_exclusion_fails :
    ¬ ∀ (net : Network) (a : String) (block : BlockInfo)
      (info : MessageInfo) (lsdTokenCodeId : Nat) (evs : List Event),
      Transition.AllSteps (step net) (Mutual a)
        (genesis block info lsdTokenCodeId) evs := by
  intro hall
  obtain ⟨w, p, hw, hp, htwice⟩ := Sample.exists_of_run
    (Sample.setup ++ Sample.firstBond ++ Sample.collected ++ [
      Sample.call 3 (Sample.querier 3 [] 0) (.eraRebond Sample.pool ["val1"])
        (Sample.packetId 5),
      Sample.call 3 (Sample.querier 3 [] 0) (.eraRebond Sample.pool ["val1"])
        (Sample.packetId 6)])
    rebondedTwice (by decide +kernel)
  have hexclusive : ∀ p, w.store.pools Sample.pool = some p →
      Exclusive w Sample.pool p :=
    Transition.AllSteps.invariant_last
      (fun w => ∀ p, w.store.pools Sample.pool = some p →
        Exclusive w Sample.pool p)
      (fun _ _ _ _ _ hmutual => hmutual.1) (fun _ h => by cases h)
      (hall Sample.net Sample.pool (Sample.day 1) ⟨Sample.admin, []⟩ 1 _) hw
  simp only [rebondedTwice, Bool.and_eq_true, decide_eq_true_eq] at htwice
  have hsame := (hexclusive p hp).unique _ _ .eraRebond .eraRebond
    (by decide) (by decide) (waiting_eq_some.mp htwice.1).1
    (waiting_eq_some.mp htwice.2).1
  exact absurd hsame (by decide)

end World

end NeutronContracts
