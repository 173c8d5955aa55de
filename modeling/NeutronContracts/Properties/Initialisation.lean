/-
Initialisation happens once.  A pool whose first attempt failed may be started
again by a packet of its own, and the callbacks of these packets write the
status whatever it is; no late answer can reach a live pool as long as no
packet is sent while another one is unanswered.
-/
import NeutronContracts.Chain.EraProtocol

namespace NeutronContracts

open StakeManager Outstanding

/-- The statuses after initialisation. -/
def StakeManager.EraStatus.isLive : EraStatus → Bool
  | .registerEnded => false
  | .initStarted => false
  | .initFailed => false
  | _ => true

namespace World

theorem isLive_of_mayInit {status : EraStatus} {txType : TxType}
    (h : mayInit status txType) : status.isLive = false := by
  rcases h with h | h <;> rw [h] <;> rfl

/-- No answer to a set-withdraw-address packet touches the status of a pool
that is not being initialised, and a live pool stays live. -/
def InitOnce (a : String) (w : World) (ev : Event) (w' : World) : Prop :=
  (∀ id ∈ answeredId ev,
      w.waiting TxType.isInit a id = some .setWithdrawAddr →
      ∀ p ∈ w.store.pools a, ∀ p' ∈ w'.store.pools a,
        p'.status = p.status ∨ p.status = .initStarted ∨
          p.status = .initFailed) ∧
    ∀ p ∈ w.store.pools a, p.status.isLive = true →
      ∀ p' ∈ w'.store.pools a, p'.status.isLive = true

instance (a : String) (w : World) (ev : Event) (w' : World) :
    Decidable (InitOnce a w ev w') :=
  inferInstanceAs (Decidable ((∀ _ ∈ _, _ → ∀ _ ∈ _, ∀ _ ∈ _, _) ∧ _))

/-- The pool that a call asks to initialise. -/
def initTarget (w : World) (ev : Event) : Option String :=
  match ev.action with
  | .execute _ _ msg _ =>
      if msg.txType = some .setWithdrawAddr then msg.target w.store else none
  | _ => none

/-- No initialisation of the pool is accepted while the packet of another one
is unanswered. -/
def InitInTurn (a : String) (w : World) (ev : Event) : Prop :=
  initTarget w ev = some a →
    ∀ id ∈ w.used, w.waiting TxType.isInit a id = none

instance (a : String) (w : World) (ev : Event) :
    Decidable (InitInTurn a w ev) :=
  inferInstanceAs (Decidable (_ → ∀ _ ∈ _, _))

variable {net : Network} {w w' : World} {ev : Event} {a : String}
  {p p' : PoolInfo}

/-- At most one set-withdraw-address packet is unanswered, only while the pool
is being initialised, and no packet of an era before that. -/
structure Initialised (w : World) (a : String) (p : PoolInfo) : Prop where
  init : Matched mayInit (fun _ => False) (w.waiting TxType.isInit a) p.status
  era : p.status.isLive = false → Idle (w.waiting TxType.isEra a)

theorem Initialised.idle (h : Initialised w a p)
    (hlive : p.status.isLive = true ∨ p.status = .registerEnded) :
    Idle (w.waiting TxType.isInit a) := by
  refine h.init.idle fun kind hmay => ?_
  rcases hlive with hlive | hstatus
  · exact absurd (hlive.symm.trans (isLive_of_mayInit hmay)) (by simp)
  · rcases hmay with hmay | hmay <;> exact absurd (hstatus.symm.trans hmay)
      (by simp)

/-- A move that leaves the packets of both kinds and the status alone. -/
theorem Initialised.of_same (h : Initialised w a p)
    (hinit : w'.waiting TxType.isInit a = w.waiting TxType.isInit a)
    (hera : w'.waiting TxType.isEra a = w.waiting TxType.isEra a)
    (hstatus : p'.status = p.status) : Initialised w' a p' := by
  constructor
  · rw [hinit, hstatus]
    exact h.init
  · rw [hera, hstatus]
    exact h.era

/-- A step of the era cycle begins or repeats the initialisation, or it leads
a live pool to another live status. -/
inductive InitStep (a : String) (p : PoolInfo) (sent : Option SubMsg)
    (p' : PoolInfo) : Prop
  | start {sub} (hsent : sent = some sub)
      (hcalls : Calls sub a .setWithdrawAddr)
      (hstatus : p.status = .registerEnded) (hnext : p'.status = .initStarted)
  | retry {sub} (hsent : sent = some sub)
      (hcalls : Calls sub a .setWithdrawAddr)
      (hstatus : p.status = .initFailed) (hnext : p' = p)
  | live (hlive : p.status.isLive = true) (hnext : p'.status.isLive = true)
      (hother : ∀ sub ∈ sent, ∀ txType, txType.isInit = true →
        ¬ Calls sub a txType)

theorem initStep_of_era {store : Storage} {querier : Querier} {env : Env}
    {msg : ExecuteMsg} {sent : Option SubMsg}
    (h : EraStep store querier env a p msg sent p') :
    InitStep a p sent p' := by
  have hnone : ∀ sub ∈ (none : Option SubMsg), ∀ txType : TxType,
      txType.isInit = true → ¬ Calls sub a txType := by
    intro sub hsub
    cases hsub
  have hother : ∀ {sub txType}, Calls sub a txType →
      txType.isInit = false → ∀ sub' ∈ some sub, ∀ other,
        TxType.isInit other = true → ¬ Calls sub' a other := by
    intro sub txType hcalls hkind sub' hsub other hother hcalls'
    obtain rfl := Option.mem_some.mp hsub
    obtain rfl := calls_type hcalls hcalls'
    exact absurd (hkind.symm.trans hother) (by simp)
  cases h with
  | init htarget hstatus hcalls => exact .start rfl hcalls hstatus rfl
  | migrate htarget hstatus hrate hcal hcalls =>
      exact .start rfl hcalls hstatus rfl
  | retry htarget hmsg hstatus hcalls => exact .retry rfl hcalls hstatus rfl
  | eraUpdate hstatus hupdate hbond =>
      exact .live (by rw [hstatus]; rfl) rfl hnone
  | eraUpdateSent hstatus hupdate hbond hcalls =>
      exact .live (by rw [hstatus]; rfl) rfl (hother hcalls rfl)
  | eraBond hstatus hmsgs hsent hcalls =>
      exact .live (by rw [hstatus]; rfl) rfl (hother hcalls rfl)
  | collect hstatus hinfo hamount =>
      exact .live (by rw [hstatus]; rfl) rfl hnone
  | collectSent hstatus hinfo hamount hne hcalls hmsgs =>
      exact .live (by rw [hstatus]; rfl) rfl (hother hcalls rfl)
  | rebond hstatus hzero => exact .live (by rw [hstatus]; rfl) rfl hnone
  | rebondSent hstatus hne hmsgs hsent hcalls =>
      exact .live (by rw [hstatus]; rfl) (by rw [hstatus]; rfl)
        (hother hcalls rfl)
  | active hstatus hshares hstack act htotal =>
      exact .live (by rw [hstatus]; rfl) rfl hnone

/-- The answer to a packet of an era leads to a live status. -/
theorem live_of_eraAnswer {height : Nat} {payload : SudoPayload}
    {answer : Answer} (h : EraAnswer height p payload answer p') :
    payload.txType = .setWithdrawAddr ∨
      payload.txType.isEra = true ∧ payload.txType.isInit = false ∧
        p'.status.isLive = true := by
  cases h with
  | setWithdraw htype => exact .inl htype
  | setWithdrawFailed htype hfailed => exact .inl htype
  | eraUpdate htype => exact .inr ⟨by rw [htype]; rfl, by rw [htype]; rfl, rfl⟩
  | eraUpdateFailed htype hfailed hera =>
      exact .inr ⟨by rw [htype]; rfl, by rw [htype]; rfl, rfl⟩
  | eraBond htype hbond hunbond =>
      exact .inr ⟨by rw [htype]; rfl, by rw [htype]; rfl, rfl⟩
  | eraBondFailed htype hfailed =>
      exact .inr ⟨by rw [htype]; rfl, by rw [htype]; rfl, rfl⟩
  | collect htype => exact .inr ⟨by rw [htype]; rfl, by rw [htype]; rfl, rfl⟩
  | collectFailed htype hfailed =>
      exact .inr ⟨by rw [htype]; rfl, by rw [htype]; rfl, rfl⟩
  | rebond htype => exact .inr ⟨by rw [htype]; rfl, by rw [htype]; rfl, rfl⟩
  | rebondFailed htype hfailed =>
      exact .inr ⟨by rw [htype]; rfl, by rw [htype]; rfl, rfl⟩

theorem initialised_of_initStep {sent : Option SubMsg} {id : PacketId}
    {sender : String} {msg : ExecuteMsg} (hs : Sound net w)
    (h : Initialised w a p) (hstep : InitStep a p sent p')
    (hsends : Sends sent id sender msg w w')
    (hturn : ∀ sub ∈ sent, Calls sub a .setWithdrawAddr →
      Idle (w.waiting TxType.isInit a)) : Initialised w' a p' := by
  -- a packet of the initialisation is none of an era
  have hera : ∀ {sub}, sent = some sub → Calls sub a .setWithdrawAddr →
      w'.waiting TxType.isEra a = w.waiting TxType.isEra a := by
    rintro sub rfl hcalls
    refine waiting_of_sends_other hs hsends fun sub' hsub other hother => ?_
    intro hcalls'
    obtain rfl := Option.mem_some.mp hsub
    obtain rfl := calls_type hcalls hcalls'
    cases hother
  cases hstep with
  | start hsent hcalls hstatus hnext =>
      have hidle := hturn _ hsent hcalls
      have hsame := hera hsent hcalls
      subst hsent
      constructor
      · rw [waiting_of_sends_calls hs hsends hcalls rfl]
        exact matched_sent hidle (.inl hnext)
      · rw [hsame]
        exact fun _ => h.era (by rw [hstatus]; rfl)
  | retry hsent hcalls hstatus hnext =>
      have hidle := hturn _ hsent hcalls
      have hsame := hera hsent hcalls
      subst hsent hnext
      constructor
      · rw [waiting_of_sends_calls hs hsends hcalls rfl]
        exact matched_sent hidle (.inr hstatus)
      · rw [hsame]
        exact h.era
  | live hlive hnext hother =>
      constructor
      · rw [waiting_of_sends_other hs hsends hother]
        exact matched_of_idle (h.idle (.inl hlive)) not_false
      · exact fun hdead => absurd (hnext.symm.trans hdead) (by simp)

/-- Every move keeps the packets of the initialisation in order, as long as
none is sent while another one is unanswered. -/
theorem initialised_of_move (hs : Sound net w) (h : Initialised w a p)
    (hturn : InitInTurn a w ev) (hmove : PoolMove net w ev w' a p p') :
    Initialised w' a p' := by
  cases hmove with
  | executed haction hstep hsends =>
      rcases hstep.calm_or_era with hcalm | hera
      · exact h.of_same
          (waiting_of_sends_other hs hsends fun sub hsub txType hkind =>
            hcalm.quiet sub hsub txType (.inr hkind))
          (waiting_of_sends_other hs hsends fun sub hsub txType hkind =>
            hcalm.quiet sub hsub txType (.inl hkind)) hcalm.status
      · refine initialised_of_initStep hs h (initStep_of_era hera) hsends ?_
        rintro sub rfl hcalls
        obtain ⟨hkind, htarget⟩ := hstep.sends hcalls
        have hnone := hturn (by simp [initTarget, haction, hkind, htarget])
        intro id
        cases hid : w.waiting TxType.isInit a id with
        | none => rfl
        | some txType =>
            obtain ⟨⟨packet, _, hpacket, -⟩, -⟩ := waiting_eq_some.mp hid
            have hused := hs.usedPending id packet hpacket
            exact absurd (hid.symm.trans (hnone id hused)) (by simp)
  | answered haction hpacket hpayload hpool hstep hpending =>
      rename_i id answer querier bankAccepts packet payload
      rcases hstep.calm_or_era with hcalm | hera
      · exact h.of_same
          (waiting_of_remove_other hpending
            (waiting_other hpacket hpayload hcalm.kind.2))
          (waiting_of_remove_other hpending
            (waiting_other hpacket hpayload hcalm.kind.1)) hcalm.status
      rcases live_of_eraAnswer hera with htype | ⟨hkind, hplain, hlive⟩
      · -- the only packet of the initialisation is answered
        have hwaiting : w.waiting TxType.isInit a id =
            some .setWithdrawAddr := waiting_eq_some.mpr
          ⟨⟨packet, payload, hpacket, hpayload, hpool, htype⟩, rfl⟩
        constructor
        · rw [waiting_of_remove hpending]
          exact matched_of_idle (h.init.answered hwaiting) not_false
        · intro _ other
          have hidle := h.era (isLive_of_mayInit (h.init.may id _ hwaiting))
          rw [waiting_of_remove hpending, Map.remove_apply, hidle other]
          split <;> rfl
      · -- a packet of an era is only unanswered in a live pool
        have hwaiting := waiting_eq_some.mpr
          ⟨⟨packet, payload, hpacket, hpayload, hpool, rfl⟩, hkind⟩
        have hbefore : p.status.isLive = true := by
          by_contra hdead
          rw [Bool.not_eq_true] at hdead
          exact absurd (hwaiting.symm.trans (h.era hdead id)) (by simp)
        constructor
        · rw [waiting_of_remove_other hpending
            (waiting_other hpacket hpayload hplain)]
          exact matched_of_idle (h.idle (.inl hbefore)) not_false
        · exact fun hdead => absurd (hlive.symm.trans hdead) (by simp)
  | answeredElsewhere haction hpacket helsewhere hpending =>
      have hnone : ∀ kinds, w'.waiting kinds a = w.waiting kinds a :=
        fun _ => waiting_of_remove_other hpending
          (waiting_elsewhere hpacket helsewhere)
      exact h.of_same (hnone _) (hnone _) rfl
  | vain haction hpacket hpayload hpool hvain hpending =>
      constructor
      · rw [waiting_of_remove hpending]
        exact h.init.removed not_false
      · intro hdead other
        rw [waiting_of_remove hpending, Map.remove_apply, h.era hdead other]
        split <;> rfl
  | idle hexecute hanswer hpending =>
      exact h.of_same (waiting_of_pending hpending)
        (waiting_of_pending hpending) rfl

/-- What a move does to a status that no initialisation may touch. -/
theorem live_of_move (h : Initialised w a p)
    (hmove : PoolMove net w ev w' a p p') (hlive : p.status.isLive = true) :
    p'.status.isLive = true := by
  cases hmove with
  | executed haction hstep hsends =>
      rcases hstep.calm_or_era with hcalm | hera
      · rw [hcalm.status]
        exact hlive
      · cases initStep_of_era hera with
        | start _ _ hstatus _ => simp [hstatus, EraStatus.isLive] at hlive
        | retry _ _ hstatus _ => simp [hstatus, EraStatus.isLive] at hlive
        | live _ hnext _ => exact hnext
  | answered haction hpacket hpayload hpool hstep hpending =>
      rcases hstep.calm_or_era with hcalm | hera
      · rw [hcalm.status]
        exact hlive
      rcases live_of_eraAnswer hera with htype | ⟨-, -, hnext⟩
      · have hwaiting : w.waiting TxType.isInit a _ = some .setWithdrawAddr :=
          waiting_eq_some.mpr ⟨⟨_, _, hpacket, hpayload, hpool, htype⟩, rfl⟩
        exact absurd ((h.idle (.inl hlive) _).symm.trans hwaiting) (by simp)
      · exact hnext
  | _ => exact hlive

def AllInitialised (net : Network) (a : String) (w : World) : Prop :=
  Sound net w ∧ ∀ p, w.store.pools a = some p → Initialised w a p

theorem allInitialised_step (hinv : AllInitialised net a w)
    (hstep : w.step net ev = some w') (hturn : InitInTurn a w ev) :
    AllInitialised net a w' := by
  refine ⟨sound_step hinv.1 hstep, pool_invariant hinv.1 hstep hinv.2 ?_ ?_⟩
  · intro p p' _ _ hI hmove
    exact initialised_of_move hinv.1 hI hturn hmove
  · intro icaId admin _ _ hnone _ _
    exact ⟨matched_of_idle (idle_of_not_unanswered hnone) not_false,
      fun _ => idle_of_not_unanswered hnone⟩

theorem initOnce_of_step (hinv : AllInitialised net a w)
    (hstep : w.step net ev = some w') : InitOnce a w ev w' := by
  refine ⟨fun id _ hwaiting p hp p' _ => ?_, fun p hp hlive p' hp' => ?_⟩
  · exact .inr ((hinv.2 p hp).init.may id _ hwaiting)
  · obtain ⟨next, hnext, hmove⟩ := pool_move hinv.1 hstep hp
    obtain rfl := Option.some.inj (hnext.symm.trans hp')
    exact live_of_move (hinv.2 p hp) hmove hlive

/-- In a run that sends no set-withdraw-address packet while another one is
unanswered, no answer reaches a live pool. -/
theorem init_once (net : Network) (a : String) (block : BlockInfo)
    (info : MessageInfo) (lsdTokenCodeId : Nat) (evs : List Event)
    (hturn : Transition.AllSteps (step net)
      (fun w ev _ => InitInTurn a w ev)
      (genesis block info lsdTokenCodeId) evs) :
    Transition.AllSteps (step net) (InitOnce a)
      (genesis block info lsdTokenCodeId) evs := by
  refine Transition.AllSteps.of_invariant (AllInitialised net a) ?_ ?_ hturn
  · intro w ev w' hinv hstep hcond
    exact ⟨allInitialised_step hinv hstep hcond, initOnce_of_step hinv hstep⟩
  · exact ⟨sound_genesis net block info lsdTokenCodeId, fun _ h => nomatch h⟩

end World

namespace Sample

/-- The first attempt to initialise the pool fails. -/
def failedSetup : List Event := setup.dropLast ++ [
  ack 1 .error (packetId 1)]

/-- The initialisation is tried again. -/
def retry (sequence : Nat) : Event :=
  call 1 (querier 0 [] 0) (.initPool initParams) (packetId sequence)

end Sample

namespace World

/-- A second attempt after the first one has failed. -/
theorem init_once_sample : Transition.AllSteps (step Sample.net)
    (InitOnce Sample.pool) Sample.genesis
    (Sample.failedSetup ++ [Sample.retry 2,
      Sample.ack 1 .success (Sample.packetId 2)]) :=
  init_once Sample.net Sample.pool (Sample.day 1) ⟨Sample.admin, []⟩ 1 _
    (by decide +kernel)

/-- Of two attempts the first one succeeds, an era begins, and then the failure
of the second one puts the pool back. -/
theorem init_once_fails : ¬ Transition.AllSteps (step Sample.net)
    (InitOnce Sample.pool) Sample.genesis
    (Sample.failedSetup ++ [Sample.retry 2, Sample.retry 3,
      Sample.ack 1 .success (Sample.packetId 2),
      Sample.stake 1 1000,
      Sample.call 2 (Sample.querier 0 [] 0) (.eraUpdate Sample.pool)
        (Sample.packetId 4),
      Sample.ack 2 .error (Sample.packetId 3)]) := by
  decide +kernel

end World

end NeutronContracts
