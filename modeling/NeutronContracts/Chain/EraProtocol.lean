/-
The era cycle of a pool as a protocol: which steps a pool sends, which packets
wait for an answer in which status, and the invariant that ties the two
together as long as no step is sent while another one waits.
-/
import NeutronContracts.Chain.Waiting

namespace NeutronContracts

open StakeManager Outstanding

/-! ### Calm moves -/

/-- A call that takes no step of the era cycle: it only moves amounts between
`active`, `bond` and `unbond`. -/
structure Calm (store : Storage) (a : String) (p : PoolInfo)
    (msg : ExecuteMsg) (sent : Option SubMsg) (p' : PoolInfo) : Prop where
  status : p'.status = p.status
  era : p'.era = p.era
  snapshot : p'.eraSnapshot = p.eraSnapshot
  ledger : p'.active + p'.unbond + p.bond = p.active + p.unbond + p'.bond
  bond_le : p.bond ≤ p'.bond
  unbond_le : p.unbond ≤ p'.unbond
  quiet : ∀ sub ∈ sent, ∀ txType, txType.isEra = true ∨ txType.isInit = true →
    ¬ Calls sub a txType
  call : msg.isStep = true → msg.target store ≠ some a

theorem quiet_of_calls {sub : SubMsg} {a b : String} {txType : TxType}
    (h : Calls sub b txType)
    (hkind : txType.isEra = false ∧ txType.isInit = false) :
    ∀ sub' ∈ some sub, ∀ other, other.isEra = true ∨ other.isInit = true →
      ¬ Calls sub' a other := by
  intro sub' hsub other hother hcalls
  obtain rfl := Option.mem_some.mp hsub
  obtain rfl := calls_type h hcalls
  simp [hkind] at hother

theorem ExecStep.calm_or_era {store : Storage} {querier : Querier} {env : Env}
    {info : MessageInfo} {a : String} {p p' : PoolInfo} {msg : ExecuteMsg}
    {sent : Option SubMsg}
    (h : ExecStep store querier env info a p msg sent p') :
    Calm store a p msg sent p' ∨ EraStep store querier env a p msg sent p' := by
  have hnone : ∀ sub ∈ (none : Option SubMsg), ∀ other : TxType,
      other.isEra = true ∨ other.isInit = true → ¬ Calls sub a other := by
    simp
  cases h with
  | era hera => exact .inr hera
  | elsewhere htarget hsent =>
      exact .inl ⟨rfl, rfl, rfl, rfl, le_rfl, le_rfl,
        fun sub hsub txType _ => hsent sub hsub txType, fun _ => htarget⟩
  | stake hfunds hdenom hrate =>
      exact .inl ⟨rfl, rfl, rfl, by dsimp only; omega, Nat.le_add_right _ _,
        le_rfl, hnone, nofun⟩
  | unstake hfee hle hburned htoken hactive htotal hlarge =>
      exact .inl ⟨rfl, rfl, rfl, by simp only [unstaked]; omega, le_rfl,
        Nat.le_add_right _ _, hnone, nofun⟩
  | config hpool hconfig =>
      obtain ⟨_, _, _, _, _, _, _, _, _, _, _, rfl⟩ := hconfig
      exact .inl ⟨rfl, rfl, rfl, rfl, le_rfl, le_rfl, hnone, nofun⟩
  | delegate hstatus hpayload hmsgs =>
      refine .inl ⟨rfl, rfl, rfl, rfl, le_rfl, le_rfl, ?_, nofun⟩
      rintro sub hsub txType - ⟨payload, hsome, -⟩
      obtain rfl := Option.mem_some.mp hsub
      exact absurd (hpayload.symm.trans hsome) (by simp)
  | withdraw hcalls =>
      exact .inl ⟨rfl, rfl, rfl, rfl, le_rfl, le_rfl,
        quiet_of_calls hcalls ⟨rfl, rfl⟩, nofun⟩
  | stakeLsm hstatus hupdate hcalls =>
      exact .inl ⟨rfl, rfl, rfl, rfl, le_rfl, le_rfl,
        quiet_of_calls hcalls ⟨rfl, rfl⟩, nofun⟩
  | redeem hdenoms hcalls hmsgs htext =>
      exact .inl ⟨rfl, rfl, rfl, rfl, le_rfl, le_rfl,
        quiet_of_calls hcalls ⟨rfl, rfl⟩, nofun⟩
  | rmValidatorSent hstatus hmem hupdate htarget hcalls htext hmsgs =>
      exact .inl ⟨rfl, rfl, rfl, rfl, le_rfl, le_rfl,
        quiet_of_calls hcalls ⟨rfl, rfl⟩, nofun⟩
  | updateValidatorSent hstatus hupdate hold hnew hcalls htext hmsgs =>
      exact .inl ⟨rfl, rfl, rfl, rfl, le_rfl, le_rfl,
        quiet_of_calls hcalls ⟨rfl, rfl⟩, nofun⟩
  | _ => exact .inl ⟨rfl, rfl, rfl, rfl, le_rfl, le_rfl, hnone, nofun⟩

/-- The worth of the shares that an answer credits. -/
def lsmCredit (payload : SudoPayload) (answer : Answer) : Nat :=
  if payload.txType = .stakeLsm ∧ answer = .success then
    ((stakeLsmCredit payload.message).map (·.2.1)).getD 0
  else 0

theorem EraStep.sends {store : Storage} {querier : Querier} {env : Env}
    {a : String} {p p' : PoolInfo} {msg : ExecuteMsg} {sub : SubMsg}
    {txType : TxType} (h : EraStep store querier env a p msg (some sub) p')
    (hcalls : Calls sub a txType) :
    msg.txType = some txType ∧ msg.target store = some a := by
  cases h with
  | init htarget _ h => exact ⟨by rw [calls_type hcalls h]; rfl, htarget⟩
  | migrate htarget _ _ _ h =>
      exact ⟨by rw [calls_type hcalls h]; rfl, htarget⟩
  | retry htarget hmsg _ h =>
      refine ⟨?_, htarget⟩
      rcases hmsg with ⟨_, rfl⟩ | ⟨_, rfl⟩ <;> rw [calls_type hcalls h] <;> rfl
  | eraUpdateSent _ _ _ h => exact ⟨by rw [calls_type hcalls h]; rfl, rfl⟩
  | eraBond _ _ _ h => exact ⟨by rw [calls_type hcalls h]; rfl, rfl⟩
  | collectSent _ _ _ _ h _ => exact ⟨by rw [calls_type hcalls h]; rfl, rfl⟩
  | rebondSent _ _ _ _ h => exact ⟨by rw [calls_type hcalls h]; rfl, rfl⟩

/-- A packet of a pool is of the kind of the call that sends it. -/
theorem ExecStep.sends {store : Storage} {querier : Querier} {env : Env}
    {info : MessageInfo} {a : String} {p p' : PoolInfo} {msg : ExecuteMsg}
    {sub : SubMsg} {txType : TxType}
    (h : ExecStep store querier env info a p msg (some sub) p')
    (hcalls : Calls sub a txType) :
    msg.txType = some txType ∧ msg.target store = some a := by
  cases h with
  | era hera => exact hera.sends hcalls
  | elsewhere _ hsent => exact absurd hcalls (hsent sub rfl txType)
  | withdraw h => exact ⟨by rw [calls_type hcalls h]; rfl, rfl⟩
  | stakeLsm _ _ h => exact ⟨by rw [calls_type hcalls h]; rfl, rfl⟩
  | redeem _ h _ _ => exact ⟨by rw [calls_type hcalls h]; rfl, rfl⟩
  | rmValidatorSent _ _ _ _ h _ _ =>
      exact ⟨by rw [calls_type hcalls h]; rfl, rfl⟩
  | updateValidatorSent _ _ _ _ h _ _ =>
      exact ⟨by rw [calls_type hcalls h]; rfl, rfl⟩
  | delegate _ hpayload _ =>
      obtain ⟨payload, hsome, -⟩ := hcalls
      exact absurd (hpayload.symm.trans hsome) (by simp)

/-- An answer that is none of the era cycle: it credits shares at most. -/
structure CalmAnswer (p : PoolInfo) (payload : SudoPayload) (answer : Answer)
    (p' : PoolInfo) : Prop where
  kind : payload.txType.isEra = false ∧ payload.txType.isInit = false
  status : p'.status = p.status
  era : p'.era = p.era
  snapshot : p'.eraSnapshot = p.eraSnapshot
  active : p'.active = p.active + lsmCredit payload answer
  bond : p'.bond = p.bond
  unbond : p'.unbond = p.unbond

theorem AnswerStep.calm_or_era {height : Nat} {p p' : PoolInfo}
    {payload : SudoPayload} {answer : Answer}
    (h : AnswerStep height p payload answer p') :
    CalmAnswer p payload answer p' ∨ EraAnswer height p payload answer p' := by
  have hplain : ∀ {txType : TxType}, payload.txType = txType →
      (txType.isEra = false ∧ txType.isInit = false) →
      txType ≠ .stakeLsm → (payload.txType.isEra = false ∧
        payload.txType.isInit = false) ∧ lsmCredit payload answer = 0 := by
    intro txType htype hkind hne
    subst htype
    exact ⟨hkind, by simp [lsmCredit, hne]⟩
  cases h with
  | era hera => exact .inr hera
  | userWithdraw htype =>
      obtain ⟨hkind, hcredit⟩ := hplain htype ⟨rfl, rfl⟩ (by decide)
      exact .inl ⟨hkind, rfl, rfl, rfl, by rw [hcredit]; rfl, rfl, rfl⟩
  | updateValidator htype =>
      obtain ⟨hkind, hcredit⟩ := hplain htype ⟨rfl, rfl⟩ (by decide)
      exact .inl ⟨hkind, rfl, rfl, rfl, by rw [hcredit]; rfl, rfl, rfl⟩
  | rmValidator htype =>
      obtain ⟨hkind, hcredit⟩ := hplain htype ⟨rfl, rfl⟩ (by decide)
      exact .inl ⟨hkind, rfl, rfl, rfl, by rw [hcredit]; rfl, rfl, rfl⟩
  | validatorFailed htype hfailed =>
      rcases htype with htype | htype
      all_goals
        obtain ⟨hkind, hcredit⟩ := hplain htype ⟨rfl, rfl⟩ (by decide)
        exact .inl ⟨hkind, rfl, rfl, rfl, by rw [hcredit]; rfl, rfl, rfl⟩
  | stakeLsm htype hcredit hrate =>
      exact .inl ⟨by rw [htype]; exact ⟨rfl, rfl⟩, rfl, rfl, rfl,
        by simp [lsmCredit, htype, hcredit, lsmCredited], rfl, rfl⟩
  | stakeLsmFailed htype hfailed =>
      exact .inl ⟨by rw [htype]; exact ⟨rfl, rfl⟩, rfl, rfl, rfl,
        by simp [lsmCredit, hfailed], rfl, rfl⟩
  | redeem htype =>
      obtain ⟨hkind, hcredit⟩ := hplain htype ⟨rfl, rfl⟩ (by decide)
      exact .inl ⟨hkind, rfl, rfl, rfl, by rw [hcredit]; rfl, rfl, rfl⟩
  | redeemFailed htype hfailed =>
      obtain ⟨hkind, hcredit⟩ := hplain htype ⟨rfl, rfl⟩ (by decide)
      exact .inl ⟨hkind, rfl, rfl, rfl, by rw [hcredit]; rfl, rfl, rfl⟩

theorem sudoCallback_total {store : Storage} {env : Env}
    {payload : SudoPayload} {p : PoolInfo}
    (hp : store.pools payload.poolAddr = some p)
    (hkind : payload.txType.isStep = true)
    (hcovered : payload.txType = .eraBond →
      p.eraSnapshot.bond ≤ p.bond ∧ p.eraSnapshot.unbond ≤ p.unbond) :
    ∃ store', sudoCallback store env payload =
      .ok (store', Response.new) := by
  cases htype : payload.txType with
  | setWithdrawAddr =>
      simp only [sudoCallback, htype]
      exact ⟨_, sudoSetWithdrawAddrCallback_ok.mpr ⟨p, hp, rfl, rfl⟩⟩
  | eraUpdate =>
      simp only [sudoCallback, htype]
      exact ⟨_, sudoEraUpdateCallback_ok.mpr ⟨p, hp, rfl, rfl⟩⟩
  | eraBond =>
      simp only [sudoCallback, htype]
      obtain ⟨hbond, hunbond⟩ := hcovered htype
      exact sudoEraBondCallback_total hp hbond hunbond
  | eraCollectWithdraw =>
      simp only [sudoCallback, htype]
      exact ⟨_, sudoEraCollectWithdrawCallback_ok.mpr ⟨p, hp, rfl, rfl⟩⟩
  | eraRebond =>
      simp only [sudoCallback, htype]
      exact ⟨_, sudoEraRebondCallback_ok.mpr ⟨p, hp, rfl, rfl⟩⟩
  | _ => simp [htype, TxType.isStep, TxType.isEra, TxType.isInit] at hkind

theorem sudoFailedCallback_total {store : Storage} {payload : SudoPayload}
    {p : PoolInfo} (hp : store.pools payload.poolAddr = some p)
    (hkind : payload.txType.isStep = true)
    (hera : payload.txType = .eraUpdate → 1 ≤ p.era) :
    ∃ store', sudoFailedCallback store payload =
      .ok (store', Response.new) := by
  cases htype : payload.txType with
  | setWithdrawAddr =>
      simp only [sudoFailedCallback, htype]
      exact ⟨_, sudoSetWithdrawAddrFailedCallback_ok.mpr ⟨p, hp, rfl, rfl⟩⟩
  | eraUpdate =>
      simp only [sudoFailedCallback, htype]
      exact ⟨_, sudoEraUpdateFailedCallback_ok.mpr
        ⟨p, hp, hera htype, rfl, rfl⟩⟩
  | eraBond =>
      simp only [sudoFailedCallback, htype]
      exact ⟨_, sudoEraBondFailedCallback_ok.mpr ⟨p, hp, rfl, rfl⟩⟩
  | eraCollectWithdraw =>
      simp only [sudoFailedCallback, htype]
      exact ⟨_, sudoEraCollectWithdrawFailedCallback_ok.mpr
        ⟨p, hp, rfl, rfl⟩⟩
  | eraRebond =>
      simp only [sudoFailedCallback, htype]
      exact ⟨_, sudoEraRebondFailedCallback_ok.mpr ⟨p, hp, rfl, rfl⟩⟩
  | _ => simp [htype, TxType.isStep, TxType.isEra, TxType.isInit] at hkind

/-- The callbacks of the steps do not fail as long as the era has begun and
the snapshot is covered by the live counters. -/
theorem step_callback_total {store : Storage} {env : Env}
    {payload : SudoPayload} {answer : Answer} {p : PoolInfo}
    (hp : store.pools payload.poolAddr = some p)
    (hkind : payload.txType.isStep = true)
    (hera : payload.txType = .eraUpdate → 1 ≤ p.era)
    (hcovered : payload.txType = .eraBond →
      p.eraSnapshot.bond ≤ p.bond ∧ p.eraSnapshot.unbond ≤ p.unbond) :
    ∃ store', callback store env payload answer =
      .ok (store', Response.new) := by
  cases answer with
  | success => exact sudoCallback_total hp hkind hcovered
  | error => exact sudoFailedCallback_total hp hkind hera
  | timeout => exact sudoFailedCallback_total hp hkind hera

/-- The packets that are sent by a pool that has started. -/
def StakeManager.TxType.needsStart : TxType → Bool
  | .userWithdraw => false
  | .redeemTokenForShare => false
  | _ => true

/-- A pool that sends such a packet has started. -/
theorem ExecStep.started {store : Storage} {querier : Querier} {env : Env}
    {info : MessageInfo} {a : String} {p p' : PoolInfo} {msg : ExecuteMsg}
    {sub : SubMsg} {txType : TxType}
    (h : ExecStep store querier env info a p msg (some sub) p')
    (hcalls : Calls sub a txType) (hkind : txType.needsStart = true) :
    p'.status ≠ .registerEnded := by
  cases h with
  | elsewhere _ hsent => exact absurd hcalls (hsent sub rfl txType)
  | withdraw h =>
      obtain rfl := calls_type h hcalls
      cases hkind
  | redeem _ h _ _ =>
      obtain rfl := calls_type h hcalls
      cases hkind
  | stakeLsm hstatus => simp [hstatus]
  | rmValidatorSent hstatus => simp [hstatus]
  | updateValidatorSent hstatus => simp [hstatus]
  | delegate hstatus => simp [hstatus]
  | era hera =>
      cases hera with
      | retry _ _ hstatus _ => simp [hstatus]
      | rebondSent hstatus _ _ _ _ => simp [hstatus]
      | _ => exact nofun

/-! ### The invariant of the cycle -/

/-- The kind of packet that may wait in a status.  A rebond step leaves the
status as it is when it sends its packet. -/
def awaited : EraStatus → Option TxType
  | .eraUpdateStarted => some .eraUpdate
  | .bondStarted => some .eraBond
  | .withdrawStarted => some .eraCollectWithdraw
  | .withdrawEnded => some .eraRebond
  | _ => none

def mayWait (status : EraStatus) (txType : TxType) : Prop :=
  awaited status = some txType

/-- The statuses that are only left by an answer. -/
def mustWait (status : EraStatus) : Prop :=
  status = .eraUpdateStarted ∨ status = .bondStarted ∨
    status = .withdrawStarted

/-- The statuses between the snapshot and the end of the bond step. -/
def beforeBond (status : EraStatus) : Prop :=
  status = .eraUpdateStarted ∨ status = .eraUpdateEnded ∨
    status = .bondStarted

theorem status_of_awaited {status : EraStatus} :
    (awaited status = some .eraUpdate ↔ status = .eraUpdateStarted) ∧
      (awaited status = some .eraBond ↔ status = .bondStarted) ∧
      (awaited status = some .eraCollectWithdraw ↔
        status = .withdrawStarted) ∧
      (awaited status = some .eraRebond ↔ status = .withdrawEnded) := by
  cases status <;> simp [awaited]

theorem beforeBond_of_awaited {status : EraStatus}
    (h : awaited status = some .eraUpdate ∨
      awaited status = some .eraBond) : beforeBond status := by
  rcases h with h | h
  · exact .inl (status_of_awaited.1.mp h)
  · exact .inr (.inr (status_of_awaited.2.1.mp h))

namespace World

variable {net : Network} {w w' : World} {ev : Event} {a : String}
  {p p' : PoolInfo} {txType : TxType}

/-- The waiting packets of the era cycle match the status, and the snapshot
is covered until it is subtracted. -/
structure InCycle (w : World) (a : String) (p : PoolInfo) : Prop where
  matched : Matched mayWait mustWait (w.waiting TxType.isEra a) p.status
  rebond : p.status ≠ .rebondStarted
  started : p.status = .eraUpdateStarted → 1 ≤ p.era
  covered : beforeBond p.status →
    p.eraSnapshot.bond ≤ p.bond ∧ p.eraSnapshot.unbond ≤ p.unbond

/-- A step that keeps the cycle intact: no rebond packet is sent while a
packet of the cycle waits, and the withdraw address is answered before the
first era begins. -/
structure Tame (a : String) (w : World) (ev : Event) : Prop where
  rebond : ∀ querier info selectVals id p,
    ev.action = .execute querier info (.eraRebond a selectVals) id →
      w.store.pools a = some p → p.status = .withdrawEnded →
        Idle (w.waiting TxType.isEra a)
  init : ∀ id answer querier bankAccepts p,
    ev.action = .answer id answer querier bankAccepts →
      w.Unanswered a .setWithdrawAddr id → w.store.pools a = some p →
        p.status = .initStarted ∨ p.status = .initFailed ∨
          answer = .success ∧ p.status = .activeEnded

/-- No move leads back to a pool that has not started. -/
theorem PoolMove.registered (h : PoolMove net w ev w' a p p')
    (hstatus : p'.status = .registerEnded) : p.status = .registerEnded := by
  cases h with
  | executed haction hstep hsends =>
      rcases hstep.calm_or_era with hcalm | hera
      · exact hcalm.status.symm.trans hstatus
      · cases hera with
        | retry _ _ _ _ => exact hstatus
        | rebondSent _ _ _ _ _ => exact hstatus
        | _ => cases hstatus
  | answered haction hpacket hpayload hpool hstep hpending =>
      rcases hstep.calm_or_era with hcalm | hera
      · exact hcalm.status.symm.trans hstatus
      · cases hera <;> cases hstatus
  | _ => exact hstatus

/-- No packet of a started pool is unanswered before the pool starts. -/
theorem fresh_of_move (hkind : txType.needsStart = true)
    (hfresh : p.status = .registerEnded → ∀ id, ¬ w.Unanswered a txType id)
    (hmove : PoolMove net w ev w' a p p') (hstatus : p'.status = .registerEnded)
    (id : PacketId) : ¬ w'.Unanswered a txType id := by
  intro hid
  have hnone := hfresh (hmove.registered hstatus) id
  cases hmove with
  | executed haction hstep hsends =>
      rcases unanswered_of_sends hsends hid with hold | ⟨sub, rfl, hcalls⟩
      · exact hnone hold
      · exact hstep.started hcalls hkind hstatus
  | answered _ _ _ _ _ hpending =>
      exact hnone (unanswered_of_remove hpending hid)
  | answeredElsewhere _ _ _ hpending =>
      exact hnone (unanswered_of_remove hpending hid)
  | vain _ _ _ _ _ hpending =>
      exact hnone (unanswered_of_remove hpending hid)
  | idle hexecute hanswer hpending =>
      obtain ⟨packet, payload, hpacket, hrest⟩ := hid
      exact hnone ⟨packet, payload, hpending ▸ hpacket, hrest⟩

/-- A pool that has not started has no rate, and it waits for no packet of a
started pool. -/
structure Unstarted (w : World) (a : String) (p : PoolInfo) : Prop where
  rate : p.rate = 0
  quiet : ∀ txType id, txType.needsStart = true → ¬ w.Unanswered a txType id

theorem PoolMove.rate_of_registered (h : PoolMove net w ev w' a p p')
    (hstatus : p'.status = .registerEnded) : p'.rate = p.rate := by
  cases h with
  | executed haction hstep hsends =>
      cases hstep with
      | era hera => cases hera <;> first | rfl | cases hstatus
      | config hpool hconfig =>
          obtain ⟨_, _, _, _, _, _, _, _, _, _, _, rfl⟩ := hconfig
          rfl
      | _ => rfl
  | answered haction hpacket hpayload hpool hstep hpending =>
      cases hstep with
      | era hera => cases hera <;> rfl
      | _ => rfl
  | _ => rfl

theorem unstarted_step (hs : Sound net w) (hstep : w.step net ev = some w')
    (h : ∀ p, w.store.pools a = some p → p.status = .registerEnded →
      Unstarted w a p) :
    ∀ p', w'.store.pools a = some p' → p'.status = .registerEnded →
      Unstarted w' a p' := by
  refine pool_invariant (J := fun p' => p'.status = .registerEnded →
    Unstarted w' a p') hs hstep h ?_ ?_
  · intro p p' hp hp' hpool hmove hstatus
    have hold := hpool (hmove.registered hstatus)
    refine ⟨(hmove.rate_of_registered hstatus).trans hold.rate,
      fun txType id hkind => ?_⟩
    exact fresh_of_move hkind (fun hfresh id => (hpool hfresh).quiet txType id
      hkind) hmove hstatus id
  · intro icaId admin _ _ hquiet _ _ _
    exact ⟨rfl, fun txType id _ => hquiet txType id⟩

/-- In every reachable state a pool that has not started has no rate and waits
for nothing. -/
theorem unstarted_run {block : BlockInfo} {info : MessageInfo}
    {lsdTokenCodeId : Nat} {evs : List Event}
    (hrun : Transition.exec (step net) (genesis block info lsdTokenCodeId)
      evs = some w) (hp : w.store.pools a = some p)
    (hfresh : p.status = .registerEnded) : Unstarted w a p := by
  let Book : World → Prop := fun w => Sound net w ∧
    ∀ p, w.store.pools a = some p → p.status = .registerEnded →
      Unstarted w a p
  have hbook : Book w := by
    apply Transition.exec_invariant Book _ _ hrun
    · rintro w ev w' ⟨hs, hall⟩ hstep
      exact ⟨sound_step hs hstep, unstarted_step hs hstep hall⟩
    · exact ⟨sound_genesis net block info lsdTokenCodeId,
        fun _ hnone => nomatch hnone⟩
  exact hbook.2 p hp hfresh

/-- How a pool starts. -/
inductive Start (w : World) (ev : Event) (a : String) (p : PoolInfo) :
    PoolInfo → Prop
  | init {querier info param id eraSeconds offset lsdToken}
      (haction : ev.action = .execute querier info (.initPool param) id)
      (htarget : (ExecuteMsg.initPool param).target w.store = some a) :
      Start w ev a p
        { initialPool p param eraSeconds offset with
          lsdToken := lsdToken
          status := .initStarted }
  | migrate {querier info param id lsdToken}
      (haction : ev.action = .execute querier info (.migratePool param) id)
      (htarget : (ExecuteMsg.migratePool param).target w.store = some a)
      (hrate : param.rate ≠ 0) :
      Start w ev a p
        { migratedPool p param with
          lsdToken := lsdToken
          status := .initStarted }

theorem start_of_move (hmove : PoolMove net w ev w' a p p')
    (hold : Unstarted w a p) (hfresh : p.status = .registerEnded)
    (hlive : p'.status ≠ .registerEnded) : Start w ev a p p' := by
  cases hmove with
  | executed haction hstep hsends =>
      rcases hstep.calm_or_era with hcalm | hera
      · exact absurd (hcalm.status.trans hfresh) hlive
      · cases hera with
        | init htarget => exact .init haction htarget
        | migrate htarget _ hrate => exact .migrate haction htarget hrate
        | retry _ _ hstatus => cases hfresh.symm.trans hstatus
        | rebondSent hstatus => cases hfresh.symm.trans hstatus
        | eraUpdate hstatus => cases hfresh.symm.trans hstatus
        | eraUpdateSent hstatus => cases hfresh.symm.trans hstatus
        | eraBond hstatus => cases hfresh.symm.trans hstatus
        | collect hstatus => cases hfresh.symm.trans hstatus
        | collectSent hstatus => cases hfresh.symm.trans hstatus
        | rebond hstatus => cases hfresh.symm.trans hstatus
        | active hstatus => cases hfresh.symm.trans hstatus
  | answered haction hpacket hpayload hpool hanswer hpending =>
      rename_i payload
      have hkind : payload.txType.needsStart ≠ true := fun hkind =>
        hold.quiet _ _ hkind ⟨_, _, hpacket, hpayload, hpool, rfl⟩
      rcases hanswer.calm_or_era with hcalm | hera
      · exact absurd (hcalm.status.trans hfresh) hlive
      · exact absurd (by cases hera <;> simp [TxType.needsStart, *]) hkind
  | _ => exact absurd hfresh hlive

/-- A status in which no packet of the cycle may wait and that is not bound
to the snapshot. -/
theorem inCycle_of_idle (hidle : Idle (w.waiting TxType.isEra a))
    (hfree : ¬ mustWait p.status ∧ p.status ≠ .rebondStarted ∧
      ¬ beforeBond p.status) : InCycle w a p :=
  ⟨matched_of_idle hidle hfree.1, hfree.2.1,
    fun h => absurd (.inl h) hfree.1, fun h => absurd h hfree.2.2⟩

namespace InCycle

theorem idle (hc : InCycle w a p) (h : awaited p.status = none) :
    Idle (w.waiting TxType.isEra a) :=
  hc.matched.idle fun kind hkind => by simp [mayWait, h] at hkind

/-- A move that leaves the cycle alone. -/
theorem of_same (hc : InCycle w a p)
    (hwaiting : w'.waiting TxType.isEra a = w.waiting TxType.isEra a)
    (hstatus : p'.status = p.status) (hera : p'.era = p.era)
    (hsnapshot : p'.eraSnapshot = p.eraSnapshot) (hbond : p.bond ≤ p'.bond)
    (hunbond : p.unbond ≤ p'.unbond) : InCycle w' a p' := by
  refine ⟨by rw [hwaiting, hstatus]; exact hc.matched,
    hstatus ▸ hc.rebond, fun h => ?_, fun h => ?_⟩
  · rw [hera]
    exact hc.started (hstatus ▸ h)
  · rw [hsnapshot]
    obtain ⟨hb, hu⟩ := hc.covered (hstatus ▸ h)
    exact ⟨hb.trans hbond, hu.trans hunbond⟩

end InCycle

theorem inCycle_of_era {querier : Querier} {info : MessageInfo}
    {msg : ExecuteMsg} {id : PacketId} {sent : Option SubMsg}
    (hs : Sound net w) (hp : w.store.pools a = some p)
    (hc : InCycle w a p) (ht : Tame a w ev)
    (haction : ev.action = .execute querier info msg id)
    (hera : EraStep w.store querier ⟨ev.block, net.self⟩ a p msg sent p')
    (hsends : Sends sent id info.sender msg w w') : InCycle w' a p' := by
  have hquiet : sent = none →
      w'.waiting TxType.isEra a = w.waiting TxType.isEra a := by
    rintro rfl
    exact waiting_of_sends_other hs hsends (by simp)
  have hinit : ∀ sub, sent = some sub → Calls sub a .setWithdrawAddr →
      w'.waiting TxType.isEra a = w.waiting TxType.isEra a := by
    rintro sub rfl hcalls
    refine waiting_of_sends_other hs hsends ?_
    intro sub' hsub txType hkind hcalls'
    obtain rfl := Option.mem_some.mp hsub
    obtain rfl := calls_type hcalls hcalls'
    cases hkind
  cases hera with
  | init htarget hstatus hcalls =>
      refine inCycle_of_idle ?_ (by simp [mustWait, beforeBond])
      rw [hinit _ rfl hcalls]
      exact hc.idle (by rw [hstatus]; rfl)
  | migrate htarget hstatus hrate hcal hcalls =>
      refine inCycle_of_idle ?_ (by simp [mustWait, beforeBond])
      rw [hinit _ rfl hcalls]
      exact hc.idle (by rw [hstatus]; rfl)
  | retry htarget hmsg hstatus hcalls =>
      exact hc.of_same (hinit _ rfl hcalls) rfl rfl rfl le_rfl le_rfl
  | eraUpdate hstatus hupdate hbond =>
      have hidle := hc.idle (by rw [hstatus]; rfl)
      rw [← hquiet rfl] at hidle
      exact ⟨matched_of_idle hidle (by simp [mustWait]), by simp, by simp,
        fun _ => ⟨le_rfl, le_rfl⟩⟩
  | eraUpdateSent hstatus hupdate hbond hcalls =>
      refine ⟨?_, by simp [startEra], fun _ => Nat.le_add_left 1 _,
        fun _ => ⟨le_rfl, le_rfl⟩⟩
      rw [waiting_of_sends_calls hs hsends hcalls rfl]
      exact matched_sent (hc.idle (by rw [hstatus]; rfl)) rfl
  | eraBond hstatus hmsgs hsent hcalls =>
      refine ⟨?_, by simp, by simp, fun _ => hc.covered (.inr (.inl hstatus))⟩
      rw [waiting_of_sends_calls hs hsends hcalls rfl]
      exact matched_sent (hc.idle (by rw [hstatus]; rfl)) rfl
  | collect hstatus hinfo hamount =>
      refine inCycle_of_idle ?_ (by simp [mustWait, beforeBond])
      rw [hquiet rfl]
      exact hc.idle (by rw [hstatus]; rfl)
  | collectSent hstatus hinfo hamount hne hcalls hmsgs =>
      refine ⟨?_, by simp, by simp, by simp [beforeBond]⟩
      rw [waiting_of_sends_calls hs hsends hcalls rfl]
      exact matched_sent (hc.idle (by rw [hstatus]; rfl)) rfl
  | rebond hstatus hzero =>
      refine inCycle_of_idle ?_ (by simp [mustWait, beforeBond])
      rw [hquiet rfl]
      exact ht.rebond _ _ _ _ p haction hp hstatus
  | rebondSent hstatus hne hmsgs hsent hcalls =>
      refine ⟨?_, hc.rebond, hc.started, hc.covered⟩
      rw [waiting_of_sends_calls hs hsends hcalls rfl]
      exact matched_sent (ht.rebond _ _ _ _ p haction hp hstatus)
        (by rw [hstatus]; rfl)
  | active hstatus hshares hstack act htotal =>
      refine inCycle_of_idle ?_
        (by simp [mustWait, beforeBond, Activation.apply])
      rw [hquiet rfl]
      exact hc.idle (by rw [hstatus]; rfl)

/-- The status in which the answer to a packet of the cycle arrives. -/
theorem InCycle.awaited_of_packet (hc : InCycle w a p) {id : PacketId}
    {packet : Packet} {payload : SudoPayload}
    (hpacket : w.pending id = some packet)
    (hpayload : packet.payload = some payload) (hpool : payload.poolAddr = a)
    (hkind : payload.txType.isEra = true) :
    w.waiting TxType.isEra a id = some payload.txType ∧
      awaited p.status = some payload.txType := by
  have hwaiting := waiting_eq_some.mpr
    ⟨⟨packet, payload, hpacket, hpayload, hpool, rfl⟩, hkind⟩
  exact ⟨hwaiting, hc.matched.may id _ hwaiting⟩

theorem inCycle_of_answer {id : PacketId} {answer : Answer} {height : Nat}
    {querier : Querier} {bankAccepts : Bool} {packet : Packet}
    {payload : SudoPayload} (hc : InCycle w a p) (ht : Tame a w ev)
    (hp : w.store.pools a = some p)
    (haction : ev.action = .answer id answer querier bankAccepts)
    (hpacket : w.pending id = some packet)
    (hpayload : packet.payload = some payload) (hpool : payload.poolAddr = a)
    (hera : EraAnswer height p payload answer p')
    (hpending : w'.pending = w.pending.remove id) : InCycle w' a p' := by
  -- an answer to a packet of the cycle leaves none waiting
  have hidle : payload.txType.isEra = true →
      Idle (w'.waiting TxType.isEra a) ∧
        awaited p.status = some payload.txType := by
    intro hkind
    obtain ⟨hwaiting, hawaited⟩ :=
      hc.awaited_of_packet hpacket hpayload hpool hkind
    rw [waiting_of_remove hpending]
    exact ⟨hc.matched.answered hwaiting, hawaited⟩
  have hinit : payload.txType = .setWithdrawAddr →
      Idle (w'.waiting TxType.isEra a) := by
    intro htype
    have hidle : Idle (w.waiting TxType.isEra a) := by
      rcases ht.init id answer querier bankAccepts p haction
        ⟨packet, payload, hpacket, hpayload, hpool, htype⟩ hp with
        h | h | ⟨-, h⟩
      all_goals exact hc.idle (by rw [h]; rfl)
    rw [waiting_of_remove hpending]
    intro other
    rw [Map.remove_apply]
    split
    · rfl
    · exact hidle other
  cases hera with
  | setWithdraw htype =>
      exact inCycle_of_idle (hinit htype) (by simp [mustWait, beforeBond])
  | setWithdrawFailed htype hfailed =>
      exact inCycle_of_idle (hinit htype) (by simp [mustWait, beforeBond])
  | eraUpdate htype =>
      obtain ⟨hidle, hawaited⟩ := hidle (by rw [htype]; rfl)
      refine ⟨matched_of_idle hidle (by simp [mustWait]), by simp, by simp,
        fun _ => hc.covered ?_⟩
      rw [htype] at hawaited
      exact beforeBond_of_awaited (.inl hawaited)
  | eraBondFailed htype hfailed =>
      obtain ⟨hidle, hawaited⟩ := hidle (by rw [htype]; rfl)
      refine ⟨matched_of_idle hidle (by simp [mustWait]), by simp, by simp,
        fun _ => hc.covered ?_⟩
      rw [htype] at hawaited
      exact beforeBond_of_awaited (.inr hawaited)
  | eraUpdateFailed htype hfailed hera =>
      exact inCycle_of_idle (hidle (by rw [htype]; rfl)).1
        (by simp [mustWait, beforeBond])
  | eraBond htype hbond hunbond =>
      exact inCycle_of_idle (hidle (by rw [htype]; rfl)).1
        (by simp [mustWait, beforeBond])
  | collect htype =>
      exact inCycle_of_idle (hidle (by rw [htype]; rfl)).1
        (by simp [mustWait, beforeBond])
  | collectFailed htype hfailed =>
      exact inCycle_of_idle (hidle (by rw [htype]; rfl)).1
        (by simp [mustWait, beforeBond])
  | rebond htype =>
      exact inCycle_of_idle (hidle (by rw [htype]; rfl)).1
        (by simp [mustWait, beforeBond])
  | rebondFailed htype hfailed =>
      exact inCycle_of_idle (hidle (by rw [htype]; rfl)).1
        (by simp [mustWait, beforeBond])

/-- The answer to a packet of a step is always handled. -/
theorem InCycle.not_vain (hc : InCycle w a p) {env : Env} {id : PacketId}
    {answer : Answer} {packet : Packet} {payload : SudoPayload}
    (hp : w.store.pools a = some p) (hpacket : w.pending id = some packet)
    (hpayload : packet.payload = some payload) (hpool : payload.poolAddr = a)
    (hvain : ∀ store rsp, callback (w.afterTake id) env payload answer =
      .ok (store, rsp) → rsp.messages ≠ []) :
    payload.txType.isStep = false := by
  by_contra hkind
  rw [Bool.not_eq_false] at hkind
  have hawaited : payload.txType.isEra = true →
      awaited p.status = some payload.txType := fun hera =>
    (hc.awaited_of_packet hpacket hpayload hpool hera).2
  have hstarted : payload.txType = .eraUpdate → 1 ≤ p.era := by
    intro htype
    rw [htype] at hawaited
    exact hc.started (status_of_awaited.1.mp (hawaited rfl))
  have hcovered : payload.txType = .eraBond →
      p.eraSnapshot.bond ≤ p.bond ∧ p.eraSnapshot.unbond ≤ p.unbond := by
    intro htype
    rw [htype] at hawaited
    exact hc.covered (beforeBond_of_awaited (.inr (hawaited rfl)))
  have hpools : (w.afterTake id).pools payload.poolAddr = some p := hpool ▸ hp
  obtain ⟨store, hok⟩ :=
    step_callback_total hpools hkind hstarted hcovered
  exact hvain store Response.new hok rfl

/-- Every tame step keeps the cycle intact. -/
theorem inCycle_of_move (hs : Sound net w) (hp : w.store.pools a = some p)
    (hc : InCycle w a p) (ht : Tame a w ev)
    (hmove : PoolMove net w ev w' a p p') : InCycle w' a p' := by
  cases hmove with
  | executed haction hstep hsends =>
      rcases hstep.calm_or_era with hcalm | hera
      · exact hc.of_same (waiting_of_sends_other hs hsends
          fun sub hsub txType hkind => hcalm.quiet sub hsub txType (.inl hkind))
          hcalm.status hcalm.era hcalm.snapshot hcalm.bond_le hcalm.unbond_le
      · exact inCycle_of_era hs hp hc ht haction hera hsends
  | answered haction hpacket hpayload hpool hstep hpending =>
      rcases hstep.calm_or_era with hcalm | hera
      · exact hc.of_same (waiting_of_remove_other hpending
          (waiting_other hpacket hpayload hcalm.kind.1)) hcalm.status
          hcalm.era hcalm.snapshot hcalm.bond.ge hcalm.unbond.ge
      · exact inCycle_of_answer hc ht hp haction hpacket hpayload hpool hera
          hpending
  | answeredElsewhere haction hpacket helsewhere hpending =>
      exact hc.of_same (waiting_of_remove_other hpending
        (waiting_elsewhere hpacket helsewhere)) rfl rfl rfl le_rfl le_rfl
  | vain haction hpacket hpayload hpool hvain hpending =>
      have hkind := hc.not_vain hp hpacket hpayload hpool hvain
      simp only [TxType.isStep, Bool.or_eq_false_iff] at hkind
      exact hc.of_same (waiting_of_remove_other hpending
        (waiting_other hpacket hpayload hkind.1)) rfl rfl rfl le_rfl le_rfl
  | idle hexecute hanswer hpending =>
      exact hc.of_same (waiting_of_pending hpending) rfl rfl rfl le_rfl le_rfl

/-- A new pool is at the beginning of its cycle. -/
theorem inCycle_registered {icaId admin : String}
    (h : ∀ txType id, ¬ w.Unanswered a txType id) :
    InCycle w a (registeredPool icaId admin) :=
  inCycle_of_idle (idle_of_not_unanswered h)
    (by simp [mustWait, beforeBond, registeredPool])

/-! ### Orderly runs -/

/-- Every packet of a step is answered before the next step is accepted. -/
def Orderly (a : String) (w : World) (ev : Event) : Prop :=
  match ev.action with
  | .execute _ _ msg _ => msg.isStep = true → msg.target w.store = some a →
      ∀ id ∈ w.used, w.waiting TxType.isStep a id = none
  | _ => True

instance (a : String) (w : World) (ev : Event) : Decidable (Orderly a w ev) :=
  match ev with
  | ⟨_, .execute _ _ msg _⟩ => inferInstanceAs (Decidable
      (msg.isStep = true → msg.target w.store = some a →
        ∀ id ∈ w.used, w.waiting TxType.isStep a id = none))
  | ⟨_, .answer _ _ _ _⟩ => .isTrue trivial
  | ⟨_, .openAck _ _ _ _⟩ => .isTrue trivial
  | ⟨_, .kvQueryResult _ _⟩ => .isTrue trivial
  | ⟨_, .token _ _ _ _⟩ => .isTrue trivial

/-- The statuses in which the withdraw address may still be unset. -/
def mayInit (status : EraStatus) (_ : TxType) : Prop :=
  status = .initStarted ∨ status = .initFailed

/-- The packets of both kinds match the status. -/
structure InOrder (w : World) (a : String) (p : PoolInfo) : Prop where
  cycle : InCycle w a p
  init : Matched mayInit (fun _ => False) (w.waiting TxType.isInit a) p.status

theorem Orderly.idle (hs : Sound net w) (h : Orderly a w ev)
    {querier : Querier} {info : MessageInfo} {msg : ExecuteMsg}
    {id : PacketId} (haction : ev.action = .execute querier info msg id)
    (hmsg : msg.isStep = true) (htarget : msg.target w.store = some a)
    {kinds : TxType → Bool}
    (hkinds : ∀ txType, kinds txType = true → txType.isStep = true) :
    Idle (w.waiting kinds a) := by
  simp only [Orderly, haction] at h
  intro other
  cases hother : w.waiting kinds a other with
  | none => rfl
  | some txType =>
      obtain ⟨hwaits, hkind⟩ := waiting_eq_some.mp hother
      have hstep := waiting_eq_some.mpr ⟨hwaits, hkinds txType hkind⟩
      obtain ⟨packet, payload, hpacket, -⟩ := hwaits
      have hnone := h hmsg htarget other (hs.usedPending other packet hpacket)
      exact absurd (hnone.symm.trans hstep) (by simp)

theorem isStep_of_isEra (txType : TxType) (h : txType.isEra = true) :
    txType.isStep = true := by
  simp [TxType.isStep, h]

theorem isStep_of_isInit (txType : TxType) (h : txType.isInit = true) :
    txType.isStep = true := by
  simp [TxType.isStep, h]

/-- In an orderly run every step is tame. -/
theorem InOrder.tame (hs : Sound net w)
    (ho : ∀ p, w.store.pools a = some p → InOrder w a p)
    (h : Orderly a w ev) : Tame a w ev where
  rebond _ _ _ _ _ haction _ _ := h.idle hs haction rfl rfl isStep_of_isEra
  init id _ _ _ p _ hwaits hp :=
    ((ho p hp).init.may id .setWithdrawAddr
      (waiting_eq_some.mpr ⟨hwaits, rfl⟩)).imp_right .inl

theorem EraStep.isStep {store : Storage} {querier : Querier} {env : Env}
    {msg : ExecuteMsg} {sent : Option SubMsg}
    (h : EraStep store querier env a p msg sent p') :
    msg.isStep = true ∧ msg.target store = some a := by
  cases h with
  | init htarget hstatus hcalls => exact ⟨rfl, htarget⟩
  | migrate htarget hstatus hrate hcal hcalls => exact ⟨rfl, htarget⟩
  | retry htarget hmsg hstatus hcalls =>
      rcases hmsg with ⟨_, rfl⟩ | ⟨_, rfl⟩ <;> exact ⟨rfl, htarget⟩
  | _ => exact ⟨rfl, rfl⟩

theorem EraAnswer.isStep {height : Nat} {payload : SudoPayload}
    {answer : Answer} (h : EraAnswer height p payload answer p') :
    payload.txType.isStep = true := by
  cases h <;> simp [TxType.isStep, TxType.isEra, TxType.isInit, *]

/-- What an orderly step does to the packets that set the withdraw address. -/
theorem init_of_move (hs : Sound net w) (hp : w.store.pools a = some p)
    (ho : InOrder w a p)
    (h : Orderly a w ev) (hmove : PoolMove net w ev w' a p p') :
    Matched mayInit (fun _ => False) (w'.waiting TxType.isInit a)
      p'.status := by
  have hkeep : w'.waiting TxType.isInit a = w.waiting TxType.isInit a →
      p'.status = p.status → Matched mayInit (fun _ => False)
        (w'.waiting TxType.isInit a) p'.status := by
    intro hwaiting hstatus
    rw [hwaiting, hstatus]
    exact ho.init
  cases hmove with
  | executed haction hstep hsends =>
      rcases hstep.calm_or_era with hcalm | hera
      · exact hkeep (waiting_of_sends_other hs hsends
          fun sub hsub txType hkind =>
            hcalm.quiet sub hsub txType (.inr hkind)) hcalm.status
      obtain ⟨hmsg, htarget⟩ := EraStep.isStep hera
      have hidle := h.idle hs haction hmsg htarget isStep_of_isInit
      have hother : ∀ {sub txType}, Calls sub a txType →
          txType.isInit = false → ∀ sub' ∈ some sub, ∀ other,
            TxType.isInit other = true → ¬ Calls sub' a other := by
        intro sub txType hcalls hkind sub' hsub other hother hcalls'
        obtain rfl := Option.mem_some.mp hsub
        obtain rfl := calls_type hcalls hcalls'
        exact absurd (hkind.symm.trans hother) (by simp)
      -- a step that sends no packet of this kind leaves none waiting
      have hstill : w'.waiting TxType.isInit a = w.waiting TxType.isInit a →
          Matched mayInit (fun _ => False) (w'.waiting TxType.isInit a)
            p'.status := by
        intro hwaiting
        rw [hwaiting]
        exact matched_of_idle hidle not_false
      cases hera with
      | init _ hstatus hcalls =>
          rw [waiting_of_sends_calls hs hsends hcalls rfl]
          exact matched_sent hidle (.inl rfl)
      | migrate _ hstatus hrate hcal hcalls =>
          rw [waiting_of_sends_calls hs hsends hcalls rfl]
          exact matched_sent hidle (.inl rfl)
      | retry _ _ hstatus hcalls =>
          rw [waiting_of_sends_calls hs hsends hcalls rfl]
          exact matched_sent hidle (.inr hstatus)
      | eraUpdateSent hstatus hupdate hbond hcalls =>
          exact hstill (waiting_of_sends_other hs hsends (hother hcalls rfl))
      | eraBond hstatus hmsgs hsent hcalls =>
          exact hstill (waiting_of_sends_other hs hsends (hother hcalls rfl))
      | collectSent hstatus hinfo hamount hne hcalls hmsgs =>
          exact hstill (waiting_of_sends_other hs hsends (hother hcalls rfl))
      | rebondSent hstatus hne hmsgs hsent hcalls =>
          exact hstill (waiting_of_sends_other hs hsends (hother hcalls rfl))
      | _ => exact hstill (waiting_of_sends_other hs hsends (by simp))
  | answered haction hpacket hpayload hpool hstep hpending =>
      rename_i id answer querier bankAccepts packet payload
      by_cases hinit : payload.txType.isInit = true
      · -- the answer leaves none waiting
        have hwaiting := waiting_eq_some.mpr
          ⟨⟨packet, payload, hpacket, hpayload, hpool, rfl⟩, hinit⟩
        rw [waiting_of_remove hpending]
        exact matched_of_idle (ho.init.answered hwaiting) not_false
      · rw [Bool.not_eq_true] at hinit
        have hwaiting : w'.waiting TxType.isInit a =
            w.waiting TxType.isInit a := waiting_of_remove_other hpending
          (waiting_other hpacket hpayload hinit)
        rcases hstep.calm_or_era with hcalm | hera
        · exact hkeep hwaiting hcalm.status
        · -- while an era packet waits the withdraw address is set
          have hkind : payload.txType.isEra = true := by
            simpa [TxType.isStep, hinit] using EraAnswer.isStep hera
          obtain ⟨-, hawaited⟩ :=
            ho.cycle.awaited_of_packet hpacket hpayload hpool hkind
          rw [hwaiting]
          refine matched_of_idle (ho.init.idle ?_) not_false
          rintro _ (hstatus | hstatus) <;> simp [hstatus, awaited] at hawaited
  | answeredElsewhere haction hpacket helsewhere hpending =>
      exact hkeep (waiting_of_remove_other hpending
        (waiting_elsewhere hpacket helsewhere)) rfl
  | vain haction hpacket hpayload hpool hvain hpending =>
      have hkind := ho.cycle.not_vain hp hpacket hpayload hpool hvain
      simp only [TxType.isStep, Bool.or_eq_false_iff] at hkind
      exact hkeep (waiting_of_remove_other hpending
        (waiting_other hpacket hpayload hkind.2)) rfl
  | idle hexecute hanswer hpending =>
      exact hkeep (waiting_of_pending hpending) rfl

theorem inOrder_step (hs : Sound net w) (hstep : w.step net ev = some w')
    (ho : ∀ p, w.store.pools a = some p → InOrder w a p)
    (h : Orderly a w ev) :
    ∀ p', w'.store.pools a = some p' → InOrder w' a p' :=
  pool_invariant hs hstep ho
    (fun _ _ hp _ hin hmove =>
      ⟨inCycle_of_move hs hp hin.cycle (InOrder.tame hs ho h) hmove,
        init_of_move hs hp hin h hmove⟩)
    fun _ _ _ _ hnone _ _ => ⟨inCycle_registered hnone,
      matched_of_idle (idle_of_not_unanswered hnone) (by simp)⟩

/-- The querier of an activation of pool `a`. -/
def activation (a : String) (ev : Event) : Option Querier :=
  match ev.action with
  | .execute querier _ (.eraActive poolAddr) _ =>
      if poolAddr = a then some querier else none
  | _ => none

theorem activation_eq_some {querier : Querier} :
    activation a ev = some querier ↔
      ∃ info id, ev.action = .execute querier info (.eraActive a) id := by
  unfold activation
  split
  · rename_i querier' info poolAddr id haction
    simp only [haction, Option.ite_none_right_eq_some, Option.some.injEq,
      Action.execute.injEq, ExecuteMsg.eraActive.injEq]
    constructor
    · rintro ⟨rfl, rfl⟩
      exact ⟨info, id, rfl, rfl, rfl, rfl⟩
    · rintro ⟨_, _, rfl, -, rfl, -⟩
      exact ⟨rfl, rfl⟩
  · rename_i hother
    simp only [reduceCtorEq, false_iff, not_exists]
    exact fun info id h => hother _ _ _ _ h

/-- What an accepted activation has read and what it leaves behind. -/
theorem active_of_step (hs : Sound net w) (hstep : w.step net ev = some w')
    {querier : Querier} {info : MessageInfo} {id : PacketId}
    (haction : ev.action = .execute querier info (.eraActive a) id) :
    ∃ p stackInfo, ∃ act : Activation p stackInfo,
      w.store.pools a = some p ∧ w.store.stack = some stackInfo ∧
      p.status = .rebondEnded ∧
      eraTotalAmount w.store querier a p = .ok act.totalAmount ∧
      w'.store.pools a = some act.apply := by
  obtain ⟨store, rsp, sent, hexec⟩ := executed_of_step hs hstep haction
  obtain ⟨p, stackInfo, act, fees, icq, next, hp, hstatus, -, hstack, htotal,
    hstore, -⟩ := executeEraActive_ok hexec.call
  refine ⟨p, stackInfo, act, hp, hstack, hstatus, htotal, ?_⟩
  rw [hexec.records.pools, hstore]
  exact Map.save_self

end World

end NeutronContracts
