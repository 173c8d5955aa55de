/-
Changing the validators of a pool.  A removal and a replacement may need a
redelegation on the host, and then their packet is answered later: a removal
edits the list at that moment, a replacement has put the new list in place
before and writes it once more.
-/
import NeutronContracts.Chain.EraProtocol

namespace NeutronContracts

open StakeManager Outstanding

/-- The packets of a change of validators. -/
def StakeManager.TxType.isValidator : TxType → Bool
  | .updateValidator => true
  | .rmValidator => true
  | _ => false

/-- What a call asks to do with the validators of a pool. -/
inductive Edit
  | start (validators : List String)
  | add (validatorAddr : String)
  | remove (validatorAddr : String)
  | replace (oldValidator newValidator : String)

def Edit.apply : Edit → List String → List String
  | .start validators, _ => validators
  | .add validatorAddr, validators => validators ++ [validatorAddr]
  | .remove validatorAddr, validators =>
      validators.filter fun val => decide (val ≠ validatorAddr)
  | .replace oldValidator newValidator, validators =>
      replaced validators oldValidator newValidator

/-- The edit that a call asks for in pool `a`, whose status is `status`. -/
def StakeManager.ExecuteMsg.edit (store : Storage) (a : String)
    (status : EraStatus) (msg : ExecuteMsg) : Option Edit :=
  if msg.target store = some a then
    match msg with
    | .initPool param =>
        if status = .registerEnded then some (.start param.validatorAddrs)
        else none
    | .migratePool param =>
        if status = .registerEnded then some (.start param.validatorAddrs)
        else none
    | .poolAddValidator _ validatorAddr => some (.add validatorAddr)
    | .poolRmValidator _ validatorAddr => some (.remove validatorAddr)
    | .poolUpdateValidator _ oldValidator newValidator =>
        some (.replace oldValidator newValidator)
    | _ => none
  else none

/-- The calls that may ask for an edit. -/
def StakeManager.ExecuteMsg.mayEdit : ExecuteMsg → Bool
  | .initPool _ => true
  | .migratePool _ => true
  | .poolAddValidator _ _ => true
  | .poolRmValidator _ _ => true
  | .poolUpdateValidator _ _ _ => true
  | _ => false

/-- What an accepted call does to the validators of pool `a`. -/
inductive ValidatorStep (store : Storage) (a : String) (p : PoolInfo)
    (msg : ExecuteMsg) : Option SubMsg → PoolInfo → Prop
  | plain {sent p'} (hedit : msg.edit store a p.status = none)
      (hlist : p'.validatorAddrs = p.validatorAddrs)
      (hupdate : p'.validatorUpdateStatus = p.validatorUpdateStatus)
      (hsent : ∀ sub ∈ sent, ∀ txType, txType.isValidator = true →
        ¬ Calls sub a txType) :
      ValidatorStep store a p msg sent p'
  | watch {p'} (hedit : msg.edit store a p.status = none)
      (hmsg : msg = .poolUpdateValidatorsIcq a)
      (hbefore : p.validatorUpdateStatus = .waitQueryUpdate)
      (hlist : p'.validatorAddrs = p.validatorAddrs)
      (hupdate : p'.validatorUpdateStatus = .ended) :
      ValidatorStep store a p msg none p'
  | start {validators sub p'}
      (hedit : msg.edit store a p.status = some (.start validators))
      (hstatus : p.status = .registerEnded)
      (hcalls : Calls sub a .setWithdrawAddr)
      (hlist : p'.validatorAddrs = validators)
      (hupdate : p'.validatorUpdateStatus = .ended) :
      ValidatorStep store a p msg (some sub) p'
  | add {validatorAddr p'}
      (hedit : msg.edit store a p.status = some (.add validatorAddr))
      (hlist : p'.validatorAddrs = p.validatorAddrs ++ [validatorAddr])
      (hupdate : p'.validatorUpdateStatus = p.validatorUpdateStatus) :
      ValidatorStep store a p msg none p'
  | done {edit p'} (hedit : msg.edit store a p.status = some edit)
      (hbefore : p.validatorUpdateStatus = .ended)
      (hlist : p'.validatorAddrs = edit.apply p.validatorAddrs)
      (hupdate : p'.validatorUpdateStatus = .waitQueryUpdate) :
      ValidatorStep store a p msg none p'
  | removal {validatorAddr sub p'}
      (hedit : msg.edit store a p.status = some (.remove validatorAddr))
      (hstatus : p'.status = .activeEnded) (hcalls : Calls sub a .rmValidator)
      (htext : sub.text = validatorAddr)
      (hbefore : p.validatorUpdateStatus = .ended)
      (hlist : p'.validatorAddrs = p.validatorAddrs)
      (hupdate : p'.validatorUpdateStatus = .start) :
      ValidatorStep store a p msg (some sub) p'
  | replacement {oldValidator newValidator sub p'}
      (hedit : msg.edit store a p.status =
        some (.replace oldValidator newValidator))
      (hstatus : p'.status = .activeEnded)
      (hnew : newValidator ∉ p.validatorAddrs)
      (hcalls : Calls sub a .updateValidator)
      (htext : sub.text =
        Text.join '_' (replaced p.validatorAddrs oldValidator newValidator))
      (hbefore : p.validatorUpdateStatus = .ended)
      (hlist : p'.validatorAddrs =
        replaced p.validatorAddrs oldValidator newValidator)
      (hupdate : p'.validatorUpdateStatus = .start) :
      ValidatorStep store a p msg (some sub) p'

section

variable {store : Storage} {querier : Querier} {env : Env}
  {info : MessageInfo} {a : String} {p p' : PoolInfo} {msg : ExecuteMsg}
  {sent : Option SubMsg}

theorem edit_elsewhere {status : EraStatus}
    (h : msg.target store ≠ some a) : msg.edit store a status = none := by
  unfold ExecuteMsg.edit
  exact if_neg h

theorem edit_of_other {status : EraStatus} (h : msg.mayEdit = false) :
    msg.edit store a status = none := by
  unfold ExecuteMsg.edit
  split
  · cases msg with
    | initPool param => cases h
    | migratePool param => cases h
    | poolAddValidator poolAddr validatorAddr => cases h
    | poolRmValidator poolAddr validatorAddr => cases h
    | poolUpdateValidator poolAddr oldValidator newValidator => cases h
    | _ => rfl
  · rfl

theorem edit_eq_remove {status : EraStatus} {validatorAddr : String}
    (h : msg.edit store a status = some (.remove validatorAddr)) :
    msg = .poolRmValidator a validatorAddr := by
  unfold ExecuteMsg.edit at h
  split at h
  case isTrue htarget =>
      split at h
      case h_4 =>
          simp only [Option.some.injEq, Edit.remove.injEq] at h
          obtain rfl := Option.some.inj htarget
          rw [h]
      case h_1 => split at h <;> cases h
      case h_2 => split at h <;> cases h
      all_goals cases h
  case isFalse => cases h

theorem edit_eq_replace {status : EraStatus}
    {oldValidator newValidator : String}
    (h : msg.edit store a status = some (.replace oldValidator newValidator)) :
    msg = .poolUpdateValidator a oldValidator newValidator := by
  unfold ExecuteMsg.edit at h
  split at h
  case isTrue htarget =>
      split at h
      case h_5 =>
          simp only [Option.some.injEq, Edit.replace.injEq] at h
          obtain rfl := Option.some.inj htarget
          rw [h.1, h.2]
      case h_1 => split at h <;> cases h
      case h_2 => split at h <;> cases h
      all_goals cases h
  case isFalse => cases h

theorem not_validator_of_calls {sub : SubMsg} {b : String} {txType : TxType}
    (h : Calls sub b txType) (hkind : txType.isValidator = false) :
    ∀ sub' ∈ some sub, ∀ other, other.isValidator = true →
      ¬ Calls sub' a other := by
  intro sub' hsub other hother hcalls
  obtain rfl := Option.mem_some.mp hsub
  obtain rfl := calls_type h hcalls
  exact absurd (hkind.symm.trans hother) (by simp)

theorem validatorStep_of_era (h : EraStep store querier env a p msg sent p') :
    ValidatorStep store a p msg sent p' := by
  have hnone : ∀ sub ∈ (none : Option SubMsg), ∀ txType : TxType,
      txType.isValidator = true → ¬ Calls sub a txType := by
    intro sub hsub
    cases hsub
  cases h with
  | init htarget hstatus hcalls =>
      refine .start ?_ hstatus hcalls rfl rfl
      rw [ExecuteMsg.edit, if_pos htarget, if_pos hstatus]
      rfl
  | migrate htarget hstatus hrate hcal hcalls =>
      refine .start ?_ hstatus hcalls rfl rfl
      rw [ExecuteMsg.edit, if_pos htarget, if_pos hstatus]
      rfl
  | retry htarget hmsg hstatus hcalls =>
      refine .plain ?_ rfl rfl (not_validator_of_calls hcalls rfl)
      rcases hmsg with ⟨param, rfl⟩ | ⟨param, rfl⟩
      all_goals
        rw [ExecuteMsg.edit, if_pos htarget]
        simp [hstatus]
  | eraUpdate hstatus hupdate hbond =>
      exact .plain (edit_of_other rfl) rfl rfl hnone
  | eraUpdateSent hstatus hupdate hbond hcalls =>
      exact .plain (edit_of_other rfl) rfl rfl
        (not_validator_of_calls hcalls rfl)
  | eraBond hstatus hmsgs hsent hcalls =>
      exact .plain (edit_of_other rfl) rfl rfl
        (not_validator_of_calls hcalls rfl)
  | collect hstatus hinfo hamount =>
      exact .plain (edit_of_other rfl) rfl rfl hnone
  | collectSent hstatus hinfo hamount hne hcalls hmsgs =>
      exact .plain (edit_of_other rfl) rfl rfl
        (not_validator_of_calls hcalls rfl)
  | rebond hstatus hzero => exact .plain (edit_of_other rfl) rfl rfl hnone
  | rebondSent hstatus hne hmsgs hsent hcalls =>
      exact .plain (edit_of_other rfl) rfl rfl
        (not_validator_of_calls hcalls rfl)
  | active hstatus hshares hstack act htotal =>
      exact .plain (edit_of_other rfl) rfl rfl hnone

theorem validatorStep_of_exec
    (h : ExecStep store querier env info a p msg sent p') :
    ValidatorStep store a p msg sent p' := by
  have hnone : ∀ sub ∈ (none : Option SubMsg), ∀ txType : TxType,
      txType.isValidator = true → ¬ Calls sub a txType := by
    intro sub hsub
    cases hsub
  cases h with
  | elsewhere htarget hsent =>
      exact .plain (edit_elsewhere htarget) rfl rfl
        fun sub hsub txType _ => hsent sub hsub txType
  | stake hfunds hdenom hrate =>
      exact .plain (edit_of_other rfl) rfl rfl hnone
  | unstake hfee hle hburned htoken hactive htotal hlarge =>
      exact .plain (edit_of_other rfl) rfl rfl hnone
  | withdraw hcalls =>
      exact .plain (edit_of_other rfl) rfl rfl
        (not_validator_of_calls hcalls rfl)
  | stakeLsm hstatus hupdate hcalls =>
      exact .plain (edit_of_other rfl) rfl rfl
        (not_validator_of_calls hcalls rfl)
  | redeem hdenoms hcalls hmsgs htext =>
      exact .plain (edit_of_other rfl) rfl rfl
        (not_validator_of_calls hcalls rfl)
  | addValidator hstatus hlen hnew =>
      exact .add (if_pos rfl) rfl rfl
  | rmValidator hstatus hmem hupdate hlen hquery hzero =>
      exact .done (if_pos rfl) hupdate rfl rfl
  | rmValidatorSent hstatus hmem hupdate htarget hcalls htext hmsgs =>
      exact .removal (if_pos rfl) hstatus hcalls htext
        hupdate rfl rfl
  | updateValidator hstatus hupdate hold hnew hquery hmsgs =>
      exact .done (if_pos rfl) hupdate rfl rfl
  | updateValidatorSent hstatus hupdate hold hnew hcalls htext hmsgs =>
      exact .replacement (if_pos rfl) hstatus hnew hcalls
        htext hupdate rfl rfl
  | updateValidatorsIcq hupdate =>
      exact .watch (edit_of_other rfl) rfl hupdate rfl rfl
  | delegate hstatus hpayload hmsgs =>
      refine .plain (edit_of_other rfl) rfl rfl ?_
      rintro sub hsub txType - ⟨payload, hsome, -⟩
      obtain rfl := Option.mem_some.mp hsub
      exact absurd (hpayload.symm.trans hsome) (by simp)
  | openChannel =>
      exact .plain (edit_of_other rfl) rfl rfl hnone
  | updatePeriod =>
      exact .plain (edit_of_other rfl) rfl rfl hnone
  | config hpool hconfig =>
      obtain ⟨_, _, _, _, _, _, _, _, _, _, _, rfl⟩ := hconfig
      exact .plain (edit_of_other rfl) rfl rfl hnone
  | era hera => exact validatorStep_of_era hera

end

namespace World

variable {net : Network} {w w' : World} {ev : Event} {a : String}
  {p p' : PoolInfo} {id : PacketId} {packet : Packet} {payload : SudoPayload}

/-- The callbacks of a change of validators do not fail. -/
theorem validator_callback_total {store : Storage} {env : Env}
    {answer : Answer} (hp : store.pools payload.poolAddr = some p)
    (hkind : payload.txType.isValidator = true) :
    ∃ store', callback store env payload answer =
      .ok (store', Response.new) := by
  have hfailed : ∃ store', sudoFailedCallback store payload =
      .ok (store', Response.new) := by
    cases htype : payload.txType with
    | updateValidator =>
        simp only [sudoFailedCallback, htype]
        exact ⟨_, endValidatorUpdate_ok.mpr ⟨p, hp, rfl, rfl⟩⟩
    | rmValidator =>
        simp only [sudoFailedCallback, htype]
        exact ⟨_, endValidatorUpdate_ok.mpr ⟨p, hp, rfl, rfl⟩⟩
    | _ => simp [htype, TxType.isValidator] at hkind
  cases answer with
  | success =>
      cases htype : payload.txType with
      | updateValidator =>
          simp only [callback, sudoCallback, htype]
          exact ⟨_, sudoUpdateValidatorCallback_ok.mpr ⟨p, hp, rfl, rfl⟩⟩
      | rmValidator =>
          simp only [callback, sudoCallback, htype]
          exact ⟨_, sudoRmValidatorCallback_ok.mpr ⟨p, hp, rfl, rfl⟩⟩
      | _ => simp [htype, TxType.isValidator] at hkind
  | error => exact hfailed
  | timeout => exact hfailed

theorem validator_not_vain {env : Env} {answer : Answer}
    (hp : w.store.pools payload.poolAddr = some p)
    (hvain : ∀ store rsp, callback (w.afterTake id) env payload answer =
      .ok (store, rsp) → rsp.messages ≠ []) :
    payload.txType.isValidator = false := by
  by_contra hkind
  rw [Bool.not_eq_false] at hkind
  have hpools : (w.afterTake id).pools payload.poolAddr = some p := hp
  obtain ⟨store, hok⟩ := validator_callback_total hpools hkind
  exact hvain store Response.new hok rfl

/-! ### Failed changes -/

/-- A stake, an unstake or the answer to a share stake. -/
def Meantime (w : World) (ev : Event) : Prop :=
  match ev.action with
  | .execute _ _ (.stake _ _) _ => True
  | .execute _ _ (.unstake _ _) _ => True
  | .answer id _ _ _ => ∃ packet ∈ w.pending id,
      ∃ payload ∈ packet.payload, payload.txType = .stakeLsm
  | _ => False

/-- A packet of a change waits, and the list and its status are given. -/
structure Changing (net : Network) (a : String) (id : PacketId)
    (packet : Packet) (validators : List String)
    (status : ValidatorUpdateStatus) (w : World) : Prop where
  sound : Sound net w
  waits : w.pending id = some packet
  record : ∃ p, w.store.pools a = some p ∧ p.validatorAddrs = validators ∧
    p.validatorUpdateStatus = status

/-- What happens in the meantime leaves the change alone. -/
theorem changing_step {validators : List String}
    {status : ValidatorUpdateStatus} (hpayload : packet.payload = some payload)
    (hkind : payload.txType.isValidator = true)
    (hc : Changing net a id packet validators status w)
    (hstep : w.step net ev = some w') (hmeantime : Meantime w ev) :
    Changing net a id packet validators status w' := by
  obtain ⟨hs, hwaits, p, hp, hlist, hstatus⟩ := hc
  obtain ⟨p', hp', hmove⟩ := pool_move hs hstep hp
  -- the answers of the meantime are to other packets
  have hother : ∀ {other answer querier bankAccepts},
      ev.action = .answer other answer querier bankAccepts →
      w'.pending = w.pending.remove other →
      w'.pending id = some packet ∧ ∃ packet' ∈ w.pending other,
        ∃ payload' ∈ packet'.payload, payload'.txType = .stakeLsm := by
    intro other answer querier bankAccepts haction hpending
    simp only [Meantime, haction] at hmeantime
    obtain ⟨packet', hpacket', payload', hpayload', htype⟩ := hmeantime
    have hne : id ≠ other := by
      rintro rfl
      obtain rfl := Option.some.inj (hwaits.symm.trans hpacket')
      obtain rfl := Option.some.inj (hpayload.symm.trans hpayload')
      rw [htype] at hkind
      cases hkind
    exact ⟨by rw [hpending, Map.remove_of_ne hne, hwaits], packet', hpacket',
      payload', hpayload', htype⟩
  cases hmove with
  | executed haction hexec hsends =>
      rename_i querier info msg _ sent
      have hplain : msg.mayEdit = false ∧ msg ≠ .poolUpdateValidatorsIcq a := by
        simp only [Meantime, haction] at hmeantime
        split at hmeantime
        case h_1 h => cases h; exact ⟨rfl, nofun⟩
        case h_2 h => cases h; exact ⟨rfl, nofun⟩
        case h_3 h => cases h
        case h_4 => exact absurd hmeantime not_false
      have hnone : msg.edit w.store a p.status = none := edit_of_other hplain.1
      refine ⟨sound_step hs hstep, pending_after_sends hs hsends hwaits, p',
        hp', ?_⟩
      cases validatorStep_of_exec hexec with
      | plain _ hlist' hupdate' _ =>
          exact ⟨hlist'.trans hlist, hupdate'.trans hstatus⟩
      | watch _ hmsg => exact absurd hmsg hplain.2
      | start hedit => exact absurd (hnone.symm.trans hedit) (by simp)
      | add hedit => exact absurd (hnone.symm.trans hedit) (by simp)
      | done hedit => exact absurd (hnone.symm.trans hedit) (by simp)
      | removal hedit => exact absurd (hnone.symm.trans hedit) (by simp)
      | replacement hedit => exact absurd (hnone.symm.trans hedit) (by simp)
  | answered haction hpacket' hpayload' hpool' hanswer hpending =>
      obtain ⟨hwaits', packet'', hpacket'', payload'', hpayload'', htype⟩ :=
        hother haction hpending
      obtain rfl := Option.some.inj (hpacket'.symm.trans hpacket'')
      obtain rfl := Option.some.inj (hpayload'.symm.trans hpayload'')
      refine ⟨sound_step hs hstep, hwaits', p', hp', ?_⟩
      cases hanswer with
      | stakeLsm => exact ⟨hlist, hstatus⟩
      | stakeLsmFailed => exact ⟨hlist, hstatus⟩
      | era hera => cases hera <;> simp_all
      | _ => simp_all
  | answeredElsewhere haction _ _ hpending =>
      exact ⟨sound_step hs hstep, (hother haction hpending).1, _, hp', hlist,
        hstatus⟩
  | vain haction _ _ _ _ hpending =>
      exact ⟨sound_step hs hstep, (hother haction hpending).1, _, hp', hlist,
        hstatus⟩
  | idle hexecute hanswer hpending =>
      exact ⟨sound_step hs hstep, hpending ▸ hwaits, _, hp', hlist, hstatus⟩

/-- A request that has sent its packet: a removal has left the list as it was,
a replacement has not. -/
theorem changing_of_request {block : BlockInfo} {querier : Querier}
    {info : MessageInfo} {msg : ExecuteMsg} (hs : Sound net w)
    (hp : w.store.pools a = some p)
    (hmsg : (∃ validatorAddr, msg = .poolRmValidator a validatorAddr) ∨
      ∃ oldValidator newValidator,
        msg = .poolUpdateValidator a oldValidator newValidator)
    (hstep : w.step net ⟨block, .execute querier info msg id⟩ = some w')
    (hsent : id ∉ w.used ∧ id ∈ w'.used) :
    ∃ packet payload validators, packet.payload = some payload ∧
      payload.poolAddr = a ∧ payload.txType.isValidator = true ∧
      Changing net a id packet validators .start w' ∧
      p.validatorUpdateStatus = .ended ∧
      (validators = p.validatorAddrs ↔
        ∃ validatorAddr, msg = .poolRmValidator a validatorAddr) := by
  obtain ⟨p', hp', hmove⟩ := pool_move hs hstep hp
  have hedit : ∃ edit, msg.edit w.store a p.status = some edit := by
    rcases hmsg with ⟨_, rfl⟩ | ⟨_, _, rfl⟩
    · exact ⟨_, if_pos rfl⟩
    · exact ⟨_, if_pos rfl⟩
  obtain ⟨edit, hedit⟩ := hedit
  cases hmove with
  | executed haction hexec hsends =>
      obtain ⟨rfl, rfl, rfl, rfl⟩ := Action.execute.inj haction
      -- without a packet the id would not have been used
      cases validatorStep_of_exec hexec with
      | plain hnone => exact absurd (hnone.symm.trans hedit) (by simp)
      | watch hnone => exact absurd (hnone.symm.trans hedit) (by simp)
      | add => exact absurd (hsends.2 ▸ hsent.2) hsent.1
      | done => exact absurd (hsends.2 ▸ hsent.2) hsent.1
      | start hstart hstatus =>
          rcases hmsg with ⟨_, rfl⟩ | ⟨_, _, rfl⟩
          · cases (if_pos rfl : ExecuteMsg.edit w.store a p.status
              (.poolRmValidator a _) = _).symm.trans hstart
          · cases (if_pos rfl : ExecuteMsg.edit w.store a p.status
              (.poolUpdateValidator a _ _) = _).symm.trans hstart
      | removal hremove hstatus hcalls htext hbefore hlist hupdate =>
          rename_i validatorAddr sub
          obtain rfl := edit_eq_remove hremove
          obtain ⟨payload, hpayload, hpool, htype⟩ := hcalls
          refine ⟨sub.packet info.sender (.poolRmValidator a validatorAddr),
            payload, _, hpayload, hpool, by rw [htype]; rfl,
            ⟨sound_step hs hstep, ?_, p', hp', hlist, hupdate⟩, hbefore,
            fun _ => ⟨_, rfl⟩, fun _ => rfl⟩
          rw [hsends.2.2, Map.save_self]
      | replacement hreplace hstatus hnew hcalls htext hbefore hlist hupdate =>
          rename_i oldValidator newValidator sub
          obtain rfl := edit_eq_replace hreplace
          obtain ⟨payload, hpayload, hpool, htype⟩ := hcalls
          refine ⟨sub.packet info.sender
              (.poolUpdateValidator a oldValidator newValidator),
            payload, _, hpayload, hpool, by rw [htype]; rfl,
            ⟨sound_step hs hstep, ?_, p', hp', hlist, hupdate⟩, hbefore,
            fun hsame => ?_, fun ⟨_, h⟩ => nomatch h⟩
          · rw [hsends.2.2, Map.save_self]
          · rw [← hsame] at hnew
            exact absurd (by simp [replaced]) hnew
  | answered haction => cases haction
  | answeredElsewhere haction => cases haction
  | vain haction => cases haction
  | idle hexecute => exact absurd rfl (hexecute _ _ _ _)

/-- The failure of a change ends it with the list as it is. -/
theorem ended_of_failure {validators : List String}
    {status : ValidatorUpdateStatus} {block : BlockInfo} {answer : Answer}
    {querier : Querier} {bankAccepts : Bool}
    (hpayload : packet.payload = some payload) (hpool : payload.poolAddr = a)
    (hkind : payload.txType.isValidator = true)
    (hc : Changing net a id packet validators status w)
    (hstep : w.step net ⟨block, .answer id answer querier bankAccepts⟩ =
      some w') (hfailed : answer ≠ .success) :
    ∃ p', w'.store.pools a = some p' ∧ p'.validatorAddrs = validators ∧
      p'.validatorUpdateStatus = .ended := by
  obtain ⟨hs, hwaits, p, hp, hlist, -⟩ := hc
  obtain ⟨p', hp', hmove⟩ := pool_move hs hstep hp
  refine ⟨p', hp', ?_⟩
  cases hmove with
  | executed haction => cases haction
  | idle _ hanswer => exact absurd rfl (hanswer _ _ _ _)
  | answered haction hpacket' hpayload' hpool' hanswer hpending =>
      obtain ⟨rfl, rfl, rfl, rfl⟩ := Action.answer.inj haction
      obtain rfl := Option.some.inj (hwaits.symm.trans hpacket')
      obtain rfl := Option.some.inj (hpayload.symm.trans hpayload')
      cases hanswer with
      | validatorFailed => exact ⟨hlist, rfl⟩
      | updateValidator => exact absurd rfl hfailed
      | rmValidator => exact absurd rfl hfailed
      | era hera =>
          have hstep := EraAnswer.isStep hera
          cases htype : payload.txType <;>
            simp [htype, TxType.isValidator, TxType.isStep, TxType.isEra,
              TxType.isInit] at hkind hstep
      | _ => simp_all [TxType.isValidator]
  | answeredElsewhere haction hpacket' helsewhere =>
      obtain ⟨rfl, rfl, rfl, rfl⟩ := Action.answer.inj haction
      obtain rfl := Option.some.inj (hwaits.symm.trans hpacket')
      exact absurd hpool (helsewhere payload hpayload)
  | vain haction hpacket' hpayload' hpool' hvain =>
      obtain ⟨rfl, rfl, rfl, rfl⟩ := Action.answer.inj haction
      obtain rfl := Option.some.inj (hwaits.symm.trans hpacket')
      obtain rfl := Option.some.inj (hpayload.symm.trans hpayload')
      have hplain := validator_not_vain (hpool ▸ hp) hvain
      exact absurd (hplain.symm.trans hkind) (by simp)

/-- A removal that moves a delegation of 1000. -/
def removal : Event :=
  Sample.call 1 (Sample.querier 1 [("val1", 1000)] 0)
    (.poolRmValidator Sample.pool "val1") (Sample.packetId 2)

/-- A replacement that moves a delegation of 1000. -/
def replacement : Event :=
  Sample.call 1 (Sample.querier 1 [("val1", 1000)] 0)
    (.poolUpdateValidator Sample.pool "val1" "val3") (Sample.packetId 2)

end World

end NeutronContracts
