/-
What the answer to a packet can do to one pool, for every kind of packet and
for success as well as failure.
-/
import NeutronContracts.Chain.PoolStep

namespace NeutronContracts

open StakeManager

/-- The callback that handles an answer. -/
def callback (store : Storage) (env : Env) (payload : SudoPayload) :
    Answer → NeutronResult (Storage × Response)
  | .success => sudoCallback store env payload
  | .error => sudoFailedCallback store payload
  | .timeout => sudoFailedCallback store payload

/-- What the handled answer to a packet of the era cycle does to the record of
its pool. -/
inductive EraAnswer (height : Nat) (p : PoolInfo) (payload : SudoPayload) :
    Answer → PoolInfo → Prop
  | setWithdraw (htype : payload.txType = .setWithdrawAddr) :
      EraAnswer height p payload .success { p with status := .activeEnded }
  | setWithdrawFailed {answer} (htype : payload.txType = .setWithdrawAddr)
      (hfailed : answer ≠ .success) :
      EraAnswer height p payload answer { p with status := .initFailed }
  | eraUpdate (htype : payload.txType = .eraUpdate) :
      EraAnswer height p payload .success
        { p with
          status := .eraUpdateEnded
          eraSnapshot := { p.eraSnapshot with lastStepHeight := height } }
  | eraUpdateFailed {answer} (htype : payload.txType = .eraUpdate)
      (hfailed : answer ≠ .success) (hera : 1 ≤ p.era) :
      EraAnswer height p payload answer
        { p with
          era := p.era - 1
          status := .activeEnded
          eraSnapshot := ⟨0, 0, 0, 0, 0, 0⟩ }
  | eraBond (htype : payload.txType = .eraBond)
      (hbond : p.eraSnapshot.bond ≤ p.bond)
      (hunbond : p.eraSnapshot.unbond ≤ p.unbond) :
      EraAnswer height p payload .success
        { p with
          status := .bondEnded
          eraSnapshot := { p.eraSnapshot with lastStepHeight := height }
          bond := p.bond - p.eraSnapshot.bond
          unbond := p.unbond - p.eraSnapshot.unbond }
  | eraBondFailed {answer} (htype : payload.txType = .eraBond)
      (hfailed : answer ≠ .success) :
      EraAnswer height p payload answer { p with status := .eraUpdateEnded }
  | collect (htype : payload.txType = .eraCollectWithdraw) :
      EraAnswer height p payload .success
        { p with
          status := .withdrawEnded
          eraSnapshot := { p.eraSnapshot with lastStepHeight := height } }
  | collectFailed {answer} (htype : payload.txType = .eraCollectWithdraw)
      (hfailed : answer ≠ .success) :
      EraAnswer height p payload answer { p with status := .bondEnded }
  | rebond (htype : payload.txType = .eraRebond) :
      EraAnswer height p payload .success
        { p with
          status := .rebondEnded
          eraSnapshot := { p.eraSnapshot with lastStepHeight := height } }
  | rebondFailed {answer} (htype : payload.txType = .eraRebond)
      (hfailed : answer ≠ .success) :
      EraAnswer height p payload answer { p with status := .withdrawEnded }

/-- What the handled answer to a packet of a pool does to its record. -/
inductive AnswerStep (height : Nat) (p : PoolInfo) (payload : SudoPayload) :
    Answer → PoolInfo → Prop
  | era {answer p'} (hera : EraAnswer height p payload answer p') :
      AnswerStep height p payload answer p'
  | userWithdraw {answer} (htype : payload.txType = .userWithdraw) :
      AnswerStep height p payload answer p
  | updateValidator (htype : payload.txType = .updateValidator) :
      AnswerStep height p payload .success
        { p with
          validatorUpdateStatus := .waitQueryUpdate
          validatorAddrs := Text.split '_' payload.message }
  | rmValidator (htype : payload.txType = .rmValidator) :
      AnswerStep height p payload .success
        { p with
          validatorUpdateStatus := .waitQueryUpdate
          validatorAddrs := p.validatorAddrs.filter fun v =>
            decide (v ≠ payload.message) }
  | validatorFailed {answer}
      (htype : payload.txType = .updateValidator ∨
        payload.txType = .rmValidator)
      (hfailed : answer ≠ .success) :
      AnswerStep height p payload answer
        { p with validatorUpdateStatus := .ended }
  | stakeLsm {staker tokenAmount share} (htype : payload.txType = .stakeLsm)
      (hcredit : stakeLsmCredit payload.message =
        some (staker, tokenAmount, share))
      (hrate : p.rate ≠ 0) :
      AnswerStep height p payload .success (lsmCredited p tokenAmount share)
  | stakeLsmFailed {answer} (htype : payload.txType = .stakeLsm)
      (hfailed : answer ≠ .success) :
      AnswerStep height p payload answer p
  | redeem (htype : payload.txType = .redeemTokenForShare) :
      AnswerStep height p payload .success
        { p with
          shareTokens := p.shareTokens.filter fun token =>
            decide (token.denom ∉ Text.split ',' payload.message)
          redeemmingShareTokenDenom :=
            p.redeemmingShareTokenDenom.filter fun denom =>
              decide (denom ∉ Text.split ',' payload.message) }
  | redeemFailed {answer} (htype : payload.txType = .redeemTokenForShare)
      (hfailed : answer ≠ .success) :
      AnswerStep height p payload answer
        { p with
          redeemmingShareTokenDenom :=
            p.redeemmingShareTokenDenom.filter fun denom =>
              decide (denom ∉ Text.split ',' payload.message) }

/-- The effect of a handled answer on all pools. -/
structure AnswerOutcome (store : Storage) (env : Env) (payload : SudoPayload)
    (answer : Answer) (store' : Storage) (subs : List SubMsg) : Prop where
  packets : packets subs = []
  sudoPayload : store'.sudoPayload = store.sudoPayload
  infoOfIcaId : store'.infoOfIcaId = store.infoOfIcaId
  created : ∀ a, store.pools a = none → store'.pools a = none
  elsewhere : ∀ a, payload.poolAddr ≠ a → store'.pools a = store.pools a
  step : ∀ p, store.pools payload.poolAddr = some p →
    ∃ p', store'.pools payload.poolAddr = some p' ∧
      AnswerStep env.block.height p payload answer p'

section

variable {store store' : Storage} {env : Env} {payload : SudoPayload}
  {rsp : Response} {subs : List SubMsg} {answer : Answer} {q q' : PoolInfo}

theorem AnswerOutcome.of_save (hq : store.pools payload.poolAddr = some q)
    (hpools : store'.pools = store.pools.save payload.poolAddr q')
    (hstep : AnswerStep env.block.height q payload answer q')
    (hpackets : NeutronContracts.packets subs = [])
    (hpayload : store'.sudoPayload = store.sudoPayload)
    (hinfo : store'.infoOfIcaId = store.infoOfIcaId) :
    AnswerOutcome store env payload answer store' subs := by
  refine ⟨hpackets, hpayload, hinfo, fun a ha => ?_, fun a hne => ?_,
    fun p hp => ?_⟩
  · have hne : a ≠ payload.poolAddr := by
      rintro rfl
      simp [hq] at ha
    rw [hpools, Map.save_of_ne hne, ha]
  · rw [hpools, Map.save_of_ne hne.symm]
  · rw [hq, Option.some.injEq] at hp
    subst hp
    exact ⟨q', by rw [hpools, Map.save_self], hstep⟩

/-- A callback that does not write the records of pools. -/
theorem AnswerOutcome.of_same (hpools : store'.pools = store.pools)
    (hstep : ∀ p, AnswerStep env.block.height p payload answer p)
    (hpackets : NeutronContracts.packets subs = [])
    (hpayload : store'.sudoPayload = store.sudoPayload)
    (hinfo : store'.infoOfIcaId = store.infoOfIcaId) :
    AnswerOutcome store env payload answer store' subs :=
  ⟨hpackets, hpayload, hinfo, fun _ ha => hpools ▸ ha,
    fun _ _ => by rw [hpools], fun p hp => ⟨p, hpools ▸ hp, hstep p⟩⟩

theorem sudoCallback_outcome
    (h : sudoCallback store env payload = .ok (store', rsp)) :
    AnswerOutcome store env payload .success store' rsp.messages := by
  unfold sudoCallback at h
  split at h
  case h_1 htype =>
      obtain ⟨p, hp, rfl, rfl⟩ := sudoSetWithdrawAddrCallback_ok.mp h
      exact .of_save hp rfl (.era (.setWithdraw htype)) rfl rfl rfl
  case h_2 htype =>
      obtain ⟨p, hp, rfl, rfl⟩ := sudoEraUpdateCallback_ok.mp h
      exact .of_save hp rfl (.era (.eraUpdate htype)) rfl rfl rfl
  case h_3 htype =>
      obtain ⟨p, times, hp, hbond, hunbond, rfl, rfl⟩ :=
        sudoEraBondCallback_ok h
      exact .of_save hp rfl (.era (.eraBond htype hbond hunbond)) rfl rfl rfl
  case h_4 htype =>
      obtain ⟨p, hp, rfl, rfl⟩ := sudoEraCollectWithdrawCallback_ok.mp h
      exact .of_save hp rfl (.era (.collect htype)) rfl rfl rfl
  case h_5 htype =>
      obtain ⟨p, hp, rfl, rfl⟩ := sudoEraRebondCallback_ok.mp h
      exact .of_save hp rfl (.era (.rebond htype)) rfl rfl rfl
  case h_6 htype =>
      obtain ⟨⟨_, _, rfl⟩, hmsgs⟩ := sudoWithdrawCallback_store h
      exact .of_same rfl (fun _ => .userWithdraw htype) (by rw [hmsgs]; rfl)
        rfl rfl
  case h_7 htype =>
      obtain ⟨p, hp, rfl, rfl⟩ := sudoUpdateValidatorCallback_ok.mp h
      exact .of_save hp rfl (.updateValidator htype) rfl rfl rfl
  case h_8 htype =>
      obtain ⟨p, hp, rfl, rfl⟩ := sudoRmValidatorCallback_ok.mp h
      exact .of_save hp rfl (.rmValidator htype) rfl rfl rfl
  case h_9 htype =>
      obtain ⟨p, staker, tokenAmount, share, hcredit, hp, hrate, rfl, hmsgs⟩ :=
        sudoStakeLsmCallback_ok h
      exact .of_save hp rfl (.stakeLsm htype hcredit hrate)
        (by rw [hmsgs]; rfl) rfl rfl
  case h_10 htype =>
      obtain ⟨p, hp, rfl, rfl⟩ := sudoRedeemTokenForShareCallback_ok.mp h
      exact .of_save hp rfl (.redeem htype) rfl rfl rfl

theorem sudoFailedCallback_outcome (hfailed : answer ≠ .success)
    (h : sudoFailedCallback store payload = .ok (store', rsp)) :
    AnswerOutcome store env payload answer store' rsp.messages := by
  unfold sudoFailedCallback at h
  split at h
  case h_1 htype =>
      obtain ⟨p, hp, rfl, rfl⟩ := sudoSetWithdrawAddrFailedCallback_ok.mp h
      exact .of_save hp rfl (.era (.setWithdrawFailed htype hfailed)) rfl rfl
        rfl
  case h_2 htype =>
      obtain ⟨p, hp, hera, rfl, rfl⟩ := sudoEraUpdateFailedCallback_ok.mp h
      exact .of_save hp rfl (.era (.eraUpdateFailed htype hfailed hera)) rfl
        rfl rfl
  case h_3 htype =>
      obtain ⟨p, hp, rfl, rfl⟩ := sudoEraBondFailedCallback_ok.mp h
      exact .of_save hp rfl (.era (.eraBondFailed htype hfailed)) rfl rfl rfl
  case h_4 htype =>
      obtain ⟨p, hp, rfl, rfl⟩ :=
        sudoEraCollectWithdrawFailedCallback_ok.mp h
      exact .of_save hp rfl (.era (.collectFailed htype hfailed)) rfl rfl rfl
  case h_5 htype =>
      obtain ⟨p, hp, rfl, rfl⟩ := sudoEraRebondFailedCallback_ok.mp h
      exact .of_save hp rfl (.era (.rebondFailed htype hfailed)) rfl rfl rfl
  case h_6 htype =>
      obtain ⟨⟨_, _, rfl⟩, hmsgs⟩ := sudoWithdrawFailedCallback_store h
      exact .of_same rfl (fun _ => .userWithdraw htype) (by rw [hmsgs]; rfl)
        rfl rfl
  case h_7 htype =>
      obtain ⟨p, hp, rfl, rfl⟩ := endValidatorUpdate_ok.mp h
      exact .of_save hp rfl (.validatorFailed (.inl htype) hfailed) rfl rfl
        rfl
  case h_8 htype =>
      obtain ⟨p, hp, rfl, rfl⟩ := endValidatorUpdate_ok.mp h
      exact .of_save hp rfl (.validatorFailed (.inr htype) hfailed) rfl rfl
        rfl
  case h_9 htype =>
      obtain ⟨_, _, rfl, hmsgs⟩ := sudoStakeLsmFailedCallback_ok h
      exact .of_same rfl (fun _ => .stakeLsmFailed htype hfailed)
        (by rw [hmsgs]; rfl) rfl rfl
  case h_10 htype =>
      obtain ⟨p, hp, rfl, rfl⟩ :=
        sudoRedeemTokenForShareFailedCallback_ok.mp h
      exact .of_save hp rfl (.redeemFailed htype hfailed) rfl rfl rfl

/-- Every handled answer has one of the effects above. -/
theorem callback_outcome
    (h : callback store env payload answer = .ok (store', rsp)) :
    AnswerOutcome store env payload answer store' rsp.messages := by
  cases answer with
  | success => exact sudoCallback_outcome h
  | error => exact sudoFailedCallback_outcome (by decide) h
  | timeout => exact sudoFailedCallback_outcome (by decide) h

end

end NeutronContracts
