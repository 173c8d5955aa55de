/-
The validators of a pool: adding, removing and replacing them, moving their
delegations, and telling the interchain queries which ones to watch.
-/
import NeutronContracts.StakeManager.Callback

namespace NeutronContracts.StakeManager

open Fallible

def executeAddPoolValidators (store : Storage) (querier : Querier)
    (info : MessageInfo) (poolAddr validatorAddr : String) :
    NeutronResult (Storage × Response) := do
  let poolInfo ← load (store.pools poolAddr)
  rejectIf (info.sender ≠ poolInfo.admin) .unauthorized
  rejectIf (poolInfo.status ≠ .activeEnded) .eraProcessNotEnd
  rejectIf (validaterLenLimit ≤ poolInfo.validatorAddrs.length)
    .validatorAddressesListSize
  rejectIf (validatorAddr ∈ poolInfo.validatorAddrs) .validatorAlreadyExit
  let poolInfo : PoolInfo :=
    { poolInfo with
      validatorAddrs := poolInfo.validatorAddrs ++ [validatorAddr] }
  let store := store.savePool poolAddr poolInfo
  let (poolIcaInfo, _, _) ← load (store.infoOfIcaId poolInfo.icaId)
  let rsp ← dealValidatorsIcqUpdate store querier poolAddr poolInfo
    poolIcaInfo.ctrlConnectionId
  return (store, rsp)

/-- The end of a change of validators that needs no packet. -/
def withoutRedelegation (store : Storage) (poolAddr : String)
    (poolInfo : PoolInfo) (validators : List String) : Storage :=
  store.savePool poolAddr
    { poolInfo with
      validatorUpdateStatus := .waitQueryUpdate
      validatorAddrs := validators }

def executeRmPoolValidator (store : Storage) (querier : Querier)
    (info : MessageInfo) (poolAddr validatorAddr : String) :
    NeutronResult (Storage × Response) := do
  let poolInfo ← load (store.pools poolAddr)
  rejectIf (info.sender ≠ poolInfo.admin) .unauthorized
  rejectIf (poolInfo.status ≠ .activeEnded) .eraProcessNotEnd
  rejectIf (validatorAddr ∉ poolInfo.validatorAddrs) .oldValidatorNotExist
  rejectIf (poolInfo.validatorUpdateStatus ≠ .ended) .statusNotAllow
  let delegations ← queryDelegationByAddr store querier poolAddr
    poolInfo.sdkGreaterOrEqualV047
  rejectIf (poolInfo.validatorAddrs.length ≤ 1) .validatorAddressesListSize
  let leftValidators := poolInfo.validatorAddrs.filter fun val =>
    decide (val ≠ validatorAddr)
  match delegations.result.find? fun d => d.validator = validatorAddr with
  | none =>
      return (withoutRedelegation store poolAddr poolInfo leftValidators,
        Response.new)
  | some delegation =>
      if delegation.amount.amount = 0 then
        return (withoutRedelegation store poolAddr poolInfo leftValidators,
          Response.new)
      else
        let ibcFee ← checkIbcFee querier info
        let (poolIcaInfo, _, _) ← load (store.infoOfIcaId poolInfo.icaId)
        -- `left_validators.get(0).unwrap()`
        let target ← orError leftValidators.head? .panic
        let (store, submsg) := msgWithSudoCallback store
          (.submitTx
            { connectionId := poolIcaInfo.ctrlConnectionId
              interchainAccountId := poolInfo.icaId
              msgs := [genRedelegateTxs poolAddr delegation.validator target
                poolInfo.remoteDenom delegation.amount.amount]
              memo := ""
              timeout := defaultTimeoutSeconds
              fee := ibcFee })
          { portId := poolIcaInfo.ctrlPortId
            poolAddr := poolIcaInfo.icaAddr
            message := validatorAddr
            txType := .rmValidator }
        return (store.savePool poolAddr
            { poolInfo with validatorUpdateStatus := .start },
          Response.new.addSubmessage submsg)

def sudoRmValidatorCallback (store : Storage) (payload : SudoPayload) :
    NeutronResult (Storage × Response) := do
  let poolInfo ← load (store.pools payload.poolAddr)
  return (withoutRedelegation store payload.poolAddr poolInfo
    (poolInfo.validatorAddrs.filter fun v => decide (v ≠ payload.message)),
    Response.new)

/-- The failure callback of `RmValidator`, which is also the text of the one
of `UpdateValidator`. -/
def endValidatorUpdate (store : Storage) (payload : SudoPayload) :
    NeutronResult (Storage × Response) := do
  let poolInfo ← load (store.pools payload.poolAddr)
  return (store.savePool payload.poolAddr
    { poolInfo with validatorUpdateStatus := .ended }, Response.new)

def sudoRmValidatorFailedCallback (store : Storage) (payload : SudoPayload) :
    NeutronResult (Storage × Response) :=
  endValidatorUpdate store payload

/-- The redelegations away from a validator: one for every delegation to it,
up to the first one without an amount. -/
def redelegationsFrom (poolAddr oldValidator newValidator remoteDenom :
    String) : List Delegation → List ProtobufAny
  | [] => []
  | delegation :: rest =>
      if delegation.validator ≠ oldValidator then
        redelegationsFrom poolAddr oldValidator newValidator remoteDenom rest
      else if delegation.amount.amount = 0 then []
      else
        genRedelegateTxs poolAddr delegation.validator newValidator
            remoteDenom delegation.amount.amount ::
          redelegationsFrom poolAddr oldValidator newValidator remoteDenom
            rest

def executePoolUpdateValidator (store : Storage) (querier : Querier)
    (info : MessageInfo) (poolAddr oldValidator newValidator : String) :
    NeutronResult (Storage × Response) := do
  let poolInfo ← load (store.pools poolAddr)
  rejectIf (info.sender ≠ poolInfo.admin) .unauthorized
  rejectIf (poolInfo.status ≠ .activeEnded) .eraProcessNotEnd
  rejectIf (poolInfo.validatorUpdateStatus ≠ .ended) .statusNotAllow
  rejectIf (oldValidator ∉ poolInfo.validatorAddrs) .oldValidatorNotExist
  rejectIf (newValidator ∈ poolInfo.validatorAddrs) .newValidatorAlreadyExist
  let delegations ← queryDelegationByAddr store querier poolAddr
    poolInfo.sdkGreaterOrEqualV047
  let newValidators := (poolInfo.validatorAddrs.filter fun x =>
    decide (x ≠ oldValidator)) ++ [newValidator]
  let msgs := redelegationsFrom poolAddr oldValidator newValidator
    poolInfo.remoteDenom delegations.result
  let (poolIcaInfo, _, _) ← load (store.infoOfIcaId poolInfo.icaId)
  if msgs ≠ [] then
    let ibcFee ← checkIbcFee querier info
    let (store, submsg) := msgWithSudoCallback store
      (.submitTx
        { connectionId := poolIcaInfo.ctrlConnectionId
          interchainAccountId := poolInfo.icaId
          msgs := msgs
          memo := ""
          timeout := defaultTimeoutSeconds
          fee := ibcFee })
      { portId := poolIcaInfo.ctrlPortId
        poolAddr := poolIcaInfo.icaAddr
        message := Text.join '_' newValidators
        txType := .updateValidator }
    return (store.savePool poolAddr
        { poolInfo with
          validatorUpdateStatus := .start
          validatorAddrs := newValidators },
      Response.new.addSubmessage submsg)
  else
    return (withoutRedelegation store poolAddr poolInfo newValidators,
      Response.new)

def sudoUpdateValidatorCallback (store : Storage) (payload : SudoPayload) :
    NeutronResult (Storage × Response) := do
  let poolInfo ← load (store.pools payload.poolAddr)
  return (withoutRedelegation store payload.poolAddr poolInfo
    (Text.split '_' payload.message), Response.new)

def sudoUpdateValidatorFailedCallback (store : Storage)
    (payload : SudoPayload) : NeutronResult (Storage × Response) :=
  endValidatorUpdate store payload

def executeUpdateValidatorsIcq (store : Storage) (querier : Querier)
    (info : MessageInfo) (poolAddr : String) :
    NeutronResult (Storage × Response) := do
  let poolInfo ← load (store.pools poolAddr)
  rejectIf (info.sender ≠ poolInfo.admin) .unauthorized
  rejectIf (poolInfo.validatorUpdateStatus ≠ .waitQueryUpdate)
    .statusNotAllow
  let poolInfo : PoolInfo := { poolInfo with validatorUpdateStatus := .ended }
  let store := store.savePool poolAddr poolInfo
  let (poolIcaInfo, _, _) ← load (store.infoOfIcaId poolInfo.icaId)
  let rsp ← dealValidatorsIcqUpdate store querier poolAddr poolInfo
    poolIcaInfo.ctrlConnectionId
  return (store, rsp)

/-- This packet is sent without a callback. -/
def executePoolDelegate (store : Storage) (querier : Querier)
    (info : MessageInfo) (poolAddr : String) (stakeAmount : Nat) :
    NeutronResult (Storage × Response) := do
  let poolInfo ← load (store.pools poolAddr)
  rejectIf (poolInfo.status ≠ .activeEnded) .statusNotAllow
  rejectIf (info.sender ≠ poolInfo.admin) .unauthorized
  let validatorCount := poolInfo.validatorAddrs.length
  rejectIf (validatorCount = 0) .validatorsEmpty
  let amountPerValidator := stakeAmount / validatorCount
  let remainder := stakeAmount - amountPerValidator * validatorCount
  let (poolIcaInfo, _, _) ← load (store.infoOfIcaId poolInfo.icaId)
  let ibcFee ← checkIbcFee querier info
  return (store, Response.new.addSubmessage
    ⟨.submitTx
      { connectionId := poolIcaInfo.ctrlConnectionId
        interchainAccountId := poolInfo.icaId
        msgs := splitDelegations poolAddr poolInfo.remoteDenom
          amountPerValidator remainder poolInfo.validatorAddrs
        memo := ""
        timeout := defaultTimeoutSeconds
        fee := ibcFee }, none, none⟩)

def updateIcqUpdatePeriod (store : Storage) (info : MessageInfo)
    (poolAddr : String) (newUpdatePeriod : Nat) :
    NeutronResult (Storage × Response) := do
  rejectIf (newUpdatePeriod < defaultFastPeriod) .periodTooSmall
  let poolInfo ← load (store.pools poolAddr)
  rejectIf (poolInfo.admin ≠ info.sender) .unauthorized
  rejectIf (poolInfo.status ≠ .activeEnded ∨
    poolInfo.validatorUpdateStatus ≠ .ended) .statusNotAllow
  let icqMsgs ←
    getUpdatePoolIcqMsgs store poolAddr poolInfo.icaId newUpdatePeriod
  return (store, Response.new.addMessages icqMsgs)

/-! ### What a successful call has done -/

section

variable {store store' : Storage} {rsp : Response} {querier : Querier}
  {info : MessageInfo} {payload : SudoPayload}
  {poolAddr validatorAddr oldValidator newValidator : String}

theorem executeAddPoolValidators_ok
    (h : executeAddPoolValidators store querier info poolAddr validatorAddr =
      .ok (store', rsp)) :
    ∃ p delegationsQueryId validatorsQueryId,
      store.pools poolAddr = some p ∧ p.status = .activeEnded ∧
      p.validatorAddrs.length < validaterLenLimit ∧
      validatorAddr ∉ p.validatorAddrs ∧
      store' = store.savePool poolAddr
        { p with validatorAddrs := p.validatorAddrs ++ [validatorAddr] } ∧
      rsp.messages = [
        ⟨.updateInterchainQuery delegationsQueryId
          (some (.delegations poolAddr (p.validatorAddrs ++ [validatorAddr])
            p.sdkGreaterOrEqualV047)) none, none, none⟩,
        ⟨.updateInterchainQuery validatorsQueryId
          (some (.stakingValidators (p.validatorAddrs ++ [validatorAddr])))
          none, none, none⟩] := by
  simp only [executeAddPoolValidators, bind_eq_ok, orError_eq_ok,
    rejectIf_eq_ok, Prod.exists, pure_eq_ok, Prod.mk.injEq, ne_eq, not_not,
    Nat.not_le] at h
  obtain ⟨p, hp, _, -, _, hstatus, _, hlen, _, hnew, _, _, _, -, _, hdeal,
    rfl, rfl⟩ := h
  obtain ⟨delegationsQueryId, validatorsQueryId, hrsp⟩ :=
    dealValidatorsIcqUpdate_ok hdeal
  exact ⟨p, delegationsQueryId, validatorsQueryId, hp, hstatus, hlen, hnew,
    rfl, hrsp⟩

/-- A removal either takes the validator off the list at once, when the last
result shows no delegation to it, or sends a redelegation. -/
theorem executeRmPoolValidator_ok
    (h : executeRmPoolValidator store querier info poolAddr validatorAddr =
      .ok (store', rsp)) :
    ∃ p delegations, store.pools poolAddr = some p ∧
      p.status = .activeEnded ∧ validatorAddr ∈ p.validatorAddrs ∧
      p.validatorUpdateStatus = .ended ∧ 1 < p.validatorAddrs.length ∧
      queryDelegationByAddr store querier poolAddr
        p.sdkGreaterOrEqualV047 = .ok delegations ∧
      ((∀ d, delegations.result.find? (·.validator = validatorAddr) = some d →
            d.amount.amount = 0) ∧
          store' = withoutRedelegation store poolAddr p
            (p.validatorAddrs.filter fun val => decide (val ≠ validatorAddr)) ∧
          rsp = Response.new ∨
        ∃ d tx payload target, ∃ poolIcaInfo withdrawIcaInfo : IcaInfo,
          ∃ admin,
          delegations.result.find? (·.validator = validatorAddr) = some d ∧
          d.amount.amount ≠ 0 ∧
          (p.validatorAddrs.filter fun val =>
            decide (val ≠ validatorAddr)).head? = some target ∧
          tx.msgs = [genRedelegateTxs poolAddr d.validator target
            p.remoteDenom d.amount.amount] ∧
          store.infoOfIcaId p.icaId =
            some (poolIcaInfo, withdrawIcaInfo, admin) ∧
          payload.message = validatorAddr ∧
          payload.poolAddr = poolIcaInfo.icaAddr ∧
          payload.txType = .rmValidator ∧
          store' = (store.queuePayload payload).savePool poolAddr
            { p with validatorUpdateStatus := .start } ∧
          rsp.messages =
            [⟨.submitTx tx, some store.replyId, some payload⟩]) := by
  simp only [executeRmPoolValidator, bind_eq_ok, orError_eq_ok,
    rejectIf_eq_ok, ne_eq, not_not, Nat.not_le] at h
  obtain ⟨p, hp, _, -, _, hstatus, _, hmem, _, hupdate, delegations, hquery,
    _, hlen, h⟩ := h
  refine ⟨p, delegations, hp, hstatus, hmem, hupdate, hlen, hquery, ?_⟩
  split at h
  case h_1 hnone =>
      simp only [pure_eq_ok, Prod.mk.injEq] at h
      refine .inl ⟨fun d hd => ?_, h.1.symm, h.2.symm⟩
      simp [hnone] at hd
  case h_2 d hfind =>
      split at h
      case isTrue hzero =>
          simp only [pure_eq_ok, Prod.mk.injEq] at h
          refine .inl ⟨fun d' hd' => ?_, h.1.symm, h.2.symm⟩
          rw [hfind, Option.some.injEq] at hd'
          exact hd' ▸ hzero
      case isFalse hne =>
          simp only [bind_eq_ok, Prod.exists, msgWithSudoCallback_eq,
            pure_eq_ok, Prod.mk.injEq, orError_eq_ok] at h
          obtain ⟨_, -, poolIcaInfo, withdrawIcaInfo, admin, hinfo, target,
            htarget, rfl, rfl⟩ := h
          exact .inr ⟨d, _, _, target, poolIcaInfo, withdrawIcaInfo, admin,
            hfind, hne, htarget, rfl, hinfo, rfl, rfl, rfl, rfl, rfl⟩

theorem sudoRmValidatorCallback_ok :
    sudoRmValidatorCallback store payload = .ok (store', rsp) ↔
      ∃ p, store.pools payload.poolAddr = some p ∧
        store' = withoutRedelegation store payload.poolAddr p
          (p.validatorAddrs.filter fun v => decide (v ≠ payload.message)) ∧
        rsp = Response.new := by
  simp only [sudoRmValidatorCallback, bind_eq_ok, orError_eq_ok, pure_eq_ok,
    Prod.mk.injEq, eq_comm (b := store'), eq_comm (b := rsp)]

theorem endValidatorUpdate_ok :
    endValidatorUpdate store payload = .ok (store', rsp) ↔
      ∃ p, store.pools payload.poolAddr = some p ∧
        store' = store.savePool payload.poolAddr
          { p with validatorUpdateStatus := .ended } ∧
        rsp = Response.new := by
  simp only [endValidatorUpdate, bind_eq_ok, orError_eq_ok, pure_eq_ok,
    Prod.mk.injEq, eq_comm (b := store'), eq_comm (b := rsp)]

/-- The list a replacement of a validator leaves. -/
def replaced (validators : List String) (oldValidator newValidator : String) :
    List String :=
  (validators.filter fun x => decide (x ≠ oldValidator)) ++ [newValidator]

theorem executePoolUpdateValidator_ok
    (h : executePoolUpdateValidator store querier info poolAddr oldValidator
      newValidator = .ok (store', rsp)) :
    ∃ p delegations msgs, store.pools poolAddr = some p ∧
      p.status = .activeEnded ∧ p.validatorUpdateStatus = .ended ∧
      oldValidator ∈ p.validatorAddrs ∧ newValidator ∉ p.validatorAddrs ∧
      queryDelegationByAddr store querier poolAddr
        p.sdkGreaterOrEqualV047 = .ok delegations ∧
      msgs = redelegationsFrom poolAddr oldValidator newValidator
        p.remoteDenom delegations.result ∧
      (msgs = [] ∧
          store' = withoutRedelegation store poolAddr p
            (replaced p.validatorAddrs oldValidator newValidator) ∧
          rsp = Response.new ∨
        msgs ≠ [] ∧ ∃ tx payload, ∃ poolIcaInfo withdrawIcaInfo : IcaInfo,
          ∃ admin, tx.msgs = msgs ∧
          store.infoOfIcaId p.icaId =
            some (poolIcaInfo, withdrawIcaInfo, admin) ∧
          payload.message = Text.join '_'
            (replaced p.validatorAddrs oldValidator newValidator) ∧
          payload.poolAddr = poolIcaInfo.icaAddr ∧
          payload.txType = .updateValidator ∧
          store' = (store.queuePayload payload).savePool poolAddr
            { p with
              validatorUpdateStatus := .start
              validatorAddrs :=
                replaced p.validatorAddrs oldValidator newValidator } ∧
          rsp.messages =
            [⟨.submitTx tx, some store.replyId, some payload⟩]) := by
  simp only [executePoolUpdateValidator, bind_eq_ok, orError_eq_ok,
    rejectIf_eq_ok, Prod.exists, ne_eq, not_not] at h
  obtain ⟨p, hp, _, -, _, hstatus, _, hupdate, _, hold, _, hnew, delegations,
    hquery, poolIcaInfo, withdrawIcaInfo, admin, hinfo, h⟩ := h
  refine ⟨p, delegations, _, hp, hstatus, hupdate, hold, hnew, hquery, rfl,
    ?_⟩
  split at h
  case isTrue hne =>
      simp only [bind_eq_ok, msgWithSudoCallback_eq, pure_eq_ok,
        Prod.mk.injEq] at h
      obtain ⟨_, -, rfl, rfl⟩ := h
      exact .inr ⟨hne, _, _, poolIcaInfo, withdrawIcaInfo, admin, rfl, hinfo,
        rfl, rfl, rfl, rfl, rfl⟩
  case isFalse hnil =>
      simp only [pure_eq_ok, Prod.mk.injEq] at h
      exact .inl ⟨not_not.mp hnil, h.1.symm, h.2.symm⟩

theorem sudoUpdateValidatorCallback_ok :
    sudoUpdateValidatorCallback store payload = .ok (store', rsp) ↔
      ∃ p, store.pools payload.poolAddr = some p ∧
        store' = withoutRedelegation store payload.poolAddr p
          (Text.split '_' payload.message) ∧
        rsp = Response.new := by
  simp only [sudoUpdateValidatorCallback, bind_eq_ok, orError_eq_ok,
    pure_eq_ok, Prod.mk.injEq, eq_comm (b := store'), eq_comm (b := rsp)]

theorem executeUpdateValidatorsIcq_ok
    (h : executeUpdateValidatorsIcq store querier info poolAddr =
      .ok (store', rsp)) :
    ∃ p delegationsQueryId validatorsQueryId,
      store.pools poolAddr = some p ∧
      p.validatorUpdateStatus = .waitQueryUpdate ∧
      store' = store.savePool poolAddr
        { p with validatorUpdateStatus := .ended } ∧
      rsp.messages = [
        ⟨.updateInterchainQuery delegationsQueryId
          (some (.delegations poolAddr p.validatorAddrs
            p.sdkGreaterOrEqualV047)) none, none, none⟩,
        ⟨.updateInterchainQuery validatorsQueryId
          (some (.stakingValidators p.validatorAddrs)) none,
          none, none⟩] := by
  simp only [executeUpdateValidatorsIcq, bind_eq_ok, orError_eq_ok,
    rejectIf_eq_ok, Prod.exists, pure_eq_ok, Prod.mk.injEq, ne_eq,
    not_not] at h
  obtain ⟨p, hp, _, -, _, hupdate, _, _, _, -, _, hdeal, rfl, rfl⟩ := h
  obtain ⟨delegationsQueryId, validatorsQueryId, hrsp⟩ :=
    dealValidatorsIcqUpdate_ok hdeal
  exact ⟨p, delegationsQueryId, validatorsQueryId, hp, hupdate, rfl, hrsp⟩

theorem executePoolDelegate_ok {stakeAmount : Nat}
    (h : executePoolDelegate store querier info poolAddr stakeAmount =
      .ok (store', rsp)) :
    ∃ p tx, store.pools poolAddr = some p ∧ p.status = .activeEnded ∧
      tx.msgs = splitDelegations poolAddr p.remoteDenom
        (stakeAmount / p.validatorAddrs.length)
        (stakeAmount - stakeAmount / p.validatorAddrs.length *
          p.validatorAddrs.length) p.validatorAddrs ∧
      store' = store ∧ rsp.messages = [⟨.submitTx tx, none, none⟩] := by
  simp only [executePoolDelegate, bind_eq_ok, orError_eq_ok, rejectIf_eq_ok,
    Prod.exists, pure_eq_ok, Prod.mk.injEq, ne_eq, not_not] at h
  obtain ⟨p, hp, _, hstatus, _, -, _, -, _, _, _, -, _, -, rfl, rfl⟩ := h
  exact ⟨p, _, hp, hstatus, rfl, rfl, rfl⟩

theorem updateIcqUpdatePeriod_ok {period : Nat}
    (h : updateIcqUpdatePeriod store info poolAddr period =
      .ok (store', rsp)) :
    ∃ p icq, store.pools poolAddr = some p ∧
      getUpdatePoolIcqMsgs store poolAddr p.icaId period = .ok icq ∧
      store' = store ∧ rsp.messages = icq.map (⟨·, none, none⟩) := by
  simp only [updateIcqUpdatePeriod, bind_eq_ok, orError_eq_ok, rejectIf_eq_ok,
    pure_eq_ok, Prod.mk.injEq] at h
  obtain ⟨_, -, p, hp, _, -, _, -, icq, hicq, rfl, rfl⟩ := h
  exact ⟨p, icq, hp, hicq, rfl, rfl⟩

end

end NeutronContracts.StakeManager
