/-
The era cycle of a pool: update, bond, collect the rewards, rebond them and
activate the new rate, with the callbacks of the four steps that send a packet.
-/
import Mathlib.Data.List.Sort
import NeutronContracts.StakeManager.Callback

namespace NeutronContracts.StakeManager

open Fallible

/-- `pool_info.status = status` and save. -/
def setStatus (store : Storage) (poolAddr : String) (poolInfo : PoolInfo)
    (status : EraStatus) : Storage :=
  store.savePool poolAddr { poolInfo with status := status }

/-! ### Update -/

/-- The number of the era the chain time is in. -/
def currentEra (block : BlockInfo) (poolInfo : PoolInfo) :
    NeutronResult Nat := do
  let eras ← U64.div block.seconds poolInfo.eraSeconds
  return U64.saturatingAddSigned eras poolInfo.offset

def executeEraUpdate (store : Storage) (querier : Querier) (env : Env)
    (info : MessageInfo) (poolAddr : String) :
    NeutronResult (Storage × Response) := do
  let poolInfo ← load (store.pools poolAddr)
  rejectIf poolInfo.paused .poolIsPaused
  rejectIf (poolInfo.status ≠ .activeEnded ∨
    poolInfo.validatorUpdateStatus ≠ .ended) .statusNotAllow
  let era ← currentEra env.block poolInfo
  rejectIf (era ≤ poolInfo.era) .alreadyLatestEra
  let nextEra ← U64.add poolInfo.era 1
  let poolInfo : PoolInfo :=
    { poolInfo with
      status := .eraUpdateStarted
      era := nextEra
      eraSnapshot :=
        { era := nextEra
          bond := poolInfo.bond
          unbond := poolInfo.unbond
          active := poolInfo.active
          lastStepHeight := env.block.height
          restakeAmount := 0 } }
  let icqMsgs ←
    getUpdatePoolIcqMsgs store poolAddr poolInfo.icaId defaultFastPeriod
  let rsp := Response.new.addMessages icqMsgs
  if poolInfo.eraSnapshot.bond = 0 then
    return (setStatus store poolAddr poolInfo .eraUpdateEnded, rsp)
  else
    let ibcFee ← checkIbcFee querier info
    let timeoutTimestamp ← U64.add env.block.time
      (defaultTimeoutSeconds * 1000000000)
    let (poolIcaInfo, _, _) ← load (store.infoOfIcaId poolInfo.icaId)
    let (store, submsg) := msgWithSudoCallback store
      (.ibcTransfer
        { sourcePort := "transfer"
          sourceChannel := poolInfo.channelIdOfIbcDenom
          sender := env.contractAddress
          receiver := poolAddr
          token := ⟨poolInfo.ibcDenom, poolInfo.eraSnapshot.bond⟩
          timeoutTimestamp := timeoutTimestamp
          memo := ""
          fee := ibcFee })
      { portId := poolIcaInfo.ctrlPortId
        poolAddr := poolAddr
        message := ""
        txType := .eraUpdate }
    return (store.savePool poolAddr poolInfo, rsp.addSubmessage submsg)

def sudoEraUpdateCallback (store : Storage) (env : Env)
    (payload : SudoPayload) : NeutronResult (Storage × Response) := do
  let poolInfo ← load (store.pools payload.poolAddr)
  return (store.savePool payload.poolAddr
    { poolInfo with
      status := .eraUpdateEnded
      eraSnapshot :=
        { poolInfo.eraSnapshot with lastStepHeight := env.block.height } },
    Response.new)

def sudoEraUpdateFailedCallback (store : Storage) (payload : SudoPayload) :
    NeutronResult (Storage × Response) := do
  let poolInfo ← load (store.pools payload.poolAddr)
  let era ← U64.sub poolInfo.era 1
  return (store.savePool payload.poolAddr
    { poolInfo with
      era := era
      status := .activeEnded
      eraSnapshot := ⟨0, 0, 0, 0, 0, 0⟩ },
    Response.new)

/-! ### Bond -/

structure ValidatorUnbondInfo where
  validator : String
  unbondAmount : Nat

/-- Forget the oldest undelegation time once it has matured, and tell whether
the validator has no free unbonding entry left. -/
def clearTimestamps (store : Storage) (currentTime : Nat)
    (unbondingPeriodSeconds : Nat) (delegator validator : String) :
    NeutronResult (Storage × Bool) :=
  match store.validatorsUnbondsTime (delegator, validator) with
  | none => return (store, false)
  | some [] => return (store, false)
  | some (oldestRecordTime :: later) => do
      let matured ← U64.add oldestRecordTime unbondingPeriodSeconds
      if matured < currentTime then
        return (store.saveUnbondsTime delegator validator later,
          decide (7 ≤ later.length))
      else return (store, decide (7 ≤ later.length + 1))

/-- The loop of `allocate_unbond_amount` over the sorted delegations. -/
def allocateLoop (currentTime unbondingPeriodSeconds : Nat) :
    Storage → Nat → List ValidatorUnbondInfo → List Delegation →
    NeutronResult (Storage × Nat × List ValidatorUnbondInfo)
  | store, remaining, infos, [] => return (store, remaining, infos)
  | store, remaining, infos, delegation :: rest =>
      if remaining = 0 then return (store, remaining, infos)
      else do
        let (store, full) ← clearTimestamps store currentTime
          unbondingPeriodSeconds delegation.delegator delegation.validator
        if full then
          allocateLoop currentTime unbondingPeriodSeconds store remaining infos
            rest
        else
          let current :=
            if delegation.amount.amount < remaining then
              delegation.amount.amount
            else remaining
          allocateLoop currentTime unbondingPeriodSeconds store
            (remaining - current) (infos ++ [⟨delegation.validator, current⟩])
            rest

def allocateUnbondAmount (store : Storage) (currentTime : Nat)
    (delegations : List Delegation)
    (unbondAmount unbondingPeriodSeconds : Nat) :
    NeutronResult (Storage × List ValidatorUnbondInfo) := do
  let sorted := delegations.insertionSort fun a b =>
    b.amount.amount ≤ a.amount.amount
  let (store, remaining, infos) ← allocateLoop currentTime
    unbondingPeriodSeconds store unbondAmount [] sorted
  rejectIf (remaining ≠ 0) .validatorForUnbondNotEnough
  return (store, infos)

/-- The rewards of the validators without an undelegation are withdrawn by a
message of their own.  The order of these messages is that of a hash set in
the source, here that of the delegations. -/
def withdrawRewardTxs (poolAddr : String)
    (delegatingVals opValidators : List String) : List ProtobufAny :=
  if opValidators.length ≠ delegatingVals.length then
    (delegatingVals.dedup.filter fun validator =>
      decide (validator ∉ opValidators)).map (genWithdrawRewardTxs poolAddr)
  else []

/-- What a bond step undelegates; nothing when there is nothing to unbond. -/
def unbondInfos (store : Storage) (env : Env) (poolInfo : PoolInfo)
    (delegations : List Delegation) (unbondAmount : Nat) :
    NeutronResult (Storage × List ValidatorUnbondInfo) :=
  if 0 < unbondAmount then do
    let period ← U64.mul poolInfo.unbondingPeriod poolInfo.eraSeconds
    let (store, infos) ← allocateUnbondAmount store env.block.seconds
      delegations unbondAmount period
    rejectIf (infos = []) .validatorForUnbondNotEnough
    return (store, infos)
  else return (store, [])

/-- The bond step when at least as much leaves the pool as enters it. -/
def eraUnbondMsgs (store : Storage) (querier : Querier) (env : Env)
    (poolAddr : String) (poolInfo : PoolInfo) :
    NeutronResult (Storage × List ProtobufAny × String) := do
  let unbondAmount := poolInfo.eraSnapshot.unbond - poolInfo.eraSnapshot.bond
  let delegations ← queryDelegationByAddr store querier poolAddr
    poolInfo.sdkGreaterOrEqualV047
  rejectIf (delegations.lastSubmittedLocalHeight ≤
    poolInfo.eraSnapshot.lastStepHeight) .delegationSubmissionHeight
  let (store, infos) ← unbondInfos store env poolInfo delegations.result
    unbondAmount
  let opValidators := infos.map (·.validator)
  return (store,
    infos.map (fun unbond =>
      genUndelegateTxs poolAddr unbond.validator poolInfo.remoteDenom
        unbond.unbondAmount) ++
      withdrawRewardTxs poolAddr (delegations.result.map (·.validator))
        opValidators,
    Text.join '_' opValidators)

/-- The bond step when more enters the pool than leaves it. -/
def eraStakeMsgs (poolAddr : String) (poolInfo : PoolInfo)
    (selectVals : List String) : NeutronResult (List ProtobufAny) := do
  let stakeAmount := poolInfo.eraSnapshot.bond - poolInfo.eraSnapshot.unbond
  match selectVals with
  | [] => throw .validatorsEmpty
  | first :: rest =>
      rejectIf (¬ ∀ validator ∈ first :: rest,
        validator ∈ poolInfo.validatorAddrs) .validatorNotSupport
      if stakeAmount < stakeSplitThreshold then
        return genDelegationTxs poolAddr first poolInfo.remoteDenom
            stakeAmount ::
          rest.map (genWithdrawRewardTxs poolAddr)
      else
        let amountPerValidator := stakeAmount / (first :: rest).length
        let remainder :=
          stakeAmount - amountPerValidator * (first :: rest).length
        return splitDelegations poolAddr poolInfo.remoteDenom
          amountPerValidator remainder (first :: rest)

/-- The messages of a bond step and the text for its callback. -/
def eraBondMsgs (store : Storage) (querier : Querier) (env : Env)
    (poolAddr : String) (poolInfo : PoolInfo) (selectVals : List String) :
    NeutronResult (Storage × List ProtobufAny × String) :=
  if poolInfo.eraSnapshot.bond ≤ poolInfo.eraSnapshot.unbond then
    eraUnbondMsgs store querier env poolAddr poolInfo
  else do
    let msgs ← eraStakeMsgs poolAddr poolInfo selectVals
    return (store, msgs, "")

def executeEraBond (store : Storage) (querier : Querier) (env : Env)
    (info : MessageInfo) (poolAddr : String) (selectVals : List String) :
    NeutronResult (Storage × Response) := do
  let poolInfo ← load (store.pools poolAddr)
  rejectIf (poolInfo.status ≠ .eraUpdateEnded) .statusNotAllow
  let (store, msgs, msgStr) ←
    eraBondMsgs store querier env poolAddr poolInfo selectVals
  let (poolIcaInfo, _, _) ← load (store.infoOfIcaId poolInfo.icaId)
  let ibcFee ← checkIbcFee querier info
  let (store, submsg) := msgWithSudoCallback store
    (.submitTx
      { connectionId := poolIcaInfo.ctrlConnectionId
        interchainAccountId := poolInfo.icaId
        msgs := msgs
        memo := ""
        timeout := defaultTimeoutSeconds
        fee := ibcFee })
    { portId := poolIcaInfo.ctrlPortId
      message := msgStr
      poolAddr := poolAddr
      txType := .eraBond }
  return (setStatus store poolAddr poolInfo .bondStarted,
    Response.new.addSubmessage submsg)

/-- Note the time of an undelegation for every validator. -/
def recordUnbonds (poolAddr : String) (timestamp : Nat) (store : Storage)
    (validators : List String) : Storage :=
  validators.foldl
    (fun store validator =>
      store.saveUnbondsTime poolAddr validator
        ((store.validatorsUnbondsTime (poolAddr, validator)).getD [] ++
          [timestamp]))
    store

def sudoEraBondCallback (store : Storage) (env : Env)
    (payload : SudoPayload) : NeutronResult (Storage × Response) := do
  let poolInfo ← load (store.pools payload.poolAddr)
  let store :=
    if payload.message ≠ "" then
      recordUnbonds payload.poolAddr env.block.seconds store
        (Text.split '_' payload.message)
    else store
  let bond ← Uint128.sub poolInfo.bond poolInfo.eraSnapshot.bond
  let unbond ← Uint128.sub poolInfo.unbond poolInfo.eraSnapshot.unbond
  return (store.savePool payload.poolAddr
    { poolInfo with
      status := .bondEnded
      eraSnapshot :=
        { poolInfo.eraSnapshot with lastStepHeight := env.block.height }
      bond := bond
      unbond := unbond },
    Response.new)

def sudoEraBondFailedCallback (store : Storage) (payload : SudoPayload) :
    NeutronResult (Storage × Response) := do
  let poolInfo ← load (store.pools payload.poolAddr)
  return (setStatus store payload.poolAddr poolInfo .eraUpdateEnded,
    Response.new)

/-! ### Collect the rewards -/

/-- The balance of the withdraw account in the last query result.  A query
without an answer counts as an empty account. -/
def withdrawAmount (store : Storage) (querier : Querier)
    (withdrawAddr : String) (poolInfo : PoolInfo) : NeutronResult Nat :=
  match queryBalanceByAddr store querier withdrawAddr
      poolInfo.sdkGreaterOrEqualV047 with
  | .error _ => return 0
  | .ok balances => do
      rejectIf (balances.lastSubmittedLocalHeight ≤
        poolInfo.eraSnapshot.lastStepHeight)
        .withdrawAddrBalanceSubmissionHeight
      return ((balances.result.find? fun coin =>
        decide (coin.denom = poolInfo.remoteDenom)).map (·.amount)).getD 0

def executeEraCollectWithdraw (store : Storage) (querier : Querier)
    (info : MessageInfo) (poolAddr : String) :
    NeutronResult (Storage × Response) := do
  let poolInfo ← load (store.pools poolAddr)
  rejectIf (poolInfo.status ≠ .bondEnded) .statusNotAllow
  let (_, withdrawIcaInfo, _) ← load (store.infoOfIcaId poolInfo.icaId)
  let amount ← withdrawAmount store querier withdrawIcaInfo.icaAddr poolInfo
  if amount = 0 then
    return (setStatus store poolAddr poolInfo .withdrawEnded, Response.new)
  else
    let ibcFee ← checkIbcFee querier info
    let (store, submsg) := msgWithSudoCallback store
      (.submitTx
        { connectionId := withdrawIcaInfo.ctrlConnectionId
          interchainAccountId := getWithdrawIcaId poolInfo.icaId
          msgs := [genMsgSend withdrawIcaInfo.icaAddr poolAddr
            poolInfo.remoteDenom amount]
          memo := ""
          timeout := defaultTimeoutSeconds
          fee := ibcFee })
      { portId := withdrawIcaInfo.ctrlPortId
        message := ""
        poolAddr := poolAddr
        txType := .eraCollectWithdraw }
    return (store.savePool poolAddr
      { poolInfo with
        status := .withdrawStarted
        eraSnapshot := { poolInfo.eraSnapshot with restakeAmount := amount } },
      Response.new.addSubmessage submsg)

def sudoEraCollectWithdrawCallback (store : Storage) (env : Env)
    (payload : SudoPayload) : NeutronResult (Storage × Response) := do
  let poolInfo ← load (store.pools payload.poolAddr)
  return (store.savePool payload.poolAddr
    { poolInfo with
      status := .withdrawEnded
      eraSnapshot :=
        { poolInfo.eraSnapshot with lastStepHeight := env.block.height } },
    Response.new)

def sudoEraCollectWithdrawFailedCallback (store : Storage)
    (payload : SudoPayload) : NeutronResult (Storage × Response) := do
  let poolInfo ← load (store.pools payload.poolAddr)
  return (setStatus store payload.poolAddr poolInfo .bondEnded, Response.new)

/-! ### Rebond -/

/-- The delegations of a rebond step. -/
def rebondMsgs (poolAddr : String) (poolInfo : PoolInfo)
    (selectVals : List String) : NeutronResult (List ProtobufAny) := do
  let restakeAmount := poolInfo.eraSnapshot.restakeAmount
  match selectVals with
  | [] => throw .validatorsEmpty
  | first :: rest =>
      let amountPerValidator := restakeAmount / (first :: rest).length
      let remainder :=
        restakeAmount - amountPerValidator * (first :: rest).length
      rejectIf (¬ ∀ validator ∈ first :: rest,
        validator ∈ poolInfo.validatorAddrs) .validatorNotSupport
      return splitDelegations poolAddr poolInfo.remoteDenom amountPerValidator
        remainder (first :: rest)

/-- With something to restake the source sets the status in its copy of the
record but does not save the copy: the stored status stays as it is. -/
def executeEraRebond (store : Storage) (querier : Querier)
    (info : MessageInfo) (poolAddr : String) (selectVals : List String) :
    NeutronResult (Storage × Response) := do
  let poolInfo ← load (store.pools poolAddr)
  rejectIf (poolInfo.status ≠ .withdrawEnded) .statusNotAllow
  let (poolIcaInfo, _, _) ← load (store.infoOfIcaId poolInfo.icaId)
  if poolInfo.eraSnapshot.restakeAmount = 0 then
    return (setStatus store poolAddr poolInfo .rebondEnded, Response.new)
  else
    let msgs ← rebondMsgs poolAddr poolInfo selectVals
    let ibcFee ← checkIbcFee querier info
    let (store, submsg) := msgWithSudoCallback store
      (.submitTx
        { connectionId := poolIcaInfo.ctrlConnectionId
          interchainAccountId := poolInfo.icaId
          msgs := msgs
          memo := ""
          timeout := defaultTimeoutSeconds
          fee := ibcFee })
      { portId := poolIcaInfo.ctrlPortId
        message := ""
        poolAddr := poolAddr
        txType := .eraRebond }
    return (store, Response.new.addSubmessage submsg)

def sudoEraRebondCallback (store : Storage) (env : Env)
    (payload : SudoPayload) : NeutronResult (Storage × Response) := do
  let poolInfo ← load (store.pools payload.poolAddr)
  return (store.savePool payload.poolAddr
    { poolInfo with
      status := .rebondEnded
      eraSnapshot :=
        { poolInfo.eraSnapshot with lastStepHeight := env.block.height } },
    Response.new)

def sudoEraRebondFailedCallback (store : Storage) (payload : SudoPayload) :
    NeutronResult (Storage × Response) := do
  let poolInfo ← load (store.pools payload.poolAddr)
  return (setStatus store payload.poolAddr poolInfo .withdrawEnded,
    Response.new)

/-! ### Activate -/

/-- The sum of the delegations in a result that is newer than the last step. -/
def eraTotalAmount (store : Storage) (querier : Querier) (poolAddr : String)
    (poolInfo : PoolInfo) : NeutronResult Nat :=
  match queryDelegationByAddr store querier poolAddr
      poolInfo.sdkGreaterOrEqualV047 with
  | .error _ => throw .delegationsNotExist
  | .ok delegations => do
      rejectIf (delegations.lastSubmittedLocalHeight ≤
        poolInfo.eraSnapshot.lastStepHeight) .delegationSubmissionHeight
      sumBelow Uint128.limit .panic 0
        (delegations.result.map (·.amount.amount))

/-- The platform fee and the stack fee on the reward of an era. -/
def protocolFees (poolInfo : PoolInfo) (stackInfo : Stack)
    (totalAmount : Nat) : NeutronResult (Nat × Nat) :=
  if poolInfo.eraSnapshot.active < totalAmount then do
    let reward := totalAmount - poolInfo.eraSnapshot.active
    let scaled ← Uint128.mul reward poolInfo.platformFeeCommission
    let platformFeeRaw ← Uint128.div scaled poolInfo.rate
    let scaledFee ← Uint128.mul platformFeeRaw stackInfo.stackFeeCommission
    let stackFee ← Uint128.div scaledFee calBase
    let platformFee ← Uint128.sub platformFeeRaw stackFee
    return (platformFee, stackFee)
  else return (0, 0)

/-- `active` plus what the delegations gained since the snapshot, zero when
the loss is larger. -/
def activeAfterEra (poolInfo : PoolInfo) (totalAmount : Nat) :
    NeutronResult Nat := do
  let calTemp ← Uint128.add poolInfo.active totalAmount
  return if poolInfo.eraSnapshot.active < calTemp then
    calTemp - poolInfo.eraSnapshot.active else 0

def rateOf (active totalLsdTokenAmount : Nat) : NeutronResult Nat :=
  if 0 < totalLsdTokenAmount then do
    let scaled ← Uint128.mul active calBase
    Uint128.div scaled totalLsdTokenAmount
  else return calBase

def checkRateChange (poolInfo : PoolInfo) (newRate : Nat) :
    NeutronResult Unit :=
  if poolInfo.rateChangeLimit ≠ 0 then do
    let difference :=
      if newRate < poolInfo.rate then poolInfo.rate - newRate
      else newRate - poolInfo.rate
    let scaled ← Uint128.mul difference calBase
    let rateChange ← Uint128.div scaled poolInfo.rate
    rejectIf (poolInfo.rateChangeLimit < rateChange) .rateChangeOverLimit
  else return ()

/-- Solve first stake calculation accuracy: a loss below 1000 units does not
move the rate of a pool that is still at the default. -/
def correctFirstStake (poolInfo : PoolInfo) (newRate newActive : Nat) :
    NeutronResult (Nat × Nat) :=
  if poolInfo.rate = defaultRate ∧ newRate < defaultRate then do
    let bound ← Uint128.add newActive 1000
    if poolInfo.active < bound then return (defaultRate, poolInfo.active)
    else return (newRate, newActive)
  else return (newRate, newActive)

/-- The mint message of a fee; there is none for a zero fee. -/
def mintFee (lsdToken recipient : String) (fee : Nat) : List CosmosMsg :=
  if fee ≠ 0 then [.wasmExecute lsdToken (.mint recipient fee)] else []

/-- The saved total of the stack fees of a pool, raised by a non-zero fee. -/
def addStackFee (store : Storage) (poolAddr : String) (stackFee : Nat) :
    NeutronResult Storage :=
  if stackFee ≠ 0 then do
    let total ← load (store.totalStackFee poolAddr)
    let total ← Uint128.add total stackFee
    return store.saveTotalStackFee poolAddr total
  else return store

/-- `total_platform_fee`, raised by a non-zero fee. -/
def addPlatformFee (poolInfo : PoolInfo) (platformFee : Nat) :
    NeutronResult Nat :=
  if platformFee ≠ 0 then Uint128.add poolInfo.totalPlatformFee platformFee
  else return poolInfo.totalPlatformFee

def executeEraActive (store : Storage) (querier : Querier)
    (poolAddr : String) : NeutronResult (Storage × Response) := do
  let poolInfo ← load (store.pools poolAddr)
  rejectIf (poolInfo.status ≠ .rebondEnded) .statusNotAllow
  rejectIf (0 < poolInfo.shareTokens.length) .pendingShareNotEmpty
  let totalAmount ← eraTotalAmount store querier poolAddr poolInfo
  let stackInfo ← load store.stack
  let (platformFee, stackFee) ← protocolFees poolInfo stackInfo totalAmount
  let newActive ← activeAfterEra poolInfo totalAmount
  let withPlatformFee ←
    Uint128.add poolInfo.totalLsdTokenAmount platformFee
  let totalLsdTokenAmount ← Uint128.add withPlatformFee stackFee
  let newRate ← rateOf newActive totalLsdTokenAmount
  checkRateChange poolInfo newRate
  let (newRate, newActive) ← correctFirstStake poolInfo newRate newActive
  let totalPlatformFee ← addPlatformFee poolInfo platformFee
  let store ← addStackFee store poolAddr stackFee
  let store := store.savePool poolAddr
    { poolInfo with
      totalLsdTokenAmount := totalLsdTokenAmount
      rate := newRate
      status := .activeEnded
      active := newActive
      totalPlatformFee := totalPlatformFee }
  let store := store.saveStack stackInfo
  let store := store.saveEraRate poolAddr poolInfo.era newRate
  let icqMsgs ←
    getUpdatePoolIcqMsgs store poolAddr poolInfo.icaId defaultUpdatePeriod
  return (store, Response.new
    |>.addAttribute "new_rate" (toString newRate)
    |>.addMessages
        (mintFee poolInfo.lsdToken poolInfo.platformFeeReceiver platformFee)
    |>.addMessages
        (mintFee poolInfo.lsdToken stackInfo.stackFeeReceiver stackFee)
    |>.addMessages icqMsgs
    |>.addAttribute "action" "era_active"
    |>.addAttribute "pool" poolAddr
    |>.addAttribute "era" (toString poolInfo.era)
    |>.addAttribute "rate" (toString newRate))

/-! ### What a successful step has done -/

section

variable {store store' next : Storage} {rsp : Response} {querier : Querier}
  {env : Env} {info : MessageInfo} {payload : SudoPayload} {poolAddr : String}
  {selectVals : List String}

/-- The record an update step starts an era with. -/
def startEra (p : PoolInfo) (height : Nat) : PoolInfo :=
  { p with
    status := .eraUpdateStarted
    era := p.era + 1
    eraSnapshot :=
      { era := p.era + 1
        bond := p.bond
        unbond := p.unbond
        active := p.active
        lastStepHeight := height
        restakeAmount := 0 } }

theorem executeEraUpdate_ok
    (h : executeEraUpdate store querier env info poolAddr =
      .ok (store', rsp)) :
    ∃ p icq, store.pools poolAddr = some p ∧ p.status = .activeEnded ∧
      p.validatorUpdateStatus = .ended ∧
      getUpdatePoolIcqMsgs store poolAddr p.icaId defaultFastPeriod =
        .ok icq ∧
      (p.bond = 0 ∧
          store' = setStatus store poolAddr (startEra p env.block.height)
            .eraUpdateEnded ∧
          rsp.messages = icq.map (⟨·, none, none⟩) ∨
        p.bond ≠ 0 ∧ ∃ transfer payload,
          transfer.sourceChannel = p.channelIdOfIbcDenom ∧
          transfer.token = ⟨p.ibcDenom, p.bond⟩ ∧
          payload.poolAddr = poolAddr ∧ payload.txType = .eraUpdate ∧
          store' = (store.queuePayload payload).savePool poolAddr
            (startEra p env.block.height) ∧
          rsp.messages = icq.map (⟨·, none, none⟩) ++
            [⟨.ibcTransfer transfer, some store.replyId,
              some payload⟩]) := by
  simp only [executeEraUpdate, bind_eq_ok, orError_eq_ok, rejectIf_eq_ok,
    addBelow_eq_ok] at h
  obtain ⟨p, hp, _, -, _, hstatus, _, -, _, -, _, ⟨-, rfl⟩, icq, hicq, h⟩ := h
  simp only [ne_eq, not_or, not_not] at hstatus
  refine ⟨p, icq, hp, hstatus.1, hstatus.2, hicq, ?_⟩
  split at h
  case isTrue hbond =>
      simp only [pure_eq_ok, Prod.mk.injEq] at h
      obtain ⟨rfl, rfl⟩ := h
      exact .inl ⟨hbond, rfl, rfl⟩
  case isFalse hbond =>
      simp only [bind_eq_ok, Prod.exists, msgWithSudoCallback_eq, pure_eq_ok,
        Prod.mk.injEq] at h
      obtain ⟨_, -, _, -, _, _, _, -, rfl, rfl⟩ := h
      exact .inr ⟨hbond, _, _, rfl, rfl, rfl, rfl, rfl, rfl⟩

/-- An era can only be started when it is due. -/
theorem executeEraUpdate_due
    (h : executeEraUpdate store querier env info poolAddr =
      .ok (store', rsp)) :
    ∃ p era, store.pools poolAddr = some p ∧
      currentEra env.block p = .ok era ∧ p.era < era := by
  simp only [executeEraUpdate, bind_eq_ok, orError_eq_ok, rejectIf_eq_ok,
    Nat.not_le] at h
  obtain ⟨p, hp, _, -, _, -, era, hera, _, hdue, -⟩ := h
  exact ⟨p, era, hp, hera, hdue⟩

/-- The guards of an era update that do not look at the eras. -/
structure EraReady (store : Storage) (querier : Querier) (env : Env)
    (info : MessageInfo) (poolAddr : String) (p : PoolInfo) : Prop where
  pool : store.pools poolAddr = some p
  unpaused : p.paused = false
  status : p.status = .activeEnded
  update : p.validatorUpdateStatus = .ended
  queries : ∃ icq, getUpdatePoolIcqMsgs store poolAddr p.icaId
    defaultFastPeriod = .ok icq
  transfer : p.bond ≠ 0 → (∃ fee, checkIbcFee querier info = .ok fee) ∧
    env.block.time + defaultTimeoutSeconds * 1000000000 < U64.limit ∧
    ∃ icas, store.infoOfIcaId p.icaId = some icas

/-- An era is started exactly when it is due and the other guards let it
pass. -/
theorem executeEraUpdate_accepts_iff :
    (∃ result, executeEraUpdate store querier env info poolAddr =
        .ok result) ↔
      ∃ p era, EraReady store querier env info poolAddr p ∧
        currentEra env.block p = .ok era ∧ p.era < era ∧
        p.era + 1 < U64.limit := by
  constructor
  · rintro ⟨⟨store', rsp⟩, h⟩
    simp only [executeEraUpdate, bind_eq_ok, orError_eq_ok, rejectIf_eq_ok,
      addBelow_eq_ok, Nat.not_le, ne_eq, not_or, not_not,
      Bool.not_eq_true] at h
    obtain ⟨p, hp, _, hpaused, _, ⟨hstatus, hupdate⟩, era, hera, _, hdue, _,
      ⟨hfits, rfl⟩, icq, hicq, h⟩ := h
    refine ⟨p, era, ⟨hp, hpaused, hstatus, hupdate, ⟨icq, hicq⟩, ?_⟩, hera,
      hdue, hfits⟩
    intro hbond
    rw [if_neg hbond] at h
    simp only [bind_eq_ok, addBelow_eq_ok, orError_eq_ok] at h
    obtain ⟨fee, hfee, _, ⟨htimeout, -⟩, icas, hicas, -⟩ := h
    exact ⟨⟨fee, hfee⟩, htimeout, icas, hicas⟩
  · rintro ⟨p, era, h, hera, hdue, hfits⟩
    obtain ⟨icq, hicq⟩ := h.queries
    simp only [executeEraUpdate, exists_bind_eq_ok, orError_eq_ok,
      rejectIf_eq_ok, addBelow_eq_ok, Nat.not_le, ne_eq, not_or, not_not,
      exists_const]
    refine ⟨p, h.pool, by simp [h.unpaused], ⟨h.status, h.update⟩, era, hera,
      hdue, _, ⟨hfits, rfl⟩, icq, hicq, ?_⟩
    split
    case isTrue hbond => exact ⟨_, rfl⟩
    case isFalse hbond =>
        obtain ⟨⟨fee, hfee⟩, htimeout, icas, hicas⟩ := h.transfer hbond
        simp only [exists_bind_eq_ok, addBelow_eq_ok, orError_eq_ok]
        exact ⟨fee, hfee, _, ⟨htimeout, rfl⟩, icas, hicas, _, rfl⟩

theorem sudoEraUpdateCallback_ok :
    sudoEraUpdateCallback store env payload = .ok (store', rsp) ↔
      ∃ p, store.pools payload.poolAddr = some p ∧
        store' = store.savePool payload.poolAddr
          { p with
            status := .eraUpdateEnded
            eraSnapshot :=
              { p.eraSnapshot with lastStepHeight := env.block.height } } ∧
        rsp = Response.new := by
  simp only [sudoEraUpdateCallback, bind_eq_ok, orError_eq_ok, pure_eq_ok,
    Prod.mk.injEq, eq_comm (b := store'), eq_comm (b := rsp)]

theorem sudoEraUpdateFailedCallback_ok :
    sudoEraUpdateFailedCallback store payload = .ok (store', rsp) ↔
      ∃ p, store.pools payload.poolAddr = some p ∧ 1 ≤ p.era ∧
        store' = store.savePool payload.poolAddr
          { p with
            era := p.era - 1
            status := .activeEnded
            eraSnapshot := ⟨0, 0, 0, 0, 0, 0⟩ } ∧
        rsp = Response.new := by
  simp only [sudoEraUpdateFailedCallback, bind_eq_ok, orError_eq_ok,
    subExact_eq_ok, pure_eq_ok, Prod.mk.injEq]
  constructor
  · rintro ⟨p, hp, _, ⟨hera, rfl⟩, rfl, rfl⟩
    exact ⟨p, hp, hera, rfl, rfl⟩
  · rintro ⟨p, hp, hera, rfl, rfl⟩
    exact ⟨p, hp, _, ⟨hera, rfl⟩, rfl, rfl⟩

theorem clearTimestamps_store {currentTime period : Nat}
    {delegator validator : String} {full : Bool}
    (h : clearTimestamps store currentTime period delegator validator =
      .ok (next, full)) :
    ∃ times, next = { store with validatorsUnbondsTime := times } := by
  unfold clearTimestamps at h
  split at h
  · cases h
    exact ⟨_, rfl⟩
  · cases h
    exact ⟨_, rfl⟩
  · simp only [bind_eq_ok] at h
    obtain ⟨_, -, h⟩ := h
    split at h <;> cases h <;> exact ⟨_, rfl⟩

/-- The successful runs of the loop that allocates an undelegation: it ends
with the list or when nothing remains, and a validator is skipped when it has
no free entry and chosen otherwise. -/
inductive Allocates (currentTime period : Nat) :
    Storage → Nat → List ValidatorUnbondInfo → List Delegation →
      Storage → Nat → List ValidatorUnbondInfo → Prop
  | nil {store remaining infos} :
      Allocates currentTime period store remaining infos [] store remaining
        infos
  | enough {store infos delegation rest} :
      Allocates currentTime period store 0 infos (delegation :: rest) store 0
        infos
  | skip {store middle next remaining left infos result delegation rest}
      (hmore : remaining ≠ 0)
      (hclear : clearTimestamps store currentTime period delegation.delegator
        delegation.validator = .ok (middle, true))
      (hrest : Allocates currentTime period middle remaining infos rest next
        left result) :
      Allocates currentTime period store remaining infos (delegation :: rest)
        next left result
  | choose {store middle next remaining left infos result delegation rest}
      (hmore : remaining ≠ 0)
      (hclear : clearTimestamps store currentTime period delegation.delegator
        delegation.validator = .ok (middle, false))
      (hrest : Allocates currentTime period middle
        (remaining - min delegation.amount.amount remaining)
        (infos ++ [⟨delegation.validator,
          min delegation.amount.amount remaining⟩]) rest next left result) :
      Allocates currentTime period store remaining infos (delegation :: rest)
        next left result

/-- The loop takes the smaller of what there is and what remains. -/
theorem drawn_eq_min (amount remaining : Nat) :
    (if amount < remaining then amount else remaining) =
      min amount remaining := by
  split <;> omega

theorem allocates_of_ok {currentTime period remaining left : Nat}
    {infos result : List ValidatorUnbondInfo} {delegations : List Delegation}
    (h : allocateLoop currentTime period store remaining infos delegations =
      .ok (next, left, result)) :
    Allocates currentTime period store remaining infos delegations next left
      result := by
  induction delegations generalizing store remaining infos with
  | nil =>
      cases h
      exact .nil
  | cons delegation rest ih =>
      rw [allocateLoop] at h
      by_cases hdone : remaining = 0
      · subst hdone
        cases h
        exact .enough
      · rw [if_neg hdone] at h
        simp only [bind_eq_ok, Prod.exists] at h
        obtain ⟨middle, full, hclear, h⟩ := h
        cases full with
        | true => exact .skip hdone hclear (ih h)
        | false =>
            simp only [Bool.false_eq_true, if_false, drawn_eq_min] at h
            exact .choose hdone hclear (ih h)

namespace Allocates

variable {currentTime period remaining left : Nat}
  {infos result : List ValidatorUnbondInfo} {delegations : List Delegation}

theorem store_eq (h : Allocates currentTime period store remaining infos
    delegations next left result) :
    ∃ times, next = { store with validatorsUnbondsTime := times } := by
  induction h with
  | nil => exact ⟨_, rfl⟩
  | enough => exact ⟨_, rfl⟩
  | skip hmore hclear hrest ih =>
      obtain ⟨_, rfl⟩ := clearTimestamps_store hclear
      obtain ⟨times, rfl⟩ := ih
      exact ⟨times, rfl⟩
  | choose hmore hclear hrest ih =>
      obtain ⟨_, rfl⟩ := clearTimestamps_store hclear
      obtain ⟨times, rfl⟩ := ih
      exact ⟨times, rfl⟩

end Allocates

/-- An allocation visits the largest delegations first and leaves nothing. -/
theorem allocateUnbondAmount_ok {currentTime period amount : Nat}
    {infos : List ValidatorUnbondInfo} {delegations : List Delegation}
    (h : allocateUnbondAmount store currentTime delegations amount period =
      .ok (next, infos)) :
    Allocates currentTime period store amount []
      (delegations.insertionSort fun a b => b.amount.amount ≤ a.amount.amount)
      next 0 infos := by
  simp only [allocateUnbondAmount, bind_eq_ok, Prod.exists, rejectIf_eq_ok,
    not_not, pure_eq_ok, Prod.mk.injEq] at h
  obtain ⟨_, left, _, hloop, _, rfl, rfl, rfl⟩ := h
  exact allocates_of_ok hloop

/-- What a bond step undelegates: nothing, or what is allocated. -/
inductive Unbonds (store : Storage) (env : Env) (p : PoolInfo)
    (delegations : List Delegation) :
    Nat → Storage → List ValidatorUnbondInfo → Prop
  | nothing {amount} (hzero : amount = 0) :
      Unbonds store env p delegations amount store []
  | allocated {amount next infos} (hpos : 0 < amount) (hne : infos ≠ [])
      (halloc : allocateUnbondAmount store env.block.seconds delegations
        amount (p.unbondingPeriod * p.eraSeconds) = .ok (next, infos)) :
      Unbonds store env p delegations amount next infos

theorem unbonds_of_ok {p : PoolInfo} {delegations : List Delegation}
    {amount : Nat} {infos : List ValidatorUnbondInfo}
    (h : unbondInfos store env p delegations amount = .ok (next, infos)) :
    Unbonds store env p delegations amount next infos := by
  unfold unbondInfos at h
  by_cases hpos : 0 < amount
  · rw [if_pos hpos] at h
    simp only [bind_eq_ok, mulBelow_eq_ok, Prod.exists, rejectIf_eq_ok,
      pure_eq_ok, Prod.mk.injEq] at h
    obtain ⟨_, ⟨-, rfl⟩, _, _, halloc, _, hne, rfl, rfl⟩ := h
    exact .allocated hpos hne halloc
  · rw [if_neg hpos] at h
    cases h
    exact .nothing (Nat.eq_zero_of_not_pos hpos)

/-- The messages and the text of a bond step and what they come from: the
infos of what is undelegated, or the stake. -/
inductive BondMsgs (store : Storage) (querier : Querier) (env : Env)
    (poolAddr : String) (p : PoolInfo) (selectVals : List String) :
    Storage → List ProtobufAny → String → Prop
  | unbond {queried next infos}
      (hless : p.eraSnapshot.bond ≤ p.eraSnapshot.unbond)
      (hquery : queryDelegationByAddr store querier poolAddr
        p.sdkGreaterOrEqualV047 = .ok queried)
      (hfresh :
        p.eraSnapshot.lastStepHeight < queried.lastSubmittedLocalHeight)
      (hunbonds : Unbonds store env p queried.result
        (p.eraSnapshot.unbond - p.eraSnapshot.bond) next infos) :
      BondMsgs store querier env poolAddr p selectVals next
        (infos.map (fun unbond =>
          genUndelegateTxs poolAddr unbond.validator p.remoteDenom
            unbond.unbondAmount) ++
          withdrawRewardTxs poolAddr (queried.result.map (·.validator))
            (infos.map (·.validator)))
        (Text.join '_' (infos.map (·.validator)))
  | stake {msgs} (hmore : p.eraSnapshot.unbond < p.eraSnapshot.bond)
      (hstake : eraStakeMsgs poolAddr p selectVals = .ok msgs) :
      BondMsgs store querier env poolAddr p selectVals store msgs ""

theorem bondMsgs_of_ok {p : PoolInfo} {msgs : List ProtobufAny}
    {text : String}
    (h : eraBondMsgs store querier env poolAddr p selectVals =
      .ok (next, msgs, text)) :
    BondMsgs store querier env poolAddr p selectVals next msgs text := by
  unfold eraBondMsgs at h
  split at h
  case isTrue hless =>
      simp only [eraUnbondMsgs, bind_eq_ok, rejectIf_eq_ok, Prod.exists,
        pure_eq_ok, Prod.mk.injEq] at h
      obtain ⟨queried, hquery, _, hfresh, _, infos, hinfos, rfl, rfl, rfl⟩ := h
      exact .unbond hless hquery (Nat.not_le.mp hfresh) (unbonds_of_ok hinfos)
  case isFalse hmore =>
      simp only [bind_eq_ok, pure_eq_ok, Prod.mk.injEq] at h
      obtain ⟨_, hstake, rfl, rfl, rfl⟩ := h
      exact .stake (Nat.not_le.mp hmore) hstake

/-- The messages of a bond step are computed without changing anything but
the undelegation times. -/
theorem eraBondMsgs_store {p : PoolInfo} {msgs : List ProtobufAny}
    {text : String}
    (h : eraBondMsgs store querier env poolAddr p selectVals =
      .ok (next, msgs, text)) :
    ∃ times, next = { store with validatorsUnbondsTime := times } := by
  cases bondMsgs_of_ok h with
  | unbond hless hquery hfresh hunbonds =>
      cases hunbonds with
      | nothing hzero => exact ⟨_, rfl⟩
      | allocated hpos hne halloc =>
          exact (allocateUnbondAmount_ok halloc).store_eq
  | stake hmore hstake => exact ⟨_, rfl⟩

theorem executeEraBond_ok
    (h : executeEraBond store querier env info poolAddr selectVals =
      .ok (store', rsp)) :
    ∃ p next msgs tx payload, store.pools poolAddr = some p ∧
      p.status = .eraUpdateEnded ∧
      eraBondMsgs store querier env poolAddr p selectVals =
        .ok (next, msgs, payload.message) ∧
      tx.msgs = msgs ∧ payload.poolAddr = poolAddr ∧
      payload.txType = .eraBond ∧
      store' = setStatus (next.queuePayload payload) poolAddr p
        .bondStarted ∧
      rsp.messages = [⟨.submitTx tx, some next.replyId, some payload⟩] := by
  simp only [executeEraBond, bind_eq_ok, orError_eq_ok, rejectIf_eq_ok,
    Prod.exists, msgWithSudoCallback_eq, pure_eq_ok, Prod.mk.injEq, ne_eq,
    not_not] at h
  obtain ⟨p, hp, _, hstatus, next, msgs, text, hmsgs, ica, _, _, -, fee, -,
    rfl, rfl⟩ := h
  exact ⟨p, next, msgs, _, _, hp, hstatus, hmsgs, rfl, rfl, rfl, rfl, rfl⟩

theorem recordUnbonds_store (poolAddr : String) (timestamp : Nat)
    (store : Storage) (validators : List String) :
    ∃ times, recordUnbonds poolAddr timestamp store validators =
      { store with validatorsUnbondsTime := times } := by
  unfold recordUnbonds
  induction validators generalizing store with
  | nil => exact ⟨_, rfl⟩
  | cons validator rest ih =>
      obtain ⟨times, htimes⟩ := ih (store.saveUnbondsTime poolAddr validator
        ((store.validatorsUnbondsTime (poolAddr, validator)).getD [] ++
          [timestamp]))
      exact ⟨times, htimes⟩

theorem sudoEraBondCallback_ok
    (h : sudoEraBondCallback store env payload = .ok (store', rsp)) :
    ∃ p times, store.pools payload.poolAddr = some p ∧
      p.eraSnapshot.bond ≤ p.bond ∧ p.eraSnapshot.unbond ≤ p.unbond ∧
      store' = ({ store with validatorsUnbondsTime := times }).savePool
        payload.poolAddr
        { p with
          status := .bondEnded
          eraSnapshot :=
            { p.eraSnapshot with lastStepHeight := env.block.height }
          bond := p.bond - p.eraSnapshot.bond
          unbond := p.unbond - p.eraSnapshot.unbond } ∧
      rsp = Response.new := by
  simp only [sudoEraBondCallback, bind_eq_ok, orError_eq_ok, subExact_eq_ok,
    pure_eq_ok, Prod.mk.injEq] at h
  obtain ⟨p, hp, _, ⟨hbond, rfl⟩, _, ⟨hunbond, rfl⟩, rfl, rfl⟩ := h
  split
  · obtain ⟨times, htimes⟩ := recordUnbonds_store payload.poolAddr
      env.block.seconds store (Text.split '_' payload.message)
    rw [htimes]
    exact ⟨p, times, hp, hbond, hunbond, rfl, rfl⟩
  · exact ⟨p, store.validatorsUnbondsTime, hp, hbond, hunbond, rfl, rfl⟩

/-- The success callback of a bond step does not fail while the snapshot is
covered by the live counters. -/
theorem sudoEraBondCallback_total {p : PoolInfo}
    (hp : store.pools payload.poolAddr = some p)
    (hbond : p.eraSnapshot.bond ≤ p.bond)
    (hunbond : p.eraSnapshot.unbond ≤ p.unbond) :
    ∃ store', sudoEraBondCallback store env payload =
      .ok (store', Response.new) := by
  simp only [sudoEraBondCallback, bind_eq_ok, orError_eq_ok, subExact_eq_ok,
    pure_eq_ok, Prod.mk.injEq]
  exact ⟨_, p, hp, _, ⟨hbond, rfl⟩, _, ⟨hunbond, rfl⟩, rfl, trivial⟩

theorem sudoEraBondFailedCallback_ok :
    sudoEraBondFailedCallback store payload = .ok (store', rsp) ↔
      ∃ p, store.pools payload.poolAddr = some p ∧
        store' = setStatus store payload.poolAddr p .eraUpdateEnded ∧
        rsp = Response.new := by
  simp only [sudoEraBondFailedCallback, bind_eq_ok, orError_eq_ok, pure_eq_ok,
    Prod.mk.injEq, eq_comm (b := store'), eq_comm (b := rsp)]

theorem executeEraCollectWithdraw_ok
    (h : executeEraCollectWithdraw store querier info poolAddr =
      .ok (store', rsp)) :
    ∃ p poolIcaInfo withdrawIcaInfo admin amount,
      store.pools poolAddr = some p ∧ p.status = .bondEnded ∧
      store.infoOfIcaId p.icaId =
        some (poolIcaInfo, withdrawIcaInfo, admin) ∧
      withdrawAmount store querier withdrawIcaInfo.icaAddr p = .ok amount ∧
      (amount = 0 ∧ store' = setStatus store poolAddr p .withdrawEnded ∧
          rsp = Response.new ∨
        amount ≠ 0 ∧ ∃ tx payload,
          tx.msgs = [genMsgSend withdrawIcaInfo.icaAddr poolAddr p.remoteDenom
            amount] ∧
          payload.poolAddr = poolAddr ∧
          payload.txType = .eraCollectWithdraw ∧
          store' = (store.queuePayload payload).savePool poolAddr
            { p with
              status := .withdrawStarted
              eraSnapshot :=
                { p.eraSnapshot with restakeAmount := amount } } ∧
          rsp.messages =
            [⟨.submitTx tx, some store.replyId, some payload⟩]) := by
  simp only [executeEraCollectWithdraw, bind_eq_ok, orError_eq_ok,
    rejectIf_eq_ok, Prod.exists, ne_eq, not_not] at h
  obtain ⟨p, hp, _, hstatus, pool, withdraw, admin, hinfo, amount, hamount,
    h⟩ := h
  refine ⟨p, pool, withdraw, admin, amount, hp, hstatus, hinfo, hamount, ?_⟩
  split at h
  case isTrue hzero =>
      simp only [pure_eq_ok, Prod.mk.injEq] at h
      exact .inl ⟨hzero, h.1.symm, h.2.symm⟩
  case isFalse hne =>
      simp only [bind_eq_ok, msgWithSudoCallback_eq, pure_eq_ok,
        Prod.mk.injEq] at h
      obtain ⟨_, -, rfl, rfl⟩ := h
      exact .inr ⟨hne, _, _, rfl, rfl, rfl, rfl, rfl⟩

theorem sudoEraCollectWithdrawCallback_ok :
    sudoEraCollectWithdrawCallback store env payload = .ok (store', rsp) ↔
      ∃ p, store.pools payload.poolAddr = some p ∧
        store' = store.savePool payload.poolAddr
          { p with
            status := .withdrawEnded
            eraSnapshot :=
              { p.eraSnapshot with lastStepHeight := env.block.height } } ∧
        rsp = Response.new := by
  simp only [sudoEraCollectWithdrawCallback, bind_eq_ok, orError_eq_ok,
    pure_eq_ok, Prod.mk.injEq, eq_comm (b := store'), eq_comm (b := rsp)]

theorem sudoEraCollectWithdrawFailedCallback_ok :
    sudoEraCollectWithdrawFailedCallback store payload = .ok (store', rsp) ↔
      ∃ p, store.pools payload.poolAddr = some p ∧
        store' = setStatus store payload.poolAddr p .bondEnded ∧
        rsp = Response.new := by
  simp only [sudoEraCollectWithdrawFailedCallback, bind_eq_ok, orError_eq_ok,
    pure_eq_ok, Prod.mk.injEq, eq_comm (b := store'), eq_comm (b := rsp)]

theorem executeEraRebond_ok
    (h : executeEraRebond store querier info poolAddr selectVals =
      .ok (store', rsp)) :
    ∃ p, store.pools poolAddr = some p ∧ p.status = .withdrawEnded ∧
      (p.eraSnapshot.restakeAmount = 0 ∧
          store' = setStatus store poolAddr p .rebondEnded ∧
          rsp = Response.new ∨
        p.eraSnapshot.restakeAmount ≠ 0 ∧ ∃ msgs tx payload,
          rebondMsgs poolAddr p selectVals = .ok msgs ∧ tx.msgs = msgs ∧
          payload.poolAddr = poolAddr ∧ payload.txType = .eraRebond ∧
          store' = store.queuePayload payload ∧
          rsp.messages =
            [⟨.submitTx tx, some store.replyId, some payload⟩]) := by
  simp only [executeEraRebond, bind_eq_ok, orError_eq_ok, rejectIf_eq_ok,
    Prod.exists, ne_eq, not_not] at h
  obtain ⟨p, hp, _, hstatus, _, _, _, -, h⟩ := h
  refine ⟨p, hp, hstatus, ?_⟩
  split at h
  case isTrue hzero =>
      simp only [pure_eq_ok, Prod.mk.injEq] at h
      exact .inl ⟨hzero, h.1.symm, h.2.symm⟩
  case isFalse hne =>
      simp only [bind_eq_ok, msgWithSudoCallback_eq, pure_eq_ok,
        Prod.mk.injEq] at h
      obtain ⟨msgs, hmsgs, _, -, rfl, rfl⟩ := h
      exact .inr ⟨hne, msgs, _, _, hmsgs, rfl, rfl, rfl, rfl, rfl⟩

theorem sudoEraRebondCallback_ok :
    sudoEraRebondCallback store env payload = .ok (store', rsp) ↔
      ∃ p, store.pools payload.poolAddr = some p ∧
        store' = store.savePool payload.poolAddr
          { p with
            status := .rebondEnded
            eraSnapshot :=
              { p.eraSnapshot with lastStepHeight := env.block.height } } ∧
        rsp = Response.new := by
  simp only [sudoEraRebondCallback, bind_eq_ok, orError_eq_ok, pure_eq_ok,
    Prod.mk.injEq, eq_comm (b := store'), eq_comm (b := rsp)]

theorem sudoEraRebondFailedCallback_ok :
    sudoEraRebondFailedCallback store payload = .ok (store', rsp) ↔
      ∃ p, store.pools payload.poolAddr = some p ∧
        store' = setStatus store payload.poolAddr p .withdrawEnded ∧
        rsp = Response.new := by
  simp only [sudoEraRebondFailedCallback, bind_eq_ok, orError_eq_ok,
    pure_eq_ok, Prod.mk.injEq, eq_comm (b := store'), eq_comm (b := rsp)]

theorem addStackFee_ok {stackFee : Nat}
    (h : addStackFee store poolAddr stackFee = .ok next) :
    ∃ fees, next = { store with totalStackFee := fees } := by
  unfold addStackFee at h
  split at h
  · simp only [bind_eq_ok, pure_eq_ok] at h
    obtain ⟨_, -, _, -, rfl⟩ := h
    exact ⟨_, rfl⟩
  · cases h
    exact ⟨_, rfl⟩

theorem eraTotalAmount_ok {p : PoolInfo} {total : Nat}
    (h : eraTotalAmount store querier poolAddr p = .ok total) :
    ∃ delegations, queryDelegationByAddr store querier poolAddr
        p.sdkGreaterOrEqualV047 = .ok delegations ∧
      p.eraSnapshot.lastStepHeight < delegations.lastSubmittedLocalHeight ∧
      total = (delegations.result.map (·.amount.amount)).sum := by
  unfold eraTotalAmount at h
  split at h
  · cases h
  · rename_i delegations hquery
    simp only [bind_eq_ok, rejectIf_eq_ok, Nat.not_le] at h
    obtain ⟨_, hfresh, hsum⟩ := h
    refine ⟨delegations, hquery, hfresh, ?_⟩
    simpa using (sumBelow_eq_ok hsum).symm

theorem eraBondMsgs_fresh {p : PoolInfo} {msgs : List ProtobufAny}
    {text : String} {delegations : QueryResult (List Delegation)}
    (h : eraBondMsgs store querier env poolAddr p selectVals =
      .ok (next, msgs, text))
    (hunbond : p.eraSnapshot.bond ≤ p.eraSnapshot.unbond)
    (hquery : queryDelegationByAddr store querier poolAddr
      p.sdkGreaterOrEqualV047 = .ok delegations) :
    p.eraSnapshot.lastStepHeight < delegations.lastSubmittedLocalHeight := by
  cases bondMsgs_of_ok h with
  | unbond hless hquery' hfresh hunbonds =>
      obtain rfl := Except.ok.inj (hquery.symm.trans hquery')
      exact hfresh
  | stake hmore hstake => exact absurd hunbond (Nat.not_le.mpr hmore)

theorem withdrawAmount_fresh {p : PoolInfo} {withdrawAddr : String}
    {amount : Nat} {balances : QueryResult (List Coin)}
    (h : withdrawAmount store querier withdrawAddr p = .ok amount)
    (hquery : queryBalanceByAddr store querier withdrawAddr
      p.sdkGreaterOrEqualV047 = .ok balances) :
    p.eraSnapshot.lastStepHeight < balances.lastSubmittedLocalHeight := by
  simp only [withdrawAmount, hquery, bind_eq_ok, rejectIf_eq_ok,
    Nat.not_le] at h
  obtain ⟨_, hfresh, -⟩ := h
  exact hfresh

/-- The numbers of an activation: what it was computed from and what it leaves
in the record. -/
structure Activation (p : PoolInfo) (stackInfo : Stack) where
  totalAmount : Nat
  platformFee : Nat
  stackFee : Nat
  plainActive : Nat
  plainRate : Nat
  newRate : Nat
  newActive : Nat
  totalPlatformFee : Nat
  fees : protocolFees p stackInfo totalAmount = .ok (platformFee, stackFee)
  active : activeAfterEra p totalAmount = .ok plainActive
  rate : rateOf plainActive (p.totalLsdTokenAmount + platformFee + stackFee) =
    .ok plainRate
  corrected : correctFirstStake p plainRate plainActive =
    .ok (newRate, newActive)

/-- The record an activation leaves behind. -/
def Activation.apply {p : PoolInfo} {stackInfo : Stack}
    (act : Activation p stackInfo) : PoolInfo :=
  { p with
    totalLsdTokenAmount := p.totalLsdTokenAmount + act.platformFee +
      act.stackFee
    rate := act.newRate
    status := .activeEnded
    active := act.newActive
    totalPlatformFee := act.totalPlatformFee }

theorem executeEraActive_ok
    (h : executeEraActive store querier poolAddr = .ok (store', rsp)) :
    ∃ p stackInfo, ∃ act : Activation p stackInfo, ∃ fees icq next,
      store.pools poolAddr = some p ∧ p.status = .rebondEnded ∧
      p.shareTokens = [] ∧ store.stack = some stackInfo ∧
      eraTotalAmount store querier poolAddr p = .ok act.totalAmount ∧
      store' = (({ store with totalStackFee := fees }.savePool poolAddr
        act.apply).saveStack stackInfo).saveEraRate poolAddr p.era
          act.newRate ∧
      getUpdatePoolIcqMsgs next poolAddr p.icaId defaultUpdatePeriod =
        .ok icq ∧
      rsp.messages =
        (mintFee p.lsdToken p.platformFeeReceiver act.platformFee ++
          mintFee p.lsdToken stackInfo.stackFeeReceiver act.stackFee ++
          icq).map (⟨·, none, none⟩) := by
  simp only [executeEraActive, bind_eq_ok, orError_eq_ok, rejectIf_eq_ok,
    Prod.exists, addBelow_eq_ok, pure_eq_ok, Prod.mk.injEq, ne_eq,
    not_not] at h
  obtain ⟨p, hp, _, hstatus, _, hshares, total, htotal, stackInfo, hstack,
    platformFee, stackFee, hfees, active, hactive, _, ⟨-, rfl⟩, _, ⟨-, rfl⟩,
    rate, hrate, _, -, newRate, newActive, hcorrect, totalPlatformFee, -,
    next, hnext, icq, hicq, rfl, rfl⟩ := h
  obtain ⟨fees, rfl⟩ := addStackFee_ok hnext
  refine ⟨p, stackInfo, ⟨total, platformFee, stackFee, active, rate, newRate,
    newActive, totalPlatformFee, hfees, hactive, hrate, hcorrect⟩, fees, icq,
    _, hp, hstatus, ?_, hstack, htotal, rfl, hicq, ?_⟩
  · exact List.length_eq_zero_iff.mp (Nat.le_zero.mp (Nat.not_lt.mp hshares))
  · simp

end

end NeutronContracts.StakeManager
