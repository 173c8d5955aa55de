/-
The life of a pool before its first era: registration of the interchain
accounts, the answer that opens their channels, initialisation and migration,
and the configuration of the pool and of the stack.
-/
import NeutronContracts.StakeManager.Callback

namespace NeutronContracts.StakeManager

open Fallible

def instantiate (info : MessageInfo) (lsdTokenCodeId : Nat) : Storage :=
  Storage.blank.saveStack
    { admin := info.sender
      stackFeeReceiver := info.sender
      stackFeeCommission := 100000
      pools := []
      lsdTokenCodeId := lsdTokenCodeId }

/-! ### Registration -/

/-- `get_port_id` -/
def getPortId (contractAddress icaId : String) : String :=
  "icacontroller-" ++ contractAddress ++ "." ++ icaId

def validInterchainAccountId (icaId : String) : Bool :=
  ¬ icaId.toList.all Text.isWhitespace ∧
    '.' ∉ icaId.toList ∧
    '-' ∉ icaId.toList ∧
    ¬ Text.containsText icaId icaWithdrawSufix ∧
    icaId.utf8ByteSize ≤ interchainAccountIdLenLimit

def newIcaInfo (connectionId portId : String) : IcaInfo where
  ctrlConnectionId := connectionId
  hostConnectionId := ""
  ctrlChannelId := ""
  hostChannelId := ""
  ctrlPortId := portId
  icaAddr := ""

def executeRegisterPool (store : Storage) (env : Env) (info : MessageInfo)
    (connectionId interchainAccountId : String) :
    NeutronResult (Storage × Response) := do
  let stack ← load store.stack
  rejectIf (stack.admin ≠ info.sender) .unauthorized
  rejectIf (¬ validInterchainAccountId interchainAccountId)
    .invalidInterchainAccountId
  rejectIf (store.infoOfIcaId interchainAccountId).isSome
    .interchainAccountIdAlreadyExist
  match info.funds with
  | [coin] =>
      rejectIf (coin.denom ≠ feeDenom) .paramsErrorFundsNotMatch
      let registerFee := some [⟨coin.denom, coin.amount / 2⟩]
      let withdrawIcaId := getWithdrawIcaId interchainAccountId
      let store := store.saveIcaInfo interchainAccountId
        (newIcaInfo connectionId
            (getPortId env.contractAddress interchainAccountId),
          newIcaInfo connectionId
            (getPortId env.contractAddress withdrawIcaId),
          info.sender)
      return (store, Response.new.addMessages [
        .registerInterchainAccount connectionId interchainAccountId
          registerFee,
        .registerInterchainAccount connectionId withdrawIcaId registerFee])
  | _ => throw .paramsErrorFundsNotMatch

/-- The fields of the counterparty version that are read. -/
structure OpenAckVersion where
  hostConnectionId : String
  address : String

/-- The record of a pool right after registration. -/
def registeredPool (icaId admin : String) : PoolInfo where
  bond := 0
  unbond := 0
  active := 0
  lsdToken := ""
  icaId := icaId
  ibcDenom := ""
  channelIdOfIbcDenom := ""
  remoteDenom := ""
  validatorAddrs := []
  era := 0
  rate := 0
  eraSeconds := 0
  offset := 0
  minimalStake := 0
  unstakeTimesLimit := 0
  nextUnstakeIndex := 0
  unbondingPeriod := 0
  status := .registerEnded
  validatorUpdateStatus := .ended
  unbondCommission := 0
  platformFeeCommission := 0
  totalPlatformFee := 0
  totalLsdTokenAmount := 0
  platformFeeReceiver := ""
  admin := admin
  shareTokens := []
  redeemmingShareTokenDenom := []
  eraSnapshot := ⟨0, 0, 0, 0, 0, 0⟩
  paused := false
  lsmSupport := false
  lsmPendingLimit := 0
  rateChangeLimit := 0
  sdkGreaterOrEqualV047 := false

/-- The interchain account id in a port, and whether it is that of the pool
account. -/
def icaIdOfPort (portId : String) : NeutronResult (String × Bool) :=
  match Text.split '.' portId with
  | [_, icaIdRaw] =>
      if Text.containsText icaIdRaw icaWithdrawSufix then do
        let icaId ←
          orError (Text.stripSuffix icaIdRaw icaWithdrawSufix) .panic
        return (icaId, false)
      else return (icaIdRaw, true)
  | _ => throw .counterpartyVersionNotMatch

def openedIcaInfo (icaInfo : IcaInfo) (portId channelId
    counterpartyChannelId : String) (version : OpenAckVersion) : IcaInfo :=
  { icaInfo with
    ctrlChannelId := channelId
    ctrlPortId := portId
    hostConnectionId := version.hostConnectionId
    hostChannelId := counterpartyChannelId
    icaAddr := version.address }

/-- The handler of opened channels; `counterpartyVersion` is the version after
parsing, `none` when it does not parse. -/
def sudoOpenAck (store : Storage)
    (portId channelId counterpartyChannelId : String)
    (counterpartyVersion : Option OpenAckVersion) :
    NeutronResult (Storage × Response) := do
  let version ← orError counterpartyVersion .cantParseCounterpartyVersion
  let (icaId, isPool) ← icaIdOfPort portId
  let (poolIcaInfo, withdrawIcaInfo, admin) ← load (store.infoOfIcaId icaId)
  let opened := fun icaInfo =>
    openedIcaInfo icaInfo portId channelId counterpartyChannelId version
  let poolIcaInfo := if isPool then opened poolIcaInfo else poolIcaInfo
  let withdrawIcaInfo :=
    if isPool then withdrawIcaInfo else opened withdrawIcaInfo
  let store :=
    if poolIcaInfo.icaAddr ≠ "" ∧ withdrawIcaInfo.icaAddr ≠ "" ∧
        (store.pools poolIcaInfo.icaAddr).isNone then
      store.savePool poolIcaInfo.icaAddr (registeredPool icaId admin)
    else store
  return (store.saveIcaInfo icaId (poolIcaInfo, withdrawIcaInfo, admin),
    Response.new)

def executeOpenChannel (store : Storage) (info : MessageInfo)
    (poolAddr closedChannelId : String) :
    NeutronResult (Storage × Response) := do
  let poolInfo ← load (store.pools poolAddr)
  rejectIf (info.sender ≠ poolInfo.admin) .unauthorized
  let registerFee := if info.funds ≠ [] then some info.funds else none
  let (poolIcaInfo, withdrawIcaInfo, _) ←
    load (store.infoOfIcaId poolInfo.icaId)
  if closedChannelId = poolIcaInfo.ctrlChannelId then
    return (store, Response.new.addMessage
      (.registerInterchainAccount poolIcaInfo.ctrlConnectionId poolInfo.icaId
        registerFee))
  else if closedChannelId = withdrawIcaInfo.ctrlChannelId then
    return (store, Response.new.addMessage
      (.registerInterchainAccount withdrawIcaInfo.ctrlConnectionId
        (getWithdrawIcaId poolInfo.icaId) registerFee))
  else throw .closedChannelIdUnmatch

/-! ### Initialisation and migration -/

structure InitPoolParams where
  interchainAccountId : String
  ibcDenom : String
  channelIdOfIbcDenom : String
  remoteDenom : String
  validatorAddrs : List String
  platformFeeReceiver : String
  lsdCodeId : Option Nat
  lsdTokenName : String
  lsdTokenSymbol : String
  minimalStake : Nat
  unbondingPeriod : Nat
  platformFeeCommission : Option Nat
  eraSeconds : Option Nat
  sdkGreaterOrEqualV047 : Bool

structure MigratePoolParams where
  interchainAccountId : String
  unbond : Nat
  bond : Nat
  active : Nat
  ibcDenom : String
  channelIdOfIbcDenom : String
  remoteDenom : String
  validatorAddrs : List String
  era : Nat
  rate : Nat
  totalPlatformFee : Nat
  totalLsdTokenAmount : Nat
  platformFeeReceiver : String
  shareTokens : List Coin
  lsdCodeId : Option Nat
  lsdTokenName : String
  lsdTokenSymbol : String
  minimalStake : Nat
  unbondingPeriod : Nat
  platformFeeCommission : Option Nat
  eraSeconds : Nat
  offset : Int
  sdkGreaterOrEqualV047 : Bool

def setWithdrawSubMsg (store : Storage) (querier : Querier)
    (poolInfo : PoolInfo) (poolIcaInfo withdrawIcaInfo : IcaInfo) :
    NeutronResult (Storage × SubMsg) := do
  let minFee ← queryMinIbcFee querier
  return msgWithSudoCallback store
    (.submitTx
      { connectionId := poolIcaInfo.ctrlConnectionId
        interchainAccountId := poolInfo.icaId
        msgs := [⟨"/cosmos.distribution.v1beta1.MsgSetWithdrawAddress",
          .setWithdrawAddress poolIcaInfo.icaAddr withdrawIcaInfo.icaAddr⟩]
        memo := ""
        timeout := defaultTimeoutSeconds
        fee := minNtrnIbcFee minFee })
    { portId := poolIcaInfo.ctrlPortId
      message := withdrawIcaInfo.icaAddr
      poolAddr := poolIcaInfo.icaAddr
      txType := .setWithdrawAddr }

def sudoSetWithdrawAddrCallback (store : Storage) (payload : SudoPayload) :
    NeutronResult (Storage × Response) := do
  let poolInfo ← load (store.pools payload.poolAddr)
  return (store.savePool payload.poolAddr
    { poolInfo with status := .activeEnded }, Response.new)

def sudoSetWithdrawAddrFailedCallback (store : Storage)
    (payload : SudoPayload) : NeutronResult (Storage × Response) := do
  let poolInfo ← load (store.pools payload.poolAddr)
  return (store.savePool payload.poolAddr
    { poolInfo with status := .initFailed }, Response.new)

/-- The four interchain queries of a pool. -/
def registerPoolQueries (store : Storage) (querier : Querier)
    (poolInfo : PoolInfo) (poolIcaInfo withdrawIcaInfo : IcaInfo) :
    NeutronResult (Storage × List SubMsg) := do
  let poolBalanceMsg ← newRegisterBalanceQueryMsg querier
    poolIcaInfo.ctrlConnectionId poolIcaInfo.icaAddr poolInfo.remoteDenom
    defaultUpdatePeriod
  let (store, registerBalancePoolSubmsg) :=
    registerQuerySubmsg store poolBalanceMsg poolIcaInfo.icaAddr .balances
  let withdrawBalanceMsg ← newRegisterBalanceQueryMsg querier
    withdrawIcaInfo.ctrlConnectionId withdrawIcaInfo.icaAddr
    poolInfo.remoteDenom defaultUpdatePeriod
  let (store, registerBalanceWithdrawSubmsg) := registerQuerySubmsg store
    withdrawBalanceMsg withdrawIcaInfo.icaAddr .balances
  let delegationMsg ← registerDelegatorDelegationsQueryMsg querier
    poolIcaInfo.ctrlConnectionId poolIcaInfo.icaAddr poolInfo.validatorAddrs
    defaultUpdatePeriod poolInfo.sdkGreaterOrEqualV047
  let (store, registerDelegationSubmsg) :=
    registerQuerySubmsg store delegationMsg poolIcaInfo.icaAddr .delegations
  let validatorMsg ← newRegisterStakingValidatorsQueryMsg querier
    poolIcaInfo.ctrlConnectionId poolInfo.validatorAddrs 6
  let (store, registerValidatorSubmsg) :=
    registerQuerySubmsg store validatorMsg poolIcaInfo.icaAddr .validators
  return (store, [registerBalancePoolSubmsg, registerBalanceWithdrawSubmsg,
    registerDelegationSubmsg, registerValidatorSubmsg])

def dealPool (store : Storage) (querier : Querier) (env : Env)
    (info : MessageInfo) (poolInfo : PoolInfo)
    (poolIcaInfo withdrawIcaInfo : IcaInfo) (lsdCodeId : Nat)
    (lsdTokenName lsdTokenSymbol : String) :
    NeutronResult (Storage × Response) := do
  let denomTrace ← queryDenomTraceFromIbcDenom querier poolInfo.ibcDenom
  rejectIf (denomTrace.baseDenom ≠ poolInfo.remoteDenom) .denomTraceNotMatch
  let saltChars ←
    orError (Text.takeBytes 40 poolIcaInfo.icaAddr.toList) .panic
  let salt := String.ofList saltChars
  let checksum ← orError (querier.codeChecksum lsdCodeId) .std
  let contractAddr ← orError
    (querier.instantiate2Address checksum env.contractAddress salt)
    .instantiate2AddressFailed
  let poolInfo : PoolInfo :=
    { poolInfo with lsdToken := contractAddr, status := .initStarted }
  let store := store.savePool poolIcaInfo.icaAddr poolInfo
  let store :=
    store.saveEraRate poolIcaInfo.icaAddr poolInfo.era poolInfo.rate
  let store := store.saveTotalStackFee poolIcaInfo.icaAddr 0
  let (store, querySubmsgs) ←
    registerPoolQueries store querier poolInfo poolIcaInfo withdrawIcaInfo
  let (store, setWithdraw) ←
    setWithdrawSubMsg store querier poolInfo poolIcaInfo withdrawIcaInfo
  return (store, Response.new
    |>.addMessage (.wasmInstantiate2 info.sender lsdCodeId
        { name := lsdTokenName
          symbol := lsdTokenSymbol
          decimals := defaultDecimals
          mintAdmin := poolInfo.admin
          minter := env.contractAddress }
        lsdTokenName salt)
    |>.addSubmessages (querySubmsgs ++ [setWithdraw]))

/-- The fee for the set-withdraw-address packet. -/
def initIbcFee (querier : Querier) : NeutronResult Nat := do
  let minFee ← queryMinIbcFee querier
  totalIbcFee (minNtrnIbcFee minFee)

/-- `info.funds[0].amount` has to cover the amount. -/
def checkFirstFund (info : MessageInfo) (amount : Nat) :
    NeutronResult Unit := do
  let coin ← orError info.funds.head? .panic
  rejectIf (coin.amount < amount) .paramsErrorFundsNotMatch

/-- What `InitPool` and `MigratePool` do for a pool whose initialisation has
failed before: send the packet again. -/
def retrySetWithdraw (store : Storage) (querier : Querier)
    (info : MessageInfo) (poolInfo : PoolInfo)
    (poolIcaInfo withdrawIcaInfo : IcaInfo) (totalIbcFee : Nat) :
    NeutronResult (Storage × Response) := do
  checkFirstFund info totalIbcFee
  let (store, submsg) ←
    setWithdrawSubMsg store querier poolInfo poolIcaInfo withdrawIcaInfo
  return (store, Response.new.addSubmessage submsg)

/-- The fees of the four queries and of the packet. -/
def checkRegisterFee (querier : Querier) (info : MessageInfo)
    (totalIbcFee : Nat) : NeutronResult Unit := do
  let icqRegisterFee ← queryIcqRegisterFee querier
  let coin ← orError info.funds.head? .panic
  let queryFees ← Uint128.mul (totalIcqRegisterFee icqRegisterFee) 4
  let total ← Uint128.add queryFees totalIbcFee
  rejectIf (coin.amount < total) .paramsErrorFundsNotMatch

def initEraSeconds (eraSeconds : Option Nat) : NeutronResult Nat :=
  match eraSeconds with
  | some eraSeconds => do
      rejectIf (eraSeconds < minEraSeconds) .lessThanMinimalEraSeconds
      return eraSeconds
  | none => return defaultEraSeconds

def lsdCodeIdOr (store : Storage) (lsdCodeId : Option Nat) :
    NeutronResult Nat :=
  match lsdCodeId with
  | some lsdCodeId => return lsdCodeId
  | none => do
      let stack ← load store.stack
      return stack.lsdTokenCodeId

/-- The record `InitPool` starts a pool with. -/
def initialPool (poolInfo : PoolInfo) (param : InitPoolParams)
    (eraSeconds : Nat) (offset : Int) : PoolInfo :=
  { poolInfo with
    ibcDenom := param.ibcDenom
    channelIdOfIbcDenom := param.channelIdOfIbcDenom
    remoteDenom := param.remoteDenom
    validatorAddrs := param.validatorAddrs
    platformFeeReceiver := param.platformFeeReceiver
    unbondingPeriod := param.unbondingPeriod
    minimalStake := param.minimalStake
    sdkGreaterOrEqualV047 := param.sdkGreaterOrEqualV047
    platformFeeCommission := param.platformFeeCommission.getD 100000
    eraSeconds := eraSeconds
    offset := offset
    era := 0
    bond := 0
    unbond := 0
    active := 0
    rate := calBase
    shareTokens := []
    totalPlatformFee := 0
    totalLsdTokenAmount := 0
    nextUnstakeIndex := 0
    unstakeTimesLimit := 20
    unbondCommission := 0
    paused := false
    lsmSupport := false
    lsmPendingLimit := 100
    rateChangeLimit := 0
    validatorUpdateStatus := .ended }

def executeInitPool (store : Storage) (querier : Querier) (env : Env)
    (info : MessageInfo) (param : InitPoolParams) :
    NeutronResult (Storage × Response) := do
  let stack ← load store.stack
  rejectIf (stack.admin ≠ info.sender) .unauthorized
  let (poolIcaInfo, withdrawIcaInfo, _) ←
    load (store.infoOfIcaId param.interchainAccountId)
  rejectIf (param.validatorAddrs = [] ∨
    validaterLenLimit < param.validatorAddrs.length)
    .validatorAddressesListSize
  let poolInfo ← load (store.pools poolIcaInfo.icaAddr)
  rejectIf (info.sender ≠ poolInfo.admin) .unauthorized
  let totalIbcFee ← initIbcFee querier
  if poolInfo.status = .initFailed then
    retrySetWithdraw store querier info poolInfo poolIcaInfo withdrawIcaInfo
      totalIbcFee
  else
    rejectIf (poolInfo.status ≠ .registerEnded) .statusNotAllow
    checkRegisterFee querier info totalIbcFee
    let eraSeconds ← initEraSeconds param.eraSeconds
    let eras ← U64.div env.block.seconds eraSeconds
    let offset ← I64.sub 0 (U64.asI64 eras)
    let codeId ← lsdCodeIdOr store param.lsdCodeId
    dealPool store querier env info
      (initialPool poolInfo param eraSeconds offset)
      poolIcaInfo withdrawIcaInfo codeId param.lsdTokenName
      param.lsdTokenSymbol

/-- The record `MigratePool` starts a pool with. -/
def migratedPool (poolInfo : PoolInfo) (param : MigratePoolParams) :
    PoolInfo :=
  { poolInfo with
    bond := param.bond
    unbond := param.unbond
    active := param.active
    era := param.era
    rate := param.rate
    ibcDenom := param.ibcDenom
    channelIdOfIbcDenom := param.channelIdOfIbcDenom
    remoteDenom := param.remoteDenom
    validatorAddrs := param.validatorAddrs
    platformFeeReceiver := param.platformFeeReceiver
    shareTokens := param.shareTokens
    totalPlatformFee := param.totalPlatformFee
    totalLsdTokenAmount := param.totalLsdTokenAmount
    eraSeconds := param.eraSeconds
    offset := param.offset
    unbondingPeriod := param.unbondingPeriod
    minimalStake := param.minimalStake
    sdkGreaterOrEqualV047 := param.sdkGreaterOrEqualV047
    platformFeeCommission := param.platformFeeCommission.getD 100000
    nextUnstakeIndex := 0
    unstakeTimesLimit := 20
    unbondCommission := 0
    paused := false
    lsmSupport := true
    lsmPendingLimit := 50
    rateChangeLimit := 0
    validatorUpdateStatus := .ended }

/-- The rate that belongs to the migrated amounts. -/
def migratedRate (poolInfo : PoolInfo) : NeutronResult Nat :=
  if poolInfo.totalLsdTokenAmount = 0 then return calBase
  else do
    let scaled ← Uint128.mul poolInfo.active calBase
    Uint128.div scaled poolInfo.totalLsdTokenAmount

def executeMigratePool (store : Storage) (querier : Querier) (env : Env)
    (info : MessageInfo) (param : MigratePoolParams) :
    NeutronResult (Storage × Response) := do
  let (poolIcaInfo, withdrawIcaInfo, _) ←
    load (store.infoOfIcaId param.interchainAccountId)
  rejectIf (param.validatorAddrs = [] ∨
    validaterLenLimit < param.validatorAddrs.length)
    .validatorAddressesListSize
  let poolInfo ← load (store.pools poolIcaInfo.icaAddr)
  rejectIf (info.sender ≠ poolInfo.admin) .unauthorized
  let totalIbcFee ← initIbcFee querier
  if poolInfo.status = .initFailed then
    retrySetWithdraw store querier info poolInfo poolIcaInfo withdrawIcaInfo
      totalIbcFee
  else
    rejectIf (poolInfo.status ≠ .registerEnded) .statusNotAllow
    checkRegisterFee querier info totalIbcFee
    rejectIf (param.rate = 0) .rateIsZero
    let poolInfo := migratedPool poolInfo param
    let calRate ← migratedRate poolInfo
    rejectIf (calRate ≠ poolInfo.rate) .rateNotMatch
    let codeId ← lsdCodeIdOr store param.lsdCodeId
    dealPool store querier env info poolInfo poolIcaInfo withdrawIcaInfo
      codeId param.lsdTokenName param.lsdTokenSymbol

/-! ### Configuration -/

structure ConfigStackParams where
  stackFeeReceiver : Option String
  newAdmin : Option String
  stackFeeCommission : Option Nat
  lsdTokenCodeId : Option Nat
  addEntrustedPool : Option String

structure ConfigPoolParams where
  poolAddr : String
  platformFeeReceiver : Option String
  minimalStake : Option Nat
  unstakeTimesLimit : Option Nat
  unbondingPeriod : Option Nat
  unbondCommission : Option Nat
  platformFeeCommission : Option Nat
  eraSeconds : Option Nat
  paused : Option Bool
  lsmSupport : Option Bool
  lsmPendingLimit : Option Nat
  rateChangeLimit : Option Nat
  newAdmin : Option String

/-- The part of `execute_config_pool` that changes the length of an era: the
offset keeps the current era where it is and the unbonding period is rounded
up to whole eras. -/
def configEraSeconds (env : Env) (poolInfo : PoolInfo)
    (eraSeconds : Option Nat) : NeutronResult PoolInfo :=
  match eraSeconds with
  | none => return poolInfo
  | some eraSeconds => do
      rejectIf (eraSeconds < minEraSeconds) .lessThanMinimalEraSeconds
      rejectIf (maxEraSeconds < eraSeconds) .exceedMaxEraSeconds
      let eras ← U64.div env.block.seconds poolInfo.eraSeconds
      let currentEra := U64.saturatingAddSigned eras poolInfo.offset
      let newEras ← U64.div env.block.seconds eraSeconds
      let offset ← I64.sub (U64.asI64 currentEra) (U64.asI64 newEras)
      return { poolInfo with
        eraSeconds := eraSeconds
        offset := offset
        unbondingPeriod :=
          (unbondingSeconds + eraSeconds - 1) / eraSeconds + 1 }

def executeConfigPool (store : Storage) (env : Env) (info : MessageInfo)
    (param : ConfigPoolParams) : NeutronResult (Storage × Response) := do
  let poolInfo ← load (store.pools param.poolAddr)
  rejectIf (info.sender ≠ poolInfo.admin) .unauthorized
  let poolInfo ← configEraSeconds env
    { poolInfo with
      minimalStake := param.minimalStake.getD poolInfo.minimalStake
      unbondingPeriod := param.unbondingPeriod.getD poolInfo.unbondingPeriod
      unstakeTimesLimit :=
        param.unstakeTimesLimit.getD poolInfo.unstakeTimesLimit
      unbondCommission :=
        param.unbondCommission.getD poolInfo.unbondCommission
      platformFeeCommission :=
        param.platformFeeCommission.getD poolInfo.platformFeeCommission }
    param.eraSeconds
  return (store.savePool param.poolAddr
    { poolInfo with
      platformFeeReceiver :=
        param.platformFeeReceiver.getD poolInfo.platformFeeReceiver
      paused := param.paused.getD poolInfo.paused
      lsmSupport := param.lsmSupport.getD poolInfo.lsmSupport
      lsmPendingLimit := param.lsmPendingLimit.getD poolInfo.lsmPendingLimit
      rateChangeLimit := param.rateChangeLimit.getD poolInfo.rateChangeLimit
      admin := param.newAdmin.getD poolInfo.admin },
    Response.new)

def executeConfigStack (store : Storage) (info : MessageInfo)
    (param : ConfigStackParams) : NeutronResult (Storage × Response) := do
  let stack ← load store.stack
  rejectIf (stack.admin ≠ info.sender) .unauthorized
  let pools :=
    match param.addEntrustedPool with
    | some pool => if pool ∈ stack.pools then stack.pools
        else stack.pools ++ [pool]
    | none => stack.pools
  return (store.saveStack
    { admin := param.newAdmin.getD stack.admin
      stackFeeReceiver :=
        param.stackFeeReceiver.getD stack.stackFeeReceiver
      stackFeeCommission :=
        param.stackFeeCommission.getD stack.stackFeeCommission
      pools := pools
      lsdTokenCodeId := param.lsdTokenCodeId.getD stack.lsdTokenCodeId },
    Response.new)

/-! ### What a successful call has done -/

section

variable {store store' next : Storage} {rsp : Response} {querier : Querier}
  {env : Env} {info : MessageInfo} {payload : SudoPayload} {poolAddr : String}

theorem executeRegisterPool_ok {connectionId interchainAccountId : String}
    (h : executeRegisterPool store env info connectionId
      interchainAccountId = .ok (store', rsp)) :
    ∃ fee, validInterchainAccountId interchainAccountId ∧
      store.infoOfIcaId interchainAccountId = none ∧
      store' = store.saveIcaInfo interchainAccountId
        (newIcaInfo connectionId
            (getPortId env.contractAddress interchainAccountId),
          newIcaInfo connectionId
            (getPortId env.contractAddress
              (getWithdrawIcaId interchainAccountId)),
          info.sender) ∧
      rsp.messages = [
        ⟨.registerInterchainAccount connectionId interchainAccountId fee,
          none, none⟩,
        ⟨.registerInterchainAccount connectionId
          (getWithdrawIcaId interchainAccountId) fee, none, none⟩] := by
  simp only [executeRegisterPool, bind_eq_ok, orError_eq_ok, rejectIf_eq_ok,
    not_not, Bool.not_eq_true, Option.isSome_eq_false_iff,
    Option.isNone_iff_eq_none] at h
  obtain ⟨_, -, _, -, _, hvalid, _, hnew, h⟩ := h
  split at h
  case h_2 => cases h
  case h_1 =>
      simp only [bind_eq_ok, pure_eq_ok, Prod.mk.injEq] at h
      obtain ⟨_, -, rfl, rfl⟩ := h
      exact ⟨_, by simpa using hvalid, hnew, rfl, rfl⟩

theorem sudoOpenAck_ok {portId channelId counterpartyChannelId : String}
    {counterpartyVersion : Option OpenAckVersion}
    (h : sudoOpenAck store portId channelId counterpartyChannelId
      counterpartyVersion = .ok (store', rsp)) :
    ∃ version icaId isPool, ∃ poolIcaInfo withdrawIcaInfo : IcaInfo,
      ∃ admin, ∃ poolIcaInfo' withdrawIcaInfo' : IcaInfo,
      counterpartyVersion = some version ∧
      icaIdOfPort portId = .ok (icaId, isPool) ∧
      store.infoOfIcaId icaId =
        some (poolIcaInfo, withdrawIcaInfo, admin) ∧
      poolIcaInfo'.icaAddr =
        (if isPool then version.address else poolIcaInfo.icaAddr) ∧
      store' = (if poolIcaInfo'.icaAddr ≠ "" ∧
          withdrawIcaInfo'.icaAddr ≠ "" ∧
          (store.pools poolIcaInfo'.icaAddr).isNone then
        store.savePool poolIcaInfo'.icaAddr (registeredPool icaId admin)
        else store).saveIcaInfo icaId
          (poolIcaInfo', withdrawIcaInfo', admin) ∧
      rsp = Response.new := by
  simp only [sudoOpenAck, bind_eq_ok, orError_eq_ok, Prod.exists, pure_eq_ok,
    Prod.mk.injEq] at h
  obtain ⟨version, hversion, icaId, isPool, hport, poolIcaInfo,
    withdrawIcaInfo, admin, hinfo, rfl, rfl⟩ := h
  refine ⟨version, icaId, isPool, poolIcaInfo, withdrawIcaInfo, admin, _, _,
    hversion, hport, hinfo, ?_, rfl, rfl⟩
  split <;> rfl

/-- A port is split at the dot in front of the account id. -/
theorem split_getPortId {contractAddress : String}
    (hplain : '.' ∉ contractAddress.toList) (icaId : String) :
    Text.split '.' (getPortId contractAddress icaId) =
      ("icacontroller-" ++ contractAddress) :: Text.split '.' icaId := by
  have hfirst : '.' ∉ ("icacontroller-" ++ contractAddress).toList := by
    rw [String.toList_append, List.mem_append]
    exact fun hmem => hmem.elim (by decide) hplain
  have hport : getPortId contractAddress icaId =
      ("icacontroller-" ++ contractAddress) ++ String.singleton '.' ++
        icaId := rfl
  rw [hport, Text.split_append_sep, Text.split_eq_singleton hfirst]
  rfl

/-- The port of an account id leads back to the id, or to the id before the
suffix of a withdraw account. -/
theorem icaIdOfPort_getPortId {contractAddress icaId icaId' : String}
    (hplain : '.' ∉ contractAddress.toList)
    (h : icaIdOfPort (getPortId contractAddress icaId) =
      .ok (icaId', true)) : icaId' = icaId := by
  unfold icaIdOfPort at h
  split at h
  case h_2 => cases h
  case h_1 first icaIdRaw hparts =>
      rw [split_getPortId hplain, List.cons.injEq] at hparts
      have hraw := Text.split_eq_one hparts.2
      split at h
      · simp only [bind_eq_ok, pure_eq_ok, Prod.mk.injEq] at h
        obtain ⟨_, -, -, hbool⟩ := h
        cases hbool
      · simp only [pure_eq_ok, Prod.mk.injEq] at h
        rw [hraw, h.1]

theorem executeOpenChannel_ok {closedChannelId : String}
    (h : executeOpenChannel store info poolAddr closedChannelId =
      .ok (store', rsp)) :
    ∃ p connectionId icaId fee, store.pools poolAddr = some p ∧
      store' = store ∧ rsp.messages =
        [⟨.registerInterchainAccount connectionId icaId fee, none, none⟩] := by
  simp only [executeOpenChannel, bind_eq_ok, orError_eq_ok, Prod.exists] at h
  obtain ⟨p, hp, _, -, _, _, _, -, h⟩ := h
  split at h
  · cases h
    exact ⟨p, _, _, _, hp, rfl, rfl⟩
  · split at h <;> cases h
    exact ⟨p, _, _, _, hp, rfl, rfl⟩

/-- The storage differs in the book-keeping of query registrations only. -/
def SameButQueries (store store' : Storage) : Prop :=
  ∃ latest addresses needed, store' =
    { store with
      latestQueryReplyId := latest
      addressToReplyId := addresses
      replyIdToNeedUpdate := needed }

theorem SameButQueries.trans {first second third : Storage}
    (h : SameButQueries first second) (h' : SameButQueries second third) :
    SameButQueries first third := by
  obtain ⟨_, _, _, rfl⟩ := h
  obtain ⟨_, _, _, rfl⟩ := h'
  exact ⟨_, _, _, rfl⟩

theorem registerQuerySubmsg_eq (store : Storage) (msg : CosmosMsg)
    (addr : String) (queryKind : QueryKind) :
    SameButQueries store (registerQuerySubmsg store msg addr queryKind).1 ∧
      ∃ id, (registerQuerySubmsg store msg addr queryKind).2 =
        ⟨msg, some id, none⟩ := by
  unfold registerQuerySubmsg
  refine ⟨?_, _, rfl⟩
  dsimp only
  split <;> exact ⟨_, _, _, rfl⟩

theorem newRegisterBalanceQueryMsg_ok
    {connectionId addr denom : String} {period : Nat} {msg : CosmosMsg}
    (h : newRegisterBalanceQueryMsg querier connectionId addr denom period =
      .ok msg) :
    msg = .registerInterchainQuery connectionId (.balance addr denom)
      period := by
  simp only [newRegisterBalanceQueryMsg, bind_eq_ok, pure_eq_ok] at h
  obtain ⟨_, -, rfl⟩ := h
  rfl

theorem registerPoolQueries_ok {p : PoolInfo}
    {poolIcaInfo withdrawIcaInfo : IcaInfo} {subs : List SubMsg}
    (h : registerPoolQueries store querier p poolIcaInfo withdrawIcaInfo =
      .ok (next, subs)) :
    SameButQueries store next ∧ ∃ a b c d connection withdrawConnection,
      subs = [
        ⟨.registerInterchainQuery connection
          (.balance poolIcaInfo.icaAddr p.remoteDenom) defaultUpdatePeriod,
          some a, none⟩,
        ⟨.registerInterchainQuery withdrawConnection
          (.balance withdrawIcaInfo.icaAddr p.remoteDenom)
          defaultUpdatePeriod, some b, none⟩,
        ⟨.registerInterchainQuery connection
          (.delegations poolIcaInfo.icaAddr p.validatorAddrs
            p.sdkGreaterOrEqualV047) defaultUpdatePeriod, some c, none⟩,
        ⟨.registerInterchainQuery connection
          (.stakingValidators p.validatorAddrs) 6, some d, none⟩] := by
  simp only [registerPoolQueries, bind_eq_ok, pure_eq_ok, Prod.mk.injEq] at h
  obtain ⟨poolMsg, hpool, withdrawMsg, hwithdraw, delegationMsg, hdelegation,
    validatorMsg, hvalidator, hnext, hsubs⟩ := h
  obtain rfl := newRegisterBalanceQueryMsg_ok hpool
  obtain rfl := newRegisterBalanceQueryMsg_ok hwithdraw
  simp only [registerDelegatorDelegationsQueryMsg, bind_eq_ok,
    pure_eq_ok] at hdelegation
  obtain ⟨_, -, _, -, rfl⟩ := hdelegation
  simp only [newRegisterStakingValidatorsQueryMsg, bind_eq_ok,
    pure_eq_ok] at hvalidator
  obtain ⟨_, -, rfl⟩ := hvalidator
  obtain ⟨hfirst, a, ha⟩ := registerQuerySubmsg_eq store _ _ .balances
  obtain ⟨hsecond, b, hb⟩ := registerQuerySubmsg_eq _ _ _ .balances
  obtain ⟨hthird, c, hc⟩ := registerQuerySubmsg_eq _ _ _ .delegations
  obtain ⟨hfourth, d, hd⟩ := registerQuerySubmsg_eq _ _ _ .validators
  refine ⟨hnext ▸ hfirst.trans (hsecond.trans (hthird.trans hfourth)),
    a, b, c, d, poolIcaInfo.ctrlConnectionId,
    withdrawIcaInfo.ctrlConnectionId, ?_⟩
  rw [← hsubs, ha, hb, hc, hd]

theorem setWithdrawSubMsg_ok {p : PoolInfo}
    {poolIcaInfo withdrawIcaInfo : IcaInfo} {sub : SubMsg}
    (h : setWithdrawSubMsg store querier p poolIcaInfo withdrawIcaInfo =
      .ok (next, sub)) :
    ∃ tx payload, payload.poolAddr = poolIcaInfo.icaAddr ∧
      payload.txType = .setWithdrawAddr ∧
      next = store.queuePayload payload ∧
      sub = ⟨.submitTx tx, some store.replyId, some payload⟩ := by
  simp only [setWithdrawSubMsg, bind_eq_ok, msgWithSudoCallback_eq,
    pure_eq_ok, Prod.mk.injEq] at h
  obtain ⟨_, -, rfl, rfl⟩ := h
  exact ⟨_, _, rfl, rfl, rfl, rfl⟩

/-- A pool that starts: its record is saved with the address of its new token,
the token is created, four queries are registered and the withdraw address is
set. -/
def Dealt (store store' : Storage) (rsp : Response) (querier : Querier)
    (contractAddress : String) (p : PoolInfo) (poolAddr : String) : Prop :=
  ∃ lsdToken next tx payload codeId msg label salt checksum admin
      withdrawAddr a b c d connection withdrawConnection,
    querier.codeChecksum codeId = some checksum ∧
    querier.instantiate2Address checksum contractAddress salt =
      some lsdToken ∧
    msg.minter = contractAddress ∧
    SameButQueries
      (((store.savePool poolAddr
        { p with lsdToken := lsdToken, status := .initStarted }).saveEraRate
          poolAddr p.era p.rate).saveTotalStackFee poolAddr 0) next ∧
    payload.poolAddr = poolAddr ∧ payload.txType = .setWithdrawAddr ∧
    store' = next.queuePayload payload ∧
    rsp.messages = [
      ⟨.wasmInstantiate2 admin codeId msg label salt, none, none⟩,
      ⟨.registerInterchainQuery connection (.balance poolAddr p.remoteDenom)
        defaultUpdatePeriod, some a, none⟩,
      ⟨.registerInterchainQuery withdrawConnection
        (.balance withdrawAddr p.remoteDenom) defaultUpdatePeriod,
        some b, none⟩,
      ⟨.registerInterchainQuery connection
        (.delegations poolAddr p.validatorAddrs p.sdkGreaterOrEqualV047)
        defaultUpdatePeriod, some c, none⟩,
      ⟨.registerInterchainQuery connection
        (.stakingValidators p.validatorAddrs) 6, some d, none⟩,
      ⟨.submitTx tx, some next.replyId, some payload⟩]

theorem dealPool_ok {p : PoolInfo} {poolIcaInfo withdrawIcaInfo : IcaInfo}
    {lsdCodeId : Nat} {name symbol : String}
    (h : dealPool store querier env info p poolIcaInfo withdrawIcaInfo
      lsdCodeId name symbol = .ok (store', rsp)) :
    Dealt store store' rsp querier env.contractAddress p
      poolIcaInfo.icaAddr := by
  simp only [dealPool, bind_eq_ok, orError_eq_ok, Prod.exists, pure_eq_ok,
    Prod.mk.injEq] at h
  obtain ⟨_, -, _, -, _, -, checksum, hchecksum, lsdToken, haddr, middle,
    subs, hqueries, next, sub, hset, rfl, rfl⟩ := h
  obtain ⟨hsame, a, b, c, d, connection, withdrawConnection, rfl⟩ :=
    registerPoolQueries_ok hqueries
  obtain ⟨tx, payload, hpool, htype, rfl, rfl⟩ := setWithdrawSubMsg_ok hset
  exact ⟨_, middle, tx, payload, _, _, _, _, checksum, _, _, a, b, c, d,
    connection, withdrawConnection, hchecksum, haddr, rfl, hsame, hpool,
    htype, rfl, rfl⟩

/-- A retry of a failed initialisation only sends the packet again. -/
def Retried (store store' : Storage) (rsp : Response) (poolAddr : String) :
    Prop :=
  ∃ tx payload, payload.poolAddr = poolAddr ∧
    payload.txType = .setWithdrawAddr ∧
    store' = store.queuePayload payload ∧
    rsp.messages = [⟨.submitTx tx, some store.replyId, some payload⟩]

theorem retrySetWithdraw_ok {p : PoolInfo}
    {poolIcaInfo withdrawIcaInfo : IcaInfo} {fee : Nat}
    (h : retrySetWithdraw store querier info p poolIcaInfo withdrawIcaInfo
      fee = .ok (store', rsp)) :
    Retried store store' rsp poolIcaInfo.icaAddr := by
  simp only [retrySetWithdraw, bind_eq_ok, Prod.exists, pure_eq_ok,
    Prod.mk.injEq] at h
  obtain ⟨_, -, _, sub, hset, rfl, rfl⟩ := h
  obtain ⟨tx, payload, hpool, htype, rfl, rfl⟩ := setWithdrawSubMsg_ok hset
  exact ⟨tx, payload, hpool, htype, rfl, rfl⟩

theorem executeInitPool_ok {param : InitPoolParams}
    (h : executeInitPool store querier env info param = .ok (store', rsp)) :
    ∃ p, ∃ poolIcaInfo withdrawIcaInfo : IcaInfo, ∃ admin,
      store.infoOfIcaId param.interchainAccountId =
        some (poolIcaInfo, withdrawIcaInfo, admin) ∧
      store.pools poolIcaInfo.icaAddr = some p ∧
      param.validatorAddrs ≠ [] ∧
      (p.status = .initFailed ∧
          Retried store store' rsp poolIcaInfo.icaAddr ∨
        p.status = .registerEnded ∧ ∃ eraSeconds offset,
          Dealt store store' rsp querier env.contractAddress
            (initialPool p param eraSeconds offset) poolIcaInfo.icaAddr) := by
  simp only [executeInitPool, bind_eq_ok, orError_eq_ok, rejectIf_eq_ok,
    Prod.exists, not_or] at h
  obtain ⟨_, -, _, -, poolIcaInfo, withdrawIcaInfo, admin, hinfo, _, hvals, p,
    hp, _, -, fee, -, h⟩ := h
  refine ⟨p, poolIcaInfo, withdrawIcaInfo, admin, hinfo, hp, hvals.1, ?_⟩
  split at h
  case isTrue hfailed => exact .inl ⟨hfailed, retrySetWithdraw_ok h⟩
  case isFalse =>
      simp only [bind_eq_ok, rejectIf_eq_ok, ne_eq, not_not] at h
      obtain ⟨_, hstatus, _, -, eraSeconds, -, _, -, offset, -, _, -, h⟩ := h
      exact .inr ⟨hstatus, eraSeconds, offset, dealPool_ok h⟩

theorem initEraSeconds_ok {eraSeconds : Option Nat} {result : Nat}
    (h : initEraSeconds eraSeconds = .ok result) : minEraSeconds ≤ result := by
  unfold initEraSeconds at h
  split at h
  · simp only [bind_eq_ok, rejectIf_eq_ok, pure_eq_ok, Nat.not_lt] at h
    obtain ⟨_, hmin, rfl⟩ := h
    exact hmin
  · cases h
    decide

/-- The eras of a new pool are long enough and counted from its first block. -/
theorem executeInitPool_schedule {param : InitPoolParams}
    (h : executeInitPool store querier env info param = .ok (store', rsp)) :
    ∃ p, ∃ poolIcaInfo withdrawIcaInfo : IcaInfo, ∃ admin,
      store.infoOfIcaId param.interchainAccountId =
        some (poolIcaInfo, withdrawIcaInfo, admin) ∧
      store.pools poolIcaInfo.icaAddr = some p ∧
      (p.status = .registerEnded → ∃ p',
        store'.pools poolIcaInfo.icaAddr = some p' ∧ p'.era = 0 ∧
        minEraSeconds ≤ p'.eraSeconds ∧
        p'.offset = 0 - U64.asI64 (env.block.seconds / p'.eraSeconds)) := by
  simp only [executeInitPool, bind_eq_ok, orError_eq_ok, rejectIf_eq_ok,
    Prod.exists] at h
  obtain ⟨_, -, _, -, poolIcaInfo, withdrawIcaInfo, admin, hinfo, _, -, p,
    hp, _, -, fee, -, h⟩ := h
  refine ⟨p, poolIcaInfo, withdrawIcaInfo, admin, hinfo, hp, fun hstatus => ?_⟩
  rw [if_neg (by simp [hstatus])] at h
  simp only [bind_eq_ok, divExact_eq_ok] at h
  obtain ⟨_, -, _, -, eraSeconds, hmin, _, ⟨-, rfl⟩, offset, hoffset, _, -,
    h⟩ := h
  obtain ⟨_, _, _, _, _, _, _, _, _, _, _, _, _, _, _, _, _, -, -, -,
    ⟨_, _, _, rfl⟩, -, -, rfl, -⟩ := dealPool_ok h
  exact ⟨_, Map.save_self, rfl, initEraSeconds_ok hmin, I64.sub_ok hoffset⟩

theorem executeMigratePool_ok {param : MigratePoolParams}
    (h : executeMigratePool store querier env info param =
      .ok (store', rsp)) :
    ∃ p, ∃ poolIcaInfo withdrawIcaInfo : IcaInfo, ∃ admin,
      store.infoOfIcaId param.interchainAccountId =
        some (poolIcaInfo, withdrawIcaInfo, admin) ∧
      store.pools poolIcaInfo.icaAddr = some p ∧
      param.validatorAddrs ≠ [] ∧
      (p.status = .initFailed ∧
          Retried store store' rsp poolIcaInfo.icaAddr ∨
        p.status = .registerEnded ∧ param.rate ≠ 0 ∧
          migratedRate (migratedPool p param) = .ok param.rate ∧
          Dealt store store' rsp querier env.contractAddress
            (migratedPool p param) poolIcaInfo.icaAddr) := by
  simp only [executeMigratePool, bind_eq_ok, orError_eq_ok, rejectIf_eq_ok,
    Prod.exists, not_or] at h
  obtain ⟨poolIcaInfo, withdrawIcaInfo, admin, hinfo, _, hvals, p, hp, _, -,
    fee, -, h⟩ := h
  refine ⟨p, poolIcaInfo, withdrawIcaInfo, admin, hinfo, hp, hvals.1, ?_⟩
  split at h
  case isTrue hfailed => exact .inl ⟨hfailed, retrySetWithdraw_ok h⟩
  case isFalse =>
      simp only [bind_eq_ok, rejectIf_eq_ok, ne_eq, not_not] at h
      obtain ⟨_, hstatus, _, -, _, hrate, rate, hcal, _, rfl, _, -, h⟩ := h
      exact .inr ⟨hstatus, hrate, hcal, dealPool_ok h⟩

theorem sudoSetWithdrawAddrCallback_ok :
    sudoSetWithdrawAddrCallback store payload = .ok (store', rsp) ↔
      ∃ p, store.pools payload.poolAddr = some p ∧
        store' = store.savePool payload.poolAddr
          { p with status := .activeEnded } ∧
        rsp = Response.new := by
  simp only [sudoSetWithdrawAddrCallback, bind_eq_ok, orError_eq_ok,
    pure_eq_ok, Prod.mk.injEq, eq_comm (b := store'), eq_comm (b := rsp)]

theorem sudoSetWithdrawAddrFailedCallback_ok :
    sudoSetWithdrawAddrFailedCallback store payload = .ok (store', rsp) ↔
      ∃ p, store.pools payload.poolAddr = some p ∧
        store' = store.savePool payload.poolAddr
          { p with status := .initFailed } ∧
        rsp = Response.new := by
  simp only [sudoSetWithdrawAddrFailedCallback, bind_eq_ok, orError_eq_ok,
    pure_eq_ok, Prod.mk.injEq, eq_comm (b := store'), eq_comm (b := rsp)]

/-- The record after an accepted configuration: the fields that belong to the
administrator are free, the commissions are the requested ones. -/
def Configured (param : ConfigPoolParams) (p p' : PoolInfo) : Prop :=
  ∃ minimalStake unstakeTimesLimit unbondingPeriod eraSeconds offset
      platformFeeReceiver paused lsmSupport lsmPendingLimit rateChangeLimit
      admin,
    p' = { p with
      minimalStake := minimalStake
      unstakeTimesLimit := unstakeTimesLimit
      unbondingPeriod := unbondingPeriod
      unbondCommission := param.unbondCommission.getD p.unbondCommission
      platformFeeCommission :=
        param.platformFeeCommission.getD p.platformFeeCommission
      eraSeconds := eraSeconds
      offset := offset
      platformFeeReceiver := platformFeeReceiver
      paused := paused
      lsmSupport := lsmSupport
      lsmPendingLimit := lsmPendingLimit
      rateChangeLimit := rateChangeLimit
      admin := admin }

theorem executeConfigPool_ok {param : ConfigPoolParams}
    (h : executeConfigPool store env info param = .ok (store', rsp)) :
    ∃ p p', store.pools param.poolAddr = some p ∧ Configured param p p' ∧
      store' = store.savePool param.poolAddr p' ∧ rsp = Response.new := by
  simp only [executeConfigPool, bind_eq_ok, orError_eq_ok, pure_eq_ok,
    Prod.mk.injEq] at h
  obtain ⟨p, hp, _, -, middle, hera, rfl, rfl⟩ := h
  refine ⟨p, _, hp, ?_, rfl, rfl⟩
  unfold configEraSeconds at hera
  split at hera
  · cases hera
    exact ⟨_, _, _, _, _, _, _, _, _, _, _, rfl⟩
  · simp only [bind_eq_ok, pure_eq_ok] at hera
    obtain ⟨_, -, _, -, _, -, _, -, _, -, rfl⟩ := hera
    exact ⟨_, _, _, _, _, _, _, _, _, _, _, rfl⟩

/-- A configuration keeps the length of an era, or makes it long enough and
moves the offset so that the current era stays. -/
theorem executeConfigPool_schedule {param : ConfigPoolParams}
    (h : executeConfigPool store env info param = .ok (store', rsp)) :
    ∃ p p', store.pools param.poolAddr = some p ∧
      store'.pools param.poolAddr = some p' ∧
      (param.eraSeconds = none ∧ p'.eraSeconds = p.eraSeconds ∧
          p'.offset = p.offset ∨
        param.eraSeconds = some p'.eraSeconds ∧
          minEraSeconds ≤ p'.eraSeconds ∧
          p.eraSeconds ≠ 0 ∧
          p'.offset = U64.asI64 (U64.saturatingAddSigned
              (env.block.seconds / p.eraSeconds) p.offset) -
            U64.asI64 (env.block.seconds / p'.eraSeconds)) := by
  simp only [executeConfigPool, bind_eq_ok, orError_eq_ok, pure_eq_ok,
    Prod.mk.injEq] at h
  obtain ⟨p, hp, _, -, middle, hera, rfl, rfl⟩ := h
  refine ⟨p, _, hp, Map.save_self, ?_⟩
  unfold configEraSeconds at hera
  split at hera
  case h_1 hnone =>
      cases hera
      exact .inl ⟨hnone, rfl, rfl⟩
  case h_2 eraSeconds hsome =>
      simp only [bind_eq_ok, rejectIf_eq_ok, divExact_eq_ok, pure_eq_ok] at hera
      obtain ⟨_, hmin, _, -, _, ⟨hne, rfl⟩, _, ⟨-, rfl⟩, _, hoffset, rfl⟩ :=
        hera
      exact .inr ⟨hsome, Nat.not_lt.mp hmin, hne, I64.sub_ok hoffset⟩

/-- The administrator can configure what the era arithmetic allows. -/
theorem executeConfigPool_accepts {param : ConfigPoolParams} {p : PoolInfo}
    (hp : store.pools param.poolAddr = some p) (hsender : info.sender = p.admin)
    (hera : ∀ eraSeconds ∈ param.eraSeconds,
      minEraSeconds ≤ eraSeconds ∧ eraSeconds ≤ maxEraSeconds ∧
        p.eraSeconds ≠ 0 ∧ ∃ offset,
        (I64.sub (U64.asI64 (U64.saturatingAddSigned
            (env.block.seconds / p.eraSeconds) p.offset))
          (U64.asI64 (env.block.seconds / eraSeconds)) : NeutronResult Int) =
          .ok offset) :
    ∃ result, executeConfigPool store env info param = .ok result := by
  simp only [executeConfigPool, exists_bind_eq_ok, orError_eq_ok,
    rejectIf_eq_ok, ne_eq, not_not, exists_const]
  refine ⟨p, hp, hsender, ?_⟩
  unfold configEraSeconds
  cases hnew : param.eraSeconds with
  | none => exact ⟨_, rfl, _, rfl⟩
  | some eraSeconds =>
      obtain ⟨hmin, hmax, hold, offset, hoffset⟩ := hera eraSeconds hnew
      have hpos : eraSeconds ≠ 0 :=
        Nat.ne_of_gt (Nat.lt_of_lt_of_le (by decide) hmin)
      simp only [bind_eq_ok, rejectIf_eq_ok, Nat.not_lt, divExact_eq_ok]
      exact ⟨_, ⟨(), hmin, (), hmax, _, ⟨hold, rfl⟩, _, ⟨hpos, rfl⟩, offset,
        hoffset, rfl⟩, _, rfl⟩

theorem executeConfigStack_ok {param : ConfigStackParams}
    (h : executeConfigStack store info param = .ok (store', rsp)) :
    ∃ stack stack', store.stack = some stack ∧
      stack'.stackFeeCommission =
        param.stackFeeCommission.getD stack.stackFeeCommission ∧
      store' = store.saveStack stack' ∧ rsp = Response.new := by
  simp only [executeConfigStack, bind_eq_ok, orError_eq_ok, pure_eq_ok,
    Prod.mk.injEq] at h
  obtain ⟨stack, hstack, _, -, rfl, rfl⟩ := h
  exact ⟨stack, _, hstack, rfl, rfl, rfl⟩

end

end NeutronContracts.StakeManager
