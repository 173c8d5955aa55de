/-
The storage of the stake manager: the records it keeps for the stack, for
every pool, for every unstake request and for the interchain calls it waits
for.  Amounts are natural numbers; the arithmetic that fails on overflow is in
`CosmWasm`.
-/
import NeutronContracts.CosmWasm

namespace NeutronContracts

namespace StakeManager

structure Stack where
  admin : String
  stackFeeReceiver : String
  stackFeeCommission : Nat
  pools : List String
  lsdTokenCodeId : Nat

structure EraSnapshot where
  era : Nat
  bond : Nat
  unbond : Nat
  active : Nat
  restakeAmount : Nat
  lastStepHeight : Nat

inductive EraStatus
  | registerEnded
  | initStarted
  | initFailed
  | eraUpdateStarted
  | eraUpdateEnded
  | bondStarted
  | bondEnded
  | withdrawStarted
  | withdrawEnded
  | rebondStarted
  | rebondEnded
  | activeEnded
deriving DecidableEq, Repr

inductive ValidatorUpdateStatus
  | start
  | waitQueryUpdate
  | ended
deriving DecidableEq, Repr

structure PoolInfo where
  bond : Nat
  unbond : Nat
  active : Nat
  lsdToken : String
  icaId : String
  ibcDenom : String
  channelIdOfIbcDenom : String
  remoteDenom : String
  validatorAddrs : List String
  era : Nat
  rate : Nat
  eraSeconds : Nat
  offset : Int
  minimalStake : Nat
  unstakeTimesLimit : Nat
  nextUnstakeIndex : Nat
  unbondingPeriod : Nat
  status : EraStatus
  validatorUpdateStatus : ValidatorUpdateStatus
  unbondCommission : Nat
  platformFeeCommission : Nat
  totalPlatformFee : Nat
  totalLsdTokenAmount : Nat
  platformFeeReceiver : String
  admin : String
  shareTokens : List Coin
  redeemmingShareTokenDenom : List String
  eraSnapshot : EraSnapshot
  paused : Bool
  lsmSupport : Bool
  lsmPendingLimit : Nat
  rateChangeLimit : Nat
  sdkGreaterOrEqualV047 : Bool

/-- `Default` in the source; the name is reserved here. -/
inductive WithdrawStatus
  | idle
  | pending
deriving DecidableEq, Repr

structure UnstakeInfo where
  era : Nat
  poolAddr : String
  unstaker : String
  amount : Nat
  status : WithdrawStatus
  index : Nat

structure IcaInfo where
  ctrlConnectionId : String
  hostConnectionId : String
  ctrlChannelId : String
  hostChannelId : String
  ctrlPortId : String
  icaAddr : String

inductive QueryKind
  | balances
  | delegations
  | validators
deriving DecidableEq, Repr

/-- The kind of an interchain call; it selects the callbacks that run when the
call is answered. -/
inductive TxType
  | setWithdrawAddr
  | updateValidator
  | rmValidator
  | userWithdraw
  | eraUpdate
  | eraBond
  | eraCollectWithdraw
  | eraRebond
  | redeemTokenForShare
  | stakeLsm
deriving DecidableEq, Repr

/-- What a callback gets to know about the call that is answered. -/
structure SudoPayload where
  message : String
  poolAddr : String
  portId : String
  txType : TxType
deriving DecidableEq, Repr

/-- Everything the contract stores.  Serialised values are kept as they
were before serialisation. -/
structure Storage where
  stack : Option Stack
  totalStackFee : Map String Nat
  pools : Map String PoolInfo
  /-- `(pool address, unstake index)` -/
  unstakesOfIndex : Map (String × Nat) UnstakeInfo
  /-- pool account, withdraw account and admin of an interchain account id -/
  infoOfIcaId : Map String (IcaInfo × IcaInfo × String)
  /-- `(user address, pool address)` -/
  unstakesIndexForUser : Map (String × String) (List Nat)
  latestReplyId : Option Nat
  latestQueryReplyId : Option Nat
  replyIdToPayload : Map Nat SudoPayload
  /-- `(channel, sequence)` of a sent packet -/
  sudoPayload : Map (String × Nat) SudoPayload
  /-- `(interchain account address, query kind)` -/
  addressToReplyId : Map (String × QueryKind) Nat
  replyIdToQueryId : Map Nat Nat
  replyIdToNeedUpdate : Map Nat Bool
  queryIdToReplyId : Map Nat Nat
  /-- `(pool, validator)` to the times of its latest undelegations -/
  validatorsUnbondsTime : Map (String × String) (List Nat)
  /-- `(pool, era)` -/
  eraRate : Map (String × Nat) Nat

/-- The storage before the contract is instantiated. -/
def Storage.blank : Storage where
  stack := none
  totalStackFee := Map.empty
  pools := Map.empty
  unstakesOfIndex := Map.empty
  infoOfIcaId := Map.empty
  unstakesIndexForUser := Map.empty
  latestReplyId := none
  latestQueryReplyId := none
  replyIdToPayload := Map.empty
  sudoPayload := Map.empty
  addressToReplyId := Map.empty
  replyIdToQueryId := Map.empty
  replyIdToNeedUpdate := Map.empty
  queryIdToReplyId := Map.empty
  validatorsUnbondsTime := Map.empty
  eraRate := Map.empty

namespace Storage

/-- `POOLS.save` -/
@[simps] def savePool (store : Storage) (poolAddr : String)
    (poolInfo : PoolInfo) : Storage :=
  { store with pools := store.pools.save poolAddr poolInfo }

/-- `UNSTAKES_OF_INDEX.save` -/
@[simps] def saveUnstake (store : Storage) (poolAddr : String) (index : Nat)
    (unstakeInfo : UnstakeInfo) : Storage :=
  { store with
    unstakesOfIndex :=
      store.unstakesOfIndex.save (poolAddr, index) unstakeInfo }

/-- `UNSTAKES_OF_INDEX.remove` -/
@[simps] def removeUnstake (store : Storage) (poolAddr : String)
    (index : Nat) : Storage :=
  { store with
    unstakesOfIndex := store.unstakesOfIndex.remove (poolAddr, index) }

/-- `UNSTAKES_INDEX_FOR_USER.save` -/
@[simps] def saveUserIndexes (store : Storage) (user poolAddr : String)
    (indexes : List Nat) : Storage :=
  { store with
    unstakesIndexForUser :=
      store.unstakesIndexForUser.save (user, poolAddr) indexes }

/-- `VALIDATORS_UNBONDS_TIME.save` -/
@[simps] def saveUnbondsTime (store : Storage) (poolAddr validator : String)
    (times : List Nat) : Storage :=
  { store with
    validatorsUnbondsTime :=
      store.validatorsUnbondsTime.save (poolAddr, validator) times }

/-- `ERA_RATE.save` -/
@[simps] def saveEraRate (store : Storage) (poolAddr : String)
    (era rate : Nat) : Storage :=
  { store with eraRate := store.eraRate.save (poolAddr, era) rate }

/-- `TOTAL_STACK_FEE.save` -/
@[simps] def saveTotalStackFee (store : Storage) (poolAddr : String)
    (fee : Nat) : Storage :=
  { store with totalStackFee := store.totalStackFee.save poolAddr fee }

/-- `INFO_OF_ICA_ID.save` -/
@[simps] def saveIcaInfo (store : Storage) (icaId : String)
    (info : IcaInfo × IcaInfo × String) : Storage :=
  { store with infoOfIcaId := store.infoOfIcaId.save icaId info }

/-- `STACK.save` -/
@[simps] def saveStack (store : Storage) (stack : Stack) : Storage :=
  { store with stack := some stack }

end Storage

end StakeManager

end NeutronContracts
