/-
Constants and errors of the stake manager, the messages it sends, and what it
can ask the chain while a call is executed.
-/
import NeutronContracts.StakeManager.State

namespace NeutronContracts

open Fallible

namespace StakeManager

/-- The errors of the contract.  `std` stands for the errors of the standard
library (a missing entry, a failed query, text that does not parse) and
`panic` for an aborted execution: both revert the call like any other error. -/
inductive ContractError
  | std
  | panic
  | unauthorized
  | statusNotAllow
  | pendingShareNotEmpty
  | delegationsNotExist
  | rateChangeOverLimit
  | validatorForUnbondNotEnough
  | delegationSubmissionHeight
  | withdrawAddrBalanceSubmissionHeight
  | poolIsPaused
  | alreadyLatestEra
  | validatorAddressesListSize
  | rateIsZero
  | instantiate2AddressFailed
  | rateNotMatch
  | closedChannelIdUnmatch
  | eraProcessNotEnd
  | validatorAlreadyExit
  | validatorsEmpty
  | oldValidatorNotExist
  | newValidatorAlreadyExist
  | tokensLenNotMatch
  | shareTokenNotExist
  | duplicateToken
  | invalidInterchainAccountId
  | interchainAccountIdAlreadyExist
  | counterpartyVersionNotMatch
  | cantParseCounterpartyVersion
  | lsmStakeNotSupport
  | lsmPendingStakeOverLimit
  | poolIcqNotUpdated
  | paramsErrorFundsNotMatch
  | lessThanMinimalStake
  | lessThanMinimalEraSeconds
  | exceedMaxEraSeconds
  | denomNotMatch
  | denomPathNotMatch
  | denomTraceNotMatch
  | validatorNotSupport
  | tokenAmountZero
  | noValidatorInfo
  | unsupportedMessage (message : String)
  | unsupportedReplyId (id : Nat)
  | encodeErrLsdTokenAmountZero
  | encodeErrUnstakeTimesLimitReached
  | encodeErrZeroWithdrawAmount
  | burnLsdTokenAmountIsZero
  | emptyUnstakeList
  | unstakeIndexPoolNotMatch (index : Nat)
  | unstakeIndexUnstakerNotMatch (index : Nat)
  | unstakeIndexStatusNotMatch (index : Nat)
  | unstakeIndexNotWithdrawable (index : Nat)
  | icqErrReplyNoResult
  | icqErrFailedParse
  | icqNewKeyBuildFailed
  | callBackErrSequenceNotFound
  | callBackErrChannelIdNotFound
  | callBackErrErrorMsg
  | periodTooSmall
deriving DecidableEq, Repr

abbrev NeutronResult := Except ContractError

/-- `Map::load` and `Item::load`: a missing entry is an error. -/
abbrev load {α : Type} (entry : Option α) : NeutronResult α :=
  orError entry .std

instance : Panics ContractError := ⟨.panic⟩

def feeDenom : String := "untrn"
def icaWithdrawSufix : String := "-withdraw_addr"
def interchainAccountIdLenLimit : Nat := 10
def calBase : Nat := 1000000
def defaultRate : Nat := 1000000
def defaultDecimals : Nat := 6
def defaultEraSeconds : Nat := 86400
def minEraSeconds : Nat := 28800
def maxEraSeconds : Nat := 86400
def stakeSplitThreshold : Nat := 10000
/-- Default timeout for `SubmitTx` is 30h. -/
def defaultTimeoutSeconds : Nat := 30 * 60 * 60
def defaultUpdatePeriod : Nat := 86400
def defaultFastPeriod : Nat := 60
def unbondingSeconds : Nat := 1814400
def replyIdRangeStart : Nat := 1000000000
def replyIdRangeSize : Nat := 1000000
def replyIdRangeEnd : Nat := replyIdRangeStart + replyIdRangeSize
def queryReplyIdRangeStart : Nat := 2000000000
def queryReplyIdRangeSize : Nat := 1000000
def queryReplyIdRangeEnd : Nat :=
  queryReplyIdRangeStart + queryReplyIdRangeSize
def validaterLenLimit : Nat := 10

/-! ### What the contract sends -/

structure IbcFee where
  recvFee : List Coin
  ackFee : List Coin
  timeoutFee : List Coin

/-- The host messages, before their protobuf encoding. -/
inductive HostMsg
  | delegate (delegator validator : String) (amount : Coin)
  | undelegate (delegator validator : String) (amount : Coin)
  | beginRedelegate (delegator src dst : String) (amount : Coin)
  | withdrawDelegatorReward (delegator validator : String)
  | redeemTokenForShare (delegator : String) (amount : Coin)
  | send (fromAddress toAddress : String) (amount : List Coin)
  | setWithdrawAddress (delegator withdrawAddress : String)

structure ProtobufAny where
  typeUrl : String
  value : HostMsg

/-- The storage keys an interchain query watches. -/
inductive KVKeys
  | balance (addr denom : String)
  | delegations (delegator : String) (validators : List String) (v047 : Bool)
  | stakingValidators (validators : List String)

/-- The messages the contract sends to its liquid staking tokens. -/
inductive LsdTokenMsg
  | mint (recipient : String) (amount : Nat)
  | transferFrom (owner recipient : String) (amount : Nat)
  | burnFrom (owner : String) (amount : Nat)

/-- `lsd_token::msg::InstantiateMsg` with the values that are not constant:
there are no initial balances, no cap and no marketing information. -/
structure LsdInstantiateMsg where
  name : String
  symbol : String
  decimals : Nat
  mintAdmin : String
  minter : String

structure IbcTransfer where
  sourcePort : String
  sourceChannel : String
  sender : String
  receiver : String
  token : Coin
  timeoutTimestamp : Nat
  memo : String
  fee : IbcFee

structure SubmitTx where
  connectionId : String
  interchainAccountId : String
  msgs : List ProtobufAny
  memo : String
  timeout : Nat
  fee : IbcFee

inductive CosmosMsg
  | wasmExecute (contractAddr : String) (msg : LsdTokenMsg)
  | wasmInstantiate2 (admin : String) (codeId : Nat) (msg : LsdInstantiateMsg)
      (label salt : String)
  | bankSend (toAddress : String) (amount : List Coin)
  | ibcTransfer (transfer : IbcTransfer)
  | submitTx (tx : SubmitTx)
  | registerInterchainAccount (connectionId interchainAccountId : String)
      (registerFee : Option (List Coin))
  | registerInterchainQuery (connectionId : String) (keys : KVKeys)
      (updatePeriod : Nat)
  | updateInterchainQuery (queryId : Nat) (newKeys : Option KVKeys)
      (newUpdatePeriod : Option Nat)

/-- A message with the id under which its reply is wanted.  `payload` is the
payload handed to `msg_with_sudo_callback`; it is only there to state
properties, no definition of the contract or of the chain reads it. -/
structure SubMsg where
  msg : CosmosMsg
  replyOnSuccess : Option Nat
  payload : Option SudoPayload

structure Response where
  messages : List SubMsg
  attributes : List (String × String)

namespace Response

def new : Response := ⟨[], []⟩

def addSubmessage (rsp : Response) (sub : SubMsg) : Response :=
  { rsp with messages := rsp.messages ++ [sub] }

def addMessage (rsp : Response) (msg : CosmosMsg) : Response :=
  rsp.addSubmessage ⟨msg, none, none⟩

def addMessages (rsp : Response) (msgs : List CosmosMsg) : Response :=
  { rsp with messages := rsp.messages ++ msgs.map (⟨·, none, none⟩) }

def addSubmessages (rsp : Response) (subs : List SubMsg) : Response :=
  { rsp with messages := rsp.messages ++ subs }

def addAttribute (rsp : Response) (key value : String) : Response :=
  { rsp with attributes := rsp.attributes ++ [(key, value)] }

variable (rsp : Response)

@[simp] theorem new_messages : new.messages = [] := rfl

@[simp] theorem addSubmessage_messages (sub : SubMsg) :
    (rsp.addSubmessage sub).messages = rsp.messages ++ [sub] := rfl

@[simp] theorem addMessage_messages (msg : CosmosMsg) :
    (rsp.addMessage msg).messages = rsp.messages ++ [⟨msg, none, none⟩] := rfl

@[simp] theorem addMessages_messages (msgs : List CosmosMsg) :
    (rsp.addMessages msgs).messages =
      rsp.messages ++ msgs.map (⟨·, none, none⟩) := rfl

@[simp] theorem addSubmessages_messages (subs : List SubMsg) :
    (rsp.addSubmessages subs).messages = rsp.messages ++ subs := rfl

@[simp] theorem addAttribute_messages (key value : String) :
    (rsp.addAttribute key value).messages = rsp.messages := rfl

end Response

/-! ### What the contract can ask -/

structure DenomTrace where
  path : String
  baseDenom : String

structure Delegation where
  delegator : String
  validator : String
  amount : Coin

structure Validator where
  operatorAddress : String
  tokens : String
  delegatorShares : String

structure RegisteredQuery where
  isKV : Bool
  lastSubmittedResultLocalHeight : Nat

/-- The answers of the chain and of its libraries during one call; `none` is a
failed query. -/
structure Querier where
  minIbcFee : Option IbcFee
  queryDeposit : Option (List Coin)
  denomTrace : String → Option DenomTrace
  registeredQuery : Nat → Option RegisteredQuery
  kvDelegations : Bool → Nat → Option (List Delegation)
  kvBalances : Bool → Nat → Option (List Coin)
  kvValidators : Nat → Option (List Validator)
  codeChecksum : Nat → Option String
  /-- checksum, creator and salt to the address of the new contract -/
  instantiate2Address : String → String → String → Option String
  /-- whether the query library can decode the bech32 address -/
  decodeAndConvert : String → Bool
  addrValidate : String → Bool

def minNtrnIbcFee (fee : IbcFee) : IbcFee where
  recvFee := fee.recvFee.filter (·.denom = feeDenom)
  ackFee := fee.ackFee.filter (·.denom = feeDenom)
  timeoutFee := fee.timeoutFee.filter (·.denom = feeDenom)

/-- The amount of the first coin of a list, zero for none. -/
def firstAmount : List Coin → Nat
  | coin :: _ => coin.amount
  | [] => 0

def totalIbcFee (ibcFee : IbcFee) : NeutronResult Nat := do
  let recvAndAck ← Uint128.add (firstAmount ibcFee.recvFee)
    (firstAmount ibcFee.ackFee)
  Uint128.add recvAndAck (firstAmount ibcFee.timeoutFee)

/-- `query_min_ibc_fee` -/
def queryMinIbcFee (querier : Querier) : NeutronResult IbcFee :=
  orError querier.minIbcFee .std

/-- Whether the funds are a single coin of the fee denomination that covers
`total`. -/
def coversFee (funds : List Coin) (total : Nat) : Bool :=
  match funds with
  | [coin] => coin.denom = feeDenom ∧ total ≤ coin.amount
  | _ => false

def checkIbcFee (querier : Querier) (info : MessageInfo) :
    NeutronResult IbcFee := do
  let minFee ← queryMinIbcFee querier
  let ibcFee := minNtrnIbcFee minFee
  let total ← totalIbcFee ibcFee
  rejectIf (¬ coversFee info.funds total) .paramsErrorFundsNotMatch
  return ibcFee

def genDelegationTxs (delegator validator remoteDenom : String)
    (amountForThisValidator : Nat) : ProtobufAny where
  typeUrl := "/cosmos.staking.v1beta1.MsgDelegate"
  value := .delegate delegator validator ⟨remoteDenom, amountForThisValidator⟩

def genRedelegateTxs (delegator srcValidator targetValidator
    remoteDenom : String) (amountForThisValidator : Nat) : ProtobufAny where
  typeUrl := "/cosmos.staking.v1beta1.BeginRedelegate"
  value := .beginRedelegate delegator srcValidator targetValidator
    ⟨remoteDenom, amountForThisValidator⟩

def genUndelegateTxs (delegator validator remoteDenom : String)
    (amount : Nat) : ProtobufAny where
  typeUrl := "/cosmos.staking.v1beta1.MsgUndelegate"
  value := .undelegate delegator validator ⟨remoteDenom, amount⟩

def genWithdrawRewardTxs (delegator validator : String) : ProtobufAny where
  typeUrl := "/cosmos.distribution.v1beta1.MsgWithdrawDelegatorReward"
  value := .withdrawDelegatorReward delegator validator

def redeemTokenForShareMsg (delegator : String) (token : Coin) :
    ProtobufAny where
  typeUrl := "/cosmos.staking.v1beta1.MsgRedeemTokensForShares"
  value := .redeemTokenForShare delegator token

def genMsgSend (fromAddress toAddress denom : String) (amount : Nat) :
    ProtobufAny where
  typeUrl := "/cosmos.bank.v1beta1.MsgSend"
  value := .send fromAddress toAddress [⟨denom, amount⟩]

def getWithdrawIcaId (interchainAccountId : String) : String :=
  interchainAccountId ++ icaWithdrawSufix

def queryDenomTraceFromIbcDenom (querier : Querier) (ibcDenom : String) :
    NeutronResult DenomTrace :=
  match Text.split '/' ibcDenom with
  | [_, denomHash] => orError (querier.denomTrace denomHash) .std
  | _ => .error .denomNotMatch

def queryIcqRegisterFee (querier : Querier) : NeutronResult (List Coin) :=
  orError querier.queryDeposit .std

def totalIcqRegisterFee (fee : List Coin) : Nat :=
  firstAmount (fee.filter (·.denom = feeDenom))

/-- A delegation message for every validator in order; the first one also
gets the remainder of the division.  This is the loop of the bond and rebond
steps and of `execute_pool_delegate`. -/
def splitDelegations (delegator remoteDenom : String)
    (amountPerValidator remainder : Nat) : List String → List ProtobufAny
  | [] => []
  | first :: rest =>
      genDelegationTxs delegator first remoteDenom
          (amountPerValidator + remainder) ::
        rest.map fun validator =>
          genDelegationTxs delegator validator remoteDenom amountPerValidator

end StakeManager

end NeutronContracts
