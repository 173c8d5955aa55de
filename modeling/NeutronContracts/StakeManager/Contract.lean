/-
The entry points of the stake manager and the dispatch to their handlers.
-/
import NeutronContracts.StakeManager.EraCycle
import NeutronContracts.StakeManager.Lifecycle
import NeutronContracts.StakeManager.Lsm
import NeutronContracts.StakeManager.Staking
import NeutronContracts.StakeManager.Validators

namespace NeutronContracts.StakeManager

open Fallible

inductive ExecuteMsg
  | registerPool (connectionId interchainAccountId : String)
  | initPool (param : InitPoolParams)
  | migratePool (param : MigratePoolParams)
  | configPool (param : ConfigPoolParams)
  | configStack (param : ConfigStackParams)
  | openChannel (poolAddr closedChannelId : String)
  | redeemTokenForShare (poolAddr : String) (tokens : List Coin)
  | stake (neutronAddress poolAddr : String)
  | unstake (amount : Nat) (poolAddr : String)
  | withdraw (poolAddr receiver : String) (unstakeIndexList : List Nat)
  | poolRmValidator (poolAddr validatorAddr : String)
  | poolAddValidator (poolAddr validatorAddr : String)
  | poolUpdateValidator (poolAddr oldValidator newValidator : String)
  | poolUpdateValidatorsIcq (poolAddr : String)
  | poolDelegate (poolAddr : String) (stakeAmount : Nat)
  | eraUpdate (poolAddr : String)
  | eraBond (poolAddr : String) (selectVals : List String)
  | eraCollectWithdraw (poolAddr : String)
  | eraRebond (poolAddr : String) (selectVals : List String)
  | eraActive (poolAddr : String)
  | stakeLsm (neutronAddress poolAddr : String)
  | updateIcqUpdatePeriod (poolAddr : String) (newUpdatePeriod : Nat)

def execute (store : Storage) (querier : Querier) (env : Env)
    (info : MessageInfo) (msg : ExecuteMsg) :
    NeutronResult (Storage × Response) :=
  match msg with
  | .registerPool connectionId interchainAccountId =>
      executeRegisterPool store env info connectionId interchainAccountId
  | .initPool param => executeInitPool store querier env info param
  | .migratePool param => executeMigratePool store querier env info param
  | .configPool param => executeConfigPool store env info param
  | .configStack param => executeConfigStack store info param
  | .openChannel poolAddr closedChannelId =>
      executeOpenChannel store info poolAddr closedChannelId
  | .redeemTokenForShare poolAddr tokens =>
      executeRedeemTokenForShare store querier info poolAddr tokens
  | .stake neutronAddress poolAddr =>
      executeStake store neutronAddress poolAddr info
  | .unstake amount poolAddr => executeUnstake store info amount poolAddr
  | .withdraw poolAddr receiver unstakeIndexList =>
      executeWithdraw store querier info poolAddr receiver unstakeIndexList
  | .poolRmValidator poolAddr validatorAddr =>
      executeRmPoolValidator store querier info poolAddr validatorAddr
  | .poolAddValidator poolAddr validatorAddr =>
      executeAddPoolValidators store querier info poolAddr validatorAddr
  | .poolUpdateValidator poolAddr oldValidator newValidator =>
      executePoolUpdateValidator store querier info poolAddr oldValidator
        newValidator
  | .poolUpdateValidatorsIcq poolAddr =>
      executeUpdateValidatorsIcq store querier info poolAddr
  | .poolDelegate poolAddr stakeAmount =>
      executePoolDelegate store querier info poolAddr stakeAmount
  | .eraUpdate poolAddr => executeEraUpdate store querier env info poolAddr
  | .eraBond poolAddr selectVals =>
      executeEraBond store querier env info poolAddr selectVals
  | .eraCollectWithdraw poolAddr =>
      executeEraCollectWithdraw store querier info poolAddr
  | .eraRebond poolAddr selectVals =>
      executeEraRebond store querier info poolAddr selectVals
  | .eraActive poolAddr => executeEraActive store querier poolAddr
  | .stakeLsm neutronAddress poolAddr =>
      executeStakeLsm store querier env info neutronAddress poolAddr
  | .updateIcqUpdatePeriod poolAddr newUpdatePeriod =>
      updateIcqUpdatePeriod store info poolAddr newUpdatePeriod

def sudoCallback (store : Storage) (env : Env) (payload : SudoPayload) :
    NeutronResult (Storage × Response) :=
  match payload.txType with
  | .setWithdrawAddr => sudoSetWithdrawAddrCallback store payload
  | .eraUpdate => sudoEraUpdateCallback store env payload
  | .eraBond => sudoEraBondCallback store env payload
  | .eraCollectWithdraw => sudoEraCollectWithdrawCallback store env payload
  | .eraRebond => sudoEraRebondCallback store env payload
  | .userWithdraw => sudoWithdrawCallback store payload
  | .updateValidator => sudoUpdateValidatorCallback store payload
  | .rmValidator => sudoRmValidatorCallback store payload
  | .stakeLsm => sudoStakeLsmCallback store payload
  | .redeemTokenForShare => sudoRedeemTokenForShareCallback store payload

def sudoFailedCallback (store : Storage) (payload : SudoPayload) :
    NeutronResult (Storage × Response) :=
  match payload.txType with
  | .setWithdrawAddr => sudoSetWithdrawAddrFailedCallback store payload
  | .eraUpdate => sudoEraUpdateFailedCallback store payload
  | .eraBond => sudoEraBondFailedCallback store payload
  | .eraCollectWithdraw => sudoEraCollectWithdrawFailedCallback store payload
  | .eraRebond => sudoEraRebondFailedCallback store payload
  | .userWithdraw => sudoWithdrawFailedCallback store payload
  | .updateValidator => sudoUpdateValidatorFailedCallback store payload
  | .rmValidator => sudoRmValidatorFailedCallback store payload
  | .stakeLsm => sudoStakeLsmFailedCallback store payload
  | .redeemTokenForShare => sudoRedeemTokenForShareFailedCallback store payload

/-- The packet an answer is about. -/
structure RequestPacket where
  sequence : Option Nat
  sourceChannel : Option String

/-- The common beginning of `sudo_response`, `sudo_error` and `sudo_timeout`:
look up the payload of the packet and remove it. -/
def takeSudoPayload (store : Storage) (req : RequestPacket) :
    NeutronResult (Storage × SudoPayload) := do
  let seqId ← orError req.sequence .callBackErrSequenceNotFound
  let channelId ← orError req.sourceChannel .callBackErrChannelIdNotFound
  let payload ←
    orError (store.sudoPayload (channelId, seqId)) .callBackErrErrorMsg
  return ({ store with
    sudoPayload := store.sudoPayload.remove (channelId, seqId) }, payload)

def sudoResponse (store : Storage) (env : Env) (req : RequestPacket) :
    NeutronResult (Storage × Response) := do
  let (store, payload) ← takeSudoPayload store req
  sudoCallback store env payload

def sudoError (store : Storage) (req : RequestPacket) :
    NeutronResult (Storage × Response) := do
  let (store, payload) ← takeSudoPayload store req
  sudoFailedCallback store payload

def sudoTimeout (store : Storage) (req : RequestPacket) :
    NeutronResult (Storage × Response) := do
  let (store, payload) ← takeSudoPayload store req
  sudoFailedCallback store payload

/-- `other` stands for the messages that are answered without a handler. -/
inductive SudoMsg
  | response (request : RequestPacket)
  | error (request : RequestPacket)
  | timeout (request : RequestPacket)
  | kvQueryResult (queryId : Nat)
  | openAck (portId channelId counterpartyChannelId : String)
      (counterpartyVersion : Option OpenAckVersion)
  | other

/-- The entry point `sudo`; the name is reserved here. -/
def sudoEntry (store : Storage) (env : Env) (msg : SudoMsg) :
    NeutronResult (Storage × Response) :=
  match msg with
  | .response request => sudoResponse store env request
  | .error request => sudoError store request
  | .timeout request => sudoTimeout store request
  | .kvQueryResult queryId => sudoKvQueryResult store queryId
  | .openAck portId channelId counterpartyChannelId counterpartyVersion =>
      sudoOpenAck store portId channelId counterpartyChannelId
        counterpartyVersion
  | .other => return (store, Response.new)

end NeutronContracts.StakeManager
