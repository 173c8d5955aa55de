/-
The entry points of the bridge contract that write its storage.
-/
import NeutronContracts.Bridge.State
import NeutronContracts.LsdToken.Token

namespace NeutronContracts.Bridge

open Fallible

inductive ContractError
  | std
  | unauthorized
  | notExist
  | relayersLenNotMatch
  | invalidAddress
  | duplicate
  | alreadyExecuted
deriving DecidableEq, Repr

abbrev Result := Except ContractError

structure InstantiateMsg where
  admin : String
  threshold : Nat
  relayers : List String

inductive ExecuteMsg
  | voteProposal (content : Content)
  | addRelayer (relayer : String)
  | removeRelayer (relayer : String)
  | addResourceIdToToken (resourceId token : String)
  | removeResourceId (resourceId : String)
  | changeThreshold (threshold : Nat)
  | transferAdmin (newAdmin : String)

/-- `WasmMsg::Execute` of a token message, without funds. -/
structure WasmMsg where
  contractAddr : String
  msg : LsdToken.ExecuteMsg

structure Response where
  messages : List WasmMsg
  attributes : List (String × String)

/-- The response of the administrative messages. -/
def Response.action (name : String) : Response := ⟨[], [("action", name)]⟩

def instantiate (msg : InstantiateMsg) : Result Storage := do
  rejectIf (msg.relayers.length < msg.threshold) .relayersLenNotMatch
  return {
    bridgeInfo := ⟨msg.admin, msg.threshold, msg.relayers⟩
    proposals := Map.empty
    resourceIdToToken := Map.empty }

/-- With enough votes a proposal is executed: its tokens are minted. -/
def tally (storage : Storage) (proposal : Proposal) :
    Result (Proposal × List WasmMsg) :=
  if storage.bridgeInfo.threshold ≤ proposal.voters.length then do
    let tokenAddress ←
      orError (storage.resourceIdToToken proposal.resourceId) .std
    return ({ proposal with executed := true },
      [⟨tokenAddress, .mint proposal.recipient proposal.amount.toNat⟩])
  else
    return (proposal, [])

def executeVoteProposal (sha256 : List UInt8 → List UInt8)
    (storage : Storage) (info : MessageInfo) (content : Content) :
    Result (Storage × Response) := do
  rejectIf (info.sender ∉ storage.bridgeInfo.relayers) .unauthorized
  let proposalId := getProposalId sha256 content
  let proposal := storage.proposalOf proposalId content
  rejectIf (info.sender ∈ proposal.voters) .duplicate
  rejectIf (proposal.executed = true) .alreadyExecuted
  let proposal :=
    { proposal with voters := proposal.voters ++ [info.sender] }
  let (proposal, messages) ← tally storage proposal
  return ({ storage with
      proposals := storage.proposals.save proposalId proposal },
    { messages := messages
      attributes :=
        [("action", "vote_proposal"),
          ("executed", toString proposal.executed),
          ("recipient", proposal.recipient),
          ("chain_id", toString content.chainId.toNat),
          ("deposit_nonce", toString proposal.depositNonce.toNat),
          ("resource_id", proposal.resourceId),
          ("amount", toString proposal.amount.toNat)] })

def executeAddRelayer (storage : Storage) (info : MessageInfo)
    (relayer : String) : Result (Storage × Response) := do
  let bridgeInfo := storage.bridgeInfo
  rejectIf (bridgeInfo.admin ≠ info.sender) .unauthorized
  rejectIf (relayer ∈ bridgeInfo.relayers) .duplicate
  let bridgeInfo :=
    { bridgeInfo with relayers := bridgeInfo.relayers ++ [relayer] }
  return ({ storage with bridgeInfo := bridgeInfo },
    .action "add_relayer")

def executeRemoveRelayer (storage : Storage) (info : MessageInfo)
    (relayer : String) : Result (Storage × Response) := do
  let bridgeInfo := storage.bridgeInfo
  rejectIf (bridgeInfo.admin ≠ info.sender) .unauthorized
  rejectIf (relayer ∉ bridgeInfo.relayers) .notExist
  let bridgeInfo :=
    { bridgeInfo with
      relayers := bridgeInfo.relayers.filter fun r =>
        decide (r ≠ relayer) }
  rejectIf (bridgeInfo.relayers.length < bridgeInfo.threshold)
    .relayersLenNotMatch
  return ({ storage with bridgeInfo := bridgeInfo },
    .action "remove_relayer")

def executeAddResourceIdToToken (storage : Storage) (info : MessageInfo)
    (resourceId token : String) : Result (Storage × Response) := do
  rejectIf (storage.bridgeInfo.admin ≠ info.sender) .unauthorized
  rejectIf ((storage.resourceIdToToken resourceId).isSome = true) .duplicate
  return ({ storage with
      resourceIdToToken := storage.resourceIdToToken.save resourceId token },
    .action "add_resource_id_to_token")

def executeRemoveResourceId (storage : Storage) (info : MessageInfo)
    (resourceId : String) : Result (Storage × Response) := do
  rejectIf (storage.bridgeInfo.admin ≠ info.sender) .unauthorized
  rejectIf ((storage.resourceIdToToken resourceId).isNone = true) .notExist
  return ({ storage with
      resourceIdToToken := storage.resourceIdToToken.remove resourceId },
    .action "remove_resource_id")

def executeChangeThreshold (storage : Storage) (info : MessageInfo)
    (threshold : Nat) : Result (Storage × Response) := do
  let bridgeInfo := storage.bridgeInfo
  rejectIf (bridgeInfo.admin ≠ info.sender) .unauthorized
  rejectIf (bridgeInfo.relayers.length < threshold) .relayersLenNotMatch
  return ({ storage with
      bridgeInfo := { bridgeInfo with threshold := threshold } },
    .action "change_threshold")

/-- `addr_validate` returns the text itself when it is an address. -/
def executeTransferAdmin (addrValidate : String → Bool) (storage : Storage)
    (info : MessageInfo) (newAdmin : String) :
    Result (Storage × Response) := do
  let bridgeInfo := storage.bridgeInfo
  rejectIf (bridgeInfo.admin ≠ info.sender) .unauthorized
  rejectIf (¬ addrValidate newAdmin = true) .invalidAddress
  return ({ storage with bridgeInfo := { bridgeInfo with admin := newAdmin } },
    .action "transfer_admin")

def execute (sha256 : List UInt8 → List UInt8) (addrValidate : String → Bool)
    (storage : Storage) (info : MessageInfo) :
    ExecuteMsg → Result (Storage × Response)
  | .voteProposal content => executeVoteProposal sha256 storage info content
  | .addRelayer relayer => executeAddRelayer storage info relayer
  | .removeRelayer relayer => executeRemoveRelayer storage info relayer
  | .addResourceIdToToken resourceId token =>
      executeAddResourceIdToToken storage info resourceId token
  | .removeResourceId resourceId =>
      executeRemoveResourceId storage info resourceId
  | .changeThreshold threshold =>
      executeChangeThreshold storage info threshold
  | .transferAdmin newAdmin =>
      executeTransferAdmin addrValidate storage info newAdmin

end NeutronContracts.Bridge
