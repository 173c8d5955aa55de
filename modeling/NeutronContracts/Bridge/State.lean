/-
The storage of the bridge contract and the keys of its proposals.

The integers of a proposal are of fixed width, since its key is made of their
bytes.  SHA-256 is a parameter: nothing else of the contract depends on it.
-/
import NeutronContracts.CosmWasm
import NeutronContracts.Lib.Bytes

namespace NeutronContracts.Bridge

structure BridgeInfo where
  admin : String
  threshold : Nat
  relayers : List String
deriving DecidableEq, Repr

/-- What a relayer votes for: a deposit on the source chain. -/
structure Content where
  chainId : UInt64
  depositNonce : UInt64
  resourceId : String
  recipient : String
  amount : BitVec 128
deriving DecidableEq, Repr

structure Proposal extends Content where
  executed : Bool
  voters : List String
deriving DecidableEq, Repr

/-- The proposal that the first vote starts from. -/
def Proposal.new (content : Content) : Proposal :=
  { content with
    executed := false
    voters := [] }

section

variable (sha256 : List UInt8 → List UInt8)

def hash (ty : String) (key : List UInt8) : List UInt8 :=
  sha256 (sha256 (Bytes.ofText ty) ++ key)

/-- The bytes that `get_proposal_id` hashes. -/
def proposalBytes (content : Content) : List UInt8 :=
  Bytes.bigEndian 8 content.chainId.toNat ++
    Bytes.bigEndian 8 content.depositNonce.toNat ++
    Bytes.ofText content.resourceId ++
    Bytes.ofText content.recipient ++
    Bytes.bigEndian 16 content.amount.toNat

def getProposalId (content : Content) : List UInt8 :=
  hash sha256 "proposalId" (proposalBytes content)

end

structure Storage where
  bridgeInfo : BridgeInfo
  proposals : Map (List UInt8) Proposal
  resourceIdToToken : Map String String

/-- The proposal a vote is added to: the stored one, or else a new one. -/
def Storage.proposalOf (storage : Storage) (key : List UInt8)
    (content : Content) : Proposal :=
  (storage.proposals key).getD (Proposal.new content)

end NeutronContracts.Bridge
