/-
The bridge on its chain.  A transaction takes effect as a whole or not at all:
when the token refuses the Mint of a vote, the vote is undone with it.  The
proposals then are polls whose quorum is the threshold of the moment, and a
Mint is emitted with the vote that closes the poll.
-/
import NeutronContracts.Bridge.Contract
import NeutronContracts.Lib.Poll
import NeutronContracts.Lib.Transition

namespace NeutronContracts.Bridge

open Fallible

/-- A message to the contract, with what the chain and the token that receives
a Mint make of it. -/
structure Transaction where
  info : MessageInfo
  msg : ExecuteMsg
  addrValidate : String → Bool
  tokenAccepts : Bool

section

variable (sha256 : List UInt8 → List UInt8)

/-- The storage that a transaction leads to and the messages it emits, unless
it is undone. -/
def outcome (storage : Storage) (tx : Transaction) :
    Option (Storage × List WasmMsg) :=
  match execute sha256 tx.addrValidate storage tx.info tx.msg with
  | .ok (storage', res) =>
      if res.messages = [] ∨ tx.tokenAccepts = true then
        some (storage', res.messages)
      else none
  | .error _ => none

/-- Every transaction is on the chain; one that is undone changes nothing. -/
def step (storage : Storage) (tx : Transaction) : Option Storage :=
  some (((outcome sha256 storage tx).map Prod.fst).getD storage)

/-- What a transaction that is not undone does. -/
inductive Move (storage : Storage) (tx : Transaction) :
    Storage → List WasmMsg → Prop
  | voted (content : Content) (proposal : Proposal) (messages : List WasmMsg)
      (hmsg : tx.msg = .voteProposal content)
      (hmember : tx.info.sender ∈ storage.bridgeInfo.relayers)
      (hfresh : tx.info.sender ∉
        (storage.proposalOf (getProposalId sha256 content) content).voters)
      (hopen : (storage.proposalOf (getProposalId sha256 content)
        content).executed = false)
      (htally : tally storage
        { storage.proposalOf (getProposalId sha256 content) content with
          voters := (storage.proposalOf (getProposalId sha256 content)
            content).voters ++ [tx.info.sender] } =
          .ok (proposal, messages)) :
      Move storage tx
        { storage with
          proposals := storage.proposals.save
            (getProposalId sha256 content) proposal } messages
  | relayerAdded (relayer : String) (hmsg : tx.msg = .addRelayer relayer)
      (hadmin : storage.bridgeInfo.admin = tx.info.sender)
      (hnew : relayer ∉ storage.bridgeInfo.relayers) :
      Move storage tx
        { storage with
          bridgeInfo := { storage.bridgeInfo with
            relayers := storage.bridgeInfo.relayers ++ [relayer] } } []
  | relayerRemoved (relayer : String)
      (hmsg : tx.msg = .removeRelayer relayer)
      (hadmin : storage.bridgeInfo.admin = tx.info.sender)
      (hmember : relayer ∈ storage.bridgeInfo.relayers)
      (henough : storage.bridgeInfo.threshold ≤
        (storage.bridgeInfo.relayers.filter fun r =>
          decide (r ≠ relayer)).length) :
      Move storage tx
        { storage with
          bridgeInfo := { storage.bridgeInfo with
            relayers := storage.bridgeInfo.relayers.filter fun r =>
              decide (r ≠ relayer) } } []
  | tokenAdded (resourceId token : String)
      (hmsg : tx.msg = .addResourceIdToToken resourceId token)
      (hadmin : storage.bridgeInfo.admin = tx.info.sender)
      (hnew : storage.resourceIdToToken resourceId = none) :
      Move storage tx
        { storage with
          resourceIdToToken :=
            storage.resourceIdToToken.save resourceId token } []
  | tokenRemoved (resourceId : String)
      (hmsg : tx.msg = .removeResourceId resourceId)
      (hadmin : storage.bridgeInfo.admin = tx.info.sender)
      (hthere : (storage.resourceIdToToken resourceId).isSome) :
      Move storage tx
        { storage with
          resourceIdToToken :=
            storage.resourceIdToToken.remove resourceId } []
  | thresholdChanged (threshold : Nat)
      (hmsg : tx.msg = .changeThreshold threshold)
      (hadmin : storage.bridgeInfo.admin = tx.info.sender)
      (henough : threshold ≤ storage.bridgeInfo.relayers.length) :
      Move storage tx
        { storage with
          bridgeInfo := { storage.bridgeInfo with threshold := threshold } }
        []
  | adminTransferred (newAdmin : String)
      (hmsg : tx.msg = .transferAdmin newAdmin)
      (hadmin : storage.bridgeInfo.admin = tx.info.sender)
      (hvalid : tx.addrValidate newAdmin = true) :
      Move storage tx
        { storage with
          bridgeInfo := { storage.bridgeInfo with admin := newAdmin } } []

end

variable {sha256 : List UInt8 → List UInt8} {s s' : Storage}
  {tx : Transaction} {messages : List WasmMsg}

theorem instantiate_eq_ok {msg : InstantiateMsg} :
    instantiate msg = .ok s ↔ msg.threshold ≤ msg.relayers.length ∧
      s =
        { bridgeInfo := ⟨msg.admin, msg.threshold, msg.relayers⟩
          proposals := Map.empty
          resourceIdToToken := Map.empty } := by
  simp only [instantiate, bind_eq_ok, rejectIf_eq_ok, pure_eq_ok, Nat.not_lt,
    exists_const, eq_comm (a := s)]

theorem tally_eq_ok {proposal proposal' : Proposal} :
    tally s proposal = .ok (proposal', messages) ↔
      (s.bridgeInfo.threshold ≤ proposal.voters.length ∧
        ∃ token, s.resourceIdToToken proposal.resourceId = some token ∧
          proposal' = { proposal with executed := true } ∧
          messages = [⟨token,
            .mint proposal.recipient proposal.amount.toNat⟩]) ∨
      (proposal.voters.length < s.bridgeInfo.threshold ∧
        proposal' = proposal ∧ messages = []) := by
  unfold tally
  by_cases hquorum : s.bridgeInfo.threshold ≤ proposal.voters.length
  · simp only [hquorum, if_true, bind_eq_ok, orError_eq_ok, pure_eq_ok,
      Prod.mk.injEq, true_and, Nat.not_lt.mpr hquorum, false_and, or_false]
    constructor
    · rintro ⟨token, htoken, rfl, rfl⟩
      exact ⟨token, htoken, rfl, rfl⟩
    · rintro ⟨token, htoken, rfl, rfl⟩
      exact ⟨token, htoken, rfl, rfl⟩
  · simp only [hquorum, if_false, pure_eq_ok, Prod.mk.injEq, false_and,
      false_or, Nat.not_le.mp hquorum, true_and]
    constructor
    · rintro ⟨rfl, rfl⟩
      exact ⟨rfl, rfl⟩
    · rintro ⟨rfl, rfl⟩
      exact ⟨rfl, rfl⟩

/-- Each message of the contract, when it is accepted, is one of the moves. -/
theorem move_of_execute {res : Response}
    (h : execute sha256 tx.addrValidate s tx.info tx.msg = .ok (s', res)) :
    Move sha256 s tx s' res.messages := by
  cases hmsg : tx.msg with
  | voteProposal content =>
      simp only [hmsg, execute, executeVoteProposal, bind_eq_ok,
        rejectIf_eq_ok, pure_eq_ok, Prod.mk.injEq, Prod.exists, not_not,
        Bool.not_eq_true] at h
      obtain ⟨_, hmember, _, hfresh, _, hopen, proposal, messages, htally,
        rfl, rfl⟩ := h
      exact .voted content proposal messages hmsg hmember hfresh hopen htally
  | addRelayer relayer =>
      simp only [hmsg, execute, executeAddRelayer, bind_eq_ok, rejectIf_eq_ok,
        pure_eq_ok, Prod.mk.injEq, not_not, ne_eq] at h
      obtain ⟨_, hadmin, _, hnew, rfl, rfl⟩ := h
      exact .relayerAdded relayer hmsg hadmin hnew
  | removeRelayer relayer =>
      simp only [hmsg, execute, executeRemoveRelayer, bind_eq_ok,
        rejectIf_eq_ok, pure_eq_ok, Prod.mk.injEq, not_not, Nat.not_lt,
        ne_eq] at h
      obtain ⟨_, hadmin, _, hmember, _, henough, rfl, rfl⟩ := h
      exact .relayerRemoved relayer hmsg hadmin hmember henough
  | addResourceIdToToken resourceId token =>
      simp only [hmsg, execute, executeAddResourceIdToToken, bind_eq_ok,
        rejectIf_eq_ok, pure_eq_ok, Prod.mk.injEq, not_not, ne_eq,
        Bool.not_eq_true, Option.isSome_eq_false_iff,
        Option.isNone_iff_eq_none] at h
      obtain ⟨_, hadmin, _, hnew, rfl, rfl⟩ := h
      exact .tokenAdded resourceId token hmsg hadmin hnew
  | removeResourceId resourceId =>
      simp only [hmsg, execute, executeRemoveResourceId, bind_eq_ok,
        rejectIf_eq_ok, pure_eq_ok, Prod.mk.injEq, not_not, ne_eq,
        Bool.not_eq_true, Option.isNone_eq_false_iff] at h
      obtain ⟨_, hadmin, _, hthere, rfl, rfl⟩ := h
      exact .tokenRemoved resourceId hmsg hadmin hthere
  | changeThreshold threshold =>
      simp only [hmsg, execute, executeChangeThreshold, bind_eq_ok,
        rejectIf_eq_ok, pure_eq_ok, Prod.mk.injEq, not_not, Nat.not_lt,
        ne_eq] at h
      obtain ⟨_, hadmin, _, henough, rfl, rfl⟩ := h
      exact .thresholdChanged threshold hmsg hadmin henough
  | transferAdmin newAdmin =>
      simp only [hmsg, execute, executeTransferAdmin, bind_eq_ok,
        rejectIf_eq_ok, pure_eq_ok, Prod.mk.injEq, not_not, ne_eq] at h
      obtain ⟨_, hadmin, _, hvalid, rfl, rfl⟩ := h
      exact .adminTransferred newAdmin hmsg hadmin hvalid

theorem outcome_eq_some :
    outcome sha256 s tx = some (s', messages) ↔
      ∃ res, execute sha256 tx.addrValidate s tx.info tx.msg =
          .ok (s', res) ∧
        (res.messages = [] ∨ tx.tokenAccepts = true) ∧
        res.messages = messages := by
  unfold outcome
  cases hres : execute sha256 tx.addrValidate s tx.info tx.msg with
  | error e => simp
  | ok out =>
      obtain ⟨storage', res⟩ := out
      by_cases hkept : res.messages = [] ∨ tx.tokenAccepts = true
      · simp only [hkept, if_true, Option.some.injEq, Prod.mk.injEq,
          Except.ok.injEq]
        constructor
        · rintro ⟨rfl, rfl⟩
          exact ⟨res, ⟨rfl, rfl⟩, hkept, rfl⟩
        · rintro ⟨_, ⟨rfl, rfl⟩, -, rfl⟩
          exact ⟨rfl, rfl⟩
      · simp only [hkept, if_false, reduceCtorEq, Except.ok.injEq,
          Prod.mk.injEq, false_iff]
        rintro ⟨_, ⟨rfl, rfl⟩, hkept', rfl⟩
        exact hkept hkept'

theorem move_of_outcome (h : outcome sha256 s tx = some (s', messages)) :
    Move sha256 s tx s' messages := by
  obtain ⟨res, hres, -, rfl⟩ := outcome_eq_some.mp h
  exact move_of_execute hres

theorem step_cases (h : step sha256 s tx = some s') :
    (outcome sha256 s tx = none ∧ s' = s) ∨
      ∃ messages, outcome sha256 s tx = some (s', messages) := by
  simp only [step, Option.some.injEq] at h
  cases houtcome : outcome sha256 s tx with
  | none =>
      rw [houtcome] at h
      exact .inl ⟨rfl, h.symm⟩
  | some out =>
      rw [houtcome] at h
      exact .inr ⟨out.2, congrArg some (Prod.ext h rfl)⟩

theorem step_of_outcome (h : outcome sha256 s tx = some (s', messages)) :
    step sha256 s tx = some s' := by
  rw [step, h]
  rfl

/-! ### Votes -/

/-- A vote, with the governance it was cast under. -/
structure Ballot where
  key : List UInt8
  content : Content
  voter : String
  bridgeInfo : BridgeInfo
deriving DecidableEq, Repr

/-- The votes of a run, and the key of the vote for every Mint emitted. -/
structure History where
  ballots : List Ballot
  minted : List (List UInt8)
deriving DecidableEq, Repr

def History.empty : History := ⟨[], []⟩

def History.record (history : History) (ballot : Ballot)
    (messages : List WasmMsg) : History where
  ballots := history.ballots ++ [ballot]
  minted := history.minted ++ messages.map fun _ => ballot.key

def ballotOf (sha256 : List UInt8 → List UInt8) (s : Storage)
    (tx : Transaction) (content : Content) : Ballot :=
  ⟨getProposalId sha256 content, content, tx.info.sender, s.bridgeInfo⟩

@[simp] theorem ballotOf_key (content : Content) :
    (ballotOf sha256 s tx content).key = getProposalId sha256 content := rfl

@[simp] theorem ballotOf_voter (content : Content) :
    (ballotOf sha256 s tx content).voter = tx.info.sender := rfl

def keepHistory (sha256 : List UInt8 → List UInt8) (history : History)
    (s : Storage) (tx : Transaction) (_ : Storage) : History :=
  match tx.msg, outcome sha256 s tx with
  | .voteProposal content, some (_, messages) =>
      history.record (ballotOf sha256 s tx content) messages
  | _, _ => history

theorem keepHistory_vote {history : History} {content : Content}
    (hmsg : tx.msg = .voteProposal content)
    (h : outcome sha256 s tx = some (s', messages)) :
    keepHistory sha256 history s tx s' =
      history.record (ballotOf sha256 s tx content) messages := by
  rw [keepHistory, hmsg, h]

def Proposal.poll (proposal : Proposal) : Poll String :=
  ⟨proposal.voters, proposal.executed⟩

/-- A vote of an account that may cast it: the poll of the proposal gets one
more voter, and tokens are minted when that closes it. -/
structure Voted (sha256 : List UInt8 → List UInt8) (s : Storage)
    (tx : Transaction) (content : Content) (proposal : Proposal)
    (messages : List WasmMsg) (s' : Storage) : Prop where
  member : tx.info.sender ∈ s.bridgeInfo.relayers
  fresh : tx.info.sender ∉
    (s.proposalOf (getProposalId sha256 content) content).voters
  unexecuted : (s.proposalOf (getProposalId sha256 content)
    content).executed = false
  sameContent : proposal.toContent =
    (s.proposalOf (getProposalId sha256 content) content).toContent
  poll : proposal.poll =
    (s.proposalOf (getProposalId sha256 content) content).poll.add
      s.bridgeInfo.threshold tx.info.sender
  mints : messages.length = if proposal.executed then 1 else 0
  proposals : s'.proposals =
    s.proposals.save (getProposalId sha256 content) proposal

/-- A proposal with one more vote, put to the tally. -/
theorem poll_of_tally {proposal proposal' : Proposal} {voter : String}
    (hopen : proposal.executed = false)
    (htally : tally s
      { proposal with voters := proposal.voters ++ [voter] } =
        .ok (proposal', messages)) :
    proposal'.toContent = proposal.toContent ∧
      proposal'.poll = proposal.poll.add s.bridgeInfo.threshold voter ∧
      messages.length = if proposal'.executed then 1 else 0 := by
  rcases tally_eq_ok.mp htally with
    ⟨hquorum, token, htoken, rfl, rfl⟩ | ⟨hquorum, rfl, rfl⟩
  · rw [List.length_append, List.length_singleton] at hquorum
    simp [Proposal.poll, Poll.add, hquorum]
  · rw [List.length_append, List.length_singleton] at hquorum
    simp [Proposal.poll, Poll.add, hopen, hquorum]

/-- An accepted vote message is a vote. -/
theorem voted_of_outcome {content : Content}
    (hmsg : tx.msg = .voteProposal content)
    (h : outcome sha256 s tx = some (s', messages)) :
    ∃ proposal, Voted sha256 s tx content proposal messages s' := by
  cases move_of_outcome h with
  | voted other proposal _ hother hmember hfresh hopen htally =>
      cases hmsg.symm.trans hother
      obtain ⟨hcontent, hpoll, hmints⟩ := poll_of_tally hopen htally
      exact ⟨proposal,
        { member := hmember
          fresh := hfresh
          unexecuted := hopen
          sameContent := hcontent
          poll := hpoll
          mints := hmints
          proposals := rfl }⟩
  | relayerAdded _ hother => cases hmsg.symm.trans hother
  | relayerRemoved _ hother => cases hmsg.symm.trans hother
  | tokenAdded _ _ hother => cases hmsg.symm.trans hother
  | tokenRemoved _ hother => cases hmsg.symm.trans hother
  | thresholdChanged _ hother => cases hmsg.symm.trans hother
  | adminTransferred _ hother => cases hmsg.symm.trans hother

/-- What a transaction means for the proposals: nothing, or one vote. -/
theorem history_of_step (history : History)
    (h : step sha256 s tx = some s') :
    (s'.proposals = s.proposals ∧
        keepHistory sha256 history s tx s' = history) ∨
      ∃ content proposal messages, tx.msg = .voteProposal content ∧
        outcome sha256 s tx = some (s', messages) ∧
        Voted sha256 s tx content proposal messages s' ∧
        keepHistory sha256 history s tx s' =
          history.record (ballotOf sha256 s tx content) messages := by
  unfold keepHistory
  rcases step_cases h with ⟨hundone, rfl⟩ | ⟨messages, houtcome⟩
  · left
    rw [hundone]
    refine ⟨rfl, ?_⟩
    split
    · rename_i heq
      cases heq
    · rfl
  · rw [houtcome]
    cases move_of_outcome houtcome with
    | voted content proposal _ hmsg =>
        obtain ⟨proposal, hvoted⟩ := voted_of_outcome hmsg houtcome
        exact .inr ⟨content, proposal, messages, hmsg, rfl, hvoted,
          by rw [hmsg]⟩
    | relayerAdded _ hmsg => exact .inl ⟨rfl, by rw [hmsg]⟩
    | relayerRemoved _ hmsg => exact .inl ⟨rfl, by rw [hmsg]⟩
    | tokenAdded _ _ hmsg => exact .inl ⟨rfl, by rw [hmsg]⟩
    | tokenRemoved _ hmsg => exact .inl ⟨rfl, by rw [hmsg]⟩
    | thresholdChanged _ hmsg => exact .inl ⟨rfl, by rw [hmsg]⟩
    | adminTransferred _ hmsg => exact .inl ⟨rfl, by rw [hmsg]⟩

/-! ### Proposals as polls -/

/-- The poll box behind a storage, its closings the mints so far. -/
def Storage.box (s : Storage) (minted : List (List UInt8)) :
    Poll.Box (List UInt8) String where
  polls key := (s.proposals key).map Proposal.poll
  closings := minted

@[simp] theorem Storage.box_polls {minted : List (List UInt8)}
    {key : List UInt8} :
    (s.box minted).polls key = (s.proposals key).map Proposal.poll := rfl

theorem Storage.pollOf_box {minted : List (List UInt8)} {key : List UInt8}
    (content : Content) :
    (s.box minted).pollOf key = (s.proposalOf key content).poll := by
  simp only [Poll.Box.pollOf, Storage.box, Storage.proposalOf]
  cases s.proposals key with
  | none => rfl
  | some proposal => rfl

/-- A vote of the contract is a vote of its poll box. -/
theorem Voted.box {content : Content} {proposal : Proposal}
    (h : Voted sha256 s tx content proposal messages s')
    (minted : List (List UInt8)) :
    (s.box minted).vote s.bridgeInfo.threshold
      (getProposalId sha256 content) tx.info.sender =
        some (s'.box (minted ++
          messages.map fun _ => getProposalId sha256 content)) := by
  have hpolls : (s'.box minted).polls =
      (s.box minted).polls.save (getProposalId sha256 content)
        proposal.poll := by
    funext key
    simp only [Storage.box_polls, h.proposals, Map.save_apply]
    by_cases hkey : key = getProposalId sha256 content
    · simp [hkey]
    · simp [hkey]
  have hclosed : proposal.poll.closed = proposal.executed := rfl
  rw [Poll.Box.vote_eq_some, Storage.pollOf_box content, ← h.poll]
  refine ⟨h.fresh, h.unexecuted, congrArg₂ Poll.Box.mk hpolls ?_⟩
  rw [List.map_const', h.mints, hclosed]
  by_cases hexecuted : proposal.executed = true
  · simp [hexecuted, Storage.box]
  · simp [hexecuted, Storage.box]

/-! ### Sample transactions -/

namespace Sample

def deposit : Content :=
  ⟨1, 7, "rETH", "neutron1recipient", 500⟩

/-- Three relayers, two of whom have to agree. -/
def threeRelayers : InstantiateMsg :=
  ⟨"neutron1admin", 2, ["relayer1", "relayer2", "relayer3"]⟩

/-- A transaction of an account whose Mint, if any, the token accepts. -/
def call (sender : String) (msg : ExecuteMsg) : Transaction :=
  ⟨⟨sender, []⟩, msg, fun _ => true, true⟩

def govern (msg : ExecuteMsg) : Transaction := call "neutron1admin" msg

def vote (sender : String) : Transaction := call sender (.voteProposal deposit)

/-- The storage after `instantiate`, with the token of the deposit. -/
def start (msg : InstantiateMsg) : Storage where
  bridgeInfo := ⟨msg.admin, msg.threshold, msg.relayers⟩
  proposals := Map.empty
  resourceIdToToken := Map.empty

def register : Transaction :=
  govern (.addResourceIdToToken "rETH" "neutron1token")

end Sample

end NeutronContracts.Bridge
