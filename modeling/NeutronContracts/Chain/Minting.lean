/-
The bridge on its chain beside the tokens it mints.  A vote and the Mint it
emits take effect together or not at all.
-/
import NeutronContracts.Chain.Bridge
import NeutronContracts.LsdToken.Ledger
import NeutronContracts.Lib.Holdings

namespace NeutronContracts.Bridge

open Fallible Holdings

/-- What stays the same during a run. -/
structure Setting where
  /-- the address of the bridge -/
  self : String
  sha256 : List UInt8 → List UInt8
  addrValidate : String → Bool
  /-- the addresses of token contracts -/
  isToken : String → Bool

structure MintChain where
  bridge : Storage
  tokens : Map String LsdToken.Token

inductive MintAction
  /-- a message to the bridge; `foreign` is what a contract that is no token
  makes of a Mint -/
  | bridge (info : MessageInfo) (msg : ExecuteMsg) (foreign : Bool)
  | create (address : String) (msg : LsdToken.InstantiateMsg)
  | token (address sender : String) (msg : LsdToken.ExecuteMsg)

structure MintEvent where
  block : BlockInfo
  action : MintAction

/-- The amounts of the executed proposals, by their keys. -/
def Storage.executedAmounts (storage : Storage) : Book (List UInt8) :=
  fun key =>
    match storage.proposals key with
    | some proposal => if proposal.executed then proposal.amount.toNat else 0
    | none => 0

namespace MintChain

variable (net : Setting)

/-- Execute a message of the bridge; `none` when it is refused. -/
def deliver (chain : LsdToken.Chain) (foreign : Bool) (c : MintChain)
    (wasm : WasmMsg) : Option MintChain :=
  if net.isToken wasm.contractAddr then
    match c.tokens wasm.contractAddr with
    | none => none
    | some token =>
        match LsdToken.execute token chain net.self wasm.msg with
        | .ok (token, _) =>
            some { c with tokens := c.tokens.save wasm.contractAddr token }
        | .error _ => none
  else if foreign then some c
  else none

/-- The bridge does not take tokens that come with a message. -/
def taken (received : Option LsdToken.Cw20ReceiveMsg) : Prop :=
  ∀ call ∈ received, call.contract ≠ net.self

instance (received : Option LsdToken.Cw20ReceiveMsg) :
    Decidable (taken net received) :=
  inferInstanceAs (Decidable (∀ call ∈ received, call.contract ≠ net.self))

/-- What an action does; `none` when it is undone as a whole. -/
def act (c : MintChain) (ev : MintEvent) : Option MintChain :=
  let chain : LsdToken.Chain := ⟨ev.block, net.addrValidate⟩
  match ev.action with
  | .bridge info msg foreign =>
      match execute net.sha256 net.addrValidate c.bridge info msg with
      | .error _ => none
      | .ok (bridge, res) =>
          res.messages.foldlM (deliver net chain foreign)
            { c with bridge := bridge }
  | .create address msg =>
      if net.isToken address = true ∧ (c.tokens address).isNone = true then
        match LsdToken.instantiate chain msg with
        | .error _ => none
        | .ok token => some { c with tokens := c.tokens.save address token }
      else none
  | .token address sender msg =>
      if sender = net.self then none
      else
        match c.tokens address with
        | none => none
        | some token =>
            match LsdToken.execute token chain sender msg with
            | .error _ => none
            | .ok (token, received) =>
                if taken net received then
                  some { c with tokens := c.tokens.save address token }
                else none

/-- Every transaction is on the chain; one that is undone changes nothing. -/
def step (c : MintChain) (ev : MintEvent) : Option MintChain :=
  some ((act net c ev).getD c)

/-- The chain right after the bridge has been instantiated.  There may be
tokens already. -/
structure Genesis (c : MintChain) : Prop where
  instantiated : ∃ msg, instantiate msg = .ok c.bridge
  tokens : ∀ address, net.isToken address = false → c.tokens address = none

/-! ### The ledger of the mints -/

/-- What every token began with, and what was added to it by the bridge and by
others, and taken from it, since. -/
structure Supply where
  issued : Book String
  bridged : Book String
  granted : Book String
  burned : Book String

def Supply.start (c : MintChain) : Supply where
  issued address :=
    ((c.tokens address).map (·.info.totalSupply)).getD 0
  bridged := empty
  granted := empty
  burned := empty

/-- The proposal that a vote has executed, with the token of its resource. -/
def executedBy (c : MintChain) (content : Content) (c' : MintChain) :
    Option (String × Proposal) :=
  let key := getProposalId net.sha256 content
  match c'.bridge.proposals key with
  | some proposal =>
      if (c.bridge.proposalOf key content).executed = false ∧
          proposal.executed = true then
        (c.bridge.resourceIdToToken proposal.resourceId).map (·, proposal)
      else none
  | none => none

/-- The ledger after an event that is not undone. -/
def Supply.note (supply : Supply) (c : MintChain) (action : MintAction)
    (c' : MintChain) : Supply :=
  match action with
  | .bridge _ (.voteProposal content) _ =>
      match executedBy net c content c' with
      | some (address, proposal) =>
          { supply with
            bridged := add supply.bridged address proposal.amount.toNat }
      | none => supply
  | .bridge _ _ _ => supply
  | .create address _ =>
      { supply with
        issued := add supply.issued address
          (((c'.tokens address).map (·.info.totalSupply)).getD 0) }
  | .token address _ msg =>
      { supply with
        granted := add supply.granted address msg.minted
        burned := add supply.burned address msg.burned }

def Supply.observe (supply : Supply) (c : MintChain) (ev : MintEvent)
    (c' : MintChain) : Supply :=
  if (act net c ev).isSome then supply.note net c ev.action c' else supply

/-! ### What an event does -/

/-- The Mint of a proposal has reached its token. -/
structure Minted (chain : LsdToken.Chain) (address : String)
    (proposal : Proposal) (c c' : MintChain) : Prop where
  token : net.isToken address = true → ∃ token token',
    c.tokens address = some token ∧
    LsdToken.executeMint token chain net.self proposal.recipient
      proposal.amount.toNat = .ok token' ∧
    c'.tokens = c.tokens.save address token'
  foreign : net.isToken address = false → c'.tokens = c.tokens

inductive Effect (c : MintChain) (ev : MintEvent) (c' : MintChain) : Prop
  /-- The bridge changes, and nothing is minted. -/
  | governed (info : MessageInfo) (msg : ExecuteMsg) (foreign : Bool)
      (haction : ev.action = .bridge info msg foreign)
      (hamounts : c'.bridge.executedAmounts = c.bridge.executedAmounts)
      (hnone : ∀ content, msg = .voteProposal content →
        executedBy net c content c' = none)
      (htokens : c'.tokens = c.tokens)
  | minted (info : MessageInfo) (content : Content) (foreign : Bool)
      (address : String) (proposal : Proposal)
      (haction : ev.action = .bridge info (.voteProposal content) foreign)
      (hby : executedBy net c content c' = some (address, proposal))
      (hunexecuted : c.bridge.executedAmounts
        (getProposalId net.sha256 content) = 0)
      (hamounts : c'.bridge.executedAmounts =
        add c.bridge.executedAmounts (getProposalId net.sha256 content)
          proposal.amount.toNat)
      (hminted : Minted net ⟨ev.block, net.addrValidate⟩ address proposal c c')
  | created (address : String) (msg : LsdToken.InstantiateMsg)
      (token : LsdToken.Token) (haction : ev.action = .create address msg)
      (haddress : net.isToken address = true) (hnew : c.tokens address = none)
      (hcreated : LsdToken.instantiate ⟨ev.block, net.addrValidate⟩ msg =
        .ok token)
      (hbridge : c'.bridge = c.bridge)
      (htokens : c'.tokens = c.tokens.save address token)
  | called (address sender : String) (msg : LsdToken.ExecuteMsg)
      (token token' : LsdToken.Token)
      (received : Option LsdToken.Cw20ReceiveMsg)
      (haction : ev.action = .token address sender msg)
      (hsender : sender ≠ net.self) (htoken : c.tokens address = some token)
      (hcall : LsdToken.execute token ⟨ev.block, net.addrValidate⟩ sender msg =
        .ok (token', received))
      (hbridge : c'.bridge = c.bridge)
      (htokens : c'.tokens = c.tokens.save address token')

section

variable {net} {c c' : MintChain} {ev : MintEvent} {content : Content}
  {proposal : Proposal} {s s' : Storage}

theorem executedAmounts_congr (h : s'.proposals = s.proposals) :
    s'.executedAmounts = s.executedAmounts := by
  unfold Storage.executedAmounts
  rw [h]

/-- A proposal without the votes it needs counts for nothing. -/
theorem executedAmounts_of_unexecuted {key : List UInt8}
    (hopen : (s.proposalOf key content).executed = false) :
    s.executedAmounts key = 0 := by
  unfold Storage.proposalOf at hopen
  unfold Storage.executedAmounts
  cases hproposal : s.proposals key with
  | none => rfl
  | some proposal =>
      rw [hproposal, Option.getD_some] at hopen
      simp [hopen]

theorem executedAmounts_save {key : List UInt8}
    (hopen : (s.proposalOf key content).executed = false)
    (hproposals : s'.proposals = s.proposals.save key proposal) :
    s'.executedAmounts = add s.executedAmounts key
      (if proposal.executed then proposal.amount.toNat else 0) := by
  have hzero := executedAmounts_of_unexecuted hopen
  funext other
  rw [add_at]
  by_cases hother : other = key
  · rw [hother, hzero, if_pos rfl, Nat.zero_add]
    simp [Storage.executedAmounts, hproposals]
  · rw [if_neg hother, Nat.add_zero]
    simp [Storage.executedAmounts, hproposals, Map.save_of_ne hother]

theorem deliver_minted {chain : LsdToken.Chain} {foreign : Bool}
    {address : String}
    (h : deliver net chain foreign c
      ⟨address, .mint proposal.recipient proposal.amount.toNat⟩ = some c') :
    c'.bridge = c.bridge ∧ Minted net chain address proposal c c' := by
  unfold deliver at h
  split at h
  case isTrue htoken =>
      split at h
      · cases h
      · next token hbefore =>
          split at h
          · next token' received hmint =>
              cases h
              refine ⟨rfl, fun _ => ⟨token, token', hbefore,
                (LsdToken.quiet_eq_ok.mp hmint).1, rfl⟩, fun hplain => ?_⟩
              exact absurd htoken (by simp [hplain])
          · cases h
  case isFalse hplain =>
      split at h
      · cases h
        exact ⟨rfl, fun htoken => absurd htoken hplain, fun _ => rfl⟩
      · cases h

theorem tally_cases {proposal' : Proposal} {messages : List WasmMsg}
    (h : tally s proposal = .ok (proposal', messages)) :
    (proposal'.executed = true ∧ ∃ address,
      s.resourceIdToToken proposal'.resourceId = some address ∧
      messages =
        [⟨address, .mint proposal'.recipient proposal'.amount.toNat⟩]) ∨
      proposal'.executed = proposal.executed ∧ messages = [] := by
  rcases tally_eq_ok.mp h with
    ⟨-, address, haddress, rfl, rfl⟩ | ⟨-, rfl, rfl⟩
  · exact .inl ⟨rfl, address, haddress, rfl⟩
  · exact .inr ⟨rfl, rfl⟩

/-- A vote mints what the proposal says, or it executes nothing. -/
theorem vote_effect {info : MessageInfo} {foreign : Bool}
    {messages : List WasmMsg}
    (haction : ev.action = .bridge info (.voteProposal content) foreign)
    (hopen : (c.bridge.proposalOf (getProposalId net.sha256 content)
      content).executed = false)
    (htally : tally c.bridge
      { c.bridge.proposalOf (getProposalId net.sha256 content) content with
        voters := (c.bridge.proposalOf (getProposalId net.sha256 content)
          content).voters ++ [info.sender] } = .ok (proposal, messages))
    (hsaved : s.proposals = c.bridge.proposals.save
      (getProposalId net.sha256 content) proposal)
    (hrun : messages.foldlM (deliver net ⟨ev.block, net.addrValidate⟩ foreign)
      { c with bridge := s } = some c') : Effect net c ev c' := by
  have hamounts := executedAmounts_save hopen hsaved
  rcases tally_cases htally with
    ⟨hexecuted, address, haddress, rfl⟩ | ⟨hexecuted, rfl⟩
  · rw [List.foldlM_cons] at hrun
    obtain ⟨_, hdeliver, hrest⟩ := Option.bind_eq_some_iff.mp hrun
    cases hrest
    obtain ⟨hsame, hminted⟩ := deliver_minted hdeliver
    refine .minted info content foreign address proposal haction ?_
      (executedAmounts_of_unexecuted hopen) ?_
      ⟨hminted.token, hminted.foreign⟩
    · rw [executedBy, hsame, hsaved, Map.save_self]
      simp [hopen, hexecuted, haddress]
    · rw [hsame, hamounts, hexecuted, if_pos rfl]
  · have hunexecuted : proposal.executed = false := hexecuted.trans hopen
    cases hrun
    refine .governed info _ foreign haction ?_ ?_ rfl
    · rw [hamounts, hunexecuted]
      funext key
      simp [add_at]
    · intro other hother
      cases hother
      simp [executedBy, hsaved, hunexecuted]

theorem act_effect (h : act net c ev = some c') : Effect net c ev c' := by
  unfold act at h
  cases haction : ev.action with
  | bridge info msg foreign =>
      rw [haction] at h
      simp only at h
      split at h
      · cases h
      · next bridge res hexecute =>
          have hmove : Move net.sha256 c.bridge
              ⟨info, msg, net.addrValidate, true⟩ bridge res.messages :=
            move_of_execute hexecute
          have hgoverned : bridge.proposals = c.bridge.proposals →
              res.messages = [] → (∀ content, msg ≠ .voteProposal content) →
                Effect net c ev c' := by
            intro hproposals hmessages hmsg
            rw [hmessages] at h
            cases h
            exact .governed info msg foreign haction
              (executedAmounts_congr hproposals)
              (fun content hvote => absurd hvote (hmsg content)) rfl
          generalize hmessages : res.messages = messages at h hmove hgoverned
          cases hmove with
          | voted content proposal _ hmsg hmember hfresh hopen htally =>
              cases hmsg
              exact vote_effect haction hopen htally rfl h
          | relayerAdded _ hmsg =>
              cases hmsg
              exact hgoverned rfl rfl (by simp)
          | relayerRemoved _ hmsg =>
              cases hmsg
              exact hgoverned rfl rfl (by simp)
          | tokenAdded _ _ hmsg =>
              cases hmsg
              exact hgoverned rfl rfl (by simp)
          | tokenRemoved _ hmsg =>
              cases hmsg
              exact hgoverned rfl rfl (by simp)
          | thresholdChanged _ hmsg =>
              cases hmsg
              exact hgoverned rfl rfl (by simp)
          | adminTransferred _ hmsg =>
              cases hmsg
              exact hgoverned rfl rfl (by simp)
  | create address msg =>
      rw [haction] at h
      simp only at h
      split at h
      case isTrue hnew =>
          split at h
          · cases h
          · next token hcreated =>
              cases h
              exact .created address msg token haction hnew.1
                (Option.isNone_iff_eq_none.mp hnew.2) hcreated rfl rfl
      case isFalse => cases h
  | token address sender msg =>
      rw [haction] at h
      simp only at h
      split at h
      · cases h
      · next hsender =>
          split at h
          · cases h
          · next token htoken =>
              split at h
              · cases h
              · next token' received hcall =>
                  split at h
                  · cases h
                    exact .called address sender msg token token' received
                      haction hsender htoken hcall rfl rfl
                  · cases h

end

end MintChain

/-! ### A deposit -/

namespace Sample

def net : Setting where
  self := "neutron1bridge"
  sha256 := id
  addrValidate := fun _ => true
  isToken address := decide (address = "neutron1token")

def quietChain : MintChain := ⟨start threeRelayers, Map.empty⟩

theorem genesis_quietChain : quietChain.Genesis net where
  instantiated := ⟨threeRelayers, rfl⟩
  tokens _ _ := rfl

def at5 (action : MintAction) : MintEvent := ⟨⟨5, 500⟩, action⟩

def act5 (sender : String) (msg : ExecuteMsg) : MintEvent :=
  at5 (.bridge ⟨sender, []⟩ msg false)

/-- A deposit is minted with the second vote, and part of it is burned. -/
def deposits : List MintEvent :=
  [at5 (.create "neutron1token"
      ⟨"Rocket", "rETH", 6, [("neutron1early", 40)],
        some ⟨"neutron1dao", "neutron1bridge", none⟩⟩),
    act5 "neutron1admin" (.addResourceIdToToken "rETH" "neutron1token"),
    act5 "relayer1" (.voteProposal deposit),
    act5 "relayer2" (.voteProposal deposit),
    act5 "relayer3" (.voteProposal deposit),
    at5 (.token "neutron1token" "neutron1recipient" (.burn 120))]

end Sample

end NeutronContracts.Bridge
