/-
What the key of a bridge proposal tells about its content.  The resource id
and the recipient stand side by side in the hashed bytes, without a separator:
a key fixes them only together, and a vote can meet a proposal of another
content that is split elsewhere.
-/
import NeutronContracts.Properties.BridgeVotes

namespace NeutronContracts.Bridge

open Fallible

variable {sha256 : List UInt8 → List UInt8} {s s' : Storage}
  {tx : Transaction} {messages : List WasmMsg} {history : History}
  {content a b : Content} {proposal : Proposal} {key : List UInt8}

/-- Different contents with the same hashed bytes. -/
def Ambiguous (a b : Content) : Prop :=
  a.chainId = b.chainId ∧ a.depositNonce = b.depositNonce ∧
    a.amount = b.amount ∧
    a.resourceId ++ a.recipient = b.resourceId ++ b.recipient ∧
    a.resourceId ≠ b.resourceId

instance (a b : Content) : Decidable (Ambiguous a b) :=
  inferInstanceAs (Decidable (_ ∧ _))

theorem proposalBytes_eq_iff : proposalBytes a = proposalBytes b ↔
    a.chainId = b.chainId ∧ a.depositNonce = b.depositNonce ∧
      a.amount = b.amount ∧
      a.resourceId ++ a.recipient = b.resourceId ++ b.recipient := by
  have hlimit : ∀ n : UInt64, n.toNat < 256 ^ 8 := fun n => n.toNat_lt
  have hamount : ∀ n : BitVec 128, n.toNat < 256 ^ 16 := fun n => n.isLt
  constructor
  · intro h
    obtain ⟨hfront, hlast⟩ := List.append_inj' h (by
      rw [Bytes.length_bigEndian, Bytes.length_bigEndian])
    rw [List.append_assoc, List.append_assoc, List.append_assoc,
      List.append_assoc] at hfront
    obtain ⟨hchain, hrest⟩ := List.append_inj hfront (by
      rw [Bytes.length_bigEndian, Bytes.length_bigEndian])
    obtain ⟨hnonce, htexts⟩ := List.append_inj hrest (by
      rw [Bytes.length_bigEndian, Bytes.length_bigEndian])
    rw [Bytes.bigEndian_inj (hlimit _) (hlimit _), UInt64.toNat_inj]
      at hchain hnonce
    rw [Bytes.bigEndian_inj (hamount _) (hamount _), BitVec.toNat_inj]
      at hlast
    rw [← Bytes.ofText_append, ← Bytes.ofText_append, Bytes.ofText_inj]
      at htexts
    exact ⟨hchain, hnonce, hlast, htexts⟩
  · rintro ⟨hchain, hnonce, hlast, htexts⟩
    have hbytes := congrArg Bytes.ofText htexts
    rw [Bytes.ofText_append, Bytes.ofText_append] at hbytes
    simp only [proposalBytes, List.append_assoc, hchain, hnonce, hlast]
    rw [← List.append_assoc (Bytes.ofText a.resourceId), hbytes,
      List.append_assoc]

theorem getProposalId_eq_iff (hsha : Function.Injective sha256) :
    getProposalId sha256 a = getProposalId sha256 b ↔
      proposalBytes a = proposalBytes b := by
  constructor
  · intro h
    exact List.append_cancel_left (hsha h)
  · intro h
    rw [getProposalId, getProposalId, h]

/-- A key determines the content up to the place where its two texts are
split. -/
theorem getProposalId_inj_iff (hsha : Function.Injective sha256) :
    (getProposalId sha256 a = getProposalId sha256 b → a = b) ↔
      ¬ Ambiguous a b := by
  rw [getProposalId_eq_iff hsha, proposalBytes_eq_iff]
  constructor
  · rintro h ⟨hchain, hnonce, hamount, htexts, hne⟩
    exact hne (congrArg Content.resourceId
      (h ⟨hchain, hnonce, hamount, htexts⟩))
  · rintro h ⟨hchain, hnonce, hamount, htexts⟩
    have hresource : a.resourceId = b.resourceId := by
      by_contra hne
      exact h ⟨hchain, hnonce, hamount, htexts, hne⟩
    have hrecipient : a.recipient = b.recipient := by
      rw [hresource] at htexts
      exact String.append_right_inj _ |>.mp htexts
    cases a
    cases b
    simp only [Content.mk.injEq]
    exact ⟨hchain, hnonce, hresource, hrecipient, hamount⟩

/-! ### Votes and the contents they name -/

/-- Every voter of a stored proposal has voted for its very content. -/
def VotedFor (s : Storage) (history : History) : Prop :=
  ∀ key, ∀ proposal ∈ s.proposals key, ∀ voter ∈ proposal.voters,
    ∃ ballot ∈ history.ballots, ballot.voter = voter ∧
      ballot.content = proposal.toContent

/-- Whether a vote of the sender of a transaction is accepted. -/
def MayVote (sha256 : List UInt8 → List UInt8) (s : Storage)
    (tx : Transaction) (content : Content) : Prop :=
  let proposal := s.proposalOf (getProposalId sha256 content) content
  tx.info.sender ∈ s.bridgeInfo.relayers ∧
    tx.info.sender ∉ proposal.voters ∧ proposal.executed = false ∧
    (s.bridgeInfo.threshold ≤ proposal.voters.length + 1 →
      (s.resourceIdToToken proposal.resourceId).isSome = true ∧
        tx.tokenAccepts = true)

instance (content : Content) : Decidable (MayVote sha256 s tx content) :=
  inferInstanceAs (Decidable (_ ∧ _))

/-- The content that a message votes for. -/
def ExecuteMsg.votedContent : ExecuteMsg → Option Content
  | .voteProposal content => some content
  | _ => none

theorem ExecuteMsg.mem_votedContent {msg : ExecuteMsg} :
    content ∈ msg.votedContent ↔ msg = .voteProposal content := by
  cases msg <;> simp [votedContent]

/-- No vote is accepted for a content that is ambiguous with the one of the
stored proposal. -/
def Unmistaken (sha256 : List UInt8 → List UInt8) (s : Storage)
    (tx : Transaction) : Prop :=
  ∀ content ∈ tx.msg.votedContent, MayVote sha256 s tx content →
    ∀ proposal ∈ s.proposals (getProposalId sha256 content),
      ¬ Ambiguous proposal.toContent content

instance : Decidable (Unmistaken sha256 s tx) :=
  inferInstanceAs (Decidable (∀ content ∈ tx.msg.votedContent, _))

/-- The keys of proposals and votes are those of their contents. -/
structure Keyed (sha256 : List UInt8 → List UInt8) (s : Storage)
    (history : History) : Prop where
  proposals : ∀ key, ∀ proposal ∈ s.proposals key,
    getProposalId sha256 proposal.toContent = key
  ballots : ∀ ballot ∈ history.ballots,
    getProposalId sha256 ballot.content = ballot.key

theorem keyed_of_instantiate {msg : InstantiateMsg}
    (h : instantiate msg = .ok s) : Keyed sha256 s History.empty := by
  obtain ⟨-, rfl⟩ := instantiate_eq_ok.mp h
  exact ⟨fun _ _ hproposal => (nomatch hproposal),
    fun _ hballot => (nomatch hballot)⟩

/-- A tally succeeds unless there is no token to mint. -/
theorem exists_tally_iff (s : Storage) (tx : Transaction)
    (proposal : Proposal) :
    (∃ proposal' messages, tally s proposal = .ok (proposal', messages) ∧
      (messages = [] ∨ tx.tokenAccepts = true)) ↔
      (s.bridgeInfo.threshold ≤ proposal.voters.length →
        (s.resourceIdToToken proposal.resourceId).isSome = true ∧
          tx.tokenAccepts = true) := by
  simp only [tally_eq_ok]
  constructor
  · rintro ⟨_, _, ⟨-, token, htoken, -, rfl⟩ | ⟨hfew, -, -⟩, haccepts⟩ hquorum
    · rw [htoken]
      exact ⟨rfl, haccepts.resolve_left (List.cons_ne_nil _ _)⟩
    · omega
  · intro h
    by_cases hquorum : s.bridgeInfo.threshold ≤ proposal.voters.length
    · obtain ⟨hthere, haccepts⟩ := h hquorum
      obtain ⟨token, htoken⟩ := Option.isSome_iff_exists.mp hthere
      exact ⟨_, _, .inl ⟨hquorum, token, htoken, rfl, rfl⟩, .inr haccepts⟩
    · exact ⟨_, _, .inr ⟨Nat.not_le.mp hquorum, rfl, rfl⟩, .inl rfl⟩

theorem mayVote_iff (hmsg : tx.msg = .voteProposal content) :
    MayVote sha256 s tx content ↔
      ∃ s' messages, outcome sha256 s tx = some (s', messages) := by
  simp only [outcome_eq_some, hmsg, execute, executeVoteProposal, bind_eq_ok,
    rejectIf_eq_ok, pure_eq_ok, Prod.mk.injEq, Prod.exists, not_not,
    Bool.not_eq_true, MayVote]
  have htally := exists_tally_iff s tx
      { s.proposalOf (getProposalId sha256 content) content with
        voters := (s.proposalOf (getProposalId sha256 content)
          content).voters ++ [tx.info.sender] }
  rw [List.length_append, List.length_singleton] at htally
  rw [← htally]
  constructor
  · rintro ⟨hmember, hfresh, hopen, proposal, messages, hok, haccepts⟩
    exact ⟨_, _, _, ⟨(), hmember, (), hfresh, (), hopen, proposal, messages,
      hok, rfl, rfl⟩, haccepts, rfl⟩
  · rintro ⟨_, _, _, ⟨_, hmember, _, hfresh, _, hopen, proposal, messages,
      hok, rfl, rfl⟩, haccepts, rfl⟩
    exact ⟨hmember, hfresh, hopen, proposal, messages, hok, haccepts⟩

/-- The proposal a vote is added to has the key of the vote. -/
theorem Keyed.proposalOf (h : Keyed sha256 s history) (content : Content) :
    getProposalId sha256 (s.proposalOf (getProposalId sha256 content)
      content).toContent = getProposalId sha256 content := by
  unfold Storage.proposalOf
  cases hproposal : s.proposals (getProposalId sha256 content) with
  | none => rfl
  | some proposal => exact h.proposals _ proposal hproposal

theorem Keyed.vote (h : Keyed sha256 s history)
    (hvoted : Voted sha256 s tx content proposal messages s') :
    Keyed sha256 s'
      (history.record (ballotOf sha256 s tx content) messages) := by
  constructor
  · intro key other hother
    rw [hvoted.proposals, Map.save_apply] at hother
    by_cases hkey : key = getProposalId sha256 content
    · rw [if_pos hkey] at hother
      cases hother
      rw [hvoted.sameContent, hkey]
      exact h.proposalOf content
    · rw [if_neg hkey] at hother
      exact h.proposals key other hother
  · intro ballot hballot
    rcases List.mem_append.mp hballot with hold | hnew
    · exact h.ballots ballot hold
    · cases List.mem_singleton.mp hnew
      rfl

theorem keyed_step (h : Keyed sha256 s history)
    (hstep : step sha256 s tx = some s') :
    Keyed sha256 s' (keepHistory sha256 history s tx s') := by
  rcases history_of_step history hstep with
    ⟨hproposals, hkept⟩ | ⟨content, proposal, messages, -, -, hvoted, hkept⟩
  · rw [hkept]
    refine ⟨?_, h.ballots⟩
    rw [hproposals]
    exact h.proposals
  · rw [hkept]
    exact h.vote hvoted

/-- A vote that is not mistaken names the content of its proposal. -/
theorem content_of_unmistaken (hsha : Function.Injective sha256)
    (hkeyed : Keyed sha256 s history)
    (hmsg : tx.msg = .voteProposal content)
    (hmay : MayVote sha256 s tx content) (h : Unmistaken sha256 s tx) :
    (s.proposalOf (getProposalId sha256 content) content).toContent =
      content := by
  unfold Storage.proposalOf
  cases hproposal : s.proposals (getProposalId sha256 content) with
  | none => rfl
  | some proposal =>
      have hclear := h content (ExecuteMsg.mem_votedContent.mpr hmsg) hmay
        proposal hproposal
      exact (getProposalId_inj_iff hsha).mpr hclear
        (hkeyed.proposals _ proposal hproposal)

theorem VotedFor.vote (h : VotedFor s history)
    (hvoted : Voted sha256 s tx content proposal messages s')
    (hcontent : (s.proposalOf (getProposalId sha256 content)
      content).toContent = content) :
    VotedFor s'
      (history.record (ballotOf sha256 s tx content) messages) := by
  intro key other hother voter hvoter
  rw [hvoted.proposals, Map.save_apply] at hother
  have hold : ∀ {old : Proposal}, s.proposals key = some old →
      voter ∈ old.voters →
      ∃ ballot ∈ (history.record (ballotOf sha256 s tx content)
        messages).ballots, ballot.voter = voter ∧
          ballot.content = old.toContent := by
    intro old hstored hmem
    obtain ⟨ballot, hballot, hsame⟩ := h key old hstored voter hmem
    exact ⟨ballot, List.mem_append_left _ hballot, hsame⟩
  by_cases hkey : key = getProposalId sha256 content
  · rw [if_pos hkey] at hother
    cases hother
    rw [hvoted.voters_eq] at hvoter
    rcases List.mem_append.mp hvoter with hbefore | hnew
    · cases hstored : s.proposals (getProposalId sha256 content) with
      | none =>
          rw [Storage.proposalOf, hstored] at hbefore
          cases hbefore
      | some old =>
          have hself := proposalOf_eq hstored content
          rw [hself] at hbefore
          obtain ⟨ballot, hballot, hsame, hnamed⟩ :=
            hold (hkey ▸ hstored) hbefore
          refine ⟨ballot, hballot, hsame, ?_⟩
          rw [hnamed, hvoted.sameContent, hself]
    · refine ⟨_, List.mem_append_right _ List.mem_cons_self, ?_, ?_⟩
      · exact (List.mem_singleton.mp hnew).symm
      · rw [hvoted.sameContent, hcontent]
        rfl
  · rw [if_neg hkey] at hother
    exact hold hother hvoter

/-- The voter who meets a proposal of another content has not voted for that
one before. -/
theorem not_votedFor_of_ambiguous (hrecorded : Recorded s history)
    (hkeyed : Keyed sha256 s history)
    (hvoted : Voted sha256 s tx content proposal messages s')
    {old : Proposal}
    (hold : s.proposals (getProposalId sha256 content) = some old)
    (hambiguous : Ambiguous old.toContent content) :
    ¬ VotedFor s'
      (history.record (ballotOf sha256 s tx content) messages) := by
  intro h
  have hself := proposalOf_eq hold content
  have hstored : s'.proposals (getProposalId sha256 content) =
      some proposal := by
    rw [hvoted.proposals, Map.save_self]
  have hlast : tx.info.sender ∈ proposal.voters := by
    rw [hvoted.voters_eq]
    exact List.mem_append_right _ List.mem_cons_self
  obtain ⟨ballot, hballot, hvoter, hcontent⟩ :=
    h _ proposal hstored _ hlast
  rw [hvoted.sameContent, hself] at hcontent
  rcases List.mem_append.mp hballot with hbefore | hnew
  · have hkey : ballot.key = getProposalId sha256 content := by
      rw [← hkeyed.ballots ballot hbefore, hcontent,
        hkeyed.proposals _ old hold]
    have hvoters := hrecorded.voters (getProposalId sha256 content)
    rw [Storage.pollOf_box content, hself] at hvoters
    apply hvoted.fresh
    rw [hself]
    change _ ∈ old.poll.voters
    rw [← hvoters, ← hvoter]
    exact List.mem_map_of_mem
      (List.mem_filter.mpr ⟨hbefore, decide_eq_true hkey⟩)
  · cases List.mem_singleton.mp hnew
    change content = old.toContent at hcontent
    exact hambiguous.2.2.2.2 (congrArg Content.resourceId hcontent).symm

theorem votedFor_step_iff (hsha : Function.Injective sha256)
    (hrecorded : Recorded s history) (hkeyed : Keyed sha256 s history)
    (h : VotedFor s history) (hstep : step sha256 s tx = some s') :
    VotedFor s' (keepHistory sha256 history s tx s') ↔
      Unmistaken sha256 s tx := by
  constructor
  · intro hnext content hnamed hmay old hold hambiguous
    have hmsg := ExecuteMsg.mem_votedContent.mp hnamed
    obtain ⟨s'', messages, houtcome⟩ := (mayVote_iff hmsg).mp hmay
    cases (step_of_outcome houtcome).symm.trans hstep
    obtain ⟨proposal, hvoted⟩ := voted_of_outcome hmsg houtcome
    rw [keepHistory_vote hmsg houtcome] at hnext
    exact not_votedFor_of_ambiguous hrecorded hkeyed hvoted hold hambiguous
      hnext
  · intro hclear
    rcases history_of_step history hstep with
      ⟨hproposals, hkept⟩ |
        ⟨content, proposal, messages, hmsg, houtcome, hvoted, hkept⟩
    · rw [hkept]
      intro key
      rw [hproposals]
      exact h key
    · rw [hkept]
      have hmay := (mayVote_iff hmsg).mpr ⟨s', messages, houtcome⟩
      exact h.vote hvoted
        (content_of_unmistaken hsha hkeyed hmsg hmay hclear)

/-- A key fixes the content exactly when no other one is ambiguous with it,
and in exactly the runs in which no accepted vote meets a proposal of
ambiguous content has every recorded voter voted for what is stored. -/
theorem votes_name_content (hsha : Function.Injective sha256) :
    (∀ a b : Content,
      (getProposalId sha256 a = getProposalId sha256 b → a = b) ↔
        ¬ Ambiguous a b) ∧
      ∀ (msg : InstantiateMsg) (s : Storage), instantiate msg = .ok s →
        ∀ txs : List Transaction,
          Transition.AllSteps
              (Transition.track (step sha256) (keepHistory sha256))
              (fun _ _ b => VotedFor b.1 b.2) (s, .empty) txs ↔
            Transition.AllSteps
              (Transition.track (step sha256) (keepHistory sha256))
              (fun a tx _ => Unmistaken sha256 a.1 tx) (s, .empty) txs := by
  refine ⟨fun a b => getProposalId_inj_iff hsha, fun msg s h txs => ?_⟩
  refine Transition.AllSteps.iff_of_invariant (P := fun _ _ _ => True)
    (fun a : Storage × History => Recorded a.1 a.2 ∧ Keyed sha256 a.1 a.2 ∧
      VotedFor a.1 a.2) ?_ ?_ ?_ (.of_forall fun _ _ _ _ => trivial)
  · rintro ⟨s, history⟩ tx ⟨s', history'⟩ ⟨hrecorded, hkeyed, hfor⟩ htrack -
    obtain ⟨hstep, rfl⟩ := Transition.track_eq_some.mp htrack
    exact votedFor_step_iff hsha hrecorded hkeyed hfor hstep
  · rintro ⟨s, history⟩ tx ⟨s', history'⟩ ⟨hrecorded, hkeyed, hfor⟩ htrack -
      hclear
    obtain ⟨hstep, rfl⟩ := Transition.track_eq_some.mp htrack
    exact ⟨recorded_step hrecorded hstep, keyed_step hkeyed hstep,
      (votedFor_step_iff hsha hrecorded hkeyed hfor hstep).mpr hclear⟩
  · refine ⟨recorded_of_instantiate h, keyed_of_instantiate h, ?_⟩
    obtain ⟨-, rfl⟩ := instantiate_eq_ok.mp h
    exact fun _ _ hproposal => (nomatch hproposal)

theorem votes_name_content_sample :
    Transition.AllSteps (Transition.track (step id) (keepHistory id))
      (fun _ _ b => VotedFor b.1 b.2)
      (Sample.start Sample.threeRelayers, .empty)
      [Sample.register, Sample.vote "relayer1", Sample.vote "relayer2"] :=
  ((votes_name_content Function.injective_id).2 Sample.threeRelayers
    (Sample.start Sample.threeRelayers) rfl _).mpr (by decide +kernel)

/-- Three relayers who all have to agree. -/
def Sample.unanimous : InstantiateMsg :=
  { Sample.threeRelayers with threshold := 3 }

/-- The deposit, split elsewhere. -/
def Sample.forged : Content :=
  { Sample.deposit with
    resourceId := "rETHneutron1"
    recipient := "recipient" }

/-- The vote of an honest relayer is added to the proposal that another one
has made of the same texts. -/
theorem votes_name_content_fails :
    (getProposalId id Sample.forged = getProposalId id Sample.deposit ∧
        Sample.forged ≠ Sample.deposit) ∧
      ¬ ∀ txs : List Transaction,
        Transition.AllSteps (Transition.track (step id) (keepHistory id))
          (fun _ _ b => VotedFor b.1 b.2)
          (Sample.start Sample.unanimous, .empty) txs := by
  refine ⟨by decide +kernel, fun h => ?_⟩
  have hdeposit : Transition.AllSteps
      (Transition.track (step id) (keepHistory id))
      (fun _ _ b =>
        ∀ proposal ∈ b.1.proposals (getProposalId id Sample.deposit),
          ∀ voter ∈ proposal.voters, ∃ ballot ∈ b.2.ballots,
            ballot.voter = voter ∧ ballot.content = proposal.toContent)
      (Sample.start Sample.unanimous, .empty)
      [Sample.call "relayer1" (.voteProposal Sample.forged),
        Sample.vote "relayer2"] :=
    (h _).mono fun _ _ _ _ hfor => hfor _
  revert hdeposit
  decide +kernel

end NeutronContracts.Bridge
