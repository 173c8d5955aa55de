/-
What the votes of the bridge amount to: each proposal mints once at most, with
as many relayers behind it as the threshold asked for when it did, and is
executed with the vote that reaches the threshold of that moment.
-/
import Mathlib.Data.List.Dedup
import NeutronContracts.Chain.Bridge

namespace NeutronContracts.Bridge

variable {sha256 : List UInt8 → List UInt8} {s s' : Storage}
  {tx : Transaction} {messages : List WasmMsg} {history : History}
  {content : Content} {proposal : Proposal} {key : List UInt8}

/-- The votes under one key, the latest one last. -/
def History.ballotsOf (history : History) (key : List UInt8) : List Ballot :=
  history.ballots.filter fun ballot => decide (ballot.key = key)

def History.votersOf (history : History) (key : List UInt8) : List String :=
  (history.ballotsOf key).map Ballot.voter

theorem ballotsOf_record (ballot : Ballot) :
    (history.record ballot messages).ballotsOf key =
      history.ballotsOf key ++ if ballot.key = key then [ballot] else [] := by
  simp only [History.ballotsOf, History.record, List.filter_append]
  by_cases hkey : ballot.key = key
  · simp [hkey]
  · simp [hkey]

theorem votersOf_record (ballot : Ballot) :
    (history.record ballot messages).votersOf key =
      history.votersOf key ++
        if ballot.key = key then [ballot.voter] else [] := by
  rw [History.votersOf, ballotsOf_record, List.map_append]
  by_cases hkey : ballot.key = key
  · simp [hkey, History.votersOf]
  · simp [hkey, History.votersOf]

/-- The votes are those of the poll box, each cast by a relayer, and every
stored proposal is executed if its last vote has reached the threshold. -/
structure Recorded (s : Storage) (history : History) : Prop where
  sound : (s.box history.minted).Sound
  voters : ∀ key, history.votersOf key =
    ((s.box history.minted).pollOf key).voters
  members : ∀ ballot ∈ history.ballots,
    ballot.voter ∈ ballot.bridgeInfo.relayers
  decided : ∀ key proposal, s.proposals key = some proposal →
    ∃ ballot, (history.ballotsOf key).getLast? = some ballot ∧
      (proposal.executed = true ↔
        ballot.bridgeInfo.threshold ≤ proposal.voters.length)

theorem recorded_of_instantiate {msg : InstantiateMsg}
    (h : instantiate msg = .ok s) : Recorded s History.empty := by
  obtain ⟨-, rfl⟩ := instantiate_eq_ok.mp h
  exact
    { sound := Poll.Box.sound_empty
      voters := fun _ => rfl
      members := fun _ hballot => nomatch hballot
      decided := fun _ _ hproposal => nomatch hproposal }

theorem Recorded.congr (h : Recorded s history)
    (hproposals : s'.proposals = s.proposals) : Recorded s' history := by
  have hbox : s'.box history.minted = s.box history.minted := by
    rw [Storage.box, Storage.box, hproposals]
  exact
    { sound := by
        rw [hbox]
        exact h.sound
      voters := by
        rw [hbox]
        exact h.voters
      members := h.members
      decided := by
        rw [hproposals]
        exact h.decided }

theorem Voted.executed_iff
    (h : Voted sha256 s tx content proposal messages s') :
    proposal.executed = true ↔
      s.bridgeInfo.threshold ≤ proposal.voters.length := by
  change proposal.poll.closed = true ↔ _ ≤ proposal.poll.voters.length
  rw [h.poll]
  exact Poll.add_closed _ _ _

theorem Recorded.vote (h : Recorded s history)
    (hvoted : Voted sha256 s tx content proposal messages s') :
    Recorded s' (history.record (ballotOf sha256 s tx content) messages) := by
  have hbox := hvoted.box history.minted
  constructor
  · exact h.sound.vote hbox
  · intro key
    have hpoll := Poll.Box.pollOf_vote hbox key
    change _ = (Poll.Box.pollOf (s'.box (history.minted ++ _)) key).voters
    rw [votersOf_record, h.voters, ballotOf_key, ballotOf_voter]
    rw [hpoll]
    by_cases hkey : key = getProposalId sha256 content
    · rw [if_pos hkey, if_pos hkey.symm, hkey, Poll.add_voters]
    · rw [if_neg hkey, if_neg (Ne.symm hkey), List.append_nil]
  · intro ballot hballot
    rcases List.mem_append.mp hballot with hold | hnew
    · exact h.members ballot hold
    · obtain rfl := List.mem_singleton.mp hnew
      exact hvoted.member
  · intro key other hother
    rw [hvoted.proposals, Map.save_apply] at hother
    rw [ballotsOf_record, ballotOf_key]
    by_cases hkey : key = getProposalId sha256 content
    · rw [if_pos hkey, Option.some.injEq] at hother
      obtain rfl := hother
      rw [if_pos hkey.symm]
      exact ⟨_, List.getLast?_concat .., hvoted.executed_iff⟩
    · rw [if_neg hkey] at hother
      rw [if_neg (Ne.symm hkey), List.append_nil]
      exact h.decided key other hother

theorem recorded_step (h : Recorded s history)
    (hstep : step sha256 s tx = some s') :
    Recorded s' (keepHistory sha256 history s tx s') := by
  rcases history_of_step history hstep with
    ⟨hproposals, hkept⟩ | ⟨content, proposal, messages, -, -, hvoted, hkept⟩
  · rw [hkept]
    exact h.congr hproposals
  · rw [hkept]
    exact h.vote hvoted

/-- What every step does to a recorded storage, it does in every run. -/
theorem steps_of_recorded
    {Q : Storage × History → Transaction → Storage × History → Prop}
    (hstep : ∀ s history tx s', Recorded s history →
      step sha256 s tx = some s' →
        Q (s, history) tx (s', keepHistory sha256 history s tx s'))
    {msg : InstantiateMsg} (h : instantiate msg = .ok s)
    (txs : List Transaction) :
    Transition.AllSteps (Transition.track (step sha256) (keepHistory sha256))
      Q (s, .empty) txs := by
  have hnone : Transition.AllSteps
      (Transition.track (step sha256) (keepHistory sha256))
      (fun _ _ _ => True) (s, .empty) txs :=
    .of_forall fun _ _ _ _ => trivial
  refine Transition.AllSteps.of_invariant
    (fun a : Storage × History => Recorded a.1 a.2) ?_
    (recorded_of_instantiate h) hnone
  rintro ⟨s, history⟩ tx ⟨s', history'⟩ hinv htrack -
  obtain ⟨hnext, rfl⟩ := Transition.track_eq_some.mp htrack
  exact ⟨recorded_step hinv hnext, hstep s history tx s' hinv hnext⟩

/-! ### One mint at most -/

/-- A proposal goes on with the same content, all its voters, and executed if
it has been. -/
def Proposal.Continues (proposal proposal' : Proposal) : Prop :=
  proposal'.toContent = proposal.toContent ∧
    proposal.voters <+: proposal'.voters ∧
    (proposal.executed = true → proposal'.executed = true)

/-- No key was minted for twice, the executed proposals are those that were
minted for, nobody stands twice among the voters, and every proposal there was
goes on. -/
structure MintsOnce (s s' : Storage) (history' : History) : Prop where
  once : history'.minted.Nodup
  executed : ∀ key, (∃ proposal, s'.proposals key = some proposal ∧
    proposal.executed = true) ↔ key ∈ history'.minted
  distinct : ∀ key proposal, s'.proposals key = some proposal →
    proposal.voters.Nodup
  continues : ∀ key proposal, s.proposals key = some proposal →
    ∃ proposal', s'.proposals key = some proposal' ∧
      proposal.Continues proposal'

theorem Recorded.executed (h : Recorded s history) (key : List UInt8) :
    (∃ proposal, s.proposals key = some proposal ∧
      proposal.executed = true) ↔ key ∈ history.minted := by
  have hclosed := h.sound.closed key
  change key ∈ history.minted ↔ _ at hclosed
  rw [hclosed, Poll.Box.pollOf, Storage.box_polls]
  cases s.proposals key with
  | none => simp [Poll.new]
  | some proposal => simp [Proposal.poll]

theorem Recorded.distinct (h : Recorded s history)
    (hproposal : s.proposals key = some proposal) :
    proposal.voters.Nodup := by
  apply h.sound.distinct key proposal.poll
  rw [Storage.box_polls, hproposal]
  rfl

theorem proposalOf_eq (h : s.proposals key = some proposal)
    (content : Content) :
    s.proposalOf key content = proposal := by
  rw [Storage.proposalOf, h, Option.getD_some]

theorem Proposal.Continues.refl (proposal : Proposal) :
    proposal.Continues proposal :=
  ⟨rfl, List.prefix_rfl, id⟩

theorem Voted.voters_eq
    (h : Voted sha256 s tx content proposal messages s') :
    proposal.voters =
      (s.proposalOf (getProposalId sha256 content) content).voters ++
        [tx.info.sender] :=
  congrArg Poll.voters h.poll

theorem Voted.continues
    (h : Voted sha256 s tx content proposal messages s') {old : Proposal}
    (hold : s.proposals key = some old) :
    ∃ proposal', s'.proposals key = some proposal' ∧
      old.Continues proposal' := by
  rw [h.proposals, Map.save_apply]
  by_cases hkey : key = getProposalId sha256 content
  · rw [if_pos hkey]
    subst hkey
    have hsame := h.sameContent
    have hvoters := h.voters_eq
    have hopen := h.unexecuted
    rw [proposalOf_eq hold] at hsame hvoters hopen
    refine ⟨proposal, rfl, hsame, ?_, fun hexecuted => ?_⟩
    · rw [hvoters]
      exact List.prefix_append _ _
    · rw [hopen] at hexecuted
      cases hexecuted
  · rw [if_neg hkey]
    exact ⟨old, hold, .refl old⟩

theorem continues_of_step (h : step sha256 s tx = some s')
    (hold : s.proposals key = some proposal) :
    ∃ proposal', s'.proposals key = some proposal' ∧
      proposal.Continues proposal' := by
  rcases history_of_step .empty h with
    ⟨hproposals, -⟩ | ⟨content, _, messages, -, -, hvoted, -⟩
  · rw [hproposals]
    exact ⟨proposal, hold, .refl proposal⟩
  · exact hvoted.continues hold

/-- Each proposal mints once at most, in every run. -/
theorem mints_once (sha256 : List UInt8 → List UInt8) (msg : InstantiateMsg)
    (s : Storage) (h : instantiate msg = .ok s) (txs : List Transaction) :
    Transition.AllSteps
      (Transition.track (step sha256) (keepHistory sha256))
      (fun a _ b => MintsOnce a.1 b.1 b.2) (s, .empty) txs := by
  apply steps_of_recorded _ h
  intro s history tx s' hinv hstep
  have hnext := recorded_step hinv hstep
  exact
    { once := hnext.sound.once
      executed := hnext.executed
      distinct := fun _ _ => hnext.distinct
      continues := fun _ _ => continues_of_step hstep }

/-- Two votes and a third one that comes too late. -/
theorem mints_once_sample :
    Transition.AllSteps (Transition.track (step id) (keepHistory id))
      (fun a _ b => MintsOnce a.1 b.1 b.2)
      (Sample.start Sample.threeRelayers, .empty)
      [Sample.register, Sample.vote "relayer1", Sample.vote "relayer2",
        Sample.vote "relayer3"] :=
  mints_once id Sample.threeRelayers (Sample.start Sample.threeRelayers) rfl _

/-! ### A quorum behind every mint -/

/-- The content that a transaction votes for and mints. -/
def mintedBy (sha256 : List UInt8 → List UInt8) (s : Storage)
    (tx : Transaction) : Option Content :=
  match tx.msg, outcome sha256 s tx with
  | .voteProposal content, some (_, _ :: _) => some content
  | _, _ => none

/-- What the vote that mints does. -/
theorem voted_of_minted (history : History)
    (hminted : content ∈ mintedBy sha256 s tx)
    (hstep : step sha256 s tx = some s') :
    ∃ proposal messages, Voted sha256 s tx content proposal messages s' ∧
      proposal.executed = true ∧
      keepHistory sha256 history s tx s' =
        history.record (ballotOf sha256 s tx content) messages := by
  unfold mintedBy at hminted
  split at hminted
  · rename_i content' storage' message rest hmsg houtcome
    cases hminted
    obtain ⟨proposal, hvoted⟩ := voted_of_outcome hmsg houtcome
    have hmints := hvoted.mints
    cases (step_of_outcome houtcome).symm.trans hstep
    refine ⟨proposal, message :: rest, hvoted, ?_,
      keepHistory_vote hmsg houtcome⟩
    by_contra hnot
    rw [if_neg hnot] at hmints
    cases hmints
  · cases hminted

/-- When a vote mints, at least as many relayers as the threshold asks for are
among those who have voted. -/
def CurrentQuorum (sha256 : List UInt8 → List UInt8) (a : Storage × History)
    (tx : Transaction) (b : Storage × History) : Prop :=
  ∀ content ∈ mintedBy sha256 a.1 tx,
    a.1.bridgeInfo.threshold ≤
      ((b.2.votersOf (getProposalId sha256 content)).dedup.filter
        fun voter => decide (voter ∈ a.1.bridgeInfo.relayers)).length

/-- When a vote mints, at least as many accounts as the threshold asks for
have voted, all of them relayers when they did, and the last of them is one
now. -/
def VotedQuorum (sha256 : List UInt8 → List UInt8) (a : Storage × History)
    (tx : Transaction) (b : Storage × History) : Prop :=
  ∀ content ∈ mintedBy sha256 a.1 tx,
    a.1.bridgeInfo.threshold ≤
        (b.2.votersOf (getProposalId sha256 content)).dedup.length ∧
      (∀ ballot ∈ b.2.ballotsOf (getProposalId sha256 content),
        ballot.voter ∈ ballot.bridgeInfo.relayers) ∧
      tx.info.sender ∈ b.2.votersOf (getProposalId sha256 content) ∧
      tx.info.sender ∈ a.1.bridgeInfo.relayers

theorem votedQuorum_of_step (h : Recorded s history)
    (hstep : step sha256 s tx = some s') :
    VotedQuorum sha256 (s, history) tx
      (s', keepHistory sha256 history s tx s') := by
  intro content hminted
  obtain ⟨proposal, messages, hvoted, hexecuted, hkept⟩ :=
    voted_of_minted history hminted hstep
  have hnext := h.vote hvoted
  rw [hkept]
  dsimp only
  have hstored : s'.proposals (getProposalId sha256 content) =
      some proposal := by
    rw [hvoted.proposals, Map.save_self]
  have hvoters := hnext.voters (getProposalId sha256 content)
  rw [Storage.pollOf_box content, proposalOf_eq hstored] at hvoters
  change _ = proposal.voters at hvoters
  have hlast : tx.info.sender ∈ proposal.voters := by
    rw [hvoted.voters_eq]
    exact List.mem_append_right _ List.mem_cons_self
  rw [hvoters, List.dedup_eq_self.mpr (hnext.distinct hstored)]
  exact ⟨hvoted.executed_iff.mp hexecuted,
    fun ballot hballot => hnext.members ballot (List.mem_filter.mp hballot).1,
    hlast, hvoted.member⟩

/-- Behind every mint stands a quorum of accounts that were relayers when they
voted. -/
theorem mint_quorum (sha256 : List UInt8 → List UInt8) (msg : InstantiateMsg)
    (s : Storage) (h : instantiate msg = .ok s) (txs : List Transaction) :
    Transition.AllSteps
      (Transition.track (step sha256) (keepHistory sha256))
      (VotedQuorum sha256) (s, .empty) txs := by
  apply steps_of_recorded _ h
  intro s history tx s' hinv hstep
  exact votedQuorum_of_step hinv hstep

theorem mint_quorum_sample :
    Transition.AllSteps (Transition.track (step id) (keepHistory id))
      (VotedQuorum id) (Sample.start Sample.threeRelayers, .empty)
      [Sample.register, Sample.vote "relayer1", Sample.vote "relayer2"] :=
  mint_quorum id Sample.threeRelayers (Sample.start Sample.threeRelayers) rfl _

instance (a : Storage × History) (tx : Transaction) (b : Storage × History) :
    Decidable (CurrentQuorum sha256 a tx b) :=
  inferInstanceAs (Decidable (∀ content ∈ mintedBy sha256 a.1 tx, _))

/-- The vote of a relayer counts after its removal: here the second of two
votes mints, though the first voter is no relayer any more. -/
theorem current_quorum_fails :
    ¬ ∀ (msg : InstantiateMsg) (s : Storage) (_ : instantiate msg = .ok s)
        (txs : List Transaction),
      Transition.AllSteps (Transition.track (step id) (keepHistory id))
        (CurrentQuorum id) (s, .empty) txs := by
  intro h
  have hrun := h Sample.threeRelayers (Sample.start Sample.threeRelayers) rfl
    [Sample.register, Sample.vote "relayer1",
      Sample.govern (.removeRelayer "relayer1"), Sample.vote "relayer2"]
  revert hrun
  decide +kernel

/-! ### Proposals with enough votes -/

/-- Every proposal with as many voters as the threshold of now is executed. -/
def NeverStuck (s : Storage) : Prop :=
  ∀ key, ∀ proposal ∈ s.proposals key,
    s.bridgeInfo.threshold ≤ proposal.voters.length →
      proposal.executed = true

/-- Every proposal with as many voters as the threshold of its last vote is
executed. -/
def ExecutedInTime (s : Storage) (history : History) : Prop :=
  ∀ key, ∀ proposal ∈ s.proposals key,
    ∃ ballot ∈ (history.ballotsOf key).getLast?,
      (ballot.bridgeInfo.threshold ≤ proposal.voters.length →
        proposal.executed = true)

/-- A proposal is executed with the vote that reaches the threshold. -/
theorem executed_in_time (sha256 : List UInt8 → List UInt8)
    (msg : InstantiateMsg) (s : Storage) (h : instantiate msg = .ok s)
    (txs : List Transaction) :
    Transition.AllSteps
      (Transition.track (step sha256) (keepHistory sha256))
      (fun _ _ b => ExecutedInTime b.1 b.2) (s, .empty) txs := by
  apply steps_of_recorded _ h
  intro s history tx s' hinv hstep key proposal hproposal
  obtain ⟨ballot, hlast, hexecuted⟩ :=
    (recorded_step hinv hstep).decided key proposal hproposal
  exact ⟨ballot, hlast, hexecuted.mpr⟩

theorem executed_in_time_sample :
    Transition.AllSteps (Transition.track (step id) (keepHistory id))
      (fun _ _ b => ExecutedInTime b.1 b.2)
      (Sample.start Sample.threeRelayers, .empty)
      [Sample.register, Sample.vote "relayer1", Sample.vote "relayer2"] :=
  executed_in_time id Sample.threeRelayers
    (Sample.start Sample.threeRelayers) rfl _

/-- A threshold that is lowered below the votes of a proposal leaves it
unexecuted: only another vote could execute it. -/
theorem never_stuck_fails :
    ¬ ∀ (msg : InstantiateMsg) (s : Storage) (_ : instantiate msg = .ok s)
        (txs : List Transaction),
      Transition.AllSteps (step id) (fun _ _ b => NeverStuck b) s txs := by
  intro h
  have hrun := h Sample.threeRelayers (Sample.start Sample.threeRelayers) rfl
    [Sample.register, Sample.vote "relayer1",
      Sample.govern (.changeThreshold 1)]
  have hdeposit : Transition.AllSteps (step id)
      (fun _ _ b =>
        ∀ proposal ∈ b.proposals (getProposalId id Sample.deposit),
          b.bridgeInfo.threshold ≤ proposal.voters.length →
            proposal.executed = true)
      (Sample.start Sample.threeRelayers)
      [Sample.register, Sample.vote "relayer1",
        Sample.govern (.changeThreshold 1)] :=
    hrun.mono fun _ _ _ _ hstuck => hstuck _
  revert hdeposit
  decide +kernel

end NeutronContracts.Bridge
