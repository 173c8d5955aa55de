/-
The threshold of the bridge.  Removals and threshold changes keep it at most
the number of relayers, and additions keep them distinct; but neither the
first relayers nor a threshold of zero are checked.
-/
import Mathlib.Data.List.Dedup
import NeutronContracts.Chain.Bridge

namespace NeutronContracts.Bridge

open Fallible

variable {sha256 : List UInt8 → List UInt8} {s s' : Storage}
  {tx : Transaction} {messages : List WasmMsg}

/-- No relayer stands twice in the list, and a proposal can get as many votes
as the threshold asks for, which is at least one. -/
def Meaningful (bridgeInfo : BridgeInfo) : Prop :=
  bridgeInfo.relayers.Nodup ∧ 1 ≤ bridgeInfo.threshold ∧
    bridgeInfo.threshold ≤ bridgeInfo.relayers.dedup.length

instance (bridgeInfo : BridgeInfo) : Decidable (Meaningful bridgeInfo) :=
  inferInstanceAs (Decidable (_ ∧ _))

theorem meaningful_iff {bridgeInfo : BridgeInfo} :
    Meaningful bridgeInfo ↔ bridgeInfo.relayers.Nodup ∧
      1 ≤ bridgeInfo.threshold ∧
      bridgeInfo.threshold ≤ bridgeInfo.relayers.length := by
  unfold Meaningful
  constructor
  · rintro ⟨hdistinct, hpositive, henough⟩
    rw [List.dedup_eq_self.mpr hdistinct] at henough
    exact ⟨hdistinct, hpositive, henough⟩
  · rintro ⟨hdistinct, hpositive, henough⟩
    rw [List.dedup_eq_self.mpr hdistinct]
    exact ⟨hdistinct, hpositive, henough⟩

/-- The threshold that a message asks for. -/
def ExecuteMsg.newThreshold : ExecuteMsg → Option Nat
  | .changeThreshold threshold => some threshold
  | _ => none

/-- The admin does not set the threshold to zero. -/
def KeepsThreshold (s : Storage) (tx : Transaction) : Prop :=
  ∀ threshold ∈ tx.msg.newThreshold,
    tx.info.sender = s.bridgeInfo.admin → 1 ≤ threshold

instance : Decidable (KeepsThreshold s tx) :=
  inferInstanceAs (Decidable (∀ threshold ∈ tx.msg.newThreshold, _))

/-- A threshold that the admin may set is set. -/
theorem step_changeThreshold {threshold : Nat}
    (hmsg : tx.msg = .changeThreshold threshold)
    (hadmin : tx.info.sender = s.bridgeInfo.admin)
    (henough : threshold ≤ s.bridgeInfo.relayers.length)
    (h : step sha256 s tx = some s') :
    s'.bridgeInfo.threshold = threshold := by
  have hexecute : execute sha256 tx.addrValidate s tx.info tx.msg =
      .ok ({ s with
        bridgeInfo := { s.bridgeInfo with threshold := threshold } },
          .action "change_threshold") := by
    simp only [hmsg, execute, executeChangeThreshold, bind_eq_ok,
      rejectIf_eq_ok, pure_eq_ok, not_not, Nat.not_lt, ne_eq, exists_const]
    exact ⟨hadmin.symm, henough, trivial⟩
  have houtcome := outcome_eq_some.mpr ⟨_, hexecute, .inl rfl, rfl⟩
  cases (step_of_outcome houtcome).symm.trans h
  rfl

/-- What every transaction keeps, a threshold of zero apart. -/
theorem meaningful_of_move (hs : Meaningful s.bridgeInfo)
    (hkeeps : KeepsThreshold s tx) (h : Move sha256 s tx s' messages) :
    Meaningful s'.bridgeInfo := by
  rw [meaningful_iff] at hs ⊢
  obtain ⟨hdistinct, hpositive, henough⟩ := hs
  cases h with
  | voted => exact ⟨hdistinct, hpositive, henough⟩
  | relayerAdded relayer hmsg hadmin hnew =>
      refine ⟨?_, hpositive, ?_⟩
      · rw [List.nodup_append]
        refine ⟨hdistinct, by simp, ?_⟩
        intro first hfirst second hsecond heq
        cases List.mem_singleton.mp hsecond
        exact hnew (heq ▸ hfirst)
      · dsimp only
        rw [List.length_append]
        omega
  | relayerRemoved relayer hmsg hadmin hmember hleft =>
      exact ⟨hdistinct.filter _, hpositive, hleft⟩
  | tokenAdded => exact ⟨hdistinct, hpositive, henough⟩
  | tokenRemoved => exact ⟨hdistinct, hpositive, henough⟩
  | thresholdChanged threshold hmsg hadmin hleft =>
      have hnew : threshold ∈ tx.msg.newThreshold := by
        rw [hmsg]
        rfl
      exact ⟨hdistinct, hkeeps threshold hnew hadmin.symm, hleft⟩
  | adminTransferred => exact ⟨hdistinct, hpositive, henough⟩

theorem meaningful_step_iff (hs : Meaningful s.bridgeInfo)
    (h : step sha256 s tx = some s') :
    Meaningful s'.bridgeInfo ↔ KeepsThreshold s tx := by
  constructor
  · intro hnext threshold hnew hadmin
    by_contra hzero
    have hmsg : tx.msg = .changeThreshold threshold := by
      revert hnew
      cases tx.msg <;> simp [ExecuteMsg.newThreshold]
    have hset := step_changeThreshold hmsg hadmin (by omega) h
    rw [Meaningful, hset] at hnext
    exact hzero hnext.2.1
  · intro hkeeps
    rcases step_cases h with ⟨-, rfl⟩ | ⟨messages, houtcome⟩
    · exact hs
    · exact meaningful_of_move hs hkeeps (move_of_outcome houtcome)

/-- The threshold is meaningful in every state of a run exactly when the first
relayers are distinct and it never is set to zero. -/
theorem threshold_meaningful (sha256 : List UInt8 → List UInt8)
    (msg : InstantiateMsg) (s : Storage) (h : instantiate msg = .ok s)
    (txs : List Transaction) :
    (Meaningful s.bridgeInfo ∧
      Transition.AllSteps (step sha256) (fun _ _ b => Meaningful b.bridgeInfo)
        s txs) ↔
      (msg.relayers.Nodup ∧ 1 ≤ msg.threshold) ∧
        Transition.AllSteps (step sha256) (fun a tx _ => KeepsThreshold a tx)
          s txs := by
  have hinit : Meaningful s.bridgeInfo ↔
      msg.relayers.Nodup ∧ 1 ≤ msg.threshold := by
    obtain ⟨henough, rfl⟩ := instantiate_eq_ok.mp h
    rw [meaningful_iff]
    exact ⟨fun hs => ⟨hs.1, hs.2.1⟩, fun hs => ⟨hs.1, hs.2, henough⟩⟩
  rw [← hinit]
  refine and_congr_right fun hs => ?_
  refine Transition.AllSteps.iff_of_invariant (P := fun _ _ _ => True)
    (fun a => Meaningful a.bridgeInfo) ?_ ?_ hs
    (.of_forall fun _ _ _ _ => trivial)
  · exact fun _ _ _ ha hstep _ => meaningful_step_iff ha hstep
  · exact fun _ _ _ ha hstep _ => (meaningful_step_iff ha hstep).mpr

/-- Three relayers, one of whom is replaced. -/
theorem threshold_meaningful_sample :
    Meaningful (Sample.start Sample.threeRelayers).bridgeInfo ∧
      Transition.AllSteps (step id) (fun _ _ b => Meaningful b.bridgeInfo)
        (Sample.start Sample.threeRelayers)
        [Sample.govern (.addRelayer "relayer4"),
          Sample.govern (.removeRelayer "relayer1"),
          Sample.govern (.changeThreshold 3)] :=
  (threshold_meaningful id Sample.threeRelayers
    (Sample.start Sample.threeRelayers) rfl _).mpr
      ⟨by decide +kernel, by decide +kernel⟩

/-- Two places in the list for one relayer make a threshold that no proposal
can reach, and a threshold of zero is accepted as well. -/
theorem threshold_meaningful_fails :
    (∃ s, instantiate ⟨"neutron1admin", 2, ["relayer1", "relayer1"]⟩ = .ok s ∧
      ¬ Meaningful s.bridgeInfo) ∧
      ¬ Transition.AllSteps (step id) (fun _ _ b => Meaningful b.bridgeInfo)
        (Sample.start Sample.threeRelayers)
        [Sample.govern (.changeThreshold 0)] :=
  ⟨⟨_, rfl, by decide⟩, by decide +kernel⟩

end NeutronContracts.Bridge
