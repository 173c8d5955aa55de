/-
Which messages the handlers of the calls may answer with.
-/
import NeutronContracts.Chain.Coins

namespace NeutronContracts

open StakeManager Fallible

namespace StakeManager

/-- The calls whose handlers call the token of the pool. -/
def ExecuteMsg.callsToken : ExecuteMsg → Bool
  | .stake _ _ => true
  | .unstake _ _ => true
  | .eraActive _ => true
  | _ => false

/-- The calls that start a pool, or send its first packet again. -/
def ExecuteMsg.startsPool : ExecuteMsg → Bool
  | .initPool _ => true
  | .migratePool _ => true
  | _ => false

/-- Tokens are called by their own calls only; contracts are created and
queries registered for a new pool only. -/
def ExecuteMsg.mayEmit (msg : ExecuteMsg) : CosmosMsg → Bool
  | .wasmExecute _ _ => msg.callsToken
  | .wasmInstantiate2 _ _ _ _ _ => msg.startsPool
  | .registerInterchainQuery _ _ _ => msg.startsPool
  | _ => true

end StakeManager

/-- The messages are such as the handler of a call may answer with. -/
def Emits (msg : ExecuteMsg) (subs : List SubMsg) : Prop :=
  ∀ sub ∈ subs, msg.mayEmit sub.msg = true

section

variable {store store' : Storage} {querier : Querier} {env : Env}
  {info : MessageInfo} {msg : ExecuteMsg} {rsp : Response} {a b : String}
  {p : PoolInfo}

theorem emits_of_icq {icaId : String} {period : Nat}
    {icq : List CosmosMsg}
    (h : getUpdatePoolIcqMsgs store a icaId period = .ok icq) :
    Emits msg (icq.map (⟨·, none, none⟩)) := by
  obtain ⟨_, _, _, _, rfl⟩ := getUpdatePoolIcqMsgs_ok h
  simp [Emits, ExecuteMsg.mayEmit]

theorem emits_of_dealt (h : Dealt store store' rsp querier a p b)
    (hstarts : msg.startsPool = true) : Emits msg rsp.messages := by
  obtain ⟨_, _, _, _, _, _, _, _, _, _, _, _, _, _, _, _, _, -, -, -, -, -, -,
    -, hmsgs⟩ := h
  simp [Emits, ExecuteMsg.mayEmit, hstarts, hmsgs]

theorem emits_of_retried (h : Retried store store' rsp a) :
    Emits msg rsp.messages := by
  obtain ⟨_, _, -, -, -, hmsgs⟩ := h
  simp [Emits, ExecuteMsg.mayEmit, hmsgs]

theorem emits_of_mintFee {token recipient : String} {fee : Nat}
    (hcalls : msg.callsToken = true) :
    Emits msg ((mintFee token recipient fee).map (⟨·, none, none⟩)) := by
  unfold mintFee
  split <;> simp [Emits, ExecuteMsg.mayEmit, hcalls]

/-- The handlers answer with messages of their own kinds only. -/
theorem execute_emits
    (h : execute store querier env info msg = .ok (store', rsp)) :
    Emits msg rsp.messages := by
  cases msg with
  | registerPool connectionId interchainAccountId =>
      obtain ⟨_, -, -, -, hmsgs⟩ := executeRegisterPool_ok h
      simp [Emits, ExecuteMsg.mayEmit, hmsgs]
  | initPool param =>
      obtain ⟨_, _, _, _, -, -, -, ⟨-, hretry⟩ | ⟨-, _, _, hdealt⟩⟩ :=
        executeInitPool_ok h
      · exact emits_of_retried hretry
      · exact emits_of_dealt hdealt rfl
  | migratePool param =>
      obtain ⟨_, _, _, _, -, -, -, ⟨-, hretry⟩ | ⟨-, -, -, hdealt⟩⟩ :=
        executeMigratePool_ok h
      · exact emits_of_retried hretry
      · exact emits_of_dealt hdealt rfl
  | configPool param =>
      obtain ⟨_, _, -, -, -, rfl⟩ := executeConfigPool_ok h
      simp [Emits, ExecuteMsg.mayEmit]
  | configStack param =>
      obtain ⟨_, _, -, -, -, rfl⟩ := executeConfigStack_ok h
      simp [Emits, ExecuteMsg.mayEmit]
  | openChannel poolAddr closedChannelId =>
      obtain ⟨_, _, _, _, -, -, hmsgs⟩ := executeOpenChannel_ok h
      simp [Emits, ExecuteMsg.mayEmit, hmsgs]
  | redeemTokenForShare poolAddr tokens =>
      obtain ⟨_, _, _, _, _, -, -, -, -, -, -, -, hmsgs⟩ :=
        executeRedeemTokenForShare_ok h
      simp [Emits, ExecuteMsg.mayEmit, hmsgs]
  | stake user poolAddr =>
      obtain ⟨_, _, -, -, -, -, -, hmsgs⟩ := executeStake_ok h
      simp [Emits, ExecuteMsg.mayEmit, ExecuteMsg.callsToken, hmsgs]
  | unstake amount poolAddr =>
      obtain ⟨_, _, _, _, -, -, -, -, -, -, -, -, -, hmsgs⟩ :=
        executeUnstake_ok h
      simp [Emits, ExecuteMsg.mayEmit, ExecuteMsg.callsToken, hmsgs]
  | withdraw poolAddr receiver unstakeIndexList =>
      obtain ⟨_, _, _, _, _, -, -, -, -, -, -, -, -, hmsgs⟩ :=
        executeWithdraw_ok h
      simp [Emits, ExecuteMsg.mayEmit, hmsgs]
  | poolRmValidator poolAddr validatorAddr =>
      obtain ⟨_, _, -, -, -, -, -, -, ⟨-, -, rfl⟩ | ⟨_, _, _, _, _, _, _, -, -,
        -, -, -, -, -, -, -, hmsgs⟩⟩ := executeRmPoolValidator_ok h
      · simp [Emits, ExecuteMsg.mayEmit]
      · simp [Emits, ExecuteMsg.mayEmit, hmsgs]
  | poolAddValidator poolAddr validatorAddr =>
      obtain ⟨_, _, _, -, -, -, -, -, hmsgs⟩ := executeAddPoolValidators_ok h
      simp [Emits, ExecuteMsg.mayEmit, hmsgs]
  | poolUpdateValidator poolAddr oldValidator newValidator =>
      obtain ⟨_, _, _, -, -, -, -, -, -, -, ⟨-, -, rfl⟩ | ⟨-, _, _, _, _, _, -,
        -, -, -, -, -, hmsgs⟩⟩ := executePoolUpdateValidator_ok h
      · simp [Emits, ExecuteMsg.mayEmit]
      · simp [Emits, ExecuteMsg.mayEmit, hmsgs]
  | poolUpdateValidatorsIcq poolAddr =>
      obtain ⟨_, _, _, -, -, -, hmsgs⟩ := executeUpdateValidatorsIcq_ok h
      simp [Emits, ExecuteMsg.mayEmit, hmsgs]
  | poolDelegate poolAddr stakeAmount =>
      obtain ⟨_, _, -, -, -, -, hmsgs⟩ := executePoolDelegate_ok h
      simp [Emits, ExecuteMsg.mayEmit, hmsgs]
  | eraUpdate poolAddr =>
      obtain ⟨_, _, -, -, -, hicq, ⟨-, -, hmsgs⟩ | ⟨-, _, _, -, -, -, -, -,
        hmsgs⟩⟩ := executeEraUpdate_ok h
      · rw [hmsgs]
        exact emits_of_icq hicq
      · rw [hmsgs, Emits, List.forall_mem_append]
        exact ⟨emits_of_icq hicq, by simp [ExecuteMsg.mayEmit]⟩
  | eraBond poolAddr selectVals =>
      obtain ⟨_, _, _, _, _, -, -, -, -, -, -, -, hmsgs⟩ :=
        executeEraBond_ok h
      simp [Emits, ExecuteMsg.mayEmit, hmsgs]
  | eraCollectWithdraw poolAddr =>
      obtain ⟨_, _, _, _, _, -, -, -, -, ⟨-, -, rfl⟩ | ⟨-, _, _, -, -, -, -,
        hmsgs⟩⟩ := executeEraCollectWithdraw_ok h
      · simp [Emits, ExecuteMsg.mayEmit]
      · simp [Emits, ExecuteMsg.mayEmit, hmsgs]
  | eraRebond poolAddr selectVals =>
      obtain ⟨_, -, -, ⟨-, -, rfl⟩ | ⟨-, _, _, _, -, -, -, -, -, hmsgs⟩⟩ :=
        executeEraRebond_ok h
      · simp [Emits, ExecuteMsg.mayEmit]
      · simp [Emits, ExecuteMsg.mayEmit, hmsgs]
  | eraActive poolAddr =>
      obtain ⟨_, _, _, _, _, _, -, -, -, -, -, -, hicq, hmsgs⟩ :=
        executeEraActive_ok h
      rw [hmsgs, List.map_append, List.map_append]
      simp only [Emits, List.forall_mem_append]
      exact ⟨⟨emits_of_mintFee rfl, emits_of_mintFee rfl⟩, emits_of_icq hicq⟩
  | stakeLsm neutronAddress poolAddr =>
      obtain ⟨_, _, _, _, _, _, _, _, _, _, -, -, -, -, -, -, -, -, -, -, -, -,
        -, -, -, -, -, -, hmsgs⟩ := executeStakeLsm_ok h
      simp [Emits, ExecuteMsg.mayEmit, hmsgs]
  | updateIcqUpdatePeriod poolAddr newUpdatePeriod =>
      obtain ⟨_, _, -, hicq, -, hmsgs⟩ := updateIcqUpdatePeriod_ok h
      rw [hmsgs]
      exact emits_of_icq hicq

/-- The messages register no query. -/
def Unregistering (subs : List SubMsg) : Prop :=
  ∀ sub ∈ subs, ∀ connectionId keys period,
    sub.msg ≠ .registerInterchainQuery connectionId keys period

theorem Emits.unregistering {subs : List SubMsg} (h : Emits msg subs)
    (hother : msg.startsPool = false) : Unregistering subs := by
  intro sub hsub connectionId keys period hmsg
  have hmay := h sub hsub
  rw [hmsg, ExecuteMsg.mayEmit, hother] at hmay
  cases hmay

theorem unregistering_of_retried (h : Retried store store' rsp a) :
    Unregistering rsp.messages := by
  obtain ⟨_, _, -, -, -, hmsgs⟩ := h
  simp [Unregistering, hmsgs]

/-- Callbacks register no query. -/
theorem callback_unregistering {payload : SudoPayload} {answer : Answer}
    (h : callback store env payload answer = .ok (store', rsp)) :
    Unregistering rsp.messages := by
  have hfailed : sudoFailedCallback store payload = .ok (store', rsp) →
      Unregistering rsp.messages := by
    intro hfailed
    by_cases hkind : payload.txType = .stakeLsm
    · simp only [sudoFailedCallback, hkind] at hfailed
      obtain ⟨_, _, -, hmsgs⟩ := sudoStakeLsmFailedCallback_ok hfailed
      simp [Unregistering, hmsgs]
    · rw [sudoFailedCallback_silent hkind hfailed]
      simp [Unregistering]
  cases answer with
  | success =>
      by_cases hkind : payload.txType = .stakeLsm
      · simp only [callback, sudoCallback, hkind] at h
        obtain ⟨_, _, _, _, -, -, -, -, hmsgs⟩ := sudoStakeLsmCallback_ok h
        simp [Unregistering, hmsgs]
      · rw [sudoCallback_silent hkind h]
        simp [Unregistering]
  | error => exact hfailed h
  | timeout => exact hfailed h

end

end NeutronContracts
