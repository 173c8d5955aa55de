/-
The coins that come to the contract and leave it: the funds of a call, what
the messages of its response spend, and what comes back when a transfer fails.
-/
import NeutronContracts.Chain.Waiting

namespace NeutronContracts

open StakeManager Fallible

def StakeManager.IbcFee.coins (fee : IbcFee) : List Coin :=
  fee.recvFee ++ fee.ackFee ++ fee.timeoutFee

/-- The coins a message takes from the contract.  The deposit of a query is no
part of its message; the chain takes it in the fee denom. -/
def StakeManager.CosmosMsg.spends : CosmosMsg → List Coin
  | .bankSend _ amount => amount
  | .ibcTransfer transfer => transfer.token :: transfer.fee.coins
  | .submitTx tx => tx.fee.coins
  | .registerInterchainAccount _ _ registerFee => registerFee.getD []
  | _ => []

/-- What the messages spend of one denom. -/
def spent (denom : String) (subs : List SubMsg) : Nat :=
  amountOf denom (subs.flatMap (·.msg.spends))

/-- The messages spend nothing but fees. -/
def Frugal (subs : List SubMsg) : Prop :=
  ∀ sub ∈ subs, ∀ coin ∈ sub.msg.spends, coin.denom = feeDenom

theorem amountOf_eq_zero {denom : String} {coins : List Coin}
    (h : ∀ coin ∈ coins, coin.denom ≠ denom) : amountOf denom coins = 0 := by
  induction coins with
  | nil => rfl
  | cons coin rest ih =>
      rw [List.forall_mem_cons] at h
      have hrest := ih h.2
      simp only [amountOf] at hrest ⊢
      simp [h.1, hrest]

theorem spent_of_frugal {denom : String} {subs : List SubMsg}
    (hdenom : denom ≠ feeDenom) (h : Frugal subs) : spent denom subs = 0 := by
  refine amountOf_eq_zero fun coin hcoin => ?_
  obtain ⟨sub, hsub, hcoin⟩ := List.mem_flatMap.mp hcoin
  rw [h sub hsub coin hcoin]
  exact hdenom.symm

theorem spent_append (denom : String) (first second : List SubMsg) :
    spent denom (first ++ second) = spent denom first + spent denom second := by
  simp [spent]

/-- A transfer spends its token, and the fee in the fee denom. -/
theorem spent_transfer {denom : String} {transfer : IbcTransfer}
    {replyOnSuccess : Option Nat} {payload : Option SudoPayload}
    (hdenom : denom ≠ feeDenom)
    (h : ∀ coin ∈ transfer.fee.coins, coin.denom = feeDenom) :
    spent denom [⟨.ibcTransfer transfer, replyOnSuccess, payload⟩] =
      amountOf denom [transfer.token] := by
  have hfee : amountOf denom transfer.fee.coins = 0 :=
    amountOf_eq_zero fun coin hcoin => by rw [h coin hcoin]; exact hdenom.symm
  have hparts := amountOf_append denom [transfer.token] transfer.fee.coins
  rw [hfee, Nat.add_zero] at hparts
  simpa [spent, CosmosMsg.spends] using hparts

theorem minNtrnIbcFee_coins (fee : IbcFee) :
    ∀ coin ∈ (minNtrnIbcFee fee).coins, coin.denom = feeDenom := by
  simp only [IbcFee.coins, minNtrnIbcFee, List.mem_append, List.mem_filter,
    decide_eq_true_eq]
  rintro coin ((⟨-, h⟩ | ⟨-, h⟩) | ⟨-, h⟩) <;> exact h

namespace Frugal

theorem nil : Frugal [] := by
  simp [Frugal]

/-- A packet of host messages spends its fee. -/
theorem submitTx {tx : SubmitTx} {replyOnSuccess : Option Nat}
    {payload : Option SudoPayload}
    (h : ∀ coin ∈ tx.fee.coins, coin.denom = feeDenom) :
    Frugal [⟨.submitTx tx, replyOnSuccess, payload⟩] := by
  simpa [Frugal, CosmosMsg.spends] using h

/-- Messages that take no coins. -/
theorem of_free {subs : List SubMsg} (h : ∀ sub ∈ subs, sub.msg.spends = []) :
    Frugal subs := by
  intro sub hsub coin hcoin
  rw [h sub hsub] at hcoin
  cases hcoin

end Frugal

section

variable {store store' next : Storage} {querier : Querier} {env : Env}
  {info : MessageInfo} {rsp : Response} {a : String}

theorem checkIbcFee_coins {fee : IbcFee}
    (h : checkIbcFee querier info = .ok fee) :
    ∀ coin ∈ fee.coins, coin.denom = feeDenom := by
  simp only [checkIbcFee, bind_eq_ok, pure_eq_ok] at h
  obtain ⟨minFee, -, _, -, _, -, rfl⟩ := h
  exact minNtrnIbcFee_coins minFee

theorem icqMsgs_frugal {icaId : String} {period : Nat} {icq : List CosmosMsg}
    (h : getUpdatePoolIcqMsgs store a icaId period = .ok icq) :
    Frugal (icq.map (⟨·, none, none⟩)) := by
  obtain ⟨_, _, _, _, rfl⟩ := getUpdatePoolIcqMsgs_ok h
  exact .of_free (by simp [CosmosMsg.spends])

theorem executeWithdraw_frugal {receiver : String} {indexes : List Nat}
    (h : executeWithdraw store querier info a receiver indexes =
      .ok (store', rsp)) : Frugal rsp.messages := by
  simp only [executeWithdraw, bind_eq_ok, Prod.exists,
    msgWithSudoCallback_eq, pure_eq_ok, Prod.mk.injEq] at h
  obtain ⟨_, -, _, -, _, _, -, _, -, fee, hfee, _, _, _, -, -, rfl⟩ := h
  exact .submitTx (checkIbcFee_coins hfee)

theorem executeRedeemTokenForShare_frugal {tokens : List Coin}
    (h : executeRedeemTokenForShare store querier info a tokens =
      .ok (store', rsp)) : Frugal rsp.messages := by
  simp only [executeRedeemTokenForShare, bind_eq_ok, Prod.exists,
    msgWithSudoCallback_eq, pure_eq_ok, Prod.mk.injEq] at h
  obtain ⟨_, -, _, -, _, -, _, _, _, -, _, -, fee, hfee, -, rfl⟩ := h
  exact .submitTx (checkIbcFee_coins hfee)

theorem executeRmPoolValidator_frugal {validatorAddr : String}
    (h : executeRmPoolValidator store querier info a validatorAddr =
      .ok (store', rsp)) : Frugal rsp.messages := by
  simp only [executeRmPoolValidator, bind_eq_ok] at h
  obtain ⟨_, -, _, -, _, -, _, -, _, -, _, -, _, -, h⟩ := h
  split at h
  · cases h
    exact .nil
  · split at h
    · cases h
      exact .nil
    · simp only [bind_eq_ok, Prod.exists, msgWithSudoCallback_eq, pure_eq_ok,
        Prod.mk.injEq] at h
      obtain ⟨fee, hfee, _, _, _, -, _, -, -, rfl⟩ := h
      exact .submitTx (checkIbcFee_coins hfee)

theorem executePoolUpdateValidator_frugal {oldValidator newValidator : String}
    (h : executePoolUpdateValidator store querier info a oldValidator
      newValidator = .ok (store', rsp)) : Frugal rsp.messages := by
  simp only [executePoolUpdateValidator, bind_eq_ok, Prod.exists] at h
  obtain ⟨_, -, _, -, _, -, _, -, _, -, _, -, _, -, _, _, _, -, h⟩ := h
  split at h
  · simp only [bind_eq_ok, msgWithSudoCallback_eq, pure_eq_ok,
      Prod.mk.injEq] at h
    obtain ⟨fee, hfee, -, rfl⟩ := h
    exact .submitTx (checkIbcFee_coins hfee)
  · cases h
    exact .nil

theorem executePoolDelegate_frugal {amount : Nat}
    (h : executePoolDelegate store querier info a amount =
      .ok (store', rsp)) : Frugal rsp.messages := by
  simp only [executePoolDelegate, bind_eq_ok, Prod.exists, pure_eq_ok,
    Prod.mk.injEq] at h
  obtain ⟨_, -, _, -, _, -, _, -, _, _, _, -, fee, hfee, -, rfl⟩ := h
  exact .submitTx (checkIbcFee_coins hfee)

theorem executeEraBond_frugal {selectVals : List String}
    (h : executeEraBond store querier env info a selectVals =
      .ok (store', rsp)) : Frugal rsp.messages := by
  simp only [executeEraBond, bind_eq_ok, Prod.exists, msgWithSudoCallback_eq,
    pure_eq_ok, Prod.mk.injEq] at h
  obtain ⟨_, -, _, -, _, _, _, -, _, _, _, -, fee, hfee, -, rfl⟩ := h
  exact .submitTx (checkIbcFee_coins hfee)

theorem executeEraCollectWithdraw_frugal
    (h : executeEraCollectWithdraw store querier info a =
      .ok (store', rsp)) : Frugal rsp.messages := by
  simp only [executeEraCollectWithdraw, bind_eq_ok, Prod.exists] at h
  obtain ⟨_, -, _, -, _, _, _, -, _, -, h⟩ := h
  split at h
  · cases h
    exact .nil
  · simp only [bind_eq_ok, msgWithSudoCallback_eq, pure_eq_ok,
      Prod.mk.injEq] at h
    obtain ⟨fee, hfee, -, rfl⟩ := h
    exact .submitTx (checkIbcFee_coins hfee)

theorem executeEraRebond_frugal {selectVals : List String}
    (h : executeEraRebond store querier info a selectVals =
      .ok (store', rsp)) : Frugal rsp.messages := by
  simp only [executeEraRebond, bind_eq_ok, Prod.exists] at h
  obtain ⟨_, -, _, -, _, _, _, -, h⟩ := h
  split at h
  · cases h
    exact .nil
  · simp only [bind_eq_ok, msgWithSudoCallback_eq, pure_eq_ok,
      Prod.mk.injEq] at h
    obtain ⟨_, -, fee, hfee, -, rfl⟩ := h
    exact .submitTx (checkIbcFee_coins hfee)

theorem setWithdrawSubMsg_frugal {p : PoolInfo}
    {poolIcaInfo withdrawIcaInfo : IcaInfo} {sub : SubMsg}
    (h : setWithdrawSubMsg store querier p poolIcaInfo withdrawIcaInfo =
      .ok (next, sub)) : Frugal [sub] := by
  simp only [setWithdrawSubMsg, bind_eq_ok, msgWithSudoCallback_eq,
    pure_eq_ok, Prod.mk.injEq] at h
  obtain ⟨minFee, -, -, rfl⟩ := h
  exact .submitTx (minNtrnIbcFee_coins minFee)

theorem retrySetWithdraw_frugal {p : PoolInfo}
    {poolIcaInfo withdrawIcaInfo : IcaInfo} {fee : Nat}
    (h : retrySetWithdraw store querier info p poolIcaInfo withdrawIcaInfo
      fee = .ok (store', rsp)) : Frugal rsp.messages := by
  simp only [retrySetWithdraw, bind_eq_ok, Prod.exists, pure_eq_ok,
    Prod.mk.injEq] at h
  obtain ⟨_, -, _, sub, hset, -, rfl⟩ := h
  exact setWithdrawSubMsg_frugal hset

theorem dealPool_frugal {p : PoolInfo} {poolIcaInfo withdrawIcaInfo : IcaInfo}
    {lsdCodeId : Nat} {name symbol : String}
    (h : dealPool store querier env info p poolIcaInfo withdrawIcaInfo
      lsdCodeId name symbol = .ok (store', rsp)) : Frugal rsp.messages := by
  simp only [dealPool, bind_eq_ok, Prod.exists, pure_eq_ok,
    Prod.mk.injEq] at h
  obtain ⟨_, -, _, -, _, -, _, -, _, -, _, subs, hqueries, _, sub, hset, -,
    rfl⟩ := h
  obtain ⟨-, _, _, _, _, _, _, rfl⟩ := registerPoolQueries_ok hqueries
  have hlast := setWithdrawSubMsg_frugal hset
  simp only [Frugal, List.forall_mem_singleton] at hlast
  simpa [Frugal, CosmosMsg.spends] using hlast

theorem executeInitPool_frugal {param : InitPoolParams}
    (h : executeInitPool store querier env info param = .ok (store', rsp)) :
    Frugal rsp.messages := by
  simp only [executeInitPool, bind_eq_ok, Prod.exists] at h
  obtain ⟨_, -, _, -, _, _, _, -, _, -, _, -, _, -, _, -, h⟩ := h
  split at h
  · exact retrySetWithdraw_frugal h
  · simp only [bind_eq_ok] at h
    obtain ⟨_, -, _, -, _, -, _, -, _, -, _, -, h⟩ := h
    exact dealPool_frugal h

theorem executeMigratePool_frugal {param : MigratePoolParams}
    (h : executeMigratePool store querier env info param =
      .ok (store', rsp)) : Frugal rsp.messages := by
  simp only [executeMigratePool, bind_eq_ok, Prod.exists] at h
  obtain ⟨_, _, _, -, _, -, _, -, _, -, _, -, h⟩ := h
  split at h
  · exact retrySetWithdraw_frugal h
  · simp only [bind_eq_ok] at h
    obtain ⟨_, -, _, -, _, -, _, -, _, -, _, -, h⟩ := h
    exact dealPool_frugal h

theorem executeRegisterPool_frugal {connectionId icaId : String}
    (h : executeRegisterPool store env info connectionId icaId =
      .ok (store', rsp)) : Frugal rsp.messages := by
  simp only [executeRegisterPool, bind_eq_ok] at h
  obtain ⟨_, -, _, -, _, -, _, -, h⟩ := h
  split at h
  case h_2 => cases h
  case h_1 coin hfunds =>
      simp only [bind_eq_ok, rejectIf_eq_ok, not_not, pure_eq_ok,
        Prod.mk.injEq] at h
      obtain ⟨_, hdenom, -, rfl⟩ := h
      simp [Frugal, CosmosMsg.spends, hdenom]

/-- The fee for a new channel is the funds of the call. -/
theorem executeOpenChannel_spent {channelId denom : String}
    (h : executeOpenChannel store info a channelId = .ok (store', rsp)) :
    spent denom rsp.messages = amountOf denom info.funds := by
  have hfee : (if info.funds = [] then none else some info.funds).getD [] =
      info.funds := by
    cases info.funds <;> rfl
  simp only [executeOpenChannel, bind_eq_ok, Prod.exists] at h
  obtain ⟨_, -, _, -, _, _, _, -, h⟩ := h
  split at h
  · cases h
    simp [spent, CosmosMsg.spends, hfee]
  · split at h <;> cases h
    simp [spent, CosmosMsg.spends, hfee]

/-- An accepted stake of shares sends its coin on. -/
theorem executeStakeLsm_spent {user denom : String}
    (hdenom : denom ≠ feeDenom)
    (h : executeStakeLsm store querier env info user a =
      .ok (store', rsp)) :
    spent denom rsp.messages = amountOf denom info.funds := by
  simp only [executeStakeLsm, bind_eq_ok, Prod.exists] at h
  obtain ⟨_, -, _, -, _, -, _, -, _, -, _, _, _, -, _, -, h⟩ := h
  split at h
  case h_2 => cases h
  case h_1 coin hfunds =>
      simp only [bind_eq_ok] at h
      obtain ⟨_, -, _, -, _, -, h⟩ := h
      split at h
      case h_2 => cases h
      case h_1 =>
          split at h
          case h_2 => cases h
          case h_1 =>
              simp only [bind_eq_ok, msgWithSudoCallback_eq, pure_eq_ok,
                Prod.mk.injEq] at h
              obtain ⟨_, -, _, -, _, -, _, -, _, -, minFee, -, _, -, -,
                rfl⟩ := h
              rw [hfunds]
              refine spent_transfer hdenom ?_
              exact minNtrnIbcFee_coins minFee

/-- The update of an era transfers the bond of its pool, if there is one. -/
theorem executeEraUpdate_spent {p : PoolInfo} {denom : String}
    (hdenom : denom ≠ feeDenom) (hp : store.pools a = some p)
    (h : executeEraUpdate store querier env info a = .ok (store', rsp)) :
    spent denom rsp.messages = if p.ibcDenom = denom then p.bond else 0 := by
  simp only [executeEraUpdate, bind_eq_ok, orError_eq_ok, addBelow_eq_ok,
    hp, Option.some.injEq, exists_eq_left'] at h
  obtain ⟨_, -, _, -, _, -, _, -, _, ⟨-, rfl⟩, icq, hicq, h⟩ := h
  have hqueries := spent_of_frugal hdenom (icqMsgs_frugal hicq)
  split at h
  case isTrue hbond =>
      cases h
      simp only [Response.addMessages_messages, Response.new_messages,
        List.nil_append, hqueries]
      simp [show p.bond = 0 from hbond]
  case isFalse =>
      simp only [bind_eq_ok, Prod.exists, msgWithSudoCallback_eq, pure_eq_ok,
        Prod.mk.injEq] at h
      obtain ⟨fee, hfee, _, -, _, _, _, -, -, rfl⟩ := h
      simp only [Response.addSubmessage_messages,
        Response.addMessages_messages, Response.new_messages,
        List.nil_append, spent_append, hqueries, Nat.zero_add]
      refine (spent_transfer hdenom ?_).trans ?_
      · exact checkIbcFee_coins hfee
      · simp [amountOf]

theorem mintFee_spends {token recipient : String} {fee : Nat} {msg : CosmosMsg}
    (h : msg ∈ mintFee token recipient fee) : msg.spends = [] := by
  unfold mintFee at h
  split at h
  · rw [List.mem_singleton.mp h]
    rfl
  · cases h

theorem executeEraActive_frugal
    (h : executeEraActive store querier a = .ok (store', rsp)) :
    Frugal rsp.messages := by
  obtain ⟨p, stackInfo, act, fees, icq, next, -, -, -, -, -, -, hicq, hmsgs⟩ :=
    executeEraActive_ok h
  obtain ⟨_, _, _, _, rfl⟩ := getUpdatePoolIcqMsgs_ok hicq
  rw [hmsgs]
  refine .of_free fun sub hsub => ?_
  obtain ⟨msg, hmsg, rfl⟩ := List.mem_map.mp hsub
  simp only [List.mem_append, List.mem_cons, List.not_mem_nil,
    or_false] at hmsg
  rcases hmsg with (hmsg | hmsg) | rfl | rfl | rfl | rfl
  · exact mintFee_spends hmsg
  · exact mintFee_spends hmsg
  all_goals rfl

/-- A call spends its funds at most, apart from the update of an era, which
transfers the bond of its pool. -/
theorem execute_spent {msg : ExecuteMsg} {denom : String}
    (hdenom : denom ≠ feeDenom)
    (h : execute store querier env info msg = .ok (store', rsp)) :
    spent denom rsp.messages ≤ amountOf denom info.funds ∨
      ∃ b p, msg = .eraUpdate b ∧ store.pools b = some p ∧
        p.status = .activeEnded ∧ p.ibcDenom = denom ∧
        spent denom rsp.messages = p.bond := by
  have hfrugal : Frugal rsp.messages →
      spent denom rsp.messages ≤ amountOf denom info.funds ∨
        ∃ b p, msg = .eraUpdate b ∧ store.pools b = some p ∧
          p.status = .activeEnded ∧ p.ibcDenom = denom ∧
          spent denom rsp.messages = p.bond := by
    intro hfrugal
    exact .inl ((spent_of_frugal hdenom hfrugal).le.trans (Nat.zero_le _))
  cases msg with
  | registerPool connectionId icaId =>
      exact hfrugal (executeRegisterPool_frugal h)
  | initPool param => exact hfrugal (executeInitPool_frugal h)
  | migratePool param => exact hfrugal (executeMigratePool_frugal h)
  | configPool param =>
      obtain ⟨_, _, _, _, -, rfl⟩ := executeConfigPool_ok h
      exact hfrugal .nil
  | configStack param =>
      obtain ⟨_, _, _, _, -, rfl⟩ := executeConfigStack_ok h
      exact hfrugal .nil
  | openChannel poolAddr channelId =>
      exact .inl (executeOpenChannel_spent h).le
  | redeemTokenForShare poolAddr tokens =>
      exact hfrugal (executeRedeemTokenForShare_frugal h)
  | stake user poolAddr =>
      obtain ⟨_, _, _, _, _, _, -, hmsgs⟩ := executeStake_ok h
      exact hfrugal (.of_free (by simp [hmsgs, CosmosMsg.spends]))
  | unstake amount poolAddr =>
      obtain ⟨_, _, _, _, _, _, _, _, _, _, _, _, -, hmsgs⟩ :=
        executeUnstake_ok h
      exact hfrugal (.of_free (by simp [hmsgs, CosmosMsg.spends]))
  | withdraw poolAddr receiver indexes =>
      exact hfrugal (executeWithdraw_frugal h)
  | poolRmValidator poolAddr validatorAddr =>
      exact hfrugal (executeRmPoolValidator_frugal h)
  | poolAddValidator poolAddr validatorAddr =>
      obtain ⟨_, _, _, _, _, _, _, -, hmsgs⟩ := executeAddPoolValidators_ok h
      exact hfrugal (.of_free (by simp [hmsgs, CosmosMsg.spends]))
  | poolUpdateValidator poolAddr oldValidator newValidator =>
      exact hfrugal (executePoolUpdateValidator_frugal h)
  | poolUpdateValidatorsIcq poolAddr =>
      obtain ⟨_, _, _, _, _, -, hmsgs⟩ := executeUpdateValidatorsIcq_ok h
      exact hfrugal (.of_free (by simp [hmsgs, CosmosMsg.spends]))
  | poolDelegate poolAddr amount =>
      exact hfrugal (executePoolDelegate_frugal h)
  | eraUpdate poolAddr =>
      obtain ⟨p, icq, hp, hstatus, -, hicq, ⟨-, -, hmsgs⟩ | ⟨-, hsent⟩⟩ :=
        executeEraUpdate_ok h
      · exact hfrugal (hmsgs ▸ icqMsgs_frugal hicq)
      · have hspent : spent denom rsp.messages =
            if p.ibcDenom = denom then p.bond else 0 :=
          executeEraUpdate_spent hdenom hp h
        by_cases hpool : p.ibcDenom = denom
        · exact .inr ⟨poolAddr, p, rfl, hp, hstatus, hpool,
            by rw [hspent, if_pos hpool]⟩
        · rw [if_neg hpool] at hspent
          exact .inl (hspent.le.trans (Nat.zero_le _))
  | eraBond poolAddr selectVals => exact hfrugal (executeEraBond_frugal h)
  | eraCollectWithdraw poolAddr =>
      exact hfrugal (executeEraCollectWithdraw_frugal h)
  | eraRebond poolAddr selectVals => exact hfrugal (executeEraRebond_frugal h)
  | eraActive poolAddr => exact hfrugal (executeEraActive_frugal h)
  | stakeLsm user poolAddr => exact .inl (executeStakeLsm_spent hdenom h).le
  | updateIcqUpdatePeriod poolAddr period =>
      obtain ⟨_, icq, _, hicq, -, hmsgs⟩ := updateIcqUpdatePeriod_ok h
      exact hfrugal (hmsgs ▸ icqMsgs_frugal hicq)

/-- Only the callbacks of a stake of shares send messages. -/
theorem sudoCallback_silent {payload : SudoPayload}
    (hkind : payload.txType ≠ .stakeLsm)
    (h : sudoCallback store env payload = .ok (store', rsp)) :
    rsp.messages = [] := by
  unfold sudoCallback at h
  split at h
  case h_1 =>
      obtain ⟨_, -, -, rfl⟩ := sudoSetWithdrawAddrCallback_ok.mp h
      rfl
  case h_2 =>
      obtain ⟨_, -, -, rfl⟩ := sudoEraUpdateCallback_ok.mp h
      rfl
  case h_3 =>
      obtain ⟨_, _, -, -, -, -, rfl⟩ := sudoEraBondCallback_ok h
      rfl
  case h_4 =>
      obtain ⟨_, -, -, rfl⟩ := sudoEraCollectWithdrawCallback_ok.mp h
      rfl
  case h_5 =>
      obtain ⟨_, -, -, rfl⟩ := sudoEraRebondCallback_ok.mp h
      rfl
  case h_6 => exact (sudoWithdrawCallback_store h).2
  case h_7 =>
      obtain ⟨_, -, -, rfl⟩ := sudoUpdateValidatorCallback_ok.mp h
      rfl
  case h_8 =>
      obtain ⟨_, -, -, rfl⟩ := sudoRmValidatorCallback_ok.mp h
      rfl
  case h_9 htype => exact absurd htype hkind
  case h_10 =>
      obtain ⟨_, -, -, rfl⟩ := sudoRedeemTokenForShareCallback_ok.mp h
      rfl

theorem sudoFailedCallback_silent {payload : SudoPayload}
    (hkind : payload.txType ≠ .stakeLsm)
    (h : sudoFailedCallback store payload = .ok (store', rsp)) :
    rsp.messages = [] := by
  unfold sudoFailedCallback at h
  split at h
  case h_1 =>
      obtain ⟨_, -, -, rfl⟩ := sudoSetWithdrawAddrFailedCallback_ok.mp h
      rfl
  case h_2 =>
      obtain ⟨_, -, -, -, rfl⟩ := sudoEraUpdateFailedCallback_ok.mp h
      rfl
  case h_3 =>
      obtain ⟨_, -, -, rfl⟩ := sudoEraBondFailedCallback_ok.mp h
      rfl
  case h_4 =>
      obtain ⟨_, -, -, rfl⟩ := sudoEraCollectWithdrawFailedCallback_ok.mp h
      rfl
  case h_5 =>
      obtain ⟨_, -, -, rfl⟩ := sudoEraRebondFailedCallback_ok.mp h
      rfl
  case h_6 => exact (sudoWithdrawFailedCallback_store h).2
  case h_7 =>
      obtain ⟨_, -, -, rfl⟩ := endValidatorUpdate_ok.mp h
      rfl
  case h_8 =>
      obtain ⟨_, -, -, rfl⟩ := endValidatorUpdate_ok.mp h
      rfl
  case h_9 htype => exact absurd htype hkind
  case h_10 =>
      obtain ⟨_, -, -, rfl⟩ :=
        sudoRedeemTokenForShareFailedCallback_ok.mp h
      rfl

/-- A callback takes no coins, apart from the refund of a stake of shares. -/
theorem callback_spent {payload : SudoPayload} {answer : Answer}
    (h : callback store env payload answer = .ok (store', rsp)) :
    Frugal rsp.messages ∨ payload.txType = .stakeLsm ∧
      answer ≠ .success ∧
      sudoStakeLsmFailedCallback store payload = .ok (store', rsp) := by
  by_cases hkind : payload.txType = .stakeLsm
  · cases answer with
    | success =>
        simp only [callback, sudoCallback, hkind] at h
        obtain ⟨_, _, _, _, -, -, -, -, hmsgs⟩ := sudoStakeLsmCallback_ok h
        exact .inl (.of_free (by simp [hmsgs, CosmosMsg.spends]))
    | error =>
        simp only [callback, sudoFailedCallback, hkind] at h
        exact .inr ⟨hkind, by decide, h⟩
    | timeout =>
        simp only [callback, sudoFailedCallback, hkind] at h
        exact .inr ⟨hkind, by decide, h⟩
  · have hmsgs : rsp.messages = [] := by
      cases answer with
      | success => exact sudoCallback_silent hkind h
      | error => exact sudoFailedCallback_silent hkind h
      | timeout => exact sudoFailedCallback_silent hkind h
    rw [hmsgs]
    exact .inl .nil

end

namespace World

/-- The messages of a handler, none when it fails. -/
def messages (result : NeutronResult (Storage × Response)) : List SubMsg :=
  (result.toOption.map (·.2.messages)).getD []

/-- The messages that an accepted event executes.  Those of a callback are
executed when none of them fails. -/
def emitted (net : Network) (w : World) (ev : Event) : List SubMsg :=
  let w := { w with block := ev.block }
  match ev.action with
  | .execute querier info msg _ =>
      messages (execute w.store querier (w.env net) info msg)
  | .answer id answer querier bankAccepts =>
      let result := sudoEntry w.store (w.env net) (answerMsg id answer)
      if ({ w with pending := w.pending.remove id }.commit net
          ⟨querier, bankAccepts, none⟩ result).isSome then messages result
      else []
  | .kvQueryResult queryId _ =>
      messages (sudoEntry w.store (w.env net) (.kvQueryResult queryId))
  | .openAck _ _ _ _ => []
  | .token _ _ _ _ => []

/-- The coins that a failed transfer returns to the contract, before its
callback is called. -/
def returned (w : World) (id : PacketId) (answer : Answer) : List Coin :=
  match answer, w.pending id with
  | .success, _ => []
  | _, some ⟨.ibcTransfer transfer, _, _, _⟩ => [transfer.token]
  | _, _ => []

/-- The coins that come to the contract with an event. -/
def received (w : World) (ev : Event) : List Coin :=
  match ev.action with
  | .execute _ info _ _ => info.funds
  | .answer id answer _ _ => w.returned id answer
  | _ => []

variable {net : Network} {w w' : World} {ev : Event} {querier : Querier}
  {info : MessageInfo} {msg : ExecuteMsg} {id : PacketId} {packet : Packet}
  {answer : Answer} {bankAccepts : Bool}

/-- A call executes the messages of its response. -/
theorem emitted_of_exec {store : Storage} {rsp : Response}
    {sent : Option SubMsg}
    (haction : ev.action = .execute querier info msg id)
    (hexec : Executed net { w with block := ev.block } w' querier info msg id
      store rsp sent) : emitted net w ev = rsp.messages := by
  simp only [emitted, haction, hexec.call, messages]
  rfl

/-- The answer to a packet executes the messages of its callback, or none. -/
theorem emitted_of_answer (hs : Sound net w)
    (haction : ev.action = .answer id answer querier bankAccepts)
    (hpacket : w.pending id = some packet) :
    emitted net w ev = [] ∨ ∃ payload store rsp,
      packet.payload = some payload ∧
      callback (w.afterTake id) ⟨ev.block, net.self⟩ payload answer =
        .ok (store, rsp) ∧
      emitted net w ev = rsp.messages := by
  have hstored := hs.payload id packet hpacket
  simp only [emitted, haction]
  cases hpayload : packet.payload with
  | none =>
      rw [hpayload] at hstored
      left
      split
      · rw [sudoEntry_of_no_payload hstored]
        rfl
      · rfl
  | some payload =>
      rw [hpayload] at hstored
      rw [sudoEntry_of_payload hstored]
      split
      · cases hcall : callback (w.afterTake id) ⟨ev.block, net.self⟩ payload
          answer with
        | error e =>
            left
            exact congrArg messages hcall
        | ok result =>
            right
            exact ⟨payload, result.1, result.2, rfl, hcall,
              congrArg messages hcall⟩
      · exact .inl rfl

/-- The messages of a callback whose delivery succeeds. -/
theorem emitted_of_handled (hs : Sound net w)
    (haction : ev.action = .answer id answer querier bankAccepts)
    (hpacket : w.pending id = some packet) {payload : SudoPayload}
    {store : Storage} {rsp : Response}
    (hpayload : packet.payload = some payload)
    (hcall : callback (w.afterTake id) ⟨ev.block, net.self⟩ payload answer =
      .ok (store, rsp))
    (hdelivered : deliverAll net ⟨querier, bankAccepts, none⟩
      { w with
        block := ev.block
        pending := w.pending.remove id
        store := store } rsp.messages = some w') :
    emitted net w ev = rsp.messages := by
  have hstored := hs.payload id packet hpacket
  rw [hpayload] at hstored
  have hentry : sudoEntry w.store ⟨ev.block, net.self⟩ (answerMsg id answer) =
      .ok (store, rsp) := by
    rw [sudoEntry_of_payload hstored]
    exact hcall
  simp only [emitted, haction]
  change (if (commit net _ _ (sudoEntry w.store ⟨ev.block, net.self⟩ _)).isSome
    then messages (sudoEntry w.store ⟨ev.block, net.self⟩ _) else []) = _
  rw [hentry]
  simp only [commit, hdelivered]
  rfl

/-- A callback in vain executes nothing. -/
theorem emitted_of_vain (hs : Sound net w)
    (haction : ev.action = .answer id answer querier bankAccepts)
    (hpacket : w.pending id = some packet)
    (hvain : ∀ payload store rsp, packet.payload = some payload →
      callback (w.afterTake id) ⟨ev.block, net.self⟩ payload answer =
        .ok (store, rsp) →
      deliverAll net ⟨querier, bankAccepts, none⟩
        { w with
          block := ev.block
          pending := w.pending.remove id
          store := store } rsp.messages = none) :
    emitted net w ev = [] := by
  have hstored := hs.payload id packet hpacket
  simp only [emitted, haction]
  change (if (commit net _ _ (sudoEntry w.store ⟨ev.block, net.self⟩ _)).isSome
    then messages (sudoEntry w.store ⟨ev.block, net.self⟩ _) else []) = _
  cases hpayload : packet.payload with
  | none =>
      rw [hpayload] at hstored
      rw [sudoEntry_of_no_payload hstored]
      rfl
  | some payload =>
      rw [hpayload] at hstored
      rw [sudoEntry_of_payload hstored]
      cases hcall : callback (w.afterTake id) ⟨ev.block, net.self⟩ payload
        answer with
      | error e =>
          change (if (commit net _ _ (callback (w.afterTake id) _ _ _)).isSome
            then messages (callback (w.afterTake id) _ _ _) else []) = _
          rw [hcall]
          rfl
      | ok result =>
          change (if (commit net _ _ (callback (w.afterTake id) _ _ _)).isSome
            then messages (callback (w.afterTake id) _ _ _) else []) = _
          rw [hcall]
          simp only [commit, hvain payload result.1 result.2 hpayload hcall]
          rfl

end World

end NeutronContracts
