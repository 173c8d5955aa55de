/-
The payloads that wait for the reply to their packet: every accepted call
saves at most one, in the next cell of the ring of reply ids, and sends at
most one packet, whose reply comes under that id.
-/
import NeutronContracts.Chain.PoolStep
import NeutronContracts.Lib.Wheel

namespace NeutronContracts

open StakeManager Fallible

/-- The saved payloads under their reply ids. -/
def StakeManager.Storage.mailbox (store : Storage) : Wheel SudoPayload :=
  ⟨store.replyIdToPayload, store.latestReplyId⟩

/-- What a call saves: nothing, or the payload of the packet it sends. -/
inductive Mailed (store store' : Storage) : Option SubMsg → Prop
  | nothing {sent : Option SubMsg}
      (hsent : ∀ sub ∈ sent, sub.replyOnSuccess = none ∧ sub.payload = none)
      (hsame : store'.mailbox = store.mailbox) : Mailed store store' sent
  | payload {msg : CosmosMsg} {payload : SudoPayload}
      (hput : store'.mailbox =
        store.mailbox.put replyIdRangeStart replyIdRangeEnd payload) :
      Mailed store store' (some ⟨msg, some store.replyId, some payload⟩)

/-- A call sends one packet at most and has its payload saved. -/
structure Posts (store store' : Storage) (subs : List SubMsg)
    (sent : Option SubMsg) : Prop where
  packets : packets subs = sent.toList
  sudoPayload : store'.sudoPayload = store.sudoPayload
  mailed : Mailed store store' sent

section

variable {store store' next : Storage} {querier : Querier} {env : Env}
  {info : MessageInfo} {msg : ExecuteMsg} {rsp : Response}
  {subs : List SubMsg} {a b : String} {p : PoolInfo}

/-- A call without a packet saves nothing. -/
theorem posts_nothing (hpackets : packets subs = [])
    (hpayload : store'.sudoPayload = store.sudoPayload)
    (hsame : store'.mailbox = store.mailbox) :
    ∃ sent, Posts store store' subs sent :=
  ⟨none, hpackets, hpayload, .nothing (by simp) hsame⟩

/-- A call that only sends a packet. -/
theorem posts_packet {msg : CosmosMsg} {payload : SudoPayload}
    (hpacket : isPacket ⟨msg, some store.replyId, some payload⟩ = true)
    (hsubs : subs = [⟨msg, some store.replyId, some payload⟩])
    (hpayload : store'.sudoPayload = store.sudoPayload)
    (hput : store'.mailbox =
      store.mailbox.put replyIdRangeStart replyIdRangeEnd payload) :
    ∃ sent, Posts store store' subs sent :=
  ⟨_, packets_single hpacket hsubs, hpayload, .payload hput⟩

theorem posts_of_dealt (h : Dealt store store' rsp querier a p b) :
    ∃ sent, Posts store store' rsp.messages sent := by
  obtain ⟨_, next, tx, payload, _, _, _, _, _, _, _, _, _, _, _, _, _, -, -, -,
    ⟨_, _, _, rfl⟩, -, -, rfl, hmsgs⟩ := h
  exact ⟨some ⟨.submitTx tx, some store.replyId, some payload⟩,
    by rw [hmsgs]; rfl, rfl, .payload rfl⟩

theorem posts_of_retried (h : Retried store store' rsp a) :
    ∃ sent, Posts store store' rsp.messages sent := by
  obtain ⟨tx, payload, -, -, rfl, hmsgs⟩ := h
  exact posts_packet rfl hmsgs rfl rfl

theorem packets_of_icq {icaId : String} {period : Nat} {icq : List CosmosMsg}
    (h : getUpdatePoolIcqMsgs store a icaId period = .ok icq) :
    packets (icq.map (⟨·, none, none⟩)) = [] := by
  obtain ⟨_, _, _, _, rfl⟩ := getUpdatePoolIcqMsgs_ok h
  rfl

/-- Every accepted call sends one packet at most, and saves its payload. -/
theorem execute_posts
    (h : execute store querier env info msg = .ok (store', rsp)) :
    ∃ sent, Posts store store' rsp.messages sent := by
  cases msg with
  | registerPool connectionId interchainAccountId =>
      obtain ⟨_, -, -, rfl, hmsgs⟩ := executeRegisterPool_ok h
      exact posts_nothing (by rw [hmsgs]; rfl) rfl rfl
  | initPool param =>
      obtain ⟨_, _, _, _, -, -, -, ⟨-, hretry⟩ | ⟨-, _, _, hdealt⟩⟩ :=
        executeInitPool_ok h
      · exact posts_of_retried hretry
      · exact posts_of_dealt hdealt
  | migratePool param =>
      obtain ⟨_, _, _, _, -, -, -, ⟨-, hretry⟩ | ⟨-, -, -, hdealt⟩⟩ :=
        executeMigratePool_ok h
      · exact posts_of_retried hretry
      · exact posts_of_dealt hdealt
  | configPool param =>
      obtain ⟨_, _, -, -, rfl, rfl⟩ := executeConfigPool_ok h
      exact posts_nothing rfl rfl rfl
  | configStack param =>
      obtain ⟨_, _, -, -, rfl, rfl⟩ := executeConfigStack_ok h
      exact posts_nothing rfl rfl rfl
  | openChannel poolAddr closedChannelId =>
      obtain ⟨_, _, _, _, -, rfl, hmsgs⟩ := executeOpenChannel_ok h
      exact posts_nothing (by rw [hmsgs]; rfl) rfl rfl
  | redeemTokenForShare poolAddr tokens =>
      obtain ⟨_, _, _, _, _, -, -, -, -, -, -, rfl, hmsgs⟩ :=
        executeRedeemTokenForShare_ok h
      exact posts_packet rfl hmsgs rfl rfl
  | stake neutronAddress poolAddr =>
      obtain ⟨_, _, -, -, -, -, rfl, hmsgs⟩ := executeStake_ok h
      exact posts_nothing (by rw [hmsgs]; rfl) rfl rfl
  | unstake amount poolAddr =>
      obtain ⟨_, _, _, _, -, -, -, -, -, -, -, -, rfl, hmsgs⟩ :=
        executeUnstake_ok h
      exact posts_nothing (by simp [hmsgs, packets, isPacket]) rfl rfl
  | withdraw poolAddr receiver unstakeIndexList =>
      obtain ⟨_, _, _, _, _, -, -, hrecords, -, -, -, -, rfl, hmsgs⟩ :=
        executeWithdraw_ok h
      obtain ⟨_, rfl⟩ := withdrawRecords_store hrecords
      exact posts_packet rfl hmsgs rfl rfl
  | poolRmValidator poolAddr validatorAddr =>
      obtain ⟨_, _, -, -, -, -, -, -, ⟨-, rfl, rfl⟩ | ⟨_, _, _, _, _, _, _, -,
        -, -, -, -, -, -, -, rfl, hmsgs⟩⟩ := executeRmPoolValidator_ok h
      · exact posts_nothing rfl rfl rfl
      · exact posts_packet rfl hmsgs rfl rfl
  | poolAddValidator poolAddr validatorAddr =>
      obtain ⟨_, _, _, -, -, -, -, rfl, hmsgs⟩ := executeAddPoolValidators_ok h
      exact posts_nothing (by rw [hmsgs]; rfl) rfl rfl
  | poolUpdateValidator poolAddr oldValidator newValidator =>
      obtain ⟨_, _, _, -, -, -, -, -, -, -, ⟨-, rfl, rfl⟩ | ⟨-, _, _, _, _, _,
        -, -, -, -, -, rfl, hmsgs⟩⟩ := executePoolUpdateValidator_ok h
      · exact posts_nothing rfl rfl rfl
      · exact posts_packet rfl hmsgs rfl rfl
  | poolUpdateValidatorsIcq poolAddr =>
      obtain ⟨_, _, _, -, -, rfl, hmsgs⟩ := executeUpdateValidatorsIcq_ok h
      exact posts_nothing (by rw [hmsgs]; rfl) rfl rfl
  | poolDelegate poolAddr stakeAmount =>
      obtain ⟨_, tx, -, -, -, rfl, hmsgs⟩ := executePoolDelegate_ok h
      exact ⟨some ⟨.submitTx tx, none, none⟩, packets_single rfl hmsgs, rfl,
        .nothing (by simp) rfl⟩
  | eraUpdate poolAddr =>
      obtain ⟨_, _, -, -, -, hicq, ⟨-, rfl, hmsgs⟩ | ⟨-, transfer, payload, -,
        -, -, -, rfl, hmsgs⟩⟩ := executeEraUpdate_ok h
      · exact posts_nothing (by rw [hmsgs]; exact packets_of_icq hicq) rfl rfl
      · refine ⟨some ⟨.ibcTransfer transfer, some store.replyId, some payload⟩,
          ?_, rfl, .payload rfl⟩
        rw [hmsgs, packets, List.filter_append, ← packets, packets_of_icq hicq]
        rfl
  | eraBond poolAddr selectVals =>
      obtain ⟨_, _, _, _, _, -, -, hbond, -, -, -, rfl, hmsgs⟩ :=
        executeEraBond_ok h
      obtain ⟨_, rfl⟩ := eraBondMsgs_store hbond
      exact posts_packet rfl hmsgs rfl rfl
  | eraCollectWithdraw poolAddr =>
      obtain ⟨_, _, _, _, _, -, -, -, -, ⟨-, rfl, rfl⟩ | ⟨-, _, _, -, -, -,
        rfl, hmsgs⟩⟩ := executeEraCollectWithdraw_ok h
      · exact posts_nothing rfl rfl rfl
      · exact posts_packet rfl hmsgs rfl rfl
  | eraRebond poolAddr selectVals =>
      obtain ⟨_, -, -, ⟨-, rfl, rfl⟩ | ⟨-, _, _, _, -, -, -, -, rfl, hmsgs⟩⟩ :=
        executeEraRebond_ok h
      · exact posts_nothing rfl rfl rfl
      · exact posts_packet rfl hmsgs rfl rfl
  | eraActive poolAddr =>
      obtain ⟨_, _, _, _, _, _, -, -, -, -, -, rfl, hicq, hmsgs⟩ :=
        executeEraActive_ok h
      refine posts_nothing ?_ rfl rfl
      rw [hmsgs, List.map_append, List.map_append]
      simp only [packets, List.filter_append]
      rw [← packets, ← packets, ← packets, packets_mintFee, packets_mintFee,
        packets_of_icq hicq]
      rfl
  | stakeLsm neutronAddress poolAddr =>
      obtain ⟨_, _, _, _, _, _, _, _, _, _, -, -, -, -, -, -, -, -, -, -, -, -,
        -, -, -, -, -, rfl, hmsgs⟩ := executeStakeLsm_ok h
      exact posts_packet rfl hmsgs rfl rfl
  | updateIcqUpdatePeriod poolAddr newUpdatePeriod =>
      obtain ⟨_, _, -, hicq, rfl, hmsgs⟩ := updateIcqUpdatePeriod_ok h
      exact posts_nothing (by rw [hmsgs]; exact packets_of_icq hicq) rfl rfl

end

end NeutronContracts
