/-
What one call can do to one pool.  Every entry point of the stake manager is
reduced here, once, to its effect on the record of a given pool and to the
packet it sends; the invariants of the chain are read off these effects.
-/
import NeutronContracts.Chain.Delivery

namespace NeutronContracts

open StakeManager

/-- The pool a call is about. -/
def StakeManager.ExecuteMsg.target (store : Storage) :
    ExecuteMsg → Option String
  | .registerPool _ _ => none
  | .initPool param =>
      (store.infoOfIcaId param.interchainAccountId).map (·.1.icaAddr)
  | .migratePool param =>
      (store.infoOfIcaId param.interchainAccountId).map (·.1.icaAddr)
  | .configPool param => some param.poolAddr
  | .configStack _ => none
  | .openChannel poolAddr _ => some poolAddr
  | .redeemTokenForShare poolAddr _ => some poolAddr
  | .stake _ poolAddr => some poolAddr
  | .unstake _ poolAddr => some poolAddr
  | .withdraw poolAddr _ _ => some poolAddr
  | .poolRmValidator poolAddr _ => some poolAddr
  | .poolAddValidator poolAddr _ => some poolAddr
  | .poolUpdateValidator poolAddr _ _ => some poolAddr
  | .poolUpdateValidatorsIcq poolAddr => some poolAddr
  | .poolDelegate poolAddr _ => some poolAddr
  | .eraUpdate poolAddr => some poolAddr
  | .eraBond poolAddr _ => some poolAddr
  | .eraCollectWithdraw poolAddr => some poolAddr
  | .eraRebond poolAddr _ => some poolAddr
  | .eraActive poolAddr => some poolAddr
  | .stakeLsm _ poolAddr => some poolAddr
  | .updateIcqUpdatePeriod poolAddr _ => some poolAddr

/-- The packet carries a call of kind `txType` for pool `a`. -/
def Calls (sub : SubMsg) (a : String) (txType : TxType) : Prop :=
  ∃ payload, sub.payload = some payload ∧ payload.poolAddr = a ∧
    payload.txType = txType

/-- The text the packet carries to its callback. -/
def StakeManager.SubMsg.text (sub : SubMsg) : String :=
  (sub.payload.map (·.message)).getD ""

theorem StakeManager.SubMsg.text_eq {sub : SubMsg} {payload : SudoPayload}
    (h : sub.payload = some payload) : sub.text = payload.message := by
  rw [SubMsg.text, h]
  rfl

/-- The messages a packet asks the host to execute. -/
def hostMsgs : CosmosMsg → List ProtobufAny
  | .submitTx tx => tx.msgs
  | _ => []

/-- The sum of `f` over the messages of a packet. -/
def hostTotal (f : HostMsg → Nat) (msg : CosmosMsg) : Nat :=
  ((hostMsgs msg).map fun m => f m.value).sum

/-- What a message sends to the account `a`. -/
def StakeManager.HostMsg.sentTo (a : String) : HostMsg → Nat
  | .send _ toAddress amount =>
      if toAddress = a then (amount.map (·.amount)).sum else 0
  | _ => 0

/-- The record of an interchain account points back to every pool. -/
def Known (store : Storage) : Prop :=
  ∀ a p, store.pools a = some p →
    ∃ info, store.infoOfIcaId p.icaId = some info ∧ info.1.icaAddr = a

/-- What an accepted step of the era cycle, or an accepted initialisation, does
to the record `p` of pool `a`, and the packet it sends. -/
inductive EraStep (store : Storage) (querier : Querier) (env : Env)
    (a : String) (p : PoolInfo) :
    ExecuteMsg → Option SubMsg → PoolInfo → Prop
  | init {param eraSeconds offset lsdToken sub}
      (htarget : (ExecuteMsg.initPool param).target store = some a)
      (hstatus : p.status = .registerEnded)
      (hcalls : Calls sub a .setWithdrawAddr) :
      EraStep store querier env a p (.initPool param) (some sub)
        { initialPool p param eraSeconds offset with
          lsdToken := lsdToken
          status := .initStarted }
  | migrate {param lsdToken sub}
      (htarget : (ExecuteMsg.migratePool param).target store = some a)
      (hstatus : p.status = .registerEnded) (hrate : param.rate ≠ 0)
      (hcal : migratedRate (migratedPool p param) = .ok param.rate)
      (hcalls : Calls sub a .setWithdrawAddr) :
      EraStep store querier env a p (.migratePool param) (some sub)
        { migratedPool p param with
          lsdToken := lsdToken
          status := .initStarted }
  | retry {msg sub} (htarget : msg.target store = some a)
      (hmsg : (∃ param, msg = .initPool param) ∨
        ∃ param, msg = .migratePool param)
      (hstatus : p.status = .initFailed)
      (hcalls : Calls sub a .setWithdrawAddr) :
      EraStep store querier env a p msg (some sub) p
  | eraUpdate (hstatus : p.status = .activeEnded)
      (hupdate : p.validatorUpdateStatus = .ended) (hbond : p.bond = 0) :
      EraStep store querier env a p (.eraUpdate a) none
        { startEra p env.block.height with status := .eraUpdateEnded }
  | eraUpdateSent {sub} {transfer : IbcTransfer}
      (hstatus : p.status = .activeEnded)
      (hupdate : p.validatorUpdateStatus = .ended) (hbond : p.bond ≠ 0)
      (hcalls : Calls sub a .eraUpdate)
      (hmsg : sub.msg = .ibcTransfer transfer)
      (htoken : transfer.token = ⟨p.ibcDenom, p.bond⟩) :
      EraStep store querier env a p (.eraUpdate a) (some sub)
        (startEra p env.block.height)
  | eraBond {selectVals next msgs sub} (hstatus : p.status = .eraUpdateEnded)
      (hmsgs : eraBondMsgs store querier env a p selectVals =
        .ok (next, msgs, sub.text))
      (hsent : hostMsgs sub.msg = msgs) (hcalls : Calls sub a .eraBond) :
      EraStep store querier env a p (.eraBond a selectVals) (some sub)
        { p with status := .bondStarted }
  | collect {pool withdraw : IcaInfo} {admin}
      (hstatus : p.status = .bondEnded)
      (hinfo : store.infoOfIcaId p.icaId = some (pool, withdraw, admin))
      (hamount : withdrawAmount store querier withdraw.icaAddr p = .ok 0) :
      EraStep store querier env a p (.eraCollectWithdraw a) none
        { p with status := .withdrawEnded }
  | collectSent {pool withdraw : IcaInfo} {admin amount sub}
      (hstatus : p.status = .bondEnded)
      (hinfo : store.infoOfIcaId p.icaId = some (pool, withdraw, admin))
      (hamount : withdrawAmount store querier withdraw.icaAddr p = .ok amount)
      (hne : amount ≠ 0) (hcalls : Calls sub a .eraCollectWithdraw)
      (hmsgs : hostMsgs sub.msg =
        [genMsgSend withdraw.icaAddr a p.remoteDenom amount]) :
      EraStep store querier env a p (.eraCollectWithdraw a) (some sub)
        { p with
          status := .withdrawStarted
          eraSnapshot := { p.eraSnapshot with restakeAmount := amount } }
  | rebond {selectVals} (hstatus : p.status = .withdrawEnded)
      (hzero : p.eraSnapshot.restakeAmount = 0) :
      EraStep store querier env a p (.eraRebond a selectVals) none
        { p with status := .rebondEnded }
  | rebondSent {selectVals msgs sub} (hstatus : p.status = .withdrawEnded)
      (hne : p.eraSnapshot.restakeAmount ≠ 0)
      (hmsgs : rebondMsgs a p selectVals = .ok msgs)
      (hsent : hostMsgs sub.msg = msgs) (hcalls : Calls sub a .eraRebond) :
      EraStep store querier env a p (.eraRebond a selectVals)
        (some sub) p
  | active {stackInfo} (hstatus : p.status = .rebondEnded)
      (hshares : p.shareTokens = []) (hstack : store.stack = some stackInfo)
      (act : Activation p stackInfo)
      (htotal : eraTotalAmount store querier a p = .ok act.totalAmount) :
      EraStep store querier env a p (.eraActive a) none act.apply

/-- What an accepted call does to the record `p` of pool `a`, and the packet
it sends. -/
inductive ExecStep (store : Storage) (querier : Querier) (env : Env)
    (info : MessageInfo) (a : String) (p : PoolInfo) :
    ExecuteMsg → Option SubMsg → PoolInfo → Prop
  | elsewhere {msg sent} (htarget : msg.target store ≠ some a)
      (hsent : ∀ sub ∈ sent, ∀ txType, ¬ Calls sub a txType) :
      ExecStep store querier env info a p msg sent p
  | stake {user coin} (hfunds : info.funds = [coin])
      (hdenom : coin.denom = p.ibcDenom) (hrate : p.rate ≠ 0) :
      ExecStep store querier env info a p (.stake user a) none
        { p with
          active := p.active + coin.amount
          bond := p.bond + coin.amount
          totalLsdTokenAmount :=
            p.totalLsdTokenAmount + coin.amount * calBase / p.rate }
  | unstake {lsdTokenAmount cmsFee burned token}
      (hfee : cmsFee = lsdTokenAmount * p.unbondCommission / calBase)
      (hle : cmsFee ≤ lsdTokenAmount)
      (hburned : burned = lsdTokenAmount - cmsFee)
      (htoken : token = burned * p.rate / calBase)
      (hactive : token ≤ p.active) (htotal : burned ≤ p.totalLsdTokenAmount)
      (hlarge : 5 < token) :
      ExecStep store querier env info a p (.unstake lsdTokenAmount a) none
        (unstaked p token burned)
  | withdraw {receiver indexes sub} (hcalls : Calls sub a .userWithdraw) :
      ExecStep store querier env info a p (.withdraw a receiver indexes)
        (some sub) p
  | stakeLsm {user sub coin trace port channel tokenAmount}
      {transfer : IbcTransfer} (hstatus : p.status = .activeEnded)
      (hupdate : p.validatorUpdateStatus = .ended)
      (hcalls : Calls sub a .stakeLsm) (hfunds : info.funds = [coin])
      (htrace : queryDenomTraceFromIbcDenom querier coin.denom = .ok trace)
      (hpath : Text.split '/' trace.path = [port, channel])
      (hmsg : sub.msg = .ibcTransfer transfer)
      (hport : transfer.sourcePort = "transfer")
      (hchannel : transfer.sourceChannel = channel)
      (hreceiver : transfer.receiver = a) (htoken : transfer.token = coin)
      (htext : sub.text = stakeLsmMessage user tokenAmount coin.amount
        coin.denom trace.baseDenom) :
      ExecStep store querier env info a p (.stakeLsm user a) (some sub) p
  | redeem {tokens denoms sub delegator}
      (hdenoms : redeemTokens p [] tokens = .ok denoms)
      (hcalls : Calls sub a .redeemTokenForShare)
      (hmsgs : hostMsgs sub.msg =
        tokens.map (redeemTokenForShareMsg delegator))
      (htext : sub.text = Text.join ',' denoms) (hne : tokens ≠ []) :
      ExecStep store querier env info a p (.redeemTokenForShare a tokens)
        (some sub)
        { p with
          redeemmingShareTokenDenom :=
            p.redeemmingShareTokenDenom ++ denoms }
  | addValidator {validatorAddr} (hstatus : p.status = .activeEnded)
      (hlen : p.validatorAddrs.length < validaterLenLimit)
      (hnew : validatorAddr ∉ p.validatorAddrs) :
      ExecStep store querier env info a p (.poolAddValidator a validatorAddr)
        none { p with validatorAddrs := p.validatorAddrs ++ [validatorAddr] }
  | rmValidator {validatorAddr delegations} (hstatus : p.status = .activeEnded)
      (hmem : validatorAddr ∈ p.validatorAddrs)
      (hupdate : p.validatorUpdateStatus = .ended)
      (hlen : 1 < p.validatorAddrs.length)
      (hquery : queryDelegationByAddr store querier a
        p.sdkGreaterOrEqualV047 = .ok delegations)
      (hzero : ∀ d, delegations.result.find? (·.validator = validatorAddr) =
        some d → d.amount.amount = 0) :
      ExecStep store querier env info a p (.poolRmValidator a validatorAddr)
        none
        { p with
          validatorUpdateStatus := .waitQueryUpdate
          validatorAddrs := p.validatorAddrs.filter fun val =>
            decide (val ≠ validatorAddr) }
  | rmValidatorSent {validatorAddr target sub amount}
      (hstatus : p.status = .activeEnded)
      (hmem : validatorAddr ∈ p.validatorAddrs)
      (hupdate : p.validatorUpdateStatus = .ended)
      (htarget : (p.validatorAddrs.filter fun val =>
        decide (val ≠ validatorAddr)).head? = some target)
      (hcalls : Calls sub a .rmValidator) (htext : sub.text = validatorAddr)
      (hmsgs : hostMsgs sub.msg = [genRedelegateTxs a validatorAddr target
        p.remoteDenom amount]) :
      ExecStep store querier env info a p (.poolRmValidator a validatorAddr)
        (some sub) { p with validatorUpdateStatus := .start }
  | updateValidator {oldValidator newValidator delegations}
      (hstatus : p.status = .activeEnded)
      (hupdate : p.validatorUpdateStatus = .ended)
      (hold : oldValidator ∈ p.validatorAddrs)
      (hnew : newValidator ∉ p.validatorAddrs)
      (hquery : queryDelegationByAddr store querier a
        p.sdkGreaterOrEqualV047 = .ok delegations)
      (hmsgs : redelegationsFrom a oldValidator newValidator p.remoteDenom
        delegations.result = []) :
      ExecStep store querier env info a p
        (.poolUpdateValidator a oldValidator newValidator) none
        { p with
          validatorUpdateStatus := .waitQueryUpdate
          validatorAddrs :=
            replaced p.validatorAddrs oldValidator newValidator }
  | updateValidatorSent {oldValidator newValidator delegations sub}
      (hstatus : p.status = .activeEnded)
      (hupdate : p.validatorUpdateStatus = .ended)
      (hold : oldValidator ∈ p.validatorAddrs)
      (hnew : newValidator ∉ p.validatorAddrs)
      (hcalls : Calls sub a .updateValidator)
      (htext : sub.text =
        Text.join '_' (replaced p.validatorAddrs oldValidator newValidator))
      (hmsgs : hostMsgs sub.msg = redelegationsFrom a oldValidator
        newValidator p.remoteDenom delegations) :
      ExecStep store querier env info a p
        (.poolUpdateValidator a oldValidator newValidator) (some sub)
        { p with
          validatorUpdateStatus := .start
          validatorAddrs :=
            replaced p.validatorAddrs oldValidator newValidator }
  | updateValidatorsIcq (hupdate : p.validatorUpdateStatus = .waitQueryUpdate) :
      ExecStep store querier env info a p (.poolUpdateValidatorsIcq a) none
        { p with validatorUpdateStatus := .ended }
  | delegate {amount sub} (hstatus : p.status = .activeEnded)
      (hpayload : sub.payload = none)
      (hmsgs : hostMsgs sub.msg = splitDelegations a p.remoteDenom
        (amount / p.validatorAddrs.length)
        (amount - amount / p.validatorAddrs.length *
          p.validatorAddrs.length) p.validatorAddrs) :
      ExecStep store querier env info a p (.poolDelegate a amount) (some sub) p
  | openChannel {channelId} :
      ExecStep store querier env info a p (.openChannel a channelId) none p
  | updatePeriod {period} :
      ExecStep store querier env info a p (.updateIcqUpdatePeriod a period)
        none p
  | config {param} {p' : PoolInfo} (hpool : param.poolAddr = a)
      (hconfig : Configured param p p') :
      ExecStep store querier env info a p (.configPool param) none p'
  | era {msg sent p'} (hera : EraStep store querier env a p msg sent p') :
      ExecStep store querier env info a p msg sent p'

/-- The effect of an accepted call on all pools, with the packet it sends. -/
structure Outcome (store : Storage) (querier : Querier) (env : Env)
    (info : MessageInfo) (msg : ExecuteMsg) (store' : Storage)
    (subs : List SubMsg) (sent : Option SubMsg) : Prop where
  packets : packets subs = sent.toList
  queued : ∀ sub ∈ sent, Queued store' sub
  sudoPayload : store'.sudoPayload = store.sudoPayload
  infoOfIcaId : ∀ icaId entry, store.infoOfIcaId icaId = some entry →
    store'.infoOfIcaId icaId = some entry
  registered : ∀ icaId entry, store'.infoOfIcaId icaId = some entry →
    store.infoOfIcaId icaId = some entry ∨ entry.1.icaAddr = ""
  homed : ∀ sub ∈ sent, ∀ payload, sub.payload = some payload →
    ∃ p, store.pools payload.poolAddr = some p
  created : ∀ a, store.pools a = none → store'.pools a = none
  step : ∀ a p, store.pools a = some p → ∃ p', store'.pools a = some p' ∧
    ExecStep store querier env info a p msg sent p'

section

variable {store store' next : Storage} {querier : Querier} {env : Env}
  {info : MessageInfo} {msg : ExecuteMsg} {rsp : Response}
  {subs : List SubMsg} {sent : Option SubMsg} {b : String} {q q' : PoolInfo}

/-- A call that reads and writes the record of one pool. -/
theorem Outcome.of_target (hq : store.pools b = some q)
    (htarget : msg.target store = some b)
    (hpools : store'.pools = store.pools.save b q')
    (hstep : ExecStep store querier env info b q msg sent q')
    (hcalls : ∀ sub ∈ sent, ∀ a txType, Calls sub a txType → a = b)
    (hpackets : NeutronContracts.packets subs = sent.toList)
    (hqueued : ∀ sub ∈ sent, Queued store' sub)
    (hpayload : store'.sudoPayload = store.sudoPayload)
    (hinfo : store'.infoOfIcaId = store.infoOfIcaId) :
    Outcome store querier env info msg store' subs sent := by
  refine ⟨hpackets, hqueued, hpayload, fun _ _ h => hinfo ▸ h,
    fun _ _ h => .inl (hinfo ▸ h), fun sub hsub payload h => ?_,
    fun a ha => ?_, fun a p hp => ?_⟩
  · rw [hcalls sub hsub _ _ ⟨payload, h, rfl, rfl⟩]
    exact ⟨q, hq⟩
  · have hne : a ≠ b := by
      rintro rfl
      simp [hq] at ha
    rw [hpools, Map.save_of_ne hne, ha]
  · by_cases hab : a = b
    · subst hab
      rw [hq, Option.some.injEq] at hp
      subst hp
      exact ⟨q', by rw [hpools, Map.save_self], hstep⟩
    · refine ⟨p, by rw [hpools, Map.save_of_ne hab, hp], .elsewhere ?_ ?_⟩
      · rw [htarget, ne_eq, Option.some.injEq]
        exact fun h => hab h.symm
      · exact fun sub hsub txType h => hab (hcalls sub hsub a txType h)

/-- A call that reads the record of one pool and leaves it as it is. -/
theorem Outcome.of_reader (hq : store.pools b = some q)
    (htarget : msg.target store = some b)
    (hpools : store'.pools = store.pools)
    (hstep : ExecStep store querier env info b q msg sent q)
    (hcalls : ∀ sub ∈ sent, ∀ a txType, Calls sub a txType → a = b)
    (hpackets : NeutronContracts.packets subs = sent.toList)
    (hqueued : ∀ sub ∈ sent, Queued store' sub)
    (hpayload : store'.sudoPayload = store.sudoPayload)
    (hinfo : store'.infoOfIcaId = store.infoOfIcaId) :
    Outcome store querier env info msg store' subs sent :=
  .of_target hq htarget (by rw [hpools, Map.save_eq_self hq]) hstep hcalls
    hpackets hqueued hpayload hinfo

/-- A call that is not about a pool. -/
theorem Outcome.of_untargeted (htarget : msg.target store = none)
    (hpools : store'.pools = store.pools)
    (hpackets : NeutronContracts.packets subs = [])
    (hpayload : store'.sudoPayload = store.sudoPayload)
    (hinfo : ∀ icaId entry, store.infoOfIcaId icaId = some entry →
      store'.infoOfIcaId icaId = some entry)
    (hregistered : ∀ icaId entry, store'.infoOfIcaId icaId = some entry →
      store.infoOfIcaId icaId = some entry ∨ entry.1.icaAddr = "") :
    Outcome store querier env info msg store' subs none := by
  refine ⟨hpackets, by simp, hpayload, hinfo, hregistered, by simp,
    fun a ha => hpools ▸ ha,
    fun a p hp => ⟨p, hpools ▸ hp, .elsewhere ?_ (by simp)⟩⟩
  simp [htarget]

theorem calls_unique {sub : SubMsg} {payload : SudoPayload}
    (hpayload : sub.payload = some payload) (hpool : payload.poolAddr = b) :
    ∀ sub' ∈ some sub, ∀ a txType, Calls sub' a txType → a = b := by
  rintro sub' hsub a txType ⟨payload', hpayload', hpool', -⟩
  rw [Option.mem_some.mp hsub, hpayload', Option.some.injEq] at hpayload
  rw [← hpool', hpayload, hpool]

/-- The packet list of a response that only sends one packet. -/
theorem packets_single {msg : CosmosMsg} {replyOnSuccess : Option Nat}
    {payload : Option SudoPayload}
    (hpacket : isPacket ⟨msg, replyOnSuccess, payload⟩ = true)
    (hsubs : subs = [⟨msg, replyOnSuccess, payload⟩]) :
    packets subs =
      (some (⟨msg, replyOnSuccess, payload⟩ : SubMsg)).toList := by
  simp [packets, hsubs, hpacket]

theorem queued_single {msg : CosmosMsg} {payload : SudoPayload}
    (hreply : store'.replyIdToPayload =
      store.replyIdToPayload.save store.replyId payload) :
    ∀ sub ∈ some (⟨msg, some store.replyId, some payload⟩ : SubMsg),
      Queued store' sub := by
  intro sub hsub
  rw [← Option.mem_some.mp hsub, Queued, hreply]
  exact Map.save_self

theorem executeStake_outcome {user : String}
    (h : executeStake store user b info = .ok (store', rsp)) :
    ∃ sent, Outcome store querier env info (.stake user b) store'
      rsp.messages sent := by
  obtain ⟨p, coin, hp, hfunds, hdenom, hrate, rfl, hmsgs⟩ := executeStake_ok h
  refine ⟨none, .of_target hp rfl rfl (.stake hfunds hdenom hrate) (by simp)
    ?_ (by simp) rfl rfl⟩
  rw [hmsgs]
  rfl

theorem executeUnstake_outcome {amount : Nat}
    (h : executeUnstake store info amount b = .ok (store', rsp)) :
    ∃ sent, Outcome store querier env info (.unstake amount b) store'
      rsp.messages sent := by
  obtain ⟨p, cmsFee, burned, token, hp, hfee, hle, hburned, htoken, hactive,
    htotal, hlarge, rfl, hmsgs⟩ := executeUnstake_ok h
  refine ⟨none, .of_target hp rfl rfl (.unstake hfee hle hburned htoken
    hactive htotal hlarge) (by simp) ?_ (by simp) rfl rfl⟩
  simp [hmsgs, packets, isPacket]

theorem executeWithdraw_outcome {receiver : String} {indexes : List Nat}
    (h : executeWithdraw store querier info b receiver indexes =
      .ok (store', rsp)) :
    ∃ sent, Outcome store querier env info (.withdraw b receiver indexes)
      store' rsp.messages sent := by
  obtain ⟨p, next, total, tx, payload, hp, -, hrecords, -, -, hpool, htype,
    rfl, hmsgs⟩ := executeWithdraw_ok h
  obtain ⟨records, rfl⟩ := withdrawRecords_store hrecords
  exact ⟨_, .of_reader hp rfl rfl (.withdraw ⟨payload, rfl, hpool, htype⟩)
    (calls_unique rfl hpool) (packets_single rfl hmsgs) (queued_single rfl)
    rfl rfl⟩

theorem executeStakeLsm_outcome {user : String}
    (h : executeStakeLsm store querier env info user b = .ok (store', rsp)) :
    ∃ sent, Outcome store querier env info (.stakeLsm user b) store'
      rsp.messages sent := by
  obtain ⟨p, coin, trace, port, channel, validator, record, tokenAmount,
    transfer, payload, hp, hfunds, hstatus, hupdate, -, htrace, hpath, -, -, -,
    hport, hchannel, hreceiver, htoken, htext, hpool, htype, rfl, hmsgs⟩ :=
    executeStakeLsm_ok h
  exact ⟨some ⟨.ibcTransfer transfer, some store.replyId, some payload⟩,
    .of_reader hp rfl rfl
    (.stakeLsm hstatus hupdate ⟨payload, rfl, hpool, htype⟩ hfunds htrace
      hpath rfl hport hchannel hreceiver htoken htext)
    (calls_unique rfl hpool) (packets_single rfl hmsgs) (queued_single rfl)
    rfl rfl⟩

theorem executeRedeemTokenForShare_outcome {tokens : List Coin}
    (h : executeRedeemTokenForShare store querier info b tokens =
      .ok (store', rsp)) :
    ∃ sent, Outcome store querier env info (.redeemTokenForShare b tokens)
      store' rsp.messages sent := by
  obtain ⟨p, denoms, tx, payload, ica, hp, hdenoms, htx, htext, hpool, htype,
    rfl, hmsgs⟩ := executeRedeemTokenForShare_ok h
  exact ⟨some ⟨.submitTx tx, some store.replyId, some payload⟩,
    .of_target hp rfl rfl
      (.redeem hdenoms ⟨payload, rfl, hpool, htype⟩ htx htext
        (executeRedeemTokenForShare_ne_nil h))
    (calls_unique rfl hpool) (packets_single rfl hmsgs) (queued_single rfl)
    rfl rfl⟩

theorem executeAddPoolValidators_outcome {validatorAddr : String}
    (h : executeAddPoolValidators store querier info b validatorAddr =
      .ok (store', rsp)) :
    ∃ sent, Outcome store querier env info
      (.poolAddValidator b validatorAddr) store' rsp.messages sent := by
  obtain ⟨p, _, _, hp, hstatus, hlen, hnew, rfl, hmsgs⟩ :=
    executeAddPoolValidators_ok h
  refine ⟨none, .of_target hp rfl rfl (.addValidator hstatus hlen hnew)
    (by simp) ?_ (by simp) rfl rfl⟩
  rw [hmsgs]
  rfl

theorem executeRmPoolValidator_outcome (hknown : Known store)
    {validatorAddr : String}
    (h : executeRmPoolValidator store querier info b validatorAddr =
      .ok (store', rsp)) :
    ∃ sent, Outcome store querier env info (.poolRmValidator b validatorAddr)
      store' rsp.messages sent := by
  obtain ⟨p, delegations, hp, hstatus, hmem, hupdate, hlen, hquery,
    ⟨hzero, rfl, rfl⟩ | ⟨d, tx, payload, target, ica, _, _, hfind, hne,
      htarget, htx, hinfo, htext, hpool, htype, rfl, hmsgs⟩⟩ :=
    executeRmPoolValidator_ok h
  · exact ⟨none, .of_target hp rfl rfl
      (.rmValidator hstatus hmem hupdate hlen hquery hzero) (by simp) rfl
      (by simp) rfl rfl⟩
  · obtain ⟨_, hinfo', hica⟩ := hknown b p hp
    rw [hinfo, Option.some.injEq] at hinfo'
    subst hinfo'
    rw [hica] at hpool
    have hvalidator : d.validator = validatorAddr := by
      simpa using List.find?_some hfind
    rw [hvalidator] at htx
    exact ⟨some ⟨.submitTx tx, some store.replyId, some payload⟩,
      .of_target hp rfl rfl (.rmValidatorSent hstatus hmem hupdate htarget
        ⟨payload, rfl, hpool, htype⟩ htext htx) (calls_unique rfl hpool)
        (packets_single rfl hmsgs) (queued_single rfl) rfl rfl⟩

theorem executePoolUpdateValidator_outcome (hknown : Known store)
    {oldValidator newValidator : String}
    (h : executePoolUpdateValidator store querier info b oldValidator
      newValidator = .ok (store', rsp)) :
    ∃ sent, Outcome store querier env info
      (.poolUpdateValidator b oldValidator newValidator) store' rsp.messages
      sent := by
  obtain ⟨p, delegations, msgs, hp, hstatus, hupdate, hold, hnew, hquery,
    hredelegate, ⟨hnil, rfl, rfl⟩ | ⟨-, tx, payload, ica, _, _, htx, hinfo,
      htext, hpool, htype, rfl, hmsgs⟩⟩ := executePoolUpdateValidator_ok h
  · exact ⟨none, .of_target hp rfl rfl
      (.updateValidator hstatus hupdate hold hnew hquery
        (hredelegate ▸ hnil)) (by simp) rfl (by simp) rfl rfl⟩
  · obtain ⟨_, hinfo', hica⟩ := hknown b p hp
    rw [hinfo, Option.some.injEq] at hinfo'
    subst hinfo'
    rw [hica] at hpool
    exact ⟨some ⟨.submitTx tx, some store.replyId, some payload⟩,
      .of_target hp rfl rfl (.updateValidatorSent hstatus hupdate hold hnew
        ⟨payload, rfl, hpool, htype⟩ htext (htx.trans hredelegate))
        (calls_unique rfl hpool) (packets_single rfl hmsgs)
        (queued_single rfl) rfl rfl⟩

theorem executeUpdateValidatorsIcq_outcome
    (h : executeUpdateValidatorsIcq store querier info b =
      .ok (store', rsp)) :
    ∃ sent, Outcome store querier env info (.poolUpdateValidatorsIcq b)
      store' rsp.messages sent := by
  obtain ⟨p, _, _, hp, hupdate, rfl, hmsgs⟩ := executeUpdateValidatorsIcq_ok h
  refine ⟨none, .of_target hp rfl rfl (.updateValidatorsIcq hupdate)
    (by simp) ?_ (by simp) rfl rfl⟩
  rw [hmsgs]
  rfl

theorem executePoolDelegate_outcome {amount : Nat}
    (h : executePoolDelegate store querier info b amount =
      .ok (store', rsp)) :
    ∃ sent, Outcome store querier env info (.poolDelegate b amount) store'
      rsp.messages sent := by
  obtain ⟨p, tx, hp, hstatus, htx, rfl, hmsgs⟩ := executePoolDelegate_ok h
  refine ⟨some ⟨.submitTx tx, none, none⟩, .of_reader hp rfl rfl
    (.delegate hstatus rfl htx) ?_ (packets_single rfl hmsgs) ?_ rfl rfl⟩
  · rintro sub hsub a txType ⟨payload, hpayload, -⟩
    rw [← Option.mem_some.mp hsub] at hpayload
    cases hpayload
  · intro sub hsub
    rw [← Option.mem_some.mp hsub]
    rfl

theorem executeOpenChannel_outcome {channelId : String}
    (h : executeOpenChannel store info b channelId = .ok (store', rsp)) :
    ∃ sent, Outcome store querier env info (.openChannel b channelId) store'
      rsp.messages sent := by
  obtain ⟨p, _, _, _, hp, rfl, hmsgs⟩ := executeOpenChannel_ok h
  refine ⟨none, .of_reader hp rfl rfl .openChannel (by simp) ?_ (by simp)
    rfl rfl⟩
  rw [hmsgs]
  rfl

theorem updateIcqUpdatePeriod_outcome {period : Nat}
    (h : updateIcqUpdatePeriod store info b period = .ok (store', rsp)) :
    ∃ sent, Outcome store querier env info (.updateIcqUpdatePeriod b period)
      store' rsp.messages sent := by
  obtain ⟨p, icq, hp, hicq, rfl, hmsgs⟩ := updateIcqUpdatePeriod_ok h
  obtain ⟨_, _, _, _, rfl⟩ := getUpdatePoolIcqMsgs_ok hicq
  refine ⟨none, .of_reader hp rfl rfl .updatePeriod (by simp) ?_ (by simp)
    rfl rfl⟩
  rw [hmsgs]
  rfl

theorem executeEraUpdate_outcome
    (h : executeEraUpdate store querier env info b = .ok (store', rsp)) :
    ∃ sent, Outcome store querier env info (.eraUpdate b) store'
      rsp.messages sent := by
  obtain ⟨p, icq, hp, hstatus, hupdate, hicq, ⟨hbond, rfl, hmsgs⟩ |
    ⟨hbond, transfer, payload, -, htoken, hpool, htype, rfl, hmsgs⟩⟩ :=
    executeEraUpdate_ok h
  all_goals obtain ⟨_, _, _, _, rfl⟩ := getUpdatePoolIcqMsgs_ok hicq
  · refine ⟨none, .of_target hp rfl rfl
      (.era (.eraUpdate hstatus hupdate hbond)) (by simp) ?_ (by simp) rfl
      rfl⟩
    rw [hmsgs]
    rfl
  · refine ⟨some ⟨.ibcTransfer transfer, some store.replyId, some payload⟩,
      .of_target hp rfl rfl
      (.era (.eraUpdateSent hstatus hupdate hbond
        ⟨payload, rfl, hpool, htype⟩ rfl htoken))
      (calls_unique rfl hpool) ?_ (queued_single rfl) rfl rfl⟩
    rw [hmsgs]
    rfl

theorem executeEraBond_outcome {selectVals : List String}
    (h : executeEraBond store querier env info b selectVals =
      .ok (store', rsp)) :
    ∃ sent, Outcome store querier env info (.eraBond b selectVals) store'
      rsp.messages sent := by
  obtain ⟨p, next, msgs, tx, payload, hp, hstatus, hbond, htx, hpool, htype,
    rfl, hmsgs⟩ := executeEraBond_ok h
  obtain ⟨times, hnext⟩ := eraBondMsgs_store hbond
  refine ⟨some ⟨.submitTx tx, some next.replyId, some payload⟩,
    .of_target hp rfl ?_
    (.era (.eraBond hstatus hbond htx ⟨payload, rfl, hpool, htype⟩))
    (calls_unique rfl hpool) (packets_single rfl hmsgs) ?_ ?_ ?_⟩
  all_goals subst hnext
  · rfl
  · exact queued_single rfl
  · rfl
  · rfl

theorem executeEraCollectWithdraw_outcome
    (h : executeEraCollectWithdraw store querier info b =
      .ok (store', rsp)) :
    ∃ sent, Outcome store querier env info (.eraCollectWithdraw b) store'
      rsp.messages sent := by
  obtain ⟨p, _, ica, _, amount, hp, hstatus, hinfo, hamount, ⟨rfl, rfl, rfl⟩ |
    ⟨hne, tx, payload, htx, hpool, htype, rfl, hmsgs⟩⟩ :=
    executeEraCollectWithdraw_ok h
  · exact ⟨none, .of_target hp rfl rfl (.era (.collect hstatus hinfo hamount))
      (by simp) rfl (by simp) rfl rfl⟩
  · exact ⟨some ⟨.submitTx tx, some store.replyId, some payload⟩,
      .of_target hp rfl rfl
      (.era (.collectSent hstatus hinfo hamount hne
        ⟨payload, rfl, hpool, htype⟩ htx))
      (calls_unique rfl hpool) (packets_single rfl hmsgs)
      (queued_single rfl) rfl rfl⟩

theorem executeEraRebond_outcome {selectVals : List String}
    (h : executeEraRebond store querier info b selectVals =
      .ok (store', rsp)) :
    ∃ sent, Outcome store querier env info (.eraRebond b selectVals) store'
      rsp.messages sent := by
  obtain ⟨p, hp, hstatus, ⟨hzero, rfl, rfl⟩ |
    ⟨hne, msgs, tx, payload, hrebond, htx, hpool, htype, rfl, hmsgs⟩⟩ :=
    executeEraRebond_ok h
  · exact ⟨none, .of_target hp rfl rfl (.era (.rebond hstatus hzero))
      (by simp) rfl (by simp) rfl rfl⟩
  · exact ⟨some ⟨.submitTx tx, some store.replyId, some payload⟩,
      .of_reader hp rfl rfl
      (.era (.rebondSent hstatus hne hrebond htx ⟨payload, rfl, hpool, htype⟩))
      (calls_unique rfl hpool) (packets_single rfl hmsgs)
      (queued_single rfl) rfl rfl⟩

theorem packets_mintFee (token recipient : String) (fee : Nat) :
    packets ((mintFee token recipient fee).map (⟨·, none, none⟩)) = [] := by
  unfold mintFee
  split <;> rfl

theorem executeEraActive_outcome
    (h : executeEraActive store querier b = .ok (store', rsp)) :
    ∃ sent, Outcome store querier env info (.eraActive b) store'
      rsp.messages sent := by
  obtain ⟨p, stackInfo, act, fees, icq, next, hp, hstatus, hshares, hstack,
    htotal, rfl, hicq, hmsgs⟩ := executeEraActive_ok h
  obtain ⟨_, _, _, _, rfl⟩ := getUpdatePoolIcqMsgs_ok hicq
  refine ⟨none, .of_target hp rfl rfl
    (.era (.active hstatus hshares hstack act htotal)) (by simp) ?_ (by simp)
    rfl rfl⟩
  rw [hmsgs, List.map_append, List.map_append]
  simp only [packets, List.filter_append]
  rw [← packets, ← packets, packets_mintFee, packets_mintFee]
  rfl

theorem executeConfigPool_outcome {param : ConfigPoolParams}
    (h : executeConfigPool store env info param = .ok (store', rsp)) :
    ∃ sent, Outcome store querier env info (.configPool param) store'
      rsp.messages sent := by
  obtain ⟨p, p', hp, hconfig, rfl, rfl⟩ := executeConfigPool_ok h
  exact ⟨none, .of_target hp rfl rfl (.config rfl hconfig) (by simp) rfl
    (by simp) rfl rfl⟩

theorem outcome_of_retried (h : Retried store store' rsp b)
    (hq : store.pools b = some q) (hstatus : q.status = .initFailed)
    (htarget : msg.target store = some b)
    (hmsg : (∃ param, msg = .initPool param) ∨
      ∃ param, msg = .migratePool param) :
    ∃ sent, Outcome store querier env info msg store' rsp.messages sent := by
  obtain ⟨tx, payload, hpool, htype, rfl, hmsgs⟩ := h
  exact ⟨_, .of_reader hq htarget rfl
    (.era (.retry htarget hmsg hstatus ⟨payload, rfl, hpool, htype⟩))
    (calls_unique rfl hpool) (packets_single rfl hmsgs) (queued_single rfl)
    rfl rfl⟩

/-- A pool that starts, whatever its record is. -/
theorem outcome_of_dealt {contractAddress : String}
    (h : Dealt store store' rsp querier contractAddress q' b)
    (hq : store.pools b = some q) (htarget : msg.target store = some b)
    (hstep : ∀ lsdToken sub, Calls sub b .setWithdrawAddr →
      ExecStep store querier env info b q msg (some sub)
        { q' with lsdToken := lsdToken, status := .initStarted }) :
    ∃ sent, Outcome store querier env info msg store' rsp.messages sent := by
  obtain ⟨lsdToken, next, tx, payload, _, _, _, _, _, _, _, _, _, _, _, _, _,
    -, -, -, ⟨_, _, _, rfl⟩, hpool, htype, rfl, hmsgs⟩ := h
  refine ⟨some ⟨.submitTx tx, _, some payload⟩, .of_target hq htarget rfl
    (hstep lsdToken _ ⟨payload, rfl, hpool, htype⟩) (calls_unique rfl hpool)
    ?_ (queued_single rfl) rfl rfl⟩
  rw [hmsgs]
  rfl

theorem executeInitPool_outcome {param : InitPoolParams}
    (h : executeInitPool store querier env info param = .ok (store', rsp)) :
    ∃ sent, Outcome store querier env info (.initPool param) store'
      rsp.messages sent := by
  obtain ⟨p, ica, _, _, hinfo, hp, -, ⟨hstatus, hretry⟩ |
    ⟨hstatus, eraSeconds, offset, hdeal⟩⟩ := executeInitPool_ok h
  all_goals
    have htarget : (ExecuteMsg.initPool param).target store =
        some ica.icaAddr := by
      simp [ExecuteMsg.target, hinfo]
  · exact outcome_of_retried hretry hp hstatus htarget (.inl ⟨param, rfl⟩)
  · exact outcome_of_dealt hdeal hp htarget fun _ _ hcalls =>
      .era (.init htarget hstatus hcalls)

theorem executeMigratePool_outcome {param : MigratePoolParams}
    (h : executeMigratePool store querier env info param =
      .ok (store', rsp)) :
    ∃ sent, Outcome store querier env info (.migratePool param) store'
      rsp.messages sent := by
  obtain ⟨p, ica, _, _, hinfo, hp, -, ⟨hstatus, hretry⟩ |
    ⟨hstatus, hrate, hcal, hdeal⟩⟩ := executeMigratePool_ok h
  all_goals
    have htarget : (ExecuteMsg.migratePool param).target store =
        some ica.icaAddr := by
      simp [ExecuteMsg.target, hinfo]
  · exact outcome_of_retried hretry hp hstatus htarget (.inr ⟨param, rfl⟩)
  · exact outcome_of_dealt hdeal hp htarget fun _ _ hcalls =>
      .era (.migrate htarget hstatus hrate hcal hcalls)

/-- Every accepted call has one of the effects above on every pool. -/
theorem execute_outcome (hknown : Known store)
    (h : execute store querier env info msg = .ok (store', rsp)) :
    ∃ sent, Outcome store querier env info msg store' rsp.messages sent := by
  cases msg with
  | registerPool connectionId icaId =>
      obtain ⟨fee, -, hnew, rfl, hmsgs⟩ := executeRegisterPool_ok h
      refine ⟨none, .of_untargeted rfl rfl (by rw [hmsgs]; rfl) rfl ?_ ?_⟩
      · intro other entry hentry
        have hne : other ≠ icaId := by
          rintro rfl
          simp [hnew] at hentry
        exact (Map.save_of_ne hne).trans hentry
      · intro other entry hentry
        by_cases hother : other = icaId
        · subst hother
          have hsaved := Map.save_self.symm.trans hentry
          exact .inr (congrArg (·.1.icaAddr) (Option.some.inj hsaved)).symm
        · exact .inl ((Map.save_of_ne hother).symm.trans hentry)
  | configStack param =>
      obtain ⟨stack, stack', -, -, rfl, rfl⟩ := executeConfigStack_ok h
      exact ⟨none, .of_untargeted rfl rfl rfl rfl (fun _ _ h => h)
        fun _ _ h => .inl h⟩
  | initPool param => exact executeInitPool_outcome h
  | migratePool param => exact executeMigratePool_outcome h
  | configPool param => exact executeConfigPool_outcome h
  | openChannel poolAddr channelId => exact executeOpenChannel_outcome h
  | redeemTokenForShare poolAddr tokens =>
      exact executeRedeemTokenForShare_outcome h
  | stake user poolAddr => exact executeStake_outcome h
  | unstake amount poolAddr => exact executeUnstake_outcome h
  | withdraw poolAddr receiver indexes => exact executeWithdraw_outcome h
  | poolRmValidator poolAddr validatorAddr =>
      exact executeRmPoolValidator_outcome hknown h
  | poolAddValidator poolAddr validatorAddr =>
      exact executeAddPoolValidators_outcome h
  | poolUpdateValidator poolAddr oldValidator newValidator =>
      exact executePoolUpdateValidator_outcome hknown h
  | poolUpdateValidatorsIcq poolAddr =>
      exact executeUpdateValidatorsIcq_outcome h
  | poolDelegate poolAddr amount => exact executePoolDelegate_outcome h
  | eraUpdate poolAddr => exact executeEraUpdate_outcome h
  | eraBond poolAddr selectVals => exact executeEraBond_outcome h
  | eraCollectWithdraw poolAddr => exact executeEraCollectWithdraw_outcome h
  | eraRebond poolAddr selectVals => exact executeEraRebond_outcome h
  | eraActive poolAddr => exact executeEraActive_outcome h
  | stakeLsm user poolAddr => exact executeStakeLsm_outcome h
  | updateIcqUpdatePeriod poolAddr period =>
      exact updateIcqUpdatePeriod_outcome h

end

end NeutronContracts
