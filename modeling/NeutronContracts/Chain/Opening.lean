/-
A pool can always be opened: an account id that is valid and new is
registered, its two channels open, and the pool starts with its token, its
four queries and its first packet.
-/
import NeutronContracts.Chain.Queries
import NeutronContracts.Properties.Handshake

namespace NeutronContracts

open StakeManager Fallible

namespace StakeManager

variable {store store' : Storage} {stack : Stack} {querier : Querier}
  {env : Env} {info : MessageInfo} {icaId : String} {p : PoolInfo}
  {poolIcaInfo withdrawIcaInfo : IcaInfo} {rsp : Response}

/-- The administrator can register every id that is valid and new. -/
theorem executeRegisterPool_total {coin : Coin} (connectionId : String)
    (hstack : store.stack = some stack) (hadmin : stack.admin = info.sender)
    (hvalid : validInterchainAccountId icaId = true)
    (hnew : store.infoOfIcaId icaId = none) (hfunds : info.funds = [coin])
    (hdenom : coin.denom = feeDenom) :
    ∃ result, executeRegisterPool store env info connectionId icaId =
      .ok result := by
  simp only [executeRegisterPool, exists_bind_eq_ok, orError_eq_ok,
    rejectIf_eq_ok, hfunds]
  exact ⟨stack, hstack, (), by simp [hadmin], (), by simp [hvalid], (),
    by simp [hnew], (), by simp [hdenom], _, rfl⟩

/-- The queries of a pool whose addresses decode can be asked. -/
theorem registerPoolQueries_total
    (hpool : querier.decodeAndConvert poolIcaInfo.icaAddr = true)
    (hwithdraw : querier.decodeAndConvert withdrawIcaInfo.icaAddr = true)
    (hvalidators : p.validatorAddrs.all querier.decodeAndConvert = true) :
    ∃ result, registerPoolQueries store querier p poolIcaInfo
      withdrawIcaInfo = .ok result := by
  simp only [registerPoolQueries, newRegisterBalanceQueryMsg,
    registerDelegatorDelegationsQueryMsg, newRegisterStakingValidatorsQueryMsg,
    bind_assoc, exists_bind_eq_ok, rejectIf_eq_ok, not_not]
  exact ⟨(), hpool, _, rfl, (), hwithdraw, _, rfl, (), hpool, (), hvalidators,
    _, rfl, (), hvalidators, _, rfl, _, rfl⟩

theorem setWithdrawSubMsg_total (hfee : ∃ fee, querier.minIbcFee = some fee) :
    ∃ result, setWithdrawSubMsg store querier p poolIcaInfo withdrawIcaInfo =
      .ok result := by
  obtain ⟨fee, hfee⟩ := hfee
  simp only [setWithdrawSubMsg, queryMinIbcFee, exists_bind_eq_ok,
    orError_eq_ok]
  exact ⟨fee, hfee, _, rfl⟩

/-- What the start of a pool asks of the chain. -/
structure Startable (querier : Querier) (contractAddress : String)
    (p : PoolInfo) (poolAddr withdrawAddr : String) (lsdCodeId : Nat)
    (salt lsdToken : String) : Prop where
  trace : ∃ trace, queryDenomTraceFromIbcDenom querier p.ibcDenom =
    .ok trace ∧ trace.baseDenom = p.remoteDenom
  salted : Text.takeBytes 40 poolAddr.toList = some salt.toList
  predicted : ∃ checksum, querier.codeChecksum lsdCodeId = some checksum ∧
    querier.instantiate2Address checksum contractAddress salt = some lsdToken
  fee : ∃ fee, querier.minIbcFee = some fee
  pool : querier.decodeAndConvert poolAddr = true
  withdraw : querier.decodeAndConvert withdrawAddr = true
  validators : p.validatorAddrs.all querier.decodeAndConvert = true

theorem dealPool_total {lsdCodeId : Nat} {salt lsdToken : String}
    (name symbol : String)
    (h : Startable querier env.contractAddress p poolIcaInfo.icaAddr
      withdrawIcaInfo.icaAddr lsdCodeId salt lsdToken) :
    ∃ result, dealPool store querier env info p poolIcaInfo withdrawIcaInfo
      lsdCodeId name symbol = .ok result := by
  obtain ⟨trace, htrace, hbase⟩ := h.trace
  obtain ⟨checksum, hchecksum, haddr⟩ := h.predicted
  simp only [dealPool, exists_bind_eq_ok, orError_eq_ok, rejectIf_eq_ok]
  refine ⟨trace, htrace, (), not_not.mpr hbase, salt.toList, h.salted,
    checksum, hchecksum, lsdToken, by rw [String.ofList_toList]; exact haddr,
    ?_⟩
  obtain ⟨queries, hqueries⟩ :=
    registerPoolQueries_total h.pool h.withdraw h.validators
  refine ⟨queries, hqueries, ?_⟩
  obtain ⟨set, hset⟩ := setWithdrawSubMsg_total h.fee
  exact ⟨set, hset, _, rfl⟩

/-- The first message creates the token of the pool. -/
theorem dealPool_creates {lsdCodeId : Nat} {salt name symbol : String}
    (h : dealPool store querier env info p poolIcaInfo withdrawIcaInfo
      lsdCodeId name symbol = .ok (store', rsp))
    (hsalt : Text.takeBytes 40 poolIcaInfo.icaAddr.toList =
      some salt.toList) :
    rsp.messages.head? = some ⟨.wasmInstantiate2 info.sender lsdCodeId
      { name := name
        symbol := symbol
        decimals := defaultDecimals
        mintAdmin := p.admin
        minter := env.contractAddress } name salt, none, none⟩ := by
  simp only [dealPool, bind_eq_ok, orError_eq_ok, Prod.exists, pure_eq_ok,
    Prod.mk.injEq] at h
  obtain ⟨_, -, _, -, chars, hchars, _, -, _, -, _, _, -, _, _, -, rfl, rfl⟩ :=
    h
  obtain rfl := Option.some.inj (hchars.symm.trans hsalt)
  rw [String.ofList_toList]
  rfl

/-- A pool that is registered only is started by its administrator. -/
theorem executeInitPool_starts {param : InitPoolParams} {owner : String}
    {fee eraSeconds eras codeId : Nat} {offset : Int}
    (hstack : store.stack = some stack) (hadmin : stack.admin = info.sender)
    (hinfo : store.infoOfIcaId param.interchainAccountId =
      some (poolIcaInfo, withdrawIcaInfo, owner))
    (hvalidators : param.validatorAddrs ≠ [] ∧
      param.validatorAddrs.length ≤ validaterLenLimit)
    (hp : store.pools poolIcaInfo.icaAddr = some p)
    (howner : info.sender = p.admin) (hstatus : p.status = .registerEnded)
    (hfee : initIbcFee querier = .ok fee)
    (hpaid : checkRegisterFee querier info fee = .ok ())
    (hseconds : initEraSeconds param.eraSeconds = .ok eraSeconds)
    (heras : (U64.div env.block.seconds eraSeconds : NeutronResult Nat) =
      .ok eras)
    (hoffset : (I64.sub 0 (U64.asI64 eras) : NeutronResult Int) = .ok offset)
    (hcode : lsdCodeIdOr store param.lsdCodeId = .ok codeId)
    (hdeal : dealPool store querier env info
      (initialPool p param eraSeconds offset) poolIcaInfo withdrawIcaInfo
      codeId param.lsdTokenName param.lsdTokenSymbol = .ok (store', rsp)) :
    executeInitPool store querier env info param = .ok (store', rsp) := by
  simp only [executeInitPool, bind_eq_ok, orError_eq_ok, rejectIf_eq_ok,
    Prod.exists, ne_eq, not_not]
  refine ⟨stack, hstack, (), hadmin, poolIcaInfo, withdrawIcaInfo, owner,
    hinfo, (), not_or.mpr ⟨hvalidators.1, Nat.not_lt.mpr hvalidators.2⟩, p, hp,
    (), howner, fee, hfee, ?_⟩
  rw [if_neg (by simp [hstatus])]
  simp only [bind_eq_ok, rejectIf_eq_ok, not_not]
  exact ⟨(), hstatus, (), hpaid, eraSeconds, hseconds, eras, heras, offset,
    hoffset, codeId, hcode, hdeal⟩

/-- The payload of the packet that sets the withdraw address. -/
def setWithdrawPayload (poolIcaInfo withdrawIcaInfo : IcaInfo) :
    SudoPayload where
  portId := poolIcaInfo.ctrlPortId
  message := withdrawIcaInfo.icaAddr
  poolAddr := poolIcaInfo.icaAddr
  txType := .setWithdrawAddr

/-- A pool whose start has failed is started again by its administrator, as
often as he wants. -/
theorem executeInitPool_retries {param : InitPoolParams} {owner : String}
    {fee : Nat} (hstack : store.stack = some stack)
    (hadmin : stack.admin = info.sender)
    (hinfo : store.infoOfIcaId param.interchainAccountId =
      some (poolIcaInfo, withdrawIcaInfo, owner))
    (hvalidators : param.validatorAddrs ≠ [] ∧
      param.validatorAddrs.length ≤ validaterLenLimit)
    (hp : store.pools poolIcaInfo.icaAddr = some p)
    (howner : info.sender = p.admin) (hstatus : p.status = .initFailed)
    (hfee : initIbcFee querier = .ok fee)
    (hpaid : checkFirstFund info fee = .ok ())
    (hminFee : ∃ minFee, querier.minIbcFee = some minFee) :
    ∃ tx rsp, executeInitPool store querier env info param =
        .ok (store.queuePayload
          (setWithdrawPayload poolIcaInfo withdrawIcaInfo), rsp) ∧
      rsp.messages = [⟨.submitTx tx, some store.replyId,
        some (setWithdrawPayload poolIcaInfo withdrawIcaInfo)⟩] := by
  have hretry : ∃ tx rsp, retrySetWithdraw store querier info p poolIcaInfo
      withdrawIcaInfo fee = .ok (store.queuePayload
        (setWithdrawPayload poolIcaInfo withdrawIcaInfo), rsp) ∧
      rsp.messages = [⟨.submitTx tx, some store.replyId,
        some (setWithdrawPayload poolIcaInfo withdrawIcaInfo)⟩] := by
    obtain ⟨minFee, hminFee⟩ := hminFee
    rw [retrySetWithdraw, hpaid, setWithdrawSubMsg, queryMinIbcFee, hminFee]
    exact ⟨_, _, rfl, rfl⟩
  obtain ⟨tx, rsp, hretry, hmsgs⟩ := hretry
  refine ⟨tx, rsp, ?_, hmsgs⟩
  simp only [executeInitPool, bind_eq_ok, orError_eq_ok, rejectIf_eq_ok,
    Prod.exists, ne_eq, not_not]
  refine ⟨stack, hstack, (), hadmin, poolIcaInfo, withdrawIcaInfo, owner,
    hinfo, (), not_or.mpr ⟨hvalidators.1, Nat.not_lt.mpr hvalidators.2⟩, p, hp,
    (), howner, fee, hfee, ?_⟩
  rw [if_pos hstatus]
  exact hretry

/-- The next reply ids are in their ranges. -/
structure Ranged (store : Storage) : Prop where
  packet : replyIdRangeStart ≤ store.replyId ∧
    store.replyId ≤ replyIdRangeEnd
  query : queryReplyIdRangeStart ≤ store.queryReplyId ∧
    store.queryReplyId ≤ queryReplyIdRangeEnd

theorem nextId_range {start last id : Nat} (hle : start ≤ last)
    (h : start ≤ id ∧ id ≤ last) :
    start ≤ nextId start last id ∧ nextId start last id ≤ last := by
  unfold nextId
  split <;> omega

theorem nextQueryReplyId_range {id : Nat}
    (h : queryReplyIdRangeStart ≤ id ∧ id ≤ queryReplyIdRangeEnd) :
    queryReplyIdRangeStart ≤ nextQueryReplyId id ∧
      nextQueryReplyId id ≤ queryReplyIdRangeEnd :=
  nextId_range (by decide) h

/-- A registration of a query under a reply id of the range. -/
def IsRegistration (sub : SubMsg) : Prop :=
  ∃ connectionId keys period replyId,
    sub = ⟨.registerInterchainQuery connectionId keys period, some replyId,
      none⟩ ∧
    queryReplyIdRangeStart ≤ replyId ∧ replyId ≤ queryReplyIdRangeEnd

/-- The messages that start a pool: its token, its queries, its packet. -/
theorem start_messages {contractAddress poolAddr withdrawAddr : String}
    {validators : List String}
    (hdealt : Dealt store store' rsp querier contractAddress p poolAddr)
    (hstarted : Started store store' rsp querier poolAddr withdrawAddr
      validators) (hranged : Ranged store) :
    ∃ create queries tx payload, ∃ next : Storage,
      rsp.messages = create :: (queries ++
        [⟨.submitTx tx, some store.replyId, some payload⟩]) ∧
      (∀ sub ∈ queries, IsRegistration sub) ∧
      next.replyId = store.replyId ∧ store' = next.queuePayload payload ∧
      payload.poolAddr = poolAddr ∧ payload.txType = .setWithdrawAddr := by
  obtain ⟨_, _, _, _, _, connection, withdrawConnection, _, _, _, a, b, c, d,
    hmsgs⟩ := hstarted.messages
  obtain ⟨_, next, tx, payload, _, _, _, _, _, _, _, _, _, _, _, _, _, -, -, -,
    hsame, hpool, htype, rfl, hmsgs'⟩ := hdealt
  have hlast := hmsgs.symm.trans hmsgs'
  simp only [List.cons.injEq, SubMsg.mk.injEq, Option.some.injEq,
    CosmosMsg.submitTx.injEq] at hlast
  obtain ⟨-, -, -, -, -, ⟨rfl, rfl, rfl⟩, -⟩ := hlast
  have hreply : next.replyId = store.replyId := by
    obtain ⟨_, _, _, rfl⟩ := hsame
    rfl
  rw [hreply] at hmsgs
  have hid₁ := hranged.query
  have hid₂ := nextQueryReplyId_range hid₁
  have hid₃ := nextQueryReplyId_range hid₂
  have hid₄ := nextQueryReplyId_range hid₃
  refine ⟨_, [_, _, _, _], _, _, next, hmsgs, ?_, hreply, rfl, hpool, htype⟩
  simp only [List.forall_mem_cons]
  exact ⟨⟨_, _, _, _, rfl, hid₁⟩, ⟨_, _, _, _, rfl, hid₂⟩,
    ⟨_, _, _, _, rfl, hid₃⟩, ⟨_, _, _, _, rfl, hid₄⟩, by simp⟩

end StakeManager

namespace World

variable {net : Network} {delivery : Delivery} {w w' : World}
  {icaId : String} {id : PacketId}

/-- The reply about a query is taken. -/
theorem deliver_registration {sub : SubMsg} (hsub : IsRegistration sub) :
    ∃ w', deliver net delivery w sub = some w' ∧ Quiet w w' ∧
      w'.tokens = w.tokens := by
  obtain ⟨connectionId, keys, period, replyId, rfl, hrange⟩ := hsub
  have hother : ¬ (replyIdRangeStart ≤ replyId ∧
      replyId ≤ replyIdRangeEnd) := by
    have hlt : replyIdRangeEnd < queryReplyIdRangeStart := by decide
    omega
  have htotal : ∃ w', deliver net delivery w ⟨.registerInterchainQuery
      connectionId keys period, some replyId, none⟩ = some w' := by
    simp only [deliver, registerQuery, deliverReply, reply, if_neg hother,
      if_pos hrange]
    exact ⟨_, rfl⟩
  obtain ⟨w', hdeliver⟩ := htotal
  obtain ⟨hquiet, htokens, -⟩ := registerQuery_quiet hdeliver
  exact ⟨w', hdeliver, hquiet, htokens⟩

theorem deliverAll_registrations {subs : List SubMsg}
    (hsubs : ∀ sub ∈ subs, IsRegistration sub) :
    ∃ w', deliverAll net delivery w subs = some w' ∧ Quiet w w' ∧
      w'.tokens = w.tokens := by
  induction subs generalizing w with
  | nil => exact ⟨w, rfl, .refl w, rfl⟩
  | cons sub rest ih =>
      rw [List.forall_mem_cons] at hsubs
      obtain ⟨middle, hfirst, hquiet, htokens⟩ :=
        deliver_registration hsubs.1
      obtain ⟨w', hrest, hquiet', htokens'⟩ := ih hsubs.2
      exact ⟨w', Transition.exec_cons_eq_some.mpr ⟨middle, hfirst, hrest⟩,
        hquiet.trans hquiet', htokens'.trans htokens⟩

/-- A packet with a new id is sent, with the payload its reply finds. -/
theorem deliver_packet_total {tx : SubmitTx} {found : SudoPayload}
    {replyId : Nat} {payload : Option SudoPayload} {sender : String}
    {origin : ExecuteMsg} (hcall : delivery.call = some (id, sender, origin))
    (hused : id ∉ w.used)
    (hrange : replyIdRangeStart ≤ replyId ∧ replyId ≤ replyIdRangeEnd)
    (hfound : w.store.replyIdToPayload replyId = some found) :
    ∃ w', deliver net delivery w ⟨.submitTx tx, some replyId, payload⟩ =
        some w' ∧ w'.tokens = w.tokens ∧ w'.used = id :: w.used ∧
      w'.store.sudoPayload id = some found := by
  simp only [deliver, sendPacket, hcall, if_neg hused, deliverReply, reply,
    if_pos hrange, prepareSudoPayload, hfound]
  exact ⟨_, rfl, rfl, rfl, Map.save_self⟩

/-- A token, queries and a packet are delivered when the token can be created,
the packet has a new id and its reply finds a payload. -/
theorem deliverAll_start {create : SubMsg} {queries : List SubMsg}
    {tx : SubmitTx} {replyId : Nat} {payload : Option SudoPayload}
    {found : SudoPayload} {sender : String} {origin : ExecuteMsg}
    {tokens : Map String LsdToken.Token}
    (hcreate : deliver net delivery w create =
      some { w with tokens := tokens })
    (hqueries : ∀ sub ∈ queries, IsRegistration sub)
    (hcall : delivery.call = some (id, sender, origin))
    (hused : id ∉ w.used)
    (hrange : replyIdRangeStart ≤ replyId ∧ replyId ≤ replyIdRangeEnd)
    (hfound : w.store.replyIdToPayload replyId = some found) :
    ∃ w', deliverAll net delivery w (create :: (queries ++
        [⟨.submitTx tx, some replyId, payload⟩])) = some w' ∧
      w'.tokens = tokens ∧ w'.used = id :: w.used ∧
      w'.store.sudoPayload id = some found := by
  obtain ⟨v, hregistered, hquiet, htokens⟩ :=
    @deliverAll_registrations net delivery { w with tokens := tokens } queries
      hqueries
  have hfound' : v.store.replyIdToPayload replyId = some found := by
    rw [hquiet.store.replyIdToPayload]
    exact hfound
  have hnew : id ∉ v.used := by
    rw [hquiet.used]
    exact hused
  obtain ⟨w', hsent, htokens', hused', hpayload⟩ :=
    @deliver_packet_total net delivery v id tx found replyId payload sender
      origin hcall hnew hrange hfound'
  refine ⟨w', ?_, htokens'.trans htokens, ?_, hpayload⟩
  · refine Transition.exec_cons_eq_some.mpr ⟨_, hcreate, ?_⟩
    exact Transition.exec_append_eq_some.mpr ⟨v, hregistered,
      Transition.exec_cons_eq_some.mpr ⟨w', hsent, rfl⟩⟩
  · rw [hused', hquiet.used]

theorem step_now {block : BlockInfo} {action : Action}
    (hblock : w.block = block) :
    w.step net ⟨block, action⟩ = w.act net action := by
  subst hblock
  exact if_pos ⟨Nat.le_refl _, Nat.le_refl _⟩

section

variable {info : IcaInfo × IcaInfo × String} {half : Half} {block : BlockInfo}
  {channelId counterpartyChannelId connectionId : String}

/-- Before both accounts are known an acknowledgement keeps the records. -/
theorem step_first_ack (hblock : w.block = block)
    (hvalid : validInterchainAccountId icaId = true)
    (hinfo : w.store.infoOfIcaId icaId = some info)
    (hincomplete : ¬ Complete (ackedInfo net icaId channelId
      counterpartyChannelId connectionId half info)) :
    w.step net ⟨block, .openAck (half.icaId icaId) channelId
        counterpartyChannelId (some connectionId)⟩ =
      some { w with
        store := w.store.saveIcaInfo icaId (ackedInfo net icaId channelId
          counterpartyChannelId connectionId half info) } := by
  rw [step_now hblock, act_ack hvalid half channelId counterpartyChannelId
    connectionId hinfo, Storage.opened,
    if_neg fun hnew => hincomplete ⟨hnew.1, hnew.2.1⟩]

/-- The acknowledgement that makes both known creates the record. -/
theorem step_last_ack (hblock : w.block = block)
    (hvalid : validInterchainAccountId icaId = true)
    (hinfo : w.store.infoOfIcaId icaId = some info)
    (hcomplete : Complete (ackedInfo net icaId channelId
      counterpartyChannelId connectionId half info))
    (hnew : w.store.pools (ackedInfo net icaId channelId
      counterpartyChannelId connectionId half info).1.icaAddr = none) :
    w.step net ⟨block, .openAck (half.icaId icaId) channelId
        counterpartyChannelId (some connectionId)⟩ =
      some { w with
        store := (w.store.savePool (ackedInfo net icaId channelId
          counterpartyChannelId connectionId half info).1.icaAddr
            (registeredPool icaId (ackedInfo net icaId channelId
              counterpartyChannelId connectionId half info).2.2)).saveIcaInfo
                icaId (ackedInfo net icaId channelId counterpartyChannelId
                  connectionId half info) } := by
  rw [step_now hblock, act_ack hvalid half channelId counterpartyChannelId
    connectionId hinfo, Storage.opened,
    if_pos ⟨hcomplete.1, hcomplete.2, by rw [hnew]; rfl⟩]

end

end World

/-! ### A pool of the sample -/

namespace Sample

open World

variable {net : Network} {w w' : World} {icaId : String} {id : PacketId}

def initPool (icaId : String) (id : PacketId) : Event :=
  call 1 (querier 0 [] 0)
    (.initPool { initParams with interchainAccountId := icaId }) id

/-- Register a pool, open its two channels and start it. -/
def openPool (icaId : String) (id : PacketId) : List Event := [
  call 1 (querier 0 [] 0) (.registerPool "connection-0" icaId) id,
  ⟨day 1, .openAck icaId "channel-0" "channel-0" (some "connection-1")⟩,
  ⟨day 1, .openAck (getWithdrawIcaId icaId) "channel-1" "channel-1"
    (some "connection-1")⟩,
  initPool icaId id]

/-- The account id and what belongs to it are not in use yet. -/
structure Vacant (net : Network) (w : World) (icaId salt : String)
    (id : PacketId) : Prop where
  block : w.block = day 1
  stack : ∃ stack, w.store.stack = some stack ∧ stack.admin = admin
  ranged : Ranged w.store
  valid : validInterchainAccountId icaId = true
  info : w.store.infoOfIcaId icaId = none
  pool : w.store.pools (net.hostAddr icaId) = none
  host : net.hostAddr icaId ≠ ""
  withdraw : net.hostAddr (getWithdrawIcaId icaId) ≠ ""
  salted : Text.takeBytes 40 (net.hostAddr icaId).toList = some salt.toList
  token : w.tokens salt = none
  unused : id ∉ w.used

/-- The world after the two channels of a new pool have opened. -/
theorem exec_handshake {salt : String} (h : Vacant net w icaId salt id) :
    ∃ pool withdraw : IcaInfo, ∃ infos,
      Transition.exec (step net) w ((openPool icaId id).take 3) =
        some { w with
          store := { w.store with
            infoOfIcaId := infos
            pools := w.store.pools.save (net.hostAddr icaId)
              (registeredPool icaId admin) } } ∧
      pool.icaAddr = net.hostAddr icaId ∧
      withdraw.icaAddr = net.hostAddr (getWithdrawIcaId icaId) ∧
      infos icaId = some (pool, withdraw, admin) ∧
      ∀ other, other ≠ icaId → infos other = w.store.infoOfIcaId other := by
  obtain ⟨stack, hstack, hadmin⟩ := h.stack
  obtain ⟨⟨store, rsp⟩, hregister⟩ :=
    @executeRegisterPool_total w.store stack (w.env net) ⟨admin, fee⟩ icaId _
      "connection-0" hstack hadmin h.valid h.info rfl rfl
  obtain ⟨_, -, -, rfl, hmsgs⟩ := executeRegisterPool_ok hregister
  let info₀ : IcaInfo × IcaInfo × String :=
    (newIcaInfo "connection-0" (getPortId net.self icaId),
      newIcaInfo "connection-0" (getPortId net.self (getWithdrawIcaId icaId)),
      admin)
  let info₁ := ackedInfo net icaId "channel-0" "channel-0" "connection-1" .pool
    info₀
  let info₂ := ackedInfo net icaId "channel-1" "channel-1" "connection-1"
    .withdraw info₁
  have h₁ : w.step net (call 1 (querier 0 [] 0)
      (.registerPool "connection-0" icaId) id) = some { w with
        store := w.store.saveIcaInfo icaId info₀ } := by
    rw [call, step_now h.block]
    simp only [act, execute, hregister, commit, hmsgs]
    rfl
  have h₂ := @step_first_ack net { w with
    store := w.store.saveIcaInfo icaId info₀ } icaId info₀ .pool (day 1)
    "channel-0" "channel-0" "connection-1" h.block h.valid Map.save_self
    fun hcomplete => hcomplete.2 rfl
  have h₃ := @step_last_ack net { w with
    store := (w.store.saveIcaInfo icaId info₀).saveIcaInfo icaId info₁ } icaId
    info₁ .withdraw (day 1) "channel-1" "channel-1" "connection-1" h.block
    h.valid Map.save_self ⟨h.host, h.withdraw⟩ h.pool
  refine ⟨info₂.1, info₂.2.1, ((w.store.infoOfIcaId.save icaId info₀).save
    icaId info₁).save icaId info₂, ?_, rfl, rfl, Map.save_self,
    fun other hother => ?_⟩
  · refine Transition.exec_cons_eq_some.mpr ⟨_, h₁, ?_⟩
    refine Transition.exec_cons_eq_some.mpr ⟨_, h₂, ?_⟩
    exact Transition.exec_cons_eq_some.mpr ⟨_, h₃, rfl⟩
  · rw [Map.save_of_ne hother, Map.save_of_ne hother, Map.save_of_ne hother]

/-- What the opening of a pool leaves alone. -/
structure OpenedPool (net : Network) (w : World) (icaId salt : String)
    (id : PacketId) (w' : World) : Prop where
  block : w'.block = w.block
  stack : w'.store.stack = w.store.stack
  ranged : Ranged w'.store
  infos : ∀ other, other ≠ icaId →
    w'.store.infoOfIcaId other = w.store.infoOfIcaId other
  pools : ∀ a, a ≠ net.hostAddr icaId → w'.store.pools a = w.store.pools a
  tokens : ∀ a, a ≠ salt → w'.tokens a = w.tokens a
  used : w'.used = id :: w.used

theorem createToken_sample {salt : String} (htoken : w.tokens salt = none) :
    ∃ token, createToken net (querier 0 [] 0) w 1
      { name := "stATOM"
        symbol := "stATOM"
        decimals := defaultDecimals
        mintAdmin := admin
        minter := net.self } salt =
      some { w with tokens := w.tokens.save salt token } := by
  have hcreated : ∃ token, LsdToken.instantiate ⟨w.block, fun _ => true⟩
      ⟨"stATOM", "stATOM", defaultDecimals, [], some ⟨admin, net.self, none⟩⟩ =
      .ok token := by
    have hvalid : (⟨"stATOM", "stATOM", defaultDecimals, [],
        some ⟨admin, net.self, none⟩⟩ : LsdToken.InstantiateMsg).validate =
        .ok () := by
      simp only [LsdToken.InstantiateMsg.validate, bind_eq_ok, rejectIf_eq_ok]
      exact ⟨(), by decide, (), by decide, (), by decide, by decide⟩
    rw [LsdToken.instantiate, hvalid]
    exact ⟨_, rfl⟩
  obtain ⟨token, hcreated⟩ := hcreated
  refine ⟨token, ?_⟩
  simp only [createToken, querier, Option.bind_some, htoken, hcreated]
  rfl

theorem startable_sample {salt : String} (p : PoolInfo)
    (hsalt : Text.takeBytes 40 (net.hostAddr icaId).toList =
      some salt.toList) :
    Startable (querier 0 [] 0) net.self (initialPool p initParams 86400 (-1))
      (net.hostAddr icaId) (net.hostAddr (getWithdrawIcaId icaId)) 1 salt
      salt where
  trace := by
    have hsplit : Text.split '/' "ibc/ATOM" = ["ibc", "ATOM"] := by decide
    refine ⟨⟨"transfer/channel-7", "uatom"⟩, ?_, rfl⟩
    change queryDenomTraceFromIbcDenom _ "ibc/ATOM" = _
    rw [queryDenomTraceFromIbcDenom, hsplit]
    rfl
  salted := hsalt
  predicted := ⟨"checksum", rfl, rfl⟩
  fee := ⟨_, rfl⟩
  pool := rfl
  withdraw := rfl
  validators := rfl

/-- The message that creates the token of the pool. -/
def createMsg (net : Network) (salt : String) : SubMsg :=
  ⟨.wasmInstantiate2 admin 1
    { name := "stATOM"
      symbol := "stATOM"
      decimals := defaultDecimals
      mintAdmin := admin
      minter := net.self } "stATOM" salt, none, none⟩

/-- How a pool is started, with the payload of its first packet. -/
structure StartsPool (net : Network) (w : World) (icaId salt : String)
    (p : PoolInfo) (store : Storage) (rsp : Response) (queries : List SubMsg)
    (tx : SubmitTx) (payload : SudoPayload) : Prop where
  call : executeInitPool w.store (querier 0 [] 0) (w.env net) ⟨admin, fee⟩
    { initParams with interchainAccountId := icaId } = .ok (store, rsp)
  dealt : Dealt w.store store rsp (querier 0 [] 0) net.self
    (initialPool p initParams 86400 (-1)) (net.hostAddr icaId)
  started : Started w.store store rsp (querier 0 [] 0) (net.hostAddr icaId)
    (net.hostAddr (getWithdrawIcaId icaId)) ["val1", "val2"]
  messages : rsp.messages = createMsg net salt :: (queries ++
    [⟨.submitTx tx, some w.store.replyId, some payload⟩])
  registrations : ∀ sub ∈ queries, IsRegistration sub
  queued : store.replyIdToPayload w.store.replyId = some payload
  poolAddr : payload.poolAddr = net.hostAddr icaId
  txType : payload.txType = .setWithdrawAddr

theorem executeInitPool_sample {stack : Stack} {pool withdraw : IcaInfo}
    {salt : String} {p : PoolInfo} (hranged : Ranged w.store)
    (hblock : w.block = day 1) (hstack : w.store.stack = some stack)
    (hadmin : stack.admin = admin)
    (hinfo : w.store.infoOfIcaId icaId = some (pool, withdraw, admin))
    (haddr : pool.icaAddr = net.hostAddr icaId)
    (hwithdraw : withdraw.icaAddr = net.hostAddr (getWithdrawIcaId icaId))
    (hp : w.store.pools (net.hostAddr icaId) = some p)
    (howner : p.admin = admin) (hstatus : p.status = .registerEnded)
    (hsalt : Text.takeBytes 40 (net.hostAddr icaId).toList =
      some salt.toList) :
    ∃ store rsp queries tx payload,
      StartsPool net w icaId salt p store rsp queries tx payload := by
  have hstartable := @startable_sample net icaId salt p hsalt
  rw [← haddr] at hp hsalt hstartable
  rw [← hwithdraw] at hstartable
  obtain ⟨⟨store, rsp⟩, hdeal⟩ := @dealPool_total w.store (querier 0 [] 0)
    (w.env net) ⟨admin, fee⟩ _ pool withdraw 1 salt salt "stATOM" "stATOM"
    hstartable
  have hvalidators : initParams.validatorAddrs ≠ [] ∧
      initParams.validatorAddrs.length ≤ validaterLenLimit := by decide
  have heras : (U64.div (w.env net).block.seconds 86400 : NeutronResult Nat) =
      .ok 1 := by
    change U64.div w.block.seconds 86400 = _
    rw [hblock]
    rfl
  have hcall : executeInitPool w.store (querier 0 [] 0) (w.env net)
      ⟨admin, fee⟩ { initParams with interchainAccountId := icaId } =
      .ok (store, rsp) :=
    executeInitPool_starts hstack hadmin hinfo hvalidators hp howner.symm
      hstatus (show initIbcFee _ = .ok 2 from rfl) rfl rfl heras rfl rfl hdeal
  have hdealt := dealPool_ok hdeal
  have hstarted := dealPool_started hdeal
  have hhead := dealPool_creates hdeal hsalt
  obtain ⟨create, queries, tx, payload, next, hmsgs, hqueries, hreply, rfl,
    hpool, htype⟩ := start_messages hdealt hstarted hranged
  rw [hmsgs, List.head?_cons, Option.some.injEq] at hhead
  obtain rfl : create = createMsg net salt := by
    rw [hhead, createMsg, initialPool, howner]
    rfl
  have hqueued : (next.queuePayload payload).replyIdToPayload
      w.store.replyId = some payload := by
    rw [← hreply]
    exact Map.save_self
  rw [haddr] at hdealt hstarted hpool
  rw [hwithdraw] at hstarted
  exact ⟨_, _, queries, tx, payload, hcall, hdealt, hstarted, hmsgs, hqueries,
    hqueued, hpool, htype⟩

/-- A pool whose accounts are known starts. -/
theorem step_initPool {stack : Stack} {pool withdraw : IcaInfo}
    {salt : String} (hranged : Ranged w.store) (hblock : w.block = day 1)
    (hstack : w.store.stack = some stack) (hadmin : stack.admin = admin)
    (hinfo : w.store.infoOfIcaId icaId = some (pool, withdraw, admin))
    (haddr : pool.icaAddr = net.hostAddr icaId)
    (hwithdraw : withdraw.icaAddr = net.hostAddr (getWithdrawIcaId icaId))
    (hp : w.store.pools (net.hostAddr icaId) =
      some (registeredPool icaId admin))
    (hsalt : Text.takeBytes 40 (net.hostAddr icaId).toList =
      some salt.toList)
    (htoken : w.tokens salt = none) (hused : id ∉ w.used) :
    ∃ w', step net w (initPool icaId id) = some w' ∧
      registered w (initPool icaId id) = (poolQueries (net.hostAddr icaId)
        (net.hostAddr (getWithdrawIcaId icaId))).zipIdx w.nextQueryId ∧
      OpenedPool net w icaId salt id w' := by
  obtain ⟨store, rsp, queries, tx, payload, hstarts⟩ :=
    executeInitPool_sample hranged hblock hstack hadmin hinfo haddr hwithdraw
      hp rfl rfl hsalt
  have hstarted := hstarts.started
  obtain ⟨token, hcreate⟩ :=
    @createToken_sample net { w with store := store } salt htoken
  obtain ⟨w', hdelivered, htokens, hused', -⟩ := @deliverAll_start net
    ⟨querier 0 [] 0, true, some (id, admin, .initPool
      { initParams with interchainAccountId := icaId })⟩
    { w with store := store } id (createMsg net salt) queries tx _ payload
    payload _ _ _ hcreate hstarts.registrations rfl hused hranged.packet
    hstarts.queued
  rw [← hstarts.messages] at hdelivered
  refine ⟨w', ?_, ?_, ?_⟩
  · rw [initPool, call, step_now hblock]
    simp only [act, execute, hstarts.call, commit]
    exact hdelivered
  · have hstarting : w.store.starting icaId = some (net.hostAddr icaId,
        net.hostAddr (getWithdrawIcaId icaId)) :=
      starting_eq_some.mpr ⟨pool, withdraw, admin, _, hinfo, haddr ▸ hp, rfl,
        haddr, hwithdraw⟩
    simp only [registered, initPool, call, ExecuteMsg.starting, hstarting]
  · obtain ⟨hkept, hsame⟩ := bookkept_of_deliverAll hdelivered
    obtain ⟨_, _, _, hw'⟩ := hkept
    have hlatest := hstarted.asked.latest
    obtain ⟨_, next, tx, payload, _, _, _, _, _, _, _, _, _, _, _, _, _, -, -,
      -, ⟨_, _, _, rfl⟩, -, -, rfl, -⟩ := hstarts.dealt
    refine ⟨hsame, ?_, ?_, ?_, ?_, ?_, hused'⟩
    · rw [hw']
      rfl
    · refine ⟨?_, ?_⟩
      · rw [hw']
        exact nextId_range (by decide) hranged.packet
      · have hquery : w'.store.latestQueryReplyId = some (nextQueryReplyId
            (nextQueryReplyId (nextQueryReplyId (nextQueryReplyId
              w.store.queryReplyId)))) := by
          rw [hw']
          exact hlatest
        rw [Storage.queryReplyId, hquery]
        exact nextQueryReplyId_range (nextQueryReplyId_range
          (nextQueryReplyId_range (nextQueryReplyId_range hranged.query)))
    · intro other _
      rw [hw']
      rfl
    · intro a ha
      rw [hw']
      exact Map.save_of_ne ha
    · intro a ha
      rw [htokens]
      exact Map.save_of_ne ha

end Sample

end NeutronContracts
