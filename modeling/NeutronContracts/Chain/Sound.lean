/-
The book-keeping of the chain in every reachable state: a waiting packet finds
under its own channel and sequence the payload it was sent with, and every
accepted event acts on a pool by exactly one of the steps listed before.
-/
import NeutronContracts.Chain.AnswerStep

namespace NeutronContracts

open StakeManager Fallible

namespace World

variable {net : Network} {w w' : World} {ev : Event} {a : String}
  {p : PoolInfo}

/-- The book-keeping invariant. -/
structure Sound (net : Network) (w : World) : Prop where
  known : Known w.store
  named : ∀ a p, w.store.pools a = some p → a ≠ ""
  hosted : ∀ icaId info, w.store.infoOfIcaId icaId = some info →
    info.1.icaAddr = "" ∨ info.1.icaAddr = net.hostAddr icaId
  usedPending : ∀ id packet, w.pending id = some packet → id ∈ w.used
  usedPayload : ∀ id payload, w.store.sudoPayload id = some payload →
    id ∈ w.used
  payload : ∀ id packet, w.pending id = some packet →
    w.store.sudoPayload id = packet.payload
  homed : ∀ id packet payload, w.pending id = some packet →
    packet.payload = some payload →
    ∃ p, w.store.pools payload.poolAddr = some p

/-- The packet traffic of a transaction. -/
def Sends (sent : Option SubMsg) (id : PacketId) (sender : String)
    (origin : ExecuteMsg) (w w' : World) : Prop :=
  match sent with
  | none => w'.pending = w.pending ∧ w'.used = w.used
  | some sub => id ∉ w.used ∧ w'.used = id :: w.used ∧
      w'.pending = w.pending.save id (sub.packet sender origin)

/-- What an accepted transaction does: the call, its effect on all pools, and
the delivery of its response. -/
structure Executed (net : Network) (w w' : World) (querier : Querier)
    (info : MessageInfo) (msg : ExecuteMsg) (id : PacketId) (store : Storage)
    (rsp : Response) (sent : Option SubMsg) : Prop where
  account : isAccount info.sender = true
  call : execute w.store querier (w.env net) info msg = .ok (store, rsp)
  delivered : deliverAll net ⟨querier, true, some (id, info.sender, msg)⟩
    { w with store := store } rsp.messages = some w'
  outcome : Outcome w.store querier (w.env net) info msg store rsp.messages
    sent
  records : Bookkept store w'.store
  block : w'.block = w.block
  sends : Sends sent id info.sender msg w w'
  payloads : ∀ sub ∈ sent, (sub.payload = none →
      w.store.sudoPayload id = none) →
    w'.store.sudoPayload id = sub.payload
  otherPayloads : ∀ other, (∀ sub ∈ sent, other ≠ id ∧
      (sub.payload = none → w.store.sudoPayload id = none)) →
    w'.store.sudoPayload other = w.store.sudoPayload other

/-- The packet that a call sends is the only one of its response. -/
theorem Executed.sent_eq {querier : Querier} {info : MessageInfo}
    {msg : ExecuteMsg} {id : PacketId} {store : Storage} {rsp : Response}
    {sent o : Option SubMsg}
    (h : Executed net w w' querier info msg id store rsp sent)
    (hpackets : packets rsp.messages = o.toList) : sent = o := by
  have hlists := h.outcome.packets.symm.trans hpackets
  cases sent <;> cases o <;> simp_all

/-- The packet of a response, delivered: it waits under a fresh id, and its
payload is stored under that id. -/
theorem traffic_of_deliverAll {store : Storage} {querier : Querier}
    {info : MessageInfo} {msg : ExecuteMsg} {id : PacketId} {env : Env}
    {subs : List SubMsg} {sent : Option SubMsg}
    (houtcome : Outcome w.store querier env info msg store subs sent)
    (h : deliverAll net ⟨querier, true, some (id, info.sender, msg)⟩
      { w with store := store } subs = some w') :
    Sends sent id info.sender msg w w' ∧
      (∀ sub ∈ sent, (sub.payload = none →
          w.store.sudoPayload id = none) →
        w'.store.sudoPayload id = sub.payload) ∧
      ∀ other, (∀ sub ∈ sent, other ≠ id ∧
          (sub.payload = none → w.store.sudoPayload id = none)) →
        w'.store.sudoPayload other = w.store.sudoPayload other := by
  have hold := houtcome.sudoPayload
  cases sent with
  | none =>
      have hquiet := deliverAll_quiet houtcome.packets h
      refine ⟨⟨hquiet.pending, hquiet.used⟩, by simp, fun other _ => ?_⟩
      rw [hquiet.sudoPayload]
      exact congrFun hold other
  | some sub =>
      have hsent := deliverAll_sent houtcome.packets h
      obtain ⟨id', sender, origin, hcall', hfresh, hused, hpending,
        hpayload⟩ := hsent.sent
      simp only [Option.some.injEq, Prod.mk.injEq] at hcall'
      obtain ⟨rfl, rfl, rfl⟩ := hcall'
      have hqueued := houtcome.queued sub rfl
      refine ⟨⟨hfresh, hused, hpending⟩, ?_, ?_⟩
      · rintro _ hsub hnone
        obtain rfl := Option.mem_some.mp hsub
        refine (hpayload hqueued fun hnil => ?_).1
        exact (congrFun hold id).trans (hnone hnil)
      · intro other hother
        obtain ⟨hne, hnone⟩ := hother sub rfl
        refine ((hpayload hqueued fun hnil => ?_).2 other hne).trans
          (congrFun hold other)
        exact (congrFun hold id).trans (hnone hnil)

theorem executed_of_act (hknown : Known w.store) {querier : Querier}
    {info : MessageInfo} {msg : ExecuteMsg} {id : PacketId}
    (h : w.act net (.execute querier info msg id) = some w') :
    ∃ store rsp sent,
      Executed net w w' querier info msg id store rsp sent := by
  simp only [act] at h
  split at h
  case isFalse => cases h
  case isTrue haccount =>
      unfold commit at h
      split at h
      case h_1 => cases h
      case h_2 store rsp hcall =>
          obtain ⟨sent, houtcome⟩ := execute_outcome hknown hcall
          obtain ⟨hstore, hblock⟩ := bookkept_of_deliverAll h
          obtain ⟨hsends, hpayloads, hother⟩ :=
            traffic_of_deliverAll houtcome h
          exact ⟨store, rsp, sent, haccount, hcall, h, houtcome, hstore,
            hblock, hsends, hpayloads, hother⟩

/-- The storage a callback starts from. -/
def afterTake (w : World) (id : PacketId) : Storage :=
  { w.store with sudoPayload := w.store.sudoPayload.remove id }

/-- An answer is either handled by its callback, or the storage stays as it
was; the packet is answered in both cases. -/
inductive Handled (net : Network) (w w' : World) (id : PacketId)
    (answer : Answer) (querier : Querier) (bankAccepts : Bool)
    (packet : Packet) : Prop
  | handled {payload store rsp} (hpayload : packet.payload = some payload)
      (hcall : callback (w.afterTake id) (w.env net) payload answer =
        .ok (store, rsp))
      (houtcome : AnswerOutcome (w.afterTake id) (w.env net) payload answer
        store rsp.messages)
      (hdelivered : deliverAll net ⟨querier, bankAccepts, none⟩
        { w with pending := w.pending.remove id, store := store }
        rsp.messages = some w')
  | vain (hvain : ∀ payload store rsp, packet.payload = some payload →
        callback (w.afterTake id) (w.env net) payload answer =
          .ok (store, rsp) →
        deliverAll net ⟨querier, bankAccepts, none⟩
          { w with pending := w.pending.remove id, store := store }
          rsp.messages = none)
      (hsame : w' = { w with pending := w.pending.remove id })

/-- The answered packet waits no longer, and no other packet is touched. -/
theorem Handled.pending {id : PacketId} {answer : Answer} {querier : Querier}
    {bankAccepts : Bool} {packet : Packet}
    (h : Handled net w w' id answer querier bankAccepts packet) :
    w'.pending = w.pending.remove id := by
  cases h with
  | handled _ _ houtcome hdelivered =>
      exact (deliverAll_quiet houtcome.packets hdelivered).pending
  | vain _ hsame =>
      subst hsame
      rfl

theorem sudoEntry_of_payload {store : Storage} {id : PacketId}
    {payload : SudoPayload} (hpayload : store.sudoPayload id = some payload)
    (env : Env) (answer : Answer) :
    sudoEntry store env (answerMsg id answer) = callback
      { store with sudoPayload := store.sudoPayload.remove id } env payload
      answer := by
  cases answer <;>
    simp [answerMsg, sudoEntry, sudoResponse, sudoError, sudoTimeout,
      takeSudoPayload, callback, orError, hpayload, bind, Except.bind, pure,
      Except.pure]

theorem sudoEntry_of_no_payload {store : Storage} {id : PacketId}
    (hpayload : store.sudoPayload id = none) (env : Env) (answer : Answer) :
    sudoEntry store env (answerMsg id answer) =
      .error .callBackErrErrorMsg := by
  cases answer <;>
    simp [answerMsg, sudoEntry, sudoResponse, sudoError, sudoTimeout,
      takeSudoPayload, orError, hpayload, bind, Except.bind]

theorem handled_of_act (hs : Sound net w) {id : PacketId} {answer : Answer}
    {querier : Querier} {bankAccepts : Bool}
    (h : w.act net (.answer id answer querier bankAccepts) = some w') :
    ∃ packet, w.pending id = some packet ∧
      Handled net w w' id answer querier bankAccepts packet := by
  simp only [act] at h
  split at h
  case h_1 => cases h
  case h_2 packet hpending =>
      refine ⟨packet, hpending, ?_⟩
      have hstored := hs.payload id packet hpending
      simp only [Option.some.injEq] at h
      cases hpayload : packet.payload with
      | none =>
          rw [hpayload] at hstored
          refine .vain (fun payload _ _ h' => ?_) ?_
          · simp [hpayload] at h'
          · rw [← h, sudoEntry_of_no_payload hstored]
            rfl
      | some payload =>
          rw [hpayload] at hstored
          rw [sudoEntry_of_payload hstored] at h
          change (commit net _ _ (callback (w.afterTake id) (w.env net)
            payload answer)).getD _ = w' at h
          have huniq : ∀ other, packet.payload = some other →
              other = payload := fun other hother =>
            (Option.some.inj (hpayload.symm.trans hother)).symm
          cases hcall : callback (w.afterTake id) (w.env net) payload answer
            with
          | error e =>
              refine .vain (fun other _ _ hother hok => ?_) ?_
              · rw [huniq other hother, hcall] at hok
                cases hok
              · rw [← h, hcall]
                rfl
          | ok result =>
              obtain ⟨store, rsp⟩ := result
              simp only [hcall, commit] at h
              cases hdeliver : deliverAll net ⟨querier, bankAccepts, none⟩
                  { w with pending := w.pending.remove id, store := store }
                  rsp.messages with
              | none =>
                  refine .vain (fun other _ _ hother hok => ?_) ?_
                  · rw [huniq other hother, hcall, Except.ok.injEq,
                      Prod.mk.injEq] at hok
                    obtain ⟨rfl, rfl⟩ := hok
                    exact hdeliver
                  · rw [← h, hdeliver]
                    rfl
              | some next =>
                  simp only [hdeliver, Option.getD_some] at h
                  subst h
                  exact .handled hpayload hcall (callback_outcome hcall)
                    hdeliver

theorem step_eq_some (h : w.step net ev = some w') :
    w.block.height ≤ ev.block.height ∧ w.block.time ≤ ev.block.time ∧
      { w with block := ev.block }.act net ev.action = some w' := by
  unfold step at h
  split at h
  case isTrue hblock => exact ⟨hblock.1, hblock.2, h⟩
  case isFalse => cases h

theorem block_of_commit {delivery : Delivery}
    {result : NeutronResult (Storage × Response)}
    (h : commit net delivery w result = some w') : w'.block = w.block := by
  unfold commit at h
  split at h
  · cases h
  · exact (bookkept_of_deliverAll h).2

/-- The clock shows the block of the last accepted event. -/
theorem block_of_step (h : w.step net ev = some w') : w'.block = ev.block := by
  obtain ⟨-, -, hact⟩ := step_eq_some h
  cases haction : ev.action with
  | execute querier info msg id =>
      simp only [haction, act] at hact
      split at hact
      · exact block_of_commit hact
      · cases hact
  | answer id answer querier bankAccepts =>
      simp only [haction, act] at hact
      split at hact
      · cases hact
      · rw [Option.some.injEq] at hact
        cases hcommit : commit net _ _ _ with
        | none =>
            rw [hcommit] at hact
            exact hact ▸ rfl
        | some next =>
            rw [hcommit] at hact
            exact hact ▸ block_of_commit hcommit
  | openAck icaId channelId counterpartyChannelId hostConnectionId =>
      simp only [haction, act] at hact
      split at hact
      · cases hact
      · exact (Option.some.inj hact) ▸ rfl
  | kvQueryResult queryId querier =>
      simp only [haction, act] at hact
      exact block_of_commit hact
  | token addrValidate address sender msg =>
      simp only [haction, act] at hact
      split at hact
      · cases hact
      · exact (runToken_quiet hact).1.block

theorem executed_of_step (hs : Sound net w) (hstep : w.step net ev = some w')
    {querier : Querier} {info : MessageInfo} {msg : ExecuteMsg} {id : PacketId}
    (haction : ev.action = .execute querier info msg id) :
    ∃ store rsp sent, Executed net { w with block := ev.block } w' querier
      info msg id store rsp sent := by
  obtain ⟨-, -, hact⟩ := step_eq_some hstep
  rw [haction] at hact
  have hknown : Known ({ w with block := ev.block } : World).store := hs.known
  exact executed_of_act hknown hact

/-- The book-keeping does not depend on the block. -/
theorem Sound.at_block (hs : Sound net w) (block : BlockInfo) :
    Sound net { w with block := block } :=
  ⟨hs.known, hs.named, hs.hosted, hs.usedPending, hs.usedPayload,
    hs.payload, hs.homed⟩

theorem handled_of_step (hs : Sound net w) (hstep : w.step net ev = some w')
    {id : PacketId} {answer : Answer} {querier : Querier} {bankAccepts : Bool}
    (haction : ev.action = .answer id answer querier bankAccepts) :
    ∃ packet, w.pending id = some packet ∧
      Handled net { w with block := ev.block } w' id answer querier
        bankAccepts packet := by
  obtain ⟨-, -, hact⟩ := step_eq_some hstep
  rw [haction] at hact
  exact handled_of_act (hs.at_block ev.block) hact

/-- How an accepted event touches the record `p` of pool `a`. -/
inductive PoolMove (net : Network) (w : World) (ev : Event) (w' : World)
    (a : String) (p : PoolInfo) : PoolInfo → Prop
  | executed {querier info msg id sent p'}
      (haction : ev.action = .execute querier info msg id)
      (hstep : ExecStep w.store querier ⟨ev.block, net.self⟩ info a p msg sent
        p')
      (hsends : Sends sent id info.sender msg w w') :
      PoolMove net w ev w' a p p'
  | answered {id answer querier bankAccepts packet payload p'}
      (haction : ev.action = .answer id answer querier bankAccepts)
      (hpacket : w.pending id = some packet)
      (hpayload : packet.payload = some payload)
      (hpool : payload.poolAddr = a)
      (hstep : AnswerStep ev.block.height p payload answer p')
      (hpending : w'.pending = w.pending.remove id) :
      PoolMove net w ev w' a p p'
  | answeredElsewhere {id answer querier bankAccepts packet}
      (haction : ev.action = .answer id answer querier bankAccepts)
      (hpacket : w.pending id = some packet)
      (helsewhere : ∀ payload, packet.payload = some payload →
        payload.poolAddr ≠ a)
      (hpending : w'.pending = w.pending.remove id) :
      PoolMove net w ev w' a p p
  | vain {id answer querier bankAccepts packet payload}
      (haction : ev.action = .answer id answer querier bankAccepts)
      (hpacket : w.pending id = some packet)
      (hpayload : packet.payload = some payload)
      (hpool : payload.poolAddr = a)
      (hvain : ∀ store rsp, callback (w.afterTake id) ⟨ev.block, net.self⟩
        payload answer = .ok (store, rsp) → rsp.messages ≠ [])
      (hpending : w'.pending = w.pending.remove id) :
      PoolMove net w ev w' a p p
  | idle
      (hexecute : ∀ querier info msg id,
        ev.action ≠ .execute querier info msg id)
      (hanswer : ∀ id answer querier bankAccepts,
        ev.action ≠ .answer id answer querier bankAccepts)
      (hpending : w'.pending = w.pending) :
      PoolMove net w ev w' a p p

/-- The answer to a query and the calls of tokens leave the records alone. -/
theorem kvQueryResult_of_act {queryId : Nat} {querier : Querier}
    (h : w.act net (.kvQueryResult queryId querier) = some w') :
    ∃ replies needed, Quiet { w with store :=
      { w.store with
        queryIdToReplyId := replies
        replyIdToNeedUpdate := needed } } w' := by
  simp only [act, commit, sudoEntry] at h
  split at h
  case h_1 => cases h
  case h_2 store rsp hcall =>
      obtain ⟨⟨replies, needed, rfl⟩, hmsgs⟩ := sudoKvQueryResult_ok hcall
      refine ⟨replies, needed, deliverAll_quiet ?_ h⟩
      rcases hmsgs with hmsgs | hmsgs <;> rw [hmsgs] <;> rfl

theorem token_of_act {addrValidate : String → Bool} {address sender : String}
    {msg : LsdToken.ExecuteMsg}
    (h : w.act net (.token addrValidate address sender msg) = some w') :
    sender ≠ net.self ∧ Quiet w w' ∧ w'.store = w.store ∧
      w'.watched = w.watched := by
  simp only [act] at h
  split at h
  case isTrue => cases h
  case isFalse hne =>
      obtain ⟨hquiet, hstore, hwatched⟩ := runToken_quiet h
      exact ⟨hne, hquiet, hstore, hwatched⟩

/-- What an opened channel does to the storage. -/
structure Opened (net : Network) (store store' : Storage) (icaId : String) :
    Prop where
  sudoPayload : store'.sudoPayload = store.sudoPayload
  unstakesOfIndex : store'.unstakesOfIndex = store.unstakesOfIndex
  unstakesIndexForUser :
    store'.unstakesIndexForUser = store.unstakesIndexForUser
  stack : store'.stack = store.stack
  validatorsUnbondsTime :
    store'.validatorsUnbondsTime = store.validatorsUnbondsTime
  info : ∃ icaId' admin, ∃ pool withdraw pool' withdraw' : IcaInfo,
    store.infoOfIcaId icaId' = some (pool, withdraw, admin) ∧
    store'.infoOfIcaId =
      store.infoOfIcaId.save icaId' (pool', withdraw', admin) ∧
    (pool'.icaAddr = pool.icaAddr ∨
      icaId' = icaId ∧ pool'.icaAddr = net.hostAddr icaId) ∧
    (store'.pools = store.pools ∨
      pool'.icaAddr ≠ "" ∧ store.pools pool'.icaAddr = none ∧
        store'.pools = store.pools.save pool'.icaAddr
          (registeredPool icaId' admin))

theorem opened_of_act {icaId channelId counterpartyChannelId : String}
    {hostConnectionId : Option String}
    (h : w.act net (.openAck icaId channelId counterpartyChannelId
      hostConnectionId) = some w') :
    ∃ store, Opened net w.store store icaId ∧
      w' = { w with store := store } := by
  simp only [act, sudoEntry] at h
  split at h
  case h_1 => cases h
  case h_2 store rsp hcall =>
      simp only [Option.some.injEq] at h
      obtain ⟨version, icaId', isPool, pool, withdraw, admin, pool', withdraw',
        hversion, hport, hinfo, haddr, rfl, -⟩ := sudoOpenAck_ok hcall
      refine ⟨_, ⟨?_, ?_, ?_, ?_, ?_, icaId', admin, pool, withdraw, pool',
        withdraw', hinfo, ?_, ?_, ?_⟩, h.symm⟩
      iterate 5 split <;> rfl
      · split <;> rfl
      · cases isPool with
        | false => exact .inl haddr
        | true =>
            have hid := icaIdOfPort_getPortId net.self_plain hport
            refine .inr ⟨hid, ?_⟩
            simp only [Option.map_eq_some_iff] at hversion
            obtain ⟨_, -, rfl⟩ := hversion
            exact haddr
      · split
        case isTrue hnew =>
            refine .inr ⟨hnew.1, ?_, rfl⟩
            simpa using hnew.2.2
        case isFalse => exact .inl rfl

/-- Every accepted event acts on every pool by one of the moves. -/
theorem pool_move (hs : Sound net w) (hstep : w.step net ev = some w')
    (hp : w.store.pools a = some p) :
    ∃ p', w'.store.pools a = some p' ∧ PoolMove net w ev w' a p p' := by
  obtain ⟨-, -, hact⟩ := step_eq_some hstep
  cases haction : ev.action with
  | execute querier info msg id =>
      obtain ⟨store, rsp, sent, hexec⟩ := executed_of_step hs hstep haction
      obtain ⟨p', hp', hpool⟩ := hexec.outcome.step a p hp
      exact ⟨p', by rw [hexec.records.pools, hp'],
        .executed haction hpool hexec.sends⟩
  | answer id answer querier bankAccepts =>
      obtain ⟨packet, hpacket, hhandled⟩ := handled_of_step hs hstep haction
      cases hhandled with
      | handled hpayload hcall houtcome hdelivered =>
          rename_i payload store rsp
          have hquiet := deliverAll_quiet houtcome.packets hdelivered
          have hpools : w'.store.pools = store.pools := hquiet.store.pools
          by_cases hpool : payload.poolAddr = a
          · subst hpool
            obtain ⟨p', hp', hanswer⟩ := houtcome.step p hp
            exact ⟨p', by rw [hpools, hp'], .answered haction hpacket hpayload
              rfl hanswer hquiet.pending⟩
          · refine ⟨p, ?_, .answeredElsewhere haction hpacket ?_
              hquiet.pending⟩
            · rw [hpools, houtcome.elsewhere a hpool]
              exact hp
            · intro other hother
              rw [hpayload, Option.some.injEq] at hother
              exact hother ▸ hpool
      | vain hvain hsame =>
          subst hsame
          refine ⟨p, hp, ?_⟩
          cases hpayload : packet.payload with
          | none =>
              exact .answeredElsewhere haction hpacket (by simp [hpayload])
                rfl
          | some payload =>
              by_cases hpool : payload.poolAddr = a
              · refine .vain haction hpacket hpayload hpool ?_ rfl
                intro store rsp hok hnil
                have hnone := hvain payload store rsp hpayload hok
                rw [hnil] at hnone
                cases hnone
              · refine .answeredElsewhere haction hpacket ?_ rfl
                intro other hother
                rw [hpayload, Option.some.injEq] at hother
                exact hother ▸ hpool
  | openAck icaId channelId counterpartyChannelId hostConnectionId =>
      rw [haction] at hact
      obtain ⟨store, hopened, rfl⟩ := opened_of_act hact
      obtain ⟨icaId', admin, pool, withdraw, pool', withdraw', -, -, -,
        hpools⟩ := hopened.info
      refine ⟨p, ?_, .idle (by simp [haction]) (by simp [haction]) rfl⟩
      rcases hpools with hpools | ⟨-, hnew, hpools⟩
      · exact (congrFun hpools a).trans hp
      · have hne : a ≠ pool'.icaAddr := by
          rintro rfl
          exact absurd (hnew.symm.trans hp) (by simp)
        exact (congrFun hpools a).trans ((Map.save_of_ne hne).trans hp)
  | kvQueryResult queryId querier =>
      rw [haction] at hact
      obtain ⟨_, _, hquiet⟩ := kvQueryResult_of_act hact
      exact ⟨p, by rw [hquiet.store.pools]; exact hp,
        .idle (by simp [haction]) (by simp [haction]) hquiet.pending⟩
  | token addrValidate address sender msg =>
      rw [haction] at hact
      obtain ⟨-, hquiet, hstore, -⟩ := token_of_act hact
      exact ⟨p, by rw [hstore]; exact hp,
        .idle (by simp [haction]) (by simp [haction]) hquiet.pending⟩

/-- A pool comes into being with the record of a registered pool, when a
channel is opened. -/
theorem pool_created (hs : Sound net w) (hstep : w.step net ev = some w')
    (hp : w.store.pools a = none) (hp' : w'.store.pools a = some p) :
    (∃ icaId admin entry, p = registeredPool icaId admin ∧ a ≠ "" ∧
      w'.store.infoOfIcaId icaId = some entry ∧ entry.1.icaAddr = a) ∧
      w'.pending = w.pending ∧
      (∀ querier info msg id, ev.action ≠ .execute querier info msg id) ∧
      ∀ id answer querier bankAccepts,
        ev.action ≠ .answer id answer querier bankAccepts := by
  obtain ⟨-, -, hact⟩ := step_eq_some hstep
  cases haction : ev.action with
  | execute querier info msg id =>
      obtain ⟨store, rsp, sent, hexec⟩ := executed_of_step hs hstep haction
      rw [hexec.records.pools, hexec.outcome.created a hp] at hp'
      cases hp'
  | answer id answer querier bankAccepts =>
      obtain ⟨packet, hpacket, hhandled⟩ := handled_of_step hs hstep haction
      cases hhandled with
      | handled hpayload hcall houtcome hdelivered =>
          have hquiet := deliverAll_quiet houtcome.packets hdelivered
          rw [hquiet.store.pools] at hp'
          exact absurd (hp'.symm.trans (houtcome.created a hp)) (by simp)
      | vain hvain hsame =>
          subst hsame
          exact absurd (hp.symm.trans hp') (by simp)
  | openAck icaId channelId counterpartyChannelId hostConnectionId =>
      rw [haction] at hact
      obtain ⟨store, hopened, rfl⟩ := opened_of_act hact
      obtain ⟨icaId', admin, pool, withdraw, pool', withdraw', -, hinfo, -,
        hpools⟩ := hopened.info
      refine ⟨?_, rfl, by simp, by simp⟩
      rcases hpools with hpools | ⟨hnamed, -, hpools⟩
      · have hsame := hp'.symm.trans (congrFun hpools a)
        exact absurd (hsame.trans hp) (by simp)
      · have hsaved := hp'.symm.trans (congrFun hpools a)
        rw [Map.save_apply] at hsaved
        split at hsaved
        case isTrue ha =>
            subst ha
            exact ⟨icaId', admin, (pool', withdraw', admin),
              Option.some.inj hsaved, hnamed,
              (congrFun hinfo icaId').trans Map.save_self, rfl⟩
        case isFalse => exact absurd (hsaved.trans hp) (by simp)
  | kvQueryResult queryId querier =>
      rw [haction] at hact
      obtain ⟨_, _, hquiet⟩ := kvQueryResult_of_act hact
      rw [hquiet.store.pools] at hp'
      exact absurd (hp.symm.trans hp') (by simp)
  | token addrValidate address sender msg =>
      rw [haction] at hact
      obtain ⟨-, hquiet, hstore, -⟩ := token_of_act hact
      rw [hstore] at hp'
      exact absurd (hp.symm.trans hp') (by simp)

theorem execStep_icaId {querier : Querier} {env : Env} {info : MessageInfo}
    {store : Storage} {msg : ExecuteMsg} {sent : Option SubMsg}
    {p' : PoolInfo}
    (h : ExecStep store querier env info a p msg sent p') :
    p'.icaId = p.icaId := by
  cases h with
  | config hpool hconfig =>
      obtain ⟨_, _, _, _, _, _, _, _, _, _, _, rfl⟩ := hconfig
      rfl
  | era hera => cases hera <;> rfl
  | _ => rfl

theorem answerStep_icaId {height : Nat} {payload : SudoPayload}
    {answer : Answer} {p' : PoolInfo}
    (h : AnswerStep height p payload answer p') : p'.icaId = p.icaId := by
  cases h with
  | era hera => cases hera <;> rfl
  | _ => rfl

theorem PoolMove.icaId {p' : PoolInfo} (h : PoolMove net w ev w' a p p') :
    p'.icaId = p.icaId := by
  cases h with
  | executed haction hstep hsends => exact execStep_icaId hstep
  | answered haction hpacket hpayload hpool hstep hpending =>
      exact answerStep_icaId hstep
  | _ => rfl

/-- The entry of an interchain account keeps its pool address, apart from the
address the host assigns. -/
theorem info_step (hs : Sound net w) (hstep : w.step net ev = some w') :
    (∀ icaId entry, w.store.infoOfIcaId icaId = some entry →
      ∃ entry', w'.store.infoOfIcaId icaId = some entry' ∧
        (entry'.1.icaAddr = entry.1.icaAddr ∨
          entry'.1.icaAddr = net.hostAddr icaId)) ∧
    ∀ icaId entry', w'.store.infoOfIcaId icaId = some entry' →
      entry'.1.icaAddr = "" ∨ entry'.1.icaAddr = net.hostAddr icaId := by
  obtain ⟨-, -, hact⟩ := step_eq_some hstep
  have hsame : w'.store.infoOfIcaId = w.store.infoOfIcaId →
      (∀ icaId entry, w.store.infoOfIcaId icaId = some entry →
        ∃ entry', w'.store.infoOfIcaId icaId = some entry' ∧
          (entry'.1.icaAddr = entry.1.icaAddr ∨
            entry'.1.icaAddr = net.hostAddr icaId)) ∧
      ∀ icaId entry', w'.store.infoOfIcaId icaId = some entry' →
        entry'.1.icaAddr = "" ∨ entry'.1.icaAddr = net.hostAddr icaId := by
    intro heq
    rw [heq]
    exact ⟨fun icaId entry hentry => ⟨entry, hentry, .inl rfl⟩, hs.hosted⟩
  cases haction : ev.action with
  | execute querier info msg id =>
      obtain ⟨store, rsp, sent, hexec⟩ := executed_of_step hs hstep haction
      rw [hexec.records.infoOfIcaId]
      refine ⟨fun icaId entry hentry => ⟨entry,
        hexec.outcome.infoOfIcaId icaId entry hentry, .inl rfl⟩, ?_⟩
      intro icaId entry' hentry'
      rcases hexec.outcome.registered icaId entry' hentry' with hold | hempty
      · exact hs.hosted icaId entry' hold
      · exact .inl hempty
  | answer id answer querier bankAccepts =>
      obtain ⟨packet, hpacket, hhandled⟩ := handled_of_step hs hstep haction
      cases hhandled with
      | handled hpayload hcall houtcome hdelivered =>
          have hquiet := deliverAll_quiet houtcome.packets hdelivered
          exact hsame (hquiet.store.infoOfIcaId.trans houtcome.infoOfIcaId)
      | vain hvain hsame' =>
          subst hsame'
          exact hsame rfl
  | openAck icaId channelId counterpartyChannelId hostConnectionId =>
      rw [haction] at hact
      obtain ⟨store, hopened, rfl⟩ := opened_of_act hact
      obtain ⟨icaId', admin, pool, withdraw, pool', withdraw', hold, hnew,
        haddr, -⟩ := hopened.info
      refine ⟨fun other entry hentry => ?_, fun other entry' hentry' => ?_⟩
      · by_cases hother : other = icaId'
        · subst hother
          refine ⟨(pool', withdraw', admin), ?_, ?_⟩
          · exact (congrFun hnew other).trans Map.save_self
          · have heq := Option.some.inj (hold.symm.trans hentry)
            subst heq
            rcases haddr with haddr | ⟨rfl, haddr⟩
            · exact .inl haddr
            · exact .inr haddr
        · exact ⟨entry, (congrFun hnew other).trans
            ((Map.save_of_ne hother).trans hentry), .inl rfl⟩
      · have hentry' := (congrFun hnew other).symm.trans hentry'
        rw [Map.save_apply] at hentry'
        split at hentry'
        case isTrue hother =>
            subst hother
            obtain rfl := Option.some.inj hentry'
            rcases haddr with haddr | ⟨rfl, haddr⟩
            · have hhosted := hs.hosted other _ hold
              rw [← haddr] at hhosted
              exact hhosted
            · exact .inr haddr
        case isFalse => exact hs.hosted other entry' hentry'
  | kvQueryResult queryId querier =>
      rw [haction] at hact
      obtain ⟨_, _, hquiet⟩ := kvQueryResult_of_act hact
      exact hsame hquiet.store.infoOfIcaId
  | token addrValidate address sender msg =>
      rw [haction] at hact
      obtain ⟨-, -, hstore, -⟩ := token_of_act hact
      exact hsame (by rw [hstore])

/-- The packets and their payloads after an accepted event. -/
inductive Traffic (w : World) (ev : Event) (w' : World) : Prop
  | quiet (hexecute : ∀ querier info msg id,
        ev.action ≠ .execute querier info msg id)
      (hpending : w'.pending = w.pending) (hused : w'.used = w.used)
      (hpayload : w'.store.sudoPayload = w.store.sudoPayload)
  | sent {querier info msg id sent}
      (haction : ev.action = .execute querier info msg id)
      (hsends : Sends sent id info.sender msg w w')
      (hpayloads : ∀ sub ∈ sent, (sub.payload = none →
          w.store.sudoPayload id = none) →
        w'.store.sudoPayload id = sub.payload)
      (hother : ∀ other, (∀ sub ∈ sent, other ≠ id ∧
          (sub.payload = none → w.store.sudoPayload id = none)) →
        w'.store.sudoPayload other = w.store.sudoPayload other)
      (hhomed : ∀ sub ∈ sent, ∀ payload, sub.payload = some payload →
        ∃ p, w.store.pools payload.poolAddr = some p)
  | answered {id answer querier bankAccepts}
      (haction : ev.action = .answer id answer querier bankAccepts)
      (hpending : w'.pending = w.pending.remove id)
      (hused : w'.used = w.used)
      (hpayload : w'.store.sudoPayload = w.store.sudoPayload ∨
        w'.store.sudoPayload = w.store.sudoPayload.remove id)

theorem traffic_of_step (hs : Sound net w) (hstep : w.step net ev = some w') :
    Traffic w ev w' := by
  obtain ⟨-, -, hact⟩ := step_eq_some hstep
  cases haction : ev.action with
  | execute querier info msg id =>
      obtain ⟨store, rsp, sent, hexec⟩ := executed_of_step hs hstep haction
      exact .sent haction hexec.sends hexec.payloads hexec.otherPayloads
        hexec.outcome.homed
  | answer id answer querier bankAccepts =>
      obtain ⟨packet, hpacket, hhandled⟩ := handled_of_step hs hstep haction
      cases hhandled with
      | handled hpayload hcall houtcome hdelivered =>
          have hquiet := deliverAll_quiet houtcome.packets hdelivered
          exact .answered haction hquiet.pending hquiet.used
            (.inr (hquiet.sudoPayload.trans houtcome.sudoPayload))
      | vain hvain hsame =>
          subst hsame
          exact .answered haction rfl rfl (.inl rfl)
  | openAck icaId channelId counterpartyChannelId hostConnectionId =>
      rw [haction] at hact
      obtain ⟨store, hopened, rfl⟩ := opened_of_act hact
      exact .quiet (by simp [haction]) rfl rfl hopened.sudoPayload
  | kvQueryResult queryId querier =>
      rw [haction] at hact
      obtain ⟨_, _, hquiet⟩ := kvQueryResult_of_act hact
      exact .quiet (by simp [haction]) hquiet.pending hquiet.used
        hquiet.sudoPayload
  | token addrValidate address sender msg =>
      rw [haction] at hact
      obtain ⟨-, hquiet, -, -⟩ := token_of_act hact
      exact .quiet (by simp [haction]) hquiet.pending hquiet.used
        hquiet.sudoPayload

/-- Pools never disappear. -/
theorem pool_persists (hs : Sound net w) (hstep : w.step net ev = some w')
    (hp : w.store.pools a = some p) : ∃ p', w'.store.pools a = some p' := by
  obtain ⟨p', hp', -⟩ := pool_move hs hstep hp
  exact ⟨p', hp'⟩

theorem known_step (hs : Sound net w) (hstep : w.step net ev = some w') :
    Known w'.store ∧ ∀ a p, w'.store.pools a = some p → a ≠ "" := by
  have hpool : ∀ a p', w'.store.pools a = some p' → a ≠ "" ∧
      ∃ info, w'.store.infoOfIcaId p'.icaId = some info ∧
        info.1.icaAddr = a := by
    intro a p' hp'
    cases hp : w.store.pools a with
    | none =>
        obtain ⟨⟨icaId, admin, entry, rfl, hnamed, hentry, haddr⟩, -⟩ :=
          pool_created hs hstep hp hp'
        exact ⟨hnamed, entry, hentry, haddr⟩
    | some p =>
        obtain ⟨next, hnext, hmove⟩ := pool_move hs hstep hp
        obtain rfl := Option.some.inj (hnext.symm.trans hp')
        obtain ⟨entry, hentry, haddr⟩ := hs.known a p hp
        obtain ⟨entry', hentry', haddr'⟩ :=
          (info_step hs hstep).1 p.icaId entry hentry
        have hnamed := hs.named a p hp
        refine ⟨hnamed, entry', by rw [hmove.icaId, hentry'], ?_⟩
        rcases haddr' with haddr' | haddr'
        · rw [haddr', haddr]
        -- the host assigns the address it has assigned before
        · rcases hs.hosted p.icaId entry hentry with hempty | hhost
          · exact absurd (haddr.symm.trans hempty) hnamed
          · rw [haddr', ← hhost, haddr]
  exact ⟨fun a p hp => (hpool a p hp).2, fun a p hp => (hpool a p hp).1⟩

/-- The packets of the next state: each one was waiting before or has just
been sent, and its payload is stored under its id. -/
theorem packets_step (hs : Sound net w) (hstep : w.step net ev = some w') :
    (∀ id packet, w'.pending id = some packet →
      id ∈ w'.used ∧ w'.store.sudoPayload id = packet.payload ∧
        ∀ payload, packet.payload = some payload →
          ∃ p, w.store.pools payload.poolAddr = some p) ∧
      ∀ id payload, w'.store.sudoPayload id = some payload →
        id ∈ w'.used := by
  have hkeep : ∀ id packet, w.pending id = some packet →
      ∀ payload, packet.payload = some payload →
        ∃ p, w.store.pools payload.poolAddr = some p :=
    fun id packet hpacket payload => hs.homed id packet payload hpacket
  cases traffic_of_step hs hstep with
  | quiet _ hpending hused hpayload =>
      rw [hpending, hused, hpayload]
      exact ⟨fun id packet hpacket => ⟨hs.usedPending id packet hpacket,
        hs.payload id packet hpacket, hkeep id packet hpacket⟩,
        hs.usedPayload⟩
  | answered haction hpending hused hpayload =>
      rename_i id answer querier bankAccepts
      rw [hpending, hused]
      refine ⟨fun other packet hpacket => ?_, fun other payload hother => ?_⟩
      · by_cases hid : other = id
        · simp [hid] at hpacket
        · rw [Map.remove_of_ne hid] at hpacket
          refine ⟨hs.usedPending other packet hpacket, ?_,
            hkeep other packet hpacket⟩
          rcases hpayload with hpayload | hpayload <;> rw [hpayload]
          · exact hs.payload other packet hpacket
          · rw [Map.remove_of_ne hid, hs.payload other packet hpacket]
      · rcases hpayload with hpayload | hpayload <;> rw [hpayload] at hother
        · exact hs.usedPayload other payload hother
        · rw [Map.remove_apply] at hother
          split at hother
          · cases hother
          · exact hs.usedPayload other payload hother
  | sent haction hsends hpayloads hother hhomed =>
      rename_i querier info msg id sent
      cases sent with
      | none =>
          obtain ⟨hpending, hused⟩ := hsends
          have hpayload : ∀ other, w'.store.sudoPayload other =
              w.store.sudoPayload other := fun other =>
            hother other (by simp)
          rw [hpending, hused]
          exact ⟨fun other packet hpacket =>
            ⟨hs.usedPending other packet hpacket,
              (hpayload other).trans (hs.payload other packet hpacket),
              hkeep other packet hpacket⟩,
            fun other payload hpay => hs.usedPayload other payload
              ((hpayload other).symm.trans hpay)⟩
      | some sub =>
          obtain ⟨hfresh, hused, hpending⟩ := hsends
          have hnone : w.store.sudoPayload id = none := by
            by_contra hsome
            obtain ⟨payload, hpayload⟩ := Option.ne_none_iff_exists'.mp hsome
            exact hfresh (hs.usedPayload id payload hpayload)
          have hself := hpayloads sub rfl fun _ => hnone
          have hrest : ∀ other, other ≠ id → w'.store.sudoPayload other =
              w.store.sudoPayload other := fun other hne =>
            hother other fun _ _ => ⟨hne, fun _ => hnone⟩
          rw [hpending, hused]
          refine ⟨fun other packet hpacket => ?_,
            fun other payload hpay => ?_⟩
          · by_cases hid : other = id
            · subst hid
              rw [Map.save_self, Option.some.injEq] at hpacket
              subst hpacket
              exact ⟨List.mem_cons_self, hself, hhomed sub rfl⟩
            · rw [Map.save_of_ne hid] at hpacket
              exact ⟨List.mem_cons_of_mem _
                  (hs.usedPending other packet hpacket),
                (hrest other hid).trans (hs.payload other packet hpacket),
                hkeep other packet hpacket⟩
          · by_cases hid : other = id
            · exact hid ▸ List.mem_cons_self
            · exact List.mem_cons_of_mem _ (hs.usedPayload other payload
                ((hrest other hid).symm.trans hpay))

theorem sound_step (hs : Sound net w) (hstep : w.step net ev = some w') :
    Sound net w' := by
  obtain ⟨hknown, hnamed⟩ := known_step hs hstep
  obtain ⟨hpackets, hused⟩ := packets_step hs hstep
  refine ⟨hknown, hnamed, (info_step hs hstep).2,
    fun id packet hpacket => (hpackets id packet hpacket).1, hused,
    fun id packet hpacket => (hpackets id packet hpacket).2.1, ?_⟩
  intro id packet payload hpacket hpayload
  obtain ⟨p, hp⟩ := (hpackets id packet hpacket).2.2 payload hpayload
  exact pool_persists hs hstep hp

theorem sound_genesis (net : Network) (block : BlockInfo) (info : MessageInfo)
    (lsdTokenCodeId : Nat) :
    Sound net (genesis block info lsdTokenCodeId) where
  known _ _ h := nomatch h
  named _ _ h := nomatch h
  hosted _ _ h := nomatch h
  usedPending _ _ h := nomatch h
  usedPayload _ _ h := nomatch h
  payload _ _ h := nomatch h
  homed _ _ _ h := nomatch h

/-- The book-keeping is sound in every reachable state. -/
theorem sound_run {block : BlockInfo} {info : MessageInfo}
    {lsdTokenCodeId : Nat} {evs : List Event}
    (hrun : Transition.exec (step net) (genesis block info lsdTokenCodeId)
      evs = some w) : Sound net w :=
  Transition.exec_invariant (Sound net) (fun _ _ _ => sound_step)
    (sound_genesis net block info lsdTokenCodeId) hrun

end World

end NeutronContracts
