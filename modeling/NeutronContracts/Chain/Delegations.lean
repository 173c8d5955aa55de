/-
The delegations of a pool on the host chain: what the acknowledged packets
make of them, and which validators the query of the delegations watches.
-/
import NeutronContracts.Chain.Coins
import NeutronContracts.Lib.Holdings

namespace NeutronContracts

open StakeManager Fallible Holdings

/-- The validator of a share, whose denomination is its address and the number
of the record. -/
def shareValidator (denom : String) : String :=
  (Text.split '/' denom).headD ""

/-- What a message does to the delegations of the account `a`; `worth` is what
shares of a validator are redeemed for. -/
def StakeManager.HostMsg.move (worth : String → Nat → Nat) (a : String) :
    HostMsg → Option (Move String)
  | .delegate delegator validator amount =>
      if delegator = a then some (.deposit validator amount.amount) else none
  | .undelegate delegator validator amount =>
      if delegator = a then some (.withdraw validator amount.amount) else none
  | .beginRedelegate delegator src dst amount =>
      if delegator = a then some (.transfer src dst amount.amount) else none
  | .redeemTokenForShare delegator amount =>
      let validator := shareValidator amount.denom
      if delegator = a then
        some (.deposit validator (worth validator amount.amount))
      else none
  | _ => none

/-- What an executed packet does to the delegations of the account `a`. -/
def Packet.moves (worth : String → Nat → Nat) (a : String) (packet : Packet) :
    List (Move String) :=
  (hostMsgs packet.msg).filterMap fun m => m.value.move worth a

/-- The validators that a message makes the query of the delegations of `a`
watch. -/
def StakeManager.SubMsg.watches (a : String) (sub : SubMsg) :
    Option (List String) :=
  match sub.msg with
  | .registerInterchainQuery _ (.delegations delegator validators _) _ =>
      if delegator = a then some validators else none
  | .updateInterchainQuery _ (some (.delegations delegator validators _)) _ =>
      if delegator = a then some validators else none
  | _ => none

/-- The validators that are watched after the messages, when `before` were
watched. -/
def watchedAfter (a : String) (before : Option (List String))
    (subs : List SubMsg) : Option (List String) :=
  subs.foldl (fun keys sub => (sub.watches a).or keys) before

@[simp] theorem watchedAfter_nil (a : String)
    (before : Option (List String)) : watchedAfter a before [] = before := rfl

@[simp] theorem watchedAfter_cons (a : String)
    (before : Option (List String)) (sub : SubMsg) (subs : List SubMsg) :
    watchedAfter a before (sub :: subs) =
      watchedAfter a ((sub.watches a).or before) subs := rfl

/-- The messages leave the query of the delegations alone. -/
def Watchless (subs : List SubMsg) : Prop :=
  ∀ sub ∈ subs, ∀ a, sub.watches a = none

theorem Watchless.watchedAfter {subs : List SubMsg} (h : Watchless subs)
    (a : String) (before : Option (List String)) :
    watchedAfter a before subs = before := by
  induction subs with
  | nil => rfl
  | cons sub rest ih =>
      rw [Watchless, List.forall_mem_cons] at h
      rw [watchedAfter_cons, h.1 a]
      exact ih h.2

/-- The calls that tell the query which validators to watch. -/
def StakeManager.ExecuteMsg.rewatches (status : EraStatus) :
    ExecuteMsg → Bool
  | .initPool _ => decide (status = .registerEnded)
  | .migratePool _ => decide (status = .registerEnded)
  | .poolAddValidator _ _ => true
  | .poolUpdateValidatorsIcq _ => true
  | _ => false

section

variable {store store' : Storage} {querier : Querier} {env : Env}
  {info : MessageInfo} {msg : ExecuteMsg} {rsp : Response} {a b : String}
  {p p' q : PoolInfo} {before : Option (List String)}

theorem watchless_of_icq {icaId : String} {period : Nat}
    {icq : List CosmosMsg}
    (h : getUpdatePoolIcqMsgs store a icaId period = .ok icq) :
    Watchless (icq.map (⟨·, none, none⟩)) := by
  obtain ⟨_, _, _, _, rfl⟩ := getUpdatePoolIcqMsgs_ok h
  simp [Watchless, SubMsg.watches]

theorem watchless_of_retried (h : Retried store store' rsp a) :
    Watchless rsp.messages := by
  obtain ⟨_, _, -, -, -, hmsgs⟩ := h
  simp [Watchless, SubMsg.watches, hmsgs]

theorem watchless_of_mintFee (lsdToken recipient : String) (fee : Nat) :
    Watchless ((mintFee lsdToken recipient fee).map (⟨·, none, none⟩)) := by
  unfold mintFee
  split <;> simp [Watchless, SubMsg.watches]

/-- All other calls leave the query alone. -/
theorem execute_watchless
    (h : execute store querier env info msg = .ok (store', rsp))
    (hother : msg.rewatches .registerEnded = false) :
    Watchless rsp.messages := by
  cases msg with
  | registerPool connectionId interchainAccountId =>
      obtain ⟨_, -, -, -, hmsgs⟩ := executeRegisterPool_ok h
      simp [Watchless, SubMsg.watches, hmsgs]
  | initPool param => cases hother
  | migratePool param => cases hother
  | configPool param =>
      obtain ⟨_, _, -, -, -, rfl⟩ := executeConfigPool_ok h
      simp [Watchless]
  | configStack param =>
      obtain ⟨_, _, -, -, -, rfl⟩ := executeConfigStack_ok h
      simp [Watchless]
  | openChannel poolAddr closedChannelId =>
      obtain ⟨_, _, _, _, -, -, hmsgs⟩ := executeOpenChannel_ok h
      simp [Watchless, SubMsg.watches, hmsgs]
  | redeemTokenForShare poolAddr tokens =>
      obtain ⟨_, _, _, _, _, -, -, -, -, -, -, -, hmsgs⟩ :=
        executeRedeemTokenForShare_ok h
      simp [Watchless, SubMsg.watches, hmsgs]
  | stake user poolAddr =>
      obtain ⟨_, _, -, -, -, -, -, hmsgs⟩ := executeStake_ok h
      simp [Watchless, SubMsg.watches, hmsgs]
  | unstake amount poolAddr =>
      obtain ⟨_, _, _, _, -, -, -, -, -, -, -, -, -, hmsgs⟩ :=
        executeUnstake_ok h
      simp [Watchless, SubMsg.watches, hmsgs]
  | withdraw poolAddr receiver unstakeIndexList =>
      obtain ⟨_, _, _, _, _, -, -, -, -, -, -, -, -, hmsgs⟩ :=
        executeWithdraw_ok h
      simp [Watchless, SubMsg.watches, hmsgs]
  | poolRmValidator poolAddr validatorAddr =>
      obtain ⟨_, _, -, -, -, -, -, -, ⟨-, -, rfl⟩ | ⟨_, _, _, _, _, _, _, -, -,
        -, -, -, -, -, -, -, hmsgs⟩⟩ := executeRmPoolValidator_ok h
      · simp [Watchless]
      · simp [Watchless, SubMsg.watches, hmsgs]
  | poolAddValidator poolAddr validatorAddr => cases hother
  | poolUpdateValidator poolAddr oldValidator newValidator =>
      obtain ⟨_, _, _, -, -, -, -, -, -, -, ⟨-, -, rfl⟩ | ⟨-, _, _, _, _, _, -,
        -, -, -, -, -, hmsgs⟩⟩ := executePoolUpdateValidator_ok h
      · simp [Watchless]
      · simp [Watchless, SubMsg.watches, hmsgs]
  | poolUpdateValidatorsIcq poolAddr => cases hother
  | poolDelegate poolAddr stakeAmount =>
      obtain ⟨_, _, -, -, -, -, hmsgs⟩ := executePoolDelegate_ok h
      simp [Watchless, SubMsg.watches, hmsgs]
  | eraUpdate poolAddr =>
      obtain ⟨_, _, -, -, -, hicq, ⟨-, -, hmsgs⟩ | ⟨-, _, _, -, -, -, -, -,
        hmsgs⟩⟩ := executeEraUpdate_ok h
      · rw [hmsgs]
        exact watchless_of_icq hicq
      · rw [hmsgs, Watchless, List.forall_mem_append]
        exact ⟨watchless_of_icq hicq, by simp [SubMsg.watches]⟩
  | eraBond poolAddr selectVals =>
      obtain ⟨_, _, _, _, _, -, -, -, -, -, -, -, hmsgs⟩ :=
        executeEraBond_ok h
      simp [Watchless, SubMsg.watches, hmsgs]
  | eraCollectWithdraw poolAddr =>
      obtain ⟨_, _, _, _, _, -, -, -, -, ⟨-, -, rfl⟩ | ⟨-, _, _, -, -, -, -,
        hmsgs⟩⟩ := executeEraCollectWithdraw_ok h
      · simp [Watchless]
      · simp [Watchless, SubMsg.watches, hmsgs]
  | eraRebond poolAddr selectVals =>
      obtain ⟨_, -, -, ⟨-, -, rfl⟩ | ⟨-, _, _, _, -, -, -, -, -, hmsgs⟩⟩ :=
        executeEraRebond_ok h
      · simp [Watchless]
      · simp [Watchless, SubMsg.watches, hmsgs]
  | eraActive poolAddr =>
      obtain ⟨_, _, _, _, _, _, -, -, -, -, -, -, hicq, hmsgs⟩ :=
        executeEraActive_ok h
      rw [hmsgs, List.map_append, List.map_append, Watchless,
        List.forall_mem_append, List.forall_mem_append]
      exact ⟨⟨watchless_of_mintFee _ _ _, watchless_of_mintFee _ _ _⟩,
        watchless_of_icq hicq⟩
  | stakeLsm neutronAddress poolAddr =>
      obtain ⟨_, _, _, _, _, _, _, _, _, _, -, -, -, -, -, -, -, -, -, -, -, -,
        -, -, -, -, -, -, hmsgs⟩ := executeStakeLsm_ok h
      simp [Watchless, SubMsg.watches, hmsgs]
  | updateIcqUpdatePeriod poolAddr newUpdatePeriod =>
      obtain ⟨_, _, -, hicq, -, hmsgs⟩ := updateIcqUpdatePeriod_ok h
      rw [hmsgs]
      exact watchless_of_icq hicq

theorem rewatches_of_other {status : EraStatus}
    (h : msg.rewatches .registerEnded = false) :
    msg.rewatches status = false := by
  cases msg with
  | initPool param => cases h
  | migratePool param => cases h
  | _ => exact h

/-- A call about pool `b`, which may tell the query of that pool what to
watch. -/
theorem watches_of_target (hp : store.pools a = some p)
    (hp' : store'.pools a = some p') (htarget : msg.target store = some b)
    (hother : b ≠ a → watchedAfter a before rsp.messages = before)
    (hself : ∀ q q', store.pools b = some q → store'.pools b = some q' →
      watchedAfter b before rsp.messages =
        if msg.rewatches q.status = true then some q'.validatorAddrs
        else before) :
    watchedAfter a before rsp.messages =
      if msg.target store = some a ∧ msg.rewatches p.status = true then
        some p'.validatorAddrs
      else before := by
  by_cases hpool : b = a
  · subst hpool
    simpa [htarget] using hself p p' hp hp'
  · simpa [htarget, hpool] using hother hpool

/-- Only a new pool registers its queries; a retry does not. -/
theorem watches_of_start (hp : store.pools a = some p)
    (hp' : store'.pools a = some p') (hq : store.pools b = some q)
    (htarget : msg.target store = some b)
    (hmsg : ∀ status, msg.rewatches status = decide (status = .registerEnded))
    (hstart : q.status = .initFailed ∧ Retried store store' rsp b ∨
      q.status = .registerEnded ∧
        ∃ querier self new, Dealt store store' rsp querier self new b) :
    watchedAfter a before rsp.messages =
      if msg.target store = some a ∧ msg.rewatches p.status = true then
        some p'.validatorAddrs
      else before := by
  rcases hstart with ⟨hstatus, hretried⟩ | ⟨hstatus, _, _, new, hdealt⟩
  · have hquiet := watchless_of_retried hretried
    refine watches_of_target hp hp' htarget
      (fun _ => hquiet.watchedAfter _ _) fun q' _ hq' _ => ?_
    obtain rfl := Option.some.inj (hq.symm.trans hq')
    rw [hquiet.watchedAfter, hmsg, hstatus]
    rfl
  · obtain ⟨_, _, _, _, _, _, _, _, _, _, _, _, _, _, _, _, _, -, -, -,
      ⟨_, _, _, rfl⟩, -, -, rfl, hmsgs⟩ := hdealt
    refine watches_of_target hp hp' htarget (fun hne => ?_)
      fun q' next hq' hnext => ?_
    · simp [hmsgs, SubMsg.watches, hne]
    · obtain rfl := Option.some.inj (hq.symm.trans hq')
      obtain rfl := Option.some.inj (Map.save_self.symm.trans hnext)
      simp [hmsgs, SubMsg.watches, hmsg, hstatus]

/-- What a call makes of the validators that are watched for pool `a`. -/
theorem execute_watches
    (h : execute store querier env info msg = .ok (store', rsp))
    (hp : store.pools a = some p) (hp' : store'.pools a = some p') :
    watchedAfter a before rsp.messages =
      if msg.target store = some a ∧ msg.rewatches p.status = true then
        some p'.validatorAddrs
      else before := by
  cases hother : msg.rewatches .registerEnded with
  | false =>
      rw [(execute_watchless h hother).watchedAfter, rewatches_of_other hother]
      simp
  | true =>
      cases msg with
      | initPool param =>
          obtain ⟨q, pool, _, _, hinfo, hq, -, hstart⟩ := executeInitPool_ok h
          refine watches_of_start hp hp' hq
            (by simp [ExecuteMsg.target, hinfo]) (fun _ => rfl) ?_
          refine hstart.imp_right ?_
          rintro ⟨hstatus, _, _, hdealt⟩
          exact ⟨hstatus, _, _, _, hdealt⟩
      | migratePool param =>
          obtain ⟨q, pool, _, _, hinfo, hq, -, hstart⟩ :=
            executeMigratePool_ok h
          refine watches_of_start hp hp' hq
            (by simp [ExecuteMsg.target, hinfo]) (fun _ => rfl) ?_
          refine hstart.imp_right ?_
          rintro ⟨hstatus, _, _, hdealt⟩
          exact ⟨hstatus, _, _, _, hdealt⟩
      | poolAddValidator b validatorAddr =>
          obtain ⟨q, _, _, hq, -, -, -, rfl, hmsgs⟩ :=
            executeAddPoolValidators_ok h
          refine watches_of_target hp hp' rfl (fun hne => ?_)
            fun _ q' _ hq' => ?_
          · simp [hmsgs, SubMsg.watches, hne]
          · obtain rfl := Option.some.inj (Map.save_self.symm.trans hq')
            simp [hmsgs, SubMsg.watches, ExecuteMsg.rewatches]
      | poolUpdateValidatorsIcq b =>
          obtain ⟨q, _, _, hq, -, rfl, hmsgs⟩ :=
            executeUpdateValidatorsIcq_ok h
          refine watches_of_target hp hp' rfl (fun hne => ?_)
            fun _ q' _ hq' => ?_
          · simp [hmsgs, SubMsg.watches, hne]
          · obtain rfl := Option.some.inj (Map.save_self.symm.trans hq')
            simp [hmsgs, SubMsg.watches, ExecuteMsg.rewatches]
      | _ => cases hother

/-- No callback touches the query. -/
theorem callback_watchless {payload : SudoPayload} {answer : Answer}
    (h : callback store env payload answer = .ok (store', rsp)) :
    Watchless rsp.messages := by
  have hfailed : sudoFailedCallback store payload = .ok (store', rsp) →
      Watchless rsp.messages := by
    intro hfailed
    by_cases hkind : payload.txType = .stakeLsm
    · simp only [sudoFailedCallback, hkind] at hfailed
      obtain ⟨_, _, -, hmsgs⟩ := sudoStakeLsmFailedCallback_ok hfailed
      simp [Watchless, SubMsg.watches, hmsgs]
    · rw [sudoFailedCallback_silent hkind hfailed]
      simp [Watchless]
  cases answer with
  | success =>
      by_cases hkind : payload.txType = .stakeLsm
      · simp only [callback, sudoCallback, hkind] at h
        obtain ⟨_, _, _, _, -, -, -, -, hmsgs⟩ := sudoStakeLsmCallback_ok h
        simp [Watchless, SubMsg.watches, hmsgs]
      · rw [sudoCallback_silent hkind h]
        simp [Watchless]
  | error => exact hfailed h
  | timeout => exact hfailed h

end

namespace World

variable {net : Network} {w w' : World} {ev : Event} {a : String}
  {p p' : PoolInfo} {delivery : Delivery} {subs : List SubMsg}

/-! ### The watched validators -/

theorem watch_delegations (w : World) (delegator : String)
    (validators : List String) (v047 : Bool) (a : String) :
    (w.watch (some (.delegations delegator validators v047))).watched a =
      if delegator = a then some validators else w.watched a := by
  dsimp only [watch]
  rw [Map.save_apply]
  simp only [eq_comm]

theorem deliver_watched {sub : SubMsg}
    (h : deliver net delivery w sub = some w') (a : String) :
    w'.watched a = (sub.watches a).or (w.watched a) := by
  obtain ⟨msg, replyOnSuccess, payload⟩ := sub
  cases msg with
  | wasmExecute address msg => rw [(runToken_quiet h).2.2]; rfl
  | wasmInstantiate2 admin codeId msg label salt =>
      rw [(createToken_quiet h).2]; rfl
  | bankSend toAddress amount =>
      simp only [deliver] at h
      split at h <;> cases h
      rfl
  | ibcTransfer transfer => rw [(sendPacket_sent h).watched]; rfl
  | submitTx tx => rw [(sendPacket_sent h).watched]; rfl
  | registerInterchainAccount connectionId icaId fee =>
      cases h
      rfl
  | registerInterchainQuery connectionId keys period =>
      rw [(registerQuery_quiet h).2.2]
      cases keys with
      | delegations delegator validators v047 =>
          rw [watch_delegations]
          simp only [SubMsg.watches]
          split <;> rfl
      | balance addr denom => rfl
      | stakingValidators validators => rfl
  | updateInterchainQuery queryId newKeys newPeriod =>
      cases h
      cases newKeys with
      | none => rfl
      | some keys =>
          cases keys with
          | delegations delegator validators v047 =>
              rw [watch_delegations]
              simp only [SubMsg.watches]
              split <;> rfl
          | balance addr denom => rfl
          | stakingValidators validators => rfl

theorem deliverAll_watched (h : deliverAll net delivery w subs = some w')
    (a : String) : w'.watched a = watchedAfter a (w.watched a) subs := by
  induction subs generalizing w with
  | nil =>
      cases h
      rfl
  | cons sub rest ih =>
      obtain ⟨middle, hfirst, hrest⟩ := deliverAll_cons h
      rw [ih hrest, deliver_watched hfirst]
      rfl

/-- What an accepted call makes of the watched validators. -/
theorem watched_of_exec (hs : Sound net w) (hstep : w.step net ev = some w')
    (hp : w.store.pools a = some p) (hp' : w'.store.pools a = some p')
    {querier : Querier} {info : MessageInfo} {msg : ExecuteMsg}
    {id : PacketId} (haction : ev.action = .execute querier info msg id) :
    w'.watched a =
      if msg.target w.store = some a ∧ msg.rewatches p.status = true then
        some p'.validatorAddrs
      else w.watched a := by
  obtain ⟨store, rsp, sent, hexec⟩ := executed_of_step hs hstep haction
  rw [hexec.records.pools] at hp'
  rw [deliverAll_watched hexec.delivered]
  exact execute_watches hexec.call hp hp'

/-- Nothing else changes what is watched. -/
theorem watched_of_other (hs : Sound net w) (hstep : w.step net ev = some w')
    (hexecute : ∀ querier info msg id,
      ev.action ≠ .execute querier info msg id) :
    w'.watched a = w.watched a := by
  obtain ⟨-, -, hact⟩ := step_eq_some hstep
  cases haction : ev.action with
  | execute querier info msg id => exact absurd haction (hexecute _ _ _ _)
  | answer id answer querier bankAccepts =>
      obtain ⟨packet, hpacket, hhandled⟩ := handled_of_step hs hstep haction
      cases hhandled with
      | handled hpayload hcall houtcome hdelivered =>
          rw [deliverAll_watched hdelivered,
            (callback_watchless hcall).watchedAfter]
      | vain hvain hsame =>
          subst hsame
          rfl
  | openAck icaId channelId counterpartyChannelId hostConnectionId =>
      rw [haction] at hact
      obtain ⟨store, -, rfl⟩ := opened_of_act hact
      rfl
  | kvQueryResult queryId querier =>
      simp only [haction, act, commit, sudoEntry] at hact
      split at hact
      case h_1 => cases hact
      case h_2 store rsp hcall =>
          obtain ⟨-, hmsgs⟩ := sudoKvQueryResult_ok hcall
          rw [deliverAll_watched hact]
          rcases hmsgs with hmsgs | hmsgs <;> rw [hmsgs] <;> rfl
  | token addrValidate address sender msg =>
      rw [haction] at hact
      obtain ⟨-, -, -, hwatched⟩ := token_of_act hact
      exact congrFun hwatched a

/-! ### The delegations on the host -/

/-- The packet that an event acknowledges. -/
def ackedPacket (w : World) (ev : Event) : Option Packet :=
  match ev.action with
  | .answer id .success _ _ => w.pending id
  | _ => none

/-- The packet that an event reports as failed or timed out. -/
def failedPacket (w : World) (ev : Event) : Option Packet :=
  match ev.action with
  | .answer _ .success _ _ => none
  | .answer id _ _ _ => w.pending id
  | _ => none

/-- The delegations of the account `a` after the packets that are
acknowledged. -/
def delegations (worth : String → Nat → Nat) (a : String)
    (book : Book String) (w : World) (ev : Event) (_ : World) : Book String :=
  match w.ackedPacket ev with
  | some packet => applyAll book (packet.moves worth a)
  | none => book

theorem ackedPacket_of_success {id : PacketId} {querier : Querier}
    {bankAccepts : Bool}
    (haction : ev.action = .answer id .success querier bankAccepts) :
    w.ackedPacket ev = w.pending id := by
  simp [ackedPacket, haction]

theorem failedPacket_of_failure {id : PacketId} {answer : Answer}
    {querier : Querier} {bankAccepts : Bool}
    (haction : ev.action = .answer id answer querier bankAccepts)
    (hfailed : answer ≠ .success) : w.failedPacket ev = w.pending id := by
  cases answer with
  | success => exact absurd rfl hfailed
  | error => simp [failedPacket, haction]
  | timeout => simp [failedPacket, haction]

end World

end NeutronContracts
