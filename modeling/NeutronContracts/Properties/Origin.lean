/-
Where staked shares come from.  A share stake takes the outgoing channel from
the denom trace of the coin, so it returns to the chain of the pool exactly
when the trace does; no guard compares the two.  A pool that takes shares at
all takes those that were issued behind another channel.
-/
import NeutronContracts.Chain.EraProtocol

namespace NeutronContracts

open StakeManager Fallible

/-- The attached coin has come over the channel of the pool. -/
def OnPoolPath (store : Storage) (querier : Querier) (info : MessageInfo)
    (a : String) : Prop :=
  ∀ p ∈ store.pools a, ∀ coin ∈ info.funds,
    ∀ trace ∈ (queryDenomTraceFromIbcDenom querier coin.denom).toOption,
      trace.path = "transfer/" ++ p.channelIdOfIbcDenom

/-- Pool `a` takes shares: all guards that do not look at the coin let a stake
pass, and there is a validator whose name can stand in a share denom. -/
structure TakesShares (store : Storage) (env : Env) (a : String)
    (p : PoolInfo) : Prop where
  pool : store.pools a = some p
  support : p.lsmSupport = true
  limit : p.shareTokens.length < U64.asUsize p.lsmPendingLimit
  status : p.status = .activeEnded
  update : p.validatorUpdateStatus = .ended
  icas : ∃ icas, store.infoOfIcaId p.icaId = some icas
  unpaused : p.paused = false
  minimal : p.minimalStake < Uint128.limit
  validator : ∃ validatorAddr ∈ p.validatorAddrs, '/' ∉ validatorAddr.toList
  query : ∃ queryId, getQueryId store a .validators = .ok queryId
  timeout : env.block.time + defaultTimeoutSeconds * 1000000000 < U64.limit

def LsmOpen (store : Storage) (env : Env) (a : String) : Prop :=
  ∃ p, TakesShares store env a p

/-- The transfer of a packet, when it is one. -/
def transferOf : CosmosMsg → Option IbcTransfer
  | .ibcTransfer transfer => some transfer
  | _ => none

/-- The message sends its coin over the channel of the pool to its account. -/
def ReturnsTo (a : String) (p : PoolInfo) (msg : CosmosMsg) : Prop :=
  ∃ transfer ∈ transferOf msg, transfer.sourcePort = "transfer" ∧
    transfer.sourceChannel = p.channelIdOfIbcDenom ∧ transfer.receiver = a

instance (store : Storage) (querier : Querier) (info : MessageInfo)
    (a : String) : Decidable (OnPoolPath store querier info a) :=
  inferInstanceAs (Decidable (∀ _ ∈ _, ∀ _ ∈ _, ∀ _ ∈ _, _ = _))

instance (a : String) (p : PoolInfo) (msg : CosmosMsg) :
    Decidable (ReturnsTo a p msg) :=
  inferInstanceAs (Decidable (∃ _ ∈ _, _ = _ ∧ _ = _ ∧ _ = _))

/-- A path of two pieces that is the path of a channel names the channel. -/
theorem channel_of_path {path channel port piece : String}
    (hpath : path = "transfer/" ++ channel)
    (hsplit : Text.split '/' path = [port, piece]) : piece = channel := by
  have hjoin : path = "transfer" ++ String.singleton '/' ++ channel := hpath
  rw [hjoin, Text.split_append_sep,
    Text.split_eq_singleton (by decide : '/' ∉ "transfer".toList)] at hsplit
  have hone : Text.split '/' channel = [piece] := by
    simpa using (List.cons.inj hsplit).2
  exact (Text.split_eq_one hone).symm

section

variable {store : Storage} {querier : Querier} {env : Env}
  {info : MessageInfo} {user a : String} {p : PoolInfo}

/-- Shares are taken by an open pool only. -/
theorem lsmOpen_of_accepted
    (h : ∃ result, executeStakeLsm store querier env info user a =
      .ok result) : LsmOpen store env a := by
  obtain ⟨p, coin, trace, haccept⟩ := executeStakeLsm_accepts_iff.mp h
  obtain ⟨validatorAddr, number, hbase, hvalidator, validators, validator,
    tokenAmount, hquery, -, hworth, hne⟩ := haccept.record
  refine ⟨p, haccept.pool, haccept.support, haccept.limit, haccept.status,
    haccept.update, haccept.icas, haccept.unpaused, ?_,
    ⟨validatorAddr, hvalidator, ?_⟩, ?_, haccept.timeout⟩
  · exact haccept.minimal.trans_lt (lsmTokenAmount_lt hworth hne).2
  · exact Text.not_mem_of_mem_split (s := trace.baseDenom) (by simp [hbase])
  · simp only [queryValidatorByAddr, registeredKvQuery, bind_eq_ok,
      Prod.exists] at hquery
    obtain ⟨_, _, ⟨queryId, hquery, -⟩, -⟩ := hquery
    exact ⟨queryId, hquery⟩

/-- A channel that is not the one of the pool. -/
def otherChannel (channel : String) : String :=
  if channel = "channel-0" then "channel-1" else "channel-0"

theorem otherChannel_ne (channel : String) :
    otherChannel channel ≠ channel := by
  unfold otherChannel
  split
  case isTrue hzero =>
      rw [hzero]
      decide
  case isFalse hne => exact fun heq => hne heq.symm

theorem split_otherPath (channel : String) :
    Text.split '/' ("transfer/" ++ otherChannel channel) =
      ["transfer", otherChannel channel] := by
  unfold otherChannel
  split <;> decide

/-- The answers of a chain to which shares have come over another channel, in
a denom that names the validator `validatorAddr`. -/
def forgedQuerier (channel validatorAddr : String) : Querier where
  minIbcFee := some ⟨[], [], []⟩
  queryDeposit := none
  denomTrace _ :=
    some ⟨"transfer/" ++ otherChannel channel, validatorAddr ++ "/1"⟩
  registeredQuery _ := some ⟨true, 0⟩
  kvDelegations _ _ := none
  kvBalances _ _ := none
  kvValidators _ := some [⟨validatorAddr, "1", "1000000000000000000"⟩]
  codeChecksum _ := none
  instantiate2Address _ _ _ := none
  decodeAndConvert _ := true
  addrValidate _ := true

/-- A single token behind a single share. -/
theorem lsmTokenAmount_single {validatorAddr : String} {shares : Nat}
    (h : shares < Uint128.limit) :
    lsmTokenAmount ⟨validatorAddr, "1", "1000000000000000000"⟩ shares =
      .ok shares := by
  have hone : Uint128.parse "1" = some 1 := by decide +kernel
  have hshare : Uint128.parse "1000000000000000000" =
      some 1000000000000000000 := by decide +kernel
  simp only [lsmTokenAmount, bind_eq_ok, orError_eq_ok, mulBelow_eq_ok,
    divExact_eq_ok]
  refine ⟨1, hone, _, hshare, 1, ⟨by decide, by decide⟩, shares,
    ⟨by simpa using h, by simp⟩, by decide, by simp⟩

/-- An open pool takes shares that have come over another channel. -/
theorem forged_accepted (user : String) (h : TakesShares store env a p) :
    ∃ querier info, (∃ result,
        executeStakeLsm store querier env info user a = .ok result) ∧
      ¬ OnPoolPath store querier info a := by
  obtain ⟨validatorAddr, hvalidator, hplain⟩ := h.validator
  obtain ⟨queryId, hquery⟩ := h.query
  let querier := forgedQuerier p.channelIdOfIbcDenom validatorAddr
  let coin : Coin := ⟨"ibc/FORGED", max 1 p.minimalStake⟩
  let trace : DenomTrace := ⟨"transfer/" ++ otherChannel p.channelIdOfIbcDenom,
    validatorAddr ++ "/1"⟩
  have htrace : queryDenomTraceFromIbcDenom querier coin.denom = .ok trace := by
    have hsplit : Text.split '/' "ibc/FORGED" = ["ibc", "FORGED"] := by decide
    simp only [queryDenomTraceFromIbcDenom, coin, hsplit]
    rfl
  refine ⟨querier, ⟨user, [coin]⟩, executeStakeLsm_accepts_iff.mpr
    ⟨p, coin, trace, ?_⟩, fun hpath => ?_⟩
  · have hbase : Text.split '/' (validatorAddr ++ "/1") =
        [validatorAddr, "1"] := by
      have hjoin : validatorAddr ++ "/1" =
          validatorAddr ++ String.singleton '/' ++ "1" := by
        rw [String.append_assoc]
        rfl
      rw [hjoin, Text.split_append_sep, Text.split_eq_singleton hplain,
        Text.split_eq_singleton (by decide : '/' ∉ "1".toList)]
      rfl
    have hvalidators : queryValidatorByAddr store querier a =
        .ok ⟨[⟨validatorAddr, "1", "1000000000000000000"⟩], 0⟩ := by
      simp only [queryValidatorByAddr, registeredKvQuery, hquery]
      rfl
    have hworth : lsmTokenAmount
        ⟨validatorAddr, "1", "1000000000000000000"⟩ coin.amount =
          .ok coin.amount :=
      lsmTokenAmount_single
        (max_lt (by decide : 1 < Uint128.limit) h.minimal)
    have hpos : 0 < coin.amount := Nat.one_pos.trans_le (le_max_left _ _)
    exact ⟨h.pool, h.support, h.limit, h.status, h.update, h.icas, h.unpaused,
      rfl, (by decide : '/' ∈ "ibc/FORGED".toList), le_max_right _ _, htrace,
      ⟨_, _, split_otherPath _⟩,
      ⟨validatorAddr, "1", hbase, hvalidator, _, _, _, hvalidators, by simp,
        hworth, hpos.ne'⟩, ⟨_, rfl⟩, h.timeout⟩
  · have hforged := hpath p h.pool coin (by simp) trace
      (toOption_eq_some.mpr htrace)
    have hsame := channel_of_path hforged (split_otherPath _)
    exact otherChannel_ne _ hsame

/-- A pool takes shares of its own channel only exactly when it takes none. -/
theorem accepts_only_own_iff :
    (∀ (querier : Querier) (info : MessageInfo) (user : String),
      (∃ result, executeStakeLsm store querier env info user a = .ok result) →
        OnPoolPath store querier info a) ↔ ¬ LsmOpen store env a := by
  constructor
  · rintro hown ⟨p, hopen⟩
    obtain ⟨querier, info, haccepted, hforged⟩ := forged_accepted a hopen
    exact hforged (hown querier info a haccepted)
  · exact fun hclosed _ _ _ haccepted =>
      absurd (lsmOpen_of_accepted haccepted) hclosed

end

namespace World

variable {net : Network} {w w' : World} {ev : Event} {a : String}
  {p p' : PoolInfo}

/-- The channel of a pool is set once, when it starts. -/
theorem PoolMove.channel (h : PoolMove net w ev w' a p p') :
    p'.channelIdOfIbcDenom = p.channelIdOfIbcDenom ∨
      p.status = .registerEnded := by
  cases h with
  | executed haction hstep hsends =>
      cases hstep with
      | era hera =>
          cases hera with
          | init htarget hstatus hcalls => exact .inr hstatus
          | migrate htarget hstatus hrate hcal hcalls => exact .inr hstatus
          | _ => exact .inl rfl
      | config hpool hconfig =>
          obtain ⟨_, _, _, _, _, _, _, _, _, _, _, rfl⟩ := hconfig
          exact .inl rfl
      | _ => exact .inl rfl
  | answered haction hpacket hpayload hpool hstep hpending =>
      cases hstep with
      | era hera => cases hera <;> exact .inl rfl
      | _ => exact .inl rfl
  | _ => exact .inl rfl

/-- A share stake of the pool: its querier, its data and its packet. -/
def lsmCall (a : String) (ev : Event) :
    Option (Querier × MessageInfo × PacketId) :=
  match ev.action with
  | .execute querier info (.stakeLsm _ poolAddr) id =>
      if poolAddr = a then some (querier, info, id) else none
  | _ => none

theorem lsmCall_eq_some {querier : Querier} {info : MessageInfo}
    {id : PacketId} : lsmCall a ev = some (querier, info, id) ↔
      ∃ user, ev.action = .execute querier info (.stakeLsm user a) id := by
  unfold lsmCall
  split
  · rename_i haction
    simp only [Option.ite_none_right_eq_some, Option.some.injEq, haction,
      Prod.mk.injEq, Action.execute.injEq, ExecuteMsg.stakeLsm.injEq]
    constructor
    · rintro ⟨rfl, rfl, rfl, rfl⟩
      exact ⟨_, rfl, rfl, ⟨rfl, rfl⟩, rfl⟩
    · rintro ⟨_, rfl, rfl, ⟨-, rfl⟩, rfl⟩
      exact ⟨rfl, rfl, rfl, rfl⟩
  · rename_i hother
    simp only [reduceCtorEq, false_iff, not_exists]
    exact fun _ haction => hother _ _ _ _ _ haction

/-- Shares of the pool only: an accepted stake takes a coin that has come over
the channel of the pool and sends it back there, and only the answer to such a
packet is handled as a share stake or raises the active stake. -/
def LsmOrigin (a : String) (w : World) (ev : Event) (w' : World) : Prop :=
  (∀ call ∈ lsmCall a ev, OnPoolPath w.store call.1 call.2.1 a ∧
    ∀ p ∈ w.store.pools a, ∀ packet ∈ w'.pending call.2.2,
      ReturnsTo a p packet.msg) ∧
  ∀ id ∈ answeredId ev, ∀ p ∈ w.store.pools a, ∀ packet ∈ w.pending id,
    (packet.kind a = some .stakeLsm → ReturnsTo a p packet.msg) ∧
    ∀ p' ∈ w'.store.pools a, p.active < p'.active →
      packet.kind a = some .stakeLsm

instance (a : String) (w : World) (ev : Event) (w' : World) :
    Decidable (LsmOrigin a w ev w') :=
  inferInstanceAs (Decidable (
    (∀ _ ∈ _, OnPoolPath _ _ _ _ ∧ ∀ _ ∈ _, ∀ _ ∈ _, ReturnsTo _ _ _) ∧
    ∀ _ ∈ _, ∀ _ ∈ _, ∀ _ ∈ _, (_ = _ → ReturnsTo _ _ _) ∧
      ∀ _ ∈ _, _ < _ → _ = _))

/-- The share packets of a pool are on their way to its own account. -/
structure Homebound (w : World) (a : String) (p : PoolInfo) : Prop where
  fresh : p.status = .registerEnded → ∀ id, ¬ w.Unanswered a .stakeLsm id
  bound : ∀ id packet, w.pending id = some packet →
    packet.kind a = some .stakeLsm → ReturnsTo a p packet.msg

/-- The call that sends a share packet, and the transfer it sends. -/
theorem sharePacket_inv {store : Storage} {querier : Querier}
    {env : Env} {info : MessageInfo} {msg : ExecuteMsg} {sub : SubMsg}
    (h : ExecStep store querier env info a p msg (some sub) p')
    (hcalls : Calls sub a .stakeLsm) :
    p' = p ∧ p.status = .activeEnded ∧ ∃ user coin trace port channel,
      ∃ transfer : IbcTransfer, msg = .stakeLsm user a ∧ info.funds = [coin] ∧
      queryDenomTraceFromIbcDenom querier coin.denom = .ok trace ∧
      Text.split '/' trace.path = [port, channel] ∧
      sub.msg = .ibcTransfer transfer ∧ transfer.sourcePort = "transfer" ∧
      transfer.sourceChannel = channel ∧ transfer.receiver = a := by
  cases h with
  | stakeLsm hstatus _ _ hfunds htrace hpath hmsg hport hchannel hreceiver =>
      exact ⟨rfl, hstatus, _, _, _, _, _, _, rfl, hfunds, htrace, hpath, hmsg,
        hport, hchannel, hreceiver⟩
  | elsewhere _ hsent => exact absurd hcalls (hsent sub rfl _)
  | withdraw h => cases calls_type hcalls h
  | redeem _ h _ _ => cases calls_type hcalls h
  | rmValidatorSent _ _ _ _ h _ _ => cases calls_type hcalls h
  | updateValidatorSent _ _ _ _ h _ _ => cases calls_type hcalls h
  | delegate _ hpayload _ =>
      obtain ⟨payload, hsome, -⟩ := hcalls
      exact absurd (hpayload.symm.trans hsome) (by simp)
  | era hera =>
      have hkind := (hera.sends hcalls).1
      cases hera with
      | retry _ hmsg _ _ =>
          rcases hmsg with ⟨_, rfl⟩ | ⟨_, rfl⟩ <;> cases hkind
      | _ => cases hkind

theorem returnsTo_of_channel {msg : CosmosMsg} (h : ReturnsTo a p msg)
    (hchannel : p'.channelIdOfIbcDenom = p.channelIdOfIbcDenom) :
    ReturnsTo a p' msg := by
  unfold ReturnsTo
  rw [hchannel]
  exact h

/-- A coin of the pool is sent back to the pool. -/
theorem returnsTo_of_path {querier : Querier} {info : MessageInfo}
    {coin : Coin} {trace : DenomTrace} {port channel : String}
    {transfer : IbcTransfer} {msg : CosmosMsg}
    (hown : OnPoolPath w.store querier info a) (hp : w.store.pools a = some p)
    (hfunds : info.funds = [coin])
    (htrace : queryDenomTraceFromIbcDenom querier coin.denom = .ok trace)
    (hpath : Text.split '/' trace.path = [port, channel])
    (hmsg : msg = .ibcTransfer transfer)
    (hport : transfer.sourcePort = "transfer")
    (hchannel : transfer.sourceChannel = channel)
    (hreceiver : transfer.receiver = a) : ReturnsTo a p msg := by
  have hcoin : coin ∈ info.funds := by
    rw [hfunds]
    exact List.mem_singleton_self coin
  have hpool := hown p hp coin hcoin trace (toOption_eq_some.mpr htrace)
  refine ⟨transfer, by rw [hmsg]; rfl, hport, ?_, hreceiver⟩
  rw [hchannel]
  exact channel_of_path hpool hpath

/-- Every move that takes no forged coin keeps the packets homebound. -/
theorem homebound_of_move (hp : w.store.pools a = some p)
    (hh : Homebound w a p)
    (hown : ∀ call ∈ lsmCall a ev, OnPoolPath w.store call.1 call.2.1 a)
    (hmove : PoolMove net w ev w' a p p') : Homebound w' a p' := by
  refine ⟨fresh_of_move rfl hh.fresh hmove,
    fun other packet hpacket hkind => ?_⟩
  have hold : w.pending other = some packet → ReturnsTo a p' packet.msg := by
    intro hother
    rcases hmove.channel with hchannel | hstatus
    · exact returnsTo_of_channel (hh.bound other packet hother hkind) hchannel
    · obtain ⟨payload, hpayload, hpool, htype⟩ :=
        Packet.kind_eq_some.mp hkind
      exact absurd ⟨packet, payload, hother, hpayload, hpool, htype⟩
        (hh.fresh hstatus other)
  cases hmove with
  | executed haction hstep hsends =>
      rcases pending_of_sends hsends hpacket with hother | ⟨sub, rfl, -, rfl⟩
      · exact hold hother
      · have hcalls : Calls sub a .stakeLsm := Packet.kind_eq_some.mp hkind
        obtain ⟨rfl, -, user, coin, trace, port, channel, transfer, rfl,
          hfunds, htrace, hpath, hmsg, hport, hchannel, hreceiver⟩ :=
          sharePacket_inv hstep hcalls
        exact returnsTo_of_path (hown _ (lsmCall_eq_some.mpr ⟨_, haction⟩)) hp
          hfunds htrace hpath hmsg hport hchannel hreceiver
  | answered _ _ _ _ _ hpending =>
      exact hold (pending_of_remove hpending hpacket)
  | answeredElsewhere _ _ _ hpending =>
      exact hold (pending_of_remove hpending hpacket)
  | vain _ _ _ _ _ hpending =>
      exact hold (pending_of_remove hpending hpacket)
  | idle _ _ hpending => exact hold (hpending ▸ hpacket)

def AllHomebound (net : Network) (a : String) (w : World) : Prop :=
  Sound net w ∧ ∀ p, w.store.pools a = some p → Homebound w a p

/-- A share stake of the pool finds it closed, or its coin has come over the
channel of the pool. -/
def ClosedOrOwn (net : Network) (a : String) (w : World) (ev : Event) : Prop :=
  ∀ call ∈ lsmCall a ev, ¬ LsmOpen w.store ⟨ev.block, net.self⟩ a ∨
    OnPoolPath w.store call.1 call.2.1 a

/-- A closed pool takes no coin at all. -/
theorem own_of_step (hs : Sound net w) (hstep : w.step net ev = some w')
    (hcond : ClosedOrOwn net a w ev) :
    ∀ call ∈ lsmCall a ev, OnPoolPath w.store call.1 call.2.1 a := by
  intro ⟨querier, info, id⟩ hcall
  obtain ⟨user, haction⟩ := lsmCall_eq_some.mp hcall
  obtain ⟨store, rsp, sent, hexec⟩ := executed_of_step hs hstep haction
  rcases hcond _ hcall with hclosed | hown
  · exact absurd (lsmOpen_of_accepted ⟨_, hexec.call⟩) hclosed
  · exact hown

theorem allHomebound_step (hinv : AllHomebound net a w)
    (hstep : w.step net ev = some w')
    (hown : ∀ call ∈ lsmCall a ev, OnPoolPath w.store call.1 call.2.1 a) :
    AllHomebound net a w' := by
  refine ⟨sound_step hinv.1 hstep, pool_invariant hinv.1 hstep hinv.2 ?_ ?_⟩
  · intro p p' hp _ hh hmove
    exact homebound_of_move hp hh hown hmove
  · intro icaId admin _ _ hnone _ _
    refine ⟨fun _ => hnone .stakeLsm, fun id packet hpacket hkind => ?_⟩
    obtain ⟨payload, hpayload, hpool, htype⟩ := Packet.kind_eq_some.mp hkind
    exact absurd ⟨packet, payload, hpacket, hpayload, hpool, htype⟩
      (hnone .stakeLsm id)

theorem lsmOrigin_of_step (hinv : AllHomebound net a w)
    (hstep : w.step net ev = some w')
    (hown : ∀ call ∈ lsmCall a ev, OnPoolPath w.store call.1 call.2.1 a) :
    LsmOrigin a w ev w' := by
  refine ⟨fun call hcall => ⟨hown call hcall, fun p hp packet hpacket => ?_⟩,
    fun id hid p hp packet hpacket => ⟨(hinv.2 p hp).bound id packet hpacket,
      fun p' hp' hless => ?_⟩⟩
  · -- the packet of the call is the one that waits under its id
    obtain ⟨querier, info, id⟩ := call
    obtain ⟨user, haction⟩ := lsmCall_eq_some.mp hcall
    obtain ⟨store, rsp, sent, hexec⟩ := executed_of_step hinv.1 hstep haction
    obtain ⟨q, coin, trace, port, channel, _, _, _, transfer, payload, hq,
      hfunds, -, -, -, htrace, hpath, -, -, -, hport, hchannel, hreceiver, -, -,
      -, -, -, hrsp⟩ := executeStakeLsm_ok hexec.call
    obtain rfl := hexec.sent_eq (packets_single rfl hrsp)
    rw [hexec.sends.2.2, Map.save_self] at hpacket
    obtain rfl := Option.mem_some.mp hpacket
    exact returnsTo_of_path (hown _ hcall) hp hfunds htrace hpath rfl hport
      hchannel hreceiver
  · -- only the success of a share packet raises the active stake
    obtain ⟨next, hnext, hmove⟩ := pool_move hinv.1 hstep hp
    obtain rfl := Option.some.inj (hnext.symm.trans hp')
    unfold answeredId at hid
    cases hmove with
    | executed haction hmoved hsends => simp [haction] at hid
    | answered haction hpacket' hpayload hpool hmoved hpending =>
        simp only [haction, Option.mem_some_iff] at hid
        subst hid
        obtain rfl := Option.some.inj (hpacket'.symm.trans hpacket)
        rcases hmoved.calm_or_era with hcalm | hera
        · rw [hcalm.active, lsmCredit] at hless
          split at hless
          case isTrue hkind =>
              exact Packet.kind_eq_some.mpr ⟨_, hpayload, hpool, hkind.1⟩
          case isFalse => exact absurd hless (lt_irrefl _)
        · cases hera <;> exact absurd hless (lt_irrefl _)
    | _ => exact absurd hless (lt_irrefl _)

/-- A pool takes shares of its own channel only exactly when it takes none; and
in a run whose share stakes find the pool closed, or bring coins of its
channel, every credit is for shares that were sent over that channel. -/
theorem lsm_origin (net : Network) (a : String) (block : BlockInfo)
    (info : MessageInfo) (lsdTokenCodeId : Nat) (evs : List Event) :
    (∀ (store : Storage) (env : Env),
      (∀ (querier : Querier) (info : MessageInfo) (user : String),
        (∃ result, executeStakeLsm store querier env info user a =
          .ok result) → OnPoolPath store querier info a) ↔
        ¬ LsmOpen store env a) ∧
      (Transition.AllSteps (step net) (fun w ev _ => ClosedOrOwn net a w ev)
          (genesis block info lsdTokenCodeId) evs →
        Transition.AllSteps (step net) (LsmOrigin a)
          (genesis block info lsdTokenCodeId) evs) := by
  refine ⟨fun _ _ => accepts_only_own_iff, fun hcond => ?_⟩
  refine Transition.AllSteps.of_invariant (AllHomebound net a) ?_ ?_ hcond
  · intro w ev w' hinv hstep hclosed
    have hown := own_of_step hinv.1 hstep hclosed
    exact ⟨allHomebound_step hinv hstep hown,
      lsmOrigin_of_step hinv hstep hown⟩
  · exact ⟨sound_genesis net block info lsdTokenCodeId, fun _ h => nomatch h⟩

/-- A pool that takes shares of its own chain. -/
theorem lsm_origin_sample :
    Transition.AllSteps (step Sample.net) (LsmOrigin Sample.pool)
      Sample.genesis (Sample.setup ++ [Sample.allowLsm, Sample.stake 1 1000,
        Sample.stakeLsm 1 100 "ibc/SHARE" ("channel-7", 0),
        Sample.ack 1 .success ("channel-7", 0)]) :=
  (lsm_origin Sample.net Sample.pool (Sample.day 1) ⟨Sample.admin, []⟩ 1
    _).2 (Transition.AllSteps.mono
      (fun _ _ _ _ h call hcall => .inr (h call hcall))
      (by decide +kernel : Transition.AllSteps (step Sample.net)
        (fun w ev _ => ∀ call ∈ lsmCall Sample.pool ev,
          OnPoolPath w.store call.1 call.2.1 Sample.pool)
        Sample.genesis (Sample.setup ++ [Sample.allowLsm, Sample.stake 1 1000,
          Sample.stakeLsm 1 100 "ibc/SHARE" ("channel-7", 0),
          Sample.ack 1 .success ("channel-7", 0)])))

/-- Shares that were issued behind another channel are credited as well. -/
theorem lsm_origin_fails :
    ¬ Transition.AllSteps (step Sample.net) (LsmOrigin Sample.pool)
      Sample.genesis (Sample.setup ++ [Sample.allowLsm, Sample.stake 1 1000,
        Sample.stakeLsm 1 100 "ibc/FORGED" ("channel-9", 0),
        Sample.ack 1 .success ("channel-9", 0)]) := by
  decide +kernel

end World

end NeutronContracts
