/-
What every event on the chain of the contract does: it sends a packet for what
came in, receives one, settles or returns one, or it leaves the channels as
they are.
-/
import NeutronContracts.Chain.TransferStep

namespace NeutronContracts.Cw20Ics20

open Fallible Holdings

variable {V : Type} [LinearOrder V]

namespace HomeChain

/-- A packet is sent.  When its denom stands for something, that much has come
in. -/
structure Sent (net : Setting V) (h : HomeChain) (id : PacketId)
    (data : Ics20Packet) (h' : HomeChain) : Prop where
  increased : Increased h.store (id.1, data.denom) data.amount h'.store
  payable : ∃ gas, checkGasLimit net.api h.store
    (.fromParts data.denom data.amount) = .ok gas
  positive : 0 < data.amount
  fresh : id ∉ h.used
  pending : h'.pending = h.pending.save id data
  used : h'.used = id :: h.used
  ungranted : Ungranted net h'.tokens
  holding : ∀ other, h.holding net other ≤ h'.holding net other
  arrived : net.Backed data.denom →
    h.holding net data.denom + data.amount ≤ h'.holding net data.denom

/-- The channels and the packets are left as they are. -/
structure Quiet (net : Setting V) (h h' : HomeChain) : Prop where
  version : h'.store.contractVersion = h.store.contractVersion
  channelState : h'.store.channelState = h.store.channelState
  admits : Admits h.store h'.store
  pending : h'.pending = h.pending
  used : h'.used = h.used
  ungranted : Ungranted net h'.tokens
  holding : ∀ other, h.holding net other ≤ h'.holding net other

section

variable {net : Setting V} {h h' : HomeChain} {token token' : LsdToken.Token}
  {chain : LsdToken.Chain} {address sender denom channel : String}
  {amount : Nat} {id : PacketId}

/-! ### Tokens that arrive -/

/-- The notice of a token tells the contract what it has got. -/
theorem notice_move {msg : LsdToken.ExecuteMsg}
    {call : LsdToken.Cw20ReceiveMsg}
    (hexecute : LsdToken.execute token chain sender msg =
      .ok (token', some call)) :
    ∃ source, msg.move sender =
        some (.transfer source call.contract call.amount) ∧
      (source = sender ∨ msg.draw = some (source, call.amount)) := by
  cases msg with
  | send contract amount text =>
      obtain ⟨_, hsend, heq⟩ := LsdToken.notifying_eq_ok.mp hexecute
      obtain rfl := Option.some.inj heq
      simp only [LsdToken.executeSend, bind_eq_ok, pure_eq_ok,
        Prod.mk.injEq] at hsend
      obtain ⟨_, -, -, rfl⟩ := hsend
      exact ⟨sender, rfl, .inl rfl⟩
  | sendFrom owner contract amount text =>
      obtain ⟨_, hsend, heq⟩ := LsdToken.notifying_eq_ok.mp hexecute
      obtain rfl := Option.some.inj heq
      simp only [LsdToken.executeSendFrom, bind_eq_ok, pure_eq_ok,
        Prod.mk.injEq] at hsend
      obtain ⟨_, -, -, rfl⟩ := hsend
      exact ⟨owner, rfl, .inr rfl⟩
  | _ => cases (LsdToken.quiet_eq_ok.mp hexecute).2

/-- The contract has got the tokens it is notified of. -/
theorem balance_of_notice {msg : LsdToken.ExecuteMsg}
    {call : LsdToken.Cw20ReceiveMsg}
    (hexecute : LsdToken.execute token chain sender msg =
      .ok (token', some call))
    (hcontract : call.contract = net.self) (hsender : sender ≠ net.self)
    (hallowed : ∀ spender, token.allowed (net.self, spender) = 0) :
    token.balance net.self + call.amount ≤ token'.balance net.self := by
  obtain ⟨source, hmove, hsource⟩ := notice_move hexecute
  have hposted := LsdToken.execute_posted hexecute
  rw [hmove, hcontract] at hposted
  by_cases hself : source = net.self
  · -- only an allowance could take from the contract, and there is none
    have hdraw := hsource.resolve_left (hself.trans_ne hsender.symm)
    have hdrawn : token'.allowed (net.self, sender) + call.amount ≤ 0 := by
      have hle := @LsdToken.execute_allowed _ _ _ _ _ _ (net.self, sender)
        hexecute
      have hgranted : msg.granted sender (net.self, sender) = 0 := by
        cases msg <;> simp [LsdToken.ExecuteMsg.draw] at hdraw <;> rfl
      rw [hallowed, hgranted] at hle
      simpa [LsdToken.ExecuteMsg.drawn, hdraw, hself, add, empty] using hle
    have hle := (balance_of_other hexecute hsender hallowed).1
    omega
  · rw [hposted.2, Move.apply, add, Function.update_self, sub,
      Function.update_of_ne (Ne.symm hself)]

/-! ### Packets that are sent -/

theorem sent_of_deliverAll {delivery : Delivery} {data : Ics20Packet}
    {timeout : Nat} {reported : Option Ics20Ack}
    (hid : delivery.id = some id)
    (hdeliver : deliverAll net delivery h
      [⟨.sendPacket channel data timeout, none, none⟩] =
        some (h', reported)) :
    id.1 = channel ∧ id ∉ h.used ∧
      h' = { h with
        pending := h.pending.save id data
        used := id :: h.used } := by
  simp only [deliverAll, deliver, dispatch, sendPacket, hid,
    Option.bind_eq_bind, Option.pure_def, Option.bind_some,
    Option.bind_eq_some_iff, Prod.exists, Option.some.injEq,
    Prod.mk.injEq] at hdeliver
  obtain ⟨last, first, hdeliver, rfl, rfl⟩ := hdeliver
  by_cases hfresh : id.1 = channel ∧ !h.used.contains id
  · rw [if_pos hfresh] at hdeliver
    obtain ⟨rfl, -⟩ := Prod.mk.inj (Option.some.inj hdeliver)
    exact ⟨hfresh.1, by simpa using hfresh.2, rfl⟩
  · rw [if_neg hfresh] at hdeliver
    cases hdeliver

/-- The gas limit of a token does not depend on the amount. -/
theorem checkGasLimit_fromParts {api : Api} {store : Storage} {n : Nat}
    {gas : Option Nat}
    (hgas : checkGasLimit api store (.fromParts denom amount) = .ok gas) :
    checkGasLimit api store (.fromParts denom n) = .ok gas := by
  cases hdenom : isCw20 denom with
  | false =>
      rw [fromParts_native hdenom] at hgas ⊢
      exact hgas
  | true =>
      rw [eq_of_isCw20 hdenom, fromParts_cw20] at hgas ⊢
      exact hgas

/-- The store and the coins before a transfer, and the chain after it. -/
theorem sent_of_transferred {before : HomeChain} {amount : Amount}
    {store : Storage} {rsp : Response}
    (hcommit : commit net h ⟨some id, true, ""⟩ (.ok (store, rsp)) =
      some h')
    (htransfer : Transferred net.api h.store channel amount sender store rsp)
    (hstore : h.store = before.store) (hpending : h.pending = before.pending)
    (hused : h.used = before.used) (hungranted : Ungranted net h.tokens)
    (hholding : ∀ other, before.holding net other ≤ h.holding net other)
    (harrived : net.Backed amount.denom →
      before.holding net amount.denom + amount.amount ≤
        h.holding net amount.denom)
    (hparts : Amount.fromParts amount.denom amount.amount = amount) :
    ∃ data, Sent net before id data h' := by
  obtain ⟨hpositive, -, hpayable, hincrease, data, timeout, hmessages, hdenom,
    hamount, -, -⟩ := htransfer
  simp only [commit, hmessages, Option.map_eq_some_iff, Prod.exists]
    at hcommit
  obtain ⟨last, reported, hdeliver, rfl⟩ := hcommit
  obtain ⟨rfl, hfresh, rfl⟩ := sent_of_deliverAll rfl hdeliver
  have hincreased := increaseChannelBalance_ok hincrease
  rw [hstore] at hincreased hpayable
  rw [hused] at hfresh
  have hsame : HomeChain.holding net
      { h with
        store := store
        pending := h.pending.save id data
        used := id :: h.used } = h.holding net :=
    holding_congr rfl rfl
  refine ⟨data, ?_, ?_, hamount ▸ hpositive, hfresh, by rw [hpending],
    by rw [hused], hungranted, ?_, ?_⟩
  · rw [hdenom, hamount]
    exact hincreased
  · rw [hdenom, hamount, hparts]
    exact hpayable
  · rw [hsame]
    exact hholding
  · rw [hsame, hdenom, hamount]
    exact harrived

/-! ### Coins that arrive -/

theorem le_addCoins (bank : Book String) (coins : List Coin)
    (denom : String) : bank denom ≤ addCoins bank coins denom := by
  induction coins generalizing bank with
  | nil => exact le_rfl
  | cons coin rest ih =>
      exact (le_add denom).trans (ih (add bank coin.denom coin.amount))

theorem holding_le {before : HomeChain}
    (hbank : ∀ denom, before.bank denom ≤ h.bank denom)
    (htokens : ∀ address,
      ((before.tokens address).map (·.balance net.self)).getD 0 ≤
        ((h.tokens address).map (·.balance net.self)).getD 0) (denom : String) :
    before.holding net denom ≤ h.holding net denom := by
  cases hdenom : isCw20 denom with
  | false =>
      rw [holding_native hdenom, holding_native hdenom]
      exact hbank denom
  | true =>
      rw [eq_of_isCw20 hdenom, holding_cw20, holding_cw20]
      exact htokens _

/-- A denom of a contract that is no token stands for nothing. -/
theorem not_backed (htoken : net.isToken address = false) :
    ¬ net.Backed ("cw20:" ++ address) := by
  rintro (hdenom | ⟨other, hother, heq⟩)
  · have hplain := net.denom_plain _ hdenom
    rw [isCw20_cw20] at hplain
    cases hplain
  · have hsame : address = other := by
      have hlists := congrArg String.toList heq
      rw [toList_cw20, toList_cw20] at hlists
      exact String.toList_inj.mp (List.append_cancel_left hlists)
    rw [← hsame, htoken] at hother
    cases hother

/-! ### Messages of the users -/

theorem call_effect {info : MessageInfo} {msg : ExecuteMsg}
    (hu : Ungranted net h.tokens)
    (hact : h.act net (.call info msg id) = some h') :
    (∃ data, Sent net h id data h') ∨ Quiet net h h' := by
  simp only [act] at hact
  split at hact
  case isFalse => cases hact
  next hcaller =>
  obtain ⟨-, htoken, hfunds⟩ := hcaller
  have hbank : ∀ other, h.holding net other ≤
      HomeChain.holding net { h with bank := addCoins h.bank info.funds }
        other :=
    holding_le (le_addCoins h.bank info.funds) fun _ => le_rfl
  cases hexecute : execute net.api h.store h.block info msg with
  | error err => rw [hexecute] at hact; cases hact
  | ok result =>
      obtain ⟨store, rsp⟩ := result
      rw [hexecute] at hact
      cases execute_ok hexecute with
      | transferred channel sender amount htransfer hsource =>
          left
          rcases hsource with hcw20 | ⟨coin, hcoin, rfl⟩
          · -- a caller that is no token gets a balance for itself only
            refine sent_of_transferred hact htransfer rfl rfl rfl hu hbank ?_ ?_
            · intro hbacked
              rw [hcw20] at hbacked
              exact absurd hbacked (not_backed htoken)
            · rw [hcw20]
              exact fromParts_cw20 _ _
          · have hdenom := hfunds coin (by simp [hcoin])
            have hplain := net.denom_plain _ hdenom
            refine sent_of_transferred hact htransfer rfl rfl rfl hu hbank ?_
              (fromParts_native hplain)
            intro _
            simp only [Amount.denom, Amount.amount]
            rw [holding_native hplain, holding_native hplain, hcoin]
            simp [addCoins, add]
      | administered hadmin hadmits hversion hstate hmessages =>
          right
          simp only [commit, hmessages, deliverAll, Option.map_some,
            Option.some.injEq] at hact
          subst hact
          exact ⟨hversion, hstate, hadmits, rfl, rfl, hu, hbank⟩

/-! ### Messages to the tokens -/

theorem holding_save_le (net : Setting V) (hle :
      ((h.tokens address).map (·.balance net.self)).getD 0 ≤
        token'.balance net.self) (denom : String) :
    h.holding net denom ≤ HomeChain.holding net
      { h with tokens := h.tokens.save address token' } denom := by
  apply holding_le
  · exact fun _ => le_rfl
  · intro other
    by_cases heq : other = address
    · subst heq
      simpa using hle
    · simp [Map.save_of_ne heq]

theorem token_effect {msg : LsdToken.ExecuteMsg}
    (hu : Ungranted net h.tokens)
    (hact : h.act net (.token address sender msg id) = some h') :
    (∃ data, Sent net h id data h') ∨ Quiet net h h' := by
  simp only [act] at hact
  split at hact
  case isTrue => cases hact
  next hsender =>
  split at hact
  case h_1 => cases hact
  next token htoken =>
  split at hact
  case h_1 => cases hact
  next token' received hexecute =>
  obtain ⟨haddress, hallowed⟩ := hu address token htoken
  obtain ⟨hle, hallowed'⟩ := balance_of_other hexecute hsender hallowed
  have hu' : Ungranted net (h.tokens.save address token') :=
    hu.save haddress hallowed'
  have hold : ((h.tokens address).map (·.balance net.self)).getD 0 =
      token.balance net.self := by rw [htoken]; rfl
  have hholding := holding_save_le net (hold.trans_le hle)
  have hquiet : Quiet net h
      { h with tokens := h.tokens.save address token' } :=
    ⟨rfl, rfl, Admits.of_eq rfl rfl, rfl, rfl, hu', hholding⟩
  cases received with
  | none =>
      obtain rfl := Option.some.inj hact
      exact .inr hquiet
  | some call =>
      simp only [notify] at hact
      split at hact
      case isFalse =>
        obtain rfl := Option.some.inj hact
        exact .inr hquiet
      next hself =>
      left
      generalize hreceive : executeReceive net.api h.store h.block
        ⟨address, []⟩ ⟨call.sender, call.amount, net.decode call.msg⟩ =
          result at hact
      cases result with
      | error err => cases hact
      | ok result =>
          obtain ⟨store, rsp⟩ := result
          obtain ⟨channel, htransfer⟩ := executeReceive_ok hreceive
          refine sent_of_transferred hact htransfer rfl rfl rfl hu' hholding
            ?_ (fromParts_cw20 _ _)
          intro _
          simp only [Amount.denom, Amount.amount]
          rw [holding_cw20, holding_cw20, hold]
          simpa using balance_of_notice hexecute hself hsender hallowed

/-! ### The remaining events -/

theorem allowances_of_instantiate {msg : LsdToken.InstantiateMsg}
    (hinstantiate : LsdToken.instantiate chain msg = .ok token) :
    token.allowances = Map.empty := by
  simp only [LsdToken.instantiate, bind_eq_ok, pure_eq_ok,
    Prod.exists] at hinstantiate
  obtain ⟨_, -, _, -, _, _, -, _, -, _, -, rfl⟩ := hinstantiate
  rfl

theorem create_quiet {msg : LsdToken.InstantiateMsg}
    (hu : Ungranted net h.tokens)
    (hact : h.act net (.create address msg) = some h') : Quiet net h h' := by
  simp only [act] at hact
  split at hact
  case isFalse => cases hact
  next hfree =>
  split at hact
  case h_1 => cases hact
  next token hinstantiate =>
  obtain rfl := Option.some.inj hact
  obtain ⟨htoken, hnone⟩ := hfree
  have hallowed : ∀ spender, token.allowed (net.self, spender) = 0 := by
    intro spender
    rw [LsdToken.Token.allowed, allowances_of_instantiate hinstantiate]
    rfl
  refine ⟨rfl, rfl, Admits.of_eq rfl rfl, rfl, rfl, hu.save htoken hallowed,
    holding_save_le net ?_⟩
  rw [Option.isNone_iff_eq_none.mp hnone]
  exact Nat.zero_le _

theorem connect_quiet {msg : IbcChannelMsg} (hu : Ungranted net h.tokens)
    (hact : h.act net (.connect msg) = some h') : Quiet net h h' := by
  simp only [act] at hact
  split at hact
  case h_1 => cases hact
  next store hconnect =>
  obtain rfl := Option.some.inj hact
  simp only [ibcChannelConnect, bind_eq_ok, pure_eq_ok] at hconnect
  obtain ⟨_, -, rfl⟩ := hconnect
  exact ⟨rfl, rfl, Admits.of_eq rfl rfl, rfl, rfl, hu, fun _ =>
    (congrFun (holding_congr rfl rfl) _).ge⟩

theorem donate_quiet (hu : Ungranted net h.tokens)
    (hact : h.act net (.donate denom amount) = some h') : Quiet net h h' := by
  simp only [act] at hact
  split at hact
  case isFalse => cases hact
  obtain rfl := Option.some.inj hact
  exact ⟨rfl, rfl, Admits.of_eq rfl rfl, rfl, rfl, hu,
    holding_le (fun _ => le_add _) fun _ => le_rfl⟩

/-- From the current version a migration sets the default gas limit only. -/
theorem migrate_quiet {walks : ∀ store, Option (Walk store)}
    {msg : MigrateMsg} (hu : Ungranted net h.tokens)
    (hversion : h.store.contractVersion = ⟨contractName, contractVersion⟩)
    (hact : h.act net (.migrate walks msg) = some h') : Quiet net h h' := by
  simp only [act] at hact
  split at hact
  case h_1 => cases hact
  next walk hwalk =>
  split at hact
  case h_1 => cases hact
  next store hmigrate =>
  obtain rfl := Option.some.inj hact
  obtain ⟨version, hcurrent, hnewer⟩ := net.current
  have hstored : net.parse h.store.contractVersion.version = .ok version := by
    rw [hversion, hcurrent]
  obtain ⟨_, set, hparse, -, hset, hstore⟩ :=
    migrate_newer hstored hnewer hmigrate
  obtain rfl := Except.ok.inj (hcurrent.symm.trans hparse)
  rw [if_neg (lt_irrefl version)] at hstore
  subst hstore
  obtain ⟨hstate, hkept, hadmits⟩ := setDefaultGas_ok hset
  exact ⟨hkept, hstate, hadmits, rfl, rfl, hu, fun _ =>
    (congrFun (holding_congr rfl rfl) _).ge⟩

/-! ### Every event -/

/-- What an action does. -/
inductive Effect (net : Setting V) (h : HomeChain) : Action → HomeChain → Prop
  | sent {action : Action} {h' : HomeChain} (id : PacketId)
      (data : Ics20Packet) (hsent : Sent net h id data h') :
      Effect net h action h'
  | received {h' : HomeChain} (channel : String)
      (data : Except String Ics20Packet) (delivery : Delivery) (ack : Ics20Ack)
      (hreceipt : Receipt net h channel data delivery h' ack)
      (hpending : h'.pending = h.pending) (hused : h'.used = h.used) :
      Effect net h (.receive channel data delivery) h'
  | settled {h' : HomeChain} (id : PacketId)
      (acknowledgement : Except String Ics20Ack) (delivery : Delivery)
      (hsettled : Settled h id h') :
      Effect net h (.ack id acknowledgement delivery) h'
  | returned {action : Action} {h' : HomeChain} (id : PacketId)
      (data : Ics20Packet) (delivery : Delivery)
      (haction : action = .timeout id delivery ∨
        ∃ err, action = .ack id (.ok (.error err)) delivery)
      (hdata : h.pending id = some data)
      (hreturned : Returned net h id data h') : Effect net h action h'
  | quiet {action : Action} {h' : HomeChain} (hquiet : Quiet net h h') :
      Effect net h action h'

theorem act_effect {action : Action} (hu : Ungranted net h.tokens)
    (hversion : h.store.contractVersion = ⟨contractName, contractVersion⟩)
    (hact : h.act net action = some h') : Effect net h action h' := by
  cases action with
  | call info msg id =>
      rcases call_effect hu hact with ⟨data, hsent⟩ | hquiet
      · exact .sent id data hsent
      · exact .quiet hquiet
  | token address sender msg id =>
      rcases token_effect hu hact with ⟨data, hsent⟩ | hquiet
      · exact .sent id data hsent
      · exact .quiet hquiet
  | create address msg => exact .quiet (create_quiet hu hact)
  | connect msg => exact .quiet (connect_quiet hu hact)
  | receive channel data delivery =>
      simp only [act, Option.map_eq_some_iff, Prod.exists] at hact
      obtain ⟨last, ack, hreceive, rfl⟩ := hact
      obtain ⟨hreceipt, hpending, hused⟩ := receivePacket_receipt hreceive
      exact .received channel data delivery ack hreceipt hpending hused
  | ack id acknowledgement delivery =>
      obtain ⟨data, hdata, ⟨-, hsettled⟩ | ⟨⟨err, rfl⟩, hreturned⟩⟩ :=
        ack_settled hu hact
      · exact .settled id acknowledgement delivery hsettled
      · exact .returned id data delivery (.inr ⟨err, rfl⟩) hdata hreturned
  | timeout id delivery =>
      obtain ⟨data, hdata, hreturned⟩ := timeout_returned hu hact
      exact .returned id data delivery (.inl rfl) hdata hreturned
  | migrate walks msg => exact .quiet (migrate_quiet hu hversion hact)
  | donate denom amount => exact .quiet (donate_quiet hu hact)

/-- What holds in every state that is reached. -/
structure Sound (net : Setting V) (h : HomeChain) : Prop where
  version : h.store.contractVersion = ⟨contractName, contractVersion⟩
  ungranted : Ungranted net h.tokens
  /-- what was ever sent can be paid out -/
  payable : ∀ key, (h.store.channelState key).isSome = true →
    ∃ gas, checkGasLimit net.api h.store (.fromParts key.2 0) = .ok gas
  used : ∀ id, (h.pending id).isSome = true → id ∈ h.used
  bounded : ∀ key, h.store.outstanding key < Uint128.limit

/-- What every action leaves in force: what is listed stays listed, and what
is on a channel can be paid. -/
structure Lasting (net : Setting V) (h h' : HomeChain) : Prop where
  version : h'.store.contractVersion = h.store.contractVersion
  ungranted : Ungranted net h'.tokens
  admits : Admits h.store h'.store
  known : ∀ key, (h'.store.channelState key).isSome = true →
    (h.store.channelState key).isSome = true ∨
      ∃ gas, checkGasLimit net.api h.store (.fromParts key.2 0) = .ok gas
  used : ∀ id ∈ h.used, id ∈ h'.used
  pending : ∀ id, (h'.pending id).isSome = true →
    (h.pending id).isSome = true ∨ id ∈ h'.used
  bounded : ∀ key, h'.store.outstanding key ≤ h.store.outstanding key ∨
    h'.store.outstanding key < Uint128.limit

theorem isSome_of_remove {pending : Map PacketId Ics20Packet} {other : PacketId}
    (hother : (pending.remove id other).isSome = true) :
    (pending other).isSome = true := by
  by_cases heq : other = id
  · subst heq
    simp at hother
  · rwa [Map.remove_of_ne heq] at hother

theorem ungranted_of_receipt {data : Except String Ics20Packet}
    {delivery : Delivery} {ack : Ics20Ack} (hu : Ungranted net h.tokens)
    (hreceipt : Receipt net h channel data delivery h' ack) :
    Ungranted net h'.tokens := by
  cases hreceipt with
  | refused err hsettings hstate hbank htokens => rwa [htokens]
  | unpayable msg denom err hreduced hgas hbank htokens => rwa [htokens]
  | paid msg denom reduced hdata hdenom hreduced hdispatch =>
      have hu' : Ungranted net
          ({ h with store := reduced } : HomeChain).tokens := hu
      exact (paid_of_dispatch hu' hdispatch).ungranted

theorem settings_of_receipt {data : Except String Ics20Packet}
    {delivery : Delivery} {ack : Ics20Ack}
    (hreceipt : Receipt net h channel data delivery h' ack) :
    SameSettings h.store h'.store ∧ ∀ key,
      (h'.store.channelState key).isSome =
        (h.store.channelState key).isSome := by
  cases hreceipt with
  | refused err hsettings hstate hbank htokens =>
      exact ⟨hsettings, fun key => by rw [hstate]⟩
  | unpayable msg denom err hreduced hgas hbank htokens =>
      exact ⟨hreduced.settings, hreduced.known⟩
  | paid msg denom reduced hdata hdenom hreduced hdispatch =>
      rw [(sameBooks_of_dispatch hdispatch).store]
      exact ⟨hreduced.settings, hreduced.known⟩

theorem Reduced.le {store store' : Storage} {key : String × String}
    (hreduced : Reduced store key amount store') (other : String × String) :
    store'.outstanding other ≤ store.outstanding other := by
  rw [hreduced.outstanding, sub, Function.update_apply]
  split
  · next heq => subst heq; exact Nat.sub_le _ _
  · exact le_rfl

theorem outstanding_of_receipt {data : Except String Ics20Packet}
    {delivery : Delivery} {ack : Ics20Ack}
    (hreceipt : Receipt net h channel data delivery h' ack)
    (key : String × String) :
    h'.store.outstanding key ≤ h.store.outstanding key := by
  cases hreceipt with
  | refused err hsettings hstate hbank htokens =>
      rw [outstanding_congr hstate]
  | unpayable msg denom err hreduced hgas hbank htokens =>
      exact Reduced.le hreduced key
  | paid msg denom reduced hdata hdenom hreduced hdispatch =>
      rw [(sameBooks_of_dispatch hdispatch).store]
      exact Reduced.le hreduced key

theorem Effect.lasting {action : Action} (hu : Ungranted net h.tokens)
    (heffect : Effect net h action h') : Lasting net h h' := by
  cases heffect with
  | sent id data hsent =>
      refine ⟨hsent.increased.settings.contractVersion, hsent.ungranted,
        hsent.increased.settings.admits, fun key hkey => ?_,
        fun other hother => ?_, fun other hother => ?_, fun key => ?_⟩
      · by_cases heq : key = (id.1, data.denom)
        · obtain ⟨gas, hgas⟩ := hsent.payable
          exact .inr ⟨gas, heq ▸ checkGasLimit_fromParts hgas⟩
        · rw [hsent.increased.others key heq] at hkey
          exact .inl hkey
      · rw [hsent.used]
        exact List.mem_cons_of_mem _ hother
      · rw [hsent.pending, Map.save_apply] at hother
        split at hother
        · next heq => exact .inr (by simp [hsent.used, heq])
        · exact .inl hother
      · rw [hsent.increased.outstanding, add, Function.update_apply]
        split
        · exact .inr hsent.increased.bounded
        · exact .inl le_rfl
  | received channel data delivery ack hreceipt hpending hused =>
      obtain ⟨hsettings, hknown⟩ := settings_of_receipt hreceipt
      exact ⟨hsettings.contractVersion, ungranted_of_receipt hu hreceipt,
        hsettings.admits, fun key hkey => .inl (hknown key ▸ hkey),
        fun other hother => hused ▸ hother,
        fun other hother => .inl (hpending ▸ hother),
        fun key => .inl (outstanding_of_receipt hreceipt key)⟩
  | settled id acknowledgement delivery hsettled =>
      rw [← hsettled.tokens] at hu
      refine ⟨by rw [hsettled.store], hu,
        Admits.of_eq (by rw [hsettled.store]) (by rw [hsettled.store]),
        fun key hkey => .inl (hsettled.store ▸ hkey),
        fun other hother => hsettled.used ▸ hother, fun other hother => ?_,
        fun key => .inl (by rw [hsettled.store])⟩
      rw [hsettled.pending] at hother
      exact .inl (isSome_of_remove hother)
  | returned id data delivery haction hdata hreturned =>
      refine ⟨hreturned.reduced.settings.contractVersion, hreturned.ungranted,
        hreturned.reduced.settings.admits,
        fun key hkey => .inl (hreturned.reduced.known key ▸ hkey),
        fun other hother => hreturned.used ▸ hother,
        fun other hother => ?_,
        fun key => .inl (Reduced.le hreturned.reduced key)⟩
      rw [hreturned.pending] at hother
      exact .inl (isSome_of_remove hother)
  | quiet hquiet =>
      exact ⟨hquiet.version, hquiet.ungranted, hquiet.admits,
        fun key hkey => .inl (hquiet.channelState ▸ hkey),
        fun other hother => hquiet.used ▸ hother,
        fun other hother => .inl (hquiet.pending ▸ hother),
        fun key => .inl (by rw [outstanding_congr hquiet.channelState])⟩

theorem Sound.lasting (hs : Sound net h) (hl : Lasting net h h') :
    Sound net h' := by
  refine ⟨hl.version.trans hs.version, hl.ungranted, fun key hkey => ?_,
    fun id hid => ?_, fun key => ?_⟩
  · rcases hl.known key hkey with hold | ⟨gas, hgas⟩
    · obtain ⟨gas, hgas⟩ := hs.payable key hold
      exact hl.admits.checkGasLimit hgas
    · exact hl.admits.checkGasLimit hgas
  · rcases hl.pending id hid with hold | hnew
    · exact hl.used id (hs.used id hold)
    · exact hnew
  · rcases hl.bounded key with hle | hlt
    · exact hle.trans_lt (hs.bounded key)
    · exact hlt

theorem Sound.act {action : Action} (hs : Sound net h)
    (hact : h.act net action = some h') : Sound net h' :=
  hs.lasting ((act_effect hs.ungranted hs.version hact).lasting hs.ungranted)

/-- An event is its action at a later block. -/
theorem step_eq_some {ev : Event} (hstep : h.step net ev = some h') :
    { h with block := ev.block }.act net ev.action = some h' := by
  unfold step at hstep
  split at hstep
  · exact hstep
  · cases hstep

theorem Sound.atBlock (hs : Sound net h) (block : BlockInfo) :
    Sound net { h with block := block } :=
  ⟨hs.version, hs.ungranted, hs.payable, hs.used, hs.bounded⟩

theorem Sound.step {ev : Event} (hs : Sound net h)
    (hstep : h.step net ev = some h') : Sound net h' :=
  (hs.atBlock ev.block).act (step_eq_some hstep)

theorem sound_genesis (hgenesis : Genesis net h) : Sound net h := by
  obtain ⟨⟨msg, hinstantiate⟩, htokens, hpending, hused⟩ := hgenesis
  simp only [instantiate, bind_eq_ok, pure_eq_ok] at hinstantiate
  obtain ⟨_, -, _, -, hstore⟩ := hinstantiate
  refine ⟨by rw [← hstore], fun address token htoken => ?_, fun key hkey => ?_,
    fun id hid => ?_, fun key => ?_⟩
  · obtain ⟨haddress, hnone⟩ := htokens address token htoken
    refine ⟨haddress, fun spender => ?_⟩
    simp [LsdToken.Token.allowed, hnone]
  · rw [← hstore] at hkey
    cases hkey
  · rw [hpending] at hid
    cases hid
  · rw [← hstore]
    exact Nat.two_pow_pos 128

theorem sound_run {events : List Event} {last : HomeChain}
    (hgenesis : Genesis net h)
    (hrun : Transition.exec (HomeChain.step net) h events = some last) :
    Sound net last :=
  Transition.exec_invariant (Sound net) (fun _ _ _ hs hstep => hs.step hstep)
    (sound_genesis hgenesis) hrun

end

end HomeChain

end NeutronContracts.Cw20Ics20
