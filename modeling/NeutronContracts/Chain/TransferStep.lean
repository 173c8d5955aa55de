/-
What the events on the chain of the contract do to the balances of its
channels, to the coins and tokens it holds, and to the packets it has sent.
-/
import NeutronContracts.Chain.Transfers
import NeutronContracts.Properties.TokenConsent

namespace NeutronContracts.Cw20Ics20

open Fallible Holdings

variable {V : Type} [LinearOrder V]

/-- The denoms that stand for coins of the bank or for tokens. -/
def Setting.Backed (net : Setting V) (denom : String) : Prop :=
  net.isDenom denom = true ∨
    ∃ address, net.isToken address = true ∧ denom = "cw20:" ++ address

namespace HomeChain

/-- How much of a denom the contract holds. -/
def holding (net : Setting V) (h : HomeChain) : Book String := fun denom =>
  match Amount.fromParts denom 0 with
  | .native coin => h.bank coin.denom
  | .cw20 coin =>
      ((h.tokens coin.address).map (·.balance net.self)).getD 0

/-- The tokens are at addresses of tokens, and nobody may take those of the
contract. -/
def Ungranted (net : Setting V) (tokens : Map String LsdToken.Token) : Prop :=
  ∀ address token, tokens address = some token →
    net.isToken address = true ∧
      ∀ spender, token.allowed (net.self, spender) = 0

/-- Everything but the coins and the tokens is the same. -/
structure SameBooks (h h' : HomeChain) : Prop where
  store : h'.store = h.store
  pending : h'.pending = h.pending
  used : h'.used = h.used

section

variable {net : Setting V} {h h' : HomeChain} {token token' : LsdToken.Token}
  {chain : LsdToken.Chain} {address sender recipient denom : String}
  {amount : Nat}

theorem holding_native (hdenom : isCw20 denom = false) :
    h.holding net denom = h.bank denom := by
  rw [holding, fromParts_native hdenom]

theorem holding_cw20 :
    h.holding net ("cw20:" ++ address) =
      ((h.tokens address).map (·.balance net.self)).getD 0 := by
  rw [holding, fromParts_cw20]

theorem holding_congr (hbank : h'.bank = h.bank)
    (htokens : h'.tokens = h.tokens) :
    h'.holding net = h.holding net := by
  unfold holding
  rw [hbank, htokens]

/-- A token is called by somebody else: the contract keeps its tokens. -/
theorem balance_of_other {msg : LsdToken.ExecuteMsg}
    {received : Option LsdToken.Cw20ReceiveMsg}
    (h : LsdToken.execute token chain sender msg = .ok (token', received))
    (hsender : sender ≠ net.self)
    (hallowed : ∀ spender, token.allowed (net.self, spender) = 0) :
    token.balance net.self ≤ token'.balance net.self ∧
      ∀ spender, token'.allowed (net.self, spender) = 0 := by
  have hgrant : ∀ spender, token'.allowed (net.self, spender) +
      msg.drawn sender (net.self, spender) = 0 := by
    intro spender
    have hle : token'.allowed (net.self, spender) +
        msg.drawn sender (net.self, spender) ≤
          token.allowed (net.self, spender) +
            msg.granted sender (net.self, spender) :=
      LsdToken.execute_allowed h
    have hnone : msg.granted sender (net.self, spender) = 0 := by
      cases msg with
      | increaseAllowance other amount expires =>
          have hne : (net.self, spender) ≠ (sender, other) := fun heq =>
            hsender (congrArg Prod.fst heq).symm
          simp [LsdToken.ExecuteMsg.granted, add, empty,
            Function.update_of_ne hne]
      | _ => rfl
    rw [hallowed, hnone] at hle
    omega
  refine ⟨?_, fun spender => (Nat.add_eq_zero_iff.mp (hgrant spender)).1⟩
  by_contra hless
  obtain ⟨amount, hle, ⟨hself, -⟩ | hdraw⟩ :=
    LsdToken.execute_debit h (Nat.lt_of_not_le hless)
  · exact hsender hself.symm
  · have hdrawn := (Nat.add_eq_zero_iff.mp (hgrant sender)).2
    simp [LsdToken.ExecuteMsg.drawn, hdraw, add, empty] at hdrawn
    omega

/-- The contract sends tokens of its own. -/
theorem balance_of_transfer {received : Option LsdToken.Cw20ReceiveMsg}
    (h : LsdToken.execute token chain net.self (.transfer recipient amount) =
      .ok (token', received))
    (hallowed : ∀ spender, token.allowed (net.self, spender) = 0) :
    token.balance net.self ≤ token'.balance net.self + amount ∧
      ∀ spender, token'.allowed (net.self, spender) = 0 := by
  refine ⟨?_, fun spender => ?_⟩
  · obtain ⟨-, hposted⟩ := LsdToken.execute_posted h
    have hle : token.balance net.self ≤
        (Move.transfer net.self recipient amount).apply token.balance
          net.self + amount := by
      simpa [Move.taken] using
        le_apply (.transfer net.self recipient amount) net.self
    rwa [hposted]
  · have hle : token'.allowed (net.self, spender) + 0 ≤
        token.allowed (net.self, spender) + 0 :=
      LsdToken.execute_allowed h
    rw [hallowed] at hle
    omega

theorem Ungranted.save {tokens : Map String LsdToken.Token}
    (hu : Ungranted net tokens) (htoken : net.isToken address = true)
    (hallowed : ∀ spender, token.allowed (net.self, spender) = 0) :
    Ungranted net (tokens.save address token) := by
  intro other token'' hother
  rw [Map.save_apply] at hother
  split at hother
  · next heq =>
      obtain rfl := Option.some.inj hother
      exact ⟨heq ▸ htoken, hallowed⟩
  · exact hu other token'' hother

/-- Writing a token changes the holding of its denom only. -/
theorem holding_save_token {before : Nat}
    (htokens : h'.tokens = h.tokens.save address token')
    (hbank : h'.bank = h.bank)
    (hbefore : ((h.tokens address).map (·.balance net.self)).getD 0 = before)
    (hle : before ≤ token'.balance net.self + amount) (denom : String) :
    h.holding net denom ≤ h'.holding net denom +
      if denom = "cw20:" ++ address then amount else 0 := by
  cases hdenom : isCw20 denom with
  | false =>
      rw [holding_native hdenom, holding_native hdenom, hbank]
      exact Nat.le_add_right _ _
  | true =>
      rw [eq_of_isCw20 hdenom, holding_cw20, holding_cw20, htokens]
      by_cases heq : String.ofList (denom.toList.drop 5) = address
      · rw [heq, hbefore, Map.save_self]
        simpa using hle
      · rw [Map.save_of_ne heq]
        exact Nat.le_add_right _ _

/-! ### Payments -/

/-- Of one denom an amount was paid, of the others nothing. -/
structure Paid (net : Setting V) (h : HomeChain) (denom : String)
    (amount : Nat) (h' : HomeChain) : Prop where
  books : SameBooks h h'
  ungranted : Ungranted net h'.tokens
  holding : ∀ other, h.holding net other ≤ h'.holding net other +
    if other = denom then amount else 0

theorem paid_bankSend (hu : Ungranted net h.tokens)
    (hsend : h.bankSend net recipient [⟨denom, amount⟩] = some h') :
    Paid net h denom amount h' := by
  unfold bankSend at hsend
  dsimp only at hsend
  split at hsend
  case isFalse => cases hsend
  split at hsend
  · obtain rfl := Option.some.inj hsend
    exact ⟨⟨rfl, rfl, rfl⟩, hu, fun other => Nat.le_add_right _ _⟩
  · obtain rfl := Option.some.inj hsend
    refine ⟨⟨rfl, rfl, rfl⟩, hu, fun other => ?_⟩
    cases hother : isCw20 other with
    | false =>
        rw [holding_native hother, holding_native hother]
        exact le_sub other
    | true =>
        rw [eq_of_isCw20 hother, holding_cw20, holding_cw20]
        exact Nat.le_add_right _ _

theorem paid_wasmExecute (hu : Ungranted net h.tokens)
    (hexecute : h.wasmExecute net address (.transfer recipient amount) =
      some h') :
    Paid net h ("cw20:" ++ address) amount h' := by
  unfold wasmExecute at hexecute
  dsimp only at hexecute
  split at hexecute
  · obtain rfl := Option.some.inj hexecute
    exact ⟨⟨rfl, rfl, rfl⟩, hu, fun other => Nat.le_add_right _ _⟩
  · next token htoken =>
      split at hexecute
      case h_2 => cases hexecute
      case h_1 token' received hcall =>
          obtain rfl := Option.some.inj hexecute
          obtain ⟨haddress, hallowed⟩ := hu address token htoken
          obtain ⟨hle, hallowed'⟩ := balance_of_transfer hcall hallowed
          exact ⟨⟨rfl, rfl, rfl⟩, hu.save haddress hallowed',
            holding_save_token rfl rfl (by rw [htoken]; rfl) hle⟩

/-- A payment that is executed takes its amount. -/
theorem paid_of_dispatch {delivery : Delivery}
    (hu : Ungranted net h.tokens)
    (hdispatch : h.dispatch net delivery
      (sendAmount (.fromParts denom amount) recipient) = some h') :
    Paid net h denom amount h' := by
  cases hdenom : isCw20 denom with
  | false =>
      rw [fromParts_native hdenom] at hdispatch
      simp only [sendAmount, dispatch] at hdispatch
      split at hdispatch
      · exact paid_bankSend hu hdispatch
      · cases hdispatch
  | true =>
      rw [eq_of_isCw20 hdenom, fromParts_cw20] at hdispatch
      rw [eq_of_isCw20 hdenom]
      simp only [sendAmount, dispatch] at hdispatch
      split at hdispatch
      · exact paid_wasmExecute hu hdispatch
      · cases hdispatch

/-- A payment changes the coins and the tokens only. -/
theorem sameBooks_of_dispatch {delivery : Delivery}
    (hdispatch : h.dispatch net delivery
      (sendAmount (.fromParts denom amount) recipient) = some h') :
    SameBooks h h' := by
  unfold Amount.fromParts at hdispatch
  split at hdispatch
  · simp only [sendAmount, dispatch, wasmExecute] at hdispatch
    split at hdispatch
    case isFalse => cases hdispatch
    split at hdispatch
    · obtain rfl := Option.some.inj hdispatch
      exact ⟨rfl, rfl, rfl⟩
    · split at hdispatch
      · obtain rfl := Option.some.inj hdispatch
        exact ⟨rfl, rfl, rfl⟩
      · cases hdispatch
  · simp only [sendAmount, dispatch, bankSend] at hdispatch
    split at hdispatch
    case isFalse => cases hdispatch
    split at hdispatch
    case isFalse => cases hdispatch
    split at hdispatch <;> obtain rfl := Option.some.inj hdispatch <;>
      exact ⟨rfl, rfl, rfl⟩

/-- A payment is made, or its failure is reported to the contract. -/
theorem deliverAll_payment {delivery : Delivery} {gas : Option Nat}
    {replyId : Nat} {data : Option Ics20Ack}
    (hdeliver : deliverAll net delivery h
      [⟨sendAmount (.fromParts denom amount) recipient, gas, some replyId⟩] =
        some (h', data)) :
    (h.dispatch net delivery (sendAmount (.fromParts denom amount) recipient) =
        some h' ∧ data = none) ∨
      ∃ store, reply h.store replyId (.error delivery.error) =
        .ok (store, data) ∧ h' = { h with store := store } := by
  simp only [deliverAll, deliver, Option.bind_eq_bind, Option.pure_def,
    Option.bind_some, Option.bind_eq_some_iff, Prod.exists,
    Option.some.injEq, Prod.mk.injEq] at hdeliver
  obtain ⟨last, first, hdeliver, rfl, rfl⟩ := hdeliver
  split at hdeliver
  · next paid hdispatch =>
      obtain ⟨rfl, rfl⟩ := Prod.mk.inj (Option.some.inj hdeliver)
      exact .inl ⟨hdispatch, rfl⟩
  · split at hdeliver
    · next store reported hreply =>
        obtain ⟨rfl, rfl⟩ := Prod.mk.inj (Option.some.inj hdeliver)
        exact .inr ⟨store, by simpa using hreply, rfl⟩
    · cases hdeliver

/-- A payment that is made. -/
theorem deliverAll_of_some {delivery : Delivery} {msg : CosmosMsg}
    {gas : Option Nat} {replyId : Nat}
    (hdispatch : h.dispatch net delivery msg = some h') :
    deliverAll net delivery h [⟨msg, gas, some replyId⟩] = some (h', none) := by
  simp [deliverAll, deliver, hdispatch]

/-- A payment whose failure is answered. -/
theorem deliverAll_of_none {delivery : Delivery} {msg : CosmosMsg}
    {gas : Option Nat} {replyId : Nat} {store : Storage}
    {data : Option Ics20Ack} (hdispatch : h.dispatch net delivery msg = none)
    (hreply : reply h.store replyId (.error delivery.error) =
      .ok (store, data)) :
    deliverAll net delivery h [⟨msg, gas, some replyId⟩] =
      some ({ h with store := store }, data) := by
  simp [deliverAll, deliver, hdispatch, hreply]

/-! ### Packets that arrive -/

/-- What the arrival of a packet does. -/
inductive Receipt (net : Setting V) (h : HomeChain) (channel : String)
    (data : Except String Ics20Packet) (delivery : Delivery) :
    HomeChain → Ics20Ack → Prop
  /-- the packet is refused, or its payment has failed and was undone -/
  | refused {h' : HomeChain} (err : String)
      (hsettings : SameSettings h.store h'.store)
      (hstate : h'.store.channelState = h.store.channelState)
      (hbank : h'.bank = h.bank) (htokens : h'.tokens = h.tokens) :
      Receipt net h channel data delivery h' (ackFail err)
  /-- the amount is taken back, but the token cannot be sent -/
  | unpayable {h' : HomeChain} (msg : Ics20Packet) (denom err : String)
      (hreduced : Reduced h.store (channel, denom) msg.amount h'.store)
      (hgas : ∀ gas, checkGasLimit net.api h.store
        (.fromParts denom msg.amount) ≠ .ok gas)
      (hbank : h'.bank = h.bank) (htokens : h'.tokens = h.tokens) :
      Receipt net h channel data delivery h' (ackFail err)
  | paid {h' : HomeChain} (msg : Ics20Packet) (denom : String)
      (reduced : Storage) (hdata : data = .ok msg)
      (hdenom : parseVoucherDenom msg.denom (net.remoteEnd channel) =
        .ok denom)
      (hreduced : Reduced h.store (channel, denom) msg.amount reduced)
      (hdispatch : ({ h with store := reduced } : HomeChain).dispatch net
        delivery (sendAmount (.fromParts denom msg.amount) msg.receiver) =
          some h') :
      Receipt net h channel data delivery h' ackSuccess

/-- The failure of a payment is answered by undoing the reduction. -/
theorem reply_receive {store store' reduced : Storage} {channel err : String}
    {data : Option Ics20Ack}
    (hreduce : reduceChannelBalance store channel denom amount = .ok reduced)
    (hreply : reply
      { reduced with replyArgs := some ⟨channel, denom, amount⟩ } receiveId
      (.error err) = .ok (store', data)) :
    data = some (ackFail err) ∧
      store' = { store with replyArgs := some ⟨channel, denom, amount⟩ } := by
  simp only [reply, if_true, bind_eq_ok, orError_eq_ok, Option.some.injEq,
    exists_eq_left', pure_eq_ok, Prod.mk.injEq] at hreply
  obtain ⟨_, hundo, rfl, rfl⟩ := hreply
  exact ⟨rfl, undoReduceChannelBalance_ok hreduce hundo⟩

theorem receivePacket_receipt {channel : String}
    {data : Except String Ics20Packet} {delivery : Delivery} {ack : Ics20Ack}
    (hreceive : h.receivePacket net channel data delivery = some (h', ack)) :
    Receipt net h channel data delivery h' ack ∧ h'.pending = h.pending ∧
      h'.used = h.used := by
  have hcases := ibcPacketReceive_cases net.api h.store
    (arrivedPacket net channel data)
  simp only [receivePacket, Option.map_eq_some_iff, Prod.exists,
    Prod.mk.injEq] at hreceive
  obtain ⟨last, reported, hdeliver, rfl, rfl⟩ := hreceive
  generalize ibcPacketReceive net.api h.store
    (arrivedPacket net channel data) = received at hcases hdeliver
  obtain ⟨store, rsp⟩ := received
  cases hcases with
  | refused err =>
      obtain ⟨rfl, rfl⟩ := Prod.mk.inj (Option.some.inj hdeliver)
      exact ⟨.refused _ ⟨rfl, rfl, rfl, rfl, rfl⟩ rfl rfl rfl, rfl, rfl⟩
  | unpayable msg denom reduced err hread hreduce hgas =>
      obtain ⟨rfl, rfl⟩ := Prod.mk.inj (Option.some.inj hdeliver)
      have hreduced := (reduceChannelBalance_ok hreduce).saveReplyArgs
        (some ⟨channel, denom, msg.amount⟩)
      exact ⟨.unpayable msg denom _ hreduced (by simp [hgas]) rfl rfl, rfl,
        rfl⟩
  | paid msg denom reduced gas hread hreduce hgas =>
      obtain ⟨hdata, hdenom⟩ := readVoucher_ok.mp hread
      have hreduced := (reduceChannelBalance_ok hreduce).saveReplyArgs
        (some ⟨channel, denom, msg.amount⟩)
      rcases deliverAll_payment hdeliver with
        ⟨hdispatch, rfl⟩ | ⟨store, hreply, rfl⟩
      · obtain ⟨-, hpending, hused⟩ := sameBooks_of_dispatch hdispatch
        exact ⟨.paid msg denom _ hdata hdenom hreduced hdispatch, hpending,
          hused⟩
      · obtain ⟨rfl, rfl⟩ := reply_receive hreduce hreply
        exact ⟨.refused _ ⟨rfl, rfl, rfl, rfl, rfl⟩ rfl rfl rfl, rfl, rfl⟩

/-! ### Answers to sent packets -/

/-- The packet is no longer awaited, and nothing else has changed. -/
structure Settled (h : HomeChain) (id : PacketId) (h' : HomeChain) :
    Prop where
  store : h'.store = h.store
  bank : h'.bank = h.bank
  tokens : h'.tokens = h.tokens
  pending : h'.pending = h.pending.remove id
  used : h'.used = h.used

/-- The packet is no longer awaited, and its amount is no longer outstanding:
it was returned, or the payment failed. -/
structure Returned (net : Setting V) (h : HomeChain) (id : PacketId)
    (data : Ics20Packet) (h' : HomeChain) : Prop where
  reduced : Reduced h.store (id.1, data.denom) data.amount h'.store
  ungranted : Ungranted net h'.tokens
  holding : ∀ other, h.holding net other ≤ h'.holding net other +
    if other = data.denom then data.amount else 0
  pending : h'.pending = h.pending.remove id
  used : h'.used = h.used

variable {id : PacketId} {data : Ics20Packet} {delivery : Delivery}

theorem returned_of_commit {err : String} (hu : Ungranted net h.tokens)
    (hcommit : commit net { h with pending := h.pending.remove id } delivery
      (onPacketFailure net.api h.store (sentPacket net id data) err) =
        some h') :
    Returned net h id data h' := by
  unfold commit at hcommit
  split at hcommit
  case h_1 => cases hcommit
  case h_2 store rsp hfailure =>
      obtain ⟨msg, gas, hdata, hreduce, hmessages⟩ :=
        onPacketFailure_ok hfailure
      obtain rfl := Except.ok.inj hdata
      rw [hmessages, Option.map_eq_some_iff] at hcommit
      obtain ⟨⟨last, reported⟩, hdeliver, rfl⟩ := hcommit
      have hreduced := reduceChannelBalance_ok hreduce
      have hu' : Ungranted net ({ h with
          pending := h.pending.remove id
          store := store } : HomeChain).tokens := hu
      rcases deliverAll_payment hdeliver with
        ⟨hdispatch, -⟩ | ⟨store', hreply, rfl⟩
      · obtain ⟨⟨hstore, hpending, hused⟩, hungranted, hholding⟩ :=
          paid_of_dispatch hu' hdispatch
        exact ⟨by rw [hstore]; exact hreduced, hungranted, hholding, hpending,
          hused⟩
      · -- the failure of the payment changes nothing
        have hsame : store' = store := by
          simp [reply, ackFailureId, receiveId, pure, Except.pure] at hreply
          exact hreply.1.symm
        subst hsame
        exact ⟨hreduced, hu, fun other => Nat.le_add_right _ _, rfl, rfl⟩

theorem timeout_returned (hu : Ungranted net h.tokens)
    (hact : h.act net (.timeout id delivery) = some h') :
    ∃ data, h.pending id = some data ∧ Returned net h id data h' := by
  simp only [act] at hact
  split at hact
  case h_1 => cases hact
  case h_2 data hdata => exact ⟨data, hdata, returned_of_commit hu hact⟩

/-- A success settles a packet, an error returns it. -/
theorem ack_settled {acknowledgement : Except String Ics20Ack}
    (hu : Ungranted net h.tokens)
    (hact : h.act net (.ack id acknowledgement delivery) = some h') :
    ∃ data, h.pending id = some data ∧
      ((∃ text, acknowledgement = .ok (.result text)) ∧ Settled h id h' ∨
        (∃ err, acknowledgement = .ok (.error err)) ∧
          Returned net h id data h') := by
  simp only [act] at hact
  split at hact
  case h_1 => cases hact
  case h_2 data hdata =>
      refine ⟨data, hdata, ?_⟩
      unfold commit at hact
      split at hact
      case h_1 => cases hact
      case h_2 store rsp hack =>
          rcases ibcPacketAck_ok hack with
            ⟨text, rfl, rfl, hmessages⟩ | ⟨err, rfl, hfailure⟩
          · rw [hmessages] at hact
            obtain rfl := Option.some.inj hact
            exact .inl ⟨⟨text, rfl⟩, rfl, rfl, rfl, rfl, rfl⟩
          · have hcommit : commit net { h with pending := h.pending.remove id }
                delivery (onPacketFailure net.api h.store
                  (sentPacket net id data) err) = some h' := by
              unfold commit
              rw [hfailure]
              exact hact
            exact .inr ⟨⟨err, rfl⟩, returned_of_commit hu hcommit⟩

end

end HomeChain

end NeutronContracts.Cw20Ics20
