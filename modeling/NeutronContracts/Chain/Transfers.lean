/-
The chain of the contract that sends tokens over IBC channels: the coins and
tokens the contract holds, and the packets it has sent that are not answered.
The other ends of the channels are not restricted: any packet can arrive, and
any answer.
-/
import NeutronContracts.Cw20Ics20.Contract
import NeutronContracts.Lib.Transition
import NeutronContracts.LsdToken.Token

namespace NeutronContracts.Cw20Ics20

open Fallible Holdings

/-- Channel and sequence. -/
abbrev PacketId := String × Nat

/-- What stays the same during a run.  `V` are the version numbers. -/
structure Setting (V : Type) [LinearOrder V] where
  /-- the address of the contract -/
  self : String
  portId : String
  api : Api
  /-- the other end of a channel -/
  remoteEnd : String → IbcEndpoint
  /-- the denoms of the bank -/
  isDenom : String → Bool
  /-- the addresses of token contracts -/
  isToken : String → Bool
  /-- what `from_json` makes of the bytes that come with tokens -/
  decode : String → Except String TransferMsg
  parse : String → Except String V
  denom_plain : ∀ denom, isDenom denom = true → isCw20 denom = false
  self_plain : isToken self = false
  current : ∃ version, parse contractVersion = .ok version ∧
    ∀ text ∈ ["0.12.0-alpha1", "0.13.0"], ∀ old, parse text = .ok old →
      old < version

structure HomeChain where
  block : BlockInfo
  store : Storage
  /-- the coins of the contract -/
  bank : Book String
  tokens : Map String LsdToken.Token
  /-- the packets that were sent and are not answered -/
  pending : Map PacketId Ics20Packet
  /-- the packets ever sent -/
  used : List PacketId

/-- What the chain makes of the messages of a response: the packet that one of
them sends, and whether it accepts payments, which may fail for lack of gas,
because of their receiver, or in a contract that is not modelled. -/
structure Delivery where
  id : Option PacketId
  accepts : Bool
  error : String

inductive Action
  /-- a message to the contract, by anyone but a token contract -/
  | call (info : MessageInfo) (msg : ExecuteMsg) (id : PacketId)
  /-- a message to a token contract, which may be one that sends tokens to the
  contract -/
  | token (address sender : String) (msg : LsdToken.ExecuteMsg) (id : PacketId)
  | create (address : String) (msg : LsdToken.InstantiateMsg)
  | connect (msg : IbcChannelMsg)
  | receive (channel : String) (data : Except String Ics20Packet)
      (delivery : Delivery)
  | ack (id : PacketId) (acknowledgement : Except String Ics20Ack)
      (delivery : Delivery)
  | timeout (id : PacketId) (delivery : Delivery)
  | migrate (walks : ∀ store, Option (Walk store)) (msg : MigrateMsg)
  /-- coins that are sent to the contract without a message -/
  | donate (denom : String) (amount : Nat)

structure Event where
  block : BlockInfo
  action : Action

section

variable {V : Type} [LinearOrder V] (net : Setting V)

namespace HomeChain

/-- The chain as a token contract sees it. -/
def tokenChain (h : HomeChain) : LsdToken.Chain := ⟨h.block, net.api.isAddr⟩

def addCoins (bank : Book String) (coins : List Coin) : Book String :=
  coins.foldl (fun bank coin => add bank coin.denom coin.amount) bank

/-- Send coins of the contract. -/
def bankSend (h : HomeChain) (toAddress : String) (coins : List Coin) :
    Option HomeChain :=
  match coins with
  | [coin] =>
      if coin.amount ≤ h.bank coin.denom then
        if toAddress = net.self then some h
        else some { h with bank := sub h.bank coin.denom coin.amount }
      else none
  | _ => none

/-- Run a message of the contract on another contract. -/
def wasmExecute (h : HomeChain) (contractAddr : String) :
    Cw20ExecuteMsg → Option HomeChain
  | .transfer recipient amount =>
      match h.tokens contractAddr with
      | none => some h
      | some token =>
          match LsdToken.execute token (h.tokenChain net) net.self
              (.transfer recipient amount) with
          | .ok (token, _) =>
              some { h with tokens := h.tokens.save contractAddr token }
          | .error _ => none

/-- Send a packet under an id that was never used. -/
def sendPacket (h : HomeChain) (id : Option PacketId) (channelId : String)
    (data : Ics20Packet) : Option HomeChain :=
  match id with
  | some id =>
      if id.1 = channelId ∧ !h.used.contains id then
        some { h with
          pending := h.pending.save id data
          used := id :: h.used }
      else none
  | none => none

/-- Execute a message; `none` when it fails. -/
def dispatch (h : HomeChain) (delivery : Delivery) :
    CosmosMsg → Option HomeChain
  | .bankSend toAddress coins =>
      if delivery.accepts then h.bankSend net toAddress coins else none
  | .wasmExecute contractAddr msg =>
      if delivery.accepts then h.wasmExecute net contractAddr msg else none
  | .sendPacket channelId data _ => h.sendPacket delivery.id channelId data

/-- Execute a message of a response.  A failure is reported to the contract, or
it reverts the transaction. -/
def deliver (h : HomeChain) (delivery : Delivery) (sub : SubMsg) :
    Option (HomeChain × Option Ics20Ack) :=
  match h.dispatch net delivery sub.msg with
  | some h => some (h, none)
  | none =>
      match sub.replyOnError with
      | none => none
      | some replyId =>
          match reply h.store replyId (.error delivery.error) with
          | .ok (store, data) => some ({ h with store := store }, data)
          | .error _ => none

/-- Execute the messages of a response.  The last data of a reply counts. -/
def deliverAll (delivery : Delivery) :
    HomeChain → List SubMsg → Option (HomeChain × Option Ics20Ack)
  | h, [] => some (h, none)
  | h, sub :: rest => do
      let (h, data) ← h.deliver net delivery sub
      let (h, later) ← deliverAll delivery h rest
      return (h, later <|> data)

/-- Keep the result of a handler when its messages are executed. -/
def commit (h : HomeChain) (delivery : Delivery)
    (result : Result (Storage × Response)) : Option HomeChain :=
  match result with
  | .error _ => none
  | .ok (store, rsp) =>
      (deliverAll net delivery { h with store := store } rsp.messages).map
        Prod.fst

/-- A packet as it stands on the chain. -/
def sentPacket (id : PacketId) (data : Ics20Packet) : IbcPacket where
  data := .ok data
  src := ⟨net.portId, id.1⟩
  dest := net.remoteEnd id.1

/-- A packet that arrives on a channel comes from its other end. -/
def arrivedPacket (channel : String) (data : Except String Ics20Packet) :
    IbcPacket where
  data := data
  src := net.remoteEnd channel
  dest := ⟨net.portId, channel⟩

/-- The chain after a packet has arrived, and its acknowledgement. -/
def receivePacket (h : HomeChain) (channel : String)
    (data : Except String Ics20Packet) (delivery : Delivery) :
    Option (HomeChain × Ics20Ack) :=
  let received :=
    ibcPacketReceive net.api h.store (arrivedPacket net channel data)
  (deliverAll net delivery { h with store := received.1 }
    received.2.messages).map fun (h, data) =>
      (h, data.getD received.2.acknowledgement)

/-- The tokens that a token contract sends to the contract. -/
def notify (h : HomeChain) (address : String) (id : PacketId) :
    Option LsdToken.Cw20ReceiveMsg → Option HomeChain
  | none => some h
  | some call =>
      if call.contract = net.self then
        h.commit net ⟨some id, true, ""⟩
          (executeReceive net.api h.store h.block ⟨address, []⟩
            ⟨call.sender, call.amount, net.decode call.msg⟩)
      else some h

/-- What the contract owns, as its migration asks for it. -/
def balances (h : HomeChain) : Balances where
  bank := h.bank
  cw20 address :=
    match h.tokens address with
    | some token => .ok (token.balance net.self)
    | none => .error "no such contract"

/-- What an action does at the current block; `none` when it is rejected, as a
whole.  An answer that is rejected can be delivered again. -/
def act (h : HomeChain) : Action → Option HomeChain
  | .call info msg id =>
      if info.sender ≠ net.self ∧ net.isToken info.sender = false ∧
          ∀ coin ∈ info.funds, net.isDenom coin.denom = true then
        commit net { h with bank := addCoins h.bank info.funds }
          ⟨some id, true, ""⟩ (execute net.api h.store h.block info msg)
      else none
  | .token address sender msg id =>
      if sender = net.self then none
      else
        match h.tokens address with
        | none => none
        | some token =>
            match LsdToken.execute token (h.tokenChain net) sender msg with
            | .error _ => none
            | .ok (token, received) =>
                notify net { h with tokens := h.tokens.save address token }
                  address id received
  | .create address msg =>
      if net.isToken address = true ∧ (h.tokens address).isNone = true then
        match LsdToken.instantiate (h.tokenChain net) msg with
        | .error _ => none
        | .ok token => some { h with tokens := h.tokens.save address token }
      else none
  | .connect msg =>
      match ibcChannelConnect h.store msg with
      | .error _ => none
      | .ok store => some { h with store := store }
  | .receive channel data delivery =>
      (h.receivePacket net channel data delivery).map Prod.fst
  | .ack id acknowledgement delivery =>
      match h.pending id with
      | none => none
      | some data =>
          commit net { h with pending := h.pending.remove id } delivery
            (ibcPacketAck net.api h.store (sentPacket net id data)
              acknowledgement)
  | .timeout id delivery =>
      match h.pending id with
      | none => none
      | some data =>
          commit net { h with pending := h.pending.remove id } delivery
            (ibcPacketTimeout net.api h.store (sentPacket net id data))
  | .migrate walks msg =>
      match walks h.store with
      | none => none
      | some walk =>
          match migrate net.parse (h.balances net) h.store walk msg with
          | .error _ => none
          | .ok store => some { h with store := store }
  | .donate denom amount =>
      if net.isDenom denom then
        some { h with bank := add h.bank denom amount }
      else none

/-- Height and time of the blocks never decrease. -/
def step (h : HomeChain) (ev : Event) : Option HomeChain :=
  if h.block.height ≤ ev.block.height ∧ h.block.time ≤ ev.block.time then
    { h with block := ev.block }.act net ev.action
  else none

/-- The chain right after the contract has been instantiated.  There may be
tokens already, but the contract has granted nothing of its own. -/
structure Genesis (h : HomeChain) : Prop where
  instantiated : ∃ msg, instantiate net.api msg = .ok h.store
  tokens : ∀ address token, h.tokens address = some token →
    net.isToken address = true ∧
      ∀ spender, token.allowances (net.self, spender) = none
  pending : h.pending = Map.empty
  used : h.used = []

end HomeChain

end

/-! ### A channel -/

namespace Sample

def parse (text : String) : Except String Nat :=
  if text = "1.1.2" then .ok 10102
  else if text = "0.13.0" then .ok 1300
  else if text = "0.12.0-alpha1" then .ok 1200
  else if text = "0.11.1" then .ok 1101
  else .error "invalid version"

def net : Setting Nat where
  self := "ics20"
  portId := "transfer"
  api := ⟨fun _ => none⟩
  remoteEnd := fun _ => ⟨"transfer", "channel-7"⟩
  isDenom denom := decide (denom = "untrn")
  isToken address := decide (address = "lsd")
  decode := fun _ => .ok ⟨"channel-0", "far", none, none⟩
  parse := parse
  denom_plain := by simp [show isCw20 "untrn" = false by decide]
  self_plain := by decide
  current := by
    refine ⟨10102, rfl, fun text htext old hold => ?_⟩
    rcases List.mem_pair.mp htext with rfl | rfl <;> cases hold <;> decide

def home : HomeChain where
  block := ⟨10, 1000⟩
  store :=
    { contractVersion := ⟨contractName, contractVersion⟩
      admin := some "gov"
      config := .current ⟨600, none⟩
      replyArgs := none
      channelInfo := Map.empty
      channelState := Map.empty
      allowList := Map.empty }
  bank := empty
  tokens := Map.empty
  pending := Map.empty
  used := []

theorem genesis_home : HomeChain.Genesis net home where
  instantiated := ⟨⟨600, "gov", [], none⟩, rfl⟩
  tokens := by simp [home, Map.empty]
  pending := rfl
  used := rfl

/-- A block with an action. -/
def at11 (action : Action) : Event := ⟨⟨11, 1001⟩, action⟩

def open0 : Event :=
  at11 (.connect ⟨⟨⟨"transfer", "channel-0"⟩, ⟨"transfer", "channel-7"⟩,
    .unordered, "ics20-1", "connection-2"⟩, some "ics20-1"⟩)

/-- Coins and tokens are sent over a channel. -/
def sends : List Event :=
  [open0,
    at11 (.call ⟨"ann", [⟨"untrn", 100⟩]⟩
      (.transfer ⟨"channel-0", "far", none, none⟩) ("channel-0", 1)),
    at11 (.create "lsd" ⟨"Liquid", "LSD", 6, [("ann", 50)], none⟩),
    at11 (.call ⟨"gov", []⟩ (.allow ⟨"lsd", some 200000⟩) ("channel-0", 2)),
    at11 (.token "lsd" "ann" (.send "ics20" 30 "") ("channel-0", 2))]

/-- A packet that brings coins back. -/
def voucher : Ics20Packet :=
  ⟨40, "transfer/channel-7/untrn", "ben", "far", none⟩

/-- Some coins come back, and the tokens are returned. -/
def returns : List Event :=
  [at11 (.receive "channel-0" (.ok voucher) ⟨none, true, ""⟩),
    at11 (.timeout ("channel-0", 2) ⟨none, true, ""⟩),
    at11 (.call ⟨"gov", []⟩ (.allow ⟨"lsd", some 300000⟩) ("channel-0", 3))]

end Sample

end NeutronContracts.Cw20Ics20
