/-
The chain around the stake manager: the token contracts it creates, the
packets it has sent and that are not answered yet, and the transactions,
answers and handshakes that can happen in any order.
-/
import NeutronContracts.LsdToken.Token
import NeutronContracts.Lib.Transition
import NeutronContracts.StakeManager.Contract

namespace NeutronContracts

open StakeManager

/-- What stays the same during a run. -/
structure Network where
  /-- the address of the stake manager -/
  self : String
  /-- the account on the host chain of an interchain account id -/
  hostAddr : String → String
  self_plain : '.' ∉ self.toList

/-- Channel and sequence. -/
abbrev PacketId := String × Nat

/-- A packet that waits for its answer.  The payload, the sender and the call
that sent it are remembered to state properties. -/
structure Packet where
  msg : CosmosMsg
  payload : Option SudoPayload
  sender : String
  origin : ExecuteMsg

structure World where
  block : BlockInfo
  store : Storage
  tokens : Map String LsdToken.Token
  /-- delegator to the validators whose delegations are watched -/
  watched : Map String (List String)
  nextQueryId : Nat
  pending : Map PacketId Packet
  /-- the packets ever sent -/
  used : List PacketId

inductive Answer
  | success
  | error
  | timeout
deriving DecidableEq, Repr

inductive Action
  /-- a transaction; `id` is the packet it sends, if it sends one -/
  | execute (querier : Querier) (info : MessageInfo) (msg : ExecuteMsg)
      (id : PacketId)
  /-- the answer to a packet; `bankAccepts` tells whether the bank executes
  the transfer a callback may ask for -/
  | answer (id : PacketId) (answer : Answer) (querier : Querier)
      (bankAccepts : Bool)
  /-- the channel of an interchain account is open -/
  | openAck (icaId channelId counterpartyChannelId : String)
      (hostConnectionId : Option String)
  | kvQueryResult (queryId : Nat) (querier : Querier)
  /-- a call of a token by anyone but the stake manager -/
  | token (addrValidate : String → Bool) (address sender : String)
      (msg : LsdToken.ExecuteMsg)

structure Event where
  block : BlockInfo
  action : Action

/-- The accounts of the chain: lower-case bech32 with its prefix. -/
def isAccount (s : String) : Bool :=
  "neutron1".toList.isPrefixOf s.toList &&
    s.toList.all fun c => c.isLower || c.isDigit

namespace World

/-- Why messages are delivered: with the packet and the call for a
transaction, without for a callback. -/
structure Delivery where
  querier : Querier
  bankAccepts : Bool
  call : Option (PacketId × String × ExecuteMsg)

def tokenCall : LsdTokenMsg → LsdToken.ExecuteMsg
  | .mint recipient amount => .mint recipient amount
  | .transferFrom owner recipient amount => .transferFrom owner recipient amount
  | .burnFrom owner amount => .burnFrom owner amount

/-- Run a message on a token contract; `none` when it fails. -/
def runToken (w : World) (addrValidate : String → Bool)
    (address sender : String) (msg : LsdToken.ExecuteMsg) : Option World :=
  match w.tokens address with
  | none => none
  | some token =>
      match LsdToken.execute token ⟨w.block, addrValidate⟩ sender msg with
      | .error _ => none
      | .ok (token, _) =>
          some { w with tokens := w.tokens.save address token }

/-- Create a token contract at its predictable address, which must be free. -/
def createToken (net : Network) (querier : Querier) (w : World)
    (codeId : Nat) (msg : LsdInstantiateMsg) (salt : String) : Option World :=
  match (querier.codeChecksum codeId).bind fun checksum =>
      querier.instantiate2Address checksum net.self salt with
  | none => none
  | some address =>
      if (w.tokens address).isSome then none
      else
        match LsdToken.instantiate ⟨w.block, querier.addrValidate⟩
            { name := msg.name
              symbol := msg.symbol
              decimals := msg.decimals
              initialBalances := []
              mint := some ⟨msg.mintAdmin, msg.minter, none⟩ } with
        | .error _ => none
        | .ok token => some { w with tokens := w.tokens.save address token }

/-- Deliver the response to a sub-message to the stake manager. -/
def deliverReply (w : World) (replyId : Option Nat) (data : ReplyData) :
    Option World :=
  match replyId with
  | none => some w
  | some id =>
      match reply w.store ⟨id, data⟩ with
      | .error _ => none
      | .ok store => some { w with store := store }

/-- Send a packet under an id that was never used. -/
def sendPacket (w : World) (delivery : Delivery) (sub : SubMsg) :
    Option World :=
  match delivery.call with
  | none => none
  | some (id, sender, origin) =>
      if id ∈ w.used then none
      else
        deliverReply
          { w with
            pending := w.pending.save id ⟨sub.msg, sub.payload, sender, origin⟩
            used := id :: w.used }
          sub.replyOnSuccess (.ibcTransferResponse id.2 id.1)

/-- The delegations a query watches from now on. -/
def watch (w : World) (keys : Option KVKeys) : World :=
  match keys with
  | some (.delegations delegator validators _) =>
      { w with watched := w.watched.save delegator validators }
  | _ => w

def registerQuery (w : World) (sub : SubMsg) (keys : KVKeys) : Option World :=
  deliverReply ({ w with nextQueryId := w.nextQueryId + 1 }.watch (some keys))
    sub.replyOnSuccess (.registerInterchainQueryResponse w.nextQueryId)

/-- Execute one message of a response. -/
def deliver (net : Network) (delivery : Delivery) (w : World) (sub : SubMsg) :
    Option World :=
  match sub.msg with
  | .wasmExecute address msg =>
      w.runToken delivery.querier.addrValidate address net.self (tokenCall msg)
  | .wasmInstantiate2 _ codeId msg _ salt =>
      w.createToken net delivery.querier codeId msg salt
  | .bankSend _ _ => if delivery.bankAccepts then some w else none
  | .ibcTransfer _ => w.sendPacket delivery sub
  | .submitTx _ => w.sendPacket delivery sub
  | .registerInterchainAccount _ _ _ => some w
  | .registerInterchainQuery _ keys _ => w.registerQuery sub keys
  | .updateInterchainQuery _ newKeys _ => some (w.watch newKeys)

/-- Execute the messages of a response in order; the first one that fails
reverts all of them. -/
def deliverAll (net : Network) (delivery : Delivery) (w : World)
    (subs : List SubMsg) : Option World :=
  Transition.exec (deliver net delivery) w subs

def env (net : Network) (w : World) : Env := ⟨w.block, net.self⟩

/-- Keep the result of a handler when all its messages are executed. -/
def commit (net : Network) (delivery : Delivery) (w : World)
    (result : NeutronResult (Storage × Response)) : Option World :=
  match result with
  | .error _ => none
  | .ok (store, rsp) =>
      deliverAll net delivery { w with store := store } rsp.messages

def answerMsg (id : PacketId) (answer : Answer) : SudoMsg :=
  let request : RequestPacket := ⟨some id.2, some id.1⟩
  match answer with
  | .success => .response request
  | .error => .error request
  | .timeout => .timeout request

/-- What an action does at the current block; `none` when it is rejected, as a
whole.  The answer to a packet cannot be rejected: when its handler fails, the
packet is answered and the storage stays as it was. -/
def act (net : Network) (w : World) : Action → Option World
  | .execute querier info msg id =>
      if isAccount info.sender then
        w.commit net ⟨querier, true, some (id, info.sender, msg)⟩
          (execute w.store querier (w.env net) info msg)
      else none
  | .answer id answer querier bankAccepts =>
      match w.pending id with
      | none => none
      | some _ =>
          let w := { w with pending := w.pending.remove id }
          some ((w.commit net ⟨querier, bankAccepts, none⟩
            (sudoEntry w.store (w.env net) (answerMsg id answer))).getD w)
  | .openAck icaId channelId counterpartyChannelId hostConnectionId =>
      match sudoEntry w.store (w.env net)
          (.openAck (getPortId net.self icaId) channelId counterpartyChannelId
            (hostConnectionId.map (⟨·, net.hostAddr icaId⟩))) with
      | .error _ => none
      | .ok (store, _) => some { w with store := store }
  | .kvQueryResult queryId querier =>
      w.commit net ⟨querier, true, none⟩
        (sudoEntry w.store (w.env net) (.kvQueryResult queryId))
  | .token addrValidate address sender msg =>
      if sender = net.self then none
      else w.runToken addrValidate address sender msg

/-- Height and time of the blocks never decrease. -/
def step (net : Network) (w : World) (ev : Event) : Option World :=
  if w.block.height ≤ ev.block.height ∧ w.block.time ≤ ev.block.time then
    { w with block := ev.block }.act net ev.action
  else none

/-- The chain right after the stake manager has been instantiated. -/
def genesis (block : BlockInfo) (info : MessageInfo) (lsdTokenCodeId : Nat) :
    World where
  block := block
  store := instantiate info lsdTokenCodeId
  tokens := Map.empty
  watched := Map.empty
  nextQueryId := 1
  pending := Map.empty
  used := []

end World

/-! ### A sample run -/

namespace Sample

def pool : String := "cosmos1qqqqqqqqqqqqqqqqqqqqqqqqqqqqqqqqqqpool"
def withdrawAccount : String := "cosmos1qqqqqqqqqqqqqqqqqqqqqqqqqqwithdraw"
def admin : String := "neutron1admin"
def user : String := "neutron1user"

def net : Network where
  self := "neutron1manager"
  hostAddr icaId := if icaId = "pool" then pool else withdrawAccount
  self_plain := by decide

/-- The answers of the chain: query results submitted at `height`, with the
delegations of the pool and the balance of its withdraw account. -/
def querier (height : Nat) (delegations : List (String × Nat))
    (balance : Nat) : Querier where
  minIbcFee := some ⟨[], [⟨"untrn", 1⟩], [⟨"untrn", 1⟩]⟩
  queryDeposit := some [⟨"untrn", 1⟩]
  denomTrace hash :=
    if hash = "ATOM" then some ⟨"transfer/channel-7", "uatom"⟩
    else if hash = "SHARE" then some ⟨"transfer/channel-7", "val1/1"⟩
    else if hash = "FORGED" then some ⟨"transfer/channel-9", "val1/1"⟩
    else none
  registeredQuery _ := some ⟨true, height⟩
  kvDelegations _ _ := some (delegations.map fun d =>
    ⟨pool, d.1, ⟨"uatom", d.2⟩⟩)
  kvBalances _ _ := some [⟨"uatom", balance⟩]
  kvValidators _ := some [⟨"val1", "1000", "1000000000000000000000"⟩]
  codeChecksum _ := some "checksum"
  instantiate2Address _ _ salt := some salt
  decodeAndConvert _ := true
  addrValidate _ := true

/-- A block a day. -/
def day (n : Nat) : BlockInfo := ⟨n, n * 86400000000000⟩

def fee : List Coin := [⟨"untrn", 100⟩]

/-- The packets a pool sends over the channel of its interchain account. -/
def packetId (sequence : Nat) : PacketId := ("channel-0", sequence)

/-- A transaction on day `n` that pays the fee of a packet. -/
def call (n : Nat) (querier : Querier) (msg : ExecuteMsg) (id : PacketId) :
    Event :=
  ⟨day n, .execute querier ⟨admin, fee⟩ msg id⟩

def ack (n : Nat) (answer : Answer) (id : PacketId) : Event :=
  ⟨day n, .answer id answer (querier 0 [] 0) true⟩

def stake (n amount : Nat) : Event :=
  ⟨day n, .execute (querier 0 [] 0) ⟨user, [⟨"ibc/ATOM", amount⟩]⟩
    (.stake user pool) (packetId 0)⟩

def initParams : InitPoolParams where
  interchainAccountId := "pool"
  ibcDenom := "ibc/ATOM"
  channelIdOfIbcDenom := "channel-7"
  remoteDenom := "uatom"
  validatorAddrs := ["val1", "val2"]
  platformFeeReceiver := "neutron1fees"
  lsdCodeId := some 1
  lsdTokenName := "stATOM"
  lsdTokenSymbol := "stATOM"
  minimalStake := 1
  unbondingPeriod := 1
  platformFeeCommission := none
  eraSeconds := none
  sdkGreaterOrEqualV047 := true

def genesis : World := World.genesis (day 1) ⟨admin, []⟩ 1

def run (evs : List Event) : Option World :=
  Transition.exec (World.step net) genesis evs

/-- A pool is registered and initialised. -/
def setup : List Event := [
  call 1 (querier 0 [] 0) (.registerPool "connection-0" "pool") (packetId 0),
  ⟨day 1, .openAck "pool" "channel-0" "channel-0" (some "connection-1")⟩,
  ⟨day 1, .openAck "pool-withdraw_addr" "channel-1" "channel-1"
    (some "connection-1")⟩,
  call 1 (querier 0 [] 0) (.initPool initParams) (packetId 1),
  ack 1 .success (packetId 1)]

/-- The first stake, bonded on the next day. -/
def firstBond : List Event := [
  stake 1 1000,
  call 2 (querier 0 [] 0) (.eraUpdate pool) (packetId 2),
  ack 2 .success (packetId 2),
  call 2 (querier 0 [] 0) (.eraBond pool ["val1"]) (packetId 3),
  ack 2 .success (packetId 3)]

/-- A reward of 50 is collected on the day after. -/
def collected : List Event := [
  call 3 (querier 3 [("val1", 1000)] 50) (.eraCollectWithdraw pool)
    (packetId 4),
  ack 3 .success (packetId 4)]

/-- The reward is delegated and the era ends. -/
def activated : List Event := [
  call 3 (querier 3 [] 0) (.eraRebond pool ["val1"]) (packetId 5),
  ack 3 .success (packetId 5),
  call 4 (querier 4 [("val1", 1050)] 0) (.eraActive pool) (packetId 0)]

/-- The first era from the first stake to the new rate. -/
def firstEra : List Event := firstBond ++ collected ++ activated

/-- A configuration that changes nothing. -/
def unchanged : ConfigPoolParams where
  poolAddr := pool
  platformFeeReceiver := none
  minimalStake := none
  unstakeTimesLimit := none
  unbondingPeriod := none
  unbondCommission := none
  platformFeeCommission := none
  eraSeconds := none
  paused := none
  lsmSupport := none
  lsmPendingLimit := none
  rateChangeLimit := none
  newAdmin := none

def configure (n : Nat) (param : ConfigPoolParams) : Event :=
  call n (querier 0 [] 0) (.configPool param) (packetId 0)

/-- Shares may be staked. -/
def allowLsm : Event := configure 1 { unchanged with lsmSupport := some true }

def stakeLsm (n amount : Nat) (denom : String) (id : PacketId) : Event :=
  ⟨day n, .execute (querier n [] 0) ⟨user, [⟨denom, amount⟩]⟩
    (.stakeLsm user pool) id⟩

/-- The token of the pool. -/
def lsdToken : String := "cosmos1qqqqqqqqqqqqqqqqqqqqqqqqqqqqqqqqq"

/-- The user allows the stake manager to burn tokens. -/
def allowBurn (n amount : Nat) : Event :=
  ⟨day n, .token (fun _ => true) lsdToken user
    (.increaseAllowance net.self amount none)⟩

def unstake (n amount : Nat) : Event :=
  ⟨day n, .execute (querier 0 [] 0) ⟨user, []⟩ (.unstake amount pool)
    (packetId 0)⟩

def withdraw (n : Nat) (receiver : String) (indexes : List Nat)
    (id : PacketId) : Event :=
  ⟨day n, .execute (querier 0 [] 0) ⟨user, fee⟩
    (.withdraw pool receiver indexes) id⟩

/-- A test that a run passes holds of the pool it leads to. -/
theorem exists_of_run (evs : List Event) (test : World → PoolInfo → Bool)
    (h : (run evs).any (fun w => (w.store.pools pool).any (test w)) = true) :
    ∃ w p, run evs = some w ∧ w.store.pools pool = some p ∧
      test w p = true := by
  obtain ⟨w, hw, hany⟩ := (Option.any_eq_true _ _).mp h
  obtain ⟨p, hp, htest⟩ := (Option.any_eq_true _ _).mp hany
  exact ⟨w, p, hw, hp, htest⟩

end Sample

end NeutronContracts
