/-
The entry points of the IBC module: the handshake of a channel, packets that
bring tokens back, and the answers to the packets that were sent.
-/
import NeutronContracts.Cw20Ics20.State
import NeutronContracts.Lib.Path

namespace NeutronContracts.Cw20Ics20

open Fallible

def ics20Version : String := "ics20-1"

structure Ics20Packet where
  amount : Nat
  denom : String
  receiver : String
  sender : String
  memo : Option String
deriving DecidableEq, Repr

def Ics20Packet.new (amount : Nat) (denom sender receiver : String) :
    Ics20Packet where
  amount := amount
  denom := denom
  receiver := receiver
  sender := sender
  memo := none

def Ics20Packet.withMemo (packet : Ics20Packet) (memo : Option String) :
    Ics20Packet :=
  { packet with memo := memo }

/-- The amount must be a `u64`. -/
def Ics20Packet.validate (packet : Ics20Packet) : Result Unit :=
  rejectIf (U64.limit ≤ packet.amount) .amountOverflow

inductive Ics20Ack
  | result (data : String)
  | error (text : String)
deriving DecidableEq, Repr

def ackSuccess : Ics20Ack := .result "1"

def ackFail (err : String) : Ics20Ack := .error err

def receiveId : Nat := 1337

def ackFailureId : Nat := 0xfa17

/-! ### Messages -/

inductive Cw20ExecuteMsg
  | transfer (recipient : String) (amount : Nat)
deriving DecidableEq, Repr

inductive CosmosMsg
  | bankSend (toAddress : String) (amount : List Coin)
  | wasmExecute (contractAddr : String) (msg : Cw20ExecuteMsg)
  | sendPacket (channelId : String) (data : Ics20Packet) (timeout : Nat)
deriving DecidableEq, Repr

/-- A message of a response.  `replyOnError` is the id under which its failure
is reported; without one a failure reverts the transaction. -/
structure SubMsg where
  msg : CosmosMsg
  gasLimit : Option Nat
  replyOnError : Option Nat
deriving DecidableEq, Repr

structure Response where
  messages : List SubMsg
  attributes : List (String × String)

structure IbcReceiveResponse extends Response where
  acknowledgement : Ics20Ack

/-- A packet of the chain.  `data` is what `from_json` makes of its bytes: a
transfer, or the text of an error. -/
structure IbcPacket where
  data : Except String Ics20Packet
  src : IbcEndpoint
  dest : IbcEndpoint

/-- `from_json(&packet.data)?` -/
def IbcPacket.decode (packet : IbcPacket) : Result Ics20Packet :=
  packet.data.mapError .std

/-! ### Replies -/

/-- The response to a message of the contract.  A packet is acknowledged with
the data of the reply, when there is some. -/
def reply (store : Storage) (id : Nat) (result : Except String Unit) :
    Result (Storage × Option Ics20Ack) :=
  if id = receiveId then
    match result with
    | .ok _ => return (store, none)
    | .error err => do
        let replyArgs ←
          orError store.replyArgs (.std "cw20_ics20::state::ReplyArgs")
        let store ← undoReduceChannelBalance store replyArgs.channel
          replyArgs.denom replyArgs.amount
        return (store, some (ackFail err))
  else if id = ackFailureId then
    match result with
    | .ok _ => return (store, none)
    | .error err => return (store, some (ackFail err))
  else .error (.unknownReplyId id)

/-! ### Channels -/

inductive IbcOrder
  | unordered
  | ordered
deriving DecidableEq, Repr

structure IbcChannel where
  endpoint : IbcEndpoint
  counterpartyEndpoint : IbcEndpoint
  order : IbcOrder
  version : String
  connectionId : String
deriving DecidableEq, Repr

/-- The version of the counterparty is known in two of the four steps of a
handshake. -/
structure IbcChannelMsg where
  channel : IbcChannel
  counterpartyVersion : Option String

def enforceOrderAndVersion (channel : IbcChannel)
    (counterpartyVersion : Option String) : Result Unit := do
  rejectIf (channel.version ≠ ics20Version) (.invalidIbcVersion channel.version)
  match counterpartyVersion with
  | some version =>
      rejectIf (version ≠ ics20Version) (.invalidIbcVersion version)
  | none => pure ()
  rejectIf (channel.order ≠ .unordered) .onlyOrderedChannel

def ibcChannelOpen (msg : IbcChannelMsg) : Result Unit :=
  enforceOrderAndVersion msg.channel msg.counterpartyVersion

def ibcChannelConnect (store : Storage) (msg : IbcChannelMsg) :
    Result Storage := do
  enforceOrderAndVersion msg.channel msg.counterpartyVersion
  let info : ChannelInfo :=
    { id := msg.channel.endpoint.channelId
      counterpartyEndpoint := msg.channel.counterpartyEndpoint
      connectionId := msg.channel.connectionId }
  return { store with channelInfo := store.channelInfo.save info.id info }

/-- A channel is connected exactly when it may be opened with what is known of
the other end. -/
theorem ibcChannelConnect_isOk_iff {store : Storage} {msg : IbcChannelMsg} :
    (∃ store', ibcChannelConnect store msg = .ok store') ↔
      ibcChannelOpen msg = .ok () := by
  simp only [ibcChannelConnect, ibcChannelOpen, bind_eq_ok, pure_eq_ok]
  constructor
  · rintro ⟨store', _, henforce, -⟩
    exact henforce
  · intro henforce
    exact ⟨_, (), henforce, rfl⟩

/-! ### Packets that bring tokens back -/

/-- The local denom of a voucher of the expected endpoint. -/
def parseVoucherDenom (voucherDenom : String) (remoteEndpoint : IbcEndpoint) :
    Result String :=
  match Text.splitn '/' 3 voucherDenom with
  | [port, channel, denom] => do
      rejectIf (port ≠ remoteEndpoint.portId) (.fromOtherPort port)
      rejectIf (channel ≠ remoteEndpoint.channelId) (.fromOtherChannel channel)
      return denom
  | _ => .error .noForeignTokens

def checkGasLimit (api : Api) (store : Storage) :
    Amount → Result (Option Nat)
  | .cw20 coin => do
      let addr ← api.addrValidate coin.address
      match store.allowList addr with
      | some allow => return allow.gasLimit
      | none => do
          let config ← store.loadConfig
          match config.defaultGasLimit with
          | some base => return some base
          | none => .error .notOnAllowList
  | .native _ => return none

def sendAmount (amount : Amount) (recipient : String) : CosmosMsg :=
  match amount with
  | .native coin => .bankSend recipient [coin]
  | .cw20 coin => .wasmExecute coin.address (.transfer recipient coin.amount)

/-- The transfer of a packet and the local denom it names. -/
def readVoucher (packet : IbcPacket) : Result (Ics20Packet × String) := do
  let msg ← packet.decode
  let denom ← parseVoucherDenom msg.denom packet.src
  return (msg, denom)

/-- The response to a packet whose tokens are sent to the receiver. -/
def payoutResponse (msg : Ics20Packet) (denom : String)
    (gasLimit : Option Nat) : IbcReceiveResponse where
  acknowledgement := ackSuccess
  messages :=
    [⟨sendAmount (.fromParts denom msg.amount) msg.receiver, gasLimit,
      some receiveId⟩]
  attributes :=
    [("action", "receive"), ("sender", msg.sender), ("receiver", msg.receiver),
      ("denom", denom), ("amount", toString msg.amount), ("success", "true")]

/-- The work of `ibc_packet_receive`.  Its caller answers an error with an
acknowledgement, so what was written before the error stays written. -/
def doIbcPacketReceive (api : Api) (store : Storage) (packet : IbcPacket) :
    Storage × Result IbcReceiveResponse :=
  let channel := packet.dest.channelId
  match readVoucher packet with
  | .error err => (store, .error err)
  | .ok (msg, denom) =>
      match reduceChannelBalance store channel denom msg.amount with
      | .error err => (store, .error err)
      | .ok reduced =>
          let saved :=
            { reduced with
              replyArgs := some ⟨channel, denom, msg.amount⟩ }
          match checkGasLimit api saved (.fromParts denom msg.amount) with
          | .error err => (saved, .error err)
          | .ok gasLimit => (saved, .ok (payoutResponse msg denom gasLimit))

/-- The response to a packet that is refused. -/
def refusal (err : ContractError) : IbcReceiveResponse where
  acknowledgement := ackFail err.text
  messages := []
  attributes :=
    [("action", "receive"), ("success", "false"), ("error", err.text)]

def ibcPacketReceive (api : Api) (store : Storage) (packet : IbcPacket) :
    Storage × IbcReceiveResponse :=
  match doIbcPacketReceive api store packet with
  | (store, .ok rsp) => (store, rsp)
  | (store, .error err) => (store, refusal err)

/-! ### Answers to sent packets -/

/-- The attributes of an answer. -/
def answerAttributes (msg : Ics20Packet) (success : String) :
    List (String × String) :=
  [("action", "acknowledge"), ("sender", msg.sender),
    ("receiver", msg.receiver), ("denom", msg.denom),
    ("amount", toString msg.amount), ("success", success)]

def onPacketSuccess (store : Storage) (packet : IbcPacket) :
    Result (Storage × Response) := do
  let msg ← packet.decode
  return (store, ⟨[], answerAttributes msg "true"⟩)

def onPacketFailure (api : Api) (store : Storage) (packet : IbcPacket)
    (err : String) : Result (Storage × Response) := do
  let msg ← packet.decode
  let store ←
    reduceChannelBalance store packet.src.channelId msg.denom msg.amount
  let toSend := Amount.fromParts msg.denom msg.amount
  let gasLimit ← checkGasLimit api store toSend
  return (store,
    { messages :=
        [⟨sendAmount toSend msg.sender, gasLimit, some ackFailureId⟩]
      attributes := answerAttributes msg "false" ++ [("error", err)] })

/-- `acknowledgement` is what `from_json` makes of the bytes of the answer. -/
def ibcPacketAck (api : Api) (store : Storage) (packet : IbcPacket)
    (acknowledgement : Except String Ics20Ack) :
    Result (Storage × Response) := do
  match ← acknowledgement.mapError .std with
  | .result _ => onPacketSuccess store packet
  | .error err => onPacketFailure api store packet err

def ibcPacketTimeout (api : Api) (store : Storage) (packet : IbcPacket) :
    Result (Storage × Response) :=
  onPacketFailure api store packet "timeout"

/-! ### What the entry points do -/

section

variable {api : Api} {store store' : Storage} {packet : IbcPacket}
  {msg : Ics20Packet} {denom : String} {amount : Amount}

@[simp] theorem decode_eq_ok :
    packet.decode = .ok msg ↔ packet.data = .ok msg :=
  mapError_eq_ok

/-- A voucher is a local denom behind the port and the channel of the other
end. -/
theorem parseVoucherDenom_ok {voucher : String} {remote : IbcEndpoint} :
    parseVoucherDenom voucher remote = .ok denom ↔
      voucher = Text.join '/' [remote.portId, remote.channelId, denom] ∧
        '/' ∉ remote.portId.toList ∧ '/' ∉ remote.channelId.toList := by
  rw [← Text.splitn_three_iff]
  constructor
  · intro h
    unfold parseVoucherDenom at h
    split at h
    case h_1 port channel rest hsplit =>
        simp only [bind_eq_ok, rejectIf_eq_ok, Decidable.not_not,
          pure_eq_ok] at h
        obtain ⟨_, rfl, _, rfl, rfl⟩ := h
        exact hsplit
    case h_2 => cases h
  · intro hsplit
    simp [parseVoucherDenom, hsplit, rejectIf, bind, Except.bind, pure,
      Except.pure]

theorem readVoucher_ok :
    readVoucher packet = .ok (msg, denom) ↔
      packet.data = .ok msg ∧
        parseVoucherDenom msg.denom packet.src = .ok denom := by
  simp [readVoucher]

/-- Only the allow list and the configuration count. -/
theorem checkGasLimit_congr (hallow : store'.allowList = store.allowList)
    (hconfig : store'.config = store.config) (amount : Amount) :
    checkGasLimit api store' amount = checkGasLimit api store amount := by
  unfold checkGasLimit Storage.loadConfig
  rw [hallow, hconfig]

/-- What the contract makes of a packet that arrives. -/
inductive Received (api : Api) (store : Storage) (packet : IbcPacket) :
    Storage → IbcReceiveResponse → Prop
  | refused (err : ContractError) :
      Received api store packet store (refusal err)
  /-- the amount is taken back, but the token cannot be sent -/
  | unpayable (msg : Ics20Packet) (denom : String) (reduced : Storage)
      (err : ContractError) (hread : readVoucher packet = .ok (msg, denom))
      (hreduce : reduceChannelBalance store packet.dest.channelId denom
        msg.amount = .ok reduced)
      (hgas : checkGasLimit api store (.fromParts denom msg.amount) =
        .error err) :
      Received api store packet
        { reduced with
          replyArgs := some ⟨packet.dest.channelId, denom, msg.amount⟩ }
        (refusal err)
  | paid (msg : Ics20Packet) (denom : String) (reduced : Storage)
      (gasLimit : Option Nat)
      (hread : readVoucher packet = .ok (msg, denom))
      (hreduce : reduceChannelBalance store packet.dest.channelId denom
        msg.amount = .ok reduced)
      (hgas : checkGasLimit api store (.fromParts denom msg.amount) =
        .ok gasLimit) :
      Received api store packet
        { reduced with
          replyArgs := some ⟨packet.dest.channelId, denom, msg.amount⟩ }
        (payoutResponse msg denom gasLimit)

theorem ibcPacketReceive_cases (api : Api) (store : Storage)
    (packet : IbcPacket) :
    Received api store packet (ibcPacketReceive api store packet).1
      (ibcPacketReceive api store packet).2 := by
  unfold ibcPacketReceive doIbcPacketReceive
  cases hread : readVoucher packet with
  | error err => exact .refused err
  | ok pair =>
      obtain ⟨msg, denom⟩ := pair
      dsimp only
      cases hreduce : reduceChannelBalance store packet.dest.channelId denom
          msg.amount with
      | error err => exact .refused err
      | ok reduced =>
          have hsame := (reduceChannelBalance_ok hreduce).settings
          have hsaved : checkGasLimit api
              { reduced with
                replyArgs := some ⟨packet.dest.channelId, denom, msg.amount⟩ }
              (.fromParts denom msg.amount) =
                checkGasLimit api store (.fromParts denom msg.amount) :=
            checkGasLimit_congr hsame.allowList hsame.config _
          dsimp only
          rw [hsaved]
          cases hgas : checkGasLimit api store
              (.fromParts denom msg.amount) with
          | error err =>
              exact .unpayable msg denom reduced err hread hreduce hgas
          | ok gasLimit =>
              exact .paid msg denom reduced gasLimit hread hreduce hgas

/-- A failed packet takes its amount back and returns it to the sender. -/
theorem onPacketFailure_ok {err : String} {rsp : Response}
    (h : onPacketFailure api store packet err = .ok (store', rsp)) :
    ∃ msg gasLimit, packet.data = .ok msg ∧
      reduceChannelBalance store packet.src.channelId msg.denom msg.amount =
        .ok store' ∧
      rsp.messages =
        [⟨sendAmount (.fromParts msg.denom msg.amount) msg.sender, gasLimit,
          some ackFailureId⟩] := by
  simp only [onPacketFailure, bind_eq_ok, decode_eq_ok, pure_eq_ok,
    Prod.mk.injEq] at h
  obtain ⟨msg, hdata, reduced, hreduce, gasLimit, -, rfl, rfl⟩ := h
  exact ⟨msg, gasLimit, hdata, hreduce, rfl⟩

theorem onPacketFailure_total {err : String} {gasLimit : Option Nat}
    {reduced : Storage} (hdata : packet.data = .ok msg)
    (hreduce : reduceChannelBalance store packet.src.channelId msg.denom
      msg.amount = .ok reduced)
    (hgas : checkGasLimit api store (.fromParts msg.denom msg.amount) =
      .ok gasLimit) :
    ∃ rsp, onPacketFailure api store packet err = .ok (reduced, rsp) ∧
      rsp.messages =
        [⟨sendAmount (.fromParts msg.denom msg.amount) msg.sender, gasLimit,
          some ackFailureId⟩] := by
  have hsame := (reduceChannelBalance_ok hreduce).settings
  have hgas' : checkGasLimit api reduced (.fromParts msg.denom msg.amount) =
      .ok gasLimit := by
    rw [checkGasLimit_congr hsame.allowList hsame.config, hgas]
  have hdecode : packet.decode = .ok msg := decode_eq_ok.mpr hdata
  simp [onPacketFailure, hdecode, hreduce, hgas', bind, Except.bind, pure,
    Except.pure]

/-- A successful packet is done; a failed one is returned. -/
theorem ibcPacketAck_ok {acknowledgement : Except String Ics20Ack}
    {rsp : Response}
    (h : ibcPacketAck api store packet acknowledgement = .ok (store', rsp)) :
    (∃ data, acknowledgement = .ok (.result data) ∧ store' = store ∧
        rsp.messages = []) ∨
      ∃ err, acknowledgement = .ok (.error err) ∧
        onPacketFailure api store packet err = .ok (store', rsp) := by
  simp only [ibcPacketAck, bind_eq_ok, mapError_eq_ok] at h
  obtain ⟨ack, hok, h⟩ := h
  cases ack with
  | result data =>
      simp only [onPacketSuccess, bind_eq_ok, pure_eq_ok,
        Prod.mk.injEq] at h
      obtain ⟨_, -, rfl, rfl⟩ := h
      exact .inl ⟨data, hok, rfl, rfl⟩
  | error err => exact .inr ⟨err, hok, h⟩

end

end NeutronContracts.Cw20Ics20
