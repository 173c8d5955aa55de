/-
A channel with both of its ends.  The other end mints vouchers for the packets
it accepts and burns those that it sends back, as the ICS-20 protocol asks of
it.  All other channels are left to anybody.
-/
import NeutronContracts.Chain.TransferEffect
import NeutronContracts.Lib.Escrow

namespace NeutronContracts.Cw20Ics20

open Fallible Holdings

variable {V : Type} [LinearOrder V]

/-- Whether an acknowledgement reports success. -/
def Ics20Ack.succeeded : Ics20Ack → Bool
  | .result _ => true
  | .error _ => false

/-- Whether an action delivers something of a channel. -/
def Action.onChannel (channel : String) : Action → Bool
  | .receive other _ _ => decide (other = channel)
  | .ack id _ _ => decide (id.1 = channel)
  | .timeout id _ => decide (id.1 = channel)
  | _ => false

/-- Vouchers that were sent back: their denom at home, the packet, and its
acknowledgement once it has arrived. -/
structure Return where
  denom : String
  data : Ics20Packet
  answer : Option Ics20Ack
deriving DecidableEq

def Return.released (r : Return) : Bool := r.answer.any Ics20Ack.succeeded

structure Link where
  home : HomeChain
  /-- the vouchers at the other end, by their denom at home -/
  vouchers : Book String
  /-- what the other end has answered to the packets from home -/
  answers : Map PacketId Ics20Ack
  /-- the packets of the other end that are not settled -/
  returns : Map Nat Return

inductive LinkEvent
  /-- anything that does not deliver something of the channel -/
  | home (ev : Event)
  /-- the other end gets a packet and accepts or refuses it -/
  | deliver (id : PacketId) (answer : Ics20Ack)
  | relayAnswer (id : PacketId) (block : BlockInfo) (delivery : Delivery)
  | relayTimeout (id : PacketId) (block : BlockInfo) (delivery : Delivery)
  /-- the other end burns vouchers and sends them back -/
  | redeem (n : Nat) (denom sender receiver : String) (amount : Nat)
  | relayReturn (n : Nat) (block : BlockInfo) (delivery : Delivery)
  /-- the other end learns what became of a packet, or that it timed out -/
  | closeReturn (n : Nat)

/-- The setting of a channel whose other end is honest. -/
structure Line (V : Type) [LinearOrder V] extends Setting V where
  channel : String
  port_plain : '/' ∉ (remoteEnd channel).portId.toList
  channel_plain : '/' ∉ (remoteEnd channel).channelId.toList

section

variable (line : Line V)

/-- The denom of a voucher at the other end. -/
def Line.voucher (denom : String) : String :=
  Text.join '/' [(line.remoteEnd line.channel).portId,
    (line.remoteEnd line.channel).channelId, denom]

/-- The arrival of a packet at a later block. -/
def HomeChain.receiveAt (h : HomeChain) (net : Setting V) (block : BlockInfo)
    (channel : String) (data : Except String Ics20Packet)
    (delivery : Delivery) : Option (HomeChain × Ics20Ack) :=
  if h.block.height ≤ block.height ∧ h.block.time ≤ block.time then
    { h with block := block }.receivePacket net channel data delivery
  else none

namespace Link

def step (s : Link) : LinkEvent → Option Link
  | .home ev =>
      if ev.action.onChannel line.channel then none
      else (s.home.step line.toSetting ev).map fun home =>
        { s with home := home }
  | .deliver id answer =>
      match s.home.pending id, s.answers id with
      | some data, none =>
          if id.1 = line.channel then
            some { s with
              vouchers :=
                if answer.succeeded then
                  add s.vouchers data.denom data.amount
                else s.vouchers
              answers := s.answers.save id answer }
          else none
      | _, _ => none
  | .relayAnswer id block delivery =>
      match s.answers id with
      | some answer =>
          (s.home.step line.toSetting
            ⟨block, .ack id (.ok answer) delivery⟩).map fun home =>
              { s with home := home }
      | none => none
  | .relayTimeout id block delivery =>
      if id.1 = line.channel ∧ (s.answers id).isNone then
        (s.home.step line.toSetting ⟨block, .timeout id delivery⟩).map
          fun home => { s with home := home }
      else none
  | .redeem n denom sender receiver amount =>
      if 0 < amount ∧ amount ≤ s.vouchers denom ∧ (s.returns n).isNone then
        some { s with
          vouchers := sub s.vouchers denom amount
          returns := s.returns.save n
            ⟨denom, .new amount (line.voucher denom) sender receiver, none⟩ }
      else none
  | .relayReturn n block delivery =>
      match s.returns n with
      | some ⟨denom, data, none⟩ =>
          (s.home.receiveAt line.toSetting block line.channel (.ok data)
            delivery).map fun (home, answer) =>
              { s with
                home := home
                returns := s.returns.save n ⟨denom, data, some answer⟩ }
      | _ => none
  | .closeReturn n =>
      match s.returns n with
      | some r =>
          some { s with
            vouchers :=
              if r.released then s.vouchers
              else add s.vouchers r.denom r.data.amount
            returns := s.returns.remove n }
      | none => none

/-- Nothing has been sent in either direction. -/
structure Fresh (s : Link) : Prop where
  genesis : HomeChain.Genesis line.toSetting s.home
  vouchers : s.vouchers = empty
  answers : s.answers = Map.empty
  returns : s.returns = Map.empty

/-! ### The books of a channel -/

/-- What a packet of the channel carries of a denom. -/
def weight (denom : String) (id : PacketId) (data : Ics20Packet) : Nat :=
  if (id.1, data.denom) = (line.channel, denom) then data.amount else 0

/-- Whether the vouchers of a packet have been minted. -/
def accepted (s : Link) (id : PacketId) : Bool :=
  (s.answers id).any Ics20Ack.succeeded

/-- What is on its way to the other end, or will come back from there. -/
def outgoing (s : Link) (denom : String) : Book PacketId := fun id =>
  match s.home.pending id with
  | some data => if s.accepted id then 0 else weight line denom id data
  | none => 0

/-- What is on its way back, or will return to the other end. -/
def incoming (s : Link) (denom : String) : Book Nat := fun n =>
  match s.returns n with
  | some r =>
      if r.released then 0 else if r.denom = denom then r.data.amount else 0
  | none => 0

/-- The channel as an escrow of a denom. -/
def account (s : Link) (denom : String) : Escrow.Account PacketId Nat where
  locked := s.home.store.outstanding (line.channel, denom)
  minted := s.vouchers denom
  outgoing := s.outgoing line denom
  incoming := s.incoming denom

/-- The channel at a block. -/
def atBlock (s : Link) (block : BlockInfo) : Link :=
  { s with home := { s.home with block := block } }

/-- What holds in every state that is reached. -/
structure Sound (s : Link) : Prop where
  home : HomeChain.Sound line.toSetting s.home
  answers : ∀ id, (s.answers id).isSome = true →
    id.1 = line.channel ∧ id ∈ s.home.used
  positive : ∀ id data, s.home.pending id = some data → 0 < data.amount
  returns : ∀ n r, s.returns n = some r →
    0 < r.data.amount ∧ r.data.denom = line.voucher r.denom

section

variable {line} {s s' : Link} {denom : String} {id : PacketId} {n : Nat}

theorem Sound.atBlock (hs : s.Sound line) (block : BlockInfo) :
    (s.atBlock block).Sound line :=
  ⟨hs.home.atBlock block, hs.answers, hs.positive, hs.returns⟩

/-- A voucher is read as its denom at home. -/
theorem parse_voucher :
    parseVoucherDenom (line.voucher denom) (line.remoteEnd line.channel) =
      .ok denom :=
  parseVoucherDenom_ok.mpr ⟨rfl, line.port_plain, line.channel_plain⟩

theorem outgoing_eq_update (hothers : ∀ other, other ≠ id →
      s'.home.pending other = s.home.pending other ∧
        s'.answers other = s.answers other) :
    s'.outgoing line denom =
      Function.update (s.outgoing line denom) id
        (s'.outgoing line denom id) := by
  funext other
  by_cases heq : other = id
  · subst heq
    rw [Function.update_self]
  · obtain ⟨hpending, hanswers⟩ := hothers other heq
    rw [Function.update_of_ne heq]
    unfold outgoing accepted
    rw [hpending, hanswers]

theorem incoming_eq_update (hothers : ∀ other, other ≠ n →
      s'.returns other = s.returns other) :
    s'.incoming denom =
      Function.update (s.incoming denom) n (s'.incoming denom n) := by
  funext other
  by_cases heq : other = n
  · subst heq
    rw [Function.update_self]
  · rw [Function.update_of_ne heq]
    unfold incoming
    rw [hothers other heq]

theorem outgoing_of_pending {data : Ics20Packet}
    (hdata : s.home.pending id = some data) (hopen : s.accepted id = false) :
    s.outgoing line denom id = weight line denom id data := by
  simp [outgoing, hdata, hopen]

theorem outgoing_of_none (hnone : s.home.pending id = none) :
    s.outgoing line denom id = 0 := by
  simp [outgoing, hnone]

theorem outgoing_of_other (hother : id.1 ≠ line.channel) :
    s.outgoing line denom id = 0 := by
  have hkey : ∀ other, (id.1, other) ≠ (line.channel, denom) :=
    fun other heq => hother (congrArg Prod.fst heq)
  unfold outgoing weight
  split
  · simp [hkey]
  · rfl

theorem accepted_of_none (hnone : s.answers id = none) :
    s.accepted id = false := by
  simp [accepted, hnone]

theorem incoming_of_open {r : Return} (hr : s.returns n = some r)
    (hopen : r.released = false) :
    s.incoming denom n = if r.denom = denom then r.data.amount else 0 := by
  simp [incoming, hr, hopen]

/-- Only what is on its way out under one id has changed. -/
theorem move_of_outgoing (id : PacketId) (hothers : ∀ other, other ≠ id →
      s'.home.pending other = s.home.pending other ∧
        s'.answers other = s.answers other)
    (hreturns : s'.returns = s.returns)
    (hmove : Escrow.Move (s.account line denom)
      { locked := s'.home.store.outstanding (line.channel, denom)
        minted := s'.vouchers denom
        outgoing := Function.update (s.outgoing line denom) id
          (s'.outgoing line denom id)
        incoming := s.incoming denom }) :
    Escrow.Move (s.account line denom) (s'.account line denom) := by
  have hin : s'.incoming denom = s.incoming denom := by
    unfold incoming
    rw [hreturns]
  rw [← outgoing_eq_update hothers, ← hin] at hmove
  exact hmove

/-- Only what is on its way back under one number has changed. -/
theorem move_of_incoming (n : Nat) (hpending : s'.home.pending = s.home.pending)
    (hanswers : s'.answers = s.answers)
    (hothers : ∀ other, other ≠ n → s'.returns other = s.returns other)
    (hmove : Escrow.Move (s.account line denom)
      { locked := s'.home.store.outstanding (line.channel, denom)
        minted := s'.vouchers denom
        outgoing := s.outgoing line denom
        incoming := Function.update (s.incoming denom) n
          (s'.incoming denom n) }) :
    Escrow.Move (s.account line denom) (s'.account line denom) := by
  have hout : s'.outgoing line denom = s.outgoing line denom := by
    unfold outgoing accepted
    rw [hpending, hanswers]
  rw [← incoming_eq_update hothers, ← hout] at hmove
  exact hmove

end

end Link

end

/-! ### A channel -/

namespace Sample

def line : Line Nat where
  toSetting := net
  channel := "channel-0"
  port_plain := by decide
  channel_plain := by decide

def link : Link := ⟨home, empty, Map.empty, Map.empty⟩

/-- Coins are sent and accepted, some of them are sent back, and tokens are on
their way. -/
def exchange : List LinkEvent :=
  sends.map .home ++
    [.deliver ("channel-0", 1) ackSuccess,
      .relayAnswer ("channel-0", 1) ⟨11, 1001⟩ ⟨none, true, ""⟩,
      .redeem 7 "untrn" "far" "ben" 40]

/-- The packet that brings the coins back. -/
def redeemed : Return :=
  ⟨"untrn", .new 40 (line.voucher "untrn") "far" "ben", none⟩

end Sample

end NeutronContracts.Cw20Ics20
