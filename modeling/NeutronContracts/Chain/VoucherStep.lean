/-
The events of a channel, seen as moves of an escrow for every denom, and its
runs, seen as runs of the chain of the contract.
-/
import NeutronContracts.Chain.Vouchers

namespace NeutronContracts.Cw20Ics20

open Fallible Holdings Transition

variable {V : Type} [LinearOrder V]

namespace Link

section

variable {line : Line V} {s s' last : Link} {denom : String} {id : PacketId}
  {n : Nat} {home : HomeChain} {data : Ics20Packet} {action : Action}

/-! ### Steps as moves -/

theorem sent_move (hs : s.Sound line)
    (hsent : HomeChain.Sent line.toSetting s.home id data home) :
    Escrow.Move (s.account line denom)
      ({ s with home := home }.account line denom) := by
  have hnone : s.home.pending id = none := by
    by_contra hsome
    exact hsent.fresh (hs.home.used id (Option.isSome_iff_ne_none.mpr hsome))
  have hopen : s.answers id = none := by
    by_contra hsome
    exact hsent.fresh (hs.answers id (Option.isSome_iff_ne_none.mpr hsome)).2
  refine move_of_outgoing id (fun other hother => ⟨?_, rfl⟩) rfl ?_
  · simp only [hsent.pending, Map.save_of_ne hother]
  · have hafter : ({ s with home := home } : Link).outgoing line denom id =
        weight line denom id data :=
      outgoing_of_pending (by simp [hsent.pending]) (accepted_of_none hopen)
    have hlocked : home.store.outstanding (line.channel, denom) =
        s.home.store.outstanding (line.channel, denom) +
          weight line denom id data := by
      rw [hsent.increased.outstanding, add_at, weight]
      simp only [eq_comm]
    rw [hafter, hlocked]
    exact .lock id _ (outgoing_of_none hnone)

theorem returned_move (hopen : s.accepted id = false)
    (hdata : s.home.pending id = some data)
    (hreturned : HomeChain.Returned line.toSetting s.home id data home) :
    Escrow.Move (s.account line denom)
      ({ s with home := home }.account line denom) := by
  refine move_of_outgoing id (fun other hother => ⟨?_, rfl⟩) rfl ?_
  · simp only [hreturned.pending, Map.remove_of_ne hother]
  · have hbefore : s.outgoing line denom id = weight line denom id data :=
      outgoing_of_pending hdata hopen
    have hafter : ({ s with home := home } : Link).outgoing line denom id =
        0 :=
      outgoing_of_none (by simp [hreturned.pending])
    have hlocked : home.store.outstanding (line.channel, denom) =
        s.home.store.outstanding (line.channel, denom) -
          s.outgoing line denom id := by
      rw [hbefore, hreturned.reduced.outstanding, sub_at, weight]
      simp only [eq_comm]
    rw [hafter, hlocked]
    exact .refund id

/-- A packet without weight is settled. -/
theorem settled_move (hzero : s.outgoing line denom id = 0)
    (hsettled : HomeChain.Settled s.home id home) :
    Escrow.Move (s.account line denom)
      ({ s with home := home }.account line denom) := by
  refine move_of_outgoing id (fun other hother => ⟨?_, rfl⟩) rfl ?_
  · simp only [hsettled.pending, Map.remove_of_ne hother]
  · have hafter : ({ s with home := home } : Link).outgoing line denom id =
        0 :=
      outgoing_of_none (by simp [hsettled.pending])
    rw [hafter, ← hzero, Function.update_eq_self, hsettled.store]
    exact .stay

theorem stay_move (hpending : home.pending = s.home.pending)
    (hlocked : home.store.outstanding (line.channel, denom) =
      s.home.store.outstanding (line.channel, denom)) :
    Escrow.Move (s.account line denom)
      ({ s with home := home }.account line denom) := by
  have hout : ({ s with home := home } : Link).outgoing line denom =
      s.outgoing line denom := by
    unfold outgoing accepted
    dsimp only
    rw [hpending]
  have hsame : ({ s with home := home } : Link).account line denom =
      s.account line denom := by
    rw [account, hout, hlocked]
    rfl
  rw [hsame]
  exact .stay

/-- What a packet of another channel brings back is not of this one. -/
theorem outstanding_of_other {channel : String}
    {data : Except String Ics20Packet} {delivery : Delivery} {ack : Ics20Ack}
    (hchannel : channel ≠ line.channel)
    (hreceipt : HomeChain.Receipt line.toSetting s.home channel data delivery
      home ack) :
    home.store.outstanding (line.channel, denom) =
      s.home.store.outstanding (line.channel, denom) := by
  have hkey : ∀ other, (line.channel, denom) ≠ (channel, other) :=
    fun other heq => hchannel (congrArg Prod.fst heq).symm
  cases hreceipt with
  | refused err hsettings hstate hbank htokens =>
      rw [outstanding_congr hstate]
  | unpayable msg other err hreduced hgas hbank htokens =>
      rw [hreduced.outstanding, sub_at, if_neg (hkey other), Nat.sub_zero]
  | paid msg other reduced hdata hdenom hreduced hdispatch =>
      rw [(HomeChain.sameBooks_of_dispatch hdispatch).store,
        hreduced.outstanding, sub_at, if_neg (hkey other), Nat.sub_zero]

theorem accepted_of_other (hs : s.Sound line) (hother : id.1 ≠ line.channel) :
    s.accepted id = false := by
  apply accepted_of_none
  by_contra hsome
  exact hother (hs.answers id (Option.isSome_iff_ne_none.mpr hsome)).1

/-- An action that delivers nothing of the channel. -/
theorem effect_move (hs : s.Sound line)
    (haction : action.onChannel line.channel = false)
    (heffect : HomeChain.Effect line.toSetting s.home action home) :
    Escrow.Move (s.account line denom)
      ({ s with home := home }.account line denom) := by
  cases heffect with
  | sent id data hsent => exact sent_move hs hsent
  | received channel data delivery ack hreceipt hpending hused =>
      have hchannel : channel ≠ line.channel := by
        simpa [Action.onChannel] using haction
      exact stay_move hpending (outstanding_of_other hchannel hreceipt)
  | settled id acknowledgement delivery hsettled =>
      have hchannel : id.1 ≠ line.channel := by
        simpa [Action.onChannel] using haction
      exact settled_move (outgoing_of_other hchannel) hsettled
  | returned id data delivery hanswer hdata hreturned =>
      have hchannel : id.1 ≠ line.channel := by
        rcases hanswer with rfl | ⟨err, rfl⟩ <;>
          simpa [Action.onChannel] using haction
      exact returned_move (accepted_of_other hs hchannel) hdata hreturned
  | quiet hquiet =>
      exact stay_move hquiet.pending
        (congrFun (outstanding_congr hquiet.channelState) _)

/-! ### Steps of the other end -/

/-- The vouchers that are minted are those of the packet. -/
theorem deliver_move {answer : Ics20Ack}
    (hdata : s.home.pending id = some data) (hnone : s.answers id = none)
    (hchannel : id.1 = line.channel)
    (hanswers : s'.answers = s.answers.save id answer)
    (hvouchers : s'.vouchers =
      if answer.succeeded then add s.vouchers data.denom data.amount
      else s.vouchers)
    (hhome : s'.home = s.home) (hreturns : s'.returns = s.returns) :
    Escrow.Move (s.account line denom) (s'.account line denom) := by
  have hbefore : s.outgoing line denom id = weight line denom id data :=
    outgoing_of_pending hdata (accepted_of_none hnone)
  refine move_of_outgoing id
    (fun other hother => ⟨by rw [hhome], ?_⟩) hreturns ?_
  · rw [hanswers, Map.save_of_ne hother]
  · rw [hhome]
    cases answer with
    | result text =>
        have hafter : s'.outgoing line denom id = 0 := by
          simp [outgoing, accepted, hhome, hdata, hanswers,
            Ics20Ack.succeeded]
        have hminted : s'.vouchers denom =
            s.vouchers denom + s.outgoing line denom id := by
          rw [hvouchers, hbefore, weight, hchannel]
          simp [Ics20Ack.succeeded, add_at, eq_comm]
        rw [hafter, hminted]
        exact .accept id
    | error err =>
        have hopen : s'.accepted id = false := by
          simp [accepted, hanswers, Ics20Ack.succeeded]
        have hafter : s'.outgoing line denom id =
            s.outgoing line denom id := by
          rw [hbefore, outgoing_of_pending (by rw [hhome, hdata]) hopen]
        have hminted : s'.vouchers denom = s.vouchers denom :=
          congrFun hvouchers denom
        rw [hafter, hminted, Function.update_eq_self]
        exact .stay

theorem redeem_move {r : Return} (hnone : s.returns n = none)
    (hopen : r.released = false) (hle : r.data.amount ≤ s.vouchers r.denom)
    (hvouchers : s'.vouchers = sub s.vouchers r.denom r.data.amount)
    (hreturns : s'.returns = s.returns.save n r)
    (hhome : s'.home = s.home) (hanswers : s'.answers = s.answers) :
    Escrow.Move (s.account line denom) (s'.account line denom) := by
  refine move_of_incoming n (by rw [hhome]) hanswers
    (fun other hother => by rw [hreturns, Map.save_of_ne hother]) ?_
  have hbefore : s.incoming denom n = 0 := by simp [incoming, hnone]
  have hafter : s'.incoming denom n =
      if r.denom = denom then r.data.amount else 0 :=
    incoming_of_open (by rw [hreturns, Map.save_self]) hopen
  have hminted : s'.vouchers denom =
      s.vouchers denom - s'.incoming denom n := by
    rw [hvouchers, hafter, sub_at]
    simp only [eq_comm]
  rw [hhome, hminted]
  refine .burn n _ ?_ hbefore
  rw [hafter]
  split
  · next hdenom => exact hdenom ▸ hle
  · exact Nat.zero_le _

/-- A packet that is refused stays to be undone. -/
theorem refused_move {err : String} {other : String}
    (hr : s.returns n = some ⟨other, data, none⟩)
    (hpending : home.pending = s.home.pending)
    (hlocked : home.store.outstanding = s.home.store.outstanding) :
    Escrow.Move (s.account line denom)
      ({ s with
        home := home
        returns := s.returns.save n ⟨other, data, some (ackFail err)⟩ }.account
          line denom) := by
  refine move_of_incoming n hpending rfl
    (fun k hk => Map.save_of_ne hk) ?_
  rw [incoming_of_open (Map.save_self) rfl, ← @incoming_of_open s denom n _ hr
    rfl, Function.update_eq_self]
  simp only [hlocked]
  exact .stay

/-- A packet that is paid releases what it carries. -/
theorem paid_move {reduced : Storage} {other : String}
    (hr : s.returns n = some ⟨other, data, none⟩)
    (hpending : home.pending = s.home.pending) (hstore : home.store = reduced)
    (hreduced : Reduced s.home.store (line.channel, other) data.amount
      reduced) :
    Escrow.Move (s.account line denom)
      ({ s with
        home := home
        returns := s.returns.save n ⟨other, data, some ackSuccess⟩ }.account
          line denom) := by
  refine move_of_incoming n hpending rfl
    (fun k hk => Map.save_of_ne hk) ?_
  have hafter : ({ s with
      home := home
      returns := s.returns.save n ⟨other, data, some ackSuccess⟩ } :
        Link).incoming denom n = 0 := by
    simp [incoming, Return.released, ackSuccess, Ics20Ack.succeeded]
  have hlocked : home.store.outstanding (line.channel, denom) =
      s.home.store.outstanding (line.channel, denom) -
        s.incoming denom n := by
    rw [hstore, hreduced.outstanding, sub_at, incoming_of_open hr rfl]
    simp [eq_comm]
  rw [hafter, hlocked]
  exact .release n

theorem close_move {r : Return} (hr : s.returns n = some r)
    (hvouchers : s'.vouchers =
      if r.released then s.vouchers
      else add s.vouchers r.denom r.data.amount)
    (hreturns : s'.returns = s.returns.remove n)
    (hhome : s'.home = s.home) (hanswers : s'.answers = s.answers) :
    Escrow.Move (s.account line denom) (s'.account line denom) := by
  refine move_of_incoming n (by rw [hhome]) hanswers
    (fun other hother => by rw [hreturns, Map.remove_of_ne hother]) ?_
  have hafter : s'.incoming denom n = 0 := by simp [incoming, hreturns]
  have hminted : s'.vouchers denom =
      s.vouchers denom + s.incoming denom n := by
    rw [hvouchers]
    cases hopen : r.released with
    | true => simp [incoming, hr, hopen]
    | false =>
        rw [incoming_of_open hr hopen]
        simp [add_at, eq_comm]
  rw [hhome, hafter, hminted]
  exact .restore n

/-! ### Every step -/

theorem receiveAt_eq_some {h h' : HomeChain} {net : Setting V}
    {block : BlockInfo} {channel : String} {delivery : Delivery}
    {packet : Except String Ics20Packet} {ack : Ics20Ack}
    (hreceive : h.receiveAt net block channel packet delivery =
      some (h', ack)) :
    { h with block := block }.receivePacket net channel packet delivery =
      some (h', ack) := by
  unfold HomeChain.receiveAt at hreceive
  split at hreceive
  · exact hreceive
  · cases hreceive

/-- A packet with vouchers is refused, or its amount is released. -/
theorem relayReturn_cases {delivery : Delivery} {ack : Ics20Ack}
    (hs : s.Sound line)
    (hr : s.returns n = some ⟨denom, data, none⟩)
    (hreceive : s.home.receivePacket line.toSetting line.channel (.ok data)
      delivery = some (home, ack)) :
    home.pending = s.home.pending ∧ home.used = s.home.used ∧
      ((∃ err, ack = ackFail err) ∧
          home.store.channelState = s.home.store.channelState ∨
        ack = ackSuccess ∧ ∃ reduced, home.store = reduced ∧
          Reduced s.home.store (line.channel, denom) data.amount reduced) := by
  obtain ⟨hreceipt, hpending, hused⟩ :=
    HomeChain.receivePacket_receipt hreceive
  refine ⟨hpending, hused, ?_⟩
  cases hreceipt with
  | refused err hsettings hstate hbank htokens =>
      exact .inl ⟨⟨err, rfl⟩, hstate⟩
  | unpayable msg other err hreduced hgas hbank htokens =>
      obtain ⟨gas, hpayable⟩ := hs.home.payable _ hreduced.present
      exact absurd (HomeChain.checkGasLimit_fromParts hpayable) (hgas gas)
  | paid msg other reduced hdata hdenom hreduced hdispatch =>
      obtain rfl := Except.ok.inj hdata
      rw [(hs.returns n _ hr).2, parse_voucher] at hdenom
      obtain rfl := Except.ok.inj hdenom
      exact .inr ⟨rfl, reduced,
        (HomeChain.sameBooks_of_dispatch hdispatch).store, hreduced⟩

/-- Packets that are awaited carry something. -/
theorem positive_of_effect {h h' : HomeChain} {net : Setting V}
    (hpositive : ∀ id data, h.pending id = some data → 0 < data.amount)
    (heffect : HomeChain.Effect net h action h') :
    ∀ id data, h'.pending id = some data → 0 < data.amount := by
  intro other packet hpacket
  have hremove : ∀ id, h.pending.remove id other = some packet →
      h.pending other = some packet := by
    intro id hremoved
    rw [Map.remove_apply] at hremoved
    split at hremoved
    · cases hremoved
    · exact hremoved
  cases heffect with
  | sent id data hsent =>
      rw [hsent.pending, Map.save_apply] at hpacket
      split at hpacket
      · obtain rfl := Option.some.inj hpacket
        exact hsent.positive
      · exact hpositive other packet hpacket
  | received channel data delivery ack hreceipt hpending hused =>
      exact hpositive other packet (hpending ▸ hpacket)
  | settled id acknowledgement delivery hsettled =>
      exact hpositive other packet
        (hremove id (hsettled.pending ▸ hpacket))
  | returned id data delivery hanswer hdata hreturned =>
      exact hpositive other packet
        (hremove id (hreturned.pending ▸ hpacket))
  | quiet hquiet => exact hpositive other packet (hquiet.pending ▸ hpacket)

theorem Sound.act (hs : s.Sound line)
    (hact : s.home.act line.toSetting action = some home) :
    ({ s with home := home } : Link).Sound line := by
  have heffect := HomeChain.act_effect hs.home.ungranted hs.home.version hact
  have hlasting := heffect.lasting hs.home.ungranted
  exact ⟨hs.home.act hact,
    fun id hid => ⟨(hs.answers id hid).1,
      hlasting.used id (hs.answers id hid).2⟩,
    positive_of_effect hs.positive heffect, hs.returns⟩

theorem act_of_receive {h h' : HomeChain} {net : Setting V} {channel : String}
    {delivery : Delivery} {packet : Except String Ics20Packet}
    {ack : Ics20Ack}
    (hreceive : h.receivePacket net channel packet delivery =
      some (h', ack)) :
    h.act net (.receive channel packet delivery) = some h' := by
  simp [HomeChain.act, hreceive]

theorem accepted_eq_false {answer : Ics20Ack}
    (hanswer : s.answers id = some answer)
    (hfailed : answer.succeeded = false) :
    s.accepted id = false := by
  simp [accepted, hanswer, hfailed]

/-- The answer of the other end settles a packet, or returns it. -/
theorem ack_move {answer : Ics20Ack} {delivery : Delivery} (hs : s.Sound line)
    (hanswer : s.answers id = some answer)
    (hact : s.home.act line.toSetting (.ack id (.ok answer) delivery) =
      some home) :
    Escrow.Move (s.account line denom)
      ({ s with home := home }.account line denom) := by
  obtain ⟨data, hdata, ⟨⟨text, htext⟩, hsettled⟩ | ⟨⟨err, herr⟩, hreturned⟩⟩ :=
    HomeChain.ack_settled hs.home.ungranted hact
  · obtain rfl := Except.ok.inj htext
    refine settled_move ?_ hsettled
    simp [outgoing, hdata, accepted, hanswer, Ics20Ack.succeeded]
  · obtain rfl := Except.ok.inj herr
    exact returned_move (accepted_eq_false hanswer rfl) hdata hreturned

theorem timeout_move {delivery : Delivery} (hs : s.Sound line)
    (hnone : s.answers id = none)
    (hact : s.home.act line.toSetting (.timeout id delivery) = some home) :
    Escrow.Move (s.account line denom)
      ({ s with home := home }.account line denom) := by
  obtain ⟨data, hdata, hreturned⟩ :=
    HomeChain.timeout_returned hs.home.ungranted hact
  exact returned_move (accepted_of_none hnone) hdata hreturned

theorem relayReturn_move {delivery : Delivery} {answer : Ics20Ack}
    {other : String} (hs : s.Sound line)
    (hr : s.returns n = some ⟨other, data, none⟩)
    (hreceive : s.home.receivePacket line.toSetting line.channel (.ok data)
      delivery = some (home, answer)) :
    Escrow.Move (s.account line denom)
      ({ s with
        home := home
        returns := s.returns.save n ⟨other, data, some answer⟩ }.account line
          denom) := by
  obtain ⟨hpending, -, ⟨⟨err, rfl⟩, hstate⟩ | ⟨rfl, reduced, hstore,
    hreduced⟩⟩ := relayReturn_cases hs hr hreceive
  · exact refused_move hr hpending (outstanding_congr hstate)
  · exact paid_move hr hpending hstore hreduced

/-- A number that is written keeps the packets of the other end sound. -/
theorem Sound.save {r : Return} (hs : s.Sound line)
    (hr : 0 < r.data.amount ∧ r.data.denom = line.voucher r.denom)
    (hhome : s'.home = s.home) (hanswers : s'.answers = s.answers)
    (hreturns : s'.returns = s.returns.save n r) : s'.Sound line := by
  refine ⟨hhome ▸ hs.home, by rw [hhome, hanswers]; exact hs.answers,
    by rw [hhome]; exact hs.positive, fun k other hother => ?_⟩
  rw [hreturns, Map.save_apply] at hother
  split at hother
  · obtain rfl := Option.some.inj hother
    exact hr
  · exact hs.returns k other hother

/-- Every event keeps the invariant and is a move of the escrow of every
denom. -/
theorem step_move {e : LinkEvent} (hs : s.Sound line)
    (hstep : s.step line e = some s') :
    s'.Sound line ∧
      ∀ denom, Escrow.Move (s.account line denom) (s'.account line denom) := by
  cases e with
  | home ev =>
      simp only [step] at hstep
      split at hstep
      case isTrue => cases hstep
      next haction =>
      obtain ⟨home, hhome, rfl⟩ := Option.map_eq_some_iff.mp hstep
      have hblock := hs.atBlock ev.block
      have hact := HomeChain.step_eq_some hhome
      have heffect := HomeChain.act_effect hblock.home.ungranted
        hblock.home.version hact
      exact ⟨hblock.act hact, fun denom =>
        effect_move (s := s.atBlock ev.block) hblock (by simpa using haction)
          heffect⟩
  | deliver id answer =>
      simp only [step] at hstep
      split at hstep
      case h_2 => cases hstep
      next data hdata hnone =>
      split at hstep
      case isFalse => cases hstep
      next hchannel =>
      obtain rfl := Option.some.inj hstep
      refine ⟨⟨hs.home, fun other hother => ?_, hs.positive, hs.returns⟩,
        fun denom => deliver_move hdata hnone hchannel rfl rfl rfl rfl⟩
      by_cases heq : other = id
      · subst heq
        exact ⟨hchannel, hs.home.used other (by rw [hdata]; rfl)⟩
      · dsimp only at hother
        rw [Map.save_of_ne heq] at hother
        exact hs.answers other hother
  | relayAnswer id block delivery =>
      simp only [step] at hstep
      split at hstep
      case h_2 => cases hstep
      next answer hanswer =>
      obtain ⟨home, hhome, rfl⟩ := Option.map_eq_some_iff.mp hstep
      have hblock := hs.atBlock block
      have hact := HomeChain.step_eq_some hhome
      exact ⟨hblock.act hact, fun denom =>
        ack_move (s := s.atBlock block) hblock hanswer hact⟩
  | relayTimeout id block delivery =>
      simp only [step] at hstep
      split at hstep
      case isFalse => cases hstep
      next hopen =>
      obtain ⟨home, hhome, rfl⟩ := Option.map_eq_some_iff.mp hstep
      have hblock := hs.atBlock block
      have hact := HomeChain.step_eq_some hhome
      exact ⟨hblock.act hact, fun denom =>
        timeout_move (s := s.atBlock block) hblock
          (Option.isNone_iff_eq_none.mp hopen.2) hact⟩
  | redeem n denom sender receiver amount =>
      simp only [step] at hstep
      split at hstep
      case isFalse => cases hstep
      next hguard =>
      obtain ⟨hpositive, hle, hnone⟩ := hguard
      obtain rfl := Option.some.inj hstep
      exact ⟨hs.save ⟨hpositive, rfl⟩ rfl rfl rfl, fun other =>
        redeem_move (Option.isNone_iff_eq_none.mp hnone) rfl hle rfl rfl rfl
          rfl⟩
  | relayReturn n block delivery =>
      simp only [step] at hstep
      split at hstep
      case h_2 => cases hstep
      next denom data hr =>
      obtain ⟨⟨home, answer⟩, hreceive, rfl⟩ :=
        Option.map_eq_some_iff.mp hstep
      have hblock := hs.atBlock block
      have hreceive := receiveAt_eq_some hreceive
      have hsound := hblock.act (act_of_receive hreceive)
      have hcarried := hs.returns n _ hr
      exact ⟨hsound.save (r := ⟨denom, data, some answer⟩) hcarried rfl rfl
          rfl, fun other =>
        relayReturn_move (s := s.atBlock block) hblock hr hreceive⟩
  | closeReturn n =>
      simp only [step] at hstep
      split at hstep
      case h_2 => cases hstep
      next r hr =>
      obtain rfl := Option.some.inj hstep
      refine ⟨⟨hs.home, hs.answers, hs.positive, fun k other hother => ?_⟩,
        fun denom => close_move hr rfl rfl rfl rfl⟩
      dsimp only at hother
      rw [Map.remove_apply] at hother
      split at hother
      · cases hother
      · exact hs.returns k other hother

/-! ### Runs -/

/-- What happens at home in an event of the channel. -/
theorem step_home {e : LinkEvent} (hstep : s.step line e = some s') :
    ∃ events, exec (HomeChain.step line.toSetting) s.home events =
      some s'.home := by
  have hone : ∀ {ev : Event} {home : HomeChain},
      s.home.step line.toSetting ev = some home →
      ∃ events, exec (HomeChain.step line.toSetting) s.home events =
        some home := fun hhome =>
    ⟨[_], exec_cons_eq_some.mpr ⟨_, hhome, rfl⟩⟩
  cases e with
  | home ev =>
      simp only [step] at hstep
      split at hstep
      case isTrue => cases hstep
      obtain ⟨home, hhome, rfl⟩ := Option.map_eq_some_iff.mp hstep
      exact hone hhome
  | deliver id answer =>
      simp only [step] at hstep
      split at hstep
      case h_2 => cases hstep
      split at hstep
      case isFalse => cases hstep
      obtain rfl := Option.some.inj hstep
      exact ⟨[], rfl⟩
  | relayAnswer id block delivery =>
      simp only [step] at hstep
      split at hstep
      case h_2 => cases hstep
      obtain ⟨home, hhome, rfl⟩ := Option.map_eq_some_iff.mp hstep
      exact hone hhome
  | relayTimeout id block delivery =>
      simp only [step] at hstep
      split at hstep
      case isFalse => cases hstep
      obtain ⟨home, hhome, rfl⟩ := Option.map_eq_some_iff.mp hstep
      exact hone hhome
  | redeem n denom sender receiver amount =>
      simp only [step] at hstep
      split at hstep
      case isFalse => cases hstep
      obtain rfl := Option.some.inj hstep
      exact ⟨[], rfl⟩
  | relayReturn n block delivery =>
      simp only [step] at hstep
      split at hstep
      case h_2 => cases hstep
      next denom data hr =>
      obtain ⟨⟨home, answer⟩, hreceive, rfl⟩ :=
        Option.map_eq_some_iff.mp hstep
      refine @hone ⟨block, .receive line.channel (.ok data) delivery⟩ home ?_
      unfold HomeChain.receiveAt at hreceive
      split at hreceive
      · next hlater =>
          rw [HomeChain.step, if_pos hlater]
          exact act_of_receive hreceive
      · cases hreceive
  | closeReturn n =>
      simp only [step] at hstep
      split at hstep
      case h_2 => cases hstep
      obtain rfl := Option.some.inj hstep
      exact ⟨[], rfl⟩

/-- A run of the channel is a run of the chain of the contract. -/
theorem run_home {events : List LinkEvent}
    (hrun : exec (step line) s events = some last) :
    ∃ events, exec (HomeChain.step line.toSetting) s.home events =
      some last.home := by
  induction events generalizing s with
  | nil =>
      obtain rfl := Option.some.inj hrun
      exact ⟨[], rfl⟩
  | cons e rest ih =>
      obtain ⟨next, hnext, hrest⟩ := exec_cons_eq_some.mp hrun
      obtain ⟨first, hfirst⟩ := step_home hnext
      obtain ⟨later, hlater⟩ := ih hrest
      exact ⟨first ++ later, exec_append_eq_some.mpr ⟨_, hfirst, hlater⟩⟩

end

end Link

end NeutronContracts.Cw20Ics20
