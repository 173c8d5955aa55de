/-
A channel whose other end is honest is an escrow: what is outstanding is what
circulates there as vouchers and what is on its way.  So no answer to a packet
is refused, and vouchers that are sent back are paid.
-/
import NeutronContracts.Chain.VoucherStep
import NeutronContracts.Properties.TransferSolvency

namespace NeutronContracts.Cw20Ics20

open Fallible Holdings Transition

variable {V : Type} [LinearOrder V]

/-! ### What is not refused -/

namespace HomeChain

section

variable {net : Setting V} {h : HomeChain} {data : Ics20Packet}
  {delivery : Delivery} {recipient denom err : String} {amount : Nat}

/-- What is outstanding under a known key can be paid. -/
theorem Sound.payable_of_pos (hs : Sound net h) {key : String × String}
    (hpositive : 0 < amount) (hle : amount ≤ h.store.outstanding key) :
    ∃ gas, checkGasLimit net.api h.store (.fromParts key.2 amount) =
      .ok gas := by
  have hknown : (h.store.channelState key).isSome = true := by
    cases hstate : h.store.channelState key with
    | some state => rfl
    | none =>
        rw [Storage.outstanding, hstate] at hle
        exact absurd (hpositive.trans_le hle) (lt_irrefl 0)
  obtain ⟨gas, hgas⟩ := hs.payable key hknown
  exact ⟨gas, checkGasLimit_fromParts hgas⟩

/-- What is outstanding can be returned, whatever becomes of the payment. -/
theorem commit_failure {id : PacketId} (hs : Sound net h)
    (hpositive : 0 < data.amount)
    (hle : data.amount ≤ h.store.outstanding (id.1, data.denom))
    (delivery : Delivery) (err : String) :
    ∃ h', commit net { h with pending := h.pending.remove id } delivery
      (onPacketFailure net.api h.store (sentPacket net id data) err) =
        some h' := by
  obtain ⟨reduced, hreduce⟩ := reduceChannelBalance_total hpositive hle
  obtain ⟨gas, hgas⟩ := hs.payable_of_pos hpositive hle
  obtain ⟨rsp, hfailure, hmessages⟩ :=
    @onPacketFailure_total _ _ (sentPacket net id data) data err gas reduced
      rfl hreduce hgas
  rw [hfailure]
  simp only [commit, hmessages]
  cases hdispatch : ({ h with
      pending := h.pending.remove id
      store := reduced } : HomeChain).dispatch net delivery
        (sendAmount (.fromParts data.denom data.amount) data.sender) with
  | some paid => exact ⟨paid, by rw [deliverAll_of_some hdispatch]; rfl⟩
  | none =>
      have hreply : reply reduced ackFailureId (.error delivery.error) =
          .ok (reduced, some (ackFail delivery.error)) := by
        simp [reply, ackFailureId, receiveId, pure, Except.pure]
      exact ⟨_, by rw [deliverAll_of_none hdispatch hreply]; rfl⟩

/-- A packet for what is outstanding is paid, unless the payment fails. -/
theorem receivePacket_total {channel : String} (hs : Sound net h)
    (hdenom : parseVoucherDenom data.denom (net.remoteEnd channel) =
      .ok denom)
    (hpositive : 0 < data.amount)
    (hle : data.amount ≤ h.store.outstanding (channel, denom))
    (delivery : Delivery) :
    ∃ h' ack, h.receivePacket net channel (.ok data) delivery =
        some (h', ack) ∧
      ∃ store, (∃ paid, ({ h with store := store } : HomeChain).dispatch net
          delivery (sendAmount (.fromParts denom data.amount) data.receiver) =
            some paid ∧ ack = ackSuccess) ∨
        ({ h with store := store } : HomeChain).dispatch net delivery
            (sendAmount (.fromParts denom data.amount) data.receiver) = none ∧
          ack = ackFail delivery.error := by
  obtain ⟨reduced, hreduce⟩ := reduceChannelBalance_total hpositive hle
  obtain ⟨gas, hgas⟩ := hs.payable_of_pos hpositive hle
  have hread : readVoucher (arrivedPacket net channel (.ok data)) =
      .ok (data, denom) := readVoucher_ok.mpr ⟨rfl, hdenom⟩
  have hsame := (reduceChannelBalance_ok hreduce).settings
  have hgas' : checkGasLimit net.api
      { reduced with replyArgs := some ⟨channel, denom, data.amount⟩ }
      (.fromParts denom data.amount) = .ok gas :=
    Eq.trans (checkGasLimit_congr hsame.allowList hsame.config _) hgas
  have hreceived : ibcPacketReceive net.api h.store
      (arrivedPacket net channel (.ok data)) =
        ({ reduced with replyArgs := some ⟨channel, denom, data.amount⟩ },
          payoutResponse data denom gas) := by
    have hchannel :
        (arrivedPacket net channel (.ok data)).dest.channelId = channel := rfl
    simp [ibcPacketReceive, doIbcPacketReceive, hread, hchannel, hreduce,
      hgas']
  simp only [receivePacket, hreceived, payoutResponse]
  cases hdispatch : ({ h with store :=
      { reduced with replyArgs := some ⟨channel, denom, data.amount⟩ } } :
        HomeChain).dispatch net delivery
          (sendAmount (.fromParts denom data.amount) data.receiver) with
  | some paid =>
      exact ⟨paid, ackSuccess, by rw [deliverAll_of_some hdispatch]; rfl, _,
        .inl ⟨paid, hdispatch, rfl⟩⟩
  | none =>
      obtain ⟨store, hundo⟩ := undoReduceChannelBalance_total hreduce
        (hs.bounded (channel, denom))
        (some ⟨channel, denom, data.amount⟩)
      have hreply : reply
          { reduced with replyArgs := some ⟨channel, denom, data.amount⟩ }
          receiveId (.error delivery.error) =
            .ok (store, some (ackFail delivery.error)) := by
        simp [reply, hundo, orError, bind, Except.bind, pure, Except.pure]
      exact ⟨_, ackFail delivery.error,
        by rw [deliverAll_of_none hdispatch hreply]; rfl, _,
        .inr ⟨hdispatch, rfl⟩⟩

/-- Coins that the contract has are sent, when the chain accepts it. -/
theorem dispatch_native (hdenom : isCw20 denom = false)
    (haccepts : delivery.accepts = true) (hle : amount ≤ h.bank denom) :
    ∃ h', h.dispatch net delivery
      (sendAmount (.fromParts denom amount) recipient) = some h' := by
  rw [fromParts_native hdenom]
  simp only [sendAmount, dispatch, haccepts, if_true, bankSend, hle]
  split
  · exact ⟨h, rfl⟩
  · exact ⟨_, rfl⟩

end

end HomeChain

namespace Link

section

variable {line : Line V} {s s' last : Link} {denom : String} {id : PacketId}
  {n : Nat} {data : Ics20Packet}

theorem sound_fresh (hfresh : Fresh line s) : s.Sound line := by
  obtain ⟨hgenesis, -, hanswers, hreturns⟩ := hfresh
  refine ⟨HomeChain.sound_genesis hgenesis, fun id hid => ?_,
    fun id data hdata => ?_, fun n r hr => ?_⟩
  · rw [hanswers] at hid
    cases hid
  · rw [hgenesis.pending] at hdata
    cases hdata
  · rw [hreturns] at hr
    cases hr

theorem balanced_fresh (hfresh : Fresh line s) :
    Escrow.Balanced (s.account line denom) := by
  obtain ⟨hgenesis, hvouchers, -, hreturns⟩ := hfresh
  have hout : s.outgoing line denom = empty := by
    funext id
    exact outgoing_of_none (by rw [hgenesis.pending]; rfl)
  have hin : s.incoming denom = empty := by
    funext n
    simp [incoming, hreturns, Map.empty, empty]
  refine ⟨?_, ?_, ?_⟩
  · rw [account, hout]
    exact bounded_empty
  · rw [account, hin]
    exact bounded_empty
  · simp only [account, hout, hin, total_empty, hvouchers, empty,
      Storage.outstanding, HomeChain.genesis_state hgenesis, Map.empty]
    rfl

theorem run_balanced {events : List LinkEvent} (hfresh : Fresh line s)
    (hrun : exec (step line) s events = some last) :
    last.Sound line ∧ ∀ denom, Escrow.Balanced (last.account line denom) :=
  exec_invariant
    (fun s : Link => s.Sound line ∧
      ∀ denom, Escrow.Balanced (s.account line denom))
    (fun _ _ _ hinv hstep => by
      obtain ⟨hsound, hmove⟩ := step_move hinv.1 hstep
      exact ⟨hsound, fun denom => (hinv.2 denom).move (hmove denom)⟩)
    ⟨sound_fresh hfresh, fun _ => balanced_fresh hfresh⟩ hrun

/-- What is outstanding on the channel circulates at the other end as vouchers
or is on its way, and the contract holds as much. -/
theorem vouchers_backed {events : List LinkEvent} (hfresh : Fresh line s)
    (hrun : exec (step line) s events = some last) (denom : String) :
    last.home.store.outstanding (line.channel, denom) =
        last.vouchers denom + total (last.outgoing line denom) +
          total (last.incoming denom) ∧
      (line.Backed denom →
        last.vouchers denom + total (last.outgoing line denom) +
            total (last.incoming denom) ≤
          last.home.holding line.toSetting denom) := by
  have hbalance := ((run_balanced hfresh hrun).2 denom).balance
  refine ⟨hbalance, fun hbacked => ?_⟩
  obtain ⟨home, hhome⟩ := run_home hrun
  have hcovered := HomeChain.outstanding_covered hfresh.genesis hhome hbacked
    {line.channel}
  rw [Finset.sum_singleton] at hcovered
  exact hbalance ▸ hcovered

/-- The answer to a packet is never refused: a packet that the other end has
answered can be settled or returned, and one that it has not can be timed out
and returned. -/
theorem answers_are_taken {events : List LinkEvent} (block : BlockInfo)
    (hfresh : Fresh line s) (hrun : exec (step line) s events = some last)
    (hdata : last.home.pending id = some data)
    (hchannel : id.1 = line.channel)
    (hheight : last.home.block.height ≤ block.height)
    (htime : last.home.block.time ≤ block.time) (delivery : Delivery) :
    (∀ answer, last.answers id = some answer →
      ∃ next, last.step line (.relayAnswer id block delivery) = some next) ∧
    (last.answers id = none →
      ∃ next, last.step line (.relayTimeout id block delivery) =
        some next) := by
  obtain ⟨hs, hbalanced⟩ := run_balanced hfresh hrun
  have hblock := hs.home.atBlock block
  have hpositive := hs.positive id data hdata
  have hcovered : last.accepted id = false →
      data.amount ≤ last.home.store.outstanding (id.1, data.denom) := by
    intro hopen
    have hle := (hbalanced data.denom).outgoing_le id
    have hweight : last.outgoing line data.denom id = data.amount := by
      rw [outgoing_of_pending hdata hopen, weight, if_pos (by rw [hchannel])]
    rw [hchannel]
    exact hweight.symm.trans_le hle
  have hlater : last.home.block.height ≤ block.height ∧
      last.home.block.time ≤ block.time := ⟨hheight, htime⟩
  constructor
  · intro answer hanswer
    simp only [step, hanswer, HomeChain.step, if_pos hlater, HomeChain.act,
      hdata]
    cases answer with
    | result text =>
        exact ⟨_, rfl⟩
    | error err =>
        obtain ⟨h', hcommit⟩ := HomeChain.commit_failure hblock hpositive
          (hcovered (accepted_eq_false hanswer rfl)) delivery err
        exact ⟨{ last with home := h' }, Option.map_eq_some_iff.mpr
          ⟨h', hcommit, rfl⟩⟩
  · intro hnone
    have hopen : id.1 = line.channel ∧ (last.answers id).isNone = true :=
      ⟨hchannel, by rw [hnone]; rfl⟩
    simp only [step, if_pos hopen, HomeChain.step, if_pos hlater,
      HomeChain.act, hdata]
    obtain ⟨h', hcommit⟩ := HomeChain.commit_failure hblock hpositive
      (hcovered (accepted_of_none hnone)) delivery "timeout"
    exact ⟨{ last with home := h' }, Option.map_eq_some_iff.mpr
      ⟨h', hcommit, rfl⟩⟩

/-- Vouchers that are sent back are paid, unless the payment itself fails,
which coins that the chain accepts never do. -/
theorem vouchers_are_paid {events : List LinkEvent} (block : BlockInfo)
    (hfresh : Fresh line s) (hrun : exec (step line) s events = some last)
    (hr : last.returns n = some ⟨denom, data, none⟩)
    (hheight : last.home.block.height ≤ block.height)
    (htime : last.home.block.time ≤ block.time) (delivery : Delivery) :
    ∃ next answer, last.step line (.relayReturn n block delivery) =
        some next ∧
      next.returns n = some ⟨denom, data, some answer⟩ ∧
      (answer = ackSuccess ∨ answer = ackFail delivery.error ∧
        ∃ store, ({ last.home with block := block, store := store } :
          HomeChain).dispatch line.toSetting delivery
            (sendAmount (.fromParts denom data.amount) data.receiver) =
              none) ∧
      (line.isDenom denom = true → delivery.accepts = true →
        answer = ackSuccess) := by
  obtain ⟨hs, hbalanced⟩ := run_balanced hfresh hrun
  obtain ⟨hpositive, hvoucher⟩ := hs.returns n _ hr
  have hparse : parseVoucherDenom data.denom (line.remoteEnd line.channel) =
      .ok denom := hvoucher ▸ parse_voucher
  have hle : data.amount ≤
      last.home.store.outstanding (line.channel, denom) := by
    have hcarried := (hbalanced denom).incoming_le n
    have hin : last.incoming denom n = data.amount :=
      (incoming_of_open hr rfl).trans (if_pos rfl)
    exact hin.symm.trans_le hcarried
  obtain ⟨home, answer, hreceive, store, hpaid⟩ :=
    HomeChain.receivePacket_total (hs.home.atBlock block) hparse
      hpositive hle delivery
  have hreceiveAt : last.home.receiveAt line.toSetting block line.channel
      (.ok data) delivery = some (home, answer) := by
    rw [HomeChain.receiveAt, if_pos ⟨hheight, htime⟩]
    exact hreceive
  refine ⟨{ last with
      home := home
      returns := last.returns.save n ⟨denom, data, some answer⟩ }, answer,
    by simp [step, hr, hreceiveAt], Map.save_self, ?_,
    fun hdenom haccepts => ?_⟩
  · rcases hpaid with ⟨_, -, rfl⟩ | ⟨hdispatch, rfl⟩
    · exact .inl rfl
    · exact .inr ⟨rfl, store, hdispatch⟩
  · rcases hpaid with ⟨_, -, rfl⟩ | ⟨hdispatch, -⟩
    · rfl
    · -- the contract holds what is outstanding
      have hplain := line.denom_plain denom hdenom
      obtain ⟨hhome, hrunHome⟩ := run_home hrun
      have hcovered := HomeChain.outstanding_covered hfresh.genesis hrunHome
        (.inl hdenom) {line.channel}
      rw [Finset.sum_singleton, HomeChain.holding_native hplain] at hcovered
      obtain ⟨h', hsent⟩ := @HomeChain.dispatch_native V _ line.toSetting
        { last.home with block := block, store := store } delivery
        data.receiver denom data.amount hplain haccepts (hle.trans hcovered)
      rw [hsent] at hdispatch
      cases hdispatch

theorem fresh_sample : Fresh Sample.line Sample.link :=
  ⟨Sample.genesis_home, rfl, rfl, rfl⟩

theorem vouchers_backed_sample :
    ∃ last, exec (step Sample.line) Sample.link Sample.exchange =
        some last ∧
      last.vouchers "untrn" = 60 ∧
      last.home.store.outstanding ("channel-0", "untrn") =
        last.vouchers "untrn" + total (last.outgoing Sample.line "untrn") +
          total (last.incoming "untrn") := by
  have hrun : (exec (step Sample.line) Sample.link Sample.exchange).map
      (fun last => last.vouchers "untrn") = some 60 := by
    decide +kernel
  obtain ⟨last, hrun, hvouchers⟩ := Option.map_eq_some_iff.mp hrun
  exact ⟨last, hrun, hvouchers, (vouchers_backed fresh_sample hrun _).1⟩

theorem answers_are_taken_sample :
    ∃ last next, exec (step Sample.line) Sample.link Sample.exchange =
        some last ∧
      last.step Sample.line (.relayTimeout ("channel-0", 2) ⟨12, 1002⟩
        ⟨none, false, "out of gas"⟩) = some next := by
  have hrun : (exec (step Sample.line) Sample.link Sample.exchange).map
      (fun last => (last.home.pending ("channel-0", 2),
        (last.answers ("channel-0", 2)).isNone,
        last.home.block.height, last.home.block.time)) =
          some (some (.new 30 "cw20:lsd" "ann" "far"), true, 11, 1001) := by
    decide +kernel
  obtain ⟨last, hrun, hlast⟩ := Option.map_eq_some_iff.mp hrun
  simp only [Prod.mk.injEq, Option.isNone_iff_eq_none] at hlast
  obtain ⟨hdata, hnone, hheight, htime⟩ := hlast
  obtain ⟨next, hnext⟩ := (answers_are_taken ⟨12, 1002⟩
    fresh_sample hrun hdata rfl (by rw [hheight]; decide)
    (by rw [htime]; decide) ⟨none, false, "out of gas"⟩).2 hnone
  exact ⟨last, next, hrun, hnext⟩

theorem vouchers_are_paid_sample :
    ∃ last next answer, exec (step Sample.line) Sample.link
        Sample.exchange = some last ∧
      last.step Sample.line (.relayReturn 7 ⟨12, 1002⟩ ⟨none, true, ""⟩) =
        some next ∧
      (next.returns 7).bind Return.answer = some answer ∧
      answer = ackSuccess := by
  have hrun : (exec (step Sample.line) Sample.link Sample.exchange).map
      (fun last => (last.returns 7, last.home.block.height,
        last.home.block.time)) = some (some Sample.redeemed, 11, 1001) := by
    decide +kernel
  obtain ⟨last, hrun, hlast⟩ := Option.map_eq_some_iff.mp hrun
  simp only [Prod.mk.injEq] at hlast
  obtain ⟨hr, hheight, htime⟩ := hlast
  obtain ⟨next, answer, hstep, hnext, -, hpaid⟩ :=
    vouchers_are_paid ⟨12, 1002⟩ fresh_sample hrun hr
      (by rw [hheight]; decide) (by rw [htime]; decide) ⟨none, true, ""⟩
  exact ⟨last, next, answer, hrun, hstep, by rw [hnext]; rfl,
    hpaid (by decide) rfl⟩

end

end Link

end NeutronContracts.Cw20Ics20
