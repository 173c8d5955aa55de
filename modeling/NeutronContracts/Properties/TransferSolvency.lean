/-
What is outstanding on the channels is covered by what the contract holds, no
channel gets more than was sent over it, and a packet is paid or refused as a
whole.  The other ends of the channels can do what they like.
-/
import NeutronContracts.Chain.TransferEffect
import NeutronContracts.Lib.Custody

namespace NeutronContracts.Cw20Ics20

open Fallible Holdings Transition

variable {V : Type} [LinearOrder V]

namespace HomeChain

/-! ### Solvency -/

/-- What is outstanding of a denom, by channel. -/
def owed (h : HomeChain) (denom channel : String) : ℤ :=
  h.store.outstanding (channel, denom)

/-- The contract holds what is outstanding, of every denom that stands for
something. -/
def Solvent (net : Setting V) (h : HomeChain) : Prop :=
  ∀ denom, net.Backed denom →
    Custody.Covered (fun _ => True) (h.owed denom) (h.holding net denom)

section

variable {net : Setting V} {h h' last : HomeChain} {denom : String}
  {key : String × String} {events later : List Event}

theorem Solvent.of_le (hsolvent : Solvent net h)
    (hout : h'.store.outstanding = h.store.outstanding)
    (hholding : ∀ denom, h.holding net denom ≤ h'.holding net denom) :
    Solvent net h' := by
  intro denom hbacked channels hmem
  have hle : (h.holding net denom : ℤ) ≤ h'.holding net denom := by
    exact_mod_cast hholding denom
  have hsame : h'.owed denom = h.owed denom := by
    unfold owed
    rw [hout]
  rw [hsame]
  exact (hsolvent denom hbacked channels hmem).trans hle

/-- What is written under one key stays below what came in or left. -/
theorem Solvent.of_change {n : Nat} (hsolvent : Solvent net h)
    (hout : h'.store.outstanding = Function.update h.store.outstanding key n)
    (hothers : ∀ denom, denom ≠ key.2 →
      h.holding net denom ≤ h'.holding net denom)
    (hself : net.Backed key.2 →
      n + h.holding net key.2 ≤
        h.store.outstanding key + h'.holding net key.2) :
    Solvent net h' := by
  intro denom hbacked
  by_cases hdenom : denom = key.2
  · subst hdenom
    have hchange := hself hbacked
    have hbalance : (h'.holding net key.2 : ℤ) = h.holding net key.2 +
        ((h'.holding net key.2 : ℤ) - h.holding net key.2) := by omega
    have hbefore : h.owed key.2 key.1 = h.store.outstanding key := rfl
    have hafter : h'.owed key.2 key.1 = n := by
      rw [owed, hout, Function.update_self]
    rw [hbalance]
    refine (hsolvent key.2 hbacked).step (b := key.1) (fun channel hne _ => ?_)
      (.inr ⟨trivial, by omega⟩) (fun _ => .inl ⟨trivial, by omega⟩)
    have hother : (channel, key.2) ≠ key := fun heq =>
      hne (congrArg Prod.fst heq)
    refine ⟨trivial, ?_⟩
    rw [owed, owed, hout, Function.update_of_ne hother]
  · intro channels hmem
    have hle : (h.holding net denom : ℤ) ≤ h'.holding net denom := by
      exact_mod_cast hothers denom hdenom
    have hsame : h'.owed denom = h.owed denom := by
      funext channel
      have hother : (channel, denom) ≠ key := fun heq =>
        hdenom (congrArg Prod.snd heq)
      rw [owed, owed, hout, Function.update_of_ne hother]
    rw [hsame]
    exact (hsolvent denom hbacked channels hmem).trans hle

/-- What is taken back under a key may leave the contract. -/
theorem Solvent.of_reduced {amount : Nat} (hsolvent : Solvent net h)
    (hreduced : Reduced h.store key amount h'.store)
    (hholding : ∀ other, h.holding net other ≤ h'.holding net other +
      if other = key.2 then amount else 0) : Solvent net h' := by
  refine hsolvent.of_change hreduced.outstanding (fun other hother => ?_)
    (fun _ => ?_)
  · have hle := hholding other
    rwa [if_neg hother] at hle
  · have hle := hholding key.2
    have hcovered := hreduced.covered
    rw [if_pos rfl] at hle
    omega

theorem Solvent.of_receipt {channel : String}
    {data : Except String Ics20Packet} {delivery : Delivery} {ack : Ics20Ack}
    (hsolvent : Solvent net h) (hu : Ungranted net h.tokens)
    (hreceipt : Receipt net h channel data delivery h' ack) :
    Solvent net h' := by
  cases hreceipt with
  | refused err hsettings hstate hbank htokens =>
      exact hsolvent.of_le (outstanding_congr hstate) fun other =>
        (congrFun (holding_congr hbank htokens) other).ge
  | unpayable msg denom err hreduced hgas hbank htokens =>
      refine hsolvent.of_reduced hreduced fun other => ?_
      rw [holding_congr hbank htokens]
      exact Nat.le_add_right _ _
  | paid msg denom reduced hdata hdenom hreduced hdispatch =>
      have hu' : Ungranted net
          ({ h with store := reduced } : HomeChain).tokens := hu
      obtain ⟨⟨hstore, -, -⟩, -, hholding⟩ := paid_of_dispatch hu' hdispatch
      have hreduced' : Reduced h.store (channel, denom) msg.amount h'.store :=
        hstore ▸ hreduced
      exact hsolvent.of_reduced hreduced' hholding

theorem Solvent.effect {action : Action} (hsolvent : Solvent net h)
    (hu : Ungranted net h.tokens) (heffect : Effect net h action h') :
    Solvent net h' := by
  cases heffect with
  | sent id data hsent =>
      refine hsolvent.of_change hsent.increased.outstanding
        (fun other _ => hsent.holding other) (fun hbacked => ?_)
      have harrived := hsent.arrived hbacked
      dsimp only
      omega
  | received channel data delivery ack hreceipt hpending hused =>
      exact hsolvent.of_receipt hu hreceipt
  | settled id acknowledgement delivery hsettled =>
      exact hsolvent.of_le (by rw [hsettled.store]) fun other =>
        (congrFun (holding_congr hsettled.bank hsettled.tokens) other).ge
  | returned id data delivery haction hdata hreturned =>
      exact hsolvent.of_reduced hreturned.reduced hreturned.holding
  | quiet hquiet =>
      exact hsolvent.of_le (outstanding_congr hquiet.channelState)
        hquiet.holding

theorem Solvent.step {ev : Event} (hsolvent : Solvent net h)
    (hs : Sound net h) (hstep : h.step net ev = some h') :
    Solvent net h' := by
  have hblock : Solvent net { h with block := ev.block } := hsolvent
  exact hblock.effect hs.ungranted
    (act_effect hs.ungranted hs.version (step_eq_some hstep))

theorem genesis_state (hgenesis : Genesis net h) :
    h.store.channelState = Map.empty := by
  obtain ⟨msg, hinstantiate⟩ := hgenesis.instantiated
  simp only [instantiate, bind_eq_ok, pure_eq_ok] at hinstantiate
  obtain ⟨_, -, _, -, hstore⟩ := hinstantiate
  rw [← hstore]

theorem solvent_genesis (hgenesis : Genesis net h) : Solvent net h := by
  intro denom _ channels _
  have hzero : ∀ channel, h.owed denom channel = 0 := fun channel => by
    simp [owed, Storage.outstanding, genesis_state hgenesis, Map.empty]
  simp [hzero]

theorem solvent_run (hgenesis : Genesis net h)
    (hrun : exec (HomeChain.step net) h events = some last) :
    Sound net last ∧ Solvent net last :=
  exec_invariant (fun h => Sound net h ∧ Solvent net h)
    (fun _ _ _ hinv hstep => ⟨hinv.1.step hstep, hinv.2.step hinv.1 hstep⟩)
    ⟨sound_genesis hgenesis, solvent_genesis hgenesis⟩ hrun

/-- What is outstanding of a denom, on all channels together, is held by the
contract. -/
theorem outstanding_covered (hgenesis : Genesis net h)
    (hrun : exec (HomeChain.step net) h events = some last)
    (hbacked : net.Backed denom) (channels : Finset String) :
    ∑ channel ∈ channels, last.store.outstanding (channel, denom) ≤
      last.holding net denom := by
  have hlast := solvent_run hgenesis hrun
  have hcovered := hlast.2 denom hbacked channels fun _ _ => trivial
  simp only [owed] at hcovered
  exact_mod_cast hcovered

theorem outstanding_covered_sample :
    ∃ last, exec (HomeChain.step Sample.net) Sample.home
        (Sample.sends ++ Sample.returns) = some last ∧
      last.store.outstanding ("channel-0", "untrn") = 60 ∧
      ∑ channel ∈ {"channel-0"}, last.store.outstanding (channel, "untrn") ≤
        last.holding Sample.net "untrn" := by
  have hrun : (exec (HomeChain.step Sample.net) Sample.home
      (Sample.sends ++ Sample.returns)).map
        (fun last => last.store.outstanding ("channel-0", "untrn")) =
          some 60 := by
    decide +kernel
  obtain ⟨last, hrun, hout⟩ := Option.map_eq_some_iff.mp hrun
  exact ⟨last, hrun, hout,
    outstanding_covered Sample.genesis_home hrun (.inl (by decide)) _⟩

end

/-! ### The ledger of the channels -/

/-- What was ever sent over each channel, redeemed by its other end, and
returned to the senders. -/
structure Flows where
  sent : Book (String × String)
  redeemed : Book (String × String)
  returned : Book (String × String)

def Flows.zero : Flows := ⟨empty, empty, empty⟩

/-- A packet that was not sent before. -/
def Flows.send (flows : Flows) (h h' : HomeChain) (id : PacketId) : Flows :=
  if h.used.contains id then flows
  else
    match h'.pending id with
    | some data =>
        { flows with
          sent := add flows.sent (id.1, data.denom) data.amount }
    | none => flows

/-- A packet that is returned. -/
def Flows.giveBack (flows : Flows) (h : HomeChain) (id : PacketId) : Flows :=
  match h.pending id with
  | some data =>
      { flows with
        returned := add flows.returned (id.1, data.denom) data.amount }
  | none => flows

variable (net : Setting V)

/-- A packet that arrives, when it is acknowledged with success. -/
def Flows.redeem (flows : Flows) (h : HomeChain) (channel : String)
    (data : Except String Ics20Packet) (delivery : Delivery) : Flows :=
  match h.receivePacket net channel data delivery,
    readVoucher (arrivedPacket net channel data) with
  | some (_, .result _), .ok (msg, denom) =>
      { flows with
        redeemed := add flows.redeemed (channel, denom) msg.amount }
  | _, _ => flows

/-- The ledger after an action. -/
def Flows.note (flows : Flows) (h : HomeChain) (action : Action)
    (h' : HomeChain) : Flows :=
  match action with
  | .call _ _ id => flows.send h h' id
  | .token _ _ _ id => flows.send h h' id
  | .receive channel data delivery => flows.redeem net h channel data delivery
  | .ack id (.ok (.error _)) _ => flows.giveBack h id
  | .timeout id _ => flows.giveBack h id
  | _ => flows

/-- The ledger after an event. -/
def Flows.observe (flows : Flows) (h : HomeChain) (ev : Event)
    (h' : HomeChain) : Flows :=
  flows.note net { h with block := ev.block } ev.action h'

/-- The ledger explains the balances of the channels. -/
structure Explained (h : HomeChain) (flows : Flows) : Prop where
  totalSent : h.store.totalSent = flows.sent
  outstanding : ∀ key, h.store.outstanding key + flows.redeemed key +
    flows.returned key = flows.sent key

section

variable {net} {h h' last : HomeChain} {flows : Flows} {id : PacketId}
  {denom : String} {key : String × String} {events later : List Event}

theorem Explained.congr (hinv : Explained h flows)
    (hstate : h'.store.channelState = h.store.channelState) :
    Explained h' flows := by
  have htotal : h'.store.totalSent = h.store.totalSent := by
    unfold Storage.totalSent
    rw [hstate]
  refine ⟨htotal.trans hinv.totalSent, fun key => ?_⟩
  rw [outstanding_congr hstate]
  exact hinv.outstanding key

theorem Explained.sent {data : Ics20Packet} (hinv : Explained h flows)
    (hsent : Sent net h id data h') :
    Explained h' (flows.send h h' id) := by
  have hfresh : ¬h.used.contains id := by simpa using hsent.fresh
  rw [Flows.send, if_neg hfresh, hsent.pending, Map.save_self]
  refine ⟨?_, fun key => ?_⟩
  · rw [hsent.increased.totalSent, hinv.totalSent]
  · have hbefore := hinv.outstanding key
    rw [hsent.increased.outstanding]
    simp only [add, Function.update_apply]
    split
    · next heq => subst heq; omega
    · exact hbefore

theorem Explained.quiet (hs : Sound net h) (hinv : Explained h flows)
    (hquiet : Quiet net h h') : Explained h' (flows.send h h' id) := by
  have hsame : flows.send h h' id = flows := by
    unfold Flows.send
    split
    · rfl
    · next hfresh =>
        rw [hquiet.pending]
        split
        · next data hdata =>
            have hused := hs.used id (by rw [hdata]; rfl)
            exact absurd (by simpa using hused) hfresh
        · rfl
  rw [hsame]
  exact hinv.congr hquiet.channelState

/-- What is taken back under a key is entered in the ledger. -/
theorem Explained.reduced {amount : Nat} {redeemed returned : Book _}
    (hinv : Explained h flows)
    (hreduced : Reduced h.store key amount h'.store)
    (hbook : ∀ other, redeemed other + returned other =
      flows.redeemed other + flows.returned other +
        if other = key then amount else 0) :
    Explained h' ⟨flows.sent, redeemed, returned⟩ := by
  refine ⟨hreduced.totalSent.trans hinv.totalSent, fun other => ?_⟩
  have hbefore := hinv.outstanding other
  have hother := hbook other
  rw [hreduced.outstanding]
  simp only [sub, Function.update_apply]
  split at hother
  · next heq =>
      subst heq
      have hcovered := hreduced.covered
      rw [if_pos rfl]
      omega
  · next hne =>
      rw [if_neg hne]
      omega

theorem Explained.returned {data : Ics20Packet} (hinv : Explained h flows)
    (hdata : h.pending id = some data)
    (hreturned : Returned net h id data h') :
    Explained h' (flows.giveBack h id) := by
  rw [Flows.giveBack, hdata]
  refine hinv.reduced hreturned.reduced fun other => ?_
  rw [add_at, Nat.add_assoc]

theorem Explained.received {channel : String}
    {data : Except String Ics20Packet} {delivery : Delivery} {ack : Ics20Ack}
    (hs : Sound net h) (hinv : Explained h flows)
    (hreceive : h.receivePacket net channel data delivery = some (h', ack)) :
    Explained h' (flows.redeem net h channel data delivery) := by
  obtain ⟨hreceipt, -, -⟩ := receivePacket_receipt hreceive
  rw [Flows.redeem, hreceive]
  cases hreceipt with
  | refused err hsettings hstate hbank htokens => exact hinv.congr hstate
  | unpayable msg denom err hreduced hgas hbank htokens =>
      obtain ⟨gas, hpayable⟩ := hs.payable _ hreduced.present
      exact absurd (checkGasLimit_fromParts hpayable) (hgas gas)
  | paid msg denom reduced hdata hdenom hreduced hdispatch =>
      have hread : readVoucher (arrivedPacket net channel data) =
          .ok (msg, denom) := readVoucher_ok.mpr ⟨hdata, hdenom⟩
      have hstore : h'.store = reduced :=
        (sameBooks_of_dispatch hdispatch).store
      rw [← hstore] at hreduced
      rw [hread]
      refine hinv.reduced hreduced fun other => ?_
      rw [add_at, Nat.add_right_comm]

theorem Explained.act {action : Action} (hs : Sound net h)
    (hinv : Explained h flows) (hact : h.act net action = some h') :
    Explained h' (flows.note net h action h') := by
  have hu := hs.ungranted
  cases action with
  | call info msg id =>
      rcases call_effect hu hact with ⟨data, hsent⟩ | hquiet
      · exact hinv.sent hsent
      · exact hinv.quiet hs hquiet
  | token address sender msg id =>
      rcases token_effect hu hact with ⟨data, hsent⟩ | hquiet
      · exact hinv.sent hsent
      · exact hinv.quiet hs hquiet
  | create address msg =>
      exact hinv.congr (create_quiet hu hact).channelState
  | connect msg => exact hinv.congr (connect_quiet hu hact).channelState
  | receive channel data delivery =>
      simp only [HomeChain.act, Option.map_eq_some_iff, Prod.exists] at hact
      obtain ⟨last, ack, hreceive, rfl⟩ := hact
      exact hinv.received hs hreceive
  | ack id acknowledgement delivery =>
      obtain ⟨data, hdata, ⟨⟨text, rfl⟩, hsettled⟩ | ⟨⟨err, rfl⟩, hreturned⟩⟩ :=
        ack_settled hu hact
      · exact hinv.congr (congrArg Storage.channelState hsettled.store)
      · exact hinv.returned hdata hreturned
  | timeout id delivery =>
      obtain ⟨data, hdata, hreturned⟩ := timeout_returned hu hact
      exact hinv.returned hdata hreturned
  | migrate walks msg =>
      exact hinv.congr (migrate_quiet hu hs.version hact).channelState
  | donate denom amount =>
      exact hinv.congr (donate_quiet hu hact).channelState

theorem explained_genesis (hgenesis : Genesis net h) :
    Explained h Flows.zero := by
  have hstate := genesis_state hgenesis
  refine ⟨?_, fun key => ?_⟩
  · funext key
    simp [Storage.totalSent, hstate, Map.empty, Flows.zero, empty]
  · simp [Storage.outstanding, hstate, Map.empty, Flows.zero, empty]

/-- What is outstanding is what was sent, less what was redeemed and what was
returned. -/
theorem outstanding_explained (hgenesis : Genesis net h)
    (hrun : exec (track (HomeChain.step net) (Flows.observe net))
      (h, Flows.zero) events = some (last, flows)) (key : String × String) :
    last.store.outstanding key + flows.redeemed key + flows.returned key =
        flows.sent key ∧
      last.store.totalSent key = flows.sent key := by
  have hlast : Sound net last ∧ Explained last flows :=
    exec_invariant (fun x : HomeChain × Flows =>
        Sound net x.1 ∧ Explained x.1 x.2)
      (fun x ev y hinv hstep => by
        obtain ⟨hnext, hflows⟩ := track_eq_some.mp hstep
        refine ⟨hinv.1.step hnext, ?_⟩
        rw [hflows]
        have hblock : Explained { x.1 with block := ev.block } x.2 :=
          ⟨hinv.2.totalSent, hinv.2.outstanding⟩
        exact hblock.act (hinv.1.atBlock ev.block) (step_eq_some hnext))
      ⟨sound_genesis hgenesis, explained_genesis hgenesis⟩ hrun
  exact ⟨hlast.2.outstanding key, congrFun hlast.2.totalSent key⟩

theorem outstanding_explained_sample :
    ∃ last flows, exec (track (HomeChain.step Sample.net)
        (Flows.observe Sample.net)) (Sample.home, Flows.zero)
          (Sample.sends ++ Sample.returns) = some (last, flows) ∧
      flows.sent ("channel-0", "untrn") = 100 ∧
      flows.redeemed ("channel-0", "untrn") = 40 ∧
      last.store.outstanding ("channel-0", "untrn") +
        flows.redeemed ("channel-0", "untrn") +
        flows.returned ("channel-0", "untrn") =
          flows.sent ("channel-0", "untrn") := by
  have hrun : (exec (track (HomeChain.step Sample.net)
      (Flows.observe Sample.net)) (Sample.home, Flows.zero)
        (Sample.sends ++ Sample.returns)).map
          (fun last => (last.2.sent ("channel-0", "untrn"),
            last.2.redeemed ("channel-0", "untrn"))) = some (100, 40) := by
    decide +kernel
  obtain ⟨⟨last, flows⟩, hrun, hflows⟩ := Option.map_eq_some_iff.mp hrun
  rw [Prod.mk.injEq] at hflows
  exact ⟨last, flows, hrun, hflows.1, hflows.2,
    (outstanding_explained Sample.genesis_home hrun _).1⟩

/-! ### Receipts -/

/-- A packet that arrives is refused and changes neither the balances of the
channels nor what the contract holds, or its amount is paid to the receiver
and is no longer outstanding. -/
theorem receipt_pays_or_refuses {channel : String}
    {data : Except String Ics20Packet} {delivery : Delivery} {ack : Ics20Ack}
    (hgenesis : Genesis net h)
    (hrun : exec (HomeChain.step net) h events = some last)
    (hreceive : last.receivePacket net channel data delivery =
      some (h', ack)) :
    (∃ err, ack = ackFail err) ∧
        h'.store.channelState = last.store.channelState ∧
        h'.bank = last.bank ∧ h'.tokens = last.tokens ∨
      ack = ackSuccess ∧ ∃ msg denom reduced, data = .ok msg ∧
        msg.denom = Text.join '/' [(net.remoteEnd channel).portId,
          (net.remoteEnd channel).channelId, denom] ∧
        Reduced last.store (channel, denom) msg.amount reduced ∧
        ({ last with store := reduced } : HomeChain).dispatch net delivery
          (sendAmount (.fromParts denom msg.amount) msg.receiver) =
            some h' := by
  have hs := sound_run hgenesis hrun
  obtain ⟨hreceipt, -, -⟩ := receivePacket_receipt hreceive
  cases hreceipt with
  | refused err hsettings hstate hbank htokens =>
      exact .inl ⟨⟨err, rfl⟩, hstate, hbank, htokens⟩
  | unpayable msg denom err hreduced hgas hbank htokens =>
      -- what is on a channel has been allowed, and stays allowed
      obtain ⟨gas, hpayable⟩ := hs.payable _ hreduced.present
      exact absurd (checkGasLimit_fromParts hpayable) (hgas gas)
  | paid msg denom reduced hdata hdenom hreduced hdispatch =>
      exact .inr ⟨rfl, msg, denom, reduced, hdata,
        (parseVoucherDenom_ok.mp hdenom).1, hreduced, hdispatch⟩

/-- A payment that fails leaves everything as it was. -/
theorem receipt_pays_or_refuses_sample :
    ∃ last h' ack, exec (HomeChain.step Sample.net) Sample.home Sample.sends =
        some last ∧
      last.receivePacket Sample.net "channel-0" (.ok Sample.voucher)
        ⟨none, false, "out of gas"⟩ = some (h', ack) ∧
      ack = ackFail "out of gas" ∧
      h'.store.channelState = last.store.channelState ∧ h'.bank = last.bank ∧
      h'.tokens = last.tokens := by
  have hrun : (((exec (HomeChain.step Sample.net) Sample.home
      Sample.sends).bind fun last => (last.receivePacket Sample.net
        "channel-0" (.ok Sample.voucher) ⟨none, false, "out of gas"⟩)).map
          Prod.snd) = some (ackFail "out of gas") := by
    decide +kernel
  obtain ⟨⟨h', ack⟩, hreceived, hack⟩ := Option.map_eq_some_iff.mp hrun
  obtain ⟨last, hrun, hreceive⟩ := Option.bind_eq_some_iff.mp hreceived
  refine ⟨last, h', ack, hrun, hreceive, hack, ?_⟩
  rcases receipt_pays_or_refuses Sample.genesis_home hrun hreceive with
    ⟨-, hsame⟩ | ⟨hpaid, -⟩
  · exact hsame
  · dsimp only at hack
    rw [hpaid] at hack
    cases hack

/-! ### Admission -/

theorem admits_run {middle : HomeChain} (hs : Sound net middle)
    (hrun : exec (HomeChain.step net) middle later = some last) :
    Admits middle.store last.store :=
  (exec_invariant
    (fun h => Sound net h ∧ Admits middle.store h.store)
    (fun _ ev _ hinv hstep => by
      have hblock := hinv.1.atBlock ev.block
      have heffect := act_effect hblock.ungranted hblock.version
        (step_eq_some hstep)
      exact ⟨hinv.1.step hstep,
        hinv.2.trans (heffect.lasting hblock.ungranted).admits⟩)
    ⟨hs, Admits.of_eq rfl rfl⟩ hrun).2

/-- A contract on the allow list stays there with no lower gas limit, and what
can be paid out can be paid out later. -/
theorem admission_lasts {middle : HomeChain} {amount : Amount}
    (hgenesis : Genesis net h)
    (hrun : exec (HomeChain.step net) h events = some middle)
    (hlater : exec (HomeChain.step net) middle later = some last) :
    (∀ contract info, middle.store.allowList contract = some info →
      ∃ info', last.store.allowList contract = some info' ∧
        GasLe info.gasLimit info'.gasLimit) ∧
      ((∃ gas, checkGasLimit net.api middle.store amount = .ok gas) →
        ∃ gas, checkGasLimit net.api last.store amount = .ok gas) ∧
      ∀ channel denom n, (last.store.channelState (channel, denom)).isSome →
        ∃ gas, checkGasLimit net.api last.store (.fromParts denom n) =
          .ok gas := by
  have hs := sound_run hgenesis hrun
  have hadmits := admits_run hs hlater
  have hlast : Sound net last :=
    exec_invariant (Sound net) (fun _ _ _ hs hstep => hs.step hstep) hs hlater
  refine ⟨hadmits.listed, fun ⟨gas, hgas⟩ => hadmits.checkGasLimit hgas,
    fun channel denom n hkey => ?_⟩
  obtain ⟨gas, hgas⟩ := hlast.payable _ hkey
  exact ⟨gas, checkGasLimit_fromParts hgas⟩

theorem admission_lasts_sample :
    ∃ middle last, exec (HomeChain.step Sample.net) Sample.home Sample.sends =
        some middle ∧
      exec (HomeChain.step Sample.net) middle Sample.returns = some last ∧
      middle.store.allowList "lsd" = some ⟨some 200000⟩ ∧
      ∃ info, last.store.allowList "lsd" = some info ∧
        GasLe (some 200000) info.gasLimit := by
  have hrun : ((exec (HomeChain.step Sample.net) Sample.home
      Sample.sends).bind fun middle => (exec (HomeChain.step Sample.net)
        middle Sample.returns).map fun _ => middle.store.allowList "lsd") =
          some (some ⟨some 200000⟩) := by
    decide +kernel
  obtain ⟨middle, hfirst, hmiddle⟩ := Option.bind_eq_some_iff.mp hrun
  obtain ⟨last, hlater, hlisted⟩ := Option.map_eq_some_iff.mp hmiddle
  exact ⟨middle, last, hfirst, hlater, hlisted,
    (@admission_lasts _ _ Sample.net _ _ _ _ middle
      (.native ⟨"untrn", 1⟩) Sample.genesis_home hfirst hlater).1 "lsd" _
        hlisted⟩

end

end HomeChain

end NeutronContracts.Cw20Ics20
