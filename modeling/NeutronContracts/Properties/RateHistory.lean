/-
The rates of past eras: between two eras there is one for every era so far,
the latest one is the rate of the pool, and none is ever written again.
-/
import NeutronContracts.Chain.EraProtocol
import NeutronContracts.Chain.Registry
import NeutronContracts.Lib.History

namespace NeutronContracts

open StakeManager History

/-- The rates of the eras of one pool. -/
def StakeManager.Storage.rates (store : Storage) (a : String) : Map Nat Nat :=
  fun era => store.eraRate (a, era)

/-- How far the era of a pool is ahead of its latest rate. -/
def ahead : EraStatus → Nat
  | .registerEnded => 0
  | .initStarted => 0
  | .initFailed => 0
  | .activeEnded => 0
  | _ => 1

/-- The rates of a pool that has started are those of all eras up to the one
that has ended last. -/
structure Recorded (entries : Map Nat Nat) (p : PoolInfo) : Prop where
  fresh : p.status = .registerEnded → ∀ era, entries era = none
  history : p.status ≠ .registerEnded → ∃ last, Upto entries last ∧
    entries last = some p.rate ∧ p.era = last + ahead p.status

/-- A move that writes no rate. -/
structure EraKept (p p' : PoolInfo) : Prop where
  registered : p'.status = .registerEnded ↔ p.status = .registerEnded
  rate : p'.rate = p.rate
  era : p'.era + ahead p.status = p.era + ahead p'.status

theorem EraKept.of_status {p p' : PoolInfo} (hstatus : p'.status = p.status)
    (hrate : p'.rate = p.rate) (hera : p'.era = p.era) : EraKept p p' :=
  ⟨by rw [hstatus], hrate, by rw [hstatus, hera]⟩

theorem Recorded.kept {entries : Map Nat Nat} {p p' : PoolInfo}
    (h : Recorded entries p) (hkept : EraKept p p') : Recorded entries p' := by
  refine ⟨fun hfresh => h.fresh (hkept.registered.mp hfresh), fun hlive => ?_⟩
  obtain ⟨last, hupto, hlast, hera⟩ :=
    h.history fun hfresh => hlive (hkept.registered.mpr hfresh)
  have := hkept.era
  exact ⟨last, hupto, hkept.rate ▸ hlast, by omega⟩

section

variable {store store' : Storage} {a b : String} {era rate : Nat}

theorem rates_save_self
    (h : store'.eraRate = store.eraRate.save (a, era) rate) :
    store'.rates a = (store.rates a).save era rate := by
  funext n
  rw [Storage.rates, h]
  by_cases heq : n = era
  · rw [heq, Map.save_self, Map.save_self]
  · rw [Map.save_of_ne (by simp [heq]), Map.save_of_ne heq]
    rfl

theorem rates_save_other
    (h : store'.eraRate = store.eraRate.save (b, era) rate) (hne : a ≠ b) :
    store'.rates a = store.rates a := by
  funext n
  rw [Storage.rates, h, Map.save_of_ne (by simp [hne])]
  rfl

end

namespace World

variable {net : Network} {w w' : World} {ev : Event} {a : String}
  {p p' : PoolInfo}

/-- The event neither starts pool `a` nor ends its era. -/
def LeavesRates (a : String) (w : World) (ev : Event) (p : PoolInfo) : Prop :=
  ∀ querier info msg id, ev.action = .execute querier info msg id →
    msg.target w.store = some a → msg.writesRegistry = true →
      p.status = .initFailed

theorem eraKept_of_answer {height : Nat} {id : PacketId} {packet : Packet}
    {payload : SudoPayload} {answer : Answer} (hin : InOrder w a p)
    (hpacket : w.pending id = some packet)
    (hpayload : packet.payload = some payload) (hpool : payload.poolAddr = a)
    (hera : EraAnswer height p payload answer p') : EraKept p p' := by
  have hinit : payload.txType = .setWithdrawAddr →
      p.status = .initStarted ∨ p.status = .initFailed := fun htype =>
    hin.init.may id .setWithdrawAddr (waiting_eq_some.mpr
      ⟨⟨packet, payload, hpacket, hpayload, hpool, htype⟩, rfl⟩)
  have hawaited : payload.txType.isEra = true →
      awaited p.status = some payload.txType := fun hkind =>
    (hin.cycle.awaited_of_packet hpacket hpayload hpool hkind).2
  cases hera with
  | setWithdraw htype =>
      rcases hinit htype with hstatus | hstatus
      · exact ⟨by simp [hstatus], rfl, by simp [hstatus, ahead]⟩
      · exact ⟨by simp [hstatus], rfl, by simp [hstatus, ahead]⟩
  | setWithdrawFailed htype =>
      rcases hinit htype with hstatus | hstatus
      · exact ⟨by simp [hstatus], rfl, by simp [hstatus, ahead]⟩
      · exact ⟨by simp [hstatus], rfl, by simp [hstatus, ahead]⟩
  | eraUpdate htype =>
      rw [htype] at hawaited
      have hstatus := status_of_awaited.1.mp (hawaited rfl)
      exact ⟨by simp [hstatus], rfl, by simp [hstatus, ahead]⟩
  | eraUpdateFailed htype hfailed hera =>
      rw [htype] at hawaited
      have hstatus := status_of_awaited.1.mp (hawaited rfl)
      refine ⟨by simp [hstatus], rfl, ?_⟩
      simp only [hstatus, ahead]
      omega
  | eraBond htype =>
      rw [htype] at hawaited
      have hstatus := status_of_awaited.2.1.mp (hawaited rfl)
      exact ⟨by simp [hstatus], rfl, by simp [hstatus, ahead]⟩
  | eraBondFailed htype =>
      rw [htype] at hawaited
      have hstatus := status_of_awaited.2.1.mp (hawaited rfl)
      exact ⟨by simp [hstatus], rfl, by simp [hstatus, ahead]⟩
  | collect htype =>
      rw [htype] at hawaited
      have hstatus := status_of_awaited.2.2.1.mp (hawaited rfl)
      exact ⟨by simp [hstatus], rfl, by simp [hstatus, ahead]⟩
  | collectFailed htype =>
      rw [htype] at hawaited
      have hstatus := status_of_awaited.2.2.1.mp (hawaited rfl)
      exact ⟨by simp [hstatus], rfl, by simp [hstatus, ahead]⟩
  | rebond htype =>
      rw [htype] at hawaited
      have hstatus := status_of_awaited.2.2.2.mp (hawaited rfl)
      exact ⟨by simp [hstatus], rfl, by simp [hstatus, ahead]⟩
  | rebondFailed htype =>
      rw [htype] at hawaited
      have hstatus := status_of_awaited.2.2.2.mp (hawaited rfl)
      exact ⟨by simp [hstatus], rfl, by simp [hstatus, ahead]⟩

/-- Every other move of an orderly run keeps the latest rate. -/
theorem eraKept_of_move (hin : InOrder w a p) (hleaves : LeavesRates a w ev p)
    (hmove : PoolMove net w ev w' a p p') : EraKept p p' := by
  cases hmove with
  | executed haction hstep hsends =>
      cases hstep with
      | era hera =>
          obtain ⟨-, htarget⟩ := EraStep.isStep hera
          cases hera with
          | init _ hstatus =>
              cases hstatus.symm.trans (hleaves _ _ _ _ haction htarget rfl)
          | migrate _ hstatus =>
              cases hstatus.symm.trans (hleaves _ _ _ _ haction htarget rfl)
          | active hstatus =>
              cases hstatus.symm.trans (hleaves _ _ _ _ haction htarget rfl)
          | retry => exact .of_status rfl rfl rfl
          | eraUpdate hstatus =>
              exact ⟨by simp [hstatus], rfl, by simp [hstatus, ahead, startEra]⟩
          | eraUpdateSent hstatus =>
              exact ⟨by simp [hstatus, startEra], rfl,
                by simp [hstatus, ahead, startEra]⟩
          | eraBond hstatus =>
              exact ⟨by simp [hstatus], rfl, by simp [hstatus, ahead]⟩
          | collect hstatus =>
              exact ⟨by simp [hstatus], rfl, by simp [hstatus, ahead]⟩
          | collectSent hstatus =>
              exact ⟨by simp [hstatus], rfl, by simp [hstatus, ahead]⟩
          | rebond hstatus =>
              exact ⟨by simp [hstatus], rfl, by simp [hstatus, ahead]⟩
          | rebondSent => exact .of_status rfl rfl rfl
      | config hpool hconfig =>
          obtain ⟨_, _, _, _, _, _, _, _, _, _, _, rfl⟩ := hconfig
          exact .of_status rfl rfl rfl
      | _ => exact .of_status rfl rfl rfl
  | answered haction hpacket hpayload hpool hanswer hpending =>
      cases hanswer with
      | era hera => exact eraKept_of_answer hin hpacket hpayload hpool hera
      | _ => exact .of_status rfl rfl rfl
  | _ => exact .of_status rfl rfl rfl

/-- The book-keeping, the packets of pool `a` and its rates. -/
structure RatesKept (net : Network) (a : String) (w : World) : Prop where
  sound : Sound net w
  inOrder : ∀ p, w.store.pools a = some p → InOrder w a p
  unborn : w.store.pools a = none → ∀ era, w.store.rates a era = none
  recorded : ∀ p, w.store.pools a = some p → Recorded (w.store.rates a) p

/-- Packets are answered in order, and the pool is not migrated. -/
def RatesInTurn (a : String) (w : World) (ev : Event) : Prop :=
  Orderly a w ev ∧ StartsByInit a w ev

instance (a : String) (w : World) (ev : Event) :
    Decidable (RatesInTurn a w ev) :=
  inferInstanceAs (Decidable (Orderly a w ev ∧ StartsByInit a w ev))

/-- How a step writes the rates of pool `a`: not at all, or the rate of the
pool for its era, which comes right after the latest one. -/
theorem rates_of_step (hinv : RatesKept net a w)
    (hstep : w.step net ev = some w') (hturn : RatesInTurn a w ev) :
    (w'.store.rates a = w.store.rates a ∧
        ∀ p, w.store.pools a = some p → LeavesRates a w ev p) ∨
      ∃ p', w'.store.pools a = some p' ∧ Recorded (w'.store.rates a) p' ∧
        Extends (w.store.rates a) (w'.store.rates a) := by
  have hs := hinv.sound
  cases rates_move hs hstep with
  | started haction hmsg htarget hp hstatus hp' hstarted hrates =>
      rename_i querier info msg id b p p'
      by_cases hab : a = b
      · subst hab
        have hempty := (hinv.recorded p hp).fresh hstatus
        obtain ⟨_, hera⟩ | ⟨param, rfl⟩ := hmsg
        · rw [hera] at hrates
          rw [rates_save_self hrates]
          refine .inr ⟨p', hp', ⟨by simp [hstarted], fun _ => ⟨0,
            upto_first hempty, Map.save_self, ?_⟩⟩, extends_of_empty hempty⟩
          rw [hera, hstarted]
          rfl
        · have hmigrated : param ∈ migrated ev := by
            rw [migrated, haction]
            rfl
          exact absurd hstatus (hturn.2 param hmigrated htarget p hp)
      · refine .inl ⟨rates_save_other hrates hab, fun q _ => ?_⟩
        intro _ _ _ _ haction' htarget' _
        obtain ⟨-, -, rfl, -⟩ :=
          Action.execute.inj (haction.symm.trans haction')
        exact absurd (Option.some.inj (htarget'.symm.trans htarget)) hab
  | activated haction hp hstatus hp' hended hera hrates =>
      rename_i querier info id b p p'
      by_cases hab : a = b
      · subst hab
        obtain ⟨last, hupto, -, hahead⟩ :=
          (hinv.recorded p hp).history (by simp [hstatus])
        have hnext : p'.era = last + 1 := by
          rw [hera, hahead, hstatus]
          rfl
        rw [hnext] at hrates
        rw [rates_save_self hrates]
        refine .inr ⟨p', hp', ⟨by simp [hended], fun _ => ⟨last + 1,
          hupto.next, Map.save_self, ?_⟩⟩, hupto.extends_next⟩
        rw [hnext, hended]
        rfl
      · refine .inl ⟨rates_save_other hrates hab, fun q _ => ?_⟩
        intro _ _ _ _ haction' htarget' _
        obtain ⟨-, -, rfl, -⟩ :=
          Action.execute.inj (haction.symm.trans haction')
        exact absurd (Option.some.inj htarget').symm hab
  | kept hother hrates =>
      refine .inl ⟨funext fun era => congrFun hrates (a, era),
        fun p hp => ?_⟩
      exact fun _ _ _ _ haction htarget =>
        hother _ _ _ _ haction a p htarget hp

theorem ratesKept_step (hinv : RatesKept net a w)
    (hstep : w.step net ev = some w') (hturn : RatesInTurn a w ev) :
    RatesKept net a w' ∧
      Extends (w.store.rates a) (w'.store.rates a) := by
  have hs := hinv.sound
  have hsound := sound_step hs hstep
  have horder := inOrder_step hs hstep hinv.inOrder hturn.1
  obtain ⟨hrates, hleaves⟩ | ⟨p', hp', hrecorded, hextends⟩ :=
    rates_of_step hinv hstep hturn
  · refine ⟨⟨hsound, horder, fun hnone => ?_, ?_⟩, ?_⟩
    · rw [hrates]
      refine hinv.unborn ?_
      cases hp : w.store.pools a with
      | none => rfl
      | some p =>
          obtain ⟨p', hp', -⟩ := pool_move hs hstep hp
          cases hnone.symm.trans hp'
    · rw [hrates]
      refine pool_invariant hs hstep hinv.recorded ?_ ?_
      · intro p p' hp _ hrecorded hmove
        exact hrecorded.kept
          (eraKept_of_move (hinv.inOrder p hp) (hleaves p hp) hmove)
      · exact fun _ _ hnone _ _ _ _ =>
          ⟨fun _ => hinv.unborn hnone, fun hlive => absurd rfl hlive⟩
    · rw [hrates]
      exact .refl _
  · refine ⟨⟨hsound, horder, fun hnone => ?_, fun q hq => ?_⟩, hextends⟩
    · cases hnone.symm.trans hp'
    · obtain rfl := Option.some.inj (hp'.symm.trans hq)
      exact hrecorded

/-- Between two eras there is one rate for every era up to the current one,
and the rate of the pool is the latest. -/
def RatesComplete (a : String) (w : World) : Prop :=
  ∀ p, w.store.pools a = some p → p.status = .activeEnded →
    (∀ era, (w.store.eraRate (a, era)).isSome = true ↔ era ≤ p.era) ∧
      w.store.eraRate (a, p.era) = some p.rate

theorem RatesKept.complete (hinv : RatesKept net a w) : RatesComplete a w := by
  intro p hp hstatus
  obtain ⟨last, hupto, hlast, hera⟩ :=
    (hinv.recorded p hp).history (by simp [hstatus])
  have heq : p.era = last := by
    rw [hera, hstatus]
    rfl
  rw [heq]
  exact ⟨hupto, hlast⟩

/-- In every run in which the packets of the steps of a pool are answered in
order and which does not migrate it, the history of its rates is complete and
nothing in it changes. -/
theorem rate_history {block : BlockInfo} {info : MessageInfo}
    {lsdTokenCodeId : Nat} {evs : List Event}
    (hturn : Transition.AllSteps (step net) (fun w ev _ => RatesInTurn a w ev)
      (genesis block info lsdTokenCodeId) evs) :
    Transition.AllSteps (step net) (fun w _ w' => RatesComplete a w' ∧
        ∀ era rate, w.store.eraRate (a, era) = some rate →
          w'.store.eraRate (a, era) = some rate)
      (genesis block info lsdTokenCodeId) evs := by
  refine .of_invariant (RatesKept net a) ?_ ?_ hturn
  · intro w ev w' hinv hstep hturn
    obtain ⟨hinv', hextends⟩ := ratesKept_step hinv hstep hturn
    exact ⟨hinv', hinv'.complete, hextends⟩
  · exact ⟨sound_genesis net block info lsdTokenCodeId,
      fun _ h => (nomatch h), fun _ _ => rfl, fun _ h => (nomatch h)⟩

/-- The transfer of the first era update times out, and the era is updated
again and completed. -/
def retriedEra : List Event := Sample.setup ++ [
  Sample.stake 1 1000,
  Sample.call 2 (Sample.querier 0 [] 0) (.eraUpdate Sample.pool)
    (Sample.packetId 2),
  Sample.ack 2 .timeout (Sample.packetId 2),
  Sample.call 2 (Sample.querier 0 [] 0) (.eraUpdate Sample.pool)
    (Sample.packetId 3),
  Sample.ack 2 .success (Sample.packetId 3),
  Sample.call 2 (Sample.querier 0 [] 0) (.eraBond Sample.pool ["val1"])
    (Sample.packetId 4),
  Sample.ack 2 .success (Sample.packetId 4),
  Sample.call 3 (Sample.querier 3 [("val1", 1000)] 50)
    (.eraCollectWithdraw Sample.pool) (Sample.packetId 5),
  Sample.ack 3 .success (Sample.packetId 5),
  Sample.call 3 (Sample.querier 3 [] 0) (.eraRebond Sample.pool ["val1"])
    (Sample.packetId 6),
  Sample.ack 3 .success (Sample.packetId 6),
  Sample.call 4 (Sample.querier 4 [("val1", 1050)] 0)
    (.eraActive Sample.pool) (Sample.packetId 0)]

theorem rate_history_sample :
    Transition.AllSteps (step Sample.net) (fun w ev _ =>
        RatesInTurn Sample.pool w ev) Sample.genesis retriedEra ∧
      Transition.AllSteps (step Sample.net)
        (fun w _ w' => RatesComplete Sample.pool w' ∧
          ∀ era rate, w.store.eraRate (Sample.pool, era) = some rate →
            w'.store.eraRate (Sample.pool, era) = some rate)
        Sample.genesis retriedEra ∧
      ∃ w p, Sample.run retriedEra = some w ∧
        w.store.pools Sample.pool = some p ∧ p.status = .activeEnded ∧
        p.era = 1 := by
  have hturn : Transition.AllSteps (step Sample.net) (fun w ev _ =>
      RatesInTurn Sample.pool w ev) Sample.genesis retriedEra := by
    decide +kernel
  obtain ⟨w, p, hw, hp, htest⟩ := Sample.exists_of_run retriedEra
    (fun _ p => p.status = .activeEnded && p.era = 1) (by decide +kernel)
  simp only [Bool.and_eq_true, decide_eq_true_eq] at htest
  exact ⟨hturn, rate_history hturn, w, p, hw, hp, htest⟩

end World

end NeutronContracts
