/-
The custody of the staked coins.  The stakes of all pools of a denom lie in
one account of the contract.  The update of an era sends the bond of its pool
to the host, and the bond step takes it off the books once it is acknowledged;
in between it is away.  What the pools have bonded and what is not away is
covered by the balance, all pools taken together.
-/
import NeutronContracts.Chain.Coins
import NeutronContracts.Chain.EraProtocol
import NeutronContracts.Lib.Custody
import NeutronContracts.Properties.Settlement

namespace NeutronContracts

open StakeManager Outstanding Fallible

namespace World

/-- The contract's balance of a denom, and what each pool has sent to the host
and not yet bonded there. -/
structure CustodyBooks where
  balance : ℤ
  away : String → Nat

/-- The pool whose transfer is settled: it has failed, or the coins it has
brought to the host are bonded. -/
def settledPool (w : World) (ev : Event) : Option String :=
  match ev.action with
  | .answer id answer _ _ =>
      (w.pending id).bind fun packet => packet.payload.bind fun payload =>
        if payload.txType = .eraUpdate ∧ answer ≠ .success ∨
            payload.txType = .eraBond ∧ answer = .success then
          some payload.poolAddr
        else none
  | _ => none

/-- The pool whose era a call updates. -/
def updatedPool (ev : Event) : Option String :=
  match ev.action with
  | .execute _ _ (.eraUpdate a) _ => some a
  | _ => none

/-- The balance of `denom` follows the coins of every event.  What anyone else
sends to the contract would only add to it. -/
def keepCustody (net : Network) (denom : String) (books : CustodyBooks)
    (w : World) (ev : Event) (_ : World) : CustodyBooks where
  balance := books.balance + amountOf denom (w.received ev) -
    spent denom (emitted net w ev)
  away :=
    match updatedPool ev, settledPool w ev with
    | some a, _ =>
        Function.update books.away a (spent denom (emitted net w ev))
    | none, some a => Function.update books.away a 0
    | none, none => books.away

/-- A pool of the denom that has been initialised. -/
def Holds (denom : String) (w : World) (a : String) : Prop :=
  ∃ p, w.store.pools a = some p ∧ p.status ≠ .registerEnded ∧
    p.ibcDenom = denom

/-- What is bonded in a pool and still has to be with the contract. -/
def owed (s : World × CustodyBooks) (a : String) : ℤ :=
  match s.1.store.pools a with
  | some p => p.bond - s.2.away a
  | none => 0

/-- The pool an event is about. -/
def concerned (w : World) (ev : Event) : Option String :=
  match ev.action with
  | .execute _ _ msg _ => msg.target w.store
  | .answer id _ _ _ =>
      (w.pending id).bind fun packet => packet.payload.map (·.poolAddr)
  | _ => none

/-- The pools of the denom are initialised here, and their packets are
answered before the next step. -/
structure Minded (denom : String) (w : World) (ev : Event) : Prop where
  orderly : ∀ a ∈ concerned w ev, ∀ p ∈ w.store.pools a,
    p.ibcDenom = denom ∨ p.status = .registerEnded → Orderly a w ev
  initialised : ∀ param ∈ migrated ev, param.ibcDenom = denom →
    ∀ a ∈ (ExecuteMsg.migratePool param).target w.store,
      ∀ p ∈ w.store.pools a, p.status ≠ .registerEnded

instance (denom : String) (w : World) (ev : Event) :
    Decidable (Minded denom w ev) :=
  decidable_of_iff
    ((∀ a ∈ concerned w ev, ∀ p ∈ w.store.pools a,
      p.ibcDenom = denom ∨ p.status = .registerEnded → Orderly a w ev) ∧
      ∀ param ∈ migrated ev, param.ibcDenom = denom →
        ∀ a ∈ (ExecuteMsg.migratePool param).target w.store,
          ∀ p ∈ w.store.pools a, p.status ≠ .registerEnded)
    ⟨fun ⟨horderly, hinitialised⟩ => ⟨horderly, hinitialised⟩,
      fun h => ⟨h.orderly, h.initialised⟩⟩

/-- What is away is the bond of the snapshot until it is bonded. -/
structure Away (p : PoolInfo) (away : Nat) : Prop where
  during : beforeBond p.status → away = p.eraSnapshot.bond
  otherwise : ¬ beforeBond p.status → away = 0

variable {net : Network} {w w' : World} {ev : Event} {a denom : String}
  {p p' : PoolInfo} {books : CustodyBooks} {id : PacketId}
  {querier : Querier} {info : MessageInfo} {msg : ExecuteMsg}
  {answer : Answer} {bankAccepts : Bool} {packet : Packet}
  {payload : SudoPayload}

theorem Minded.orderly_of (h : Minded denom w ev)
    (hp : w.store.pools a = some p)
    (hpool : p.ibcDenom = denom ∨ p.status = .registerEnded) :
    Orderly a w ev := by
  by_cases hconcerned : concerned w ev = some a
  · exact h.orderly a hconcerned p hp hpool
  · unfold Orderly
    unfold concerned at hconcerned
    split
    · rename_i haction
      rw [haction] at hconcerned
      exact fun _ htarget => absurd htarget hconcerned
    · trivial

/-- A pool that the event is not about keeps its record. -/
theorem PoolMove.untouched (h : PoolMove net w ev w' a p p')
    (ha : concerned w ev ≠ some a) : p' = p := by
  unfold concerned at ha
  cases h with
  | executed haction hstep hsends =>
      rw [haction] at ha
      cases hstep with
      | elsewhere => rfl
      | era hera => exact absurd (EraStep.isStep hera).2 ha
      | config hpool => exact absurd (congrArg some hpool) ha
      | _ => exact absurd rfl ha
  | answered haction hpacket hpayload hpool hstep hpending =>
      rw [haction] at ha
      simp [hpacket, hpayload, hpool] at ha
  | _ => rfl

/-- Only a stake adds to the bond, a new pool has none, and the denom of a
pool that has started never changes. -/
theorem ExecStep.bond {store : Storage} {env : Env} {sent : Option SubMsg}
    (h : ExecStep store querier env info a p msg sent p') :
    p'.bond = p.bond ∧ p'.ibcDenom = p.ibcDenom ∧
        (p.status = .registerEnded → p'.status = .registerEnded) ∨
      (∃ user coin, msg = .stake user a ∧ info.funds = [coin] ∧
        coin.denom = p.ibcDenom ∧ p'.bond = p.bond + coin.amount ∧
        p'.ibcDenom = p.ibcDenom ∧ p'.status = p.status) ∨
      p.status = .registerEnded ∧ msg.target store = some a ∧
        (p'.bond = 0 ∨ ∃ param, msg = .migratePool param ∧
          p'.ibcDenom = param.ibcDenom) := by
  cases h with
  | stake hfunds hdenom hrate =>
      exact .inr (.inl ⟨_, _, rfl, hfunds, hdenom, rfl, rfl, rfl⟩)
  | config hpool hconfig =>
      obtain ⟨_, _, _, _, _, _, _, _, _, _, _, rfl⟩ := hconfig
      exact .inl ⟨rfl, rfl, id⟩
  | era hera =>
      cases hera with
      | init htarget hstatus hcalls =>
          exact .inr (.inr ⟨hstatus, htarget, .inl rfl⟩)
      | migrate htarget hstatus hrate hcal hcalls =>
          exact .inr (.inr ⟨hstatus, htarget, .inr ⟨_, rfl, rfl⟩⟩)
      | retry _ _ h | eraUpdate h | eraUpdateSent h | eraBond h | collect h
      | collectSent h | rebond h | rebondSent h | active h =>
          exact .inl ⟨rfl, rfl, fun hstatus => by simp [hstatus] at h⟩
  | _ => exact .inl ⟨rfl, rfl, id⟩

/-- The transfer of an era has failed, or its bond step has succeeded. -/
def Settles (payload : SudoPayload) (answer : Answer) : Prop :=
  payload.txType = .eraUpdate ∧ answer ≠ .success ∨
    payload.txType = .eraBond ∧ answer = .success

/-- Only an acknowledged bond step takes from the bond. -/
theorem AnswerStep.bond {height : Nat}
    (h : AnswerStep height p payload answer p') :
    p'.ibcDenom = p.ibcDenom ∧
      (payload.txType = .eraBond ∧ answer = .success ∧
          p.eraSnapshot.bond ≤ p.bond ∧
          p'.bond = p.bond - p.eraSnapshot.bond ∨
        ¬ (payload.txType = .eraBond ∧ answer = .success) ∧
          p'.bond = p.bond) := by
  cases h with
  | era hera =>
      cases hera with
      | eraBond htype hbond hunbond =>
          exact ⟨rfl, .inl ⟨htype, rfl, hbond, rfl⟩⟩
      | setWithdraw h | setWithdrawFailed h | eraUpdate h
      | eraUpdateFailed h | collect h | collectFailed h | rebond h
      | rebondFailed h => exact ⟨rfl, .inr ⟨by simp [h], rfl⟩⟩
      | eraBondFailed htype hfailed =>
          exact ⟨rfl, .inr ⟨fun h => hfailed h.2, rfl⟩⟩
  | validatorFailed h =>
      exact ⟨rfl, .inr ⟨by rcases h with h | h <;> simp [h], rfl⟩⟩
  | userWithdraw h | updateValidator h | rmValidator h | stakeLsm h
  | stakeLsmFailed h | redeem h | redeemFailed h =>
      exact ⟨rfl, .inr ⟨by simp [h], rfl⟩⟩

/-- What is away after a call: an update sends the bond. -/
theorem away_of_exec {store : Storage} {env : Env} {sent : Option SubMsg}
    {n n' : Nat} (haway : Away p n)
    (hstep : ExecStep store querier env info a p msg sent p')
    (hsent : msg = .eraUpdate a → n' = p.bond)
    (hkept : msg ≠ .eraUpdate a → n' = n) : Away p' n' := by
  rcases hstep.calm_or_era with hcalm | hera
  · have hmsg : msg ≠ .eraUpdate a := by
      rintro rfl
      exact hcalm.call rfl rfl
    rw [hkept hmsg]
    exact ⟨fun h => hcalm.snapshot ▸ haway.during (hcalm.status ▸ h),
      fun h => haway.otherwise (hcalm.status ▸ h)⟩
  -- a step after the bond step has nothing away
  have hnone : ¬ beforeBond p.status → msg ≠ .eraUpdate a →
      ¬ beforeBond p'.status → Away p' n' := by
    intro hbefore hmsg hafter
    rw [hkept hmsg, haway.otherwise hbefore]
    exact ⟨fun h => absurd h hafter, fun _ => rfl⟩
  cases hera with
  | init htarget hstatus hcalls =>
      exact hnone (by simp [hstatus, beforeBond]) (by simp)
        (by simp [beforeBond])
  | migrate htarget hstatus hrate hcal hcalls =>
      exact hnone (by simp [hstatus, beforeBond]) (by simp)
        (by simp [beforeBond])
  | retry htarget hmsg hstatus hcalls =>
      refine hnone (by simp [hstatus, beforeBond]) ?_
        (by simp [hstatus, beforeBond])
      rcases hmsg with ⟨_, rfl⟩ | ⟨_, rfl⟩ <;> simp
  | eraUpdate hstatus hupdate hbond =>
      exact ⟨fun _ => hsent rfl, fun h => absurd (.inr (.inl rfl)) h⟩
  | eraUpdateSent hstatus hupdate hbond hcalls =>
      exact ⟨fun _ => hsent rfl, fun h => absurd (.inl rfl) h⟩
  | eraBond hstatus hmsgs hsent' hcalls =>
      rw [hkept (by simp)]
      exact ⟨fun _ => haway.during (.inr (.inl hstatus)),
        fun h => absurd (.inr (.inr rfl)) h⟩
  | collect hstatus hinfo hamount =>
      exact hnone (by simp [hstatus, beforeBond]) (by simp)
        (by simp [beforeBond])
  | collectSent hstatus hinfo hamount hne hcalls hmsgs =>
      exact hnone (by simp [hstatus, beforeBond]) (by simp)
        (by simp [beforeBond])
  | rebond hstatus hzero =>
      exact hnone (by simp [hstatus, beforeBond]) (by simp)
        (by simp [beforeBond])
  | rebondSent hstatus hne hmsgs hsent' hcalls =>
      rw [hkept (by simp)]
      exact haway
  | active hstatus hshares hstack act htotal =>
      exact hnone (by simp [hstatus, beforeBond]) (by simp)
        (by simp [beforeBond, Activation.apply])

/-- What is away after an answer. -/
theorem away_of_answer {height : Nat} {n n' : Nat} (haway : Away p n)
    (hawaited : payload.txType.isEra = true →
      awaited p.status = some payload.txType)
    (hinit : payload.txType = .setWithdrawAddr → ¬ beforeBond p.status)
    (hstep : AnswerStep height p payload answer p')
    (hsettled : Settles payload answer → n' = 0)
    (hkept : ¬ Settles payload answer → n' = n) : Away p' n' := by
  have hstatus : ∀ txType, payload.txType = txType → txType.isEra = true →
      awaited p.status = some txType := by
    rintro _ rfl hkind
    exact hawaited hkind
  -- the answers that leave the pool after its bond step
  have hnone : ¬ beforeBond p.status → ¬ Settles payload answer →
      ¬ beforeBond p'.status → Away p' n' := by
    intro hbefore hsettles hafter
    rw [hkept hsettles, haway.otherwise hbefore]
    exact ⟨fun h => absurd h hafter, fun _ => rfl⟩
  rcases hstep.calm_or_era with hcalm | hera
  · have hsettles : ¬ Settles payload answer := by
      rintro (⟨htype, -⟩ | ⟨htype, -⟩) <;>
        exact absurd hcalm.kind.1 (by simp [htype, TxType.isEra])
    rw [hkept hsettles]
    exact ⟨fun h => hcalm.snapshot ▸ haway.during (hcalm.status ▸ h),
      fun h => haway.otherwise (hcalm.status ▸ h)⟩
  cases hera with
  | setWithdraw htype =>
      exact hnone (hinit htype) (by simp [Settles, htype])
        (by simp [beforeBond])
  | setWithdrawFailed htype hfailed =>
      exact hnone (hinit htype) (by simp [Settles, htype])
        (by simp [beforeBond])
  | eraUpdate htype =>
      have hstarted := status_of_awaited.1.mp (hstatus _ htype rfl)
      rw [hkept (by simp [Settles, htype])]
      exact ⟨fun _ => haway.during (.inl hstarted),
        fun h => absurd (.inr (.inl rfl)) h⟩
  | eraUpdateFailed htype hfailed hera =>
      rw [hsettled (.inl ⟨htype, hfailed⟩)]
      exact ⟨by simp [beforeBond], fun _ => rfl⟩
  | eraBond htype hbond hunbond =>
      rw [hsettled (.inr ⟨htype, rfl⟩)]
      exact ⟨by simp [beforeBond], fun _ => rfl⟩
  | eraBondFailed htype hfailed =>
      have hstarted := status_of_awaited.2.1.mp (hstatus _ htype rfl)
      rw [hkept (by simp [Settles, htype, hfailed])]
      exact ⟨fun _ => haway.during (.inr (.inr hstarted)),
        fun h => absurd (.inr (.inl rfl)) h⟩
  | collect htype =>
      have hstarted := status_of_awaited.2.2.1.mp (hstatus _ htype rfl)
      exact hnone (by simp [hstarted, beforeBond]) (by simp [Settles, htype])
        (by simp [beforeBond])
  | collectFailed htype hfailed =>
      have hstarted := status_of_awaited.2.2.1.mp (hstatus _ htype rfl)
      exact hnone (by simp [hstarted, beforeBond]) (by simp [Settles, htype])
        (by simp [beforeBond])
  | rebond htype =>
      have hstarted := status_of_awaited.2.2.2.mp (hstatus _ htype rfl)
      exact hnone (by simp [hstarted, beforeBond]) (by simp [Settles, htype])
        (by simp [beforeBond])
  | rebondFailed htype hfailed =>
      have hstarted := status_of_awaited.2.2.2.mp (hstatus _ htype rfl)
      exact hnone (by simp [hstarted, beforeBond]) (by simp [Settles, htype])
        (by simp [beforeBond])

/-! ### The coins of the packets -/

/-- The transfer of an update carries the bond of the snapshot. -/
def Transfers (w : World) (a : String) (p : PoolInfo) : Prop :=
  ∀ id packet, w.pending id = some packet →
    packet.kind a = some .eraUpdate → ∃ transfer,
      packet.msg = .ibcTransfer transfer ∧
      transfer.token = ⟨p.ibcDenom, p.eraSnapshot.bond⟩

/-- While the transfer of an update waits, the pool waits for it. -/
theorem InOrder.updating (ho : InOrder w a p)
    (hpacket : w.pending id = some packet)
    (hkind : packet.kind a = some .eraUpdate) :
    p.status = .eraUpdateStarted := by
  obtain ⟨payload, hpayload, hpool, htype⟩ := Packet.kind_eq_some.mp hkind
  have hawaited := (ho.cycle.awaited_of_packet hpacket hpayload hpool
    (by rw [htype]; rfl)).2
  rw [htype] at hawaited
  exact status_of_awaited.1.mp hawaited

theorem transfers_of_move (ho : InOrder w a p) (ho' : InOrder w' a p')
    (ht : Transfers w a p) (hmove : PoolMove net w ev w' a p p') :
    Transfers w' a p' := by
  intro id packet hpacket hkind
  have hupdating' := ho'.updating hpacket hkind
  -- an older packet: both records wait for it
  have hold : w.pending id = some packet →
      p'.ibcDenom = p.ibcDenom ∧
        p'.eraSnapshot.bond = p.eraSnapshot.bond → ∃ transfer,
      packet.msg = .ibcTransfer transfer ∧
        transfer.token = ⟨p'.ibcDenom, p'.eraSnapshot.bond⟩ := by
    rintro hpacket ⟨hdenom, hbond⟩
    rw [hdenom, hbond]
    exact ht id packet hpacket hkind
  cases hmove with
  | executed haction hstep hsends =>
      rcases pending_of_sends hsends hpacket with hpacket | ⟨sub, rfl, -, rfl⟩
      · have hupdating := ho.updating hpacket hkind
        rcases hstep.calm_or_era with hcalm | hera
        · refine hold hpacket ⟨?_, by rw [hcalm.snapshot]⟩
          rcases ExecStep.bond hstep with h | ⟨_, _, -, -, -, -, h⟩ | ⟨h, -⟩
          · exact h.2.1
          · exact h.1
          · exact absurd (hupdating.symm.trans h) (by decide)
        · cases hera with
          | init _ h | migrate _ h | retry _ _ h | eraUpdate h
          | eraUpdateSent h | eraBond h | collect h | collectSent h
          | rebond h | rebondSent h | active h =>
              exact absurd (hupdating.symm.trans h) (by decide)
      · obtain ⟨payload, hpayload, hpool, htype⟩ :=
          Packet.kind_eq_some.mp hkind
        have hcalls : Calls sub a .eraUpdate :=
          ⟨payload, hpayload, hpool, htype⟩
        rcases hstep.calm_or_era with hcalm | hera
        · exact absurd hcalls (hcalm.quiet sub rfl _ (.inl rfl))
        · cases hera with
          | eraUpdateSent hstatus hupdate hbond hcalls' hmsg htoken =>
              exact ⟨_, hmsg, htoken⟩
          | init _ _ h | migrate _ _ _ _ h | retry _ _ _ h | eraBond _ _ _ h
          | collectSent _ _ _ _ h | rebondSent _ _ _ _ h =>
              exact absurd (calls_type h hcalls) (by decide)
  | answered haction hpacket' hpayload hpool hstep hpending =>
      have hpacket := pending_of_remove hpending hpacket
      have hupdating := ho.updating hpacket hkind
      rcases hstep.calm_or_era with hcalm | hera
      · exact hold hpacket ⟨(AnswerStep.bond hstep).1,
          by rw [hcalm.snapshot]⟩
      · cases hera <;> cases hupdating'
  | answeredElsewhere _ _ _ hpending =>
      exact hold (pending_of_remove hpending hpacket) ⟨rfl, rfl⟩
  | vain _ _ _ _ _ hpending =>
      exact hold (pending_of_remove hpending hpacket) ⟨rfl, rfl⟩
  | idle _ _ hpending => exact hold (hpending ▸ hpacket) ⟨rfl, rfl⟩

/-- The transfer of a stake of shares carries the coin that its text names. -/
def SharesPaid (w : World) : Prop :=
  ∀ id packet payload, w.pending id = some packet →
    packet.payload = some payload → payload.txType = .stakeLsm →
    ∃ stake : LsmStake, ∃ transfer, stake.PaidInto payload ∧
      packet.msg = .ibcTransfer transfer ∧ transfer.token = stake.coin

theorem sharesPaid_step (hs : Sound net w) (hstep : w.step net ev = some w')
    (h : SharesPaid w) : SharesPaid w' := by
  intro id packet payload hpacket hpayload htype
  cases traffic_of_step hs hstep with
  | quiet _ hpending =>
      exact h id packet payload (hpending ▸ hpacket) hpayload htype
  | answered _ hpending =>
      exact h id packet payload (pending_of_remove hpending hpacket) hpayload
        htype
  | sent haction hsends hpayloads hother hhomed =>
      rename_i querier info msg _ _
      obtain ⟨store, rsp, sent, hexec⟩ := executed_of_step hs hstep haction
      rcases pending_of_sends hexec.sends hpacket with
        hpacket | ⟨sub, rfl, -, rfl⟩
      · exact h id packet payload hpacket hpayload htype
      obtain ⟨p, hp⟩ := hexec.outcome.homed sub rfl payload hpayload
      obtain ⟨p', -, hpool⟩ := hexec.outcome.step _ p hp
      have hkind := (hpool.sends ⟨payload, hpayload, rfl, htype⟩).1
      cases msg with
      | stakeLsm user b =>
          obtain ⟨p, coin, trace, port, channel, _, record, tokenAmount,
            transfer, payload', -, -, -, -, -, -, -, -, -,
            ⟨_, _, -, -, hworth, hne⟩, -, -, -, htoken, hmessage, haddr, htype,
            -, hmsgs⟩ := executeStakeLsm_ok hexec.call
          obtain ⟨hworth', hamount⟩ := lsmTokenAmount_lt hworth hne
          have hsent := hexec.sent_eq (packets_single rfl hmsgs)
          obtain rfl := Option.some.inj hsent
          obtain rfl := Option.some.inj hpayload
          exact ⟨⟨user, b, coin, tokenAmount, trace.baseDenom⟩, transfer,
            ⟨hmessage, haddr, htype, hworth', hamount⟩, rfl, htoken⟩
      | _ => cases hkind

/-! ### The coins of an event -/

/-- An answer spends what a failed transfer has returned, at most. -/
theorem answer_spent (hs : Sound net w) (hpaid : SharesPaid w)
    (hdenom : denom ≠ feeDenom)
    (haction : ev.action = .answer id answer querier bankAccepts)
    (hpacket : w.pending id = some packet) :
    spent denom (emitted net w ev) ≤ amountOf denom (w.returned id answer) := by
  rcases emitted_of_answer hs haction hpacket with
    hnone | ⟨payload, store, rsp, hpayload, hcall, hmsgs⟩
  · rw [hnone]
    exact Nat.zero_le _
  rw [hmsgs]
  rcases callback_spent hcall with hfrugal | ⟨htype, hfailed, hrefund⟩
  · rw [spent_of_frugal hdenom hfrugal]
    exact Nat.zero_le _
  · obtain ⟨stake, transfer, hstake, hmsg, htoken⟩ :=
      hpaid id packet payload hpacket hpayload htype
    obtain ⟨-, hmsgs⟩ := refund_eq hstake hrefund
    have hreturned : w.returned id answer = [stake.coin] := by
      obtain ⟨msg, _, _, _⟩ := packet
      obtain rfl : msg = _ := hmsg
      unfold returned
      rw [hpacket]
      cases answer with
      | success => exact absurd rfl hfailed
      | error => simp [htoken]
      | timeout => simp [htoken]
    rw [hmsgs, hreturned]
    simp [spent, CosmosMsg.spends]

/-- The change of the balance. -/
def flow (net : Network) (denom : String) (w : World) (ev : Event) : ℤ :=
  amountOf denom (w.received ev) - spent denom (emitted net w ev)

theorem flow_of_exec (hs : Sound net w) (hstep : w.step net ev = some w')
    (hdenom : denom ≠ feeDenom)
    (haction : ev.action = .execute querier info msg id) :
    0 ≤ flow net denom w ev ∨ ∃ b p, msg = .eraUpdate b ∧
      w.store.pools b = some p ∧ p.status = .activeEnded ∧
      p.ibcDenom = denom ∧ -(p.bond : ℤ) ≤ flow net denom w ev := by
  obtain ⟨store, rsp, sent, hexec⟩ := executed_of_step hs hstep haction
  have hemitted := emitted_of_exec haction hexec
  have hreceived : w.received ev = info.funds := by
    simp [received, haction]
  unfold flow
  rw [hemitted, hreceived]
  rcases execute_spent hdenom hexec.call with
    hle | ⟨b, p, rfl, hp, hstatus, hpool, hspent⟩
  · left
    omega
  · right
    exact ⟨b, p, rfl, hp, hstatus, hpool, by omega⟩

theorem flow_of_answer (hs : Sound net w) (hpaid : SharesPaid w)
    (hdenom : denom ≠ feeDenom)
    (haction : ev.action = .answer id answer querier bankAccepts)
    (hpacket : w.pending id = some packet) : 0 ≤ flow net denom w ev := by
  have hspent := answer_spent hs hpaid hdenom haction hpacket
  have hreceived : w.received ev = w.returned id answer := by
    simp [received, haction]
  unfold flow
  rw [hreceived]
  omega

/-- A stake leaves its coin with the contract. -/
theorem flow_of_stake (hs : Sound net w) (hstep : w.step net ev = some w')
    {user : String} {coin : Coin}
    (haction : ev.action = .execute querier info (.stake user a) id)
    (hfunds : info.funds = [coin]) (hcoin : coin.denom = denom) :
    flow net denom w ev = coin.amount := by
  obtain ⟨store, rsp, sent, hexec⟩ := executed_of_step hs hstep haction
  obtain ⟨_, _, _, _, _, _, -, hmsgs⟩ := executeStake_ok hexec.call
  simp [flow, emitted_of_exec haction hexec, hmsgs, received, haction, hfunds,
    spent, CosmosMsg.spends, amountOf, hcoin]

/-- A failed update brings its coins back. -/
theorem flow_of_failed_update (hs : Sound net w)
    (haction : ev.action = .answer id answer querier bankAccepts)
    (hpacket : w.pending id = some packet)
    (hpayload : packet.payload = some payload)
    (htype : payload.txType = .eraUpdate) (hfailed : answer ≠ .success)
    {transfer : IbcTransfer} {amount : Nat}
    (hmsg : packet.msg = .ibcTransfer transfer)
    (htoken : transfer.token = ⟨denom, amount⟩) :
    flow net denom w ev = amount := by
  have hnone : emitted net w ev = [] := by
    rcases emitted_of_answer hs haction hpacket with
      hnone | ⟨payload', store, rsp, hpayload', hcall, hmsgs⟩
    · exact hnone
    obtain rfl := Option.some.inj (hpayload.symm.trans hpayload')
    rw [hmsgs]
    cases answer with
    | success => exact absurd rfl hfailed
    | error => exact sudoFailedCallback_silent (by simp [htype]) hcall
    | timeout => exact sudoFailedCallback_silent (by simp [htype]) hcall
  have hreturned : w.returned id answer = [⟨denom, amount⟩] := by
    obtain ⟨msg, _, _, _⟩ := packet
    obtain rfl : msg = _ := hmsg
    unfold returned
    rw [hpacket]
    cases answer with
    | success => exact absurd rfl hfailed
    | error => simp [htoken]
    | timeout => simp [htoken]
  simp [flow, hnone, received, haction, hreturned, spent, amountOf]

theorem flow_of_idle
    (hexecute : ∀ querier info msg id,
      ev.action ≠ .execute querier info msg id)
    (hanswer : ∀ id answer querier bankAccepts,
      ev.action ≠ .answer id answer querier bankAccepts) :
    0 ≤ flow net denom w ev := by
  have hnone : spent denom (emitted net w ev) = 0 := by
    unfold emitted
    split
    · rename_i haction
      exact absurd haction (hexecute _ _ _ _)
    · rename_i haction
      exact absurd haction (hanswer _ _ _ _)
    · rename_i queryId _ _
      unfold messages
      dsimp only [sudoEntry]
      cases hcall : sudoKvQueryResult w.store queryId with
      | error e => rfl
      | ok result =>
          obtain ⟨-, hmsgs | hmsgs⟩ := sudoKvQueryResult_ok hcall
          · simp [Except.toOption, hmsgs, spent, amountOf]
          · simp [Except.toOption, hmsgs, spent, amountOf, CosmosMsg.spends]
    · rfl
    · rfl
  unfold flow
  omega

/-! ### What is away after an event -/

theorem away_sent (hupdated : updatedPool ev = some a) :
    (keepCustody net denom books w ev w').away a =
      spent denom (emitted net w ev) := by
  simp [keepCustody, hupdated]

theorem away_settled (hupdated : updatedPool ev = none)
    (hsettled : settledPool w ev = some a) :
    (keepCustody net denom books w ev w').away a = 0 := by
  simp [keepCustody, hupdated, hsettled]

theorem away_kept (hupdated : updatedPool ev ≠ some a)
    (hsettled : settledPool w ev ≠ some a) :
    (keepCustody net denom books w ev w').away a = books.away a := by
  unfold keepCustody
  cases hevent : updatedPool ev with
  | some b =>
      have hne : a ≠ b := fun h => hupdated (h ▸ hevent)
      exact Function.update_of_ne hne _ _
  | none =>
      cases hpool : settledPool w ev with
      | none => rfl
      | some b =>
          have hne : a ≠ b := fun h => hsettled (h ▸ hpool)
          exact Function.update_of_ne hne _ _

theorem updatedPool_eq_some : updatedPool ev = some a ↔
    ∃ querier info id,
      ev.action = .execute querier info (.eraUpdate a) id := by
  unfold updatedPool
  split
  · rename_i querier info b id haction
    simp [haction]
  · rename_i hother
    simp only [reduceCtorEq, false_iff, not_exists]
    exact fun querier info id h => hother _ _ _ _ h

theorem settledPool_of_answer
    (haction : ev.action = .answer id answer querier bankAccepts)
    (hpacket : w.pending id = some packet) :
    settledPool w ev = some a ↔ ∃ payload, packet.payload = some payload ∧
      payload.poolAddr = a ∧ Settles payload answer := by
  simp only [settledPool, haction, hpacket, Option.bind_some,
    Option.bind_eq_some_iff, Option.ite_none_right_eq_some,
    Option.some.injEq, Settles]
  constructor
  · rintro ⟨payload, hpayload, hsettles, hpool⟩
    exact ⟨payload, hpayload, hpool, hsettles⟩
  · rintro ⟨payload, hpayload, hpool, hsettles⟩
    exact ⟨payload, hpayload, hsettles, hpool⟩

theorem settledPool_of_no_answer
    (hanswer : ∀ id answer querier bankAccepts,
      ev.action ≠ .answer id answer querier bankAccepts) :
    settledPool w ev = none := by
  unfold settledPool
  split
  · rename_i haction
    exact absurd haction (hanswer _ _ _ _)
  · rfl

/-! ### The invariant -/

/-- The pool is of the denom, or may become one. -/
def Ours (denom : String) (p : PoolInfo) : Prop :=
  p.ibcDenom = denom ∨ p.status = .registerEnded

/-- What is known of a pool whose transfers are `away`. -/
structure PoolKept (w : World) (a : String) (p : PoolInfo) (away : Nat) :
    Prop where
  order : InOrder w a p
  away : Away p away
  transfers : Transfers w a p

/-- The pools of the denom are in order, and the balance covers them. -/
structure InCustody (net : Network) (denom : String)
    (s : World × CustodyBooks) : Prop where
  sound : Sound net s.1
  paid : SharesPaid s.1
  kept : ∀ a p, s.1.store.pools a = some p → Ours denom p →
    PoolKept s.1 a p (s.2.away a)
  missing : ∀ a, s.1.store.pools a = none → s.2.away a = 0
  covered : Custody.Covered (Holds denom s.1) (owed s) s.2.balance

theorem PoolMove.ours (hmove : PoolMove net w ev w' a p p')
    (h : Ours denom p') : Ours denom p := by
  rcases h with hdenom | hstatus
  · cases hmove with
    | executed haction hstep hsends =>
        rcases ExecStep.bond hstep with ⟨-, h, -⟩ | ⟨_, _, -, -, -, -, h, -⟩ |
          ⟨h, -⟩
        · exact .inl (h ▸ hdenom)
        · exact .inl (h ▸ hdenom)
        · exact .inr h
    | answered haction hpacket hpayload hpool hstep hpending =>
        exact .inl ((AnswerStep.bond hstep).1 ▸ hdenom)
    | _ => exact .inl hdenom
  · exact .inr (hmove.registered hstatus)

/-- An answer that settles a transfer is of the era cycle. -/
theorem Settles.isEra (h : Settles payload answer) :
    payload.txType.isEra = true := by
  rcases h with ⟨htype, -⟩ | ⟨htype, -⟩ <;> rw [htype] <;> rfl

/-- A pool that is in its cycle has settled a transfer only when the callback
of the answer was handled. -/
theorem not_settled_of_vain (hc : InCycle w a p)
    (hp : w.store.pools a = some p)
    (haction : ev.action = .answer id answer querier bankAccepts)
    (hpacket : w.pending id = some packet)
    (hpayload : packet.payload = some payload) (hpool : payload.poolAddr = a)
    (hvain : ∀ store rsp, callback (w.afterTake id) ⟨ev.block, net.self⟩
      payload answer = .ok (store, rsp) → rsp.messages ≠ []) :
    settledPool w ev ≠ some a := by
  intro hsettled
  obtain ⟨payload', hpayload', -, hsettles⟩ :=
    (settledPool_of_answer haction hpacket).mp hsettled
  obtain rfl := Option.some.inj (hpayload.symm.trans hpayload')
  have hstep := hc.not_vain hp hpacket hpayload hpool hvain
  simp only [TxType.isStep, Bool.or_eq_false_iff] at hstep
  exact absurd (hsettles.isEra.symm.trans hstep.1) (by decide)

theorem updatedPool_of_answer
    (haction : ev.action = .answer id answer querier bankAccepts) :
    updatedPool ev = none := by
  simp [updatedPool, haction]

/-- What is away matches the record after every move. -/
theorem away_of_move (hs : Sound net w) (hstep : w.step net ev = some w')
    (hdenom : denom ≠ feeDenom) (hp : w.store.pools a = some p)
    (hours : Ours denom p) (hkept : PoolKept w a p (books.away a))
    (hmove : PoolMove net w ev w' a p p') :
    Away p' ((keepCustody net denom books w ev w').away a) := by
  cases hmove with
  | executed haction hmove hsends =>
      rename_i querier info msg id sent
      refine away_of_exec hkept.away hmove ?_ fun hmsg => ?_
      · rintro rfl
        have hupdated : updatedPool ev = some a :=
          updatedPool_eq_some.mpr ⟨_, _, _, haction⟩
        obtain ⟨store, rsp, sent', hexec⟩ := executed_of_step hs hstep haction
        rw [away_sent hupdated, emitted_of_exec haction hexec,
          executeEraUpdate_spent hdenom hp hexec.call, if_pos]
        obtain ⟨q, _, hq, hstatus, -⟩ := executeEraUpdate_ok hexec.call
        obtain rfl := Option.some.inj (hp.symm.trans hq)
        rcases hours with hpool | hregistered
        · exact hpool
        · exact absurd (hstatus.symm.trans hregistered) (by decide)
      · refine away_kept ?_ ?_
        · intro hupdated
          obtain ⟨_, _, _, haction'⟩ := updatedPool_eq_some.mp hupdated
          rw [haction, Action.execute.injEq] at haction'
          exact hmsg haction'.2.2.1
        · rw [settledPool_of_no_answer (by simp [haction])]
          exact nofun
  | answered haction hpacket hpayload hpool hmove hpending =>
      rename_i id answer querier bankAccepts packet payload
      have hupdated := updatedPool_of_answer haction
      have hsettled : settledPool w ev = some a ↔ Settles payload answer := by
        rw [settledPool_of_answer haction hpacket, hpayload]
        simp [hpool]
      refine away_of_answer hkept.away (fun hkind =>
        (hkept.order.cycle.awaited_of_packet hpacket hpayload hpool hkind).2)
        (fun htype hbefore => ?_) hmove
        (fun h => away_settled hupdated (hsettled.mpr h))
        fun h => away_kept (by simp [hupdated]) fun h' => h (hsettled.mp h')
      have hmay := hkept.order.init.may _ _ (waiting_eq_some.mpr
        ⟨⟨_, _, hpacket, hpayload, hpool, htype⟩, rfl⟩)
      rcases hmay with h | h <;> simp [h, beforeBond] at hbefore
  | answeredElsewhere haction hpacket helsewhere hpending =>
      rw [away_kept (by simp [updatedPool_of_answer haction])]
      · exact hkept.away
      · intro hsettled
        obtain ⟨payload, hpayload, hpool, -⟩ :=
          (settledPool_of_answer haction hpacket).mp hsettled
        exact helsewhere _ hpayload hpool
  | vain haction hpacket hpayload hpool hvain hpending =>
      rw [away_kept (by simp [updatedPool_of_answer haction])]
      · exact hkept.away
      · exact not_settled_of_vain hkept.order.cycle hp haction hpacket
          hpayload hpool hvain
  | idle hexecute hanswer hpending =>
      rw [away_kept]
      · exact hkept.away
      · intro hupdated
        obtain ⟨_, _, _, haction⟩ := updatedPool_eq_some.mp hupdated
        exact hexecute _ _ _ _ haction
      · rw [settledPool_of_no_answer hanswer]
        simp

/-- Only a pool that has started is handled an answer that leaves it
started. -/
theorem started_of_answer {height : Nat} (ho : InOrder w a p)
    (hpacket : w.pending id = some packet)
    (hpayload : packet.payload = some payload) (hpool : payload.poolAddr = a)
    (hstep : AnswerStep height p payload answer p')
    (hstarted : p'.status ≠ .registerEnded) : p.status ≠ .registerEnded := by
  intro hstatus
  rcases hstep.calm_or_era with hcalm | hera
  · exact hstarted (hcalm.status.trans hstatus)
  have hkind := EraAnswer.isStep hera
  simp only [TxType.isStep, Bool.or_eq_true] at hkind
  rcases hkind with hkind | hkind
  · have hawaited :=
      (ho.cycle.awaited_of_packet hpacket hpayload hpool hkind).2
    simp [hstatus, awaited] at hawaited
  · have hmay := ho.init.may _ _ (waiting_eq_some.mpr
      ⟨⟨_, _, hpacket, hpayload, hpool, rfl⟩, hkind⟩)
    rcases hmay with h | h <;> simp [hstatus] at h

/-- What a call changes in what its pool is owed. -/
theorem owed_of_exec {sent : Option SubMsg} (hs : Sound net w)
    (hstep : w.step net ev = some w') (hdenom : denom ≠ feeDenom)
    (hminded : Minded denom w ev) (hp : w.store.pools a = some p)
    (hkept : PoolKept w a p (books.away a))
    (haction : ev.action = .execute querier info msg id)
    (htarget : msg.target w.store = some a)
    (hmove : ExecStep w.store querier ⟨ev.block, net.self⟩ info a p msg sent
      p')
    (hstarted : p'.status ≠ .registerEnded) (hpool : p'.ibcDenom = denom) :
    p.status ≠ .registerEnded ∧ p.ibcDenom = denom ∧
        (p'.bond : ℤ) - (keepCustody net denom books w ev w').away a ≤
          p.bond - books.away a + flow net denom w ev ∨
      (p'.bond : ℤ) - (keepCustody net denom books w ev w').away a ≤
        flow net denom w ev := by
  have haway : msg ≠ .eraUpdate a →
      (keepCustody net denom books w ev w').away a = books.away a := by
    intro hmsg
    refine away_kept (fun hupdated => ?_) ?_
    · obtain ⟨_, _, _, haction'⟩ := updatedPool_eq_some.mp hupdated
      rw [haction, Action.execute.injEq] at haction'
      exact hmsg haction'.2.2.1
    · rw [settledPool_of_no_answer (by simp [haction])]
      simp
  have hflow : ¬ (msg = .eraUpdate a ∧ p.status = .activeEnded) →
      0 ≤ flow net denom w ev := by
    intro hmsg
    rcases flow_of_exec hs hstep hdenom haction with
      h | ⟨b, q, rfl, hq, hstatus, -⟩
    · exact h
    · obtain rfl := Option.some.inj htarget
      obtain rfl := Option.some.inj (hp.symm.trans hq)
      exact absurd ⟨rfl, hstatus⟩ hmsg
  rcases ExecStep.bond hmove with ⟨hbond, hsame, hreg⟩ |
    ⟨user, coin, rfl, hfunds, hcoin, hbond, hsame, hstatus⟩ |
    ⟨hreg, -, hzero | ⟨param, rfl, hparam⟩⟩
  · refine .inl ⟨fun h => hstarted (hreg h), hsame ▸ hpool, ?_⟩
    rw [hbond]
    by_cases hmsg : msg = .eraUpdate a ∧ p.status = .activeEnded
    · -- the bond leaves the balance and is away from now on
      obtain ⟨rfl, hstatus⟩ := hmsg
      have hnone := hkept.away.otherwise (by simp [hstatus, beforeBond])
      rw [away_sent (updatedPool_eq_some.mpr ⟨_, _, _, haction⟩), hnone]
      unfold flow
      omega
    · have hkeep := haway fun h => hmsg ⟨h, by
        subst h
        obtain ⟨store, rsp, sent', hexec⟩ := executed_of_step hs hstep haction
        obtain ⟨q, _, hq, hstatus, -⟩ := executeEraUpdate_ok hexec.call
        obtain rfl := Option.some.inj (hp.symm.trans hq)
        exact hstatus⟩
      have hnonneg := hflow hmsg
      rw [hkeep]
      omega
  · refine .inl ⟨fun h => hstarted (hstatus.trans h), hsame ▸ hpool, ?_⟩
    rw [haway (by simp), hbond, flow_of_stake hs hstep haction hfunds
      (hcoin.trans (hsame.symm.trans hpool))]
    omega
  · have hnonneg := hflow fun h => by simp [hreg] at h
    exact .inr (by omega)
  · exact absurd hreg (hminded.initialised param
      (by simp [migrated, haction]) (hparam ▸ hpool) a htarget p hp)

/-- What an answer changes in what its pool is owed. -/
theorem owed_of_answer {height : Nat} (hs : Sound net w)
    (hpaid : SharesPaid w) (hdenom : denom ≠ feeDenom)
    (hkept : PoolKept w a p (books.away a))
    (haction : ev.action = .answer id answer querier bankAccepts)
    (hpacket : w.pending id = some packet)
    (hpayload : packet.payload = some payload) (haddr : payload.poolAddr = a)
    (hmove : AnswerStep height p payload answer p')
    (hpool : p'.ibcDenom = denom) :
    (p'.bond : ℤ) - (keepCustody net denom books w ev w').away a ≤
      p.bond - books.away a + flow net denom w ev := by
  have hupdated := updatedPool_of_answer haction
  have hsettled : settledPool w ev = some a ↔ Settles payload answer := by
    rw [settledPool_of_answer haction hpacket, hpayload]
    simp [haddr]
  have hstatus : ∀ txType, payload.txType = txType → txType.isEra = true →
      awaited p.status = some txType := by
    rintro _ rfl hkind
    exact (hkept.order.cycle.awaited_of_packet hpacket hpayload haddr hkind).2
  have hflow := flow_of_answer hs hpaid hdenom haction hpacket
  obtain ⟨hsame, ⟨htype, rfl, hle, hbond⟩ | ⟨hother, hbond⟩⟩ :=
    AnswerStep.bond hmove
  · -- the bond step takes from the books what was away
    have hstarted := status_of_awaited.2.1.mp (hstatus _ htype rfl)
    rw [away_settled hupdated (hsettled.mpr (.inr ⟨htype, rfl⟩)), hbond,
      hkept.away.during (.inr (.inr hstarted))]
    omega
  · rw [hbond]
    by_cases hsettles : Settles payload answer
    · rcases hsettles with ⟨htype, hfailed⟩ | hbonded
      · -- the transfer comes back
        have hstarted := status_of_awaited.1.mp (hstatus _ htype rfl)
        obtain ⟨transfer, hmsg, htoken⟩ := hkept.transfers id packet hpacket
          (Packet.kind_eq_some.mpr ⟨payload, hpayload, haddr, htype⟩)
        rw [← hsame, hpool] at htoken
        rw [away_settled hupdated (hsettled.mpr (.inl ⟨htype, hfailed⟩)),
          hkept.away.during (.inl hstarted),
          flow_of_failed_update hs haction hpacket hpayload htype hfailed hmsg
            htoken]
        omega
      · exact absurd hbonded hother
    · rw [away_kept (by simp [hupdated]) fun h => hsettles (hsettled.mp h)]
      omega

theorem concerned_of_updated (h : updatedPool ev = some a) :
    concerned w ev = some a := by
  obtain ⟨_, _, _, haction⟩ := updatedPool_eq_some.mp h
  simp [concerned, haction, ExecuteMsg.target]

theorem concerned_of_settled (h : settledPool w ev = some a) :
    concerned w ev = some a := by
  unfold settledPool at h
  split at h
  · rename_i haction
    simp only [Option.bind_eq_some_iff, Option.ite_none_right_eq_some,
      Option.some.injEq] at h
    obtain ⟨packet, hpacket, payload, hpayload, -, rfl⟩ := h
    simp [concerned, haction, hpacket, hpayload]
  · cases h

/-- A pool that the event is not about is owed what it was owed. -/
theorem owed_elsewhere (hs : Sound net w) (hstep : w.step net ev = some w')
    (ha : concerned w ev ≠ some a) (hholds : Holds denom w' a) :
    Holds denom w a ∧
      owed (w', keepCustody net denom books w ev w') a = owed (w, books) a := by
  obtain ⟨p', hp', hstarted, hpool⟩ := hholds
  have haway : (keepCustody net denom books w ev w').away a = books.away a :=
    away_kept (fun h => ha (concerned_of_updated h))
      fun h => ha (concerned_of_settled h)
  cases hp : w.store.pools a with
  | none =>
      obtain ⟨⟨_, _, _, rfl, -⟩, -⟩ := pool_created hs hstep hp hp'
      exact absurd rfl hstarted
  | some p =>
      obtain ⟨next, hnext, hmove⟩ := pool_move hs hstep hp
      obtain rfl := Option.some.inj (hnext.symm.trans hp')
      obtain rfl := hmove.untouched ha
      exact ⟨⟨_, hp, hstarted, hpool⟩, by simp [owed, hp, hp', haway]⟩

/-- Coins only leave the balance for the pool that they are owed to. -/
theorem flow_spare (hinv : InCustody net denom (w, books))
    (hstep : w.step net ev = some w') (hdenom : denom ≠ feeDenom) :
    0 ≤ flow net denom w ev ∨ ∃ b, concerned w ev = some b ∧
      Holds denom w b ∧ 0 ≤ owed (w, books) b + flow net denom w ev := by
  have hs : Sound net w := hinv.sound
  have hpaid : SharesPaid w := hinv.paid
  cases haction : ev.action with
  | execute querier info msg id =>
      rcases flow_of_exec hs hstep hdenom haction with
        h | ⟨b, p, rfl, hp, hstatus, hpool, hle⟩
      · exact .inl h
      have hnone := (hinv.kept b p hp (.inl hpool)).away.otherwise
        (by simp [hstatus, beforeBond])
      refine .inr ⟨b, by simp [concerned, haction, ExecuteMsg.target],
        ⟨p, hp, by simp [hstatus], hpool⟩, ?_⟩
      dsimp only at hp hnone
      simp only [owed, hp, hnone]
      omega
  | answer id answer querier bankAccepts =>
      obtain ⟨-, -, hact⟩ := step_eq_some hstep
      rw [haction] at hact
      simp only [act] at hact
      split at hact
      · cases hact
      · rename_i packet hpacket
        exact .inl (flow_of_answer hs hpaid hdenom haction hpacket)
  | _ => exact .inl (flow_of_idle (by simp [haction]) (by simp [haction]))

/-- What the pool of an event is owed afterwards it was owed before, or the
event has brought it. -/
theorem owed_of_concerned (hinv : InCustody net denom (w, books))
    (hstep : w.step net ev = some w') (hdenom : denom ≠ feeDenom)
    (hminded : Minded denom w ev) (ha : concerned w ev = some a)
    (hholds : Holds denom w' a) :
    Holds denom w a ∧ owed (w', keepCustody net denom books w ev w') a ≤
        owed (w, books) a + flow net denom w ev ∨
      owed (w', keepCustody net denom books w ev w') a ≤
        flow net denom w ev := by
  have hs : Sound net w := hinv.sound
  have hpaid : SharesPaid w := hinv.paid
  obtain ⟨p', hp', hstarted, hpool⟩ := hholds
  cases hp : w.store.pools a with
  | none =>
      obtain ⟨⟨_, _, _, rfl, -⟩, -⟩ := pool_created hs hstep hp hp'
      exact absurd rfl hstarted
  | some p =>
      obtain ⟨next, hnext, hmove⟩ := pool_move hs hstep hp
      obtain rfl := Option.some.inj (hnext.symm.trans hp')
      have hkept := hinv.kept a p hp (hmove.ours (.inl hpool))
      simp only [owed, hp, hp']
      cases hmove with
      | executed haction hmove hsends =>
          simp only [concerned, haction] at ha
          rcases owed_of_exec hs hstep hdenom hminded hp hkept haction ha
            hmove hstarted hpool with ⟨hstarted, hpool, hle⟩ | hle
          · exact .inl ⟨⟨p, hp, hstarted, hpool⟩, hle⟩
          · exact .inr hle
      | answered haction hpacket hpayload haddr hmove hpending =>
          exact .inl ⟨⟨p, hp, started_of_answer hkept.order hpacket hpayload
            haddr hmove hstarted, (AnswerStep.bond hmove).1 ▸ hpool⟩,
            owed_of_answer hs hpaid hdenom hkept haction hpacket hpayload
              haddr hmove hpool⟩
      | answeredElsewhere haction hpacket helsewhere hpending =>
          simp only [concerned, haction, hpacket, Option.bind_some,
            Option.map_eq_some_iff] at ha
          obtain ⟨payload, hpayload, haddr⟩ := ha
          exact absurd haddr (helsewhere payload hpayload)
      | vain haction hpacket hpayload haddr hvain hpending =>
          refine .inl ⟨⟨p, hp, hstarted, hpool⟩, ?_⟩
          have hflow := flow_of_answer hs hpaid hdenom haction hpacket
          rw [away_kept (by simp [updatedPool_of_answer haction])
            (not_settled_of_vain hkept.order.cycle hp haction hpacket hpayload
              haddr hvain)]
          omega
      | idle hexecute hanswer hpending =>
          unfold concerned at ha
          split at ha
          · rename_i haction
            exact absurd haction (hexecute _ _ _ _)
          · rename_i haction
            exact absurd haction (hanswer _ _ _ _)
          · cases ha

theorem covered_step (hinv : InCustody net denom (w, books))
    (hstep : w.step net ev = some w') (hdenom : denom ≠ feeDenom)
    (hminded : Minded denom w ev) :
    Custody.Covered (Holds denom w')
      (owed (w', keepCustody net denom books w ev w'))
      (keepCustody net denom books w ev w').balance := by
  have hbalance : (keepCustody net denom books w ev w').balance =
      books.balance + flow net denom w ev := by
    simp only [keepCustody, flow]
    omega
  have hspare := flow_spare hinv hstep hdenom
  rw [hbalance]
  cases hconcerned : concerned w ev with
  | none =>
      have hnonneg : 0 ≤ flow net denom w ev := by
        rcases hspare with h | ⟨b, hb, -⟩
        · exact h
        · exact absurd (hconcerned.symm.trans hb) (by simp)
      have helsewhere : ∀ i, Holds denom w' i → Holds denom w i ∧
          owed (w', keepCustody net denom books w ev w') i =
            owed (w, books) i := fun i =>
        owed_elsewhere hinv.sound hstep (by simp [hconcerned])
      refine hinv.covered.step (b := "") (fun i _ => helsewhere i)
        (.inl hnonneg) fun hholds => ?_
      obtain ⟨hold, howed⟩ := helsewhere "" hholds
      exact .inl ⟨hold, by omega⟩
  | some b =>
      refine hinv.covered.step (b := b) (fun i hi => ?_) ?_
        (owed_of_concerned hinv hstep hdenom hminded hconcerned)
      · exact owed_elsewhere hinv.sound hstep
          (by simpa [hconcerned] using Ne.symm hi)
      · rcases hspare with h | ⟨c, hc, hholds, hle⟩
        · exact .inl h
        · obtain rfl := Option.some.inj (hconcerned.symm.trans hc)
          exact .inr ⟨hholds, hle⟩

theorem kept_step (hinv : InCustody net denom (w, books))
    (hstep : w.step net ev = some w') (hdenom : denom ≠ feeDenom)
    (hminded : Minded denom w ev) :
    ∀ p', w'.store.pools a = some p' → Ours denom p' →
      PoolKept w' a p' ((keepCustody net denom books w ev w').away a) := by
  have hs : Sound net w := hinv.sound
  refine pool_invariant (I := fun p => Ours denom p →
    PoolKept w a p (books.away a)) hs hstep (hinv.kept a) ?_ ?_
  · intro p p' hp hp' hkept hmove hours'
    have hours := hmove.ours hours'
    have hkept := hkept hours
    have horder := inOrder_step hs hstep
      (fun q hq => Option.some.inj (hp.symm.trans hq) ▸ hkept.order)
      (hminded.orderly_of hp hours) p' hp'
    exact ⟨horder, away_of_move hs hstep hdenom hp hours hkept hmove,
      transfers_of_move hkept.order horder hkept.transfers hmove⟩
  · intro icaId admin hp hpending hnone hexecute hanswer _
    refine ⟨⟨inCycle_registered hnone,
      matched_of_idle (idle_of_not_unanswered hnone) (by simp)⟩,
      ⟨by simp [beforeBond, registeredPool], fun _ => ?_⟩, ?_⟩
    · rw [away_kept, hinv.missing a hp]
      · intro hupdated
        obtain ⟨_, _, _, haction⟩ := updatedPool_eq_some.mp hupdated
        exact hexecute _ _ _ _ haction
      · rw [settledPool_of_no_answer hanswer]
        simp
    · intro id packet hpacket hkind
      obtain ⟨payload, hpayload, haddr, htype⟩ :=
        Packet.kind_eq_some.mp hkind
      exact absurd ⟨packet, payload, hpacket, hpayload, haddr, htype⟩
        (hnone .eraUpdate id)

theorem missing_step (hinv : InCustody net denom (w, books))
    (hstep : w.step net ev = some w') (hp' : w'.store.pools a = none) :
    (keepCustody net denom books w ev w').away a = 0 := by
  have hs : Sound net w := hinv.sound
  have hp : w.store.pools a = none := by
    cases hp : w.store.pools a with
    | none => rfl
    | some p =>
        obtain ⟨p', hsome⟩ := pool_persists hs hstep hp
        exact absurd (hp'.symm.trans hsome) (by simp)
  have hupdated : updatedPool ev ≠ some a := by
    intro hupdated
    obtain ⟨_, _, _, haction⟩ := updatedPool_eq_some.mp hupdated
    obtain ⟨store, rsp, sent, hexec⟩ := executed_of_step hs hstep haction
    obtain ⟨p, _, hsome, -⟩ := executeEraUpdate_ok hexec.call
    exact absurd (hp.symm.trans hsome) (by simp)
  by_cases hsettled : settledPool w ev = some a
  · refine away_settled ?_ hsettled
    unfold settledPool at hsettled
    split at hsettled
    · exact updatedPool_of_answer ‹_›
    · cases hsettled
  · rw [away_kept hupdated hsettled]
    exact hinv.missing a hp

theorem inCustody_step (hinv : InCustody net denom (w, books))
    (hstep : w.step net ev = some w') (hdenom : denom ≠ feeDenom)
    (hminded : Minded denom w ev) :
    InCustody net denom (w', keepCustody net denom books w ev w') where
  sound := sound_step hinv.sound hstep
  paid := sharesPaid_step hinv.sound hstep hinv.paid
  kept _ := kept_step hinv hstep hdenom hminded
  missing _ := missing_step hinv hstep
  covered := covered_step hinv hstep hdenom hminded

/-- What holds of every step: the balance covers what the pools have bonded
and what is not away, the snapshot is covered by the live counters, and so are
the transfer of an update and the callback of a bond step. -/
structure CustodyHolds (net : Network) (denom : String)
    (s : World × CustodyBooks) (ev : Event) (s' : World × CustodyBooks) :
    Prop where
  covered : Custody.Covered (Holds denom s'.1) (owed s') s'.2.balance
  away : ∀ a p, s'.1.store.pools a = some p → p.ibcDenom = denom →
    Away p (s'.2.away a)
  snapshot : ∀ a p, s'.1.store.pools a = some p → p.ibcDenom = denom →
    beforeBond p.status →
      p.eraSnapshot.bond ≤ p.bond ∧ p.eraSnapshot.unbond ≤ p.unbond
  transfer : ∀ a p, updatedPool ev = some a →
    s.1.store.pools a = some p → p.ibcDenom = denom →
      spent denom (emitted net s.1 ev) = p.bond ∧ (p.bond : ℤ) ≤ s.2.balance
  bonded : ∀ id querier bankAccepts packet payload p,
    ev.action = .answer id .success querier bankAccepts →
      s.1.pending id = some packet → packet.payload = some payload →
      payload.txType = .eraBond →
      s.1.store.pools payload.poolAddr = some p → p.ibcDenom = denom →
      ∃ store, sudoEraBondCallback (s.1.afterTake id) ⟨ev.block, net.self⟩
        payload = .ok (store, Response.new)

theorem custodyHolds_of_step (hinv : InCustody net denom (w, books))
    (hstep : w.step net ev = some w') (hdenom : denom ≠ feeDenom)
    (hminded : Minded denom w ev) :
    CustodyHolds net denom (w, books) ev
      (w', keepCustody net denom books w ev w') := by
  have hs : Sound net w := hinv.sound
  have hinv' := inCustody_step hinv hstep hdenom hminded
  refine ⟨hinv'.covered, ?_, ?_, ?_, ?_⟩
  · intro a p hp hpool
    exact (hinv'.kept a p hp (.inl hpool)).away
  · intro a p hp hpool
    exact (hinv'.kept a p hp (.inl hpool)).order.cycle.covered
  · intro a p hupdated hp hpool
    obtain ⟨_, _, _, haction⟩ := updatedPool_eq_some.mp hupdated
    obtain ⟨store, rsp, sent, hexec⟩ := executed_of_step hs hstep haction
    obtain ⟨q, _, hq, hstatus, -⟩ := executeEraUpdate_ok hexec.call
    obtain rfl := Option.some.inj (hp.symm.trans hq)
    have hnone := (hinv.kept a p hp (.inl hpool)).away.otherwise
      (by simp [hstatus, beforeBond])
    have hle := hinv.covered.single ⟨p, hp, by simp [hstatus], hpool⟩
    dsimp only at hp hnone hle
    simp only [owed, hp, hnone, Nat.cast_zero, sub_zero] at hle
    refine ⟨?_, hle⟩
    dsimp only
    rw [emitted_of_exec haction hexec,
      executeEraUpdate_spent hdenom hp hexec.call, if_pos hpool]
  · intro id querier bankAccepts packet payload p haction hpacket hpayload
      htype hp hpool
    have hc := (hinv.kept _ p hp (.inl hpool)).order.cycle
    obtain ⟨-, hawaited⟩ := hc.awaited_of_packet hpacket hpayload rfl
      (by rw [htype]; rfl)
    rw [htype] at hawaited
    obtain ⟨hbond, hunbond⟩ :=
      hc.covered (beforeBond_of_awaited (.inr hawaited))
    exact sudoEraBondCallback_total hp hbond hunbond

/-- In every run in which the pools of a denom are initialised here and their
packets are answered in time, the staked coins are transferred once: the
balance covers the bond of all pools together, apart from the bond of a
snapshot between its transfer and its bond step. -/
theorem staked_coins_covered {block : BlockInfo} {lsdTokenCodeId start : Nat}
    {evs : List Event} (hdenom : denom ≠ feeDenom)
    (hrun : Transition.AllSteps
      (Transition.track (step net) (keepCustody net denom))
      (fun s ev _ => Minded denom s.1 ev)
      (genesis block info lsdTokenCodeId, ⟨start, fun _ => 0⟩) evs) :
    Transition.AllSteps
      (Transition.track (step net) (keepCustody net denom))
      (CustodyHolds net denom)
      (genesis block info lsdTokenCodeId, ⟨start, fun _ => 0⟩) evs := by
  refine Transition.AllSteps.of_invariant (InCustody net denom) ?_ ?_ hrun
  · intro s ev s' hinv hstep hminded
    obtain ⟨w, books⟩ := s
    obtain ⟨w', books'⟩ := s'
    obtain ⟨hworld, rfl⟩ := Transition.track_eq_some.mp hstep
    exact ⟨inCustody_step hinv hworld hdenom hminded,
      custodyHolds_of_step hinv hworld hdenom hminded⟩
  · refine ⟨sound_genesis net block info lsdTokenCodeId,
      fun _ _ _ h => (nomatch h), fun _ _ h => (nomatch h), fun _ _ => rfl,
      Custody.covered_of_no_holder ?_ (Int.natCast_nonneg start)⟩
    rintro a ⟨_, h, -⟩
    cases h

/-- An era, and an update whose transfer fails. -/
theorem staked_coins_covered_sample :
    Transition.AllSteps
      (Transition.track (step Sample.net) (keepCustody Sample.net "ibc/ATOM"))
      (CustodyHolds Sample.net "ibc/ATOM")
      (Sample.genesis, ⟨0, fun _ => 0⟩)
      (Sample.setup ++ Sample.firstEra ++ [Sample.stake 4 500,
        Sample.call 5 (Sample.querier 4 [] 0) (.eraUpdate Sample.pool)
          (Sample.packetId 6),
        Sample.ack 5 .timeout (Sample.packetId 6)]) :=
  staked_coins_covered (by decide) (by decide +kernel)

end World

end NeutronContracts
