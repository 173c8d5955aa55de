/-
The age of query results.  A result is fresh for a step when it was submitted
after every acknowledgement that changed what it reports.  The callbacks of
the era cycle write down their height, so what can be missed are exactly the
other acknowledgements since the last of them.
-/
import NeutronContracts.Chain.EraProtocol

namespace NeutronContracts

open StakeManager Fallible Outstanding

/-- What the queries of a pool report. -/
inductive Quantity
  /-- the delegations of the pool -/
  | delegations
  /-- the balance of its withdraw account -/
  | balance
deriving DecidableEq, Repr

/-- The kinds of packets that change a quantity. -/
def StakeManager.TxType.changes : TxType → Quantity → Bool
  | .eraBond, _ => true
  | .eraRebond, _ => true
  | .redeemTokenForShare, _ => true
  | .eraCollectWithdraw, .balance => true
  | _, _ => false

/-- The messages that change a quantity of pool `a`.  Whatever touches a
delegation also pays its rewards to the withdraw account. -/
def StakeManager.HostMsg.changes (a : String) : HostMsg → Quantity → Bool
  | .delegate delegator _ _, _ => delegator = a
  | .undelegate delegator _ _, _ => delegator = a
  | .beginRedelegate delegator _ _ _, _ => delegator = a
  | .redeemTokenForShare delegator _, _ => delegator = a
  | .withdrawDelegatorReward delegator _, .balance => delegator = a
  | _, _ => false

def Packet.changes (packet : Packet) (a : String) (quantity : Quantity) :
    Bool :=
  (kindFor (TxType.changes · quantity) a packet.payload).isSome ||
    (hostMsgs packet.msg).any fun m => m.value.changes a quantity

/-- A packet and the height at which its success was acknowledged. -/
structure Ack where
  packet : Packet
  height : Nat

/-- The acknowledgements of a run: all of them, and those since the pool has
last written down the height of a step. -/
structure AckLog where
  all : List Ack
  recent : List Ack

namespace World

variable {net : Network} {w w' : World} {ev : Event} {a : String}
  {p p' : PoolInfo} {log : AckLog}

def keepLog (a : String) (log : AckLog) (w : World) (ev : Event)
    (_ : World) : AckLog :=
  match ev.action with
  | .execute _ _ (.eraUpdate poolAddr) _ =>
      if poolAddr = a then { log with recent := [] } else log
  | .answer id .success _ _ =>
      match w.pending id with
      | some packet =>
          { all := ⟨packet, ev.block.height⟩ :: log.all
            recent :=
              if (w.waiting TxType.isEra a id).isSome then []
              else ⟨packet, ev.block.height⟩ :: log.recent }
      | none => log
  | _ => log

/-- What a step of pool `a` reads, and the height of the result. -/
def reads (a : String) (w : World) (ev : Event) : Option (Quantity × Nat) :=
  match ev.action with
  | .execute querier _ (.eraActive poolAddr) _ =>
      if poolAddr = a then do
        let p ← w.store.pools a
        let delegations ← (queryDelegationByAddr w.store querier a
          p.sdkGreaterOrEqualV047).toOption
        return (.delegations, delegations.lastSubmittedLocalHeight)
      else none
  | .execute querier _ (.eraBond poolAddr _) _ =>
      if poolAddr = a then do
        let p ← w.store.pools a
        guard (p.eraSnapshot.bond ≤ p.eraSnapshot.unbond)
        let delegations ← (queryDelegationByAddr w.store querier a
          p.sdkGreaterOrEqualV047).toOption
        return (.delegations, delegations.lastSubmittedLocalHeight)
      else none
  | .execute querier _ (.eraCollectWithdraw poolAddr) _ =>
      if poolAddr = a then do
        let p ← w.store.pools a
        let icas ← w.store.infoOfIcaId p.icaId
        let balances ← (queryBalanceByAddr w.store querier icas.2.1.icaAddr
          p.sdkGreaterOrEqualV047).toOption
        return (.balance, balances.lastSubmittedLocalHeight)
      else none
  | _ => none

/-- The result that a step reads is newer than all of `acks` that changed what
it reports. -/
def Newer (acks : List Ack) (a : String) (w : World) (ev : Event) : Prop :=
  ∀ read ∈ reads a w ev, ∀ ack ∈ acks,
    ack.packet.changes a read.1 = true → ack.height < read.2

instance (acks : List Ack) (a : String) (w : World) (ev : Event) :
    Decidable (Newer acks a w ev) :=
  inferInstanceAs (Decidable (∀ _ ∈ _, ∀ _ ∈ _, _ → _ < _))

/-- The statuses from the snapshot to the end of the era. -/
def inEra (status : EraStatus) : Prop :=
  beforeBond status ∨ status = .bondEnded ∨ status = .withdrawStarted ∨
    status = .withdrawEnded ∨ status = .rebondEnded

/-- What the log says about a pool: an old acknowledgement is not later than
the height that the snapshot has written down. -/
structure Logged (w : World) (p : PoolInfo) (log : AckLog) : Prop where
  past : ∀ ack ∈ log.all, ack.height ≤ w.block.height
  recent : ∀ ack ∈ log.recent, ack ∈ log.all
  old : inEra p.status → ∀ ack ∈ log.all,
    ack ∈ log.recent ∨ ack.height ≤ p.eraSnapshot.lastStepHeight

theorem past_of_step (hstep : w.step net ev = some w')
    (hpast : ∀ ack ∈ log.all, ack.height ≤ w.block.height) :
    ∀ ack ∈ (keepLog a log w ev w').all, ack.height ≤ w'.block.height := by
  obtain ⟨hheight, -, -⟩ := step_eq_some hstep
  rw [block_of_step hstep]
  have hall : ∀ ack ∈ log.all, ack.height ≤ ev.block.height :=
    fun ack hack => (hpast ack hack).trans hheight
  unfold keepLog
  split
  · split <;> exact hall
  · split
    · intro ack hack
      rcases List.mem_cons.mp hack with rfl | hold
      · exact le_rfl
      · exact hall ack hold
    · exact hall
  · exact hall

theorem recent_of_step (hrecent : ∀ ack ∈ log.recent, ack ∈ log.all) :
    ∀ ack ∈ (keepLog a log w ev w').recent,
      ack ∈ (keepLog a log w ev w').all := by
  unfold keepLog
  split
  · split
    · simp
    · exact hrecent
  · split
    · split
      · simp
      · exact fun ack hack => (List.mem_cons.mp hack).elim
          (fun h => h ▸ List.mem_cons_self)
          fun h => List.mem_cons_of_mem _ (hrecent ack h)
    · exact hrecent
  · exact hrecent

/-- A new acknowledgement that is no step of the cycle is recent. -/
theorem old_of_answer {id : PacketId} {answer : Answer} {querier : Querier}
    {bankAccepts : Bool} {bound : Nat}
    (haction : ev.action = .answer id answer querier bankAccepts)
    (hother : answer = .success → w.waiting TxType.isEra a id = none)
    (hold : ∀ ack ∈ log.all, ack ∈ log.recent ∨ ack.height ≤ bound) :
    ∀ ack ∈ (keepLog a log w ev w').all,
      ack ∈ (keepLog a log w ev w').recent ∨ ack.height ≤ bound := by
  unfold keepLog
  rw [haction]
  cases answer with
  | success =>
      dsimp only
      split
      · rw [hother rfl]
        intro ack hack
        rcases List.mem_cons.mp hack with rfl | hmem
        · exact .inl List.mem_cons_self
        · exact (hold ack hmem).imp_left (List.mem_cons_of_mem _)
      · exact hold
  | error => exact hold
  | timeout => exact hold

theorem keepLog_execute {querier : Querier} {info : MessageInfo}
    {msg : ExecuteMsg} {id : PacketId}
    (haction : ev.action = .execute querier info msg id)
    (hmsg : msg ≠ .eraUpdate a) : keepLog a log w ev w' = log := by
  unfold keepLog
  rw [haction]
  cases msg with
  | eraUpdate poolAddr =>
      have hne : poolAddr ≠ a := fun h => hmsg (h ▸ rfl)
      simp [hne]
  | _ => rfl

theorem old_of_era {querier : Querier} {info : MessageInfo}
    {msg : ExecuteMsg} {id : PacketId} {sent : Option SubMsg}
    (hlog : Logged w p log)
    (hpast : ∀ ack ∈ (keepLog a log w ev w').all,
      ack.height ≤ ev.block.height)
    (haction : ev.action = .execute querier info msg id)
    (hera : EraStep w.store querier ⟨ev.block, net.self⟩ a p msg sent p')
    (hin : inEra p'.status) :
    ∀ ack ∈ (keepLog a log w ev w').all,
      ack ∈ (keepLog a log w ev w').recent ∨
        ack.height ≤ p'.eraSnapshot.lastStepHeight := by
  cases hera with
  | init htarget hstatus hcalls => simp [inEra, beforeBond] at hin
  | migrate htarget hstatus hrate hcal hcalls =>
      simp [inEra, beforeBond] at hin
  | retry htarget hmsg hstatus hcalls =>
      simp [inEra, beforeBond, hstatus] at hin
  | eraUpdate hstatus hupdate hbond =>
      exact fun ack hack => .inr (hpast ack hack)
  | eraUpdateSent hstatus hupdate hbond hcalls =>
      exact fun ack hack => .inr (hpast ack hack)
  | eraBond hstatus hmsgs hsent hcalls =>
      rw [keepLog_execute haction (by simp)]
      exact hlog.old (.inl (.inr (.inl hstatus)))
  | collect hstatus hinfo hamount =>
      rw [keepLog_execute haction (by simp)]
      exact hlog.old (.inr (.inl hstatus))
  | collectSent hstatus hinfo hamount hne hcalls hmsgs =>
      rw [keepLog_execute haction (by simp)]
      exact hlog.old (.inr (.inl hstatus))
  | rebond hstatus hzero =>
      rw [keepLog_execute haction (by simp)]
      exact hlog.old (.inr (.inr (.inr (.inl hstatus))))
  | rebondSent hstatus hne hmsgs hsent hcalls =>
      rw [keepLog_execute haction (by simp)]
      exact hlog.old hin
  | active hstatus hshares hstack act htotal =>
      simp [inEra, beforeBond, Activation.apply] at hin

theorem old_of_eraAnswer {id : PacketId} {answer : Answer}
    {querier : Querier} {bankAccepts : Bool} {payload : SudoPayload}
    (hlog : Logged w p log)
    (hpast : ∀ ack ∈ (keepLog a log w ev w').all,
      ack.height ≤ ev.block.height)
    (haction : ev.action = .answer id answer querier bankAccepts)
    (hawaited : payload.txType.isEra = true →
      awaited p.status = some payload.txType)
    (hera : EraAnswer ev.block.height p payload answer p')
    (hin : inEra p'.status) :
    ∀ ack ∈ (keepLog a log w ev w').all,
      ack ∈ (keepLog a log w ev w').recent ∨
        ack.height ≤ p'.eraSnapshot.lastStepHeight := by
  have hstatus : ∀ txType, payload.txType = txType → txType.isEra = true →
      awaited p.status = some txType := by
    rintro _ rfl hkind
    exact hawaited hkind
  -- a failure leaves the log and the snapshot as they were
  have hfail : answer ≠ .success → inEra p.status →
      ∀ ack ∈ (keepLog a log w ev w').all,
        ack ∈ (keepLog a log w ev w').recent ∨
          ack.height ≤ p.eraSnapshot.lastStepHeight := fun hfailed hin =>
    old_of_answer haction (fun hsuccess => absurd hsuccess hfailed)
      (hlog.old hin)
  cases hera with
  | setWithdraw htype => simp [inEra, beforeBond] at hin
  | setWithdrawFailed htype hfailed => simp [inEra, beforeBond] at hin
  | eraUpdateFailed htype hfailed hera => simp [inEra, beforeBond] at hin
  | eraBondFailed htype hfailed =>
      have hstarted := status_of_awaited.2.1.mp (hstatus _ htype rfl)
      exact hfail hfailed (.inl (.inr (.inr hstarted)))
  | collectFailed htype hfailed =>
      have hstarted := status_of_awaited.2.2.1.mp (hstatus _ htype rfl)
      exact hfail hfailed (.inr (.inr (.inl hstarted)))
  | rebondFailed htype hfailed =>
      have hstarted := status_of_awaited.2.2.2.mp (hstatus _ htype rfl)
      exact hfail hfailed (.inr (.inr (.inr (.inl hstarted))))
  | _ => exact fun ack hack => .inr (hpast ack hack)

/-- Every move keeps the log of a pool in its cycle. -/
theorem logged_of_move (hstep : w.step net ev = some w')
    (hp : w.store.pools a = some p) (hcycle : InCycle w a p)
    (hlog : Logged w p log) (hmove : PoolMove net w ev w' a p p') :
    Logged w' p' (keepLog a log w ev w') := by
  have hpast := past_of_step (a := a) hstep hlog.past
  refine ⟨hpast, recent_of_step hlog.recent, ?_⟩
  rw [block_of_step hstep] at hpast
  intro hin
  cases hmove with
  | executed haction hmoved hsends =>
      rcases hmoved.calm_or_era with hcalm | hera
      · rw [keepLog_execute haction, hcalm.snapshot]
        · exact hlog.old (hcalm.status ▸ hin)
        · rintro rfl
          exact hcalm.call rfl rfl
      · exact old_of_era hlog hpast haction hera hin
  | answered haction hpacket hpayload hpool hmoved hpending =>
      rcases hmoved.calm_or_era with hcalm | hera
      · rw [hcalm.snapshot]
        exact old_of_answer haction
          (fun _ => waiting_other hpacket hpayload hcalm.kind.1)
          (hlog.old (hcalm.status ▸ hin))
      · exact old_of_eraAnswer hlog hpast haction (fun hkind =>
          (hcycle.awaited_of_packet hpacket hpayload hpool hkind).2) hera hin
  | answeredElsewhere haction hpacket helsewhere hpending =>
      exact old_of_answer haction
        (fun _ => waiting_elsewhere hpacket helsewhere) (hlog.old hin)
  | vain haction hpacket hpayload hpool hvain hpending =>
      have hkind := hcycle.not_vain hp hpacket hpayload hpool hvain
      simp only [TxType.isStep, Bool.or_eq_false_iff] at hkind
      exact old_of_answer haction
        (fun _ => waiting_other hpacket hpayload hkind.1) (hlog.old hin)
  | idle hexecute hanswer hpending =>
      have hsame : keepLog a log w ev w' = log := by
        unfold keepLog
        split
        · rename_i h
          exact absurd h (hexecute _ _ _ _)
        · rename_i h
          exact absurd h (hanswer _ _ _ _)
        · rfl
      rw [hsame]
      exact hlog.old hin

/-- An accepted step has compared the height of its result with the height
that the snapshot has written down. -/
theorem reads_of_step (hs : Sound net w) (hstep : w.step net ev = some w')
    {read : Quantity × Nat} (hread : reads a w ev = some read) :
    ∃ p, w.store.pools a = some p ∧ inEra p.status ∧
      p.eraSnapshot.lastStepHeight < read.2 := by
  unfold reads at hread
  split at hread
  case h_1 haction =>
      simp only [Option.ite_none_right_eq_some, bind, Option.bind_eq_some_iff,
        toOption_eq_some, pure, Option.some.injEq] at hread
      obtain ⟨rfl, p, hp, delegations, hquery, rfl⟩ := hread
      obtain ⟨store, rsp, sent, hexec⟩ := executed_of_step hs hstep haction
      obtain ⟨q, _, act, _, _, _, hq, hstatus, -, -, htotal, -⟩ :=
        executeEraActive_ok hexec.call
      obtain rfl := Option.some.inj (hp.symm.trans hq)
      obtain ⟨_, hquery', hfresh, -⟩ := eraTotalAmount_ok htotal
      obtain rfl := Except.ok.inj (hquery.symm.trans hquery')
      exact ⟨p, hp, .inr (.inr (.inr (.inr hstatus))), hfresh⟩
  case h_2 haction =>
      simp only [Option.ite_none_right_eq_some, bind, Option.bind_eq_some_iff,
        Option.guard_eq_some', toOption_eq_some, pure,
        Option.some.injEq] at hread
      obtain ⟨rfl, p, hp, _, hunbond, delegations, hquery, rfl⟩ := hread
      obtain ⟨store, rsp, sent, hexec⟩ := executed_of_step hs hstep haction
      obtain ⟨q, _, _, _, _, hq, hstatus, hmsgs, -⟩ :=
        executeEraBond_ok hexec.call
      obtain rfl := Option.some.inj (hp.symm.trans hq)
      exact ⟨p, hp, .inl (.inr (.inl hstatus)),
        eraBondMsgs_fresh hmsgs hunbond hquery⟩
  case h_3 haction =>
      simp only [Option.ite_none_right_eq_some, bind, Option.bind_eq_some_iff,
        toOption_eq_some, pure, Option.some.injEq] at hread
      obtain ⟨rfl, p, hp, icas, hicas, balances, hquery, rfl⟩ := hread
      obtain ⟨store, rsp, sent, hexec⟩ := executed_of_step hs hstep haction
      obtain ⟨q, _, _, _, _, hq, hstatus, hinfo, hamount, -⟩ :=
        executeEraCollectWithdraw_ok hexec.call
      obtain rfl := Option.some.inj (hp.symm.trans hq)
      obtain rfl := Option.some.inj (hicas.symm.trans hinfo)
      exact ⟨p, hp, .inr (.inl hstatus), withdrawAmount_fresh hamount hquery⟩
  case h_4 => cases hread

/-! ### Runs -/

def AllLogged (net : Network) (a : String) (s : World × AckLog) : Prop :=
  Sound net s.1 ∧ (∀ ack ∈ s.2.all, ack.height ≤ s.1.block.height) ∧
    (∀ ack ∈ s.2.recent, ack ∈ s.2.all) ∧
    ∀ p, s.1.store.pools a = some p → InOrder s.1 a p ∧ Logged s.1 p s.2

theorem allLogged_step {s s' : World × AckLog} (hinv : AllLogged net a s)
    (hstep : Transition.track (step net) (keepLog a) s ev = some s')
    (horderly : Orderly a s.1 ev) : AllLogged net a s' := by
  obtain ⟨w, log⟩ := s
  obtain ⟨w', log'⟩ := s'
  obtain ⟨hworld, rfl⟩ := Transition.track_eq_some.mp hstep
  obtain ⟨hs, hpast, hrecent, hI⟩ := hinv
  dsimp only at hs hpast hrecent hI
  have horder := inOrder_step hs hworld (fun p hp => (hI p hp).1) horderly
  have hpast' := past_of_step (a := a) hworld hpast
  have hrecent' : ∀ ack ∈ (keepLog a log w ev w').recent,
      ack ∈ (keepLog a log w ev w').all := recent_of_step hrecent
  refine ⟨sound_step hs hworld, hpast', hrecent',
    fun p' hp' => ⟨horder p' hp', ?_⟩⟩
  refine pool_invariant (J := fun p' => Logged w' p' (keepLog a log w ev w'))
    hs hworld hI ?_ ?_ p' hp'
  · intro p p' hp _ hpool hmove
    exact logged_of_move hworld hp hpool.1.cycle hpool.2 hmove
  · intro icaId admin _ _ _ _ _
    exact ⟨hpast', hrecent', by simp [inEra, beforeBond, registeredPool]⟩

/-- At every step, being newer than all acknowledgements is the same as being
newer than the recent ones. -/
theorem newer_iff {s s' : World × AckLog} (hinv : AllLogged net a s)
    (hstep : Transition.track (step net) (keepLog a) s ev = some s') :
    Newer s.2.all a s.1 ev ↔ Newer s.2.recent a s.1 ev := by
  obtain ⟨w, log⟩ := s
  obtain ⟨w', log'⟩ := s'
  obtain ⟨hworld, rfl⟩ := Transition.track_eq_some.mp hstep
  obtain ⟨hs, -, hrecent, hI⟩ := hinv
  constructor
  · exact fun hnewer read hread ack hack =>
      hnewer read hread ack (hrecent ack hack)
  · intro hnewer read hread ack hack hchanges
    obtain ⟨p, hp, hin, hfresh⟩ := reads_of_step hs hworld hread
    rcases (hI p hp).2.old hin ack hack with hmem | hle
    · exact hnewer read hread ack hmem hchanges
    · exact hle.trans_lt hfresh

/-- Shares are redeemed on day 5, and the era ends with the delegations of
day 4. -/
def lateRedeem : List Event :=
  Sample.setup ++ [
    Sample.allowLsm,
    Sample.stake 1 1000,
    Sample.stakeLsm 1 100 "ibc/SHARE" ("channel-7", 0),
    Sample.ack 1 .success ("channel-7", 0),
    Sample.call 2 (Sample.querier 0 [] 0) (.eraUpdate Sample.pool)
      (Sample.packetId 2),
    Sample.ack 2 .success (Sample.packetId 2),
    Sample.call 2 (Sample.querier 0 [] 0) (.eraBond Sample.pool ["val1"])
      (Sample.packetId 3),
    Sample.ack 2 .success (Sample.packetId 3),
    Sample.call 3 (Sample.querier 3 [] 0) (.eraCollectWithdraw Sample.pool)
      (Sample.packetId 0),
    Sample.call 3 (Sample.querier 3 [] 0) (.eraRebond Sample.pool ["val1"])
      (Sample.packetId 0),
    Sample.call 5 (Sample.querier 0 [] 0)
      (.redeemTokenForShare Sample.pool [⟨"val1/1", 100⟩])
      (Sample.packetId 4),
    Sample.ack 5 .success (Sample.packetId 4),
    Sample.call 5 (Sample.querier 4 [("val1", 1000)] 0)
      (.eraActive Sample.pool) (Sample.packetId 0)]

end World

end NeutronContracts
