/-
Rewards in the era cycle: what a rebond step delegates is what the collect
step of the same era has moved to the pool, as long as no collect step ends
early with an amount left over from an earlier attempt.
-/
import NeutronContracts.Chain.EraProtocol

namespace NeutronContracts

open StakeManager Fallible Outstanding

/-- What a message delegates for the account `a`. -/
def StakeManager.HostMsg.delegatedBy (a : String) : HostMsg → Nat
  | .delegate delegator _ amount => if delegator = a then amount.amount else 0
  | _ => 0

/-- A split delegates the quotient once for each validator, and the
remainder. -/
theorem splitDelegations_total (a denom first : String)
    (amountPerValidator remainder : Nat) (rest : List String) :
    ((splitDelegations a denom amountPerValidator remainder
        (first :: rest)).map fun m => m.value.delegatedBy a).sum =
      amountPerValidator * (first :: rest).length + remainder := by
  have hrest : ((rest.map fun validator => genDelegationTxs a validator denom
      amountPerValidator).map fun m => m.value.delegatedBy a).sum =
      amountPerValidator * rest.length := by
    induction rest with
    | nil => rfl
    | cons validator rest ih =>
        simp only [List.map_cons, List.sum_cons, ih, List.length_cons]
        simp only [genDelegationTxs, HostMsg.delegatedBy, if_true]
        rw [Nat.mul_add_one, Nat.add_comm]
  simp only [splitDelegations, List.map_cons, List.sum_cons, hrest]
  simp only [genDelegationTxs, HostMsg.delegatedBy, if_true, List.length_cons]
  rw [Nat.mul_add_one]
  omega

/-- A rebond step delegates the restake amount, no more and no less. -/
theorem rebondMsgs_total {a : String} {p : PoolInfo}
    {selectVals : List String} {msgs : List ProtobufAny}
    (h : rebondMsgs a p selectVals = .ok msgs) :
    (msgs.map fun m => m.value.delegatedBy a).sum =
      p.eraSnapshot.restakeAmount := by
  cases selectVals with
  | nil => cases h
  | cons first rest =>
      simp only [rebondMsgs, bind_eq_ok, rejectIf_eq_ok, pure_eq_ok] at h
      obtain ⟨_, -, rfl⟩ := h
      rw [splitDelegations_total]
      exact Nat.add_sub_of_le (Nat.div_mul_le_self _ _)

namespace World

variable {net : Network} {w w' : World} {ev : Event} {a : String}
  {p p' : PoolInfo} {collected : Nat}

/-- What an event adds to the amount collected since the snapshot. -/
def keepCollected (a : String) (collected : Nat) (w : World) (ev : Event)
    (_ : World) : Nat :=
  match ev.action with
  | .execute _ _ (.eraUpdate poolAddr) _ =>
      if poolAddr = a then 0 else collected
  | .answer id .success _ _ =>
      if w.waiting TxType.isEra a id = some .eraCollectWithdraw then
        collected +
          ((w.pending id).map fun packet =>
            hostTotal (HostMsg.sentTo a) packet.msg).getD 0
      else collected
  | _ => collected

theorem keepCollected_execute {querier : Querier} {info : MessageInfo}
    {msg : ExecuteMsg} {id : PacketId}
    (haction : ev.action = .execute querier info msg id)
    (hmsg : msg ≠ .eraUpdate a) :
    keepCollected a collected w ev w' = collected := by
  unfold keepCollected
  rw [haction]
  cases msg with
  | eraUpdate poolAddr =>
      have hne : poolAddr ≠ a := fun h => hmsg (h ▸ rfl)
      simp [hne]
  | _ => rfl

theorem keepCollected_answer {id : PacketId} {answer : Answer}
    {querier : Querier} {bankAccepts : Bool}
    (haction : ev.action = .answer id answer querier bankAccepts)
    (hother : answer = .success →
      w.waiting TxType.isEra a id ≠ some .eraCollectWithdraw) :
    keepCollected a collected w ev w' = collected := by
  unfold keepCollected
  rw [haction]
  cases answer with
  | success => simp [hother rfl]
  | error => rfl
  | timeout => rfl

theorem keepCollected_idle
    (hexecute : ∀ querier info msg id,
      ev.action ≠ .execute querier info msg id)
    (hanswer : ∀ id answer querier bankAccepts,
      ev.action ≠ .answer id answer querier bankAccepts) :
    keepCollected a collected w ev w' = collected := by
  unfold keepCollected
  split
  · rename_i h
    exact absurd h (hexecute _ _ _ _)
  · rename_i h
    exact absurd h (hanswer _ _ _ _)
  · rfl

/-- The statuses of an era before the rewards have arrived. -/
def beforeCollect (status : EraStatus) : Prop :=
  beforeBond status ∨ status = .bondEnded ∨ status = .withdrawStarted

/-- What the record of a pool says about the rewards of the era. -/
structure Collected (w : World) (a : String) (p : PoolInfo)
    (collected : Nat) : Prop where
  before : beforeCollect p.status → collected = 0
  /-- the packet on its way moves the amount that was written down -/
  moving : p.status = .withdrawStarted → ∀ id packet,
    w.pending id = some packet →
      kindFor TxType.isEra a packet.payload = some .eraCollectWithdraw →
        hostTotal (HostMsg.sentTo a) packet.msg = p.eraSnapshot.restakeAmount
  ended : p.status = .withdrawEnded →
    p.eraSnapshot.restakeAmount = collected

/-- Nothing is said about a status outside these steps. -/
theorem collected_of_free (h : ¬ beforeCollect p.status ∧
    p.status ≠ .withdrawEnded) : Collected w a p collected :=
  ⟨fun hb => absurd hb h.1, fun hm => absurd (.inr (.inr hm)) h.1,
    fun he => absurd he h.2⟩

/-- In a status before the collect step nothing is on its way. -/
theorem collected_of_before (hstatus : p.status ≠ .withdrawStarted ∧
    p.status ≠ .withdrawEnded) (hzero : collected = 0) :
    Collected w a p collected :=
  ⟨fun _ => hzero, fun hm => absurd hm hstatus.1,
    fun he => absurd he hstatus.2⟩

/-- A move that leaves the status and the snapshot alone. -/
theorem Collected.of_same (hc : Collected w a p collected)
    (hstatus : p'.status = p.status)
    (hsnapshot : p'.eraSnapshot = p.eraSnapshot)
    (hpending : ∀ id packet, w'.pending id = some packet →
      kindFor TxType.isEra a packet.payload = some .eraCollectWithdraw →
        w.pending id = some packet) : Collected w' a p' collected := by
  refine ⟨fun h => hc.before (hstatus ▸ h), fun h id packet hpacket hkind => ?_,
    fun h => ?_⟩
  · rw [hsnapshot]
    exact hc.moving (hstatus ▸ h) id packet (hpending id packet hpacket hkind)
      hkind
  · rw [hsnapshot]
    exact hc.ended (hstatus ▸ h)

/-- The querier of a collect call of the pool. -/
def collecting (a : String) (ev : Event) : Option Querier :=
  match ev.action with
  | .execute querier _ (.eraCollectWithdraw poolAddr) _ =>
      if poolAddr = a then some querier else none
  | _ => none

/-- A collect step that finds nothing finds nothing written down either. -/
def NothingLeft (a : String) (w : World) (ev : Event) : Prop :=
  ∀ querier ∈ collecting a ev, ∀ p ∈ w.store.pools a,
    ∀ icas ∈ w.store.infoOfIcaId p.icaId,
      (withdrawAmount w.store querier icas.2.1.icaAddr p).toOption = some 0 →
        p.eraSnapshot.restakeAmount = 0

theorem collected_of_era {querier : Querier} {info : MessageInfo}
    {msg : ExecuteMsg} {id : PacketId} {sent : Option SubMsg}
    (hp : w.store.pools a = some p) (hcycle : InCycle w a p)
    (hc : Collected w a p collected) (hleft : NothingLeft a w ev)
    (haction : ev.action = .execute querier info msg id)
    (hera : EraStep w.store querier ⟨ev.block, net.self⟩ a p msg sent p')
    (hsends : Sends sent id info.sender msg w w') :
    Collected w' a p' (keepCollected a collected w ev w') := by
  cases hera with
  | init htarget hstatus hcalls =>
      exact collected_of_free (by simp [beforeCollect, beforeBond])
  | migrate htarget hstatus hrate hcal hcalls =>
      exact collected_of_free (by simp [beforeCollect, beforeBond])
  | retry htarget hmsg hstatus hcalls =>
      exact collected_of_free (by simp [hstatus, beforeCollect, beforeBond])
  | eraUpdate hstatus hupdate hbond =>
      exact collected_of_before (by simp) (by simp [keepCollected, haction])
  | eraUpdateSent hstatus hupdate hbond hcalls =>
      exact collected_of_before (by simp [startEra])
        (by simp [keepCollected, haction])
  | eraBond hstatus hmsgs hsent hcalls =>
      rw [keepCollected_execute haction (by simp)]
      exact collected_of_before (by simp)
        (hc.before (.inl (.inr (.inl hstatus))))
  | collect hstatus hinfo hamount =>
      rw [keepCollected_execute haction (by simp)]
      have hzero := hleft querier (by simp [collecting, haction]) p hp _ hinfo
        (by rw [hamount]; rfl)
      refine ⟨by simp [beforeCollect, beforeBond], by simp, fun _ => ?_⟩
      rw [hc.before (.inr (.inl hstatus))]
      exact hzero
  | collectSent hstatus hinfo hamount hne hcalls hmsgs =>
      rw [keepCollected_execute haction (by simp)]
      refine ⟨fun _ => hc.before (.inr (.inl hstatus)), ?_, by simp⟩
      intro _ other packet hpacket hkind
      rcases pending_of_sends hsends hpacket with hold | ⟨sub, hsub, -, rfl⟩
      · -- no packet of the cycle waits before this one is sent
        have hidle := hcycle.idle (by rw [hstatus]; rfl) other
        simp [waiting, hold, hkind] at hidle
      · obtain rfl := Option.mem_some.mp hsub
        simp [hostTotal, SubMsg.packet, hmsgs, genMsgSend, HostMsg.sentTo]
  | rebond hstatus hzero =>
      exact collected_of_free (by simp [beforeCollect, beforeBond])
  | rebondSent hstatus hne hmsgs hsent hcalls =>
      rw [keepCollected_execute haction (by simp)]
      exact ⟨hc.before, by simp [hstatus], hc.ended⟩
  | active hstatus hshares hstack act htotal =>
      exact collected_of_free
        (by simp [beforeCollect, beforeBond, Activation.apply])

theorem collected_of_answer {id : PacketId} {answer : Answer} {height : Nat}
    {querier : Querier} {bankAccepts : Bool} {packet : Packet}
    {payload : SudoPayload} (hcycle : InCycle w a p)
    (hc : Collected w a p collected)
    (haction : ev.action = .answer id answer querier bankAccepts)
    (hpacket : w.pending id = some packet)
    (hpayload : packet.payload = some payload) (hpool : payload.poolAddr = a)
    (hera : EraAnswer height p payload answer p') :
    Collected w' a p' (keepCollected a collected w ev w') := by
  have hawaited : payload.txType.isEra = true →
      w.waiting TxType.isEra a id = some payload.txType ∧
        awaited p.status = some payload.txType :=
    hcycle.awaited_of_packet hpacket hpayload hpool
  -- only the success of a collect packet changes what is collected
  have hsame : ∀ txType, payload.txType = txType → txType.isEra = true →
      (answer = .success → txType ≠ .eraCollectWithdraw) →
      keepCollected a collected w ev w' = collected ∧
        awaited p.status = some txType := by
    rintro _ rfl hkind hother
    obtain ⟨hwaiting, hstatus⟩ := hawaited hkind
    refine ⟨keepCollected_answer haction fun hsuccess => ?_, hstatus⟩
    rw [hwaiting, ne_eq, Option.some.injEq]
    exact hother hsuccess
  cases hera with
  | setWithdraw htype =>
      exact collected_of_free (by simp [beforeCollect, beforeBond])
  | setWithdrawFailed htype hfailed =>
      exact collected_of_free (by simp [beforeCollect, beforeBond])
  | eraUpdate htype =>
      obtain ⟨hkeep, hstatus⟩ := hsame _ htype rfl (by simp)
      rw [hkeep]
      exact collected_of_before (by simp)
        (hc.before (.inl (.inl (status_of_awaited.1.mp hstatus))))
  | eraUpdateFailed htype hfailed hera =>
      exact collected_of_free (by simp [beforeCollect, beforeBond])
  | eraBond htype hbond hunbond =>
      obtain ⟨hkeep, hstatus⟩ := hsame _ htype rfl (by simp)
      rw [hkeep]
      exact collected_of_before (by simp) (hc.before
        (.inl (.inr (.inr (status_of_awaited.2.1.mp hstatus)))))
  | eraBondFailed htype hfailed =>
      obtain ⟨hkeep, hstatus⟩ := hsame _ htype rfl (by simp)
      rw [hkeep]
      exact collected_of_before (by simp) (hc.before
        (.inl (.inr (.inr (status_of_awaited.2.1.mp hstatus)))))
  | collect htype =>
      obtain ⟨hwaiting, hstatus⟩ := hawaited (by rw [htype]; rfl)
      rw [htype] at hwaiting hstatus
      have hstarted := status_of_awaited.2.2.1.mp hstatus
      have hkind : kindFor TxType.isEra a packet.payload =
          some .eraCollectWithdraw := by
        simpa [waiting, hpacket] using hwaiting
      have hmoved := hc.moving hstarted id packet hpacket hkind
      have hnone := hc.before (.inr (.inr hstarted))
      refine ⟨by simp [beforeCollect, beforeBond], by simp, fun _ => ?_⟩
      simp [keepCollected, haction, hwaiting, hpacket, hmoved, hnone]
  | collectFailed htype hfailed =>
      obtain ⟨hkeep, hstatus⟩ := hsame _ htype rfl
        fun hsuccess => absurd hsuccess hfailed
      rw [hkeep]
      exact collected_of_before (by simp) (hc.before
        (.inr (.inr (status_of_awaited.2.2.1.mp hstatus))))
  | rebond htype =>
      exact collected_of_free (by simp [beforeCollect, beforeBond])
  | rebondFailed htype hfailed =>
      obtain ⟨hkeep, hstatus⟩ := hsame _ htype rfl (by simp)
      rw [hkeep]
      exact ⟨by simp [beforeCollect, beforeBond], by simp,
        fun _ => hc.ended (status_of_awaited.2.2.2.mp hstatus)⟩

/-- Every move that leaves nothing behind keeps track of the rewards. -/
theorem collected_of_move (hp : w.store.pools a = some p)
    (hcycle : InCycle w a p) (hc : Collected w a p collected)
    (hleft : NothingLeft a w ev) (hmove : PoolMove net w ev w' a p p') :
    Collected w' a p' (keepCollected a collected w ev w') := by
  cases hmove with
  | executed haction hstep hsends =>
      rcases hstep.calm_or_era with hcalm | hera
      · rw [keepCollected_execute haction]
        · refine hc.of_same hcalm.status hcalm.snapshot ?_
          intro id packet hpacket hkind
          rcases pending_of_sends hsends hpacket with hold | ⟨sub, hsub, -, rfl⟩
          · exact hold
          · obtain ⟨payload, hpayload, hpool, htype, -⟩ :=
              kindFor_eq_some.mp hkind
            exact absurd ⟨payload, hpayload, hpool, htype⟩
              (hcalm.quiet sub hsub _ (.inl rfl))
        · rintro rfl
          exact hcalm.call rfl rfl
      · exact collected_of_era hp hcycle hc hleft haction hera hsends
  | answered haction hpacket hpayload hpool hstep hpending =>
      rcases hstep.calm_or_era with hcalm | hera
      · rw [keepCollected_answer haction fun _ => by
          rw [waiting_other hpacket hpayload hcalm.kind.1]
          simp]
        exact hc.of_same hcalm.status hcalm.snapshot
          fun _ _ h _ => pending_of_remove hpending h
      · exact collected_of_answer hcycle hc haction hpacket hpayload hpool hera
  | answeredElsewhere haction hpacket helsewhere hpending =>
      rw [keepCollected_answer haction fun _ => by
        rw [waiting_elsewhere hpacket helsewhere]
        simp]
      exact hc.of_same rfl rfl fun _ _ h _ => pending_of_remove hpending h
  | vain haction hpacket hpayload hpool hvain hpending =>
      have hkind := hcycle.not_vain hp hpacket hpayload hpool hvain
      simp only [TxType.isStep, Bool.or_eq_false_iff] at hkind
      rw [keepCollected_answer haction fun _ => by
        rw [waiting_other hpacket hpayload hkind.1]
        simp]
      exact hc.of_same rfl rfl fun _ _ h _ => pending_of_remove hpending h
  | idle hexecute hanswer hpending =>
      rw [keepCollected_idle hexecute hanswer]
      exact hc.of_same rfl rfl fun _ _ h _ => hpending ▸ h

/-! ### Runs -/

/-- The packet of a rebond call of the pool. -/
def rebonding (a : String) (ev : Event) : Option PacketId :=
  match ev.action with
  | .execute _ _ (.eraRebond poolAddr _) id =>
      if poolAddr = a then some id else none
  | _ => none

theorem collecting_eq_some {querier : Querier} :
    collecting a ev = some querier ↔ ∃ info id,
      ev.action = .execute querier info (.eraCollectWithdraw a) id := by
  unfold collecting
  split
  · rename_i haction
    simp only [Option.ite_none_right_eq_some, Option.some.injEq, haction,
      Action.execute.injEq, ExecuteMsg.eraCollectWithdraw.injEq]
    constructor
    · rintro ⟨rfl, rfl⟩
      exact ⟨_, _, rfl, rfl, rfl, rfl⟩
    · rintro ⟨_, _, rfl, -, rfl, -⟩
      exact ⟨rfl, rfl⟩
  · rename_i hother
    simp only [reduceCtorEq, false_iff, not_exists]
    exact fun _ _ haction => hother _ _ _ _ haction

theorem rebonding_eq_some {id : PacketId} :
    rebonding a ev = some id ↔ ∃ querier info selectVals,
      ev.action = .execute querier info (.eraRebond a selectVals) id := by
  unfold rebonding
  split
  · rename_i haction
    simp only [Option.ite_none_right_eq_some, Option.some.injEq, haction,
      Action.execute.injEq, ExecuteMsg.eraRebond.injEq]
    constructor
    · rintro ⟨rfl, rfl⟩
      exact ⟨_, _, _, rfl, rfl, ⟨rfl, rfl⟩, rfl⟩
    · rintro ⟨_, _, _, -, -, ⟨rfl, -⟩, rfl⟩
      exact ⟨rfl, rfl⟩
  · rename_i hother
    simp only [reduceCtorEq, false_iff, not_exists]
    exact fun _ _ _ haction => hother _ _ _ _ _ haction

/-- Before the rebond step the amount to restake is what was collected, and
the step delegates just that. -/
def Restaked (a : String) (s : World × Nat) (ev : Event)
    (s' : World × Nat) : Prop :=
  (∀ p' ∈ s'.1.store.pools a, p'.status = .withdrawEnded →
    p'.eraSnapshot.restakeAmount = s'.2) ∧
  ∀ id ∈ rebonding a ev, id ∉ s.1.used → ∀ packet ∈ s'.1.pending id,
    hostTotal (HostMsg.delegatedBy a) packet.msg = s.2

instance (a : String) (s : World × Nat) (ev : Event) (s' : World × Nat) :
    Decidable (Restaked a s ev s') :=
  inferInstanceAs (Decidable ((∀ _ ∈ _, _ → _ = _) ∧
    ∀ _ ∈ _, _ → ∀ _ ∈ _, _ = _))

/-- A rebond call delegates what was collected. -/
theorem rebond_of_step (hs : Sound net w) (hstep : w.step net ev = some w')
    (hc : ∀ p, w.store.pools a = some p → Collected w a p collected)
    {id : PacketId} {packet : Packet} (hev : rebonding a ev = some id)
    (hfresh : id ∉ w.used) (hpacket : w'.pending id = some packet) :
    hostTotal (HostMsg.delegatedBy a) packet.msg = collected := by
  obtain ⟨querier, info, selectVals, haction⟩ := rebonding_eq_some.mp hev
  obtain ⟨store, rsp, sent, hexec⟩ := executed_of_step hs hstep haction
  obtain ⟨p, hp, hstatus, ⟨-, -, rfl⟩ | ⟨-, msgs, tx, payload, hmsgs, htx, -, -,
    -, hrsp⟩⟩ := executeEraRebond_ok hexec.call
  · -- nothing is sent, and the id is fresh
    obtain rfl : sent = none := hexec.sent_eq rfl
    have hold := hexec.sends.1 ▸ hpacket
    exact absurd (hs.usedPending id packet hold) hfresh
  · obtain rfl := hexec.sent_eq (packets_single rfl hrsp)
    have hpending := hexec.sends.2.2
    rw [hpending, Map.save_self, Option.some.injEq] at hpacket
    rw [← hpacket, ← (hc p hp).ended hstatus, ← rebondMsgs_total hmsgs, ← htx]
    rfl

def AllCollected (net : Network) (a : String) (s : World × Nat) : Prop :=
  Sound net s.1 ∧ ∀ p, s.1.store.pools a = some p →
    InOrder s.1 a p ∧ Collected s.1 a p s.2

theorem allCollected_step {s s' : World × Nat} (hinv : AllCollected net a s)
    (hstep : Transition.track (step net) (keepCollected a) s ev = some s')
    (horderly : Orderly a s.1 ev) (hleft : NothingLeft a s.1 ev) :
    AllCollected net a s' := by
  obtain ⟨w, collected⟩ := s
  obtain ⟨w', collected'⟩ := s'
  obtain ⟨hworld, rfl⟩ := Transition.track_eq_some.mp hstep
  obtain ⟨hs, hI⟩ := hinv
  dsimp only at hs hI
  have horder := inOrder_step hs hworld (fun p hp => (hI p hp).1) horderly
  refine ⟨sound_step hs hworld, fun p' hp' => ⟨horder p' hp', ?_⟩⟩
  refine pool_invariant (J := fun p' => Collected w' a p'
    (keepCollected a collected w ev w')) hs hworld hI ?_ ?_ p' hp'
  · intro p p' hp _ hpool hmove
    exact collected_of_move hp hpool.1.cycle hpool.2 hleft hmove
  · intro icaId admin _ _ _ _ _
    exact collected_of_free
      (by simp [beforeCollect, beforeBond, registeredPool])

/-- At every step, restaking what was collected is the same as leaving nothing
behind. -/
theorem restaked_iff {s s' : World × Nat} (hinv : AllCollected net a s)
    (hstep : Transition.track (step net) (keepCollected a) s ev = some s')
    (horderly : Orderly a s.1 ev) :
    Restaked a s ev s' ↔ NothingLeft a s.1 ev := by
  constructor
  · obtain ⟨w, collected⟩ := s
    obtain ⟨w', collected'⟩ := s'
    obtain ⟨hworld, rfl⟩ := Transition.track_eq_some.mp hstep
    rintro ⟨hended, -⟩ querier hev p hp icas hicas hzero
    obtain ⟨info, id, haction⟩ := collecting_eq_some.mp hev
    obtain ⟨store, rsp, sent, hexec⟩ :=
      executed_of_step hinv.1 hworld haction
    obtain ⟨q, _, _, _, amount, hq, hstatus, hinfo, hamount,
      ⟨rfl, rfl, -⟩ | ⟨hne, -⟩⟩ := executeEraCollectWithdraw_ok hexec.call
    all_goals
      obtain rfl := Option.some.inj (hp.symm.trans hq)
      obtain rfl := Option.some.inj (hicas.symm.trans hinfo)
    · have hlast := hended { p with status := .withdrawEnded }
        (by rw [hexec.records.pools]; exact Map.save_self) rfl
      dsimp only at hlast
      rw [hlast, keepCollected_execute haction (by simp)]
      exact (hinv.2 p hp).2.before (.inr (.inl hstatus))
    · change (withdrawAmount w.store querier _ p).toOption = some 0 at hzero
      change withdrawAmount w.store querier _ p = .ok amount at hamount
      rw [hamount] at hzero
      exact absurd (Option.some.inj hzero) hne
  · intro hleft
    have hnext := allCollected_step hinv hstep horderly hleft
    obtain ⟨w, collected⟩ := s
    obtain ⟨w', collected'⟩ := s'
    obtain ⟨hworld, rfl⟩ := Transition.track_eq_some.mp hstep
    exact ⟨fun p' hp' => (hnext.2 p' hp').2.ended,
      fun id hev hfresh packet hpacket => rebond_of_step hinv.1 hworld
        (fun p hp => (hinv.2 p hp).2) hev hfresh hpacket⟩

/-- In orderly runs only collected rewards are restaked exactly when no
collect step ends early over an amount that an earlier attempt wrote down. -/
theorem restake_iff {net : Network} {a : String} {block : BlockInfo}
    {info : MessageInfo} {lsdTokenCodeId : Nat} {evs : List Event}
    (horderly : Transition.AllSteps
      (Transition.track (step net) (keepCollected a))
      (fun s ev _ => Orderly a s.1 ev)
      (genesis block info lsdTokenCodeId, 0) evs) :
    Transition.AllSteps (Transition.track (step net) (keepCollected a))
        (Restaked a) (genesis block info lsdTokenCodeId, 0) evs ↔
      Transition.AllSteps (Transition.track (step net) (keepCollected a))
        (fun s ev _ => NothingLeft a s.1 ev)
        (genesis block info lsdTokenCodeId, 0) evs :=
  Transition.AllSteps.iff_of_invariant (AllCollected net a)
    (fun _ _ _ hinv hstep horder => restaked_iff hinv hstep horder)
    (fun _ _ _ hinv hstep horder hleft =>
      allCollected_step hinv hstep horder hleft)
    ⟨sound_genesis net block info lsdTokenCodeId, fun _ h => nomatch h⟩
    horderly

/-- The first era of a fresh pool. -/
theorem restake_sample :
    Transition.AllSteps
        (Transition.track (step Sample.net) (keepCollected Sample.pool))
        (Restaked Sample.pool) (Sample.genesis, 0)
        (Sample.setup ++ Sample.firstEra) ↔
      Transition.AllSteps
        (Transition.track (step Sample.net) (keepCollected Sample.pool))
        (fun s ev _ => NothingLeft Sample.pool s.1 ev) (Sample.genesis, 0)
        (Sample.setup ++ Sample.firstEra) :=
  restake_iff (by decide +kernel)

/-- A reward of 50 is seen, the transfer fails, and on the retry the query
has no answer. -/
def emptyRetry : List Event :=
  Sample.setup ++ Sample.firstBond ++ [
    Sample.call 3 (Sample.querier 3 [("val1", 1000)] 50)
      (.eraCollectWithdraw Sample.pool) (Sample.packetId 4),
    Sample.ack 3 .timeout (Sample.packetId 4),
    Sample.call 4 { Sample.querier 4 [] 0 with kvBalances := fun _ _ => none }
      (.eraCollectWithdraw Sample.pool) (Sample.packetId 5)]

/-- The amount of the failed transfer is restaked although nothing was
collected. -/
theorem restake_fails :
    Transition.AllSteps
        (Transition.track (step Sample.net) (keepCollected Sample.pool))
        (fun s ev _ => Orderly Sample.pool s.1 ev) (Sample.genesis, 0)
        emptyRetry ∧
      ¬ Transition.AllSteps
        (Transition.track (step Sample.net) (keepCollected Sample.pool))
        (Restaked Sample.pool) (Sample.genesis, 0) emptyRetry := by
  decide +kernel

end World

end NeutronContracts
