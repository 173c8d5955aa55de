/-
The shares of a pool that wait to be redeemed.  A share stake is accepted when
the list of the pool is below its limit, but the share is only listed when the
packet of the stake is answered; the list stays within the limit as long as
every accepted stake counts those that are still in flight.
-/
import NeutronContracts.Lib.Backlog
import NeutronContracts.Properties.Redemption

namespace NeutronContracts

open StakeManager

def StakeManager.TxType.isStakeLsm (txType : TxType) : Bool :=
  decide (txType = .stakeLsm)

namespace World

variable {net : Network} {w w' : World} {ev : Event} {a : String}
  {p p' : PoolInfo} {id : PacketId}

/-- The share stakes of pool `a` whose packets wait for an answer. -/
def inFlight (w : World) (a : String) : Finset PacketId :=
  w.used.toFinset.filter fun id =>
    (w.waiting TxType.isStakeLsm a id).isSome

/-- The listed shares of pool `a`, those in flight and the limit. -/
def backlog (w : World) (a : String) (p : PoolInfo) : Backlog PacketId where
  stored := p.shareTokens.length
  expected := w.inFlight a
  limit := p.lsmPendingLimit

/-- Pool `a` lists no more shares than it may. -/
def WithinLimit (a : String) (w : World) : Prop :=
  ∀ p ∈ w.store.pools a, p.shareTokens.length ≤ p.lsmPendingLimit

/-- The limit of pool `a` is not lowered. -/
def LimitKept (a : String) (w w' : World) : Prop :=
  ∀ p ∈ w.store.pools a, ∀ p' ∈ w'.store.pools a,
    p.lsmPendingLimit ≤ p'.lsmPendingLimit

/-- A migration that starts pool `a` brings no more shares than the pool may
list. -/
def StartsWithin (a : String) (w : World) (ev : Event) : Prop :=
  ∀ param ∈ migrated ev,
    (ExecuteMsg.migratePool param).target w.store = some a →
      ∀ p ∈ w.store.pools a, p.status = .registerEnded →
        param.shareTokens.length ≤ (migratedPool p param).lsmPendingLimit

/-- The event stakes shares in pool `a`. -/
def stakesShares (a : String) (ev : Event) : Bool :=
  match ev.action with
  | .execute _ _ (.stakeLsm _ poolAddr) _ => decide (poolAddr = a)
  | _ => false

/-- A stake of shares in pool `a` finds room for its share beside those that
are listed and those that are in flight. -/
def LeavesRoom (a : String) (w : World) (ev : Event) : Prop :=
  stakesShares a ev = true →
    ∀ p ∈ w.store.pools a, (w.backlog a p).HasRoom

instance (a : String) (w : World) : Decidable (WithinLimit a w) :=
  inferInstanceAs (Decidable (∀ p ∈ w.store.pools a, _ ≤ _))

instance (a : String) (w w' : World) : Decidable (LimitKept a w w') :=
  inferInstanceAs (Decidable (∀ p ∈ w.store.pools a,
    ∀ p' ∈ w'.store.pools a, _ ≤ _))

instance (a : String) (w : World) (ev : Event) :
    Decidable (StartsWithin a w ev) :=
  inferInstanceAs (Decidable (∀ param ∈ migrated ev,
    (ExecuteMsg.migratePool param).target w.store = some a →
      ∀ p ∈ w.store.pools a, p.status = .registerEnded → _ ≤ _))

instance (a : String) (w : World) (ev : Event) :
    Decidable (LeavesRoom a w ev) :=
  inferInstanceAs (Decidable (stakesShares a ev = true →
    ∀ p ∈ w.store.pools a, (w.backlog a p).HasRoom))

/-! ### The packets in flight -/

theorem mem_inFlight (hs : Sound net w) : id ∈ w.inFlight a ↔
    ∃ txType, w.waiting TxType.isStakeLsm a id = some txType := by
  simp only [inFlight, Finset.mem_filter, List.mem_toFinset,
    Option.isSome_iff_exists, and_iff_right_iff_imp]
  rintro ⟨txType, hwaiting⟩
  obtain ⟨⟨packet, _, hpacket, -⟩, -⟩ := waiting_eq_some.mp hwaiting
  exact hs.usedPending id packet hpacket

theorem inFlight_of_waiting (hs : Sound net w) (hs' : Sound net w')
    (h : w'.waiting TxType.isStakeLsm a = w.waiting TxType.isStakeLsm a) :
    w'.inFlight a = w.inFlight a := by
  ext other
  rw [mem_inFlight hs, mem_inFlight hs', h]

theorem inFlight_of_save {txType : TxType} (hs : Sound net w)
    (hs' : Sound net w') (h : w'.waiting TxType.isStakeLsm a =
      (w.waiting TxType.isStakeLsm a).save id txType) :
    w'.inFlight a = insert id (w.inFlight a) := by
  ext other
  rw [Finset.mem_insert, mem_inFlight hs, mem_inFlight hs', h]
  by_cases hother : other = id
  · simp [hother]
  · simp [hother]

theorem inFlight_of_remove (hs : Sound net w) (hs' : Sound net w')
    (h : w'.pending = w.pending.remove id) :
    w'.inFlight a = (w.inFlight a).erase id := by
  ext other
  rw [Finset.mem_erase, mem_inFlight hs, mem_inFlight hs',
    waiting_of_remove h]
  by_cases hother : other = id
  · simp [hother]
  · simp [hother]

theorem stakesShares_of_calls {store : Storage} {querier querier' : Querier}
    {env : Env} {info : MessageInfo} {msg : ExecuteMsg} {sub : SubMsg}
    (haction : ev.action = .execute querier info msg id)
    (h : ExecStep store querier' env info a p msg (some sub) p')
    (hcalls : Calls sub a .stakeLsm) : stakesShares a ev = true := by
  obtain ⟨hkind, htarget⟩ := h.sends hcalls
  cases msg with
  | stakeLsm user poolAddr =>
      obtain rfl := Option.some.inj htarget
      simp [stakesShares, haction]
  | _ => cases hkind

/-- Shares in flight are announced by an accepted stake alone. -/
theorem inFlight_of_other {sent : Option SubMsg} {querier querier' : Querier}
    {env : Env} {info : MessageInfo} {msg : ExecuteMsg} (hs : Sound net w)
    (hs' : Sound net w') (hother : stakesShares a ev ≠ true)
    (haction : ev.action = .execute querier info msg id)
    (hstep : ExecStep w.store querier' env info a p msg sent p')
    (hsends : Sends sent id info.sender msg w w') :
    w'.inFlight a = w.inFlight a := by
  apply inFlight_of_waiting hs hs'
  apply waiting_of_sends_other hs hsends
  rintro sub rfl txType hkind hcalls
  obtain rfl := of_decide_eq_true hkind
  exact hother (stakesShares_of_calls haction hstep hcalls)

theorem pool_of_stakesShares {store : Storage} {querier querier' : Querier}
    {env : Env} {info : MessageInfo} {msg : ExecuteMsg} {sent : Option SubMsg}
    (hstake : stakesShares a ev = true)
    (haction : ev.action = .execute querier info msg id)
    (hstep : ExecStep store querier' env info a p msg sent p') :
    p' = p ∧ ∃ sub, sent = some sub ∧ Calls sub a .stakeLsm := by
  unfold stakesShares at hstake
  rw [haction] at hstake
  split at hstake
  case h_2 => cases hstake
  case h_1 haction' =>
      cases haction'
      obtain rfl := of_decide_eq_true hstake
      cases hstep with
      | elsewhere htarget => exact absurd rfl htarget
      | stakeLsm hstatus hupdate hcalls => exact ⟨rfl, _, rfl, hcalls⟩
      | era hera =>
          cases hera with
          | retry htarget hmsg => rcases hmsg with ⟨_, h⟩ | ⟨_, h⟩ <;> cases h

/-- Every move of a pool is one of its backlog. -/
theorem backlog_move (hs : Sound net w) (hs' : Sound net w')
    (hfresh : p.status = .registerEnded → Unstarted w a p)
    (hp : w.store.pools a = some p) (hmove : PoolMove net w ev w' a p p')
    (hstart : StartsWithin a w ev)
    (hkept : p.lsmPendingLimit ≤ p'.lsmPendingLimit)
    (hroom : LeavesRoom a w ev) :
    Backlog.Move (w.backlog a p) (w'.backlog a p') := by
  have hanswered : ∀ id, w'.pending = w.pending.remove id →
      p'.shareTokens.length ≤ p.shareTokens.length →
      Backlog.Move (w.backlog a p) (w'.backlog a p') := by
    intro id hpending hstored
    refine .settle hstored ?_ hkept
    change w'.inFlight a ⊆ w.inFlight a
    rw [inFlight_of_remove hs hs' hpending]
    exact Finset.erase_subset id _
  cases hmove with
  | executed haction hstep hsends =>
      by_cases hstake : stakesShares a ev = true
      · obtain ⟨rfl, sub, rfl, hcalls⟩ :=
          pool_of_stakesShares hstake haction hstep
        have hsent := inFlight_of_save hs hs'
          (waiting_of_sends_calls hs hsends hcalls (by decide))
        exact .announce (hroom hstake _ hp) le_rfl hsent hkept
      · have hsame := inFlight_of_other hs hs' hstake haction hstep hsends
        cases shareStep_of_exec hstep with
        | plain hmsg hsent hshares hlist =>
            exact .settle (by simp [backlog, hshares]) hsame.subset hkept
        | redeem hmsg hne hnodup hmem hcalls hmsgs htext hshares hlist =>
            exact .settle (by simp [backlog, hshares]) hsame.subset hkept
        | start hstatus hnext =>
            have hnone : w'.inFlight a = ∅ := by
              rw [hsame, Finset.eq_empty_iff_forall_notMem]
              intro other hother
              obtain ⟨txType, hwaiting⟩ := (mem_inFlight hs).mp hother
              obtain ⟨hunanswered, hkind⟩ := waiting_eq_some.mp hwaiting
              obtain rfl := of_decide_eq_true hkind
              exact (hfresh hstatus).quiet _ other rfl hunanswered
            refine .start ?_ hnone
            have hmove := start_of_move (.executed haction hstep hsends)
              (hfresh hstatus) hstatus (by simp [hnext])
            cases hmove with
            | init haction' htarget => exact Nat.zero_le _
            | migrate haction' htarget hrate =>
                exact hstart _ (by simp [migrated, haction']) htarget p hp
                  hstatus
  | answered haction hpacket hpayload hpool hstep hpending =>
      cases hstep with
      | stakeLsm htype hcredit hrate =>
          rename_i id querier _ packet payload _ _ _
          have hid : id ∈ w.inFlight a := by
            rw [mem_inFlight hs]
            refine ⟨.stakeLsm, waiting_eq_some.mpr ⟨?_, by decide⟩⟩
            exact ⟨packet, payload, hpacket, hpayload, hpool, htype⟩
          refine .arrive hid ?_ (inFlight_of_remove hs hs' hpending) hkept
          simp [backlog, lsmCredited]
      | redeem htype => exact hanswered _ hpending (List.length_filter_le _ _)
      | era hera => exact hanswered _ hpending (by cases hera <;> exact le_rfl)
      | _ => exact hanswered _ hpending le_rfl
  | answeredElsewhere haction hpacket helsewhere hpending =>
      exact hanswered _ hpending le_rfl
  | vain haction hpacket hpayload hpool hvain hpending =>
      exact hanswered _ hpending le_rfl
  | idle hexecute hanswer hpending =>
      refine .settle le_rfl ?_ hkept
      exact (inFlight_of_waiting hs hs' (waiting_of_pending hpending)).subset

/-- The book-keeping, and room for every share of pool `a`. -/
structure BacklogFits (net : Network) (a : String) (w : World) : Prop where
  sound : Sound net w
  fresh : ∀ p, w.store.pools a = some p → p.status = .registerEnded →
    Unstarted w a p
  fits : ∀ p, w.store.pools a = some p → (w.backlog a p).Fits

theorem BacklogFits.withinLimit (h : BacklogFits net a w) : WithinLimit a w :=
  fun p hp => (h.fits p hp).stored_le

theorem backlogFits_step (h : BacklogFits net a w)
    (hstep : w.step net ev = some w') (hstart : StartsWithin a w ev)
    (hkept : LimitKept a w w') (hroom : LeavesRoom a w ev) :
    BacklogFits net a w' := by
  have hs' := sound_step h.sound hstep
  refine ⟨hs', unstarted_step h.sound hstep h.fresh, ?_⟩
  refine pool_invariant (J := fun p' => (w'.backlog a p').Fits) h.sound hstep
    h.fits ?_ ?_
  · intro p p' hp hp' hfits hmove
    exact hfits.move (backlog_move h.sound hs' (h.fresh p hp) hp hmove hstart
      (hkept p hp p' hp') hroom)
  · intro icaId admin _ _ hquiet _ _
    have hnone : w'.inFlight a = ∅ := by
      rw [Finset.eq_empty_iff_forall_notMem]
      intro other hother
      obtain ⟨txType, hwaiting⟩ := (mem_inFlight hs').mp hother
      exact hquiet txType other (waiting_eq_some.mp hwaiting).1
    simp [Backlog.Fits, backlog, registeredPool, hnone]

/-- A pool whose limit is never lowered lists no more shares than it may, in
every state of a run in which each stake of shares finds room beside those in
flight, whatever the order of the answers and the redemptions. -/
theorem lsm_backlog_bounded (net : Network) (a : String) (block : BlockInfo)
    (info : MessageInfo) (lsdTokenCodeId : Nat) (evs₀ evs : List Event)
    (w₀ : World) (hrun : Transition.exec (step net)
      (genesis block info lsdTokenCodeId) evs₀ = some w₀)
    (hfits : ∀ p ∈ w₀.store.pools a, (w₀.backlog a p).Fits)
    (hstart : Transition.AllSteps (step net)
      (fun w ev _ => StartsWithin a w ev) w₀ evs)
    (hkept : Transition.AllSteps (step net)
      (fun w _ w' => LimitKept a w w') w₀ evs)
    (hroom : Transition.AllSteps (step net)
      (fun w ev _ => LeavesRoom a w ev) w₀ evs) :
    Transition.AllSteps (step net) (fun _ _ w' => WithinLimit a w') w₀
      evs := by
  refine Transition.AllSteps.of_invariant (BacklogFits net a) ?_
    ⟨sound_run hrun, fun _ => unstarted_run hrun, hfits⟩
    (Transition.AllSteps.and_iff.mpr
      ⟨hstart, Transition.AllSteps.and_iff.mpr ⟨hkept, hroom⟩⟩)
  rintro w ev w' hinv hstep ⟨hstart, hkept, hroom⟩
  have hnext := backlogFits_step hinv hstep hstart hkept hroom
  exact ⟨hnext, hnext.withinLimit⟩

end World

namespace Sample

/-- One share may be listed. -/
def oneShare : List Event := setup ++ [allowLsm,
  configure 1 { unchanged with lsmPendingLimit := some 1 }]

/-- A stake of 100 shares. -/
def share (sequence : Nat) : Event :=
  stakeLsm 1 100 "ibc/SHARE" ("channel-7", sequence)

/-- A share is staked and listed before the next. -/
def oneByOne : List Event := [share 0, ack 1 .success ("channel-7", 0),
  redeem 100 2, ack 1 .success (packetId 2),
  share 1, ack 1 .success ("channel-7", 1)]

/-- Two shares are in flight at a time. -/
def together : List Event := [share 0, share 1,
  ack 1 .success ("channel-7", 0), ack 1 .success ("channel-7", 1)]

end Sample

namespace World

theorem lsm_backlog_bounded_sample : ∃ w₀ w p,
    Sample.run Sample.oneShare = some w₀ ∧
    Transition.exec (step Sample.net) w₀ Sample.oneByOne = some w ∧
    w.store.pools Sample.pool = some p ∧ p.shareTokens = [⟨"val1/1", 100⟩] ∧
    Transition.AllSteps (step Sample.net)
      (fun _ _ w' => WithinLimit Sample.pool w') w₀ Sample.oneByOne := by
  obtain ⟨w₀, p₀, hw, hp₀, htest⟩ := Sample.exists_of_run Sample.oneShare
    (fun w p => decide (w.backlog Sample.pool p).Fits &&
      decide (Transition.AllSteps (step Sample.net)
        (fun w ev _ => StartsWithin Sample.pool w ev) w Sample.oneByOne) &&
      decide (Transition.AllSteps (step Sample.net)
        (fun w _ w' => LimitKept Sample.pool w w') w Sample.oneByOne) &&
      decide (Transition.AllSteps (step Sample.net)
        (fun w ev _ => LeavesRoom Sample.pool w ev) w Sample.oneByOne) &&
      (Transition.exec (step Sample.net) w Sample.oneByOne).any fun last =>
        (last.store.pools Sample.pool).any fun p =>
          decide (p.shareTokens = [⟨"val1/1", 100⟩]))
    (by decide +kernel)
  simp only [Bool.and_eq_true, decide_eq_true_eq, Option.any_eq_true] at htest
  obtain ⟨⟨⟨⟨hfits, hstart⟩, hkept⟩, hroom⟩, w, hrun, p, hp, hlisted⟩ := htest
  refine ⟨w₀, w, p, hw, hrun, hp, hlisted, ?_⟩
  refine lsm_backlog_bounded Sample.net Sample.pool (Sample.day 1)
    ⟨Sample.admin, []⟩ 1 Sample.oneShare Sample.oneByOne w₀ hw ?_ hstart hkept
    hroom
  intro p hp
  obtain rfl := Option.some.inj (hp₀.symm.trans hp)
  exact hfits

/-- Two stakes that are in flight together exceed a limit of one. -/
theorem lsm_backlog_fails :
    ¬ ∀ (net : Network) (a : String) (block : BlockInfo)
      (info : MessageInfo) (lsdTokenCodeId : Nat) (evs₀ evs : List Event)
      (w₀ : World), Transition.exec (step net)
        (genesis block info lsdTokenCodeId) evs₀ = some w₀ →
      WithinLimit a w₀ →
      Transition.AllSteps (step net)
        (fun w ev _ => StartsWithin a w ev) w₀ evs →
      Transition.AllSteps (step net)
        (fun w _ w' => LimitKept a w w') w₀ evs →
      Transition.AllSteps (step net)
        (fun _ _ w' => WithinLimit a w') w₀ evs := by
  intro hall
  obtain ⟨w₀, p, hw, hp, htest⟩ := Sample.exists_of_run Sample.oneShare
    (fun w p => decide (WithinLimit Sample.pool w) &&
      decide (Transition.AllSteps (step Sample.net)
        (fun w ev _ => StartsWithin Sample.pool w ev) w Sample.together) &&
      decide (Transition.AllSteps (step Sample.net)
        (fun w _ w' => LimitKept Sample.pool w w') w Sample.together) &&
      !decide (Transition.AllSteps (step Sample.net)
        (fun _ _ w' => WithinLimit Sample.pool w') w Sample.together))
    (by decide +kernel)
  simp only [Bool.and_eq_true, Bool.not_eq_true', decide_eq_true_eq,
    decide_eq_false_iff_not] at htest
  obtain ⟨⟨⟨hwithin, hstart⟩, hkept⟩, hover⟩ := htest
  exact hover (hall Sample.net Sample.pool (Sample.day 1) ⟨Sample.admin, []⟩
    1 Sample.oneShare Sample.together w₀ hw hwithin hstart hkept)

end World

end NeutronContracts
