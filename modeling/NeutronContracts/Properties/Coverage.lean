/-
The delegations that the accounting sees.  The query of the delegations
watches the validators of its last update, and the delegations themselves move
when packets are acknowledged.  No delegation is out of sight as long as every
validator that leaves the list is empty on the host by then, delegations
arrive at validators of the list only, and replacements do not fail.
-/
import NeutronContracts.Chain.Delegations
import NeutronContracts.Properties.ValidatorList

namespace NeutronContracts

open StakeManager Outstanding Holdings

/-- The validator that a call takes off the list of pool `a`. -/
def StakeManager.ExecuteMsg.takesOff (a : String) :
    ExecuteMsg → Option String
  | .poolRmValidator poolAddr validatorAddr =>
      if poolAddr = a then some validatorAddr else none
  | .poolUpdateValidator poolAddr oldValidator _ =>
      if poolAddr = a then some oldValidator else none
  | _ => none

namespace World

/-- The querier and the message of a call. -/
def called (ev : Event) : Option (Querier × ExecuteMsg) :=
  match ev.action with
  | .execute querier _ msg _ => some (querier, msg)
  | _ => none

/-- The delegation to a validator that a call reads, zero for none. -/
def shown (w : World) (querier : Querier) (a validator : String) : Nat :=
  (((w.store.pools a).bind fun p =>
    (queryDelegationByAddr w.store querier a
      p.sdkGreaterOrEqualV047).toOption.bind fun delegations =>
        delegations.result.find? (·.validator = validator)).map
    (·.amount.amount)).getD 0

/-- A replacement of the validator waits for its redelegation. -/
def Leaving (w : World) (a validator : String) : Prop :=
  ∃ id ∈ w.used, ∃ packet ∈ w.pending id,
    packet.kind a = some .updateValidator ∧
      packet.origin.takesOff a = some validator

/-- The validator is on the list of the pool, or it is being replaced. -/
def Tracked (w : World) (a validator : String) : Prop :=
  (∃ p ∈ w.store.pools a, validator ∈ p.validatorAddrs) ∨
    w.Leaving a validator

instance (w : World) (a validator : String) :
    Decidable (w.Tracked a validator) :=
  inferInstanceAs (Decidable ((∃ p ∈ w.store.pools a, _ ∈ _) ∨
    ∃ id ∈ w.used, ∃ packet ∈ w.pending id, _ ∧ _))

/-- The validators that are tracked no longer once the packet is
acknowledged. -/
def dropped (w : World) (a : String) (packet : Packet) : List String :=
  match packet.payload with
  | none => []
  | some payload =>
      if payload.poolAddr = a then
        match payload.txType with
        | .rmValidator => [payload.message]
        | .updateValidator =>
            (((w.store.pools a).map (·.validatorAddrs)).getD [] ++
              (packet.origin.takesOff a).toList).filter fun v =>
                decide (v ∉ Text.split '_' payload.message)
        | _ => []
      else []

/-- At the end of a change every delegation is watched. -/
def Covered (a : String) (s : World × Book String) : Prop :=
  ∀ p ∈ s.1.store.pools a, p.validatorUpdateStatus = .ended →
    ∀ v, s.2 v ≠ 0 → v ∈ (s.1.watched a).getD []

/-- A step that loses sight of no delegation. -/
structure Accounted (worth : String → Nat → Nat) (a : String)
    (s : World × Book String) (ev : Event) : Prop where
  /-- a validator that is taken off without a redelegation is empty -/
  read : ∀ call ∈ called ev, ∀ v ∈ call.2.takesOff a,
    s.1.shown call.1 a v = 0 → s.2 v = 0
  /-- delegations arrive at tracked validators -/
  landed : ∀ packet ∈ s.1.ackedPacket ev, ∀ move ∈ packet.moves worth a,
    ∀ v ∈ move.target, s.1.Tracked a v
  /-- a redelegation leaves nothing on the validators that are given up -/
  emptied : ∀ packet ∈ s.1.ackedPacket ev, ∀ v ∈ s.1.dropped a packet,
    applyAll s.2 (packet.moves worth a) v = 0
  /-- a replacement does not fail -/
  restored : ∀ packet ∈ s.1.failedPacket ev,
    packet.kind a ≠ some .updateValidator

instance (worth : String → Nat → Nat) (a : String) (s : World × Book String)
    (ev : Event) : Decidable (Accounted worth a s ev) :=
  decidable_of_iff ((∀ call ∈ called ev, ∀ v ∈ call.2.takesOff a,
        s.1.shown call.1 a v = 0 → s.2 v = 0) ∧
      (∀ packet ∈ s.1.ackedPacket ev, ∀ move ∈ packet.moves worth a,
        ∀ v ∈ move.target, s.1.Tracked a v) ∧
      (∀ packet ∈ s.1.ackedPacket ev, ∀ v ∈ s.1.dropped a packet,
        applyAll s.2 (packet.moves worth a) v = 0) ∧
      ∀ packet ∈ s.1.failedPacket ev, packet.kind a ≠ some .updateValidator)
    ⟨fun ⟨hread, hlanded, hemptied, hrestored⟩ =>
        ⟨hread, hlanded, hemptied, hrestored⟩,
      fun ⟨hread, hlanded, hemptied, hrestored⟩ =>
        ⟨hread, hlanded, hemptied, hrestored⟩⟩

variable {net : Network} {w w' : World} {ev : Event} {a v : String}
  {p p' : PoolInfo} {querier : Querier} {info : MessageInfo}
  {msg : ExecuteMsg} {id : PacketId} {sent : Option SubMsg} {env : Env}

theorem target_of_takesOff {store : Storage} (h : msg.takesOff a = some v) :
    msg.target store = some a := by
  cases msg with
  | poolRmValidator b validatorAddr =>
      simp only [ExecuteMsg.takesOff, Option.ite_none_right_eq_some] at h
      rw [← h.1]
      rfl
  | poolUpdateValidator b oldValidator newValidator =>
      simp only [ExecuteMsg.takesOff, Option.ite_none_right_eq_some] at h
      rw [← h.1]
      rfl
  | _ => cases h

/-- Nothing is redelegated when nothing is read. -/
theorem amount_of_no_redelegation {newValidator denom : String}
    {delegations : List Delegation} {d : Delegation}
    (h : redelegationsFrom a v newValidator denom delegations = [])
    (hd : delegations.find? (·.validator = v) = some d) :
    d.amount.amount = 0 := by
  induction delegations with
  | nil => cases hd
  | cons first rest ih =>
      by_cases hfirst : first.validator = v
      · simp only [List.find?_cons, hfirst, decide_true,
          Option.some.injEq] at hd
        subst hd
        by_contra hne
        simp [redelegationsFrom, hfirst, hne] at h
      · simp only [List.find?_cons, hfirst, decide_false] at hd
        refine ih ?_ hd
        simpa [redelegationsFrom, hfirst] using h

/-- A change without a packet has read no delegation. -/
theorem shown_of_exec (hp : w.store.pools a = some p)
    (h : ExecStep w.store querier env info a p msg none p')
    (hv : msg.takesOff a = some v) : w.shown querier a v = 0 := by
  have hzero : ∀ delegations : QueryResult (List Delegation),
      queryDelegationByAddr w.store querier a p.sdkGreaterOrEqualV047 =
        .ok delegations →
      (∀ d, delegations.result.find? (·.validator = v) = some d →
        d.amount.amount = 0) → w.shown querier a v = 0 := by
    intro delegations hquery hnone
    simp only [shown, hp, Option.bind_some, hquery, Except.toOption]
    cases hfind : delegations.result.find? (·.validator = v) with
    | none => rfl
    | some d => simpa using hnone d hfind
  cases h with
  | elsewhere htarget => exact absurd (target_of_takesOff hv) htarget
  | rmValidator hstatus hmem hupdate hlen hquery hnone =>
      simp only [ExecuteMsg.takesOff, if_true, Option.some.injEq] at hv
      subst hv
      exact hzero _ hquery hnone
  | updateValidator hstatus hupdate hold hnew hquery hmsgs =>
      simp only [ExecuteMsg.takesOff, if_true, Option.some.injEq] at hv
      subst hv
      exact hzero _ hquery fun d => amount_of_no_redelegation hmsgs
  | era hera => cases hera <;> cases hv
  | _ => cases hv

/-! ### Replacements that wait -/

theorem Leaving.waiting (h : w.Leaving a v) : ∃ id packet,
    w.pending id = some packet ∧ packet.origin.takesOff a = some v ∧
      w.waiting TxType.isValidator a id = some .updateValidator := by
  obtain ⟨id, -, packet, hpacket, hkind, htakes⟩ := h
  refine ⟨id, packet, hpacket, htakes, ?_⟩
  obtain ⟨payload, hpayload, hpool, htype⟩ := Packet.kind_eq_some.mp hkind
  exact waiting_eq_some.mpr
    ⟨⟨packet, payload, hpacket, hpayload, hpool, htype⟩, rfl⟩

theorem not_leaving_of_idle (h : Idle (w.waiting TxType.isValidator a)) :
    ¬ w.Leaving a v := by
  intro hleaving
  obtain ⟨id, -, -, -, hwaiting⟩ := hleaving.waiting
  exact absurd ((h id).symm.trans hwaiting) (by simp)

/-- A replacement waits on while its packet does. -/
theorem Leaving.of_pending (hs' : Sound net w') (h : w.Leaving a v)
    (hkeep : ∀ id packet, w.pending id = some packet →
      packet.kind a = some .updateValidator →
        w'.pending id = some packet) : w'.Leaving a v := by
  obtain ⟨id, -, packet, hpacket, hkind, htakes⟩ := h
  have hpacket' := hkeep id packet hpacket hkind
  exact ⟨id, hs'.usedPending id packet hpacket', packet, hpacket', hkind,
    htakes⟩

/-- The answer to another packet leaves a replacement waiting. -/
theorem Leaving.of_remove (hs' : Sound net w') (h : w.Leaving a v)
    (hpending : w'.pending = w.pending.remove id)
    (hother : ∀ packet, w.pending id = some packet →
      packet.kind a ≠ some .updateValidator) : w'.Leaving a v := by
  refine h.of_pending hs' fun other packet hpacket hkind => ?_
  have hne : other ≠ id := by
    rintro rfl
    exact hother packet hpacket hkind
  rw [hpending, Map.remove_of_ne hne, hpacket]

/-! ### The list and the query -/

/-- The list of a pool against its query: it is watched unless a replacement
or the end of a change has taken it ahead. -/
structure Listed (w : World) (a : String) (p : PoolInfo) : Prop where
  matched : Matched oneChange (fun _ => False)
    (w.waiting TxType.isValidator a) p.validatorUpdateStatus
  fresh : p.status = .registerEnded →
    p.validatorAddrs = [] ∧ Idle (w.waiting TxType.isValidator a)
  watched : (p.validatorUpdateStatus = .ended ∨
      ∃ id, w.waiting TxType.isValidator a id = some .rmValidator) →
    ∀ v ∈ p.validatorAddrs, v ∈ (w.watched a).getD []

/-- What an event does to the watched validators of a pool that it leaves with
the record `p'`: they stay as they are, or become those of the record. -/
def Rewatched (w w' : World) (a : String) (p' : PoolInfo) : Prop :=
  w'.watched a = w.watched a ∨ w'.watched a = some p'.validatorAddrs

namespace Listed

theorem idle (h : Listed w a p) (hstatus : p.validatorUpdateStatus ≠ .start) :
    Idle (w.waiting TxType.isValidator a) :=
  h.matched.idle fun _ hmay => hstatus hmay

/-- A move that leaves the list, its status and the packets of changes
alone. -/
theorem of_same (h : Listed w a p) (hkeys : Rewatched w w' a p')
    (hwaiting : w'.waiting TxType.isValidator a =
      w.waiting TxType.isValidator a)
    (hlist : p'.validatorAddrs = p.validatorAddrs)
    (hupdate : p'.validatorUpdateStatus = p.validatorUpdateStatus)
    (hstatus : p'.status = .registerEnded → p.status = .registerEnded) :
    Listed w' a p' := by
  constructor
  · rw [hwaiting, hupdate]
    exact h.matched
  · rw [hwaiting, hlist]
    exact fun hregistered => h.fresh (hstatus hregistered)
  · rw [hwaiting, hupdate]
    intro hend v hv
    rcases hkeys with hsame | hnew
    · rw [hsame]
      exact h.watched hend v (hlist ▸ hv)
    · rw [hnew]
      exact hv

/-- No change waits. -/
theorem of_idle (hidle : Idle (w.waiting TxType.isValidator a))
    (hlive : p.status = .registerEnded → p.validatorAddrs = [])
    (hwatched : p.validatorUpdateStatus = .ended →
      ∀ v ∈ p.validatorAddrs, v ∈ (w.watched a).getD []) :
    Listed w a p := by
  refine ⟨matched_of_idle hidle not_false, fun h => ⟨hlive h, hidle⟩, ?_⟩
  rintro (hend | ⟨id, hid⟩)
  · exact hwatched hend
  · exact absurd ((hidle id).symm.trans hid) (by simp)

/-- The request of a change sends the only packet of a change. -/
theorem of_sent {sub : SubMsg} {kind : TxType} (hs : Sound net w)
    (hidle : Idle (w.waiting TxType.isValidator a))
    (hsends : Sends (some sub) id info.sender msg w w')
    (hcalls : Calls sub a kind) (hkind : kind.isValidator = true)
    (hupdate : p'.validatorUpdateStatus = .start)
    (hlive : p'.status ≠ .registerEnded)
    (hwatched : kind = .rmValidator →
      ∀ v ∈ p'.validatorAddrs, v ∈ (w'.watched a).getD []) :
    Listed w' a p' := by
  have hwaiting := waiting_of_sends_calls hs hsends hcalls hkind
  refine ⟨?_, fun h => absurd h hlive, ?_⟩
  · rw [hwaiting]
    exact matched_sent hidle hupdate
  · rintro (hend | ⟨other, hother⟩)
    · rw [hupdate] at hend
      cases hend
    · rw [hwaiting, Map.save_apply] at hother
      split at hother
      · exact hwatched (Option.some.inj hother)
      · exact absurd ((hidle other).symm.trans hother) (by simp)

end Listed

/-- A pool that stays without a start keeps its list. -/
theorem list_of_registered
    (h : ExecStep w.store querier env info a p msg sent p')
    (hstatus : p.status = .registerEnded)
    (hstatus' : p'.status = .registerEnded) :
    p'.validatorAddrs = p.validatorAddrs := by
  cases h with
  | addValidator hactive => simp [hactive] at hstatus
  | rmValidator hactive => simp [hactive] at hstatus
  | updateValidator hactive => simp [hactive] at hstatus
  | updateValidatorSent hactive => simp [hactive] at hstatus
  | config hpool hconfig =>
      obtain ⟨_, _, _, _, _, _, _, _, _, _, _, rfl⟩ := hconfig
      rfl
  | era hera =>
      cases hera with
      | init => cases hstatus'
      | migrate => cases hstatus'
      | _ => rfl
  | _ => rfl

/-- A call whose edit never waits tells the query what to watch. -/
theorem rewatches_of_edit {store : Storage} {status : EraStatus} {edit : Edit}
    (h : msg.edit store a status = some edit) (hedit : edit.mayWait = false) :
    msg.target store = some a ∧ msg.rewatches status = true := by
  unfold ExecuteMsg.edit at h
  split at h
  case isFalse => cases h
  case isTrue htarget =>
      refine ⟨htarget, ?_⟩
      cases msg with
      | initPool param =>
          simp only [Option.ite_none_right_eq_some] at h
          simp [ExecuteMsg.rewatches, h.1]
      | migratePool param =>
          simp only [Option.ite_none_right_eq_some] at h
          simp [ExecuteMsg.rewatches, h.1]
      | poolAddValidator b validatorAddr => rfl
      | poolRmValidator b validatorAddr =>
          cases h
          cases hedit
      | poolUpdateValidator b oldValidator newValidator =>
          cases h
          cases hedit
      | _ => cases h

theorem listed_of_exec (hs : Sound net w) (hL : Listed w a p)
    (hexec : ExecStep w.store querier env info a p msg sent p')
    (hsends : Sends sent id info.sender msg w w')
    (hwatched : w'.watched a =
      if msg.target w.store = some a ∧ msg.rewatches p.status = true then
        some p'.validatorAddrs
      else w.watched a)
    (hstatus : p'.status = .registerEnded → p.status = .registerEnded) :
    Listed w' a p' := by
  have hkeys : Rewatched w w' a p' := by
    rw [Rewatched, hwatched]
    split
    · exact .inr rfl
    · exact .inl rfl
  have hnil : p'.status = .registerEnded → p'.validatorAddrs = [] := by
    intro hregistered
    rw [list_of_registered hexec (hstatus hregistered) hregistered]
    exact (hL.fresh (hstatus hregistered)).1
  cases validatorStep_of_exec hexec with
  | plain hedit hlist hupdate hsent =>
      exact hL.of_same hkeys (waiting_of_sends_other hs hsends hsent) hlist
        hupdate hstatus
  | watch hedit hmsg hbefore hlist hupdate =>
      subst hmsg
      refine .of_idle ?_ hnil fun _ v hv => ?_
      · rw [waiting_of_pending hsends.1]
        exact hL.idle (by rw [hbefore]; decide)
      · rw [hwatched, if_pos ⟨rfl, rfl⟩]
        exact hv
  | start hedit hregistered hcalls hlist hupdate =>
      refine .of_idle ?_ hnil fun _ v hv => ?_
      · rw [waiting_of_sends_other hs hsends
          (not_validator_of_calls hcalls rfl)]
        exact (hL.fresh hregistered).2
      · rw [hwatched, if_pos (rewatches_of_edit hedit rfl)]
        exact hv
  | add hedit hlist hupdate =>
      have hwaiting : w'.waiting TxType.isValidator a =
          w.waiting TxType.isValidator a := waiting_of_pending hsends.1
      refine ⟨?_, fun h => ⟨hnil h, ?_⟩, fun _ v hv => ?_⟩
      · rw [hwaiting, hupdate]
        exact hL.matched
      · rw [hwaiting]
        exact (hL.fresh (hstatus h)).2
      · rw [hwatched, if_pos (rewatches_of_edit hedit rfl)]
        exact hv
  | done hedit hbefore hlist hupdate =>
      refine .of_idle ?_ hnil fun hend => ?_
      · rw [waiting_of_pending hsends.1]
        exact hL.idle (by rw [hbefore]; decide)
      · rw [hupdate] at hend
        cases hend
  | removal hedit hended hcalls htext hbefore hlist hupdate =>
      obtain rfl := edit_eq_remove hedit
      refine .of_sent hs (hL.idle (by rw [hbefore]; decide)) hsends hcalls rfl
        hupdate (by simp [hended]) fun _ v hv => ?_
      rw [hwatched, if_neg (by simp [ExecuteMsg.rewatches])]
      exact hL.watched (.inl hbefore) v (hlist ▸ hv)
  | replacement hedit hended hnew hcalls htext hbefore hlist hupdate =>
      exact .of_sent hs (hL.idle (by rw [hbefore]; decide)) hsends hcalls rfl
        hupdate (by simp [hended]) fun hremoval => absurd hremoval (by decide)

theorem listed_of_answer {answer : Answer} {bankAccepts : Bool}
    {packet : Packet} {payload : SudoPayload} (hL : Listed w a p)
    (hrestored : ∀ packet ∈ w.failedPacket ev,
      packet.kind a ≠ some .updateValidator)
    (haction : ev.action = .answer id answer querier bankAccepts)
    (hpacket : w.pending id = some packet)
    (hpayload : packet.payload = some payload) (hpool : payload.poolAddr = a)
    (hstep : AnswerStep ev.block.height p payload answer p')
    (hpending : w'.pending = w.pending.remove id)
    (hwatched : w'.watched a = w.watched a)
    (hstatus : p'.status = .registerEnded → p.status = .registerEnded) :
    Listed w' a p' := by
  -- an answer to another packet
  have hother : payload.txType.isValidator = false →
      p'.validatorAddrs = p.validatorAddrs →
      p'.validatorUpdateStatus = p.validatorUpdateStatus →
      Listed w' a p' := fun hplain hlist hupdate =>
    hL.of_same (.inl hwatched)
      (waiting_of_remove_other hpending
        (waiting_other hpacket hpayload hplain)) hlist hupdate hstatus
  -- the answer to the only packet of a change
  have hlast : payload.txType.isValidator = true →
      w.waiting TxType.isValidator a id = some payload.txType ∧
      p.status ≠ .registerEnded ∧
      Idle (w'.waiting TxType.isValidator a) := by
    intro hvalidator
    have hwaiting := waiting_eq_some.mpr
      ⟨⟨packet, payload, hpacket, hpayload, hpool, rfl⟩, hvalidator⟩
    refine ⟨hwaiting, fun hregistered => ?_, ?_⟩
    · exact absurd (((hL.fresh hregistered).2 id).symm.trans hwaiting)
        (by simp)
    · rw [waiting_of_remove hpending]
      exact hL.matched.answered hwaiting
  cases hstep with
  | era hera =>
      have hlist : p'.validatorAddrs = p.validatorAddrs := by
        cases hera <;> rfl
      have hupdate : p'.validatorUpdateStatus = p.validatorUpdateStatus := by
        cases hera <;> rfl
      refine hother ?_ hlist hupdate
      have hkind := EraAnswer.isStep hera
      cases htype : payload.txType <;> simp [htype, TxType.isStep,
        TxType.isEra, TxType.isInit, TxType.isValidator] at hkind ⊢
  | updateValidator htype =>
      obtain ⟨-, hlive, hidle⟩ := hlast (by rw [htype]; rfl)
      refine .of_idle hidle (fun h => absurd (hstatus h) hlive) ?_
      intro hend
      cases hend
  | rmValidator htype =>
      obtain ⟨-, hlive, hidle⟩ := hlast (by rw [htype]; rfl)
      refine .of_idle hidle (fun h => absurd (hstatus h) hlive) ?_
      intro hend
      cases hend
  | validatorFailed htype hfailed =>
      have hvalidator : payload.txType.isValidator = true := by
        rcases htype with htype | htype <;> rw [htype] <;> rfl
      obtain ⟨hwaiting, hlive, hidle⟩ := hlast hvalidator
      refine .of_idle hidle (fun h => absurd (hstatus h) hlive) fun _ => ?_
      rcases htype with htype | htype
      · refine absurd ?_ (hrestored packet ?_)
        · exact Packet.kind_eq_some.mpr ⟨payload, hpayload, hpool, htype⟩
        · rw [failedPacket_of_failure haction hfailed]
          exact hpacket
      · rw [hwatched]
        exact hL.watched (.inr ⟨id, htype ▸ hwaiting⟩)
  | userWithdraw htype => exact hother (by rw [htype]; rfl) rfl rfl
  | stakeLsm htype hcredit hrate => exact hother (by rw [htype]; rfl) rfl rfl
  | stakeLsmFailed htype hfailed => exact hother (by rw [htype]; rfl) rfl rfl
  | redeem htype => exact hother (by rw [htype]; rfl) rfl rfl
  | redeemFailed htype hfailed => exact hother (by rw [htype]; rfl) rfl rfl

/-! ### What is tracked -/

theorem registered_of_start {store : Storage} {status : EraStatus}
    {validators : List String}
    (h : msg.edit store a status = some (.start validators)) :
    status = .registerEnded := by
  unfold ExecuteMsg.edit at h
  split at h
  case isFalse => cases h
  case isTrue =>
      cases msg with
      | initPool param =>
          simp only [Option.ite_none_right_eq_some] at h
          exact h.1
      | migratePool param =>
          simp only [Option.ite_none_right_eq_some] at h
          exact h.1
      | _ => cases h

/-- A validator that a call takes out of sight is empty. -/
theorem empty_of_exec {book : Book String} (hs : Sound net w)
    (hs' : Sound net w') (hp : w.store.pools a = some p)
    (hp' : w'.store.pools a = some p') (hL : Listed w a p)
    (hexec : ExecStep w.store querier env info a p msg sent p')
    (hsends : Sends sent id info.sender msg w w')
    (hread : ∀ v ∈ msg.takesOff a, w.shown querier a v = 0 → book v = 0)
    (htracked : w.Tracked a v) (hnot : ¬ w'.Tracked a v) : book v = 0 := by
  have hmem : v ∈ p.validatorAddrs := by
    rcases htracked with ⟨q, hq, hv⟩ | hleaving
    · obtain rfl := Option.some.inj (hp.symm.trans hq)
      exact hv
    · exact absurd (.inr (hleaving.of_pending hs' fun _ _ hpacket _ =>
        pending_after_sends hs hsends hpacket)) hnot
  have hout : v ∉ p'.validatorAddrs := fun hv => hnot (.inl ⟨p', hp', hv⟩)
  have hnil : p.status = .registerEnded → book v = 0 := by
    intro hregistered
    rw [(hL.fresh hregistered).1] at hmem
    cases hmem
  cases validatorStep_of_exec hexec with
  | plain hedit hlist => exact absurd (hlist ▸ hmem) hout
  | watch hedit hmsg hbefore hlist => exact absurd (hlist ▸ hmem) hout
  | start hedit hregistered => exact hnil hregistered
  | add hedit hlist =>
      exact absurd (hlist ▸ List.mem_append_left _ hmem) hout
  | done hedit hbefore hlist hupdate =>
      rename_i edit
      rw [hlist] at hout
      cases edit with
      | start validators => exact hnil (registered_of_start hedit)
      | add validatorAddr => exact absurd (List.mem_append_left _ hmem) hout
      | remove validatorAddr =>
          obtain rfl := edit_eq_remove hedit
          have hv : validatorAddr = v := by
            by_contra hne
            exact hout (List.mem_filter.mpr ⟨hmem, by simpa using Ne.symm hne⟩)
          subst hv
          exact hread _ (if_pos rfl) (shown_of_exec hp hexec (if_pos rfl))
      | replace oldValidator newValidator =>
          obtain rfl := edit_eq_replace hedit
          have hv : oldValidator = v := by
            by_contra hne
            exact hout (List.mem_append_left _
              (List.mem_filter.mpr ⟨hmem, by simpa using Ne.symm hne⟩))
          subst hv
          exact hread _ (if_pos rfl) (shown_of_exec hp hexec (if_pos rfl))
  | removal hedit hstatus hcalls htext hbefore hlist =>
      exact absurd (hlist ▸ hmem) hout
  | replacement hedit hstatus hnew hcalls htext hbefore hlist hupdate =>
      rename_i oldValidator newValidator sub
      obtain rfl := edit_eq_replace hedit
      have hv : oldValidator = v := by
        by_contra hne
        rw [hlist] at hout
        exact hout (List.mem_append_left _
          (List.mem_filter.mpr ⟨hmem, by simpa using Ne.symm hne⟩))
      subst hv
      -- from now on the packet of the replacement keeps it in sight
      refine absurd (.inr ⟨id, ?_, sub.packet info.sender
        (.poolUpdateValidator a oldValidator newValidator), ?_, ?_,
          if_pos rfl⟩) hnot
      · rw [hsends.2.1]
        exact List.mem_cons_self
      · rw [hsends.2.2, Option.mem_def, Map.save_self]
      · exact Packet.kind_eq_some.mpr hcalls

/-- A validator that an answer takes out of sight is empty. -/
theorem empty_of_answer {book : Book String} {answer : Answer}
    {bankAccepts : Bool} {packet : Packet} {payload : SudoPayload}
    (hs' : Sound net w') (hp : w.store.pools a = some p)
    (hp' : w'.store.pools a = some p') (hL : Listed w a p)
    (hemptied : ∀ packet ∈ w.ackedPacket ev, ∀ v ∈ w.dropped a packet,
      book v = 0)
    (hrestored : ∀ packet ∈ w.failedPacket ev,
      packet.kind a ≠ some .updateValidator)
    (haction : ev.action = .answer id answer querier bankAccepts)
    (hpacket : w.pending id = some packet)
    (hpayload : packet.payload = some payload) (hpool : payload.poolAddr = a)
    (hstep : AnswerStep ev.block.height p payload answer p')
    (hpending : w'.pending = w.pending.remove id)
    (htracked : w.Tracked a v) (hnot : ¬ w'.Tracked a v) : book v = 0 := by
  have hout : v ∉ p'.validatorAddrs := fun hv => hnot (.inl ⟨p', hp', hv⟩)
  have hkind : packet.kind a = some payload.txType :=
    Packet.kind_eq_some.mpr ⟨payload, hpayload, hpool, rfl⟩
  -- an answer to anything but a replacement
  have hmem : payload.txType ≠ .updateValidator → v ∈ p.validatorAddrs := by
    intro hother
    rcases htracked with ⟨q, hq, hv⟩ | hleaving
    · obtain rfl := Option.some.inj (hp.symm.trans hq)
      exact hv
    · refine absurd (.inr (hleaving.of_remove hs' hpending ?_)) hnot
      intro packet' hpacket'
      obtain rfl := Option.some.inj (hpacket.symm.trans hpacket')
      rw [hkind, ne_eq, Option.some.injEq]
      exact hother
  have hsame : payload.txType ≠ .updateValidator →
      p'.validatorAddrs = p.validatorAddrs → book v = 0 :=
    fun hother hlist => absurd (hlist ▸ hmem hother) hout
  cases hstep with
  | era hera =>
      refine hsame (fun htype => ?_) (by cases hera <;> rfl)
      have hstep := EraAnswer.isStep hera
      simp [htype, TxType.isStep, TxType.isEra, TxType.isInit] at hstep
  | updateValidator htype =>
      apply hemptied packet
        (by rw [ackedPacket_of_success haction]; exact hpacket)
      have hbefore : v ∈ p.validatorAddrs ∨
          packet.origin.takesOff a = some v := by
        rcases htracked with ⟨q, hq, hv⟩ | hleaving
        · obtain rfl := Option.some.inj (hp.symm.trans hq)
          exact .inl hv
        · obtain ⟨other, packet', hpacket', htakes, hwaiting'⟩ :=
            hleaving.waiting
          have hwaiting := waiting_eq_some.mpr
            ⟨⟨packet, payload, hpacket, hpayload, hpool, htype⟩,
              (rfl : TxType.isValidator .updateValidator = true)⟩
          obtain rfl := hL.matched.unique other id _ _ hwaiting' hwaiting
          obtain rfl := Option.some.inj (hpacket.symm.trans hpacket')
          exact .inr htakes
      simpa [dropped, hpayload, hpool, htype, hp, hout] using hbefore
  | rmValidator htype =>
      apply hemptied packet
        (by rw [ackedPacket_of_success haction]; exact hpacket)
      have hv : payload.message = v := by
        by_contra hne
        exact hout (List.mem_filter.mpr
          ⟨hmem (by simp [htype]), by simpa using Ne.symm hne⟩)
      simp [dropped, hpayload, hpool, htype, hv]
  | validatorFailed htype hfailed =>
      refine hsame (fun hupdate => ?_) rfl
      refine hrestored packet ?_ (hkind.trans (by rw [hupdate]))
      rw [failedPacket_of_failure haction hfailed]
      exact hpacket
  | userWithdraw htype => exact hsame (by simp [htype]) rfl
  | stakeLsm htype hcredit hrate => exact hsame (by simp [htype]) rfl
  | stakeLsmFailed htype hfailed => exact hsame (by simp [htype]) rfl
  | redeem htype => exact hsame (by simp [htype]) rfl
  | redeemFailed htype hfailed => exact hsame (by simp [htype]) rfl

/-- An event that leaves the list and the replacements alone takes nothing out
of sight. -/
theorem tracked_of_same (hp : w.store.pools a = some p)
    (hp' : w'.store.pools a = some p)
    (hleaving : w.Leaving a v → w'.Leaving a v) (h : w.Tracked a v) :
    w'.Tracked a v := by
  rcases h with ⟨q, hq, hv⟩ | h
  · obtain rfl := Option.some.inj (hp.symm.trans hq)
    exact .inl ⟨_, hp', hv⟩
  · exact .inr (hleaving h)

/-! ### Whole runs -/

variable {worth : String → Nat → Nat} {book : Book String}

theorem delegations_of_execute
    (haction : ev.action = .execute querier info msg id) :
    delegations worth a book w ev w' = book := by
  simp [delegations, ackedPacket, haction]

/-- Delegations arrive in sight. -/
theorem within_landed (h : Within book (w.Tracked a))
    (hlanded : ∀ packet ∈ w.ackedPacket ev, ∀ move ∈ packet.moves worth a,
      ∀ v ∈ move.target, w.Tracked a v) :
    Within (delegations worth a book w ev w') (w.Tracked a) := by
  unfold delegations
  split
  case h_1 packet hpacket => exact h.applyAll (hlanded packet hpacket)
  case h_2 => exact h

/-- What an accounted step takes out of sight is empty. -/
theorem empty_of_step (hs : Sound net w) (hstep : w.step net ev = some w')
    (hL : ∀ p, w.store.pools a = some p → Listed w a p)
    (hacc : Accounted worth a (w, book) ev) (htracked : w.Tracked a v)
    (hnot : ¬ w'.Tracked a v) : delegations worth a book w ev w' v = 0 := by
  have hs' := sound_step hs hstep
  cases hp : w.store.pools a with
  | none =>
      rcases htracked with ⟨q, hq, -⟩ | ⟨id, -, packet, hpacket, hkind, -⟩
      · exact absurd (hp.symm.trans hq) (by simp)
      · obtain ⟨payload, hpayload, rfl, -⟩ := Packet.kind_eq_some.mp hkind
        obtain ⟨q, hq⟩ := hs.homed id packet payload hpacket hpayload
        exact absurd (hp.symm.trans hq) (by simp)
  | some p =>
      obtain ⟨p', hp', hmove⟩ := pool_move hs hstep hp
      cases hmove with
      | executed haction hexec hsends =>
          rw [delegations_of_execute haction]
          refine empty_of_exec hs hs' hp hp' (hL p hp) hexec hsends ?_
            htracked hnot
          exact hacc.read _ (by rw [called, haction]; rfl)
      | answered haction hpacket hpayload hpool hanswer hpending =>
          refine empty_of_answer hs' hp hp' (hL p hp) ?_ hacc.restored haction
            hpacket hpayload hpool hanswer hpending htracked hnot
          intro packet' hpacket' v hv
          have hzero := hacc.emptied packet' hpacket' v hv
          rw [delegations, Option.mem_def.mp hpacket']
          exact hzero
      | answeredElsewhere haction hpacket helsewhere hpending =>
          refine absurd (tracked_of_same hp hp' (fun h => ?_) htracked) hnot
          refine h.of_remove hs' hpending fun packet' hpacket' => ?_
          obtain rfl := Option.some.inj (hpacket.symm.trans hpacket')
          rw [Packet.kind_elsewhere helsewhere]
          simp
      | vain haction hpacket hpayload hpool hvain hpending =>
          refine absurd (tracked_of_same hp hp' (fun h => ?_) htracked) hnot
          refine h.of_remove hs' hpending fun packet' hpacket' hkind => ?_
          obtain rfl := Option.some.inj (hpacket.symm.trans hpacket')
          obtain ⟨payload', hpayload', -, htype⟩ :=
            Packet.kind_eq_some.mp hkind
          obtain rfl := Option.some.inj (hpayload.symm.trans hpayload')
          have hplain := validator_not_vain (hpool ▸ hp) hvain
          rw [htype] at hplain
          cases hplain
      | idle hexecute hanswer hpending =>
          refine absurd (tracked_of_same hp hp' (fun h => ?_) htracked) hnot
          exact h.of_pending hs' fun _ _ hpacket _ => hpending ▸ hpacket

theorem listed_of_move (hs : Sound net w) (hstep : w.step net ev = some w')
    (hp : w.store.pools a = some p) (hp' : w'.store.pools a = some p')
    (hL : Listed w a p)
    (hrestored : ∀ packet ∈ w.failedPacket ev,
      packet.kind a ≠ some .updateValidator)
    (hmove : PoolMove net w ev w' a p p') : Listed w' a p' := by
  have hstatus := hmove.registered
  cases hmove with
  | executed haction hexec hsends =>
      exact listed_of_exec hs hL hexec hsends
        (watched_of_exec hs hstep hp hp' haction) hstatus
  | answered haction hpacket hpayload hpool hanswer hpending =>
      exact listed_of_answer hL hrestored haction hpacket hpayload hpool
        hanswer hpending (watched_of_other hs hstep (by simp [haction]))
        hstatus
  | answeredElsewhere haction hpacket helsewhere hpending =>
      exact hL.of_same (.inl (watched_of_other hs hstep (by simp [haction])))
        (waiting_of_remove_other hpending
          (waiting_elsewhere hpacket helsewhere)) rfl rfl hstatus
  | vain haction hpacket hpayload hpool hvain hpending =>
      have hplain := validator_not_vain (hpool ▸ hp) hvain
      exact hL.of_same (.inl (watched_of_other hs hstep (by simp [haction])))
        (waiting_of_remove_other hpending
          (waiting_other hpacket hpayload hplain)) rfl rfl hstatus
  | idle hexecute hanswer hpending =>
      exact hL.of_same (.inl (watched_of_other hs hstep hexecute))
        (waiting_of_pending hpending) rfl rfl hstatus

/-- Everything that is held is in sight, and the list agrees with the
query. -/
structure InSight (net : Network) (a : String) (s : World × Book String) :
    Prop where
  sound : Sound net s.1
  within : Within s.2 (s.1.Tracked a)
  listed : ∀ p, s.1.store.pools a = some p → Listed s.1 a p

theorem inSight_step {s s' : World × Book String} (h : InSight net a s)
    (hstep : Transition.track (step net) (delegations worth a) s ev = some s')
    (hacc : Accounted worth a s ev) : InSight net a s' := by
  obtain ⟨w, book⟩ := s
  obtain ⟨w', book'⟩ := s'
  obtain ⟨hworld, rfl⟩ := Transition.track_eq_some.mp hstep
  obtain ⟨hs, hwithin, hlisted⟩ := h
  dsimp only at hs hwithin hlisted
  refine ⟨sound_step hs hworld, ?_, ?_⟩
  · exact (within_landed hwithin hacc.landed).restrict fun v htracked hnot =>
      empty_of_step hs hworld hlisted hacc htracked hnot
  · refine pool_invariant (J := Listed w' a) hs hworld hlisted ?_ ?_
    · intro p p' hp hp' hL hmove
      exact listed_of_move hs hworld hp hp' hL hacc.restored hmove
    · intro icaId admin hp _ hnone _ _
      exact .of_idle (idle_of_not_unanswered hnone) (fun _ => rfl)
        fun _ v hv => absurd hv (by simp [registeredPool])

/-- At the end of a change the list is watched, and nothing is held outside
it. -/
theorem covered_of_inSight {s : World × Book String} (h : InSight net a s) :
    Covered a s := by
  intro p hp hend v hv
  have hL := h.listed p hp
  rcases h.within v hv with ⟨q, hq, hmem⟩ | hleaving
  · obtain rfl := Option.some.inj (hp.symm.trans hq)
    exact hL.watched (.inl hend) v hmem
  · exact absurd hleaving (not_leaving_of_idle (hL.idle (by rw [hend]; decide)))

/-- In a run of accounted steps no delegation is out of sight. -/
theorem delegations_covered {net : Network} {worth : String → Nat → Nat}
    {a : String} {block : BlockInfo} {info : MessageInfo}
    {lsdTokenCodeId : Nat} {evs : List Event}
    (hacc : Transition.AllSteps
      (Transition.track (step net) (delegations worth a))
      (fun s ev _ => Accounted worth a s ev)
      (genesis block info lsdTokenCodeId, Holdings.empty) evs) :
    Transition.AllSteps (Transition.track (step net) (delegations worth a))
      (fun _ _ s' => Covered a s')
      (genesis block info lsdTokenCodeId, Holdings.empty) evs := by
  refine Transition.AllSteps.of_invariant (InSight net a) ?_ ?_ hacc
  · intro s ev s' hinv hstep hcond
    have hnext := inSight_step hinv hstep hcond
    exact ⟨hnext, covered_of_inSight hnext⟩
  · exact ⟨sound_genesis net block info lsdTokenCodeId, within_empty,
      fun _ h => nomatch h⟩

/-- A share is worth as many coins. -/
def sameWorth (_ : String) (amount : Nat) : Nat := amount

/-- Two validators with a delegation of 50 each. -/
def delegated : List Event := Sample.setup ++ [
  Sample.call 1 (Sample.querier 1 [] 0) (.poolDelegate Sample.pool 100)
    (Sample.packetId 2),
  Sample.ack 1 .success (Sample.packetId 2)]

/-- A validator is removed after its delegation has been moved. -/
theorem delegations_covered_sample :
    Transition.AllSteps
      (Transition.track (step Sample.net)
        (delegations sameWorth Sample.pool))
      (fun _ _ s' => Covered Sample.pool s')
      (Sample.genesis, Holdings.empty)
      (delegated ++ [
        Sample.call 1 (Sample.querier 1 [("val1", 50)] 0)
          (.poolRmValidator Sample.pool "val1") (Sample.packetId 3),
        Sample.ack 1 .success (Sample.packetId 3),
        Sample.call 1 (Sample.querier 1 [] 0)
          (.poolUpdateValidatorsIcq Sample.pool) (Sample.packetId 4)]) :=
  delegations_covered (by decide +kernel)

/-- A replacement fails and a validator is added: the delegation to the old
validator is out of sight. -/
def lostSight : List Event := delegated ++ [
  Sample.call 1 (Sample.querier 1 [("val1", 50)] 0)
    (.poolUpdateValidator Sample.pool "val1" "val3") (Sample.packetId 3),
  Sample.ack 1 .error (Sample.packetId 3),
  Sample.call 1 (Sample.querier 1 [] 0)
    (.poolAddValidator Sample.pool "val4") (Sample.packetId 4)]

theorem delegations_covered_fails :
    ¬ Transition.AllSteps
      (Transition.track (step Sample.net)
        (delegations sameWorth Sample.pool))
      (fun _ _ s' => Covered Sample.pool s')
      (Sample.genesis, Holdings.empty) lostSight := by
  intro h
  -- what is held by the replaced validator can be tested
  have hold : Transition.AllSteps
      (Transition.track (step Sample.net)
        (delegations sameWorth Sample.pool))
      (fun _ _ s' => ∀ p ∈ s'.1.store.pools Sample.pool,
        p.validatorUpdateStatus = .ended → s'.2 "val1" ≠ 0 →
          "val1" ∈ (s'.1.watched Sample.pool).getD [])
      (Sample.genesis, Holdings.empty) lostSight :=
    h.mono fun _ _ _ _ hcovered p hp hend => hcovered p hp hend "val1"
  exact absurd hold (by decide +kernel)

end World

end NeutronContracts
