/-
The unbonding entries of the host.  A validator can be undelegated from at most
seven times within an unbonding period; the contract keeps the times of its
acknowledged undelegations and passes over a validator without a free entry.
-/
import NeutronContracts.Chain.EraProtocol
import NeutronContracts.Chain.Records
import NeutronContracts.Lib.Window

namespace NeutronContracts

open StakeManager Fallible

/-! ### The times of the undelegations -/

/-- The times kept for a validator, none when there is no entry. -/
def unbondTimes (store : Storage) (a validator : String) : List Nat :=
  (store.validatorsUnbondsTime (a, validator)).getD []

/-- The validators that the messages undelegate from for account `a`. -/
def undelegated (a : String) (msgs : List ProtobufAny) : List String :=
  msgs.filterMap fun msg =>
    match msg.value with
    | .undelegate delegator validator _ =>
        if delegator = a then some validator else none
    | _ => none

namespace StakeManager

/-- The validators that the loop of `allocate_unbond_amount` passes over
because they have no free entry. -/
def skippedLoop (currentTime unbondingPeriodSeconds : Nat) :
    Storage → Nat → List Delegation → List String
  | _, _, [] => []
  | store, remaining, delegation :: rest =>
      if remaining = 0 then []
      else
        match clearTimestamps store currentTime unbondingPeriodSeconds
            delegation.delegator delegation.validator with
        | .error _ => []
        | .ok (store, full) =>
            if full then
              delegation.validator ::
                skippedLoop currentTime unbondingPeriodSeconds store remaining
                  rest
            else
              let current :=
                if delegation.amount.amount < remaining then
                  delegation.amount.amount
                else remaining
              skippedLoop currentTime unbondingPeriodSeconds store
                (remaining - current) rest

/-- The validators that `allocate_unbond_amount` passes over. -/
def skippedValidators (store : Storage) (currentTime : Nat)
    (delegations : List Delegation)
    (unbondAmount unbondingPeriodSeconds : Nat) : List String :=
  skippedLoop currentTime unbondingPeriodSeconds store unbondAmount
    (delegations.insertionSort fun a b => b.amount.amount ≤ a.amount.amount)

end StakeManager

section

variable {store store' next : Storage} {querier : Querier} {env : Env}
  {a b v delegator validator text : String} {p : PoolInfo}
  {currentTime period remaining left amount : Nat} {full : Bool}
  {infos result : List ValidatorUnbondInfo} {delegations : List Delegation}
  {msgs : List ProtobufAny} {selectVals : List String}

theorem unbondTimes_saveUnbondsTime (store : Storage) (a validator : String)
    (times : List Nat) (b v : String) :
    unbondTimes (store.saveUnbondsTime a validator times) b v =
      if (b, v) = (a, validator) then times else unbondTimes store b v := by
  simp only [unbondTimes, Storage.saveUnbondsTime_validatorsUnbondsTime,
    Map.save_apply]
  split <;> rfl

/-- A visit lets the window of the validator expire and tells whether it is
full. -/
theorem clearTimestamps_times
    (h : clearTimestamps store currentTime period delegator validator =
      .ok (next, full)) :
    (∀ b v, unbondTimes next b v =
      if (b, v) = (delegator, validator) then
        Window.expire currentTime period (unbondTimes store b v)
      else unbondTimes store b v) ∧
    (full = true ↔ 7 ≤ (unbondTimes next delegator validator).length) := by
  have hsame : ∀ times, unbondTimes store delegator validator = times →
      Window.expire currentTime period times = times → ∀ b v,
        unbondTimes store b v = if (b, v) = (delegator, validator) then
          Window.expire currentTime period (unbondTimes store b v)
        else unbondTimes store b v := by
    intro times htimes hexpire b v
    split
    · rename_i hkey
      obtain ⟨rfl, rfl⟩ := Prod.mk.inj hkey
      rw [htimes, hexpire]
    · rfl
  unfold clearTimestamps at h
  split at h
  · rename_i hnone
    have htimes : unbondTimes store delegator validator = [] := by
      simp [unbondTimes, hnone]
    cases h
    exact ⟨hsame [] htimes rfl, by simp [htimes]⟩
  · rename_i hnil
    have htimes : unbondTimes store delegator validator = [] := by
      simp [unbondTimes, hnil]
    cases h
    exact ⟨hsame [] htimes rfl, by simp [htimes]⟩
  · rename_i oldest later hsome
    have htimes : unbondTimes store delegator validator = oldest :: later := by
      simp [unbondTimes, hsome]
    simp only [bind_eq_ok, addBelow_eq_ok] at h
    obtain ⟨_, ⟨-, rfl⟩, h⟩ := h
    split at h
    · rename_i hmatured
      cases h
      refine ⟨fun b v => ?_, ?_⟩
      · rw [unbondTimes_saveUnbondsTime]
        split
        · rename_i hkey
          obtain ⟨rfl, rfl⟩ := Prod.mk.inj hkey
          rw [htimes, Window.expire, if_pos hmatured]
        · rfl
      · simp [unbondTimes_saveUnbondsTime]
    · rename_i hlive
      cases h
      refine ⟨hsame _ htimes ?_, by simp [htimes]⟩
      rw [Window.expire, if_neg hlive]

theorem clearTimestamps_sublist
    (h : clearTimestamps store currentTime period delegator validator =
      .ok (next, full)) (b v : String) :
    (unbondTimes next b v).Sublist (unbondTimes store b v) := by
  rw [(clearTimestamps_times h).1]
  split
  · exact Window.expire_sublist currentTime period _
  · exact List.Sublist.refl _

/-! ### What the loop does -/

/-- The loop visits the first delegations; it chooses or skips each of them and
goes on to the end unless nothing remains. -/
theorem StakeManager.Allocates.visits
    (h : Allocates currentTime period store remaining infos delegations next
      left result) :
    ∃ visited rest chosen, delegations = visited ++ rest ∧
      (rest ≠ [] → left = 0) ∧ result = infos ++ chosen ∧
      (visited.map (·.validator)).Perm (chosen.map (·.validator) ++
        skippedLoop currentTime period store remaining delegations) := by
  induction h with
  | nil =>
      exact ⟨[], [], [], rfl, fun hne => absurd rfl hne,
        (List.append_nil _).symm, List.Perm.refl _⟩
  | @enough _ _ delegation rest =>
      rw [skippedLoop, if_pos rfl]
      exact ⟨[], delegation :: rest, [], rfl, fun _ => rfl,
        (List.append_nil _).symm, List.Perm.refl _⟩
  | @skip _ _ _ _ _ _ _ delegation _ hmore hclear hrest ih =>
      obtain ⟨visited, after, chosen, hvisited, hleft, hresult, hperm⟩ := ih
      rw [skippedLoop, if_neg hmore, hclear]
      refine ⟨delegation :: visited, after, chosen, by rw [hvisited]; rfl,
        hleft, hresult, ?_⟩
      exact (hperm.cons _).trans List.perm_middle.symm
  | @choose _ _ _ _ _ _ _ delegation _ hmore hclear hrest ih =>
      obtain ⟨visited, after, chosen, hvisited, hleft, hresult, hperm⟩ := ih
      rw [List.append_assoc] at hresult
      rw [skippedLoop, if_neg hmore, hclear]
      simp only [Bool.false_eq_true, if_false, drawn_eq_min]
      refine ⟨delegation :: visited, after, _, by rw [hvisited]; rfl, hleft,
        hresult, ?_⟩
      exact hperm.cons _

theorem StakeManager.Allocates.sublist
    (h : Allocates currentTime period store remaining infos delegations next
      left result) (b v : String) :
    (unbondTimes next b v).Sublist (unbondTimes store b v) := by
  induction h with
  | nil => exact List.Sublist.refl _
  | enough => exact List.Sublist.refl _
  | skip hmore hclear hrest ih =>
      exact ih.trans (clearTimestamps_sublist hclear b v)
  | choose hmore hclear hrest ih =>
      exact ih.trans (clearTimestamps_sublist hclear b v)

theorem clearTimestamps_elsewhere (hother : delegator ≠ b)
    (h : clearTimestamps store currentTime period delegator validator =
      .ok (next, full)) (v : String) :
    unbondTimes next b v = unbondTimes store b v := by
  have hne : (b, v) ≠ (delegator, validator) :=
    fun hkey => hother (Prod.mk.inj hkey).1.symm
  have htimes := (clearTimestamps_times h).1 b v
  rwa [if_neg hne] at htimes

/-- The times of other accounts are left alone. -/
theorem StakeManager.Allocates.elsewhere
    (h : Allocates currentTime period store remaining infos delegations next
      left result)
    (hother : ∀ d ∈ delegations, d.delegator ≠ b) (v : String) :
    unbondTimes next b v = unbondTimes store b v := by
  induction h with
  | nil => rfl
  | enough => rfl
  | skip hmore hclear hrest ih =>
      rw [List.forall_mem_cons] at hother
      exact (ih hother.2).trans (clearTimestamps_elsewhere hother.1 hclear v)
  | choose hmore hclear hrest ih =>
      rw [List.forall_mem_cons] at hother
      exact (ih hother.2).trans (clearTimestamps_elsewhere hother.1 hclear v)

/-- A validator that is chosen has a free entry. -/
theorem StakeManager.Allocates.free
    (h : Allocates currentTime period store remaining infos delegations next
      left result)
    (hown : ∀ d ∈ delegations, d.delegator = a)
    (hfree : ∀ info ∈ infos, (unbondTimes store a info.validator).length < 7) :
    ∀ info ∈ result, (unbondTimes next a info.validator).length < 7 := by
  have hkept : ∀ {store middle : Storage} {delegator validator : String}
      {full : Bool} {infos : List ValidatorUnbondInfo},
      clearTimestamps store currentTime period delegator validator =
        .ok (middle, full) →
      (∀ info ∈ infos, (unbondTimes store a info.validator).length < 7) →
      ∀ info ∈ infos, (unbondTimes middle a info.validator).length < 7 := by
    intro store middle delegator validator full infos hclear hfree info hinfo
    have hsub := clearTimestamps_sublist hclear a info.validator
    exact hsub.length_le.trans_lt (hfree info hinfo)
  induction h with
  | nil => exact hfree
  | enough => exact hfree
  | skip hmore hclear hrest ih =>
      rw [List.forall_mem_cons] at hown
      exact ih hown.2 (hkept hclear hfree)
  | choose hmore hclear hrest ih =>
      rw [List.forall_mem_cons] at hown
      apply ih hown.2
      intro info hinfo
      rcases List.mem_append.mp hinfo with hold | hnew
      · exact hkept hclear hfree info hold
      · obtain rfl := List.mem_singleton.mp hnew
        have hroom := (clearTimestamps_times hclear).2.not.mp (by decide)
        rw [hown.1] at hroom
        exact Nat.not_le.mp hroom

/-- A validator is only passed over when seven of the acknowledged times are
recent. -/
theorem recent_of_skipped {clock : Nat} {history : String → List Nat}
    (hown : ∀ d ∈ delegations, d.delegator = a)
    (hvalid : ∀ v, Window.Valid 7 clock (unbondTimes store a v))
    (hhistory : ∀ v, (unbondTimes store a v).Sublist (history v))
    (hv : v ∈ skippedLoop currentTime period store remaining delegations) :
    7 ≤ (history v).countP fun t => decide (currentTime ≤ t + period) := by
  induction delegations generalizing store remaining with
  | nil => cases hv
  | cons delegation rest ih =>
      rw [List.forall_mem_cons] at hown
      rw [skippedLoop] at hv
      split at hv
      · cases hv
      · split at hv
        · cases hv
        · rename_i next full hclear
          have hnext : ∀ v, Window.Valid 7 clock (unbondTimes next a v) :=
            fun v => (hvalid v).sublist (clearTimestamps_sublist hclear a v)
          have hsub : ∀ v, (unbondTimes next a v).Sublist (history v) :=
            fun v => (clearTimestamps_sublist hclear a v).trans (hhistory v)
          split at hv
          · rename_i hfull
            rcases List.mem_cons.mp hv with rfl | hlater
            · obtain ⟨htimes, hlength⟩ := clearTimestamps_times hclear
              have hseven := hlength.mp hfull
              rw [htimes, if_pos rfl, hown.1] at hseven
              exact (hvalid _).recent_history (by decide) hseven (hhistory _)
            · exact ih hown.2 hnext hsub hlater
          · exact ih hown.2 hnext hsub hv

/-! ### What a bond step asks for -/

/-- What the host reports about the delegations of `a`: they are its own, one
for each validator, and the addresses of validators contain no `_`. -/
structure HostReport (a : String) (delegations : List Delegation) : Prop where
  own : ∀ d ∈ delegations, d.delegator = a
  once : (delegations.map (·.validator)).Nodup
  plain : ∀ d ∈ delegations, '_' ∉ d.validator.toList

instance (a : String) (delegations : List Delegation) :
    Decidable (HostReport a delegations) :=
  decidable_of_iff ((∀ d ∈ delegations, d.delegator = a) ∧
      (delegations.map (·.validator)).Nodup ∧
      ∀ d ∈ delegations, '_' ∉ d.validator.toList)
    ⟨fun h => ⟨h.1, h.2.1, h.2.2⟩, fun h => ⟨h.own, h.once, h.plain⟩⟩

/-- The text of a bond packet and the free entries for its undelegations. -/
structure HasRoom (a : String) (store : Storage) (ops : List String)
    (text : String) : Prop where
  joined : text = Text.join '_' ops
  once : ops.Nodup
  plain : ∀ v ∈ ops, '_' ∉ v.toList
  free : ∀ v ∈ ops, (unbondTimes store a v).length < 7

theorem hasRoom_nil (a : String) (store : Storage) : HasRoom a store [] "" :=
  ⟨rfl, List.nodup_nil, nofun, nofun⟩

theorem HasRoom.of_sublist {ops : List String} (h : HasRoom a store ops text)
    (hsub : ∀ v, (unbondTimes store' a v).Sublist (unbondTimes store a v)) :
    HasRoom a store' ops text :=
  ⟨h.joined, h.once, h.plain,
    fun v hv => (hsub v).length_le.trans_lt (h.free v hv)⟩

theorem undelegated_append (a : String) (first second : List ProtobufAny) :
    undelegated a (first ++ second) =
      undelegated a first ++ undelegated a second :=
  List.filterMap_append

theorem undelegated_genUndelegateTxs (a denom : String)
    (infos : List ValidatorUnbondInfo) :
    undelegated a (infos.map fun unbond =>
      genUndelegateTxs a unbond.validator denom unbond.unbondAmount) =
        infos.map (·.validator) := by
  simp only [undelegated, List.filterMap_map, Function.comp_def,
    genUndelegateTxs, if_true]
  exact congrFun List.filterMap_eq_map' _

theorem undelegated_withdrawRewardTxs (a : String)
    (delegatingVals opValidators : List String) :
    undelegated a (withdrawRewardTxs a delegatingVals opValidators) = [] := by
  unfold withdrawRewardTxs
  split
  · simp [undelegated, List.filterMap_map, Function.comp_def,
      genWithdrawRewardTxs]
  · rfl

theorem undelegated_eraStakeMsgs
    (h : eraStakeMsgs a p selectVals = .ok msgs) : undelegated a msgs = [] := by
  unfold eraStakeMsgs at h
  cases selectVals with
  | nil => cases h
  | cons first rest =>
      simp only [bind_eq_ok] at h
      obtain ⟨_, -, h⟩ := h
      split at h
      · cases h
        simp [undelegated, List.filterMap_map, Function.comp_def,
          genDelegationTxs, genWithdrawRewardTxs]
      · cases h
        simp [undelegated, splitDelegations, List.filterMap_map,
          genDelegationTxs]

theorem slots_of_unbonds (hreport : HostReport a delegations)
    (h : Unbonds store env p delegations amount next infos) :
    (∀ v, (unbondTimes next a v).Sublist (unbondTimes store a v)) ∧
      HasRoom a next (infos.map (·.validator))
        (Text.join '_' (infos.map (·.validator))) := by
  cases h with
  | nothing hzero => exact ⟨fun _ => List.Sublist.refl _, hasRoom_nil a store⟩
  | allocated hpos hne halloc =>
      have hloop := allocateUnbondAmount_ok halloc
      have hperm := List.perm_insertionSort
        (fun a b : Delegation => b.amount.amount ≤ a.amount.amount) delegations
      obtain ⟨visited, rest, chosen, hsorted, -, hchosen, hvisited⟩ :=
        hloop.visits
      rw [List.nil_append] at hchosen
      subst hchosen
      have hown : ∀ d ∈ delegations.insertionSort fun a b =>
          b.amount.amount ≤ a.amount.amount, d.delegator = a :=
        fun d hd => hreport.own d (hperm.mem_iff.mp hd)
      have honce := (hperm.map (·.validator)).nodup_iff.mpr hreport.once
      rw [hsorted, List.map_append] at honce
      have hnodup := hvisited.nodup_iff.mp honce.of_append_left
      refine ⟨hloop.sublist a, rfl,
        hnodup.of_append_left, fun v hv => ?_, fun v hv => ?_⟩
      · have hmem := hvisited.mem_iff.mpr (List.mem_append_left _ hv)
        obtain ⟨d, hd, rfl⟩ := List.mem_map.mp hmem
        refine hreport.plain d (hperm.mem_iff.mp ?_)
        rw [hsorted]
        exact List.mem_append_left _ hd
      · obtain ⟨info, hinfo, rfl⟩ := List.mem_map.mp hv
        exact hloop.free hown nofun info hinfo

/-- A bond step leaves a free entry for everything it undelegates. -/
theorem eraBondMsgs_slots
    (hreport : ∀ queried, queryDelegationByAddr store querier a
      p.sdkGreaterOrEqualV047 = .ok queried → HostReport a queried.result)
    (h : eraBondMsgs store querier env a p selectVals =
      .ok (next, msgs, text)) :
    (∀ v, (unbondTimes next a v).Sublist (unbondTimes store a v)) ∧
      HasRoom a next (undelegated a msgs) text := by
  cases bondMsgs_of_ok h with
  | unbond hless hquery hfresh hunbonds =>
      rw [undelegated_append, undelegated_genUndelegateTxs,
        undelegated_withdrawRewardTxs, List.append_nil]
      exact slots_of_unbonds (hreport _ hquery) hunbonds
  | stake hmore hstake =>
      rw [undelegated_eraStakeMsgs hstake]
      exact ⟨fun _ => List.Sublist.refl _, hasRoom_nil a _⟩

/-- A bond step of another pool leaves the times alone. -/
theorem eraBondMsgs_elsewhere (hne : b ≠ a)
    (hreport : ∀ queried, queryDelegationByAddr store querier b
      p.sdkGreaterOrEqualV047 = .ok queried → HostReport b queried.result)
    (h : eraBondMsgs store querier env b p selectVals =
      .ok (next, msgs, text)) (v : String) :
    unbondTimes next a v = unbondTimes store a v := by
  cases bondMsgs_of_ok h with
  | unbond hless hquery hfresh hunbonds =>
      cases hunbonds with
      | nothing hzero => rfl
      | allocated hpos hne' halloc =>
          refine (allocateUnbondAmount_ok halloc).elsewhere (fun d hd => ?_) v
          have hmem := (List.perm_insertionSort _ _).mem_iff.mp hd
          exact (hreport _ hquery).own d hmem ▸ hne
  | stake hmore hstake => rfl

/-! ### What the callback notes -/

theorem unbondTimes_recordUnbonds (a : String) (timestamp : Nat)
    (store : Storage) (validators : List String) (b v : String) :
    unbondTimes (recordUnbonds a timestamp store validators) b v =
      unbondTimes store b v ++
        List.replicate (if b = a then validators.count v else 0) timestamp := by
  induction validators generalizing store with
  | nil => simp [recordUnbonds]
  | cons first rest ih =>
      have hfold : recordUnbonds a timestamp store (first :: rest) =
          recordUnbonds a timestamp (store.saveUnbondsTime a first
            (unbondTimes store a first ++ [timestamp])) rest := rfl
      rw [hfold, ih, unbondTimes_saveUnbondsTime]
      by_cases hb : b = a
      · subst hb
        by_cases hv : v = first
        · subst hv
          simp [List.count_cons_self, List.replicate_succ]
        · simp [hv, List.count_cons_of_ne (Ne.symm hv)]
      · simp [hb]

/-- The callback of a bond packet notes the time once for everything that was
undelegated, unless its text is empty. -/
theorem noted_times {ops : List String} (h : HasRoom a store ops text)
    (timestamp : Nat) (v : String) :
    unbondTimes (if text ≠ "" then
        recordUnbonds a timestamp store (Text.split '_' text)
      else store) a v = unbondTimes store a v ∨
    v ∈ ops ∧ unbondTimes (if text ≠ "" then
        recordUnbonds a timestamp store (Text.split '_' text)
      else store) a v = unbondTimes store a v ++ [timestamp] := by
  by_cases hempty : text = ""
  · simp [hempty]
  · have hne : ops ≠ [] := by
      rintro rfl
      exact hempty h.joined
    have hsplit : Text.split '_' text = ops := by
      rw [h.joined]
      exact Text.split_join hne h.plain
    rw [if_pos hempty, hsplit, unbondTimes_recordUnbonds, if_pos rfl]
    by_cases hv : v ∈ ops
    · right
      rw [List.count_eq_one_of_mem h.once hv]
      exact ⟨hv, rfl⟩
    · left
      rw [List.count_eq_zero_of_not_mem hv, List.replicate_zero,
        List.append_nil]

theorem sudoEraBondCallback_times {payload : SudoPayload} {rsp : Response}
    (h : sudoEraBondCallback store env payload = .ok (store', rsp)) :
    store'.validatorsUnbondsTime = (if payload.message ≠ "" then
      recordUnbonds payload.poolAddr env.block.seconds store
        (Text.split '_' payload.message)
      else store).validatorsUnbondsTime := by
  simp only [sudoEraBondCallback, bind_eq_ok, orError_eq_ok, subExact_eq_ok,
    pure_eq_ok, Prod.mk.injEq] at h
  obtain ⟨p, -, _, -, _, -, rfl, -⟩ := h
  rfl

end

/-! ### The moves of the chain -/

namespace World

variable {net : Network} {w w' : World} {ev : Event} {a : String}

/-- What an event does to the times of the undelegations and to the packets
of bond steps. -/
inductive UnbondMove (net : Network) (w : World) (ev : Event) (w' : World) :
    Prop
  | bonded {querier info b selectVals id p next msgs packet payload}
      (haction : ev.action = .execute querier info (.eraBond b selectVals) id)
      (hp : w.store.pools b = some p)
      (hmsgs : eraBondMsgs w.store querier ⟨ev.block, net.self⟩ b p
        selectVals = .ok (next, msgs, payload.message))
      (htimes : w'.store.validatorsUnbondsTime = next.validatorsUnbondsTime)
      (hpending : w'.pending = w.pending.save id packet)
      (hpayload : packet.payload = some payload) (hpool : payload.poolAddr = b)
      (htype : payload.txType = .eraBond) (hsent : hostMsgs packet.msg = msgs) :
      UnbondMove net w ev w'
  | noted {id querier bankAccepts packet payload}
      (haction : ev.action = .answer id .success querier bankAccepts)
      (hpacket : w.pending id = some packet)
      (hpayload : packet.payload = some payload)
      (htype : payload.txType = .eraBond)
      (htimes : w'.store.validatorsUnbondsTime =
        (if payload.message ≠ "" then
          recordUnbonds payload.poolAddr ev.block.seconds (w.afterTake id)
            (Text.split '_' payload.message)
        else w.afterTake id).validatorsUnbondsTime)
      (hpending : w'.pending = w.pending.remove id) : UnbondMove net w ev w'
  | kept
      (htimes : w'.store.validatorsUnbondsTime =
        w.store.validatorsUnbondsTime)
      (hpackets : ∀ id packet payload, w'.pending id = some packet →
        packet.payload = some payload → payload.txType = .eraBond →
          w.pending id = some packet) : UnbondMove net w ev w'

theorem unbondMove_of_execute (hs : Sound net w)
    (hstep : w.step net ev = some w') {querier : Querier} {info : MessageInfo}
    {msg : ExecuteMsg} {id : PacketId}
    (haction : ev.action = .execute querier info msg id) :
    UnbondMove net w ev w' := by
  obtain ⟨store, rsp, sent, hexec⟩ := executed_of_step hs hstep haction
  have htimes := hexec.records.validatorsUnbondsTime
  by_cases hbond : ∃ b selectVals, msg = .eraBond b selectVals
  · obtain ⟨b, selectVals, rfl⟩ := hbond
    obtain ⟨p, next, msgs, tx, payload, hp, -, hmsgs, hsent, hpool, htype,
      hstore, hrsp⟩ := executeEraBond_ok hexec.call
    have hpackets : packets rsp.messages = (some (⟨.submitTx tx,
        some next.replyId, some payload⟩ : SubMsg)).toList := by
      rw [hrsp]
      rfl
    have hsends := hexec.sends
    rw [hexec.sent_eq hpackets] at hsends
    refine .bonded haction hp hmsgs ?_ hsends.2.2 rfl hpool htype hsent
    rw [htimes, hstore]
    rfl
  · refine .kept ?_ ?_
    · rw [htimes]
      refine (execute_ledgers hexec.call).times fun b selectVals hmsg => ?_
      exact hbond ⟨b, selectVals, hmsg⟩
    · intro other packet payload hpacket hpayload htype
      have hsends := hexec.sends
      cases sent with
      | none =>
          rw [hsends.1] at hpacket
          exact hpacket
      | some sub =>
          rw [hsends.2.2, Map.save_apply] at hpacket
          split at hpacket
          · obtain rfl := Option.some.inj hpacket
            obtain ⟨p, hp⟩ := hexec.outcome.homed sub rfl payload hpayload
            obtain ⟨_, -, hexecuted⟩ := hexec.outcome.step _ p hp
            have hcall := (hexecuted.sends ⟨payload, hpayload, rfl, htype⟩).1
            cases msg <;> cases hcall
            exact absurd ⟨_, _, rfl⟩ hbond
          · exact hpacket

theorem unbondMove_of_step (hs : Sound net w)
    (hstep : w.step net ev = some w') : UnbondMove net w ev w' := by
  have hidle : (∀ querier info msg id,
      ev.action ≠ .execute querier info msg id) →
      (∀ id answer querier bankAccepts,
        ev.action ≠ .answer id answer querier bankAccepts) →
      UnbondMove net w ev w' := by
    intro hexecute hanswer
    refine .kept ?_ ?_
    · cases store_move hs hstep with
      | called haction => exact absurd haction (hexecute _ _ _ _)
      | answered haction => exact absurd haction (hanswer _ _ _ _)
      | other hsame => exact hsame.times
    · cases traffic_of_step hs hstep with
      | quiet _ hpending =>
          rw [hpending]
          exact fun _ _ _ h _ _ => h
      | sent haction => exact absurd haction (hexecute _ _ _ _)
      | answered haction => exact absurd haction (hanswer _ _ _ _)
  cases haction : ev.action with
  | execute querier info msg id =>
      exact unbondMove_of_execute hs hstep haction
  | answer id answer querier bankAccepts =>
      obtain ⟨packet, hpacket, hhandled⟩ := handled_of_step hs hstep haction
      have hsub : w'.pending = w.pending.remove id →
          ∀ other packet payload, w'.pending other = some packet →
            packet.payload = some payload → payload.txType = .eraBond →
              w.pending other = some packet := by
        intro hpending other packet payload hother _ _
        rw [hpending, Map.remove_apply] at hother
        split at hother
        · cases hother
        · exact hother
      cases hhandled with
      | handled hpayload hcall houtcome hdelivered =>
          rename_i payload store rsp
          have hquiet := deliverAll_quiet houtcome.packets hdelivered
          have htimes := hquiet.store.validatorsUnbondsTime
          by_cases hbond : payload.txType = .eraBond ∧ answer = .success
          · obtain ⟨htype, rfl⟩ := hbond
            simp only [callback, sudoCallback, htype] at hcall
            exact .noted haction hpacket hpayload htype
              (htimes.trans (sudoEraBondCallback_times hcall)) hquiet.pending
          · have hcallback := callback_times hcall
              fun htype hsuccess => hbond ⟨htype, hsuccess⟩
            exact .kept (htimes.trans hcallback) (hsub hquiet.pending)
      | vain hvain hsame =>
          subst hsame
          exact .kept rfl (hsub rfl)
  | openAck icaId channelId counterpartyChannelId hostConnectionId =>
      exact hidle (by simp [haction]) (by simp [haction])
  | kvQueryResult queryId querier =>
      exact hidle (by simp [haction]) (by simp [haction])
  | token addrValidate address sender msg =>
      exact hidle (by simp [haction]) (by simp [haction])

/-! ### The acknowledged undelegations -/

/-- The undelegations of account `a` that were acknowledged, with the time. -/
def keepAcks (a : String) (acks : List (String × Nat)) (w : World)
    (ev : Event) (_ : World) : List (String × Nat) :=
  match ev.action with
  | .answer id .success _ _ =>
      match w.pending id with
      | some packet => acks ++ (undelegated a (hostMsgs packet.msg)).map
          (·, ev.block.seconds)
      | none => acks
  | _ => acks

/-- The times of the acknowledged undelegations from a validator. -/
def ackTimes (acks : List (String × Nat)) (validator : String) : List Nat :=
  acks.filterMap fun ack => if ack.1 = validator then some ack.2 else none

def isBond (txType : TxType) : Bool := decide (txType = .eraBond)

/-- At most one bond packet of pool `a` is unanswered. -/
def OneBond (a : String) (w : World) : Prop :=
  ∀ id ∈ w.used, ∀ id' ∈ w.used,
    (w.waiting isBond a id).isSome → (w.waiting isBond a id').isSome →
      id = id'

instance (a : String) (w : World) : Decidable (OneBond a w) :=
  inferInstanceAs (Decidable (∀ id ∈ w.used, ∀ id' ∈ w.used, _ → _ → id = id'))

/-- The delegations that a bond step reads are those of its pool. -/
def HostReports (w : World) (ev : Event) : Prop :=
  match ev.action with
  | .execute querier _ (.eraBond b _) _ => ∀ p ∈ w.store.pools b,
      ∀ queried ∈ (queryDelegationByAddr w.store querier b
        p.sdkGreaterOrEqualV047).toOption, HostReport b queried.result
  | _ => True

instance (w : World) (ev : Event) : Decidable (HostReports w ev) := by
  unfold HostReports
  split <;> infer_instance

/-- The times kept for pool `a` are sorted and at most seven, and a validator
is only passed over when seven undelegations from it have been acknowledged
within the last unbonding period. -/
structure SlotsRespected (a : String) (w : World)
    (acks : List (String × Nat)) : Prop where
  sorted : ∀ v, ∀ times ∈ w.store.validatorsUnbondsTime (a, v),
    times.Pairwise (· ≤ ·)
  limit : ∀ v, ∀ times ∈ w.store.validatorsUnbondsTime (a, v),
    times.length ≤ 7
  skipped : ∀ p ∈ w.store.pools a, ∀ currentTime delegations amount,
    (∀ d ∈ delegations, d.delegator = a) →
      ∀ v ∈ skippedValidators w.store currentTime delegations amount
          (p.unbondingPeriod * p.eraSeconds),
        7 ≤ (ackTimes acks v).countP fun t =>
          decide (currentTime ≤ t + p.unbondingPeriod * p.eraSeconds)

/-- The invariant: the kept times are a window over the acknowledged ones, and
an unanswered bond packet has a free entry for everything it undelegates. -/
structure SlotsKept (net : Network) (a : String)
    (s : World × List (String × Nat)) : Prop where
  sound : Sound net s.1
  one : OneBond a s.1
  valid : ∀ v, Window.Valid 7 s.1.block.seconds (unbondTimes s.1.store a v)
  acked : ∀ v, (unbondTimes s.1.store a v).Sublist (ackTimes s.2 v)
  room : ∀ id packet payload, s.1.pending id = some packet →
    packet.payload = some payload → payload.txType = .eraBond →
      payload.poolAddr = a → HasRoom a s.1.store
        (undelegated a (hostMsgs packet.msg)) payload.message

theorem OneBond.eq (hs : Sound net w) (h : OneBond a w) {id id' : PacketId}
    (hid : w.Unanswered a .eraBond id) (hid' : w.Unanswered a .eraBond id') :
    id = id' := by
  have hwaits : ∀ other, w.Unanswered a .eraBond other → other ∈ w.used ∧
      (w.waiting isBond a other).isSome := by
    intro other hother
    have hsome := waiting_eq_some.mpr ⟨hother, (rfl : isBond _ = true)⟩
    obtain ⟨packet, _, hpacket, -⟩ := hother
    exact ⟨hs.usedPending other packet hpacket, by rw [hsome]; rfl⟩
  obtain ⟨hused, hsome⟩ := hwaits id hid
  obtain ⟨hused', hsome'⟩ := hwaits id' hid'
  exact h id hused id' hused' hsome hsome'

theorem ackTimes_append (first second : List (String × Nat)) (v : String) :
    ackTimes (first ++ second) v = ackTimes first v ++ ackTimes second v :=
  List.filterMap_append

theorem ackTimes_keepAcks (acks : List (String × Nat)) (v : String) :
    (ackTimes acks v).Sublist (ackTimes (keepAcks a acks w ev w') v) := by
  unfold keepAcks
  split
  · split
    · rw [ackTimes_append]
      exact List.sublist_append_left _ _
    · exact List.Sublist.refl _
  · exact List.Sublist.refl _

/-- A step that leaves the times of pool `a` alone and sends no bond packet of
it. -/
theorem SlotsKept.of_same {acks acks' : List (String × Nat)}
    (h : SlotsKept net a (w, acks)) (hs : Sound net w') (hone : OneBond a w')
    (hclock : w.block.seconds ≤ w'.block.seconds)
    (hacks : ∀ v, (ackTimes acks v).Sublist (ackTimes acks' v))
    (htimes : ∀ v, unbondTimes w'.store a v = unbondTimes w.store a v)
    (hpackets : ∀ id packet payload, w'.pending id = some packet →
      packet.payload = some payload → payload.txType = .eraBond →
        payload.poolAddr = a → w.pending id = some packet) :
    SlotsKept net a (w', acks') where
  sound := hs
  one := hone
  valid v := by
    rw [htimes]
    exact (h.valid v).mono hclock
  acked v := by
    rw [htimes]
    exact (h.acked v).trans (hacks v)
  room id packet payload hpacket hpayload htype hpool := by
    have hold := hpackets id packet payload hpacket hpayload htype hpool
    refine (h.room id packet payload hold hpayload htype hpool).of_sublist ?_
    exact fun v => (htimes v) ▸ List.Sublist.refl _

theorem bonded_slots {acks : List (String × Nat)} {querier : Querier}
    {info : MessageInfo} {selectVals : List String} {id : PacketId}
    {p : PoolInfo} {next : Storage} {packet : Packet} {payload : SudoPayload}
    (h : SlotsKept net a (w, acks)) (hs : Sound net w') (hone : OneBond a w')
    (hclock : w.block.seconds ≤ w'.block.seconds)
    (hreports : HostReports w ev)
    (haction : ev.action = .execute querier info (.eraBond a selectVals) id)
    (hp : w.store.pools a = some p)
    (hmsgs : eraBondMsgs w.store querier ⟨ev.block, net.self⟩ a p selectVals =
      .ok (next, hostMsgs packet.msg, payload.message))
    (htimes : w'.store.validatorsUnbondsTime = next.validatorsUnbondsTime)
    (hpending : w'.pending = w.pending.save id packet)
    (hpayload : packet.payload = some payload) (hpool : payload.poolAddr = a)
    (htype : payload.txType = .eraBond) : SlotsKept net a (w', acks) := by
  have hreport : ∀ queried, queryDelegationByAddr w.store querier a
      p.sdkGreaterOrEqualV047 = .ok queried →
        HostReport a queried.result := by
    intro queried hquery
    simp only [HostReports, haction] at hreports
    exact hreports p hp queried (toOption_eq_some.mpr hquery)
  obtain ⟨hsub, hroom⟩ := eraBondMsgs_slots hreport hmsgs
  have hsame : ∀ v, unbondTimes w'.store a v = unbondTimes next a v :=
    fun v => by rw [unbondTimes, htimes, unbondTimes]
  refine ⟨hs, hone, fun v => ?_, fun v => ?_, ?_⟩
  · rw [hsame]
    exact ((h.valid v).sublist (hsub v)).mono hclock
  · rw [hsame]
    exact (hsub v).trans (h.acked v)
  · intro other packet' payload' hother hpayload' htype' hpool'
    have hid : w'.pending id = some packet := hpending ▸ Map.save_self
    -- the new packet is the only one
    obtain rfl : other = id := hone.eq hs
      ⟨packet', payload', hother, hpayload', hpool', htype'⟩
      ⟨packet, payload, hid, hpayload, hpool, htype⟩
    obtain rfl := Option.some.inj (hother.symm.trans hid)
    obtain rfl := Option.some.inj (hpayload'.symm.trans hpayload)
    exact hroom.of_sublist fun v => (hsame v) ▸ List.Sublist.refl _

theorem noted_slots {acks : List (String × Nat)} {querier : Querier}
    {bankAccepts : Bool} {id : PacketId} {packet : Packet}
    {payload : SudoPayload} (h : SlotsKept net a (w, acks)) (hs : Sound net w')
    (hone : OneBond a w') (hclock : w.block.seconds ≤ w'.block.seconds)
    (hblock : w'.block = ev.block)
    (haction : ev.action = .answer id .success querier bankAccepts)
    (hpacket : w.pending id = some packet)
    (hpayload : packet.payload = some payload) (hpool : payload.poolAddr = a)
    (htype : payload.txType = .eraBond)
    (htimes : w'.store.validatorsUnbondsTime =
      (if payload.message ≠ "" then
        recordUnbonds payload.poolAddr ev.block.seconds (w.afterTake id)
          (Text.split '_' payload.message)
      else w.afterTake id).validatorsUnbondsTime)
    (hpending : w'.pending = w.pending.remove id) :
    SlotsKept net a (w', keepAcks a acks w ev w') := by
  have hroom : HasRoom a (w.afterTake id)
      (undelegated a (hostMsgs packet.msg)) payload.message :=
    (h.room id packet payload hpacket hpayload htype hpool).of_sublist
      fun _ => List.Sublist.refl _
  have hacks : keepAcks a acks w ev w' = acks ++
      (undelegated a (hostMsgs packet.msg)).map (·, ev.block.seconds) := by
    simp only [keepAcks, haction, hpacket]
  subst hpool
  have hnoted : ∀ v, unbondTimes w'.store payload.poolAddr v =
      unbondTimes w.store payload.poolAddr v ∨
    v ∈ undelegated payload.poolAddr (hostMsgs packet.msg) ∧
      unbondTimes w'.store payload.poolAddr v =
        unbondTimes w.store payload.poolAddr v ++ [w'.block.seconds] := by
    intro v
    rw [unbondTimes, htimes, hblock]
    exact noted_times hroom ev.block.seconds v
  refine ⟨hs, hone, fun v => ?_, fun v => ?_, ?_⟩
  · have hvalid := (h.valid v).mono hclock
    rcases hnoted v with hsame | ⟨hv, hnew⟩
    · rw [hsame]
      exact hvalid
    · rw [hnew]
      exact hvalid.concat (hroom.free v hv)
  · rw [hacks, ackTimes_append]
    rcases hnoted v with hsame | ⟨hv, hnew⟩
    · rw [hsame]
      exact (h.acked v).trans (List.sublist_append_left _ _)
    · rw [hnew]
      refine (h.acked v).append (List.singleton_sublist.mpr ?_)
      rw [hblock, ackTimes, List.mem_filterMap]
      exact ⟨(v, ev.block.seconds), List.mem_map.mpr ⟨v, hv, rfl⟩, if_pos rfl⟩
  · -- the answered packet was the only one
    intro other packet' payload' hother hpayload' htype' hpool'
    rw [hpending, Map.remove_apply] at hother
    split at hother
    · cases hother
    · rename_i hne
      exact absurd (h.one.eq h.sound
        ⟨packet', payload', hother, hpayload', hpool', htype'⟩
        ⟨packet, payload, hpacket, hpayload, rfl, htype⟩) hne

/-- Every step keeps the window and the free entries. -/
theorem slotsKept_step {s s' : World × List (String × Nat)}
    (hinv : SlotsKept net a s)
    (hstep : Transition.track (step net) (keepAcks a) s ev = some s')
    (hreports : HostReports s.1 ev) (hone : OneBond a s'.1) :
    SlotsKept net a s' := by
  obtain ⟨w, acks⟩ := s
  obtain ⟨w', acks'⟩ := s'
  obtain ⟨hworld, rfl⟩ := Transition.track_eq_some.mp hstep
  have hs : Sound net w' := sound_step hinv.sound hworld
  have hblock := block_of_step hworld
  have hclock : w.block.seconds ≤ w'.block.seconds := by
    rw [hblock]
    exact Nat.div_le_div_right (step_eq_some hworld).2.1
  have hacks : ∀ v, (ackTimes acks v).Sublist
      (ackTimes (keepAcks a acks w ev w') v) := ackTimes_keepAcks acks
  cases unbondMove_of_step hinv.sound hworld with
  | bonded haction hp hmsgs htimes hpending hpayload hpool htype hsent =>
      rename_i querier info b selectVals id p next msgs packet payload
      subst hsent
      by_cases hb : b = a
      · subst hb
        have hkept : keepAcks b acks w ev w' = acks := by
          simp only [keepAcks, haction]
        rw [hkept]
        exact bonded_slots hinv hs hone hclock hreports haction hp hmsgs htimes
          hpending hpayload hpool htype
      · refine hinv.of_same hs hone hclock hacks (fun v => ?_) ?_
        · rw [unbondTimes, htimes]
          simp only [HostReports, haction] at hreports
          refine eraBondMsgs_elsewhere hb (fun queried hquery => ?_) hmsgs v
          exact hreports p hp queried (toOption_eq_some.mpr hquery)
        · intro other packet' payload' hother hpayload' _ hpool'
          rw [hpending, Map.save_apply] at hother
          split at hother
          · obtain rfl := Option.some.inj hother
            obtain rfl := Option.some.inj (hpayload.symm.trans hpayload')
            exact absurd (hpool.symm.trans hpool') hb
          · exact hother
  | noted haction hpacket hpayload htype htimes hpending =>
      rename_i id querier bankAccepts packet payload
      by_cases hpool : payload.poolAddr = a
      · exact noted_slots hinv hs hone hclock hblock haction hpacket hpayload
          hpool htype htimes hpending
      · refine hinv.of_same hs hone hclock hacks (fun v => ?_) ?_
        · rw [unbondTimes, htimes]
          split
          · have hrecord := unbondTimes_recordUnbonds payload.poolAddr
              ev.block.seconds (w.afterTake id)
              (Text.split '_' payload.message) a v
            rw [if_neg (Ne.symm hpool), List.replicate_zero,
              List.append_nil] at hrecord
            exact hrecord
          · rfl
        · intro other packet' payload' hother _ _ _
          rw [hpending, Map.remove_apply] at hother
          split at hother
          · cases hother
          · exact hother
  | kept htimes hpackets =>
      refine hinv.of_same hs hone hclock hacks (fun v => ?_) ?_
      · rw [unbondTimes, htimes]
        rfl
      · exact fun id packet payload hpacket hpayload htype _ =>
          hpackets id packet payload hpacket hpayload htype

theorem SlotsKept.respected {s : World × List (String × Nat)}
    (h : SlotsKept net a s) : SlotsRespected a s.1 s.2 := by
  have htimes : ∀ v, ∀ times ∈ s.1.store.validatorsUnbondsTime (a, v),
      Window.Valid 7 s.1.block.seconds times := by
    intro v times hsome
    have hvalid := h.valid v
    rw [unbondTimes, hsome] at hvalid
    exact hvalid
  refine ⟨fun v times hsome => (htimes v times hsome).sorted,
    fun v times hsome => (htimes v times hsome).short, ?_⟩
  intro p _ currentTime delegations amount hown v hv
  refine recent_of_skipped (fun d hd => ?_) h.valid h.acked hv
  exact hown d ((List.perm_insertionSort _ _).mem_iff.mp hd)

/-- The unbonding entries of the host are respected in every run with one bond
packet at a time. -/
theorem slots_respected {net : Network} {a : String} {block : BlockInfo}
    {info : MessageInfo} {lsdTokenCodeId : Nat} {evs : List Event}
    (hdomain : Transition.AllSteps (Transition.track (step net) (keepAcks a))
      (fun s ev s' => HostReports s.1 ev ∧ OneBond a s'.1)
      (genesis block info lsdTokenCodeId, []) evs)
    {w : World} {acks : List (String × Nat)}
    (hrun : Transition.exec (Transition.track (step net) (keepAcks a))
      (genesis block info lsdTokenCodeId, []) evs = some (w, acks)) :
    SlotsRespected a w acks := by
  have hinv := Transition.AllSteps.invariant_last (SlotsKept net a)
    (fun _ _ _ hinv hstep hcond =>
      slotsKept_step hinv hstep hcond.1 hcond.2) ?_ hdomain hrun
  · exact hinv.respected
  · exact ⟨sound_genesis net block info lsdTokenCodeId,
      fun _ hid => (nomatch hid), fun _ => Window.valid_nil _ _,
      fun _ => List.Sublist.refl _, fun _ _ _ h => (nomatch h)⟩

end World

namespace Sample

/-- An unstake in the first era is undelegated from `val1` in the second. -/
def undelegation : List Event := setup ++ firstEra ++ [
  allowBurn 4 500,
  unstake 4 500,
  call 5 (querier 0 [] 0) (.eraUpdate pool) (packetId 0),
  call 6 (querier 6 [("val1", 1050)] 0) (.eraBond pool []) (packetId 6),
  ack 6 .success (packetId 6)]

end Sample

namespace World

theorem slots_respected_sample :
    ∃ w acks, Transition.exec
        (Transition.track (step Sample.net) (keepAcks Sample.pool))
        (Sample.genesis, []) Sample.undelegation = some (w, acks) ∧
      acks = [("val1", 518400)] ∧ SlotsRespected Sample.pool w acks := by
  have hacks : ((Transition.exec
      (Transition.track (step Sample.net) (keepAcks Sample.pool))
      (Sample.genesis, []) Sample.undelegation).any
        fun s => decide (s.2 = [("val1", 518400)])) = true := by
    decide +kernel
  obtain ⟨⟨w, acks⟩, hrun, htest⟩ := (Option.any_eq_true _ _).mp hacks
  exact ⟨w, acks, hrun, of_decide_eq_true htest,
    slots_respected (by decide +kernel) hrun⟩

end World

end NeutronContracts
