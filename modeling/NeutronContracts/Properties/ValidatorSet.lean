/-
The validators of a pool.  When pools start without duplicates and
replacements name addresses whose query keys can be built, every list keeps
between one and ten different validators that can be queried, and the queries
of a changed list can always be updated.
-/
import NeutronContracts.Chain.Queries
import NeutronContracts.Properties.ValidatorList

namespace NeutronContracts

open StakeManager Fallible Outstanding

/-- A list of different validators that can be queried, of an accepted
length. -/
structure WellFormed (valid : String → Bool) (validators : List String) :
    Prop where
  nonempty : validators ≠ []
  bounded : validators.length ≤ validaterLenLimit
  nodup : validators.Nodup
  valid : ∀ v ∈ validators, valid v = true

instance (valid : String → Bool) (validators : List String) :
    Decidable (WellFormed valid validators) :=
  decidable_of_iff (validators ≠ [] ∧
      validators.length ≤ validaterLenLimit ∧ validators.Nodup ∧
      ∀ v ∈ validators, valid v = true)
    ⟨fun ⟨h₁, h₂, h₃, h₄⟩ => ⟨h₁, h₂, h₃, h₄⟩,
      fun h => ⟨h.nonempty, h.bounded, h.nodup, h.valid⟩⟩

/-- What the handlers check of an edit before they accept it. -/
def Edit.Allowed (valid : String → Bool) (validators : List String) :
    Edit → Prop
  | .start started => started ≠ [] ∧ started.length ≤ validaterLenLimit ∧
      ∀ v ∈ started, valid v = true
  | .add validatorAddr => validators.length < validaterLenLimit ∧
      validatorAddr ∉ validators ∧ valid validatorAddr = true
  | .remove _ => 1 < validators.length
  | .replace oldValidator newValidator =>
      oldValidator ∈ validators ∧ newValidator ∉ validators

/-- What they do not check: that a pool starts without duplicates, and that a
replacement can be queried. -/
def Edit.Careful (valid : String → Bool) : Edit → Prop
  | .start started => started.Nodup
  | .replace _ newValidator => valid newValidator = true
  | _ => True

instance (valid : String → Bool) (edit : Edit) :
    Decidable (edit.Careful valid) :=
  match edit with
  | .start started => inferInstanceAs (Decidable started.Nodup)
  | .replace _ _ => inferInstanceAs (Decidable (_ = true))
  | .add _ => .isTrue trivial
  | .remove _ => .isTrue trivial

namespace WellFormed

variable {valid : String → Bool} {validators : List String}
  {oldValidator newValidator : String}

theorem add (h : WellFormed valid validators)
    (hlen : validators.length < validaterLenLimit)
    (hnew : newValidator ∉ validators) (hvalid : valid newValidator = true) :
    WellFormed valid (validators ++ [newValidator]) := by
  refine ⟨by simp, ?_, ?_, ?_⟩
  · rw [List.length_append]
    exact hlen
  · rw [List.nodup_append]
    refine ⟨h.nodup, List.nodup_singleton _, ?_⟩
    rintro v hv _ hmem rfl
    rw [List.mem_singleton] at hmem
    exact hnew (hmem ▸ hv)
  · rw [List.forall_mem_append]
    exact ⟨h.valid, by simpa using hvalid⟩

/-- A removal that leaves a validator. -/
theorem remove (h : WellFormed valid validators)
    (hother : ∃ v ∈ validators, v ≠ oldValidator) :
    WellFormed valid
      (validators.filter fun v => decide (v ≠ oldValidator)) := by
  obtain ⟨v, hv, hne⟩ := hother
  refine ⟨List.ne_nil_of_mem (a := v) ?_, ?_, h.nodup.filter _, ?_⟩
  · exact List.mem_filter.mpr ⟨hv, decide_eq_true hne⟩
  · exact Nat.le_trans (List.length_filter_le _ _) h.bounded
  · intro u hu
    exact h.valid u (List.mem_filter.mp hu).1

/-- A replacement takes the place of the validator that leaves. -/
theorem replace (h : WellFormed valid validators)
    (hold : oldValidator ∈ validators) (hnew : newValidator ∉ validators)
    (hvalid : valid newValidator = true) :
    WellFormed valid (replaced validators oldValidator newValidator) := by
  have hlt : (validators.filter fun v =>
      decide (v ≠ oldValidator)).length < validators.length := by
    apply List.length_filter_lt_length_iff_exists.mpr
    exact ⟨oldValidator, hold, by simp⟩
  refine ⟨by simp [replaced], ?_, ?_, ?_⟩
  · rw [replaced, List.length_append]
    exact Nat.le_trans hlt h.bounded
  · rw [replaced, List.nodup_append]
    refine ⟨h.nodup.filter _, List.nodup_singleton _, ?_⟩
    rintro v hv _ hmem rfl
    rw [List.mem_singleton] at hmem
    exact hnew (hmem ▸ (List.mem_filter.mp hv).1)
  · rw [replaced, List.forall_mem_append]
    exact ⟨fun v hv => h.valid v (List.mem_filter.mp hv).1,
      by simpa using hvalid⟩

/-- Of two different validators one stays. -/
theorem exists_other (h : WellFormed valid validators)
    (hlen : 1 < validators.length) (validatorAddr : String) :
    ∃ v ∈ validators, v ≠ validatorAddr := by
  match validators, h.nodup, hlen with
  | first :: second :: rest, hnodup, _ =>
      by_cases hfirst : first = validatorAddr
      · refine ⟨second, by simp, ?_⟩
        rintro rfl
        rw [List.nodup_cons] at hnodup
        exact hnodup.1 (hfirst ▸ List.mem_cons_self)
      · exact ⟨first, List.mem_cons_self, hfirst⟩

end WellFormed

/-- An edit that is allowed and careful keeps a list well formed. -/
theorem Edit.wellFormed {valid : String → Bool} {validators : List String}
    {edit : Edit} (hallowed : edit.Allowed valid validators)
    (hcareful : edit.Careful valid)
    (h : (∃ started, edit = .start started) ∨ WellFormed valid validators) :
    WellFormed valid (edit.apply validators) := by
  cases edit with
  | start started => exact ⟨hallowed.1, hallowed.2.1, hcareful, hallowed.2.2⟩
  | add validatorAddr =>
      have hold := h.resolve_left (by simp)
      exact hold.add hallowed.1 hallowed.2.1 hallowed.2.2
  | remove validatorAddr =>
      have hold := h.resolve_left (by simp)
      exact hold.remove (hold.exists_other hallowed validatorAddr)
  | replace oldValidator newValidator =>
      have hold := h.resolve_left (by simp)
      exact hold.replace hallowed.1 hallowed.2 hcareful

section

variable {store store' : Storage} {querier : Querier} {env : Env}
  {info : MessageInfo} {msg : ExecuteMsg} {rsp : Response} {a : String}
  {p : PoolInfo} {edit : Edit}

/-- The keys of an added validator were built. -/
theorem executeAddPoolValidators_valid {validatorAddr : String}
    (h : executeAddPoolValidators store querier info a validatorAddr =
      .ok (store', rsp)) : querier.decodeAndConvert validatorAddr = true := by
  simp only [executeAddPoolValidators, bind_eq_ok, Prod.exists] at h
  obtain ⟨p, -, _, -, _, -, _, -, _, -, _, _, _, -, _, hdeal, -⟩ := h
  have hvalid := dealValidatorsIcqUpdate_valid hdeal
  rw [List.all_eq_true] at hvalid
  exact hvalid validatorAddr (by simp)

/-- What an accepted call has checked of its edit. -/
theorem edit_allowed
    (h : execute store querier env info msg = .ok (store', rsp))
    (hp : store.pools a = some p)
    (hedit : msg.edit store a p.status = some edit) :
    edit.Allowed querier.decodeAndConvert p.validatorAddrs := by
  unfold ExecuteMsg.edit at hedit
  split at hedit
  case isFalse => cases hedit
  case isTrue htarget =>
  have hstarted : ∀ withdrawAddr,
      msg.starting store = some (a, withdrawAddr) →
      (Edit.start msg.startValidators).Allowed querier.decodeAndConvert
        p.validatorAddrs := by
    intro withdrawAddr hstart
    obtain ⟨hstarted, hne, hlen⟩ := execute_started h hstart
    exact ⟨hne, hlen, List.all_eq_true.mp hstarted.valid⟩
  cases msg with
  | initPool param =>
      dsimp only at hedit
      split at hedit
      case isFalse => cases hedit
      case isTrue hstatus =>
          cases hedit
          obtain ⟨withdrawAddr, hstart⟩ :=
            starting_of_target htarget hp hstatus
          exact hstarted withdrawAddr hstart
  | migratePool param =>
      dsimp only at hedit
      split at hedit
      case isFalse => cases hedit
      case isTrue hstatus =>
          cases hedit
          obtain ⟨withdrawAddr, hstart⟩ :=
            starting_of_target htarget hp hstatus
          exact hstarted withdrawAddr hstart
  | poolAddValidator poolAddr validatorAddr =>
      cases hedit
      obtain rfl := Option.some.inj htarget
      obtain ⟨q, _, _, hq, -, hlen, hnew, -⟩ := executeAddPoolValidators_ok h
      obtain rfl := Option.some.inj (hp.symm.trans hq)
      exact ⟨hlen, hnew, executeAddPoolValidators_valid h⟩
  | poolRmValidator poolAddr validatorAddr =>
      cases hedit
      obtain rfl := Option.some.inj htarget
      obtain ⟨q, _, hq, -, -, -, hlen, -⟩ := executeRmPoolValidator_ok h
      obtain rfl := Option.some.inj (hp.symm.trans hq)
      exact hlen
  | poolUpdateValidator poolAddr oldValidator newValidator =>
      cases hedit
      obtain rfl := Option.some.inj htarget
      obtain ⟨q, _, _, hq, -, -, hold, hnew, -⟩ :=
        executePoolUpdateValidator_ok h
      obtain rfl := Option.some.inj (hp.symm.trans hq)
      exact ⟨hold, hnew⟩
  | _ => cases hedit

end

/-- Whether a replacement has a delegation to move. -/
def redelegates (store : Storage) (querier : Querier) (a : String)
    (p : PoolInfo) (oldValidator newValidator : String) : Bool :=
  match queryDelegationByAddr store querier a p.sdkGreaterOrEqualV047 with
  | .ok delegations => decide (redelegationsFrom a oldValidator newValidator
      p.remoteDenom delegations.result ≠ [])
  | .error _ => false

/-- A replacement that moves a delegation sends the names of its list, which
are without the separator. -/
def Edit.Separable (store : Storage) (querier : Querier) (a : String)
    (p : PoolInfo) : Edit → Prop
  | .replace oldValidator newValidator =>
      redelegates store querier a p oldValidator newValidator = true →
        ∀ v ∈ replaced p.validatorAddrs oldValidator newValidator,
          '_' ∉ v.toList
  | _ => True

instance (store : Storage) (querier : Querier) (a : String) (p : PoolInfo)
    (edit : Edit) : Decidable (edit.Separable store querier a p) :=
  match edit with
  | .replace _ _ => inferInstanceAs (Decidable (_ → ∀ _ ∈ _, _))
  | .start _ => .isTrue trivial
  | .add _ => .isTrue trivial
  | .remove _ => .isTrue trivial

namespace World

/-- The library builds keys for the valid addresses. -/
def Decodes (valid : String → Bool) (ev : Event) : Prop :=
  match ev.action with
  | .execute querier _ _ _ => querier.decodeAndConvert = valid
  | _ => True

/-- The edits of pool `a` are careful, and the lists they send separable. -/
def CarefulEdits (valid : String → Bool) (a : String) (w : World)
    (ev : Event) : Prop :=
  match ev.action with
  | .execute querier _ msg _ =>
      ∀ p ∈ w.store.pools a, ∀ edit ∈ msg.edit w.store a p.status,
        edit.Careful valid ∧ edit.Separable w.store querier a p
  | _ => True

instance (valid : String → Bool) (a : String) (w : World) (ev : Event) :
    Decidable (CarefulEdits valid a w ev) :=
  match ev with
  | ⟨_, .execute _ _ _ _⟩ =>
      inferInstanceAs (Decidable (∀ _ ∈ _, ∀ _ ∈ _, _ ∧ _))
  | ⟨_, .answer _ _ _ _⟩ => .isTrue trivial
  | ⟨_, .openAck _ _ _ _⟩ => .isTrue trivial
  | ⟨_, .kvQueryResult _ _⟩ => .isTrue trivial
  | ⟨_, .token _ _ _ _⟩ => .isTrue trivial

/-- The administrator can have the queries updated, which ends the change. -/
def CanWatch (net : Network) (valid : String → Bool) (a : String) (w : World)
    (p : PoolInfo) : Prop :=
  ∀ block querier info id, w.block.height ≤ block.height →
    w.block.time ≤ block.time → querier.decodeAndConvert = valid →
    info.sender = p.admin → isAccount info.sender = true →
    ∃ w' p', w.step net
        ⟨block, .execute querier info (.poolUpdateValidatorsIcq a) id⟩ =
          some w' ∧
      w'.store.pools a = some p' ∧ p'.validatorUpdateStatus = .ended

/-- A started pool has a well-formed list, and its queries can be updated
after a change. -/
def ValidatorSet (net : Network) (valid : String → Bool) (a : String)
    (w : World) : Prop :=
  ∀ p, w.store.pools a = some p → p.status ≠ .registerEnded →
    WellFormed valid p.validatorAddrs ∧
      (p.validatorUpdateStatus = .waitQueryUpdate → CanWatch net valid a w p)

variable {net : Network} {w w' : World} {ev : Event} {a : String}
  {p p' : PoolInfo} {valid : String → Bool}

/-- The list of a pool and the packets of its changes. -/
structure Formed (valid : String → Bool) (w : World) (a : String)
    (p : PoolInfo) : Prop where
  matched : Matched oneChange (fun _ => False)
    (w.waiting TxType.isValidator a) p.validatorUpdateStatus
  fresh : p.status = .registerEnded → Idle (w.waiting TxType.isValidator a)
  formed : p.status ≠ .registerEnded → WellFormed valid p.validatorAddrs
  removal : ∀ id packet payload, w.pending id = some packet →
    packet.payload = some payload → payload.poolAddr = a →
    payload.txType = .rmValidator →
      ∃ v ∈ p.validatorAddrs, v ≠ payload.message
  replacement : ∀ id packet payload, w.pending id = some packet →
    packet.payload = some payload → payload.poolAddr = a →
    payload.txType = .updateValidator →
      WellFormed valid (Text.split '_' payload.message)

namespace Formed

/-- While no change waits only the list matters. -/
theorem of_idle (hidle : Idle (w.waiting TxType.isValidator a))
    (hformed : p.status ≠ .registerEnded →
      WellFormed valid p.validatorAddrs) : Formed valid w a p := by
  refine ⟨matched_of_idle hidle not_false, fun _ => hidle, hformed, ?_, ?_⟩
  · intro id packet payload hpacket hpayload hpool htype
    have := not_validator_of_idle hidle hpacket hpayload hpool
    rw [htype] at this
    cases this
  · intro id packet payload hpacket hpayload hpool htype
    have := not_validator_of_idle hidle hpacket hpayload hpool
    rw [htype] at this
    cases this

theorem idle (h : Formed valid w a p)
    (hstatus : p.validatorUpdateStatus ≠ .start) :
    Idle (w.waiting TxType.isValidator a) :=
  h.matched.idle fun _ hmay => hstatus hmay

/-- A move that keeps the validators, their status and the packets of
changes. -/
theorem of_kept (h : Formed valid w a p)
    (hpackets : ∀ id packet payload, w'.pending id = some packet →
      packet.payload = some payload → payload.poolAddr = a →
      payload.txType.isValidator = true → w.pending id = some packet)
    (hwaiting : w'.waiting TxType.isValidator a =
      w.waiting TxType.isValidator a)
    (hlist : ∀ v ∈ p.validatorAddrs, v ∈ p'.validatorAddrs)
    (hupdate : p'.validatorUpdateStatus = p.validatorUpdateStatus)
    (hstatus : p'.status = .registerEnded → p.status = .registerEnded)
    (hformed : p'.status ≠ .registerEnded →
      WellFormed valid p'.validatorAddrs) : Formed valid w' a p' := by
  constructor
  · rw [hwaiting, hupdate]
    exact h.matched
  · rw [hwaiting]
    exact fun hregistered => h.fresh (hstatus hregistered)
  · exact hformed
  · intro id packet payload hpacket hpayload hpool htype
    obtain ⟨v, hv, hne⟩ := h.removal id packet payload (hpackets id packet
      payload hpacket hpayload hpool (by rw [htype]; rfl)) hpayload hpool htype
    exact ⟨v, hlist v hv, hne⟩
  · intro id packet payload hpacket hpayload hpool htype
    exact h.replacement id packet payload (hpackets id packet payload hpacket
      hpayload hpool (by rw [htype]; rfl)) hpayload hpool htype

/-- The request of a change sends the only packet of a change. -/
theorem of_sent {sub : SubMsg} {id : PacketId} {sender : String}
    {msg : ExecuteMsg} {kind : TxType} (hs : Sound net w)
    (hidle : Idle (w.waiting TxType.isValidator a))
    (hsends : Sends (some sub) id sender msg w w') (hcalls : Calls sub a kind)
    (hkind : kind.isValidator = true)
    (hupdate : p'.validatorUpdateStatus = .start)
    (hformed : WellFormed valid p'.validatorAddrs)
    (hlive : p'.status ≠ .registerEnded)
    (hremoval : kind = .rmValidator → ∃ v ∈ p'.validatorAddrs, v ≠ sub.text)
    (hreplacement : kind = .updateValidator →
      WellFormed valid (Text.split '_' sub.text)) : Formed valid w' a p' := by
  refine ⟨?_, fun h => absurd h hlive, fun _ => hformed, ?_, ?_⟩
  · rw [waiting_of_sends_calls hs hsends hcalls hkind]
    exact matched_sent hidle hupdate
  · intro other packet payload hpacket hpayload hpool htype
    obtain ⟨-, hsame, hmessage⟩ := only_sent hidle hsends hcalls hpacket
      hpayload hpool (by rw [htype]; rfl)
    rw [hmessage]
    exact hremoval (hsame.symm.trans htype)
  · intro other packet payload hpacket hpayload hpool htype
    obtain ⟨-, hsame, hmessage⟩ := only_sent hidle hsends hcalls hpacket
      hpayload hpool (by rw [htype]; rfl)
    rw [hmessage]
    exact hreplacement (hsame.symm.trans htype)

end Formed

/-- A replacement that sends a packet moves a delegation. -/
theorem redelegates_of_sent {store : Storage} {rsp : Response}
    {querier : Querier} {info : MessageInfo}
    {oldValidator newValidator : String}
    (h : executePoolUpdateValidator w.store querier info a oldValidator
      newValidator = .ok (store, rsp)) (hp : w.store.pools a = some p)
    (hmsgs : rsp.messages ≠ []) :
    redelegates w.store querier a p oldValidator newValidator = true := by
  obtain ⟨q, delegations, _, hq, -, -, -, -, hquery, rfl, ⟨-, -, rfl⟩ |
    ⟨hne, -⟩⟩ := executePoolUpdateValidator_ok h
  · exact absurd rfl hmsgs
  · obtain rfl := Option.some.inj (hp.symm.trans hq)
    simp [redelegates, hquery, hne]

/-- What an accepted call makes of the list. -/
theorem formed_of_exec {querier : Querier} {info : MessageInfo}
    {msg : ExecuteMsg} {id : PacketId} {sent : Option SubMsg}
    (hs : Sound net w) (hp : w.store.pools a = some p)
    (hF : Formed valid w a p) (hstepped : w.step net ev = some w')
    (haction : ev.action = .execute querier info msg id)
    (hdecodes : Decodes valid ev) (hcareful : CarefulEdits valid a w ev)
    (hstep : ValidatorStep w.store a p msg sent p')
    (hsends : Sends sent id info.sender msg w w')
    (hstatus : p'.status = .registerEnded → p.status = .registerEnded)
    (hlive : p'.status ≠ .registerEnded → p.status ≠ .registerEnded ∨
      ∃ started, msg.edit w.store a p.status = some (.start started)) :
    Formed valid w' a p' := by
  obtain ⟨store, rsp, _, hexec⟩ := executed_of_step hs hstepped haction
  have hcall := hexec.call
  obtain rfl : querier.decodeAndConvert = valid := by
    simpa only [Decodes, haction] using hdecodes
  have hedits : ∀ edit, msg.edit w.store a p.status = some edit →
      edit.Careful querier.decodeAndConvert ∧
        edit.Separable w.store querier a p := by
    intro edit hedit
    simp only [CarefulEdits, haction] at hcareful
    exact hcareful p hp edit hedit
  -- the list after an edit, and without one
  have happly : ∀ edit, msg.edit w.store a p.status = some edit →
      p'.status ≠ .registerEnded →
      WellFormed querier.decodeAndConvert (edit.apply p.validatorAddrs) := by
    intro edit hedit hlive'
    refine Edit.wellFormed (edit_allowed hcall hp hedit) (hedits edit hedit).1
      ((hlive hlive').symm.imp ?_ hF.formed)
    rintro ⟨started, hstart⟩
    exact ⟨started, Option.some.inj (hedit.symm.trans hstart)⟩
  have hsame : msg.edit w.store a p.status = none →
      p'.status ≠ .registerEnded →
      WellFormed querier.decodeAndConvert p.validatorAddrs := by
    intro hnone hlive'
    refine hF.formed ((hlive hlive').resolve_right ?_)
    rintro ⟨started, hstart⟩
    cases hnone.symm.trans hstart
  cases hstep with
  | plain hedit hlist hupdate hsent =>
      refine hF.of_kept ?_ (waiting_of_sends_other hs hsends hsent)
        (by simp [hlist]) hupdate hstatus (by rw [hlist]; exact hsame hedit)
      intro other packet payload hpacket hpayload hpool hkind
      rcases pending_of_sends hsends hpacket with hold | ⟨sub, hsub, -, rfl⟩
      · exact hold
      · exact absurd ⟨payload, hpayload, hpool, rfl⟩ (hsent sub hsub _ hkind)
  | watch hedit hmsg hbefore hlist hupdate =>
      have hidle := hF.idle (by rw [hbefore]; decide)
      refine .of_idle ?_ (by rw [hlist]; exact hsame hedit)
      rw [waiting_of_pending hsends.1]
      exact hidle
  | start hedit hregistered hcalls hlist hupdate =>
      have hidle := hF.fresh hregistered
      refine .of_idle ?_ (by rw [hlist]; exact happly _ hedit)
      rw [waiting_of_sends_other hs hsends (not_validator_of_calls hcalls rfl)]
      exact hidle
  | add hedit hlist hupdate =>
      refine hF.of_kept ?_ (waiting_of_pending hsends.1)
        (by simp +contextual [hlist]) hupdate hstatus
        (by rw [hlist]; exact happly _ hedit)
      intro other packet payload hpacket _ _ _
      rwa [hsends.1] at hpacket
  | done hedit hbefore hlist hupdate =>
      have hidle := hF.idle (by rw [hbefore]; decide)
      refine .of_idle ?_ (by rw [hlist]; exact happly _ hedit)
      rw [waiting_of_pending hsends.1]
      exact hidle
  | removal hedit hended hcalls htext hbefore hlist hupdate =>
      have hidle := hF.idle (by rw [hbefore]; decide)
      have hlive' : p'.status ≠ .registerEnded := by simp [hended]
      have hformed : WellFormed querier.decodeAndConvert p.validatorAddrs := by
        refine hF.formed ((hlive hlive').resolve_right ?_)
        rintro ⟨started, hstart⟩
        cases hedit.symm.trans hstart
      refine .of_sent hs hidle hsends hcalls rfl hupdate (hlist ▸ hformed)
        hlive' (fun _ => ?_) nofun
      rw [hlist, htext]
      exact hformed.exists_other (edit_allowed hcall hp hedit) _
  | replacement hedit hended hnew hcalls htext hbefore hlist hupdate =>
      have hidle := hF.idle (by rw [hbefore]; decide)
      have hlive' : p'.status ≠ .registerEnded := by simp [hended]
      have hformed := happly _ hedit hlive'
      refine .of_sent hs hidle hsends hcalls rfl hupdate (hlist ▸ hformed)
        hlive' nofun fun _ => ?_
      have hmessages : rsp.messages ≠ [] := by
        intro hnil
        have hdelivered := hexec.delivered
        rw [hnil] at hdelivered
        cases hdelivered
        exact absurd hsends.2.1.symm (List.cons_ne_self _ _)
      obtain rfl := edit_eq_replace hedit
      rw [htext, Text.split_join (by simp [replaced])
        ((hedits _ hedit).2 (redelegates_of_sent hcall hp hmessages))]
      exact hformed

/-- What an answer makes of the list. -/
theorem formed_of_answer {answer : Answer} {id : PacketId} {packet : Packet}
    {payload : SudoPayload} (hF : Formed valid w a p)
    (hpacket : w.pending id = some packet)
    (hpayload : packet.payload = some payload) (hpool : payload.poolAddr = a)
    (hstep : AnswerStep ev.block.height p payload answer p')
    (hpending : w'.pending = w.pending.remove id)
    (hstatus : p'.status = .registerEnded → p.status = .registerEnded)
    (hlive : p'.status ≠ .registerEnded → p.status ≠ .registerEnded) :
    Formed valid w' a p' := by
  -- an answer to another packet
  have hother : payload.txType.isValidator = false →
      p'.validatorAddrs = p.validatorAddrs →
      p'.validatorUpdateStatus = p.validatorUpdateStatus →
      Formed valid w' a p' := by
    intro hplain hlist hupdate
    exact hF.of_kept (fun _ _ _ h _ _ _ => pending_of_remove hpending h)
      (waiting_of_remove_other hpending
        (waiting_other hpacket hpayload hplain)) (by simp [hlist]) hupdate
      hstatus fun h => by rw [hlist]; exact hF.formed (hlive h)
  have hlast : payload.txType.isValidator = true →
      Idle (w'.waiting TxType.isValidator a) := by
    intro hvalidator
    rw [waiting_of_remove hpending]
    exact hF.matched.answered (waiting_eq_some.mpr
      ⟨⟨packet, payload, hpacket, hpayload, hpool, rfl⟩, hvalidator⟩)
  cases hstep with
  | era hera =>
      have hlist : p'.validatorAddrs = p.validatorAddrs := by
        cases hera <;> rfl
      have hupdate : p'.validatorUpdateStatus = p.validatorUpdateStatus := by
        cases hera <;> rfl
      refine hother ?_ hlist hupdate
      have hkind := EraAnswer.isStep hera
      cases htype : payload.txType <;> simp [htype, TxType.isStep,
        TxType.isEra, TxType.isInit, TxType.isValidator] at hkind ⊢
  | updateValidator htype =>
      exact .of_idle (hlast (by rw [htype]; rfl)) fun _ =>
        hF.replacement id packet payload hpacket hpayload hpool htype
  | rmValidator htype =>
      exact .of_idle (hlast (by rw [htype]; rfl)) fun h =>
        (hF.formed (hlive h)).remove
          (hF.removal id packet payload hpacket hpayload hpool htype)
  | validatorFailed htype hfailed =>
      have hvalidator : payload.txType.isValidator = true := by
        rcases htype with htype | htype <;> rw [htype] <;> rfl
      exact .of_idle (hlast hvalidator) fun h => hF.formed (hlive h)
  | userWithdraw htype => exact hother (by rw [htype]; rfl) rfl rfl
  | stakeLsm htype hcredit hrate => exact hother (by rw [htype]; rfl) rfl rfl
  | stakeLsmFailed htype hfailed => exact hother (by rw [htype]; rfl) rfl rfl
  | redeem htype => exact hother (by rw [htype]; rfl) rfl rfl
  | redeemFailed htype hfailed => exact hother (by rw [htype]; rfl) rfl rfl

/-- The start of a pool is an edit of its list. -/
theorem Start.edit (h : Start w ev a p p') {querier : Querier}
    {info : MessageInfo} {msg : ExecuteMsg} {id : PacketId}
    (haction : ev.action = .execute querier info msg id)
    (hstatus : p.status = .registerEnded) :
    ∃ started, msg.edit w.store a p.status = some (.start started) := by
  cases h with
  | init haction' htarget =>
      obtain ⟨-, -, rfl, -⟩ := Action.execute.inj (haction.symm.trans haction')
      exact ⟨_, (if_pos htarget).trans (if_pos hstatus)⟩
  | migrate haction' htarget =>
      obtain ⟨-, -, rfl, -⟩ := Action.execute.inj (haction.symm.trans haction')
      exact ⟨_, (if_pos htarget).trans (if_pos hstatus)⟩

theorem formed_of_move (hs : Sound net w) (hp : w.store.pools a = some p)
    (hF : Formed valid w a p) (hstepped : w.step net ev = some w')
    (hdecodes : Decodes valid ev) (hcareful : CarefulEdits valid a w ev)
    (hstart : p.status = .registerEnded → p'.status ≠ .registerEnded →
      Start w ev a p p')
    (hmove : PoolMove net w ev w' a p p') : Formed valid w' a p' := by
  have hstatus := hmove.registered
  have hlive : (∀ querier info msg id,
      ev.action ≠ .execute querier info msg id) →
      p'.status ≠ .registerEnded → p.status ≠ .registerEnded := by
    intro hother hlive' hregistered
    cases hstart hregistered hlive' with
    | init haction => exact absurd haction (hother _ _ _ _)
    | migrate haction => exact absurd haction (hother _ _ _ _)
  cases hmove with
  | executed haction hstep hsends =>
      refine formed_of_exec hs hp hF hstepped haction hdecodes hcareful
        (validatorStep_of_exec hstep) hsends hstatus fun hlive' => ?_
      by_cases hregistered : p.status = .registerEnded
      · exact .inr ((hstart hregistered hlive').edit haction hregistered)
      · exact .inl hregistered
  | answered haction hpacket hpayload hpool hstep hpending =>
      exact formed_of_answer hF hpacket hpayload hpool hstep hpending hstatus
        (hlive (by simp [haction]))
  | answeredElsewhere haction hpacket helsewhere hpending =>
      exact hF.of_kept (fun _ _ _ h _ _ _ => pending_of_remove hpending h)
        (waiting_of_remove_other hpending
          (waiting_elsewhere hpacket helsewhere)) (fun _ h => h) rfl hstatus
        hF.formed
  | vain haction hpacket hpayload hpool hvain hpending =>
      have hplain := validator_not_vain (hpool ▸ hp) hvain
      exact hF.of_kept (fun _ _ _ h _ _ _ => pending_of_remove hpending h)
        (waiting_of_remove_other hpending
          (waiting_other hpacket hpayload hplain)) (fun _ h => h) rfl hstatus
        hF.formed
  | idle hexecute hanswer hpending =>
      exact hF.of_kept (fun _ _ _ h _ _ _ => hpending ▸ h)
        (waiting_of_pending hpending) (fun _ h => h) rfl hstatus hF.formed

/-- A started pool finds its queries, and its address is a valid one. -/
structure Queryable (valid : String → Bool) (w : World) (a : String) :
    Prop where
  valid : valid a = true
  delegations : (w.store.directory.find (a, .delegations)).isSome = true
  validators : (w.store.directory.find (a, .validators)).isSome = true

theorem queryable_step (hs : Sound net w) (hstep : w.step net ev = some w')
    (h : Queryable valid w a) : Queryable valid w' a := by
  obtain ⟨hdirectory, -⟩ := queries_step hs hstep
  refine ⟨h.valid, ?_, ?_⟩
  · rw [hdirectory]
    exact Directory.find_foldl h.delegations
  · rw [hdirectory]
    exact Directory.find_foldl h.validators

/-- The start of a pool registers its queries. -/
theorem queryable_of_start (hs : Sound net w)
    (hstep : w.step net ev = some w') (hdecodes : Decodes valid ev)
    (hp : w.store.pools a = some p) (hstatus : p.status = .registerEnded)
    (hstart : Start w ev a p p') : Queryable valid w' a := by
  obtain ⟨querier, info, msg, id, withdrawAddr, haction, hstarting⟩ :
      ∃ querier info msg id withdrawAddr,
        ev.action = .execute querier info msg id ∧
        msg.starting w.store = some (a, withdrawAddr) := by
    cases hstart with
    | init haction htarget =>
        obtain ⟨withdrawAddr, hstarting⟩ :=
          starting_of_target htarget hp hstatus
        exact ⟨_, _, _, _, withdrawAddr, haction, hstarting⟩
    | migrate haction htarget =>
        obtain ⟨withdrawAddr, hstarting⟩ :=
          starting_of_target htarget hp hstatus
        exact ⟨_, _, _, _, withdrawAddr, haction, hstarting⟩
  obtain ⟨store, rsp, _, hexec⟩ := executed_of_step hs hstep haction
  obtain ⟨hstarted, -⟩ := execute_started hexec.call hstarting
  obtain rfl : querier.decodeAndConvert = valid := by
    simpa only [Decodes, haction] using hdecodes
  obtain ⟨hdirectory, -⟩ := queries_step hs hstep
  have hentries : (registered w ev).map Prod.fst =
      poolQueries a withdrawAddr := by
    simp [registered, haction, hstarting, poolQueries]
  refine ⟨hstarted.decodes, ?_, ?_⟩
  · rw [hdirectory]
    exact Directory.find_foldl_of_mem (by rw [hentries]; simp [poolQueries])
  · rw [hdirectory]
    exact Directory.find_foldl_of_mem (by rw [hentries]; simp [poolQueries])

/-- The update of the queries of a well-formed list is accepted. -/
theorem canWatch (hs : Sound net w) (hp : w.store.pools a = some p)
    (hquery : Queryable valid w a) (hformed : WellFormed valid p.validatorAddrs)
    (hwaits : p.validatorUpdateStatus = .waitQueryUpdate) :
    CanWatch net valid a w p := by
  intro block querier info id hheight htime hdecodes hadmin haccount
  subst hdecodes
  obtain ⟨entry, hentry, -⟩ := hs.known a p hp
  obtain ⟨rsp, hcall⟩ := executeUpdateValidatorsIcq_total hp hadmin hwaits
    hentry hquery.valid
    (List.all_eq_true.mpr hformed.valid) hquery.delegations hquery.validators
  obtain ⟨_, _, _, -, -, -, hmsgs⟩ := executeUpdateValidatorsIcq_ok hcall
  let store := w.store.savePool a { p with validatorUpdateStatus := .ended }
  obtain ⟨w', hdelivered, hstore⟩ : ∃ w', deliverAll net
      ⟨querier, true, some (id, info.sender, .poolUpdateValidatorsIcq a)⟩
      { w with block := block, store := store } rsp.messages = some w' ∧
      w'.store = store := by
    rw [hmsgs]
    refine ⟨_, rfl, ?_⟩
    rw [(watch_quiet _ _).2.1, (watch_quiet _ _).2.1]
  refine ⟨w', { p with validatorUpdateStatus := .ended }, ?_, ?_, rfl⟩
  · have hcommit : ({ w with block := block } : World).commit net
        ⟨querier, true, some (id, info.sender, .poolUpdateValidatorsIcq a)⟩
        (executeUpdateValidatorsIcq w.store querier info a) = some w' := by
      rw [hcall]
      exact hdelivered
    exact (if_pos ⟨hheight, htime⟩).trans ((if_pos haccount).trans hcommit)
  · rw [hstore]
    exact Map.save_self

/-- The started pools and what is known of the others. -/
structure Watched (net : Network) (valid : String → Bool) (a : String)
    (w : World) : Prop where
  sound : Sound net w
  unstarted : ∀ p, w.store.pools a = some p → p.status = .registerEnded →
    Unstarted w a p
  formed : ∀ p, w.store.pools a = some p → Formed valid w a p
  queryable : ∀ p, w.store.pools a = some p → p.status ≠ .registerEnded →
    Queryable valid w a

theorem watched_step (h : Watched net valid a w)
    (hstep : w.step net ev = some w') (hdecodes : Decodes valid ev)
    (hcareful : CarefulEdits valid a w ev) : Watched net valid a w' := by
  have hs := h.sound
  have hstart : ∀ {p p'}, w.store.pools a = some p →
      PoolMove net w ev w' a p p' → p.status = .registerEnded →
      p'.status ≠ .registerEnded → Start w ev a p p' :=
    fun {p p'} hp hmove hstatus hlive =>
      start_of_move hmove (h.unstarted p hp hstatus) hstatus hlive
  refine ⟨sound_step hs hstep, unstarted_step hs hstep h.unstarted, ?_, ?_⟩
  · refine pool_invariant (J := fun p' => Formed valid w' a p') hs hstep
      h.formed ?_ ?_
    · intro p p' hp _ hF hmove
      exact formed_of_move hs hp hF hstep hdecodes hcareful
        (hstart hp hmove) hmove
    · intro icaId admin _ _ hnone _ _
      exact .of_idle (idle_of_not_unanswered hnone)
        fun hlive => absurd rfl hlive
  · refine pool_invariant (J := fun p' => p'.status ≠ .registerEnded →
      Queryable valid w' a) hs hstep h.queryable ?_ ?_
    · intro p p' hp _ hold hmove hlive
      by_cases hstatus : p.status = .registerEnded
      · exact queryable_of_start hs hstep hdecodes hp hstatus
          (hstart hp hmove hstatus hlive)
      · exact queryable_step hs hstep (hold hstatus)
    · intro icaId admin _ _ _ _ _ hlive
      exact absurd rfl hlive

theorem Watched.validatorSet (h : Watched net valid a w) :
    ValidatorSet net valid a w := by
  intro p hp hlive
  have hformed := (h.formed p hp).formed hlive
  exact ⟨hformed, canWatch h.sound hp (h.queryable p hp hlive) hformed⟩

/-- In every run whose edits of a pool are careful, its validators stay well
formed and their queries can be updated. -/
theorem validators_well_formed {block : BlockInfo} {deployer : MessageInfo}
    {lsdTokenCodeId : Nat} {evs : List Event}
    (hdecodes : ∀ ev ∈ evs, Decodes valid ev)
    (hcareful : Transition.AllSteps (step net)
      (fun w ev _ => CarefulEdits valid a w ev)
      (genesis block deployer lsdTokenCodeId) evs) :
    Transition.AllSteps (step net)
      (fun _ _ w' => ValidatorSet net valid a w')
      (genesis block deployer lsdTokenCodeId) evs := by
  refine Transition.AllSteps.of_invariant (Watched net valid a) ?_ ?_
    (Transition.AllSteps.and_iff.mpr ⟨.of_mem hdecodes, hcareful⟩)
  · intro w ev w' hinv hstep hcond
    have hnext := watched_step hinv hstep hcond.1 hcond.2
    exact ⟨hnext, hnext.validatorSet⟩
  · refine ⟨sound_genesis net block deployer lsdTokenCodeId, ?_, ?_, ?_⟩
    · intro _ h
      cases h
    · intro _ h
      cases h
    · intro _ h
      cases h

/-- The accounts and the operators of a small host chain. -/
def hostAddress (s : String) : Bool :=
  s ∈ [Sample.pool, Sample.withdrawAccount, "val1", "val2", "val3"]

/-- The event with a library that knows the host chain. -/
def onHost (ev : Event) : Event :=
  match ev with
  | ⟨block, .execute querier info msg id⟩ =>
      ⟨block, .execute { querier with decodeAndConvert := hostAddress } info
        msg id⟩
  | ev => ev

theorem decodes_onHost {ev : Event} {evs : List Event}
    (h : ev ∈ evs.map onHost) : Decodes hostAddress ev := by
  obtain ⟨⟨block, action⟩, -, rfl⟩ := List.mem_map.mp h
  cases action <;> first | rfl | trivial

/-- A call that has the queries of the pool updated. -/
def watching : Event :=
  Sample.call 1 (Sample.querier 1 [] 0) (.poolUpdateValidatorsIcq Sample.pool)
    (Sample.packetId 3)

/-- A replacement that is acknowledged before the queries are updated. -/
def replacedOnHost : List Event := (Sample.setup ++ [replacement,
  Sample.ack 1 .success (Sample.packetId 2), watching]).map onHost

theorem validators_well_formed_sample :
    Transition.AllSteps (step Sample.net)
        (fun _ _ w' => ValidatorSet Sample.net hostAddress Sample.pool w')
        Sample.genesis replacedOnHost ∧
      ∃ w p, Sample.run replacedOnHost = some w ∧
        w.store.pools Sample.pool = some p ∧
        p.validatorAddrs = ["val2", "val3"] ∧
        p.validatorUpdateStatus = .ended := by
  obtain ⟨w, p, hw, hp, htest⟩ := Sample.exists_of_run replacedOnHost
    (fun _ p => p.validatorAddrs = ["val2", "val3"] &&
      p.validatorUpdateStatus = .ended) (by decide +kernel)
  simp only [Bool.and_eq_true, decide_eq_true_eq] at htest
  exact ⟨validators_well_formed (fun _ => decodes_onHost)
    (by decide +kernel), w, p, hw, hp, htest⟩

/-- The start of a pool that lists a validator twice. -/
def listTwice (ev : Event) : Event :=
  match ev with
  | ⟨block, .execute querier info (.initPool param) id⟩ =>
      ⟨block, .execute querier info
        (.initPool { param with validatorAddrs := ["val1", "val1"] }) id⟩
  | ev => ev

/-- The validator of the pool is listed twice, and then removed. -/
def emptied : List Event := (Sample.setup.map listTwice ++
  [Sample.call 1 (Sample.querier 1 [] 0)
    (.poolRmValidator Sample.pool "val1") (Sample.packetId 2)]).map onHost

/-- A validator is replaced by an address without keys. -/
def frozen : List Event := (Sample.setup ++
  [Sample.call 1 (Sample.querier 1 [] 0)
    (.poolUpdateValidator Sample.pool "val1" "unknown")
    (Sample.packetId 2)]).map onHost

/-- A validator that is listed twice is removed with all its entries, which
leaves no validator; an address without keys freezes the pool, since the update
of the queries is rejected. -/
theorem validators_well_formed_fails :
    (∃ w p, (∀ ev ∈ emptied, Decodes hostAddress ev) ∧
        Sample.run emptied = some w ∧ w.store.pools Sample.pool = some p ∧
        p.status = .activeEnded ∧ p.validatorAddrs = [] ∧
        ¬ ValidatorSet Sample.net hostAddress Sample.pool w) ∧
      ∃ w p, (∀ ev ∈ frozen, Decodes hostAddress ev) ∧
        Sample.run frozen = some w ∧ w.store.pools Sample.pool = some p ∧
        p.status = .activeEnded ∧ p.validatorAddrs = ["val2", "unknown"] ∧
        p.validatorUpdateStatus = .waitQueryUpdate ∧
        w.step Sample.net (onHost watching) = none ∧
        ¬ ValidatorSet Sample.net hostAddress Sample.pool w := by
  constructor
  · obtain ⟨w, p, hw, hp, htest⟩ := Sample.exists_of_run emptied
      (fun _ p => p.status = .activeEnded && p.validatorAddrs = [])
      (by decide +kernel)
    simp only [Bool.and_eq_true, decide_eq_true_eq] at htest
    refine ⟨w, p, fun _ => decodes_onHost, hw, hp, htest.1, htest.2,
      fun hset => ?_⟩
    exact (hset p hp (by simp [htest.1])).1.nonempty htest.2
  · obtain ⟨w, p, hw, hp, htest⟩ := Sample.exists_of_run frozen
      (fun w p => p.status = .activeEnded &&
        p.validatorAddrs = ["val2", "unknown"] &&
        p.validatorUpdateStatus = .waitQueryUpdate &&
        (w.step Sample.net (onHost watching)).isNone) (by decide +kernel)
    simp only [Bool.and_eq_true, decide_eq_true_eq] at htest
    obtain ⟨⟨⟨hstatus, hlist⟩, hwaits⟩, hrejected⟩ := htest
    refine ⟨w, p, fun _ => decodes_onHost, hw, hp, hstatus, hlist, hwaits,
      Option.isNone_iff_eq_none.mp hrejected, fun hset => ?_⟩
    have hvalid := (hset p hp (by simp [hstatus])).1.valid "unknown"
      (by simp [hlist])
    exact absurd hvalid (by decide)

end World

end NeutronContracts
