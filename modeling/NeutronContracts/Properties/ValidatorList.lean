/-
The list of validators that was asked for.  An observer applies every edit
when it takes effect on the host: at once when no redelegation is needed, else
when the packet is acknowledged.  The list of the pool agrees with it unless a
validator is added while a replacement waits, whose acknowledgement writes the
list of its request again.
-/
import NeutronContracts.Properties.ValidatorChange

namespace NeutronContracts

open StakeManager Outstanding

/-- The same validators, in any order. -/
def SameMembers (first second : List String) : Prop :=
  (∀ v ∈ first, v ∈ second) ∧ ∀ v ∈ second, v ∈ first

instance (first second : List String) : Decidable (SameMembers first second) :=
  inferInstanceAs (Decidable ((∀ _ ∈ _, _ ∈ _) ∧ ∀ _ ∈ _, _ ∈ _))

namespace SameMembers

variable {first second : List String}

theorem refl (validators : List String) : SameMembers validators validators :=
  ⟨fun _ h => h, fun _ h => h⟩

theorem mem_iff (h : SameMembers first second) (v : String) :
    v ∈ first ↔ v ∈ second := ⟨h.1 v, h.2 v⟩

theorem of_mem_iff (h : ∀ v, v ∈ first ↔ v ∈ second) :
    SameMembers first second :=
  ⟨fun v => (h v).mp, fun v => (h v).mpr⟩

/-- An edit of the same validators gives the same validators. -/
theorem apply (h : SameMembers first second) (edit : Edit) :
    SameMembers (edit.apply first) (edit.apply second) := by
  apply of_mem_iff
  intro v
  cases edit with
  | start validators => rfl
  | add validatorAddr =>
      simp only [Edit.apply, List.mem_append, h.mem_iff v]
  | remove validatorAddr =>
      simp only [Edit.apply, List.mem_filter, h.mem_iff v]
  | replace oldValidator newValidator =>
      simp only [Edit.apply, replaced, List.mem_append, List.mem_filter,
        h.mem_iff v]

end SameMembers

/-- An edit that may have to wait for a redelegation. -/
def Edit.mayWait : Edit → Bool
  | .remove _ => true
  | .replace _ _ => true
  | _ => false

def Edit.isAdd : Edit → Bool
  | .add _ => true
  | _ => false

def Edit.isReplace : Edit → Bool
  | .replace _ _ => true
  | _ => false

namespace World

/-- The edit of pool `a` that a transaction asks for. -/
def editOf (a : String) (w : World) (ev : Event) : Option Edit :=
  match ev.action with
  | .execute _ _ msg _ =>
      (w.store.pools a).bind fun p => msg.edit w.store a p.status
  | _ => none

/-- The edit of pool `a` whose packet is acknowledged. -/
def acknowledged (a : String) (w : World) (ev : Event) : Option Edit :=
  match ev.action with
  | .answer id .success _ _ =>
      (w.pending id).bind fun packet =>
        if (packet.kind a).any TxType.isValidator then
          packet.origin.edit w.store a .activeEnded
        else none
  | _ => none

/-- The validators that were asked for. -/
def intend (a : String) (validators : List String) (w : World) (ev : Event)
    (w' : World) : List String :=
  if (w.store.pools a).isNone then []
  else
    match editOf a w ev, acknowledged a w ev with
    | some edit, _ =>
        if edit.mayWait = true ∧ w'.used ≠ w.used then validators
        else edit.apply validators
    | none, some edit => edit.apply validators
    | none, none => validators

/-- When no change waits, the pool has the validators that were asked for. -/
def NothingLost (a : String) (s : World × List String) : Prop :=
  ∀ p ∈ s.1.store.pools a,
    (∀ id ∈ s.1.used, s.1.waiting TxType.isValidator a id = none) →
      SameMembers p.validatorAddrs s.2

/-- The changes that wait are acknowledged. -/
def Succeeds (a : String) (w : World) (ev : Event) : Prop :=
  match ev.action with
  | .answer id answer _ _ =>
      (w.waiting TxType.isValidator a id).isSome → answer = .success
  | _ => True

/-- No validator is added while a replacement waits, and a replacement that
submits a packet has a list whose names are without the separator. -/
def ReplacedAlone (a : String) (w : World) (ev : Event) (w' : World) : Prop :=
  ∀ edit ∈ editOf a w ev,
    (edit.isAdd = true → ∀ id ∈ w.used,
      w.waiting TxType.isValidator a id ≠ some .updateValidator) ∧
    (edit.isReplace = true → w'.used ≠ w.used → ∀ p ∈ w.store.pools a,
      ∀ v ∈ edit.apply p.validatorAddrs, '_' ∉ v.toList)

instance (a : String) (s : World × List String) :
    Decidable (NothingLost a s) :=
  inferInstanceAs (Decidable (∀ _ ∈ _, _ → _))

instance (a : String) (w : World) (ev : Event) :
    Decidable (Succeeds a w ev) :=
  match ev with
  | ⟨_, .answer _ _ _ _⟩ => inferInstanceAs (Decidable (_ → _ = _))
  | ⟨_, .execute _ _ _ _⟩ => .isTrue trivial
  | ⟨_, .openAck _ _ _ _⟩ => .isTrue trivial
  | ⟨_, .kvQueryResult _ _⟩ => .isTrue trivial
  | ⟨_, .token _ _ _ _⟩ => .isTrue trivial

instance (a : String) (w : World) (ev : Event) (w' : World) :
    Decidable (ReplacedAlone a w ev w') :=
  inferInstanceAs (Decidable
    (∀ _ ∈ _, (_ → ∀ _ ∈ _, _) ∧ (_ → _ → ∀ _ ∈ _, ∀ _ ∈ _, _)))

variable {net : Network} {w w' : World} {ev : Event} {a : String}
  {p p' : PoolInfo} {validators : List String}

/-- A change waits only in the status of its request, and only one. -/
def oneChange (status : ValidatorUpdateStatus) (_ : TxType) : Prop :=
  status = .start

/-- The list of a pool and the packets of its changes, against the validators
that were asked for. -/
structure Intended (w : World) (a : String) (p : PoolInfo)
    (validators : List String) : Prop where
  matched : Matched oneChange (fun _ => False)
    (w.waiting TxType.isValidator a) p.validatorUpdateStatus
  fresh : p.status = .registerEnded → Idle (w.waiting TxType.isValidator a)
  still : (∀ id, w.waiting TxType.isValidator a id ≠ some .updateValidator) →
    SameMembers p.validatorAddrs validators
  removal : ∀ id packet payload, w.pending id = some packet →
    packet.payload = some payload → payload.poolAddr = a →
    payload.txType = .rmValidator →
      packet.origin = .poolRmValidator a payload.message
  replacement : ∀ id packet payload, w.pending id = some packet →
    packet.payload = some payload → payload.poolAddr = a →
    payload.txType = .updateValidator →
      ∃ oldValidator newValidator,
        packet.origin = .poolUpdateValidator a oldValidator newValidator ∧
        SameMembers (Text.split '_' payload.message)
          (replaced validators oldValidator newValidator)

/-- While no change waits, the packets of the pool are of other kinds. -/
theorem not_validator_of_idle (hidle : Idle (w.waiting TxType.isValidator a))
    {id : PacketId} {packet : Packet} {payload : SudoPayload}
    (hpacket : w.pending id = some packet)
    (hpayload : packet.payload = some payload)
    (hpool : payload.poolAddr = a) : payload.txType.isValidator = false := by
  by_contra hkind
  rw [Bool.not_eq_false] at hkind
  have hwaiting := waiting_eq_some.mpr
    ⟨⟨packet, payload, hpacket, hpayload, hpool, rfl⟩, hkind⟩
  exact absurd ((hidle id).symm.trans hwaiting) (by simp)

/-- After the request of a change, its packet is the only one of a change. -/
theorem only_sent {sub : SubMsg} {id : PacketId} {sender : String}
    {msg : ExecuteMsg} {kind : TxType}
    (hidle : Idle (w.waiting TxType.isValidator a))
    (hsends : Sends (some sub) id sender msg w w') (hcalls : Calls sub a kind)
    {other : PacketId} {packet : Packet} {payload : SudoPayload}
    (hpacket : w'.pending other = some packet)
    (hpayload : packet.payload = some payload) (hpool : payload.poolAddr = a)
    (hvalidator : payload.txType.isValidator = true) :
    packet.origin = msg ∧ payload.txType = kind ∧
      payload.message = sub.text := by
  rcases pending_of_sends hsends hpacket with hold | ⟨_, hsub, -, rfl⟩
  · have hnone := not_validator_of_idle hidle hold hpayload hpool
    rw [hvalidator] at hnone
    cases hnone
  · obtain rfl := Option.mem_some.mp hsub
    have hown : Calls sub a payload.txType := ⟨payload, hpayload, hpool, rfl⟩
    exact ⟨rfl, calls_type hown hcalls, (SubMsg.text_eq hpayload).symm⟩

namespace Intended

/-- While no change waits only the list matters. -/
theorem of_idle (hidle : Idle (w.waiting TxType.isValidator a))
    (hsame : SameMembers p.validatorAddrs validators) :
    Intended w a p validators := by
  refine ⟨matched_of_idle hidle not_false, fun _ => hidle, fun _ => hsame, ?_,
    ?_⟩
  · intro id packet payload hpacket hpayload hpool htype
    have := not_validator_of_idle hidle hpacket hpayload hpool
    rw [htype] at this
    cases this
  · intro id packet payload hpacket hpayload hpool htype
    have := not_validator_of_idle hidle hpacket hpayload hpool
    rw [htype] at this
    cases this

theorem same (h : Intended w a p validators)
    (hidle : Idle (w.waiting TxType.isValidator a)) :
    SameMembers p.validatorAddrs validators :=
  h.still fun id hid => absurd ((hidle id).symm.trans hid) (by simp)

theorem idle (h : Intended w a p validators)
    (hstatus : p.validatorUpdateStatus ≠ .start) :
    Idle (w.waiting TxType.isValidator a) :=
  h.matched.idle fun _ hmay => hstatus hmay

/-- A move that leaves the list, its status and the packets of changes
alone. -/
theorem of_same (h : Intended w a p validators)
    (hpackets : ∀ id packet payload, w'.pending id = some packet →
      packet.payload = some payload → payload.poolAddr = a →
      payload.txType.isValidator = true → w.pending id = some packet)
    (hwaiting : w'.waiting TxType.isValidator a =
      w.waiting TxType.isValidator a)
    (hlist : p'.validatorAddrs = p.validatorAddrs)
    (hupdate : p'.validatorUpdateStatus = p.validatorUpdateStatus)
    (hstatus : p'.status = .registerEnded → p.status = .registerEnded) :
    Intended w' a p' validators := by
  constructor
  · rw [hwaiting, hupdate]
    exact h.matched
  · rw [hwaiting]
    exact fun hregistered => h.fresh (hstatus hregistered)
  · rw [hwaiting, hlist]
    exact h.still
  · intro id packet payload hpacket hpayload hpool htype
    refine h.removal id packet payload ?_ hpayload hpool htype
    exact hpackets id packet payload hpacket hpayload hpool (by rw [htype]; rfl)
  · intro id packet payload hpacket hpayload hpool htype
    refine h.replacement id packet payload ?_ hpayload hpool htype
    exact hpackets id packet payload hpacket hpayload hpool (by rw [htype]; rfl)

/-- The request of a change sends the only packet of a change. -/
theorem of_sent {sub : SubMsg} {id : PacketId} {sender : String}
    {msg : ExecuteMsg} {kind : TxType} (hs : Sound net w)
    (hidle : Idle (w.waiting TxType.isValidator a))
    (hsends : Sends (some sub) id sender msg w w') (hcalls : Calls sub a kind)
    (hkind : kind.isValidator = true)
    (hupdate : p'.validatorUpdateStatus = .start)
    (hlive : p'.status ≠ .registerEnded)
    (hstill : kind ≠ .updateValidator →
      SameMembers p'.validatorAddrs validators)
    (hremoval : kind = .rmValidator → msg = .poolRmValidator a sub.text)
    (hreplacement : kind = .updateValidator →
      ∃ oldValidator newValidator,
        msg = .poolUpdateValidator a oldValidator newValidator ∧
        SameMembers (Text.split '_' sub.text)
          (replaced validators oldValidator newValidator)) :
    Intended w' a p' validators := by
  have hwaiting := waiting_of_sends_calls hs hsends hcalls hkind
  refine ⟨?_, fun h => absurd h hlive, fun hnone => hstill fun hother => ?_,
    ?_, ?_⟩
  · rw [hwaiting]
    exact matched_sent hidle hupdate
  · refine hnone id ?_
    rw [hwaiting, Map.save_self, hother]
  · intro other packet payload hpacket hpayload hpool htype
    obtain ⟨horigin, hsame, hmessage⟩ := only_sent hidle hsends hcalls hpacket
      hpayload hpool (by rw [htype]; rfl)
    rw [horigin, hmessage]
    exact hremoval (hsame.symm.trans htype)
  · intro other packet payload hpacket hpayload hpool htype
    obtain ⟨horigin, hsame, hmessage⟩ := only_sent hidle hsends hcalls hpacket
      hpayload hpool (by rw [htype]; rfl)
    rw [horigin, hmessage]
    exact hreplacement (hsame.symm.trans htype)

end Intended

theorem intend_of_execute {querier : Querier} {info : MessageInfo}
    {msg : ExecuteMsg} {id : PacketId} (hp : w.store.pools a = some p)
    (haction : ev.action = .execute querier info msg id) :
    intend a validators w ev w' =
      match msg.edit w.store a p.status with
      | some edit =>
          if edit.mayWait = true ∧ w'.used ≠ w.used then validators
          else edit.apply validators
      | none => validators := by
  have hedit : editOf a w ev = msg.edit w.store a p.status := by
    simp [editOf, haction, hp]
  have hnone : acknowledged a w ev = none := by
    simp [acknowledged, haction]
  simp only [intend, hp, Option.isNone_some, Bool.false_eq_true, if_false,
    hedit, hnone]
  split <;> simp_all

theorem intend_of_other (hp : w.store.pools a = some p)
    (hexecute : ∀ querier info msg id,
      ev.action ≠ .execute querier info msg id) :
    intend a validators w ev w' =
      match acknowledged a w ev with
      | some edit => edit.apply validators
      | none => validators := by
  have hnone : editOf a w ev = none := by
    unfold editOf
    split
    · rename_i haction
      exact absurd haction (hexecute _ _ _ _)
    · rfl
  simp only [intend, hp, Option.isNone_some, Bool.false_eq_true, if_false,
    hnone]
  split <;> simp_all

/-- The answer to a packet that changes no validators of the pool. -/
theorem acknowledged_of_other {id : PacketId} {answer : Answer}
    {querier : Querier} {bankAccepts : Bool} {packet : Packet}
    (haction : ev.action = .answer id answer querier bankAccepts)
    (hpacket : w.pending id = some packet)
    (hkind : (packet.kind a).any TxType.isValidator = false) :
    acknowledged a w ev = none := by
  simp only [acknowledged, haction]
  split <;> simp_all

/-- What an accepted call makes of the list and of the edits. -/
theorem intended_of_exec {querier : Querier} {info : MessageInfo}
    {msg : ExecuteMsg} {id : PacketId} {sent : Option SubMsg}
    (hs : Sound net w) (hp : w.store.pools a = some p)
    (hI : Intended w a p validators) (halone : ReplacedAlone a w ev w')
    (haction : ev.action = .execute querier info msg id)
    (hstep : ValidatorStep w.store a p msg sent p')
    (hsends : Sends sent id info.sender msg w w')
    (hstatus : p'.status = .registerEnded → p.status = .registerEnded) :
    Intended w' a p' (intend a validators w ev w') := by
  have hedits : ∀ edit, msg.edit w.store a p.status = some edit →
      editOf a w ev = some edit := by
    intro edit hedit
    simp [editOf, haction, hp, hedit]
  rw [intend_of_execute hp haction]
  cases hstep with
  | plain hedit hlist hupdate hsent =>
      rw [hedit]
      refine hI.of_same ?_ (waiting_of_sends_other hs hsends hsent) hlist
        hupdate hstatus
      intro other packet payload hpacket hpayload hpool hkind
      rcases pending_of_sends hsends hpacket with hold | ⟨sub, hsub, -, rfl⟩
      · exact hold
      · exact absurd ⟨payload, hpayload, hpool, rfl⟩ (hsent sub hsub _ hkind)
  | watch hedit hmsg hbefore hlist hupdate =>
      have hidle := hI.idle (by rw [hbefore]; decide)
      rw [hedit]
      refine .of_idle ?_ (by rw [hlist]; exact hI.same hidle)
      rw [waiting_of_pending hsends.1]
      exact hidle
  | start hedit hregistered hcalls hlist hupdate =>
      have hidle := hI.fresh hregistered
      rw [hedit]
      refine .of_idle ?_ (by rw [hlist]; exact SameMembers.refl _)
      rw [waiting_of_sends_other hs hsends (not_validator_of_calls hcalls rfl)]
      exact hidle
  | add hedit hlist hupdate =>
      rename_i validatorAddr
      have hnone := (halone _ (hedits _ hedit)).1 rfl
      have hsame : SameMembers p.validatorAddrs validators := by
        refine hI.still fun other hother => ?_
        obtain ⟨⟨packet, _, hpacket, -⟩, -⟩ := waiting_eq_some.mp hother
        exact hnone other (hs.usedPending other packet hpacket) hother
      have hadded := hsame.apply (.add validatorAddr)
      have hwaiting : w'.waiting TxType.isValidator a =
          w.waiting TxType.isValidator a := waiting_of_pending hsends.1
      rw [hedit]
      refine ⟨?_, ?_, fun _ => by rw [hlist]; exact hadded, ?_, ?_⟩
      · rw [hwaiting, hupdate]
        exact hI.matched
      · rw [hwaiting]
        exact fun hregistered => hI.fresh (hstatus hregistered)
      · rw [hsends.1]
        exact hI.removal
      · intro other packet payload hpacket hpayload hpool htype
        rw [hsends.1] at hpacket
        have hother := waiting_eq_some.mpr
          ⟨⟨packet, payload, hpacket, hpayload, hpool, htype⟩,
            (rfl : TxType.isValidator .updateValidator = true)⟩
        exact absurd hother
          (hnone other (hs.usedPending other packet hpacket))
  | done hedit hbefore hlist hupdate =>
      have hidle := hI.idle (by rw [hbefore]; decide)
      rw [hedit]
      simp only [hsends.2, ne_eq, not_true_eq_false, and_false, if_false]
      refine .of_idle ?_ (by rw [hlist]; exact (hI.same hidle).apply _)
      rw [waiting_of_pending hsends.1]
      exact hidle
  | removal hedit hended hcalls htext hbefore hlist hupdate =>
      have hidle := hI.idle (by rw [hbefore]; decide)
      have hused : w'.used ≠ w.used := by
        rw [hsends.2.1]
        exact List.cons_ne_self _ _
      rw [hedit]
      simp only [Edit.mayWait, hused, ne_eq, not_false_eq_true, and_self,
        if_true]
      refine .of_sent hs hidle hsends hcalls rfl hupdate (by simp [hended])
        (fun _ => by rw [hlist]; exact hI.same hidle) (fun _ => ?_) nofun
      rw [htext]
      exact edit_eq_remove hedit
  | replacement hedit hended hnew hcalls htext hbefore hlist hupdate =>
      rename_i oldValidator newValidator sub
      have hidle := hI.idle (by rw [hbefore]; decide)
      have hused : w'.used ≠ w.used := by
        rw [hsends.2.1]
        exact List.cons_ne_self _ _
      have hplain : ∀ v ∈ replaced p.validatorAddrs oldValidator newValidator,
          '_' ∉ v.toList := (halone _ (hedits _ hedit)).2 rfl hused p hp
      rw [hedit]
      simp only [Edit.mayWait, hused, ne_eq, not_false_eq_true, and_self,
        if_true]
      refine .of_sent hs hidle hsends hcalls rfl hupdate (by simp [hended])
        (fun hother => absurd rfl hother) nofun fun _ => ?_
      refine ⟨oldValidator, newValidator, edit_eq_replace hedit, ?_⟩
      rw [htext, Text.split_join (by simp [replaced]) hplain]
      exact (hI.same hidle).apply (.replace oldValidator newValidator)

/-- What an answer makes of the list and of the edits. -/
theorem intended_of_answer {answer : Answer} {querier : Querier}
    {bankAccepts : Bool} {id : PacketId} {packet : Packet}
    {payload : SudoPayload} (hp : w.store.pools a = some p)
    (hI : Intended w a p validators) (hsucceeds : Succeeds a w ev)
    (haction : ev.action = .answer id answer querier bankAccepts)
    (hpacket : w.pending id = some packet)
    (hpayload : packet.payload = some payload) (hpool : payload.poolAddr = a)
    (hstep : AnswerStep ev.block.height p payload answer p')
    (hpending : w'.pending = w.pending.remove id)
    (hstatus : p'.status = .registerEnded → p.status = .registerEnded) :
    Intended w' a p' (intend a validators w ev w') := by
  have hexecute : ∀ querier info msg id,
      ev.action ≠ .execute querier info msg id := by
    simp [haction]
  have hkind : packet.kind a = some payload.txType :=
    Packet.kind_eq_some.mpr ⟨payload, hpayload, hpool, rfl⟩
  -- an answer to another packet
  have hother : payload.txType.isValidator = false →
      p'.validatorAddrs = p.validatorAddrs →
      p'.validatorUpdateStatus = p.validatorUpdateStatus →
      Intended w' a p' (intend a validators w ev w') := by
    intro hplain hlist hupdate
    rw [intend_of_other hp hexecute, acknowledged_of_other haction hpacket
      (by rw [hkind]; exact hplain)]
    exact hI.of_same (fun _ _ _ h _ _ _ => pending_of_remove hpending h)
      (waiting_of_remove_other hpending
        (waiting_other hpacket hpayload hplain)) hlist hupdate hstatus
  -- an acknowledgement
  have hlast : payload.txType.isValidator = true → answer = .success ∧
      Idle (w'.waiting TxType.isValidator a) ∧
      intend a validators w ev w' =
        match packet.origin.edit w.store a .activeEnded with
        | some edit => edit.apply validators
        | none => validators := by
    intro hvalidator
    have hwaiting := waiting_eq_some.mpr
      ⟨⟨packet, payload, hpacket, hpayload, hpool, rfl⟩, hvalidator⟩
    have hsuccess : answer = .success := by
      simp only [Succeeds, haction] at hsucceeds
      exact hsucceeds (by rw [hwaiting]; rfl)
    refine ⟨hsuccess, ?_, ?_⟩
    · rw [waiting_of_remove hpending]
      exact hI.matched.answered hwaiting
    · rw [intend_of_other hp hexecute]
      simp only [acknowledged, haction, hsuccess, hpacket, Option.bind_some,
        hkind, Option.any_some, hvalidator, if_true]
  cases hstep with
  | era hera =>
      have hlist : p'.validatorAddrs = p.validatorAddrs := by
        cases hera <;> rfl
      have hupdate : p'.validatorUpdateStatus = p.validatorUpdateStatus := by
        cases hera <;> rfl
      refine hother ?_ hlist hupdate
      have hkind := EraAnswer.isStep hera
      cases htype : payload.txType <;> simp [htype, TxType.isStep,
        TxType.isEra, TxType.isInit, TxType.isValidator] at hkind ⊢
  | updateValidator htype =>
      obtain ⟨-, hidle, hintend⟩ := hlast (by rw [htype]; rfl)
      obtain ⟨oldValidator, newValidator, horigin, hsame⟩ :=
        hI.replacement id packet payload hpacket hpayload hpool htype
      have hedit : packet.origin.edit w.store a .activeEnded =
          some (.replace oldValidator newValidator) := by
        rw [horigin]
        exact if_pos rfl
      rw [hintend, hedit]
      exact .of_idle hidle hsame
  | rmValidator htype =>
      obtain ⟨-, hidle, hintend⟩ := hlast (by rw [htype]; rfl)
      have horigin := hI.removal id packet payload hpacket hpayload hpool htype
      have hedit : packet.origin.edit w.store a .activeEnded =
          some (.remove payload.message) := by
        rw [horigin]
        exact if_pos rfl
      have hwaiting : w.waiting TxType.isValidator a id = some .rmValidator :=
        waiting_eq_some.mpr
          ⟨⟨packet, payload, hpacket, hpayload, hpool, htype⟩, rfl⟩
      have hsame : SameMembers p.validatorAddrs validators := by
        refine hI.still fun other hreplaces => ?_
        obtain rfl := hI.matched.unique other id _ _ hreplaces hwaiting
        cases hreplaces.symm.trans hwaiting
      rw [hintend, hedit]
      exact .of_idle hidle (hsame.apply (.remove payload.message))
  | validatorFailed htype hfailed =>
      have hvalidator : payload.txType.isValidator = true := by
        rcases htype with htype | htype <;> rw [htype] <;> rfl
      exact absurd (hlast hvalidator).1 hfailed
  | userWithdraw htype => exact hother (by rw [htype]; rfl) rfl rfl
  | stakeLsm htype hcredit hrate => exact hother (by rw [htype]; rfl) rfl rfl
  | stakeLsmFailed htype hfailed => exact hother (by rw [htype]; rfl) rfl rfl
  | redeem htype => exact hother (by rw [htype]; rfl) rfl rfl
  | redeemFailed htype hfailed => exact hother (by rw [htype]; rfl) rfl rfl

theorem intended_of_move (hs : Sound net w) (hp : w.store.pools a = some p)
    (hI : Intended w a p validators) (hsucceeds : Succeeds a w ev)
    (halone : ReplacedAlone a w ev w')
    (hmove : PoolMove net w ev w' a p p') :
    Intended w' a p' (intend a validators w ev w') := by
  have hstatus := hmove.registered
  cases hmove with
  | executed haction hstep hsends =>
      exact intended_of_exec hs hp hI halone haction
        (validatorStep_of_exec hstep) hsends hstatus
  | answered haction hpacket hpayload hpool hstep hpending =>
      exact intended_of_answer hp hI hsucceeds haction hpacket hpayload hpool
        hstep hpending hstatus
  | answeredElsewhere haction hpacket helsewhere hpending =>
      rename_i packet
      have hkind : (packet.kind a).any TxType.isValidator = false := by
        rw [Packet.kind_elsewhere helsewhere]
        rfl
      rw [intend_of_other hp (by simp [haction]),
        acknowledged_of_other haction hpacket hkind]
      exact hI.of_same (fun _ _ _ h _ _ _ => pending_of_remove hpending h)
        (waiting_of_remove_other hpending
          (waiting_elsewhere hpacket helsewhere)) rfl rfl hstatus
  | vain haction hpacket hpayload hpool hvain hpending =>
      have hplain := validator_not_vain (hpool ▸ hp) hvain
      have hkind := Packet.kind_eq_some.mpr ⟨_, hpayload, hpool, rfl⟩
      rw [intend_of_other hp (by simp [haction]),
        acknowledged_of_other haction hpacket (by rw [hkind]; exact hplain)]
      exact hI.of_same (fun _ _ _ h _ _ _ => pending_of_remove hpending h)
        (waiting_of_remove_other hpending
          (waiting_other hpacket hpayload hplain)) rfl rfl hstatus
  | idle hexecute hanswer hpending =>
      have hnone : acknowledged a w ev = none := by
        unfold acknowledged
        split
        · rename_i haction
          exact absurd haction (hanswer _ _ _ _)
        · rfl
      rw [intend_of_other hp hexecute, hnone]
      exact hI.of_same (fun _ _ _ h _ _ _ => hpending ▸ h)
        (waiting_of_pending hpending) rfl rfl hstatus

def AllIntended (net : Network) (a : String) (s : World × List String) :
    Prop :=
  Sound net s.1 ∧ ∀ p, s.1.store.pools a = some p → Intended s.1 a p s.2

theorem allIntended_step {s s' : World × List String}
    (hinv : AllIntended net a s)
    (hstep : Transition.track (step net) (intend a) s ev = some s')
    (hsucceeds : Succeeds a s.1 ev) (halone : ReplacedAlone a s.1 ev s'.1) :
    AllIntended net a s' := by
  obtain ⟨w, validators⟩ := s
  obtain ⟨w', validators'⟩ := s'
  obtain ⟨hworld, rfl⟩ := Transition.track_eq_some.mp hstep
  obtain ⟨hs, hI⟩ := hinv
  dsimp only at hs hI hsucceeds halone
  refine ⟨sound_step hs hworld, ?_⟩
  refine pool_invariant (J := fun p' =>
    Intended w' a p' (intend a validators w ev w')) hs hworld hI ?_ ?_
  · intro p p' hp _ hpool hmove
    exact intended_of_move hs hp hpool hsucceeds halone hmove
  · intro icaId admin hp _ hnone _ _
    refine .of_idle (idle_of_not_unanswered hnone) ?_
    simp only [intend, hp, Option.isNone_none, if_true]
    exact SameMembers.refl _

theorem nothingLost_of_intended {s : World × List String}
    (hinv : AllIntended net a s) : NothingLost a s := by
  intro p hp hnone
  refine (hinv.2 p hp).same fun id => ?_
  cases hid : s.1.waiting TxType.isValidator a id with
  | none => rfl
  | some txType =>
      obtain ⟨⟨packet, _, hpacket, -⟩, -⟩ := waiting_eq_some.mp hid
      have hused := hinv.1.usedPending id packet hpacket
      exact absurd (hid.symm.trans (hnone id hused)) (by simp)

/-- In a run whose changes are acknowledged, and that adds no validator while
a replacement waits, no edit is lost. -/
theorem nothing_lost {net : Network} {a : String} {block : BlockInfo}
    {info : MessageInfo} {lsdTokenCodeId : Nat} {evs : List Event}
    (hsucceeds : Transition.AllSteps
      (Transition.track (step net) (intend a))
      (fun s ev _ => Succeeds a s.1 ev)
      (genesis block info lsdTokenCodeId, []) evs)
    (halone : Transition.AllSteps (Transition.track (step net) (intend a))
      (fun s ev s' => ReplacedAlone a s.1 ev s'.1)
      (genesis block info lsdTokenCodeId, []) evs) :
    Transition.AllSteps (Transition.track (step net) (intend a))
      (fun _ _ s' => NothingLost a s')
      (genesis block info lsdTokenCodeId, []) evs := by
  refine Transition.AllSteps.of_invariant (AllIntended net a) ?_ ?_
    (Transition.AllSteps.and_iff.mpr ⟨hsucceeds, halone⟩)
  · intro s ev s' hinv hstep hcond
    have hnext := allIntended_step hinv hstep hcond.1 hcond.2
    exact ⟨hnext, nothingLost_of_intended hnext⟩
  · exact ⟨sound_genesis net block info lsdTokenCodeId, fun _ h => nomatch h⟩

/-- A validator is added while a removal waits. -/
def addedDuringRemoval : List Event := Sample.setup ++ [removal,
  Sample.call 1 (Sample.querier 1 [] 0)
    (.poolAddValidator Sample.pool "val4") (Sample.packetId 3),
  Sample.ack 1 .success (Sample.packetId 2)]

theorem nothing_lost_sample :
    Transition.AllSteps
      (Transition.track (step Sample.net) (intend Sample.pool))
      (fun _ _ s' => NothingLost Sample.pool s') (Sample.genesis, [])
      addedDuringRemoval :=
  nothing_lost (by decide +kernel) (by decide +kernel)

/-- A validator that is added while a replacement waits is lost. -/
theorem nothing_lost_fails :
    ¬ Transition.AllSteps
      (Transition.track (step Sample.net) (intend Sample.pool))
      (fun _ _ s' => NothingLost Sample.pool s') (Sample.genesis, [])
      (Sample.setup ++ [replacement,
        Sample.call 1 (Sample.querier 1 [] 0)
          (.poolAddValidator Sample.pool "val4") (Sample.packetId 3),
        Sample.ack 1 .success (Sample.packetId 2)]) := by
  decide +kernel

end World

end NeutronContracts
