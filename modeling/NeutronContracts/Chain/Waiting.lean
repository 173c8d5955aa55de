/-
The packets that wait for an answer: of which kind and for which pool they
are, what a transaction and an answer make of them, and how a property of a
pool that every move keeps becomes an invariant.
-/
import NeutronContracts.Chain.Sound
import NeutronContracts.Lib.Outstanding

namespace NeutronContracts

open StakeManager Outstanding

/-- The packets of the era cycle. -/
def StakeManager.TxType.isEra : TxType → Bool
  | .eraUpdate => true
  | .eraBond => true
  | .eraCollectWithdraw => true
  | .eraRebond => true
  | _ => false

/-- The packets that set the withdraw address. -/
def StakeManager.TxType.isInit : TxType → Bool
  | .setWithdrawAddr => true
  | _ => false

/-- The packets of the calls that take a step. -/
def StakeManager.TxType.isStep (txType : TxType) : Bool :=
  txType.isEra || txType.isInit

/-- The calls that take a step of the era cycle or initialise a pool. -/
def StakeManager.ExecuteMsg.isStep : ExecuteMsg → Bool
  | .initPool _ => true
  | .migratePool _ => true
  | .eraUpdate _ => true
  | .eraBond _ _ => true
  | .eraCollectWithdraw _ => true
  | .eraRebond _ _ => true
  | .eraActive _ => true
  | _ => false

/-- The kind of packet that a call sends. -/
def StakeManager.ExecuteMsg.txType : ExecuteMsg → Option TxType
  | .initPool _ => some .setWithdrawAddr
  | .migratePool _ => some .setWithdrawAddr
  | .redeemTokenForShare _ _ => some .redeemTokenForShare
  | .withdraw _ _ _ => some .userWithdraw
  | .poolRmValidator _ _ => some .rmValidator
  | .poolUpdateValidator _ _ _ => some .updateValidator
  | .eraUpdate _ => some .eraUpdate
  | .eraBond _ _ => some .eraBond
  | .eraCollectWithdraw _ => some .eraCollectWithdraw
  | .eraRebond _ _ => some .eraRebond
  | .stakeLsm _ _ => some .stakeLsm
  | _ => none

/-- The kind of a payload, when it is of pool `a` and one of `kinds`. -/
def kindFor (kinds : TxType → Bool) (a : String) :
    Option SudoPayload → Option TxType
  | some payload =>
      if payload.poolAddr = a ∧ kinds payload.txType = true then
        some payload.txType
      else none
  | none => none

/-- The kind of a packet, when it is of pool `a`. -/
def Packet.kind (packet : Packet) (a : String) : Option TxType :=
  kindFor (fun _ => true) a packet.payload

/-- A packet of kind `txType` of pool `a` waits for its answer. -/
def World.Unanswered (w : World) (a : String) (txType : TxType)
    (id : PacketId) : Prop :=
  ∃ packet payload, w.pending id = some packet ∧
    packet.payload = some payload ∧ payload.poolAddr = a ∧
    payload.txType = txType

/-- The unanswered packets of pool `a` of the given kinds. -/
def World.waiting (w : World) (kinds : TxType → Bool) (a : String) :
    Map PacketId TxType :=
  fun id => (w.pending id).bind fun packet => kindFor kinds a packet.payload

section

variable {kinds : TxType → Bool} {a : String} {txType : TxType}
  {payload : SudoPayload} {sub : SubMsg}

theorem kindFor_eq_some {o : Option SudoPayload} :
    kindFor kinds a o = some txType ↔ ∃ payload, o = some payload ∧
      payload.poolAddr = a ∧ payload.txType = txType ∧
      kinds txType = true := by
  cases o with
  | none => simp [kindFor]
  | some payload =>
      simp only [kindFor, Option.ite_none_right_eq_some, Option.some.injEq,
        exists_eq_left']
      constructor
      · rintro ⟨⟨ha, hk⟩, rfl⟩
        exact ⟨ha, rfl, hk⟩
      · rintro ⟨ha, rfl, hk⟩
        exact ⟨⟨ha, hk⟩, rfl⟩

theorem Packet.kind_eq_some {packet : Packet} :
    packet.kind a = some txType ↔ ∃ payload, packet.payload = some payload ∧
      payload.poolAddr = a ∧ payload.txType = txType := by
  simp [Packet.kind, kindFor_eq_some]

theorem Packet.kind_elsewhere {packet : Packet}
    (h : ∀ payload, packet.payload = some payload → payload.poolAddr ≠ a) :
    packet.kind a = none := by
  cases hkind : packet.kind a with
  | none => rfl
  | some txType =>
      obtain ⟨payload, hpayload, hpool, -⟩ := Packet.kind_eq_some.mp hkind
      exact absurd hpool (h payload hpayload)

theorem calls_type {b : String} {txType' : TxType} (h : Calls sub a txType)
    (h' : Calls sub b txType') : txType = txType' := by
  obtain ⟨payload, hpayload, -, rfl⟩ := h
  obtain ⟨payload', hpayload', -, rfl⟩ := h'
  rw [Option.some.inj (hpayload.symm.trans hpayload')]

theorem kindFor_of_calls (h : Calls sub a txType) :
    kindFor kinds a sub.payload =
      if kinds txType = true then some txType else none := by
  obtain ⟨payload, hpayload, rfl, rfl⟩ := h
  simp [kindFor, hpayload]

theorem kindFor_of_not_calls (h : ∀ txType, kinds txType = true →
    ¬ Calls sub a txType) : kindFor kinds a sub.payload = none := by
  cases hkind : kindFor kinds a sub.payload with
  | none => rfl
  | some txType =>
      obtain ⟨payload, hpayload, hpool, htype, hk⟩ := kindFor_eq_some.mp hkind
      exact absurd ⟨payload, hpayload, hpool, htype⟩ (h txType hk)

end

namespace World

variable {net : Network} {w w' : World} {ev : Event} {a : String}
  {p p' : PoolInfo} {kinds : TxType → Bool} {txType : TxType}
  {id : PacketId} {sender : String} {msg : ExecuteMsg}

theorem waiting_eq_some : w.waiting kinds a id = some txType ↔
    w.Unanswered a txType id ∧ kinds txType = true := by
  simp only [waiting, Option.bind_eq_some_iff, kindFor_eq_some, Unanswered]
  constructor
  · rintro ⟨packet, hpacket, payload, hpayload, hpool, htype, hk⟩
    exact ⟨⟨packet, payload, hpacket, hpayload, hpool, htype⟩, hk⟩
  · rintro ⟨⟨packet, payload, hpacket, hpayload, hpool, htype⟩, hk⟩
    exact ⟨packet, hpacket, payload, hpayload, hpool, htype, hk⟩

/-- A packet that waits after a transaction did so before, or has just been
sent. -/
theorem pending_of_sends {sent : Option SubMsg} {other : PacketId}
    {packet : Packet} (h : Sends sent id sender msg w w')
    (hother : w'.pending other = some packet) :
    w.pending other = some packet ∨ ∃ sub ∈ sent, other = id ∧
      packet = sub.packet sender msg := by
  cases sent with
  | none => exact .inl (h.1 ▸ hother)
  | some sub =>
      rw [h.2.2, Map.save_apply] at hother
      split at hother
      case isTrue hid =>
          exact .inr ⟨sub, rfl, hid, (Option.some.inj hother).symm⟩
      case isFalse => exact .inl hother

/-- A packet that waits before a transaction still does afterwards. -/
theorem pending_after_sends {sent : Option SubMsg} {other : PacketId}
    {packet : Packet} (hs : Sound net w) (h : Sends sent id sender msg w w')
    (hother : w.pending other = some packet) :
    w'.pending other = some packet := by
  cases sent with
  | none => exact h.1 ▸ hother
  | some sub =>
      have hne : other ≠ id := by
        rintro rfl
        exact h.1 (hs.usedPending other packet hother)
      rw [h.2.2, Map.save_of_ne hne, hother]

theorem pending_of_remove {other : PacketId} {packet : Packet}
    (h : w'.pending = w.pending.remove id)
    (hother : w'.pending other = some packet) :
    w.pending other = some packet := by
  rw [h, Map.remove_apply] at hother
  split at hother
  · cases hother
  · exact hother

theorem unanswered_of_sends {sent : Option SubMsg} {other : PacketId}
    (h : Sends sent id sender msg w w')
    (hother : w'.Unanswered a txType other) :
    w.Unanswered a txType other ∨ ∃ sub ∈ sent, Calls sub a txType := by
  obtain ⟨packet, payload, hpacket, hpayload, hpool, htype⟩ := hother
  rcases pending_of_sends h hpacket with hold | ⟨sub, hsub, -, rfl⟩
  · exact .inl ⟨packet, payload, hold, hpayload, hpool, htype⟩
  · exact .inr ⟨sub, hsub, payload, hpayload, hpool, htype⟩

theorem unanswered_of_remove {other : PacketId}
    (h : w'.pending = w.pending.remove id)
    (hother : w'.Unanswered a txType other) :
    w.Unanswered a txType other := by
  obtain ⟨packet, payload, hpacket, hpayload, hpool, htype⟩ := hother
  exact ⟨packet, payload, pending_of_remove h hpacket, hpayload, hpool, htype⟩

/-- The waiting packets after a transaction. -/
theorem waiting_of_sends {sent : Option SubMsg} (hs : Sound net w)
    (h : Sends sent id sender msg w w') :
    w'.waiting kinds a =
      match sent.bind fun sub => kindFor kinds a sub.payload with
      | none => w.waiting kinds a
      | some txType => (w.waiting kinds a).save id txType := by
  cases sent with
  | none =>
      unfold waiting
      rw [h.1]
      rfl
  | some sub =>
      obtain ⟨hfresh, -, hpending⟩ := h
      have hnone : w.waiting kinds a id = none := by
        cases hid : w.pending id with
        | none => simp [waiting, hid]
        | some packet => exact absurd (hs.usedPending id packet hid) hfresh
      have hothers : ∀ other, other ≠ id →
          w'.waiting kinds a other = w.waiting kinds a other := by
        intro other hother
        simp only [waiting, hpending, Map.save_of_ne hother]
      have hself : w'.waiting kinds a id = kindFor kinds a sub.payload := by
        simp [waiting, hpending, SubMsg.packet]
      simp only [Option.bind_some]
      split
      case h_1 hkind =>
          funext other
          by_cases hother : other = id
          · rw [hother, hself, hkind, hnone]
          · exact hothers other hother
      case h_2 txType hkind =>
          funext other
          by_cases hother : other = id
          · rw [hother, hself, hkind, Map.save_self]
          · rw [Map.save_of_ne hother]
            exact hothers other hother

/-- The waiting packets after a transaction that sends a packet of another
kind, or none. -/
theorem waiting_of_sends_other {sent : Option SubMsg} (hs : Sound net w)
    (h : Sends sent id sender msg w w')
    (hother : ∀ sub ∈ sent, ∀ txType, kinds txType = true →
      ¬ Calls sub a txType) : w'.waiting kinds a = w.waiting kinds a := by
  rw [waiting_of_sends hs h]
  cases sent with
  | none => rfl
  | some sub =>
      simp only [Option.bind_some]
      rw [kindFor_of_not_calls (hother sub rfl)]

theorem waiting_of_sends_calls {sub : SubMsg} (hs : Sound net w)
    (h : Sends (some sub) id sender msg w w') (hcalls : Calls sub a txType)
    (hkind : kinds txType = true) :
    w'.waiting kinds a = (w.waiting kinds a).save id txType := by
  rw [waiting_of_sends hs h]
  simp only [Option.bind_some]
  rw [kindFor_of_calls hcalls, if_pos hkind]

theorem waiting_of_remove (h : w'.pending = w.pending.remove id) :
    w'.waiting kinds a = (w.waiting kinds a).remove id := by
  funext other
  simp only [waiting, h, Map.remove_apply]
  split <;> rfl

theorem waiting_of_pending (h : w'.pending = w.pending) :
    w'.waiting kinds a = w.waiting kinds a := by
  unfold waiting
  rw [h]

theorem waiting_other {packet : Packet} {payload : SudoPayload}
    (hpacket : w.pending id = some packet)
    (hpayload : packet.payload = some payload)
    (hkind : kinds payload.txType = false) : w.waiting kinds a id = none := by
  simp [waiting, hpacket, hpayload, kindFor, hkind]

theorem waiting_elsewhere {packet : Packet}
    (hpacket : w.pending id = some packet)
    (helsewhere : ∀ payload, packet.payload = some payload →
      payload.poolAddr ≠ a) : w.waiting kinds a id = none := by
  cases hpayload : packet.payload with
  | none => simp [waiting, hpacket, hpayload, kindFor]
  | some payload =>
      simp [waiting, hpacket, hpayload, kindFor, helsewhere payload hpayload]

/-- The answer to a packet of another kind leaves the waiting ones alone. -/
theorem waiting_of_remove_other (h : w'.pending = w.pending.remove id)
    (hother : w.waiting kinds a id = none) :
    w'.waiting kinds a = w.waiting kinds a := by
  rw [waiting_of_remove h]
  funext other
  rw [Map.remove_apply]
  split
  · rename_i heq
    rw [heq, hother]
  · rfl

/-- A property of the record of a pool holds after a step when every move
establishes it, and it holds of a pool that has just come into being. -/
theorem pool_invariant {I J : PoolInfo → Prop} (hs : Sound net w)
    (hstep : w.step net ev = some w')
    (hI : ∀ p, w.store.pools a = some p → I p)
    (hmove : ∀ p p', w.store.pools a = some p →
      w'.store.pools a = some p' → I p → PoolMove net w ev w' a p p' → J p')
    (hnew : ∀ icaId admin, w.store.pools a = none →
      w'.pending = w.pending →
      (∀ txType id, ¬ w'.Unanswered a txType id) →
      (∀ querier info msg id, ev.action ≠ .execute querier info msg id) →
      (∀ id answer querier bankAccepts,
        ev.action ≠ .answer id answer querier bankAccepts) →
      J (registeredPool icaId admin)) :
    ∀ p', w'.store.pools a = some p' → J p' := by
  intro p' hp'
  cases hp : w.store.pools a with
  | none =>
      obtain ⟨⟨icaId, admin, _, rfl, -⟩, hpending, hexecute, hanswer⟩ :=
        pool_created hs hstep hp hp'
      refine hnew icaId admin hp hpending ?_ hexecute hanswer
      rintro txType id ⟨packet, payload, hpacket, hpayload, rfl, -⟩
      rw [hpending] at hpacket
      obtain ⟨q, hq⟩ := hs.homed id packet payload hpacket hpayload
      exact absurd (hp.symm.trans hq) (by simp)
  | some p =>
      obtain ⟨next, hnext, hmove'⟩ := pool_move hs hstep hp
      obtain rfl := Option.some.inj (hnext.symm.trans hp')
      exact hmove p next hp hnext (hI p hp) hmove'

theorem idle_of_not_unanswered {kinds : TxType → Bool}
    (h : ∀ txType id, ¬ w.Unanswered a txType id) :
    Idle (w.waiting kinds a) := by
  intro id
  cases hid : w.waiting kinds a id with
  | none => rfl
  | some txType => exact absurd (waiting_eq_some.mp hid).1 (h txType id)

/-- The packet that an event answers. -/
def answeredId (ev : Event) : Option PacketId :=
  match ev.action with
  | .answer id _ _ _ => some id
  | _ => none

/-- The pool that a call migrates to this contract. -/
def migrated (ev : Event) : Option MigratePoolParams :=
  match ev.action with
  | .execute _ _ (.migratePool param) _ => some param
  | _ => none

/-- No pool is started by a migration to address `a`. -/
def StartsByInit (a : String) (w : World) (ev : Event) : Prop :=
  ∀ param ∈ migrated ev,
    (ExecuteMsg.migratePool param).target w.store = some a →
      ∀ p ∈ w.store.pools a, p.status ≠ .registerEnded

instance (a : String) (w : World) (ev : Event) :
    Decidable (StartsByInit a w ev) :=
  inferInstanceAs (Decidable (∀ param ∈ migrated ev,
    (ExecuteMsg.migratePool param).target w.store = some a →
      ∀ p ∈ w.store.pools a, p.status ≠ .registerEnded))

end World

end NeutronContracts
