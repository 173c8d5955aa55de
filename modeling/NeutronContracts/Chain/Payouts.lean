/-
The withdrawals that wait for an answer: which records a packet pays, what its
message remembers of them, and how an accepted event changes the records, the
lists of the users and the waiting withdrawals together.
-/
import NeutronContracts.Chain.Records
import NeutronContracts.Chain.EraProtocol
import NeutronContracts.StakeManager.Withdrawal

namespace NeutronContracts

open StakeManager Fallible

/-- What a withdrawal packet is for. -/
structure Payout where
  sender : String
  pool : String
  receiver : String
  /-- the `unstake_index_list` of the call -/
  indexes : List Nat
  /-- what the packet sends to the receiver -/
  amount : Nat

/-- The records that the packet pays. -/
def Payout.keys (payout : Payout) : List (String × Nat) :=
  recordKeys payout.pool payout.indexes

/-- What the message of the packet tells its callbacks. -/
def Payout.message (payout : Payout) : String :=
  withdrawMessage payout.amount payout.sender payout.receiver payout.indexes

/-- A packet that a withdrawal has sent. -/
def Packet.payout (packet : Packet) : Option Payout :=
  match packet.payload, packet.origin with
  | some payload, .withdraw poolAddr receiver indexes =>
      if payload.txType = .userWithdraw then
        some
          { sender := packet.sender
            pool := poolAddr
            receiver := receiver
            indexes := indexes
            amount := hostTotal (HostMsg.sentTo receiver) packet.msg }
      else none
  | _, _ => none

theorem payout_of_other {packet : Packet} (h : ∀ payload,
    packet.payload = some payload → payload.txType ≠ .userWithdraw) :
    packet.payout = none := by
  unfold Packet.payout
  split
  · rename_i payload _ _ _ hpayload _
    rw [if_neg (h payload hpayload)]
  · rfl

theorem payout_of_origin {packet : Packet} (h : ∀ poolAddr receiver indexes,
    packet.origin ≠ .withdraw poolAddr receiver indexes) :
    packet.payout = none := by
  unfold Packet.payout
  split
  · rename_i horigin
    exact absurd horigin (h _ _ _)
  · rfl

namespace World

variable {net : Network} {w w' : World} {ev : Event} {id : PacketId}
  {payout : Payout}

/-- The withdrawals that wait for an answer. -/
def payouts (w : World) : Map PacketId Payout :=
  fun id => (w.pending id).bind Packet.payout

/-- The withdrawal that an event answers. -/
def answeredPayout (w : World) (ev : Event) :
    Option (PacketId × Answer × Payout) :=
  match ev.action with
  | .answer id answer _ _ => (w.payouts id).map fun payout =>
      (id, answer, payout)
  | _ => none

theorem payouts_of_pending (h : w'.pending = w.pending) :
    w'.payouts = w.payouts := by
  unfold payouts
  rw [h]

theorem payouts_of_remove (h : w'.pending = w.pending.remove id) :
    w'.payouts = w.payouts.remove id := by
  funext other
  simp only [payouts, h, Map.remove_apply]
  split <;> rfl

theorem payouts_of_remove_other (h : w'.pending = w.pending.remove id)
    (hid : w.payouts id = none) : w'.payouts = w.payouts := by
  rw [payouts_of_remove h]
  funext other
  rw [Map.remove_apply]
  split
  · rename_i hother
    rw [hother, hid]
  · rfl

theorem payouts_fresh (hs : Sound net w) (hfresh : id ∉ w.used) :
    w.payouts id = none := by
  cases hid : w.pending id with
  | none => simp [payouts, hid]
  | some packet => exact absurd (hs.usedPending id packet hid) hfresh

theorem payouts_of_sends {sub : SubMsg} {sender : String} {msg : ExecuteMsg}
    (h : Sends (some sub) id sender msg w w')
    (hpayout : (sub.packet sender msg).payout = some payout) :
    w'.payouts = w.payouts.save id payout := by
  funext other
  rw [Map.save_apply]
  split
  · rename_i hother
    rw [hother, payouts, h.2.2, Map.save_self]
    exact hpayout
  · rename_i hother
    rw [payouts, h.2.2, Map.save_of_ne hother]
    rfl

/-- A transaction that is no withdrawal leaves the withdrawals alone. -/
theorem payouts_of_sends_other (hs : Sound net w) {sent : Option SubMsg}
    {sender : String} {msg : ExecuteMsg} (h : Sends sent id sender msg w w')
    (hmsg : ∀ poolAddr receiver indexes,
      msg ≠ .withdraw poolAddr receiver indexes) :
    w'.payouts = w.payouts := by
  cases sent with
  | none => exact payouts_of_pending h.1
  | some sub =>
      have hnone : (sub.packet sender msg).payout = none :=
        payout_of_origin hmsg
      funext other
      by_cases hother : other = id
      · rw [hother, payouts_fresh hs h.1, payouts, h.2.2, Map.save_self]
        exact hnone
      · rw [payouts, h.2.2, Map.save_of_ne hother]
        rfl

/-! ### What the packets remember -/

/-- A withdrawal packet remembers what it pays. -/
structure Carries (packet : Packet) (payload : SudoPayload)
    (payout : Payout) : Prop where
  asked : packet.payout = some payout
  pool : payload.poolAddr = payout.pool
  message : payload.message = payout.message
  account : isAccount payout.sender = true
  nonempty : payout.indexes ≠ []

/-- Every withdrawal packet that waits has been sent by a withdrawal. -/
def Traced (w : World) : Prop :=
  ∀ id packet payload, w.pending id = some packet →
    packet.payload = some payload → payload.txType = .userWithdraw →
    ∃ payout, Carries packet payload payout

theorem hostTotal_genMsgSend {tx : SubmitTx} {b receiver denom : String}
    {total : Nat} (h : tx.msgs = [genMsgSend b receiver denom total]) :
    hostTotal (HostMsg.sentTo receiver) (.submitTx tx) = total := by
  simp [hostTotal, hostMsgs, h, genMsgSend, HostMsg.sentTo]

/-- The packet of an accepted withdrawal. -/
theorem withdraw_sends {querier : Querier} {info : MessageInfo}
    {b receiver : String} {indexes : List Nat} {store : Storage}
    {rsp : Response} {sent : Option SubMsg}
    (hexec : Executed net w w' querier info (.withdraw b receiver indexes) id
      store rsp sent) :
    ∃ sub payload payout, sent = some sub ∧ sub.payload = some payload ∧
      payout.sender = info.sender ∧ payout.pool = b ∧
      payout.receiver = receiver ∧ payout.indexes = indexes ∧
      (∃ p next, w.store.pools b = some p ∧
        withdrawRecords info.sender b p w.store 0 indexes =
          .ok (next, payout.amount)) ∧
      Carries (sub.packet info.sender (.withdraw b receiver indexes)) payload
        payout := by
  obtain ⟨p, next, total, tx, payload, hp, hne, hrecords, hmsgs, htext, hpool,
    htype, -, hrsp⟩ := executeWithdraw_ok hexec.call
  have hpackets : packets rsp.messages = (some (⟨.submitTx tx,
      some next.replyId, some payload⟩ : SubMsg)).toList := by
    rw [hrsp]
    rfl
  have htotal := hostTotal_genMsgSend hmsgs
  refine ⟨_, payload, ⟨info.sender, b, receiver, indexes, total⟩,
    hexec.sent_eq hpackets, rfl, rfl, rfl, rfl, rfl,
    ⟨p, next, hp, hrecords⟩, ?_, hpool, htext, hexec.account, hne⟩
  simp [Packet.payout, SubMsg.packet, htype, htotal]

theorem traced_step (hs : Sound net w) (hstep : w.step net ev = some w')
    (h : Traced w) : Traced w' := by
  intro id packet payload hpacket hpayload htype
  cases traffic_of_step hs hstep with
  | quiet _ hpending =>
      rw [hpending] at hpacket
      exact h id packet payload hpacket hpayload htype
  | answered _ hpending =>
      exact h id packet payload (pending_of_remove hpending hpacket) hpayload
        htype
  | @sent querier info msg _ _ haction =>
      obtain ⟨store, rsp, sent, hexec⟩ := executed_of_step hs hstep haction
      rcases pending_of_sends hexec.sends hpacket with
        hold | ⟨sub, hsub, rfl, rfl⟩
      · exact h id packet payload hold hpayload htype
      · obtain ⟨p, hp⟩ := hexec.outcome.homed sub hsub payload hpayload
        obtain ⟨p', -, hmove⟩ := hexec.outcome.step _ p hp
        obtain rfl : sent = some sub := hsub
        have hkind := (ExecStep.sends hmove ⟨payload, hpayload, rfl, htype⟩).1
        cases msg with
        | withdraw b receiver indexes =>
            obtain ⟨sub', payload', payout, hsent, hpayload', -, -, -, -, -,
              hcarries⟩ := withdraw_sends hexec
            obtain rfl := Option.some.inj hsent
            obtain rfl := Option.some.inj (hpayload.symm.trans hpayload')
            exact ⟨payout, hcarries⟩
        | _ => cases hkind

/-- What an event that answers no withdrawal does to the records, the lists of
the users and the waiting withdrawals. -/
inductive RequestMove (w w' : World) : Prop
  | made {b sender p token burned}
      (hp : w.store.pools b = some p) (hrate : p.rate ≠ 0)
      (hlimit : p.nextUnstakeIndex + 1 < U64.limit)
      (hpools : w'.store.pools =
        w.store.pools.save b (unstaked p token burned))
      (hrecords : w'.store.unstakesOfIndex =
        w.store.unstakesOfIndex.save (b, p.nextUnstakeIndex + 1)
          { era := p.era
            poolAddr := b
            unstaker := sender
            amount := token - 5
            status := .idle
            index := p.nextUnstakeIndex + 1 })
      (hindexes : w'.store.unstakesIndexForUser =
        w.store.unstakesIndexForUser.save (sender, b)
          (w.store.indexesOf sender b ++ [p.nextUnstakeIndex + 1]))
      (hpayouts : w'.payouts = w.payouts) : RequestMove w w'
  | requested {id : PacketId} {payout : Payout}
      (hfresh : w.payouts id = none)
      (hpayouts : w'.payouts = w.payouts.save id payout)
      (hnodup : payout.indexes.Nodup)
      (hfree : ∀ index ∈ payout.indexes, ∃ info,
        w.store.unstakesOfIndex (payout.pool, index) = some info ∧
          info.unstaker = payout.sender ∧ info.status = .idle)
      (hamount :
        payout.amount = (payout.keys.map w.store.amountAt).sum)
      (hrecords : w'.store.unstakesOfIndex =
        w.store.unstakesOfIndex.updateAll (.withStatus .pending) payout.keys)
      (hindexes :
        w'.store.unstakesIndexForUser = w.store.unstakesIndexForUser) :
      RequestMove w w'
  | kept (hpayouts : w'.payouts = w.payouts)
      (hsame : SameRecords w.store w'.store) : RequestMove w w'

/-- How an accepted event changes the records, the lists of the users and the
waiting withdrawals. -/
inductive ClaimMove (w : World) (ev : Event) (w' : World) : Prop
  | request (hanswer : w.answeredPayout ev = none)
      (hmove : RequestMove w w') : ClaimMove w ev w'
  | settled {id : PacketId} {payout : Payout}
      (hanswer : w.answeredPayout ev = some (id, .success, payout))
      (hpayouts : w'.payouts = w.payouts.remove id)
      (haccount : isAccount payout.sender = true)
      (hrecords : w'.store.unstakesOfIndex =
        w.store.unstakesOfIndex.removeAll (recordKeys payout.pool
          ((w.store.indexesOf payout.sender payout.pool).filter fun index =>
            decide (toString index ∈ settledTexts payout.sender
              payout.receiver payout.indexes))))
      (hindexes : ∀ user other, w'.store.indexesOf user other =
        if user = payout.sender ∧ other = payout.pool then
          (w.store.indexesOf payout.sender payout.pool).filter fun index =>
            decide (toString index ∉ settledTexts payout.sender
              payout.receiver payout.indexes)
        else w.store.indexesOf user other) : ClaimMove w ev w'
  | restored {id : PacketId} {answer} {payout : Payout}
      {restored : List Nat}
      (hanswer : w.answeredPayout ev = some (id, answer, payout))
      (hfailed : answer ≠ .success)
      (hpayouts : w'.payouts = w.payouts.remove id)
      (hparse : (restoredTexts payout.receiver payout.indexes).map U64.parse =
        restored.map some)
      (hrecords : w'.store.unstakesOfIndex =
        w.store.unstakesOfIndex.updateAll (.withStatus .idle)
          (recordKeys payout.pool restored))
      (hindexes :
        w'.store.unstakesIndexForUser = w.store.unstakesIndexForUser) :
      ClaimMove w ev w'
  | lost {id : PacketId} {answer} {payout : Payout}
      (hanswer : w.answeredPayout ev = some (id, answer, payout))
      (hfailed : answer ≠ .success)
      (hunread : ∀ restored : List Nat,
        (restoredTexts payout.receiver payout.indexes).map U64.parse =
          restored.map some →
        ∃ index ∈ restored,
          w.store.unstakesOfIndex (payout.pool, index) = none)
      (hpayouts : w'.payouts = w.payouts.remove id)
      (hsame : SameRecords w.store w'.store) : ClaimMove w ev w'

theorem answeredPayout_of_execute {querier : Querier} {info : MessageInfo}
    {msg : ExecuteMsg} (haction : ev.action = .execute querier info msg id) :
    w.answeredPayout ev = none := by
  simp [answeredPayout, haction]

theorem answeredPayout_of_answer {answer : Answer} {querier : Querier}
    {bankAccepts : Bool} {packet : Packet}
    (haction : ev.action = .answer id answer querier bankAccepts)
    (hpacket : w.pending id = some packet) :
    w.answeredPayout ev = packet.payout.map fun payout =>
      (id, answer, payout) := by
  simp [answeredPayout, haction, payouts, hpacket]

/-- An account has no separator in it, and no numeral is an account. -/
theorem sep_not_mem_account {s : String} (h : isAccount s = true) :
    '_' ∉ s.toList := by
  intro hmem
  simp only [isAccount, Bool.and_eq_true, List.all_eq_true] at h
  exact absurd (h.2 '_' hmem) (by decide)

theorem toString_ne_account {s : String} (h : isAccount s = true) (n : Nat) :
    toString n ≠ s := by
  rintro rfl
  simp only [isAccount, Bool.and_eq_true, List.isPrefixOf_iff_prefix] at h
  obtain ⟨rest, hrest⟩ := h.1
  have hmem : 'n' ∈ (toString n).toList := by
    rw [← hrest]
    exact List.mem_append_left _ (by decide)
  exact absurd (Text.isDigit_of_mem_toString hmem) (by decide)

/-- The new index of an unstake is a number of 64 bits. -/
theorem unstake_numbered {store store' : Storage} {info : MessageInfo}
    {amount : Nat} {b : String} {rsp : Response} {p : PoolInfo}
    (h : executeUnstake store info amount b = .ok (store', rsp))
    (hp : store.pools b = some p) : p.nextUnstakeIndex + 1 < U64.limit := by
  simp only [executeUnstake, bind_eq_ok, orError_eq_ok, rejectIf_eq_ok] at h
  obtain ⟨_, -, q, hq, _, -, _, -, _, -, _, -, _, -, _, -, _, hnext, -⟩ := h
  obtain rfl := Option.some.inj (hp.symm.trans hq)
  obtain ⟨hlimit, -⟩ := addBelow_eq_ok.mp hnext
  exact hlimit

theorem claim_move_of_answer (htraced : Traced w) {answer : Answer}
    {querier : Querier} {bankAccepts : Bool} {packet : Packet}
    {payload : SudoPayload} {store : Storage} {rsp : Response} {env : Env}
    (haction : ev.action = .answer id answer querier bankAccepts)
    (hpacket : w.pending id = some packet)
    (hpayload : packet.payload = some payload)
    (htype : payload.txType = .userWithdraw)
    (hcall : callback (w.afterTake id) env payload answer = .ok (store, rsp))
    (hrecords : SameRecords store w'.store)
    (hpending : w'.pending = w.pending.remove id) : ClaimMove w ev w' := by
  obtain ⟨payout, hcarries⟩ := htraced id packet payload hpacket hpayload htype
  have hanswer : w.answeredPayout ev = some (id, answer, payout) := by
    rw [answeredPayout_of_answer haction hpacket, hcarries.asked]
    rfl
  have hpayouts := payouts_of_remove hpending
  have hsender := sep_not_mem_account hcarries.account
  have hrestored : answer ≠ .success →
      sudoWithdrawFailedCallback (w.afterTake id) payload =
        .ok (store, rsp) → ClaimMove w ev w' := by
    intro hfailed hcall
    obtain ⟨restored, hparse, hupdated, hindexes⟩ :=
      sudoWithdrawFailedCallback_eq hsender hcarries.nonempty
        hcarries.message hcall
    rw [hcarries.pool] at hupdated
    exact .restored hanswer hfailed hpayouts hparse
      (hrecords.records.trans hupdated) (hrecords.indexes.trans hindexes)
  cases answer with
  | success =>
      simp only [callback, sudoCallback, htype] at hcall
      obtain ⟨hremoved, hindexes⟩ := sudoWithdrawCallback_eq hsender
        hcarries.nonempty hcarries.message hcall
      rw [hcarries.pool] at hremoved hindexes
      refine .settled hanswer hpayouts hcarries.account
        (hrecords.records.trans hremoved) fun user other => ?_
      rw [Storage.indexesOf, hrecords.indexes]
      exact hindexes user other
  | error =>
      simp only [callback, sudoFailedCallback, htype] at hcall
      exact hrestored (by decide) hcall
  | timeout =>
      simp only [callback, sudoFailedCallback, htype] at hcall
      exact hrestored (by decide) hcall

/-- A callback that fails has met a piece that is no index of a record. -/
theorem claim_move_of_drop (htraced : Traced w) {answer : Answer}
    {querier : Querier} {bankAccepts : Bool} {packet : Packet}
    {payload : SudoPayload} {env : Env}
    (haction : ev.action = .answer id answer querier bankAccepts)
    (hpacket : w.pending id = some packet)
    (hpayload : packet.payload = some payload)
    (htype : payload.txType = .userWithdraw)
    (hdropped : ∀ result,
      callback (w.afterTake id) env payload answer ≠ .ok result)
    (hsame : SameRecords w.store w'.store)
    (hpending : w'.pending = w.pending.remove id) : ClaimMove w ev w' := by
  obtain ⟨payout, hcarries⟩ := htraced id packet payload hpacket hpayload htype
  have hanswer : w.answeredPayout ev = some (id, answer, payout) := by
    rw [answeredPayout_of_answer haction hpacket, hcarries.asked]
    rfl
  have hsender := sep_not_mem_account hcarries.account
  have hlost : answer ≠ .success → (∀ result,
      sudoWithdrawFailedCallback (w.afterTake id) payload ≠ .ok result) →
      ClaimMove w ev w' := by
    intro hfailed hdropped
    refine .lost hanswer hfailed (fun restored hparse => ?_)
      (payouts_of_remove hpending) hsame
    by_contra hall
    push Not at hall
    rw [← hcarries.pool] at hall
    obtain ⟨result, hresult⟩ := sudoWithdrawFailedCallback_total
      (w.afterTake id) hsender hcarries.nonempty hcarries.message hparse hall
    exact hdropped result hresult
  cases answer with
  | success =>
      simp only [callback, sudoCallback, htype] at hdropped
      obtain ⟨result, hresult⟩ := sudoWithdrawCallback_total (w.afterTake id)
        hsender hcarries.nonempty hcarries.message
      exact absurd hresult (hdropped result)
  | error =>
      simp only [callback, sudoFailedCallback, htype] at hdropped
      exact hlost (by decide) hdropped
  | timeout =>
      simp only [callback, sudoFailedCallback, htype] at hdropped
      exact hlost (by decide) hdropped

/-- An event that touches no record answers no withdrawal and makes none. -/
theorem claim_move_of_other (hs : Sound net w)
    (hstep : w.step net ev = some w')
    (hexecute : ∀ querier info msg id,
      ev.action = .execute querier info msg id → msg.writesRecords = false)
    (hanswer : ∀ id answer querier bankAccepts packet payload,
      ev.action = .answer id answer querier bankAccepts →
        w.pending id = some packet → packet.payload = some payload →
          payload.txType ≠ .userWithdraw)
    (hsame : SameRecords w.store w'.store) : ClaimMove w ev w' := by
  have hidle : (∀ querier info msg id,
      ev.action ≠ .execute querier info msg id) →
      (∀ id answer querier bankAccepts,
        ev.action ≠ .answer id answer querier bankAccepts) →
      ClaimMove w ev w' := by
    intro hcall hanswered
    refine .request ?_ (.kept ?_ hsame)
    · unfold answeredPayout
      split
      · rename_i haction
        exact absurd haction (hanswered _ _ _ _)
      · rfl
    · cases traffic_of_step hs hstep with
      | quiet _ hpending => exact payouts_of_pending hpending
      | sent haction => exact absurd haction (hcall _ _ _ _)
      | answered haction => exact absurd haction (hanswered _ _ _ _)
  cases haction : ev.action with
  | execute querier info msg id =>
      obtain ⟨store, rsp, sent, hexec⟩ := executed_of_step hs hstep haction
      refine .request (answeredPayout_of_execute haction)
        (.kept (payouts_of_sends_other hs hexec.sends ?_) hsame)
      rintro poolAddr receiver indexes rfl
      cases hexecute _ _ _ _ haction
  | answer id answer querier bankAccepts =>
      obtain ⟨packet, hpacket, hhandled⟩ := handled_of_step hs hstep haction
      have hnone : packet.payout = none :=
        payout_of_other fun payload hpayload =>
          hanswer _ _ _ _ packet payload haction hpacket hpayload
      refine .request ?_ (.kept ?_ hsame)
      · rw [answeredPayout_of_answer haction hpacket, hnone]
        rfl
      · refine payouts_of_remove_other hhandled.pending ?_
        simp [payouts, hpacket, hnone]
  | _ => exact hidle (by simp [haction]) (by simp [haction])

/-- Every accepted event is one of these moves. -/
theorem claim_move (hs : Sound net w) (htraced : Traced w)
    (hstep : w.step net ev = some w') : ClaimMove w ev w' := by
  cases record_move hs hstep with
  | unstaked haction hp htoken hlarge hpools hrecords hindexes hpending =>
      obtain ⟨store, rsp, sent, hexec⟩ := executed_of_step hs hstep haction
      have hrate : ∀ {rate burned : Nat}, 5 < burned * rate / calBase →
          rate ≠ 0 := by
        rintro _ burned hpos rfl
        simp at hpos
      rw [htoken] at hlarge
      exact .request (answeredPayout_of_execute haction)
        (.made hp (hrate hlarge) (unstake_numbered hexec.call hp) hpools
          hrecords hindexes (payouts_of_pending hpending))
  | withdrawn haction _ hp hrecords hnext hindexes _ _ _ _ _ _ _ _ =>
      obtain ⟨store, rsp, sent, hexec⟩ := executed_of_step hs hstep haction
      obtain ⟨sub, payload, payout, rfl, -, hsender, hpool, -, hlist,
        ⟨q, next', hq, hrecords'⟩, hcarries⟩ := withdraw_sends hexec
      obtain rfl := Option.some.inj (hp.symm.trans hq)
      obtain ⟨rfl, rfl⟩ :=
        Prod.mk.inj (Except.ok.inj (hrecords.symm.trans hrecords'))
      obtain ⟨hnodup, hfree, hupdated, htotal⟩ :=
        withdrawRecords_records hrecords
      rw [← hlist] at hnodup hfree
      rw [← hpool, ← hsender] at hfree
      rw [← hlist, ← hpool] at hupdated htotal
      rw [Nat.zero_add] at htotal
      exact .request (answeredPayout_of_execute haction)
        (.requested (payouts_fresh hs hexec.sends.1)
          (payouts_of_sends hexec.sends hcarries.asked) hnodup hfree htotal
          (hnext.trans hupdated) hindexes)
  | answered haction hpacket hpayload htype hcall hrecords hpools hpending =>
      exact claim_move_of_answer htraced haction hpacket hpayload htype hcall
        hrecords hpending
  | dropped haction hpacket hpayload htype hfailed hsame hpending =>
      exact claim_move_of_drop htraced haction hpacket hpayload htype hfailed
        hsame hpending
  | other hexecute hanswer hsame =>
      exact claim_move_of_other hs hstep hexecute hanswer hsame

/-- The records after a change of statuses: the same claims. -/
theorem record_updated {store store' : Storage} {status : WithdrawStatus}
    {keys : List (String × Nat)}
    (h : store'.unstakesOfIndex =
      store.unstakesOfIndex.updateAll (.withStatus status) keys) :
    OldRecords store store' ∧ OldRecords store' store := by
  constructor
  · intro key info' hinfo'
    rw [h, Map.updateAll_apply] at hinfo'
    split at hinfo'
    · obtain ⟨info, hinfo, rfl⟩ := Option.map_eq_some_iff.mp hinfo'
      exact ⟨info, hinfo, status, rfl⟩
    · exact ⟨info', hinfo', .refl _⟩
  · intro key info hinfo
    by_cases hkey : key ∈ keys
    · refine ⟨info.withStatus status, ?_, info.status, rfl⟩
      rw [h, Map.updateAll_apply, if_pos hkey, hinfo, Option.map_some]
    · refine ⟨info, ?_, .refl _⟩
      rw [h, Map.updateAll_apply, if_neg hkey, hinfo]

/-! ### The indexes of a pool -/

/-- Only the start of a pool sets its next index; afterwards it grows. -/
theorem PoolMove.nextIndex {a : String} {p p' : PoolInfo}
    (h : PoolMove net w ev w' a p p') : p.status = .registerEnded ∨
      p.nextUnstakeIndex ≤ p'.nextUnstakeIndex := by
  cases h with
  | executed haction hstep hsends =>
      cases hstep with
      | era hera =>
          cases hera with
          | init _ hstatus => exact .inl hstatus
          | migrate _ hstatus => exact .inl hstatus
          | _ => exact .inr le_rfl
      | config hpool hconfig =>
          obtain ⟨_, _, _, _, _, _, _, _, _, _, _, rfl⟩ := hconfig
          exact .inr le_rfl
      | unstake => exact .inr (Nat.le_succ _)
      | _ => exact .inr le_rfl
  | answered haction hpacket hpayload hpool hstep hpending =>
      cases hstep with
      | era hera => cases hera <;> exact .inr le_rfl
      | _ => exact .inr le_rfl
  | _ => exact .inr le_rfl

/-- No unstake of the pool has taken the index yet. -/
def Unused (w : World) (pool : String) (index : Nat) : Prop :=
  ∀ p, w.store.pools pool = some p →
    p.status = .registerEnded ∨ p.nextUnstakeIndex < index

/-- The index of an unstake is new. -/
theorem unused_next {b : String} {p : PoolInfo}
    (hp : w.store.pools b = some p) :
    Unused w b (p.nextUnstakeIndex + 1) := by
  intro q hq
  obtain rfl := Option.some.inj (hp.symm.trans hq)
  exact .inr (Nat.lt_succ_self _)

theorem unused_of_step (hs : Sound net w) (hstep : w.step net ev = some w')
    {pool : String} {index : Nat} (h : Unused w' pool index) :
    Unused w pool index := by
  intro p hp
  obtain ⟨p', hp', hmove⟩ := pool_move hs hstep hp
  rcases h p' hp' with hfresh | hless
  · exact .inl (hmove.registered hfresh)
  · rcases hmove.nextIndex with hfresh | hle
    · exact .inl hfresh
    · exact .inr (lt_of_le_of_lt hle hless)

end World

end NeutronContracts
