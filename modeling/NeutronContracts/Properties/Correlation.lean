/-
Answers reach the callback with the payload that was given for their packet,
whatever calls nest: a payload travels through the ring of reply ids to its
packet and is found there by one answer, provided the ring has not gone round
before the reply has come.
-/
import NeutronContracts.Chain.Nested
import NeutronContracts.Properties.QueryIds

namespace NeutronContracts

open StakeManager Fallible

namespace Nest

/-- Every answer runs the callback of the payload that was given for its
packet, and the answers that follow one that was taken are refused and change
nothing. -/
structure Correlated (net : Network) (s : Nest) : Prop where
  runs : ∀ id payload, s.log.sent id = some (some payload) →
    id ∉ s.log.taken → ∀ answer,
      sudoEntry s.world.store (s.world.env net) (World.answerMsg id answer) =
        callback (s.world.afterTake id) (s.world.env net) payload answer
  once : s.log.taken.Nodup
  refused : ∀ id ∈ s.log.taken, ∀ answer,
    sudoEntry s.world.store (s.world.env net) (World.answerMsg id answer) =
        .error .callBackErrErrorMsg ∧
      ∀ querier bankAccepts, s.frames = [] →
        s.step net (.answer id answer querier bankAccepts) = some s

/-- When the reply to a packet comes, the ring of reply ids has not gone round
since the payload of the packet was saved. -/
def HasRoom (s : Nest) : Event → Prop
  | .deliver _ => ∀ frame ∈ s.frames.head?, ∀ out ∈ frame.rest.head?,
      out.sub.payload.isSome = true →
        s.log.saved.length ≤ frame.log.saved.length + (replyIdRangeSize + 1)
  | _ => True

/-! ### Where the payloads are -/

/-- The cell of the payload that is saved next. -/
def mailCell (log : PostLog) : Nat :=
  Wheel.cell replyIdRangeStart replyIdRangeEnd log.saved.length

/-- The storage holds what the log tells: the payloads saved last in the ring
of reply ids, those of the packets that were sent under their ids. -/
structure Recorded (w : World) (log : PostLog) : Prop where
  mailbox : w.store.mailbox =
    Wheel.fill replyIdRangeStart replyIdRangeEnd log.saved
  stored : ∀ id, w.store.sudoPayload id =
    if id ∈ log.taken then none else (log.sent id).join
  used : ∀ id, id ∈ w.used ↔ (log.sent id).isSome = true
  taken : ∀ id ∈ log.taken, (log.sent id).isSome = true
  once : log.taken.Nodup

/-- The payload of a packet that is not sent yet was the first one that was
saved by its call. -/
structure Outstanding (frame : Frame) (log : PostLog) : Prop where
  grows : frame.log.saved <+: log.saved
  payload : ∀ sub ∈ packets frame.subs, ∀ payload, sub.payload = some payload →
    sub.replyOnSuccess = some (mailCell frame.log) ∧
      log.saved[frame.log.saved.length]? = some payload
  silent : ∀ sub ∈ packets frame.subs, sub.payload = none →
    sub.replyOnSuccess = none

/-- The log is right, now and after every revert. -/
def Consistent : World → PostLog → List Frame → Prop
  | w, log, [] => Recorded w log
  | w, log, frame :: frames => Recorded w log ∧ Outstanding frame log ∧
      Consistent frame.world frame.log frames

variable {net : Network} {s s' : Nest} {w w' : World} {log log' : PostLog}
  {frame : Frame} {frames : List Frame} {ev : Event}

theorem Outstanding.mono (h : Outstanding frame log)
    (hext : log.saved <+: log'.saved) : Outstanding frame log' where
  grows := h.grows.trans hext
  payload sub hsub payload hpayload := by
    obtain ⟨hreply, hsaved⟩ := h.payload sub hsub payload hpayload
    obtain ⟨later, hlater⟩ := hext
    have hlt := (List.getElem?_eq_some_iff.mp hsaved).1
    rw [← hlater, List.getElem?_append_left hlt]
    exact ⟨hreply, hsaved⟩
  silent := h.silent

theorem Consistent.recorded (h : Consistent w log frames) :
    Recorded w log := by
  cases frames with
  | nil => exact h
  | cons frame frames => exact h.1

/-- Later saves leave the frames alone. -/
theorem Consistent.mono (h : Consistent w log frames)
    (hrecorded : Recorded w' log') (hext : log.saved <+: log'.saved) :
    Consistent w' log' frames := by
  cases frames with
  | nil => exact hrecorded
  | cons frame frames => exact ⟨hrecorded, h.2.1.mono hext, h.2.2⟩

theorem Recorded.congr (h : Recorded w log)
    (hmailbox : w'.store.mailbox = w.store.mailbox)
    (hpayload : w'.store.sudoPayload = w.store.sudoPayload)
    (hused : w'.used = w.used) : Recorded w' log where
  mailbox := hmailbox.trans h.mailbox
  stored := by
    rw [hpayload]
    exact h.stored
  used := by
    rw [hused]
    exact h.used
  taken := h.taken
  once := h.once

theorem mailbox_of_bookkept {store store' : Storage}
    (h : Bookkept store store') : store'.mailbox = store.mailbox := by
  obtain ⟨_, _, _, rfl⟩ := h
  rfl

theorem Recorded.quiet (h : Recorded w log) (hquiet : World.Quiet w w') :
    Recorded w' log :=
  h.congr (mailbox_of_bookkept hquiet.store) hquiet.sudoPayload hquiet.used

/-! ### The steps -/

/-- The next reply id is the cell of the payload that is saved next. -/
theorem replyId_eq_mailCell (h : Recorded w log) :
    w.store.replyId = mailCell log := by
  have hle : replyIdRangeStart ≤ replyIdRangeEnd := by decide
  have hposition : w.store.replyId =
      w.store.mailbox.position replyIdRangeStart := rfl
  rw [hposition, h.mailbox, Wheel.position_fill hle]
  rfl

theorem saved_of_nothing {subs : List SubMsg} {sent : Option SubMsg}
    (hpackets : packets subs = sent.toList)
    (hsent : ∀ sub ∈ sent, sub.replyOnSuccess = none ∧ sub.payload = none) :
    log.save subs = log := by
  have hnone : sent.toList.filterMap SubMsg.payload = [] := by
    refine List.filterMap_eq_nil_iff.mpr fun sub hsub => ?_
    exact (hsent sub (Option.mem_toList.mp hsub)).2
  rw [PostLog.save, hpackets, hnone, List.append_nil]

theorem saved_of_payload {subs : List SubMsg} {msg : CosmosMsg}
    {replyId : Option Nat} {payload : SudoPayload}
    (hpackets : packets subs = [⟨msg, replyId, some payload⟩]) :
    log.save subs = { log with saved := log.saved ++ [payload] } := by
  rw [PostLog.save, hpackets]
  rfl

/-- What a call saves is recorded. -/
theorem saved_recorded {store : Storage} {subs : List SubMsg}
    {sent : Option SubMsg} (h : Recorded w log)
    (hposts : Posts w.store store subs sent) :
    Recorded { w with store := store } (log.save subs) := by
  have hstored : ∀ id, store.sudoPayload id =
      if id ∈ log.taken then none else (log.sent id).join := by
    rw [hposts.sudoPayload]
    exact h.stored
  obtain ⟨hpackets, -, hmailed⟩ := hposts
  cases hmailed with
  | nothing hsent hsame =>
      rw [saved_of_nothing hpackets hsent]
      exact ⟨hsame.trans h.mailbox, hstored, h.used, h.taken, h.once⟩
  | payload hput =>
      rw [saved_of_payload hpackets]
      refine ⟨?_, hstored, h.used, h.taken, h.once⟩
      rw [Wheel.fill_append_singleton, ← h.mailbox]
      exact hput

/-- The packets of a call wait for their turn. -/
theorem saved_outstanding {store : Storage} {rsp : Response}
    {sent : Option SubMsg} {querier : Querier} {sender : String}
    {origin : ExecuteMsg} (h : Recorded w log)
    (hposts : Posts w.store store rsp.messages sent) :
    Outstanding ⟨w, log, rsp.messages.map (⟨querier, sender, origin, ·⟩)⟩
      (log.save rsp.messages) := by
  obtain ⟨hpackets, -, hmailed⟩ := hposts
  have hsubs : Frame.subs ⟨w, log, rsp.messages.map
      (⟨querier, sender, origin, ·⟩)⟩ = rsp.messages := by
    rw [Frame.subs, List.map_map]
    exact List.map_id _
  refine ⟨List.prefix_append _ _, ?_, ?_⟩
  · rw [hsubs, hpackets]
    intro sub hsub payload hpayload
    cases hmailed with
    | nothing hsent hsame =>
        rw [(hsent sub (Option.mem_toList.mp hsub)).2] at hpayload
        cases hpayload
    | payload hput =>
        obtain rfl := List.mem_singleton.mp hsub
        cases hpayload
        rw [saved_of_payload hpackets, replyId_eq_mailCell h]
        exact ⟨rfl, List.getElem?_concat_length⟩
  · rw [hsubs, hpackets]
    intro sub hsub hpayload
    cases hmailed with
    | nothing hsent hsame => exact (hsent sub (Option.mem_toList.mp hsub)).1
    | payload hput =>
        obtain rfl := List.mem_singleton.mp hsub
        cases hpayload

/-- A call saves what it posts, and its packets wait for their turn. -/
theorem call_consistent {querier : Querier} {info : MessageInfo}
    {msg : ExecuteMsg} (h : Consistent s.world s.log s.frames)
    (hstep : s.call net querier info msg = some s') :
    Consistent s'.world s'.log s'.frames := by
  unfold call at hstep
  split at hstep
  case isFalse => cases hstep
  case isTrue =>
      split at hstep
      case h_1 => cases hstep
      case h_2 store rsp hcall =>
          obtain rfl := Option.some.inj hstep
          obtain ⟨sent, hposts⟩ := execute_posts hcall
          exact ⟨saved_recorded h.recorded hposts,
            saved_outstanding h.recorded hposts, h⟩

/-- A call saves one payload at most. -/
theorem call_saved {querier : Querier} {info : MessageInfo} {msg : ExecuteMsg}
    (hstep : s.call net querier info msg = some s') :
    ∀ frame ∈ s'.frames.head?,
      s'.log.saved.length ≤ frame.log.saved.length + 1 := by
  unfold call at hstep
  split at hstep
  case isFalse => cases hstep
  case isTrue =>
      split at hstep
      case h_1 => cases hstep
      case h_2 store rsp hcall =>
          obtain rfl := Option.some.inj hstep
          obtain ⟨sent, hpackets, -, -⟩ := execute_posts hcall
          intro frame hframe
          obtain rfl := Option.mem_some.mp hframe
          have hlength : ((packets rsp.messages).filterMap
              SubMsg.payload).length ≤ 1 := by
            rw [hpackets]
            exact (List.length_filterMap_le _ _).trans
              (Option.length_toList_le)
          rw [PostLog.save, List.length_append]
          exact Nat.add_le_add_left hlength _

theorem enter_consistent (h : Consistent s.world s.log s.frames)
    (hstep : s.enter = some s') :
    Consistent s'.world s'.log s'.frames := by
  unfold enter at hstep
  split at hstep
  case isFalse => cases hstep
  case isTrue =>
      obtain rfl := Option.some.inj hstep
      have hnone : packets (Frame.subs ⟨s.world, s.log, []⟩) = [] := rfl
      refine ⟨h.recorded, ⟨List.prefix_refl _, ?_, ?_⟩, h⟩
      · simp [hnone]
      · simp [hnone]

theorem send_saved (id : PacketId) (sub : SubMsg) :
    (log.send id sub).saved = log.saved := by
  unfold PostLog.send
  split <;> rfl

/-- While the ring has not gone round, the payload of a packet is found under
its reply id. -/
theorem queued_of_room {sub : SubMsg} (h : Recorded w log)
    (houtstanding : Outstanding frame log) (hsub : sub ∈ packets frame.subs)
    (hroom : sub.payload.isSome = true → log.saved.length ≤
      frame.log.saved.length + (replyIdRangeSize + 1)) :
    Queued w.store sub := by
  cases hpayload : sub.payload with
  | none =>
      rw [Queued, houtstanding.silent sub hsub hpayload]
      exact hpayload
  | some payload =>
      obtain ⟨hreply, hsaved⟩ := houtstanding.payload sub hsub payload hpayload
      obtain ⟨hlt, hvalue⟩ := List.getElem?_eq_some_iff.mp hsaved
      have hle : replyIdRangeStart ≤ replyIdRangeEnd := by decide
      have hround : log.saved.length ≤ frame.log.saved.length +
          Wheel.size replyIdRangeStart replyIdRangeEnd :=
        hroom (by rw [hpayload]; rfl)
      have hcell : w.store.replyIdToPayload (mailCell frame.log) =
          some payload := by
        change w.store.mailbox.cells _ = _
        rw [h.mailbox, mailCell, Wheel.fill_cell hle hlt hround, hvalue]
      rw [Queued, hreply, hpayload]
      exact hcell

/-- A packet that is sent finds its payload. -/
theorem Recorded.sent {delivery : World.Delivery} {sub : SubMsg}
    {id : PacketId} (h : Recorded w log) (hqueued : Queued w.store sub)
    (hsub : isPacket sub = true)
    (hcall : delivery.call.map Prod.fst = some id)
    (hdeliver : World.deliver net delivery w sub = some w') :
    Recorded w' (log.send id sub) := by
  obtain ⟨-, hstore, -, -, id', sender, origin, hcall', hfresh, hused, -,
    hpayload⟩ := World.deliver_sent hsub hdeliver
  obtain rfl : id' = id := by
    rw [hcall'] at hcall
    exact Option.some.inj hcall
  have hunsent : log.sent id' = none := by
    have hnot := mt (h.used id').mpr hfresh
    rwa [Bool.not_eq_true, Option.isSome_eq_false_iff,
      Option.isNone_iff_eq_none] at hnot
  have huntaken : id' ∉ log.taken := by
    intro hmem
    have hsome := h.taken id' hmem
    rw [hunsent] at hsome
    cases hsome
  have hbefore : w.store.sudoPayload id' = none := by
    rw [h.stored, if_neg huntaken, hunsent]
    rfl
  obtain ⟨hself, hother⟩ := hpayload hqueued fun _ => hbefore
  rw [PostLog.send, if_pos hsub]
  refine ⟨(mailbox_of_bookkept hstore).trans h.mailbox, ?_, ?_, ?_, h.once⟩
  · intro other
    dsimp only
    by_cases hid : other = id'
    · subst hid
      rw [hself, if_neg huntaken, Map.save_self]
      rfl
    · rw [hother other hid, h.stored, Map.save_of_ne hid]
  · intro other
    dsimp only
    rw [hused, List.mem_cons, Map.save_apply]
    by_cases hid : other = id'
    · simp [hid]
    · simp [hid, h.used]
  · intro other hmem
    dsimp only
    rw [Map.save_apply]
    split
    · rfl
    · exact h.taken other hmem

theorem deliver_consistent {id : PacketId}
    (h : Consistent s.world s.log s.frames) (hroom : HasRoom s (.deliver id))
    (hstep : s.deliver net id = some s') :
    Consistent s'.world s'.log s'.frames := by
  obtain ⟨w, log, frames⟩ := s
  unfold deliver at hstep
  dsimp only at hstep
  split at hstep
  case h_1 => cases hstep
  case h_2 frame frames =>
      split at hstep
      case h_1 => cases hstep
      case h_2 out rest hrest =>
          obtain ⟨w', hdeliver, rfl⟩ := Option.map_eq_some_iff.mp hstep
          obtain ⟨hrecorded, houtstanding, hframes⟩ := h
          have hsubs : frame.subs = out.sub :: rest.map (·.sub) := by
            rw [Frame.subs, hrest, List.map_cons]
          have hleft : ∀ other ∈ packets (rest.map (·.sub)),
              other ∈ packets frame.subs := by
            rw [hsubs]
            exact fun other hother => List.mem_filter.mpr
              ⟨List.mem_cons_of_mem _ (List.mem_filter.mp hother).1,
                (List.mem_filter.mp hother).2⟩
          refine ⟨?_, ⟨?_, ?_, ?_⟩, hframes⟩
          · cases hsub : isPacket out.sub with
            | true =>
                have hmem : out.sub ∈ packets frame.subs := by
                  rw [hsubs]
                  exact List.mem_filter.mpr ⟨List.mem_cons_self, hsub⟩
                have hqueued := queued_of_room hrecorded houtstanding hmem
                  (hroom frame rfl out (by rw [hrest]; rfl))
                exact hrecorded.sent hqueued hsub rfl hdeliver
            | false =>
                rw [PostLog.send, hsub]
                exact hrecorded.quiet (World.deliver_quiet hsub hdeliver)
          · rw [send_saved]
            exact houtstanding.grows
          · intro other hother payload hpayload
            rw [send_saved]
            exact houtstanding.payload other (hleft other hother) payload
              hpayload
          · exact fun other hother =>
              houtstanding.silent other (hleft other hother)

theorem finish_consistent (h : Consistent s.world s.log s.frames)
    (hstep : s.step net .finish = some s') :
    Consistent s'.world s'.log s'.frames := by
  obtain ⟨w, log, frames⟩ := s
  cases frames with
  | nil => cases hstep
  | cons frame frames =>
      simp only [step] at hstep
      split at hstep
      case isFalse => cases hstep
      case isTrue =>
          obtain rfl := Option.some.inj hstep
          exact h.2.2.mono h.1 h.2.1.grows

/-- What a failed call has done is forgotten. -/
theorem revert_consistent (h : Consistent s.world s.log s.frames)
    (hstep : s.step net .revert = some s') :
    Consistent s'.world s'.log s'.frames := by
  obtain ⟨w, log, frames⟩ := s
  cases frames with
  | nil => cases hstep
  | cons frame frames =>
      obtain rfl := Option.some.inj hstep
      exact h.2.2

theorem block_consistent {block : BlockInfo}
    (h : Consistent s.world s.log s.frames)
    (hstep : s.step net (.block block) = some s') :
    Consistent s'.world s'.log s'.frames := by
  simp only [step] at hstep
  split at hstep
  case isFalse => cases hstep
  case isTrue hnow =>
      obtain rfl := Option.some.inj hstep
      have hframes := List.isEmpty_iff.mp hnow.1
      have hrecorded := h.recorded
      rw [hframes]
      exact hrecorded.congr rfl rfl rfl

/-- An answer that is taken consumes the payload of its packet. -/
theorem Recorded.take {id : PacketId} {payload : SudoPayload}
    (h : Recorded w log) (hpayload : w.store.sudoPayload id = some payload)
    (hmailbox : w'.store.mailbox = w.store.mailbox)
    (hstored : w'.store.sudoPayload = w.store.sudoPayload.remove id)
    (hused : w'.used = w.used) : Recorded w' (log.take id) := by
  have hleft : id ∉ log.taken := by
    intro hmem
    rw [h.stored, if_pos hmem] at hpayload
    cases hpayload
  have hsent : (log.sent id).isSome = true := by
    rw [h.stored, if_neg hleft, Option.join_eq_some_iff] at hpayload
    rw [hpayload]
    rfl
  refine ⟨hmailbox.trans h.mailbox, fun other => ?_, ?_, ?_, ?_⟩
  · rw [hstored]
    by_cases hid : other = id
    · subst hid
      exact Map.remove_self.trans (if_pos List.mem_cons_self).symm
    · rw [Map.remove_of_ne hid, h.stored]
      simp only [PostLog.take, List.mem_cons, hid, false_or]
  · rw [hused]
    exact h.used
  · intro other hmem
    rcases List.mem_cons.mp hmem with rfl | hmem
    · exact hsent
    · exact h.taken other hmem
  · exact List.nodup_cons.mpr ⟨hleft, h.once⟩

theorem answer_consistent {id : PacketId} {answer : Answer}
    {querier : Querier} {bankAccepts : Bool}
    (h : Consistent s.world s.log s.frames)
    (hstep : s.answer net id answer querier bankAccepts = some s') :
    Consistent s'.world s'.log s'.frames := by
  unfold Nest.answer at hstep
  split at hstep
  case isFalse => cases hstep
  case isTrue houtside =>
      have hframes := List.isEmpty_iff.mp houtside
      have hrecorded := h.recorded
      split at hstep
      case h_1 =>
          obtain rfl := Option.some.inj hstep
          exact h
      case h_2 w hcommit =>
          obtain rfl := Option.some.inj hstep
          rw [hframes]
          cases hpayload : s.world.store.sudoPayload id with
          | none =>
              rw [World.sudoEntry_of_no_payload hpayload] at hcommit
              cases hcommit
          | some payload =>
              rw [World.sudoEntry_of_payload hpayload] at hcommit
              unfold World.commit at hcommit
              split at hcommit
              case h_1 => cases hcommit
              case h_2 store rsp hcall =>
                  obtain ⟨_, _, _, _, rfl⟩ := callback_pools hcall
                  have hquiet := World.deliverAll_quiet
                    (callback_outcome hcall).packets hcommit
                  have hmailbox := mailbox_of_bookkept hquiet.store
                  exact hrecorded.take hpayload hmailbox hquiet.sudoPayload
                    hquiet.used

/-- Channels, query results and tokens leave the payloads alone. -/
theorem other_consistent {action : Action}
    (h : Consistent s.world s.log s.frames)
    (hstep : s.other net action = some s') :
    Consistent s'.world s'.log s'.frames := by
  have hkept : ∀ w', Recorded w' s.log →
      Consistent w' s.log s.frames := fun w' hrecorded =>
    h.mono hrecorded (List.prefix_refl _)
  cases action with
  | execute querier info msg id => cases hstep
  | answer id answer querier bankAccepts => cases hstep
  | openAck icaId channelId counterpartyChannelId hostConnectionId =>
      simp only [other] at hstep
      split at hstep
      case isFalse => cases hstep
      case isTrue =>
          obtain ⟨w', hact, rfl⟩ := Option.map_eq_some_iff.mp hstep
          refine hkept w' ?_
          simp only [World.act, sudoEntry] at hact
          split at hact
          case h_1 => cases hact
          case h_2 store rsp hcall =>
              obtain rfl := Option.some.inj hact
              obtain ⟨_, _, _, _, _, _, _, _, -, -, -, -, rfl, -⟩ :=
                sudoOpenAck_ok hcall
              refine h.recorded.congr ?_ ?_ rfl
              · split <;> rfl
              · split <;> rfl
  | kvQueryResult queryId querier =>
      simp only [other] at hstep
      split at hstep
      case isFalse => cases hstep
      case isTrue =>
          obtain ⟨w', hact, rfl⟩ := Option.map_eq_some_iff.mp hstep
          obtain ⟨_, _, hquiet⟩ := World.kvQueryResult_of_act hact
          have hmailbox := mailbox_of_bookkept hquiet.store
          exact hkept w' (h.recorded.congr hmailbox hquiet.sudoPayload
            hquiet.used)
  | token addrValidate address sender msg =>
      simp only [other] at hstep
      split at hstep
      case isFalse => cases hstep
      case isTrue =>
          obtain ⟨w', hact, rfl⟩ := Option.map_eq_some_iff.mp hstep
          obtain ⟨-, hquiet, -, -⟩ := World.token_of_act hact
          exact hkept w' (h.recorded.quiet hquiet)

theorem consistent_step (h : Consistent s.world s.log s.frames)
    (hroom : HasRoom s ev) (hstep : s.step net ev = some s') :
    Consistent s'.world s'.log s'.frames := by
  cases ev with
  | block block => exact block_consistent h hstep
  | enter => exact enter_consistent h hstep
  | call querier info msg => exact call_consistent h hstep
  | deliver id => exact deliver_consistent h hroom hstep
  | finish => exact finish_consistent h hstep
  | revert => exact revert_consistent h hstep
  | answer id answer querier bankAccepts => exact answer_consistent h hstep
  | other action => exact other_consistent h hstep

theorem consistent_of_room {evs : List Event}
    (h : Consistent s.world s.log s.frames)
    (hroom : Transition.AllSteps (step net) (fun s ev _ => HasRoom s ev) s evs)
    (hrun : Transition.exec (step net) s evs = some s') :
    Consistent s'.world s'.log s'.frames := by
  refine Transition.AllSteps.invariant_last
    (fun s => Consistent s.world s.log s.frames) ?_ h hroom hrun
  exact fun _ _ _ hinv hstep hroom => consistent_step hinv hroom hstep

/-- With the log right, the answers find what was given for their packets. -/
theorem correlated_of_recorded (h : Recorded s.world s.log) :
    Correlated net s where
  runs id payload hsent hleft answer := by
    have hpayload : s.world.store.sudoPayload id = some payload := by
      rw [h.stored, if_neg hleft, hsent]
      rfl
    exact World.sudoEntry_of_payload hpayload _ answer
  once := h.once
  refused id htaken answer := by
    have hpayload : s.world.store.sudoPayload id = none :=
      (h.stored id).trans (if_pos htaken)
    have hentry := World.sudoEntry_of_no_payload hpayload (s.world.env net)
      answer
    refine ⟨hentry, fun querier bankAccepts houtside => ?_⟩
    simp only [step, Nest.answer, houtside, hentry]
    rfl

theorem recorded_genesis (block : BlockInfo) (deployer : MessageInfo)
    (lsdTokenCodeId : Nat) :
    Recorded (World.genesis block deployer lsdTokenCodeId) .empty where
  mailbox := rfl
  stored _ := rfl
  used _ := by simp [World.genesis, PostLog.empty, Map.empty]
  taken _ h := by cases h
  once := List.nodup_nil

/-- In every run in which the ring of reply ids does not go round between a
payload and its reply, every answer runs the callback of the payload that was
given for its packet, once. -/
theorem answers_correlated {block : BlockInfo} {deployer : MessageInfo}
    {lsdTokenCodeId : Nat} {evs : List Event}
    (hroom : Transition.AllSteps (step net) (fun s ev _ => HasRoom s ev)
      (genesis block deployer lsdTokenCodeId) evs) :
    Transition.AllSteps (step net) (fun _ _ s' => Correlated net s')
      (genesis block deployer lsdTokenCodeId) evs := by
  refine Transition.AllSteps.of_invariant
    (fun s => Consistent s.world s.log s.frames) ?_
    (recorded_genesis block deployer lsdTokenCodeId) hroom
  intro s ev s' hinv hstep hroom
  have hnext := consistent_step hinv hroom hstep
  exact ⟨hnext, correlated_of_recorded hnext.recorded⟩

/-! ### Undisturbed transactions -/

theorem delivers_consistent {n : Nat} {id : PacketId}
    (h : Consistent s.world s.log s.frames)
    (hroom : ∀ frame ∈ s.frames.head?,
      s.log.saved.length ≤ frame.log.saved.length + 1)
    (hrun : Transition.exec (step net) s (List.replicate n (.deliver id)) =
      some s') : Consistent s'.world s'.log s'.frames := by
  induction n generalizing s with
  | zero =>
      obtain rfl := Option.some.inj hrun
      exact h
  | succ n ih =>
      rw [List.replicate_succ, Transition.exec_cons_eq_some] at hrun
      obtain ⟨middle, hstep, hrest⟩ := hrun
      have hhas : HasRoom s (.deliver id) := fun frame hframe _ _ _ =>
        Nat.le_trans (hroom frame hframe) (Nat.add_le_add_left (by decide) _)
      refine ih (deliver_consistent h hhas hstep) ?_ hrest
      obtain ⟨w, log, frames⟩ := s
      unfold step deliver at hstep
      dsimp only at hstep
      split at hstep
      case h_1 => cases hstep
      case h_2 frame frames =>
          split at hstep
          case h_1 => cases hstep
          case h_2 out rest hrest =>
              obtain ⟨w', -, rfl⟩ := Option.map_eq_some_iff.mp hstep
              intro next hnext
              obtain rfl := Option.mem_some.mp hnext
              rw [send_saved]
              exact hroom frame rfl

/-- A call whose messages are executed without other calls in between always
has room. -/
theorem transaction_consistent {querier : Querier} {info : MessageInfo}
    {msg : ExecuteMsg} {n : Nat} {id : PacketId}
    (h : Consistent s.world s.log s.frames)
    (hrun : Transition.exec (step net) s (transaction querier info msg n id) =
      some s') : Consistent s'.world s'.log s'.frames := by
  obtain ⟨called, hcall, hrest⟩ := Transition.exec_cons_eq_some.mp hrun
  obtain ⟨delivered, hdelivers, hfinish⟩ :=
    Transition.exec_append_eq_some.mp hrest
  obtain ⟨last, hlast, hnil⟩ := Transition.exec_cons_eq_some.mp hfinish
  obtain rfl := Option.some.inj hnil
  have hroom : ∀ frame ∈ called.frames.head?,
      called.log.saved.length ≤ frame.log.saved.length + 1 :=
    call_saved hcall
  exact finish_consistent (delivers_consistent (call_consistent h hcall) hroom
    hdelivers) hlast

instance (s : Nest) (ev : Event) : Decidable (HasRoom s ev) := by
  unfold HasRoom
  split <;> infer_instance

end Nest

/-! ### More nested calls than reply ids -/

namespace Sample

open Nest

def nest : Nest := Nest.genesis (day 1) ⟨admin, []⟩ 1

/-- A pool is registered and its channels open. -/
def register (icaId : String) : List Nest.Event :=
  transaction (querier 0 [] 0) ⟨admin, fee⟩
      (.registerPool "connection-0" icaId) 2 (packetId 0) ++
    [.other (.openAck icaId "channel-0" "channel-0" (some "connection-1")),
      .other (.openAck (getWithdrawIcaId icaId) "channel-1" "channel-1"
        (some "connection-1"))]

def initMsg (icaId : String) : ExecuteMsg :=
  .initPool { initParams with interchainAccountId := icaId }

/-- Two pools are registered, and the second one fails to start. -/
def failedStart : List Nest.Event :=
  register (poolId 0) ++ register (poolId 1) ++
    transaction (querier 0 [] 0) ⟨admin, fee⟩ (initMsg (poolId 1)) 6
      (packetId 0) ++
    [.answer (packetId 0) .error (querier 0 [] 0) true]

/-- The second pool is started again and again. -/
def retries : Nat → List Nest.Event
  | 0 => []
  | n + 1 => retries n ++ transaction (querier 0 [] 0) ⟨admin, fee⟩
      (initMsg (poolId 1)) 1 (packetId (n + 1))

/-- The first pool is started, and while its token is created the second one
is started again `n` times. -/
def overrun (n : Nat) : List Nest.Event :=
  failedStart ++
    .call (querier 0 [] 0) ⟨admin, fee⟩ (initMsg (poolId 0)) ::
      (retries n ++ List.replicate 6 (.deliver (packetId (n + 1))))

/-- The answers to the packet of the first pool, one too many. -/
def answered : List Nest.Event := [
  .finish,
  .answer (packetId 2) .success (querier 0 [] 0) true,
  .answer (packetId 2) .timeout (querier 0 [] 0) true]

end Sample

theorem Nest.answers_correlated_sample :
    (Transition.exec (step Sample.wideNet) Sample.nest
      (Sample.overrun 1 ++ Sample.answered)).isSome = true ∧
    Transition.AllSteps (step Sample.wideNet)
      (fun _ _ s' => Correlated Sample.wideNet s') Sample.nest
      (Sample.overrun 1 ++ Sample.answered) :=
  ⟨by decide +kernel, answers_correlated (by decide +kernel)⟩

namespace Sample

open Nest

variable {s s' : Nest} {pool withdraw : IcaInfo} {n : Nat}

/-- The second pool can be started again, whenever contracts are called. -/
structure Retriable (s : Nest) (pool withdraw : IcaInfo) : Prop where
  consistent : Consistent s.world s.log s.frames
  calls : s.mayCall = true
  stack : ∃ stack, s.world.store.stack = some stack ∧ stack.admin = admin
  packet : replyIdRangeStart ≤ s.world.store.replyId ∧
    s.world.store.replyId ≤ replyIdRangeEnd
  info : ∃ owner, s.world.store.infoOfIcaId (poolId 1) =
    some (pool, withdraw, owner)
  pool : ∃ p, s.world.store.pools pool.icaAddr = some p ∧ p.admin = admin ∧
    p.status = .initFailed

/-- What `n` new starts of the second pool leave alone, and the payloads they
save. -/
structure Retried (pool withdraw : IcaInfo) (n : Nat) (s s' : Nest) :
    Prop where
  retriable : Retriable s' pool withdraw
  frames : s'.frames = s.frames
  block : s'.world.block = s.world.block
  tokens : s'.world.tokens = s.world.tokens
  pools : s'.world.store.pools = s.world.store.pools
  saved : s'.log.saved =
    s.log.saved ++ List.replicate n (setWithdrawPayload pool withdraw)
  taken : s'.log.taken = s.log.taken
  used : ∀ id ∈ s'.world.used, id ∈ s.world.used ∨
    ∃ k, k < n ∧ id = packetId (k + 1)

theorem exec_retry (h : Retriable s pool withdraw)
    (hfresh : packetId (n + 1) ∉ s.world.used) :
    ∃ s', Transition.exec (step wideNet) s (transaction (querier 0 [] 0)
        ⟨admin, fee⟩ (initMsg (poolId 1)) 1 (packetId (n + 1))) = some s' ∧
      Retriable s' pool withdraw ∧ s'.frames = s.frames ∧
      s'.world.block = s.world.block ∧ s'.world.tokens = s.world.tokens ∧
      s'.world.store.pools = s.world.store.pools ∧
      s'.log.saved = s.log.saved ++ [setWithdrawPayload pool withdraw] ∧
      s'.log.taken = s.log.taken ∧
      s'.world.used = packetId (n + 1) :: s.world.used := by
  obtain ⟨stack, hstack, hadmin⟩ := h.stack
  obtain ⟨owner, hinfo⟩ := h.info
  obtain ⟨p, hp, howner, hstatus⟩ := h.pool
  have hvalidators : initParams.validatorAddrs ≠ [] ∧
      initParams.validatorAddrs.length ≤ validaterLenLimit := by decide
  obtain ⟨tx, rsp, hretry, hmsgs⟩ := @executeInitPool_retries s.world.store
    stack (querier 0 [] 0) (s.world.env wideNet) ⟨admin, fee⟩ p pool withdraw
    { initParams with interchainAccountId := poolId 1 } owner 2 hstack hadmin
    hinfo hvalidators hp howner.symm hstatus rfl rfl ⟨_, rfl⟩
  obtain ⟨w', hdeliver, htokens, hused, -⟩ := @World.deliver_packet_total
    wideNet ⟨querier 0 [] 0, true,
      some (packetId (n + 1), admin, initMsg (poolId 1))⟩
    { s.world with
      store := s.world.store.queuePayload
        (setWithdrawPayload pool withdraw) } (packetId (n + 1)) tx
    (setWithdrawPayload pool withdraw) s.world.store.replyId
    (some (setWithdrawPayload pool withdraw)) admin (initMsg (poolId 1)) rfl
    hfresh h.packet Map.save_self
  have hsent := World.deliver_sent rfl hdeliver
  obtain ⟨_, _, _, hstore⟩ := hsent.store
  have hdelivers : World.deliverAll wideNet ⟨querier 0 [] 0, true,
      some (packetId (n + 1), admin, initMsg (poolId 1))⟩
      { s.world with
        store := s.world.store.queuePayload
          (setWithdrawPayload pool withdraw) } rsp.messages = some w' := by
    rw [hmsgs]
    exact Transition.exec_cons_eq_some.mpr ⟨w', hdeliver, rfl⟩
  have hrun := @exec_call wideNet w' (querier 0 [] 0) ⟨admin, fee⟩
    (initMsg (poolId 1)) (packetId (n + 1)) s _ rsp h.calls (by decide) hretry
    hdelivers
  have hlast := transaction_consistent h.consistent hrun
  rw [hmsgs] at hrun hlast
  refine ⟨_, hrun, ⟨hlast, h.calls, ?_, ?_, ?_, ?_⟩, rfl, hsent.block,
    htokens, ?_, rfl, rfl, hused⟩
  · exact ⟨stack, by rw [hstore]; exact hstack, hadmin⟩
  · rw [hstore]
    exact nextId_range (by decide) h.packet
  · exact ⟨owner, by rw [hstore]; exact hinfo⟩
  · exact ⟨p, by rw [hstore]; exact hp, howner, hstatus⟩
  · rw [hstore]
    rfl

/-- The packets of the new starts have other ids. -/
theorem fresh_of_retried (h : Retried pool withdraw n s s')
    (hused : s.world.used = [packetId 0]) :
    packetId (n + 1) ∉ s'.world.used := by
  intro hmem
  rcases h.used _ hmem with hold | ⟨k, hk, hid⟩
  · rw [hused, List.mem_singleton] at hold
    cases hold
  · have hsame : n + 1 = k + 1 := (Prod.mk.inj hid).2
    omega

theorem exec_retries (h : Retriable s pool withdraw)
    (hused : s.world.used = [packetId 0]) :
    ∃ s', Transition.exec (step wideNet) s (retries n) = some s' ∧
      Retried pool withdraw n s s' := by
  induction n with
  | zero =>
      refine ⟨s, rfl, h, rfl, rfl, rfl, rfl, ?_, rfl, fun id hid => .inl hid⟩
      rw [List.replicate_zero, List.append_nil]
  | succ n ih =>
      obtain ⟨middle, hrun, hretried⟩ := ih
      have hfresh := fresh_of_retried hretried hused
      obtain ⟨s', hretry, hretriable, hframes, hblock, htokens, hpools, hsaved,
        htaken, hused'⟩ := exec_retry hretried.retriable hfresh
      refine ⟨s', Transition.exec_append_eq_some.mpr ⟨middle, hrun, hretry⟩,
        hretriable, hframes.trans hretried.frames,
        hblock.trans hretried.block, htokens.trans hretried.tokens,
        hpools.trans hretried.pools, ?_, htaken.trans hretried.taken, ?_⟩
      · rw [hsaved, hretried.saved, List.append_assoc, List.replicate_succ']
      · intro id hid
        rw [hused', List.mem_cons] at hid
        rcases hid with rfl | hid
        · exact .inr ⟨n, Nat.lt_succ_self n, rfl⟩
        · rcases hretried.used id hid with hold | ⟨k, hk, hid⟩
          · exact .inl hold
          · exact .inr ⟨k, Nat.lt_succ_of_lt hk, hid⟩

/-- What is tested of the state after the failed start. -/
def ready (s : Nest) : Bool :=
  let store := s.world.store
  s.frames.isEmpty && decide (s.world.block.height = (day 1).height) &&
    decide (s.world.block.time = (day 1).time) &&
    decide (replyIdRangeStart ≤ store.replyId ∧
      store.replyId ≤ replyIdRangeEnd) &&
    decide (queryReplyIdRangeStart ≤ store.queryReplyId ∧
      store.queryReplyId ≤ queryReplyIdRangeEnd) &&
    store.stack.any (fun stack => decide (stack.admin = admin)) &&
    (store.infoOfIcaId (poolId 0)).any (fun info =>
      decide (info.1.icaAddr = wideNet.hostAddr (poolId 0) ∧
        info.2.1.icaAddr = wideNet.hostAddr (getWithdrawIcaId (poolId 0)) ∧
        info.2.2 = admin)) &&
    (store.pools (wideNet.hostAddr (poolId 0))).any (fun p =>
      decide (p.admin = admin ∧ p.status = .registerEnded)) &&
    (store.infoOfIcaId (poolId 1)).any (fun info =>
      decide (info.1.icaAddr = wideNet.hostAddr (poolId 1))) &&
    (store.pools (wideNet.hostAddr (poolId 1))).any (fun p =>
      decide (p.admin = admin ∧ p.status = .initFailed)) &&
    (s.world.tokens (salt 0)).isNone &&
    decide (s.world.used = [packetId 0]) && decide (s.log.taken = [packetId 0])

/-- The state after the failed start. -/
structure Ready (s : Nest) : Prop where
  consistent : Consistent s.world s.log s.frames
  frames : s.frames = []
  block : s.world.block = day 1
  ranged : Ranged s.world.store
  stack : ∃ stack, s.world.store.stack = some stack ∧ stack.admin = admin
  first : ∃ pool withdraw : IcaInfo, ∃ p : PoolInfo,
    s.world.store.infoOfIcaId (poolId 0) = some (pool, withdraw, admin) ∧
    pool.icaAddr = wideNet.hostAddr (poolId 0) ∧
    withdraw.icaAddr = wideNet.hostAddr (getWithdrawIcaId (poolId 0)) ∧
    s.world.store.pools (wideNet.hostAddr (poolId 0)) = some p ∧
    p.admin = admin ∧ p.status = .registerEnded
  second : ∃ pool withdraw : IcaInfo, ∃ owner, ∃ p : PoolInfo,
    s.world.store.infoOfIcaId (poolId 1) = some (pool, withdraw, owner) ∧
    pool.icaAddr = wideNet.hostAddr (poolId 1) ∧
    s.world.store.pools (wideNet.hostAddr (poolId 1)) = some p ∧
    p.admin = admin ∧ p.status = .initFailed
  token : s.world.tokens (salt 0) = none
  used : s.world.used = [packetId 0]
  taken : s.log.taken = [packetId 0]

theorem exec_failedStart : ∃ s,
    Transition.exec (step wideNet) nest failedStart = some s ∧ Ready s := by
  have htest : (Transition.exec (step wideNet) nest failedStart).any ready =
      true := by decide +kernel
  have hroom : Transition.AllSteps (step wideNet)
      (fun s ev _ => Nest.HasRoom s ev) nest failedStart := by decide +kernel
  obtain ⟨s, hrun, htest⟩ := (Option.any_eq_true _ _).mp htest
  have hgenesis : Consistent nest.world nest.log nest.frames :=
    recorded_genesis _ _ _
  have hconsistent := consistent_of_room hgenesis hroom hrun
  simp only [ready, Bool.and_eq_true, decide_eq_true_eq, Option.any_eq_true,
    List.isEmpty_iff, Option.isNone_iff_eq_none] at htest
  obtain ⟨⟨⟨⟨⟨⟨⟨⟨⟨⟨⟨⟨hframes, hheight⟩, htime⟩, hpacket⟩, hquery⟩, hstack⟩,
    ⟨⟨pool, withdraw, owner⟩, hinfo, haddr, hwithdraw, rfl⟩⟩, p, hp, howner,
    hstatus⟩, ⟨⟨pool', withdraw', owner'⟩, hinfo', haddr'⟩⟩, p', hp', howner',
    hstatus'⟩, htoken⟩, hused⟩, htaken⟩ := htest
  have hblock : s.world.block = day 1 := by
    cases hworld : s.world.block with
    | mk height time =>
        rw [hworld] at hheight htime
        exact congrArg₂ BlockInfo.mk hheight htime
  exact ⟨s, hrun, hconsistent, hframes, hblock, ⟨hpacket, hquery⟩, hstack,
    ⟨pool, withdraw, p, hinfo, haddr, hwithdraw, hp, howner, hstatus⟩,
    ⟨pool', withdraw', owner', p', hinfo', haddr', hp', howner', hstatus'⟩,
    htoken, hused, htaken⟩

/-- The packet `id` was sent with one payload and has another one. -/
structure Mixed (s : Nest) (id : PacketId) (sent found : SudoPayload) :
    Prop where
  given : s.log.sent id = some (some sent)
  left : id ∉ s.log.taken
  stored : s.world.store.sudoPayload id = some found
  sentType : sent.txType = .setWithdrawAddr
  foundType : found.txType = .setWithdrawAddr
  apart : sent.poolAddr ≠ found.poolAddr
  sentPool : ∃ p, s.world.store.pools sent.poolAddr = some p ∧
    p.status = .initStarted
  foundPool : ∃ p, s.world.store.pools found.poolAddr = some p

theorem callback_setWithdraw {store : Storage} {env : Env}
    {payload : SudoPayload} {p : PoolInfo}
    (htype : payload.txType = .setWithdrawAddr)
    (hp : store.pools payload.poolAddr = some p) :
    callback store env payload .success = .ok
      (store.savePool payload.poolAddr { p with status := .activeEnded },
        Response.new) := by
  simp only [callback, sudoCallback, htype]
  exact sudoSetWithdrawAddrCallback_ok.mpr ⟨p, hp, rfl, rfl⟩

/-- The callback of the wrong pool runs. -/
theorem not_correlated_of_mixed {id : PacketId} {sent found : SudoPayload}
    (h : Mixed s id sent found) : ¬ Correlated wideNet s := by
  intro hcorrelated
  obtain ⟨p, hp, hstatus⟩ := h.sentPool
  obtain ⟨q, hq⟩ := h.foundPool
  have hruns := hcorrelated.runs id sent h.given h.left .success
  rw [World.sudoEntry_of_payload h.stored] at hruns
  have hsent := @callback_setWithdraw (s.world.afterTake id)
    (s.world.env wideNet) sent p h.sentType hp
  have hfound := @callback_setWithdraw (s.world.afterTake id)
    (s.world.env wideNet) found q h.foundType hq
  have hstores := (Prod.mk.inj (Except.ok.inj
    (hfound.symm.trans (hruns.trans hsent)))).1
  have hpools := congrFun (congrArg Storage.pools hstores) sent.poolAddr
  have hkept : ((s.world.afterTake id).savePool found.poolAddr
      { q with status := .activeEnded }).pools sent.poolAddr = some p :=
    (Map.save_of_ne h.apart).trans hp
  have hended : ((s.world.afterTake id).savePool sent.poolAddr
      { p with status := .activeEnded }).pools sent.poolAddr =
      some { p with status := .activeEnded } := Map.save_self
  rw [hkept, hended, Option.some.injEq] at hpools
  rw [hpools] at hstatus
  cases hstatus

theorem foldl_send_of_quiet {subs : List SubMsg} {log : PostLog}
    {id : PacketId} (hsubs : ∀ sub ∈ subs, isPacket sub = false) :
    subs.foldl (fun log sub => log.send id sub) log = log := by
  induction subs generalizing log with
  | nil => rfl
  | cons sub rest ih =>
      rw [List.forall_mem_cons] at hsubs
      rw [List.foldl_cons, PostLog.send, hsubs.1]
      exact ih hsubs.2

/-- The start of the first pool, its token not yet created. -/
structure Starting (s called : Nest) (store : Storage) (queries : List SubMsg)
    (tx : SubmitTx) (payload : SudoPayload) : Prop where
  step : step wideNet s (.call (querier 0 [] 0) ⟨admin, fee⟩
    (initMsg (poolId 0))) = some called
  frames : called.frames = [⟨s.world, s.log,
    (createMsg wideNet (salt 0) :: (queries ++
      [⟨.submitTx tx, some s.world.store.replyId, some payload⟩])).map
        (⟨querier 0 [] 0, admin, initMsg (poolId 0), ·⟩)⟩]
  saved : called.log.saved = s.log.saved ++ [payload]
  taken : called.log.taken = s.log.taken
  registrations : ∀ sub ∈ queries, IsRegistration sub
  length : queries.length = 4
  world : called.world = { s.world with store := store }
  poolAddr : payload.poolAddr = wideNet.hostAddr (poolId 0)
  txType : payload.txType = .setWithdrawAddr
  pool : ∃ p, store.pools (wideNet.hostAddr (poolId 0)) = some p ∧
    p.status = .initStarted
  others : ∀ a, a ≠ wideNet.hostAddr (poolId 0) →
    store.pools a = s.world.store.pools a
  infos : store.infoOfIcaId = s.world.store.infoOfIcaId
  stack : store.stack = s.world.store.stack
  latest : store.replyId =
    nextId replyIdRangeStart replyIdRangeEnd s.world.store.replyId

theorem quiet_of_registration {sub : SubMsg} (h : IsRegistration sub) :
    isPacket sub = false := by
  obtain ⟨_, _, _, _, rfl, -⟩ := h
  rfl

theorem call_first (h : Ready s) : ∃ called store queries tx payload,
    Starting s called store queries tx payload := by
  obtain ⟨stack, hstack, hadmin⟩ := h.stack
  obtain ⟨pool, withdraw, p, hinfo, haddr, hwithdraw, hp, howner, hstatus⟩ :=
    h.first
  obtain ⟨store, rsp, queries, tx, payload, hstarts⟩ :=
    executeInitPool_sample h.ranged h.block hstack hadmin hinfo haddr hwithdraw
      hp howner hstatus (takeBytes_salt 0)
  have hpackets : packets rsp.messages =
      [⟨.submitTx tx, some s.world.store.replyId, some payload⟩] := by
    rw [hstarts.messages, packets, List.filter_cons, List.filter_append,
      List.filter_eq_nil_iff.mpr fun sub hsub => by
        rw [quiet_of_registration (hstarts.registrations sub hsub)]
        exact Bool.false_ne_true]
    rfl
  have hlength : rsp.messages.length = 6 := by
    obtain ⟨_, _, _, _, _, _, _, _, _, _, _, _, _, _, hmsgs⟩ :=
      hstarts.started.messages
    rw [hmsgs]
    rfl
  obtain ⟨p', hp', hstatus', -⟩ := rates_of_dealt hstarts.dealt
  obtain ⟨_, next, _, payload', _, _, _, _, _, _, _, _, _, _, _, _, _, -, -, -,
    ⟨_, _, _, rfl⟩, -, -, hstore, -⟩ := hstarts.dealt
  refine ⟨⟨{ s.world with store := store }, s.log.save rsp.messages,
    [⟨s.world, s.log, rsp.messages.map
      (⟨querier 0 [] 0, admin, initMsg (poolId 0), ·⟩)⟩]⟩, store, queries, tx,
    payload, ?_, ?_, ?_, rfl, hstarts.registrations, ?_, rfl,
    hstarts.poolAddr, hstarts.txType, ⟨p', hp', hstatus'⟩, ?_, ?_, ?_, ?_⟩
  · have hcalls : s.mayCall = true := by
      rw [mayCall, h.frames]
    have haccount : isAccount admin = true := by decide
    simp only [Nest.step, Nest.call, hcalls, haccount, execute, initMsg,
      hstarts.call, h.frames]
    rfl
  · rw [hstarts.messages]
  · rw [saved_of_payload hpackets]
  · rw [hstarts.messages, List.length_cons, List.length_append,
      List.length_singleton] at hlength
    omega
  · intro a ha
    rw [hstore]
    exact Map.save_of_ne ha
  · rw [hstore]
    rfl
  · rw [hstore]
    rfl
  · rw [hstore]
    rfl

theorem retriable_of_starting {called : Nest} {store : Storage}
    {queries : List SubMsg} {tx : SubmitTx} {payload : SudoPayload}
    {owner : String} {q : PoolInfo} (h : Ready s)
    (hstart : Starting s called store queries tx payload)
    (hinfo : s.world.store.infoOfIcaId (poolId 1) =
      some (pool, withdraw, owner))
    (haddr : pool.icaAddr = wideNet.hostAddr (poolId 1))
    (hq : s.world.store.pools (wideNet.hostAddr (poolId 1)) = some q)
    (howner : q.admin = admin) (hstatus : q.status = .initFailed) :
    Retriable called pool withdraw := by
  have hne : wideNet.hostAddr (poolId 1) ≠ wideNet.hostAddr (poolId 0) := by
    intro hsame
    have hids : (1 : Nat) = 0 := Text.toString_inj (hostAddr_inj hsame)
    cases hids
  have hstore : called.world.store = store := by rw [hstart.world]
  refine ⟨call_consistent h.consistent hstart.step, ?_, ?_, ?_, ?_, ?_⟩
  · rw [mayCall, hstart.frames]
    rfl
  · rw [hstore, hstart.stack]
    exact h.stack
  · rw [hstore, hstart.latest]
    exact nextId_range (by decide) h.ranged.packet
  · rw [hstore, hstart.infos]
    exact ⟨owner, hinfo⟩
  · rw [hstore, haddr, hstart.others _ hne]
    exact ⟨q, hq, howner, hstatus⟩

/-- When the ring has gone round, the cell of the first payload holds the
last one. -/
theorem cell_of_retried {called middle : Nest} {store : Storage}
    {queries : List SubMsg} {tx : SubmitTx} {payload : SudoPayload}
    (h : Ready s) (hstart : Starting s called store queries tx payload)
    (hretried : Retried pool withdraw n called middle)
    (hn : n = Wheel.size replyIdRangeStart replyIdRangeEnd) :
    middle.world.store.replyIdToPayload s.world.store.replyId =
      some (setWithdrawPayload pool withdraw) := by
  have hle : replyIdRangeStart ≤ replyIdRangeEnd := by decide
  have hpos : 0 < Wheel.size replyIdRangeStart replyIdRangeEnd := by decide
  have hsaved : middle.log.saved = s.log.saved ++ payload ::
      List.replicate n (setWithdrawPayload pool withdraw) := by
    rw [hretried.saved, hstart.saved, List.append_assoc]
    rfl
  have hlength : middle.log.saved.length = s.log.saved.length + (n + 1) := by
    rw [hsaved, List.length_append, List.length_cons, List.length_replicate]
  have hlt : s.log.saved.length + n < middle.log.saved.length := by omega
  have hlast : middle.log.saved[s.log.saved.length + n] =
      setWithdrawPayload pool withdraw := by
    have hfound : middle.log.saved[s.log.saved.length + n]? =
        some (setWithdrawPayload pool withdraw) := by
      rw [hsaved, List.getElem?_append_right (Nat.le_add_right _ _),
        Nat.add_sub_cancel_left]
      cases n with
      | zero => omega
      | succ n =>
          rw [List.getElem?_cons_succ, List.getElem?_replicate]
          exact if_pos (Nat.lt_succ_self n)
    exact (List.getElem?_eq_some_iff.mp hfound).2
  rw [replyId_eq_mailCell h.consistent.recorded, mailCell,
    ← Wheel.cell_add_size, ← hn]
  change middle.world.store.mailbox.cells _ = _
  rw [hretried.retriable.consistent.recorded.mailbox,
    Wheel.fill_cell hle hlt (by omega), hlast]

/-- The packet of the first pool gets the payload of the second one. -/
theorem overrun_mixes (hn : n = Wheel.size replyIdRangeStart replyIdRangeEnd) :
    ∃ s sent found, Transition.exec (step wideNet) nest (overrun n) = some s ∧
      Mixed s (packetId (n + 1)) sent found := by
  obtain ⟨s, hsetup, hready⟩ := exec_failedStart
  obtain ⟨called, store, queries, tx, payload, hstart⟩ := call_first hready
  obtain ⟨pool, withdraw, owner, q, hinfo, haddr, hq, howner, hstatus⟩ :=
    hready.second
  have hcalled : called.world.used = [packetId 0] := by
    rw [hstart.world]
    exact hready.used
  obtain ⟨middle, hretries, hretried⟩ := @exec_retries _ _ _ n
    (retriable_of_starting hready hstart hinfo haddr hq howner hstatus) hcalled
  have hcell := cell_of_retried hready hstart hretried hn
  have hfresh := fresh_of_retried hretried hcalled
  have htoken : middle.world.tokens (salt 0) = none := by
    rw [hretried.tokens, hstart.world]
    exact hready.token
  obtain ⟨token, hcreate⟩ :=
    @createToken_sample wideNet middle.world (salt 0) htoken
  obtain ⟨w', hdelivered, -, -, hpayload⟩ := @World.deliverAll_start wideNet
    ⟨querier 0 [] 0, true,
      some (packetId (n + 1), admin, initMsg (poolId 0))⟩ middle.world
    (packetId (n + 1)) (createMsg wideNet (salt 0)) queries tx _ (some payload)
    _ admin (initMsg (poolId 0)) _ hcreate hstart.registrations rfl hfresh
    hready.ranged.packet hcell
  have hpools : w'.store.pools = store.pools := by
    rw [(World.bookkept_of_deliverAll hdelivered).1.pools, hretried.pools,
      hstart.world]
  obtain ⟨w, log, frames⟩ := middle
  obtain rfl : frames = _ := hretried.frames.trans hstart.frames
  have hruns := @exec_delivers wideNet w w' log ⟨s.world, s.log, []⟩ []
    (querier 0 [] 0) ⟨admin, fee⟩ (initMsg (poolId 0)) (packetId (n + 1)) _
    hdelivered
  have hquiet : ∀ sub ∈ createMsg wideNet (salt 0) :: queries,
      isPacket sub = false := List.forall_mem_cons.mpr
    ⟨rfl, fun sub hsub => quiet_of_registration
      (hstart.registrations sub hsub)⟩
  rw [List.length_cons, List.length_append, List.length_singleton,
    hstart.length, ← List.cons_append, List.foldl_append,
    foldl_send_of_quiet hquiet] at hruns
  have hrun := Transition.exec_append_eq_some.mpr ⟨s, hsetup,
    Transition.exec_cons_eq_some.mpr ⟨called, hstart.step,
      Transition.exec_append_eq_some.mpr ⟨_, hretries, hruns⟩⟩⟩
  refine ⟨_, payload, setWithdrawPayload pool withdraw, hrun, ?_⟩
  have hne : wideNet.hostAddr (poolId 0) ≠ wideNet.hostAddr (poolId 1) := by
    intro hsame
    have hids : (0 : Nat) = 1 := Text.toString_inj (hostAddr_inj hsame)
    cases hids
  have htaken : log.taken = [packetId 0] :=
    (hretried.taken.trans hstart.taken).trans hready.taken
  obtain ⟨p, hp, hstarted⟩ := hstart.pool
  refine ⟨Map.save_self, ?_, hpayload, hstart.txType, rfl, ?_, ?_, ?_⟩
  · change packetId (n + 1) ∉ log.taken
    rw [htaken, List.mem_singleton]
    intro hid
    cases hid
  · rw [hstart.poolAddr]
    exact fun hsame => hne (hsame.trans haddr)
  · rw [hstart.poolAddr]
    exact ⟨p, (congrFun hpools _).trans hp, hstarted⟩
  · refine ⟨q, ?_⟩
    change w'.store.pools pool.icaAddr = some q
    rw [hpools, haddr, hstart.others _ hne.symm, hq]

/-- More calls than reply ids nest, and the answer runs the wrong callback. -/
theorem overrun_not_correlated
    (hn : n = Wheel.size replyIdRangeStart replyIdRangeEnd) :
    (∃ s, Transition.exec (step wideNet) nest (overrun n) = some s) ∧
    ¬ Transition.AllSteps (step wideNet)
      (fun _ _ s' => Correlated wideNet s') nest (overrun n) := by
  obtain ⟨s, sent, found, hrun, hmixed⟩ := overrun_mixes hn
  refine ⟨⟨s, hrun⟩, fun hall => not_correlated_of_mixed hmixed ?_⟩
  exact Transition.AllSteps.invariant_last (Correlated wideNet)
    (fun _ _ _ _ _ hcorrelated => hcorrelated)
    (correlated_of_recorded (recorded_genesis _ _ _)) hall hrun

/-- A user stakes shares. -/
def stakedShares : List Nest.Event :=
  register "pool" ++
    transaction (querier 0 [] 0) ⟨admin, fee⟩ (initMsg "pool") 6
      (packetId 1) ++
    .answer (packetId 1) .success (querier 0 [] 0) true ::
    (transaction (querier 0 [] 0) ⟨admin, fee⟩
        (.configPool { unchanged with lsmSupport := some true }) 0
        (packetId 0) ++
      transaction (querier 1 [] 0) ⟨user, [⟨"ibc/SHARE", 1000⟩]⟩
        (.stakeLsm user Sample.pool) 1 (packetId 2))

/-- The packet of the shares has failed, and they are to be sent back. -/
def refund (bankAccepts : Bool) : Nest.Event :=
  .answer (packetId 2) .error (querier 0 [] 0) bankAccepts

end Sample

/-- A million calls nest in one transaction, and the answer runs the wrong
callback; an answer whose callback has failed is taken when it is repeated. -/
theorem Nest.answers_correlated_fails :
    ((∃ s, Transition.exec (step Sample.wideNet) Sample.nest
        (Sample.overrun 1000001) = some s) ∧
      ¬ Transition.AllSteps (step Sample.wideNet)
        (fun _ _ s' => Correlated Sample.wideNet s') Sample.nest
        (Sample.overrun 1000001)) ∧
    (Transition.exec (step Sample.net) Sample.nest
      (Sample.stakedShares ++ [Sample.refund false])).any
        (fun s => decide (Sample.packetId 2 ∉ s.log.taken)) = true ∧
    (Transition.exec (step Sample.net) Sample.nest
      (Sample.stakedShares ++ [Sample.refund false, Sample.refund true])).any
        (fun s => decide (Sample.packetId 2 ∈ s.log.taken)) = true :=
  ⟨@Sample.overrun_not_correlated 1000001 (by decide), by decide +kernel,
    by decide +kernel⟩

end NeutronContracts
