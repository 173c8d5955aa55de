/-
What the delivery of a response does to the chain: the records of the stake
manager stay as the handler left them, and the packets of the response become
unanswered packets with the payload the handler attached.
-/
import NeutronContracts.Chain.World

namespace NeutronContracts

open StakeManager

/-- Replies write nothing but the book-keeping of packets and queries. -/
def Bookkept (store store' : Storage) : Prop :=
  ∃ payloads queryIds replyIds, store' =
    { store with
      sudoPayload := payloads
      replyIdToQueryId := queryIds
      queryIdToReplyId := replyIds }

namespace Bookkept

theorem refl (store : Storage) : Bookkept store store := ⟨_, _, _, rfl⟩

theorem trans {first second third : Storage} (h : Bookkept first second)
    (h' : Bookkept second third) : Bookkept first third := by
  obtain ⟨_, _, _, rfl⟩ := h
  obtain ⟨_, _, _, rfl⟩ := h'
  exact ⟨_, _, _, rfl⟩

variable {store store' : Storage}

theorem pools (h : Bookkept store store') : store'.pools = store.pools := by
  obtain ⟨_, _, _, rfl⟩ := h
  rfl

theorem infoOfIcaId (h : Bookkept store store') :
    store'.infoOfIcaId = store.infoOfIcaId := by
  obtain ⟨_, _, _, rfl⟩ := h
  rfl

theorem unstakesOfIndex (h : Bookkept store store') :
    store'.unstakesOfIndex = store.unstakesOfIndex := by
  obtain ⟨_, _, _, rfl⟩ := h
  rfl

theorem unstakesIndexForUser (h : Bookkept store store') :
    store'.unstakesIndexForUser = store.unstakesIndexForUser := by
  obtain ⟨_, _, _, rfl⟩ := h
  rfl

theorem stack (h : Bookkept store store') : store'.stack = store.stack := by
  obtain ⟨_, _, _, rfl⟩ := h
  rfl

theorem validatorsUnbondsTime (h : Bookkept store store') :
    store'.validatorsUnbondsTime = store.validatorsUnbondsTime := by
  obtain ⟨_, _, _, rfl⟩ := h
  rfl

theorem replyIdToPayload (h : Bookkept store store') :
    store'.replyIdToPayload = store.replyIdToPayload := by
  obtain ⟨_, _, _, rfl⟩ := h
  rfl

end Bookkept

/-- The messages that send a packet. -/
def isPacket (sub : SubMsg) : Bool :=
  match sub.msg with
  | .ibcTransfer _ => true
  | .submitTx _ => true
  | _ => false

/-- The packets of a response. -/
def packets (subs : List SubMsg) : List SubMsg := subs.filter isPacket

/-- The payload of a packet is the one its reply will find. -/
def Queued (store : Storage) (sub : SubMsg) : Prop :=
  match sub.replyOnSuccess with
  | some id => store.replyIdToPayload id = sub.payload
  | none => sub.payload = none

/-- The waiting packet a sub-message becomes. -/
def StakeManager.SubMsg.packet (sub : SubMsg) (sender : String)
    (origin : ExecuteMsg) : Packet :=
  ⟨sub.msg, sub.payload, sender, origin⟩

namespace World

variable {net : Network} {delivery : Delivery} {w w' : World} {sub : SubMsg}
  {subs : List SubMsg}

/-- The delivery of messages without a packet: only tokens, queries and the
book-keeping of queries change. -/
structure Quiet (w w' : World) : Prop where
  block : w'.block = w.block
  store : Bookkept w.store w'.store
  pending : w'.pending = w.pending
  used : w'.used = w.used
  sudoPayload : w'.store.sudoPayload = w.store.sudoPayload

namespace Quiet

theorem refl (w : World) : Quiet w w :=
  ⟨rfl, .refl _, rfl, rfl, rfl⟩

theorem trans {u v : World} (h : Quiet u v) (h' : Quiet v w) : Quiet u w :=
  ⟨h'.block.trans h.block, h.store.trans h'.store,
    h'.pending.trans h.pending, h'.used.trans h.used,
    h'.sudoPayload.trans h.sudoPayload⟩

end Quiet

theorem runToken_quiet {addrValidate : String → Bool}
    {address sender : String} {msg : LsdToken.ExecuteMsg}
    (h : w.runToken addrValidate address sender msg = some w') :
    Quiet w w' ∧ w'.store = w.store ∧ w'.watched = w.watched := by
  unfold runToken at h
  split at h
  · cases h
  · split at h <;> cases h
    exact ⟨⟨rfl, .refl _, rfl, rfl, rfl⟩, rfl, rfl⟩

theorem createToken_quiet {querier : Querier} {codeId : Nat}
    {msg : LsdInstantiateMsg} {salt : String}
    (h : w.createToken net querier codeId msg salt = some w') :
    Quiet w w' ∧ w'.watched = w.watched := by
  unfold createToken at h
  split at h
  · cases h
  · split at h
    · cases h
    · split at h <;> cases h
      exact ⟨⟨rfl, .refl _, rfl, rfl, rfl⟩, rfl⟩

theorem watch_quiet (w : World) (keys : Option KVKeys) :
    Quiet w (w.watch keys) ∧ (w.watch keys).store = w.store ∧
      (w.watch keys).tokens = w.tokens := by
  unfold watch
  split <;> exact ⟨⟨rfl, .refl _, rfl, rfl, rfl⟩, rfl, rfl⟩

theorem registerQuery_quiet {keys : KVKeys}
    (h : w.registerQuery sub keys = some w') :
    Quiet w w' ∧ w'.tokens = w.tokens ∧
      w'.watched = (w.watch (some keys)).watched := by
  unfold registerQuery at h
  have hquiet := watch_quiet { w with nextQueryId := w.nextQueryId + 1 }
    (some keys)
  have hwatched : (watch { w with nextQueryId := w.nextQueryId + 1 }
      (some keys)).watched = (w.watch (some keys)).watched := by
    unfold watch
    split <;> rfl
  generalize watch { w with nextQueryId := w.nextQueryId + 1 } (some keys) = v
    at h hquiet hwatched
  obtain ⟨hquiet, hstore, htokens⟩ := hquiet
  unfold deliverReply at h
  split at h
  · cases h
    exact ⟨⟨hquiet.block, hquiet.store, hquiet.pending, hquiet.used,
      hquiet.sudoPayload⟩, htokens, hwatched⟩
  · split at h
    · cases h
    · rename_i store hreply
      cases h
      obtain rfl := reply_query_ok hreply
      rw [hstore]
      exact ⟨⟨hquiet.block, ⟨_, _, _, rfl⟩, hquiet.pending, hquiet.used,
        rfl⟩, htokens, hwatched⟩

/-- A message without a packet is delivered quietly. -/
theorem deliver_quiet (hsub : isPacket sub = false)
    (h : deliver net delivery w sub = some w') : Quiet w w' := by
  obtain ⟨msg, replyOnSuccess, payload⟩ := sub
  cases msg with
  | wasmExecute address msg => exact (runToken_quiet h).1
  | wasmInstantiate2 admin codeId msg label salt =>
      exact (createToken_quiet h).1
  | bankSend toAddress amount =>
      simp only [deliver] at h
      split at h <;> cases h
      exact .refl _
  | ibcTransfer transfer => simp [isPacket] at hsub
  | submitTx tx => simp [isPacket] at hsub
  | registerInterchainAccount connectionId icaId fee =>
      cases h
      exact .refl _
  | registerInterchainQuery connectionId keys period =>
      exact (registerQuery_quiet h).1
  | updateInterchainQuery queryId newKeys newPeriod =>
      cases h
      exact (watch_quiet w newKeys).1

/-- A packet is sent under a fresh id, and the reply stores its payload under
that id. -/
structure Sent (delivery : Delivery) (sub : SubMsg) (w w' : World) : Prop where
  block : w'.block = w.block
  store : Bookkept w.store w'.store
  tokens : w'.tokens = w.tokens
  watched : w'.watched = w.watched
  sent : ∃ id sender origin, delivery.call = some (id, sender, origin) ∧
    id ∉ w.used ∧ w'.used = id :: w.used ∧
    w'.pending = w.pending.save id (sub.packet sender origin) ∧
    (Queued w.store sub →
      (sub.payload = none → w.store.sudoPayload id = none) →
      w'.store.sudoPayload id = sub.payload ∧
        ∀ other, other ≠ id →
          w'.store.sudoPayload other = w.store.sudoPayload other)

theorem sendPacket_sent (h : w.sendPacket delivery sub = some w') :
    Sent delivery sub w w' := by
  unfold sendPacket at h
  split at h
  · cases h
  · rename_i id sender origin hcall
    split at h
    · cases h
    · rename_i hfresh
      unfold deliverReply at h
      split at h
      · rename_i hreply
        cases h
        refine ⟨rfl, .refl _, rfl, rfl, id, sender, origin, hcall, hfresh, rfl,
          rfl, fun hqueued hnone => ⟨?_, fun _ _ => rfl⟩⟩
        have hpayload : sub.payload = none := by
          simpa [Queued, hreply] using hqueued
        rw [hpayload]
        exact hnone hpayload
      · rename_i replyId hreply
        split at h
        · cases h
        · rename_i store hstore
          cases h
          obtain ⟨payload, hpayload, rfl⟩ := reply_packet_ok hstore
          refine ⟨rfl, ⟨_, _, _, rfl⟩, rfl, rfl, id, sender, origin, hcall,
            hfresh, rfl, rfl, fun hqueued _ => ⟨?_, fun other hother => ?_⟩⟩
          · have hsome : w.store.replyIdToPayload replyId = sub.payload := by
              simpa [Queued, hreply] using hqueued
            rw [← hsome]
            exact (Map.save_self).trans hpayload.symm
          · exact Map.save_of_ne hother

theorem deliver_sent (hsub : isPacket sub = true)
    (h : deliver net delivery w sub = some w') : Sent delivery sub w w' := by
  obtain ⟨msg, replyOnSuccess, payload⟩ := sub
  cases msg with
  | ibcTransfer transfer => exact sendPacket_sent h
  | submitTx tx => exact sendPacket_sent h
  | _ => simp [isPacket] at hsub

theorem deliverAll_cons (h : deliverAll net delivery w (sub :: subs) =
    some w') : ∃ middle, deliver net delivery w sub = some middle ∧
      deliverAll net delivery middle subs = some w' :=
  Transition.exec_cons_eq_some.mp h

theorem deliverAll_quiet (hsubs : packets subs = [])
    (h : deliverAll net delivery w subs = some w') : Quiet w w' := by
  induction subs generalizing w with
  | nil =>
      cases h
      exact .refl _
  | cons sub rest ih =>
      obtain ⟨middle, hfirst, hrest⟩ := deliverAll_cons h
      simp only [packets, List.filter_eq_nil_iff, List.mem_cons,
        forall_eq_or_imp, Bool.not_eq_true] at hsubs
      refine (deliver_quiet hsubs.1 hfirst).trans (ih ?_ hrest)
      simpa [packets, List.filter_eq_nil_iff] using hsubs.2

theorem bookkept_of_deliver (h : deliver net delivery w sub = some w') :
    Bookkept w.store w'.store ∧ w'.block = w.block := by
  cases hsub : isPacket sub with
  | true => exact ⟨(deliver_sent hsub h).store, (deliver_sent hsub h).block⟩
  | false => exact ⟨(deliver_quiet hsub h).store, (deliver_quiet hsub h).block⟩

/-- Whatever is delivered, the records stay as the handler left them. -/
theorem bookkept_of_deliverAll
    (h : deliverAll net delivery w subs = some w') :
    Bookkept w.store w'.store ∧ w'.block = w.block := by
  induction subs generalizing w with
  | nil =>
      cases h
      exact ⟨.refl _, rfl⟩
  | cons sub rest ih =>
      obtain ⟨middle, hfirst, hrest⟩ := deliverAll_cons h
      obtain ⟨hstore, hblock⟩ := bookkept_of_deliver hfirst
      obtain ⟨hstore', hblock'⟩ := ih hrest
      exact ⟨hstore.trans hstore', hblock'.trans hblock⟩

/-- The delivery of a response with a single packet. -/
structure SentOne (delivery : Delivery) (sub : SubMsg) (w w' : World) :
    Prop where
  block : w'.block = w.block
  store : Bookkept w.store w'.store
  sent : ∃ id sender origin, delivery.call = some (id, sender, origin) ∧
    id ∉ w.used ∧ w'.used = id :: w.used ∧
    w'.pending = w.pending.save id (sub.packet sender origin) ∧
    (Queued w.store sub →
      (sub.payload = none → w.store.sudoPayload id = none) →
      w'.store.sudoPayload id = sub.payload ∧
        ∀ other, other ≠ id →
          w'.store.sudoPayload other = w.store.sudoPayload other)

theorem Quiet.queued {u v : World} (h : Quiet u v)
    (hqueued : Queued u.store sub) : Queued v.store sub := by
  unfold Queued at hqueued ⊢
  rwa [h.store.replyIdToPayload]

theorem deliverAll_sent {packet : SubMsg} (hsubs : packets subs = [packet])
    (h : deliverAll net delivery w subs = some w') :
    SentOne delivery packet w w' := by
  induction subs generalizing w with
  | nil => simp [packets] at hsubs
  | cons sub rest ih =>
      obtain ⟨middle, hfirst, hrest⟩ := deliverAll_cons h
      cases hsub : isPacket sub with
      | true =>
          -- the packet is sent now, the rest is quiet
          simp only [packets, List.filter_cons, hsub, if_true,
            List.cons.injEq] at hsubs
          obtain ⟨rfl, hnone⟩ := hsubs
          have hsent := deliver_sent hsub hfirst
          have hquiet := deliverAll_quiet hnone hrest
          obtain ⟨id, sender, origin, hcall, hfresh, hused, hpending,
            hpayload⟩ := hsent.sent
          refine ⟨hquiet.block.trans hsent.block,
            hsent.store.trans hquiet.store, id, sender, origin, hcall, hfresh,
            hquiet.used.trans hused, hquiet.pending.trans hpending, ?_⟩
          rw [hquiet.sudoPayload]
          exact hpayload
      | false =>
          simp only [packets, List.filter_cons, hsub, Bool.false_eq_true,
            if_false] at hsubs
          have hquiet := deliver_quiet hsub hfirst
          have hsent := ih hsubs hrest
          obtain ⟨id, sender, origin, hcall, hfresh, hused, hpending,
            hpayload⟩ := hsent.sent
          rw [hquiet.used] at hfresh hused
          rw [hquiet.pending] at hpending
          rw [hquiet.sudoPayload] at hpayload
          exact ⟨hsent.block.trans hquiet.block,
            hquiet.store.trans hsent.store, id, sender, origin, hcall, hfresh,
            hused, hpending, fun hqueued => hpayload (hquiet.queued hqueued)⟩

end World

end NeutronContracts
