/-
The registered queries along the steps of the chain: the start of a pool
registers four, and no other event touches them.
-/
import NeutronContracts.Chain.Registry
import NeutronContracts.StakeManager.Queries

namespace NeutronContracts

open StakeManager Fallible

namespace World

variable {net : Network} {delivery : Delivery} {w w' : World} {ev : Event}
  {sub : SubMsg} {subs : List SubMsg} {store store' : Storage}

/-- The queries that an accepted event registers, with their ids. -/
def registered (w : World) (ev : Event) : List (QueryKey × Nat) :=
  match ev.action with
  | .execute _ _ msg _ =>
      match msg.starting w.store with
      | some (poolAddr, withdrawAddr) =>
          (poolQueries poolAddr withdrawAddr).zipIdx w.nextQueryId
      | none => []
  | _ => []

/-- The ids of the queries are left alone. -/
structure SameQueries (w w' : World) : Prop where
  directory : w'.store.directory = w.store.directory
  next : w'.nextQueryId = w.nextQueryId

namespace SameQueries

theorem refl (w : World) : SameQueries w w := ⟨rfl, rfl⟩

theorem trans {u v : World} (h : SameQueries u v) (h' : SameQueries v w) :
    SameQueries u w :=
  ⟨h'.directory.trans h.directory, h'.next.trans h.next⟩

end SameQueries

theorem deliverReply_packet {id : PacketId} {replyId : Option Nat}
    (h : w.deliverReply replyId (.ibcTransferResponse id.2 id.1) = some w') :
    SameQueries w w' := by
  unfold deliverReply at h
  split at h
  · cases h
    exact .refl _
  · split at h
    · cases h
    · rename_i store hreply
      cases h
      obtain ⟨_, -, rfl⟩ := reply_packet_ok hreply
      exact ⟨rfl, rfl⟩

theorem sendPacket_queries (h : w.sendPacket delivery sub = some w') :
    SameQueries w w' := by
  unfold sendPacket at h
  split at h
  · cases h
  · split at h
    · cases h
    · have hsame := deliverReply_packet h
      exact ⟨hsame.directory, hsame.next⟩

theorem runToken_queries {addrValidate : String → Bool}
    {address sender : String} {msg : LsdToken.ExecuteMsg}
    (h : w.runToken addrValidate address sender msg = some w') :
    SameQueries w w' := by
  unfold runToken at h
  split at h
  · cases h
  · split at h <;> cases h
    exact ⟨rfl, rfl⟩

theorem deliver_unregistering (hsub : ∀ connectionId keys period,
      sub.msg ≠ .registerInterchainQuery connectionId keys period)
    (h : deliver net delivery w sub = some w') : SameQueries w w' := by
  obtain ⟨msg, replyOnSuccess, payload⟩ := sub
  cases msg with
  | wasmExecute address msg => exact runToken_queries h
  | wasmInstantiate2 admin codeId msg label salt =>
      simp only [deliver, createToken] at h
      split at h
      · cases h
      · split at h
        · cases h
        · split at h <;> cases h
          exact ⟨rfl, rfl⟩
  | bankSend toAddress amount =>
      simp only [deliver] at h
      split at h <;> cases h
      exact .refl _
  | ibcTransfer transfer => exact sendPacket_queries h
  | submitTx tx => exact sendPacket_queries h
  | registerInterchainAccount connectionId icaId fee =>
      cases h
      exact .refl _
  | registerInterchainQuery connectionId keys period =>
      exact absurd rfl (hsub connectionId keys period)
  | updateInterchainQuery queryId newKeys newPeriod =>
      cases h
      unfold watch
      split <;> exact ⟨rfl, rfl⟩

theorem deliverAll_unregistering (hsubs : Unregistering subs)
    (h : deliverAll net delivery w subs = some w') : SameQueries w w' := by
  induction subs generalizing w with
  | nil =>
      cases h
      exact .refl _
  | cons sub rest ih =>
      obtain ⟨middle, hfirst, hrest⟩ := deliverAll_cons h
      rw [Unregistering, List.forall_mem_cons] at hsubs
      exact (deliver_unregistering hsubs.1 hfirst).trans (ih hsubs.2 hrest)

/-- The reply to a registration gives its reply id the next query id. -/
theorem deliver_registering {connectionId : String} {keys : KVKeys}
    {period replyId : Nat}
    (h : deliver net delivery w
      ⟨.registerInterchainQuery connectionId keys period, some replyId,
        none⟩ = some w') :
    w'.store.directory =
        ⟨⟨w.store.directory.cells.save replyId w.nextQueryId,
          w.store.directory.latest⟩, w.store.directory.cellOf⟩ ∧
      w'.nextQueryId = w.nextQueryId + 1 := by
  simp only [deliver, registerQuery, deliverReply] at h
  split at h
  · cases h
  · rename_i store hreply
    cases h
    obtain rfl := reply_query_ok hreply
    unfold watch
    split <;> exact ⟨rfl, rfl⟩

/-- The start of a pool registers its four queries. -/
theorem deliverAll_started {querier : Querier} {rsp : Response}
    {poolAddr withdrawAddr : String} {validators : List String}
    (hstarted : Started w.store store rsp querier poolAddr withdrawAddr
      validators)
    (h : deliverAll net delivery { w with store := store } rsp.messages =
      some w') :
    w'.store.directory =
        ((poolQueries poolAddr withdrawAddr).zipIdx w.nextQueryId).foldl
          enterQuery w.store.directory ∧
      w'.nextQueryId = w.nextQueryId + 4 := by
  obtain ⟨_, _, _, _, _, _, _, _, _, _, _, _, _, _, hmsgs⟩ := hstarted.messages
  rw [hmsgs] at h
  obtain ⟨u₁, h₁, h⟩ := deliverAll_cons h
  obtain ⟨u₂, h₂, h⟩ := deliverAll_cons h
  obtain ⟨u₃, h₃, h⟩ := deliverAll_cons h
  obtain ⟨u₄, h₄, h⟩ := deliverAll_cons h
  obtain ⟨u₅, h₅, h⟩ := deliverAll_cons h
  have hfirst := deliver_unregistering (by simp) h₁
  have hlast := deliverAll_unregistering (by simp [Unregistering]) h
  obtain ⟨hpool, hnext₂⟩ := deliver_registering h₂
  obtain ⟨hwithdraw, hnext₃⟩ := deliver_registering h₃
  obtain ⟨hdelegations, hnext₄⟩ := deliver_registering h₄
  obtain ⟨hvalidators, hnext₅⟩ := deliver_registering h₅
  constructor
  · rw [hlast.directory, hvalidators, hdelegations, hwithdraw, hpool, hnext₄,
      hnext₃, hnext₂, hfirst.directory, hfirst.next]
    simp only [Storage.directory, hstarted.asked.addresses,
      hstarted.asked.latest, hstarted.asked.queries]
    rfl
  · rw [hlast.next, hnext₅, hnext₄, hnext₃, hnext₂, hfirst.next]

/-- Calls that start no pool leave the queries alone. -/
theorem execute_unregistering {querier : Querier} {env : Env}
    {info : MessageInfo} {msg : ExecuteMsg} {rsp : Response}
    (h : execute store querier env info msg = .ok (store', rsp))
    (hstart : msg.starting store = none) :
    Unregistering rsp.messages ∧ store'.directory = store.directory := by
  cases hstarts : msg.startsPool with
  | false =>
      have hown := execute_own_registry h
      obtain ⟨haddresses, hlatest⟩ := hown.asked hstarts
      refine ⟨(execute_emits h).unregistering hstarts, ?_⟩
      rw [Storage.directory, haddresses, hlatest, hown.queries]
      rfl
  | true =>
      have hretry : ∃ poolAddr, Retried store store' rsp poolAddr := by
        refine execute_retried h ?_ hstart
        cases msg with
        | initPool param => exact .inl ⟨param, rfl⟩
        | migratePool param => exact .inr ⟨param, rfl⟩
        | _ => cases hstarts
      obtain ⟨poolAddr, hretry⟩ := hretry
      refine ⟨unregistering_of_retried hretry, ?_⟩
      obtain ⟨_, _, -, -, rfl, -⟩ := hretry
      rfl

/-- What an accepted event does to the queries. -/
theorem queries_step (hs : Sound net w) (hstep : w.step net ev = some w') :
    w'.store.directory =
        (registered w ev).foldl enterQuery w.store.directory ∧
      w'.nextQueryId = w.nextQueryId + (registered w ev).length := by
  have hnone : registered w ev = [] →
      SameQueries w w' → w'.store.directory =
        (registered w ev).foldl enterQuery w.store.directory ∧
      w'.nextQueryId = w.nextQueryId + (registered w ev).length := by
    intro hnone hsame
    rw [hnone]
    exact ⟨hsame.directory, hsame.next⟩
  obtain ⟨-, -, hact⟩ := step_eq_some hstep
  cases haction : ev.action with
  | execute querier info msg id =>
      obtain ⟨store, rsp, sent, hexec⟩ := executed_of_step hs hstep haction
      have hcall := hexec.call
      cases hstart : msg.starting w.store with
      | some accounts =>
          obtain ⟨poolAddr, withdrawAddr⟩ := accounts
          obtain ⟨hstarted, -⟩ := execute_started hcall hstart
          obtain ⟨hdirectory, hnext⟩ := deliverAll_started
            (w := { w with block := ev.block }) hstarted hexec.delivered
          simp only [registered, haction, hstart]
          exact ⟨hdirectory, hnext⟩
      | none =>
          refine hnone (by simp [registered, haction, hstart]) ?_
          obtain ⟨hunregistering, hdirectory⟩ :=
            execute_unregistering hcall hstart
          have hsame := deliverAll_unregistering hunregistering hexec.delivered
          exact ⟨hsame.directory.trans hdirectory, hsame.next⟩
  | answer id answer querier bankAccepts =>
      refine hnone (by simp [registered, haction]) ?_
      obtain ⟨packet, hpacket, hhandled⟩ := handled_of_step hs hstep haction
      cases hhandled with
      | handled hpayload hcall houtcome hdelivered =>
          have hsame := deliverAll_unregistering (callback_unregistering hcall)
            hdelivered
          obtain ⟨_, _, _, _, rfl⟩ := callback_pools hcall
          exact ⟨hsame.directory, hsame.next⟩
      | vain hvain hsame =>
          subst hsame
          exact ⟨rfl, rfl⟩
  | openAck icaId channelId counterpartyChannelId hostConnectionId =>
      refine hnone (by simp [registered, haction]) ?_
      rw [haction] at hact
      simp only [act, sudoEntry] at hact
      split at hact
      case h_1 => cases hact
      case h_2 store rsp hcall =>
          obtain rfl := Option.some.inj hact
          obtain ⟨_, _, _, _, _, _, _, _, -, -, -, -, rfl, -⟩ :=
            sudoOpenAck_ok hcall
          split <;> exact ⟨rfl, rfl⟩
  | kvQueryResult queryId querier =>
      refine hnone (by simp [registered, haction]) ?_
      rw [haction] at hact
      simp only [act, commit, sudoEntry] at hact
      split at hact
      case h_1 => cases hact
      case h_2 store rsp hcall =>
          obtain ⟨⟨replies, needed, rfl⟩, hmsgs⟩ := sudoKvQueryResult_ok hcall
          have hsame := deliverAll_unregistering (by
            rcases hmsgs with hmsgs | hmsgs <;> simp [Unregistering, hmsgs])
            hact
          exact ⟨hsame.directory, hsame.next⟩
  | token addrValidate address sender msg =>
      refine hnone (by simp [registered, haction]) ?_
      rw [haction] at hact
      simp only [act] at hact
      split at hact
      case isTrue => cases hact
      case isFalse =>
          have hsame := runToken_queries hact
          exact ⟨hsame.directory, hsame.next⟩

end World

end NeutronContracts
