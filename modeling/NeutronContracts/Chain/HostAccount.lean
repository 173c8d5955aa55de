/-
The account of a pool on the host chain.  It is moved by the packets of the
stake manager alone: the transfer of an era brings coins, a bond step delegates
or undelegates them, a collect step brings the rewards, a rebond step delegates
these, and a withdrawal pays an unstaker.
-/
import NeutronContracts.Chain.Payouts
import NeutronContracts.Properties.Custody
import NeutronContracts.Properties.Restake

namespace NeutronContracts

open StakeManager Fallible Outstanding

/-- What a message sends from the account `a`. -/
def StakeManager.HostMsg.sentFrom (a : String) : HostMsg → Nat
  | .send fromAddress _ amount =>
      if fromAddress = a then (amount.map (·.amount)).sum else 0
  | _ => 0

/-- What a message begins to unbond for the account `a`. -/
def StakeManager.HostMsg.undelegatedBy (a : String) : HostMsg → Nat
  | .undelegate delegator _ amount =>
      if delegator = a then amount.amount else 0
  | _ => 0

/-- What a packet takes from the account `a`. -/
def StakeManager.CosmosMsg.takenFrom (a : String) (msg : CosmosMsg) : Nat :=
  hostTotal (HostMsg.delegatedBy a) msg + hostTotal (HostMsg.sentFrom a) msg

/-- What a packet brings to the account `a`, now or when it is unbonded: coins
that are sent or undelegated there, or a transfer of the denom. -/
def StakeManager.CosmosMsg.broughtTo (a denom : String) : CosmosMsg → Nat
  | .ibcTransfer transfer =>
      if transfer.receiver = a ∧ transfer.token.denom = denom then
        transfer.token.amount
      else 0
  | msg =>
      hostTotal (HostMsg.undelegatedBy a) msg + hostTotal (HostMsg.sentTo a) msg

/-- The account of a pool: what was brought to it, what its steps have
delegated, what was paid to unstakers, and what the admin has placed with
validators. -/
structure HostAccount where
  received : Nat
  staked : Nat
  paid : Nat
  placed : Nat

namespace HostAccount

def empty : HostAccount := ⟨0, 0, 0, 0⟩

/-- An acknowledged packet moves the account of pool `a`.  Only the delegation
by an admin has no payload. -/
def settle (host : HostAccount) (a denom : String) (packet : Packet) :
    HostAccount :=
  match packet.kind a with
  | some .userWithdraw =>
      { host with
        received := host.received + packet.msg.broughtTo a denom
        paid := host.paid + packet.msg.takenFrom a }
  | some _ =>
      { host with
        received := host.received + packet.msg.broughtTo a denom
        staked := host.staked + packet.msg.takenFrom a }
  | none =>
      if packet.payload.isNone then
        { host with placed := host.placed + packet.msg.takenFrom a }
      else host

end HostAccount

/-- The account of pool `a` along a run. -/
def World.keepHost (a : String) (host : HostAccount) (w : World) (ev : Event)
    (_ : World) : HostAccount :=
  match ev.action with
  | .answer id .success _ _ =>
      match w.pending id, w.store.pools a with
      | some packet, some p => host.settle a p.ibcDenom packet
      | _, _ => host
  | _ => host

/-! ### The messages of the steps -/

namespace StakeManager

variable {store next : Storage} {querier : Querier} {env : Env} {a : String}
  {p : PoolInfo} {selectVals : List String} {msgs : List ProtobufAny}
  {text : String}

/-- What is allocated and what is left make up the amount. -/
theorem Allocates.total {currentTime period remaining left : Nat}
    {infos result : List ValidatorUnbondInfo} {delegations : List Delegation}
    (h : Allocates currentTime period store remaining infos delegations next
      left result) :
    (result.map (·.unbondAmount)).sum + left =
      (infos.map (·.unbondAmount)).sum + remaining := by
  induction h with
  | nil => rfl
  | enough => rfl
  | skip _ _ _ ih => exact ih
  | choose _ _ _ ih =>
      rw [ih, List.map_append, List.sum_append]
      simp

theorem Unbonds.total {delegations : List Delegation} {amount : Nat}
    {infos : List ValidatorUnbondInfo}
    (h : Unbonds store env p delegations amount next infos) :
    (infos.map (·.unbondAmount)).sum = amount := by
  cases h with
  | nothing hzero => exact hzero.symm
  | allocated hpos hne halloc =>
      have htotal := (allocateUnbondAmount_ok halloc).total
      simpa using htotal

/-- The sum of `f` over a list of messages. -/
def hostSum (f : HostMsg → Nat) (msgs : List ProtobufAny) : Nat :=
  (msgs.map fun m => f m.value).sum

theorem hostSum_append (f : HostMsg → Nat) (first second : List ProtobufAny) :
    hostSum f (first ++ second) = hostSum f first + hostSum f second := by
  simp [hostSum]

theorem hostSum_eq_zero {f : HostMsg → Nat}
    (h : ∀ m ∈ msgs, f m.value = 0) : hostSum f msgs = 0 := by
  rw [hostSum, List.sum_eq_zero]
  intro n hn
  obtain ⟨m, hm, rfl⟩ := List.mem_map.mp hn
  exact h m hm

/-- Messages that only delegate. -/
def OnlyDelegates (a : String) (msgs : List ProtobufAny) : Prop :=
  ∀ m ∈ msgs, m.value.sentFrom a = 0 ∧ m.value.undelegatedBy a = 0 ∧
    m.value.sentTo a = 0

theorem onlyDelegates_split (a b denom : String) (quot rest : Nat)
    (validators : List String) :
    OnlyDelegates a (splitDelegations b denom quot rest validators) := by
  intro m hm
  cases validators with
  | nil => cases hm
  | cons first others =>
      rcases List.mem_cons.mp hm with rfl | hm
      · exact ⟨rfl, rfl, rfl⟩
      · obtain ⟨_, -, rfl⟩ := List.mem_map.mp hm
        exact ⟨rfl, rfl, rfl⟩

/-- What messages take from the account `a` and what they bring to it. -/
structure Moves (a : String) (msgs : List ProtobufAny) (taken brought : Nat) :
    Prop where
  taken : hostSum (HostMsg.delegatedBy a) msgs +
    hostSum (HostMsg.sentFrom a) msgs = taken
  brought : hostSum (HostMsg.undelegatedBy a) msgs +
    hostSum (HostMsg.sentTo a) msgs = brought

theorem OnlyDelegates.moves {taken : Nat} (h : OnlyDelegates a msgs)
    (htaken : hostSum (HostMsg.delegatedBy a) msgs = taken) :
    Moves a msgs taken 0 := by
  constructor
  · rw [hostSum_eq_zero fun m hm => (h m hm).1, htaken, Nat.add_zero]
  · rw [hostSum_eq_zero fun m hm => (h m hm).2.1,
      hostSum_eq_zero fun m hm => (h m hm).2.2]

/-- A bond step that stakes delegates what the era brings in more than it
takes out. -/
theorem moves_stake (h : eraStakeMsgs a p selectVals = .ok msgs) :
    Moves a msgs (p.eraSnapshot.bond - p.eraSnapshot.unbond) 0 := by
  cases selectVals with
  | nil => cases h
  | cons first rest =>
      simp only [eraStakeMsgs, bind_eq_ok, rejectIf_eq_ok] at h
      obtain ⟨_, -, h⟩ := h
      split at h
      · cases h
        have hrewards : ∀ m ∈ rest.map (genWithdrawRewardTxs a),
            m.value.delegatedBy a = 0 ∧ m.value.sentFrom a = 0 ∧
              m.value.undelegatedBy a = 0 ∧ m.value.sentTo a = 0 := by
          intro m hm
          obtain ⟨_, -, rfl⟩ := List.mem_map.mp hm
          exact ⟨rfl, rfl, rfl, rfl⟩
        refine OnlyDelegates.moves (fun m hm => ?_) ?_
        · rcases List.mem_cons.mp hm with rfl | hm
          · exact ⟨rfl, rfl, rfl⟩
          · exact (hrewards m hm).2
        · rw [← List.singleton_append, hostSum_append,
            hostSum_eq_zero fun m hm => (hrewards m hm).1]
          simp [hostSum, genDelegationTxs, HostMsg.delegatedBy]
      · cases h
        refine (onlyDelegates_split _ _ _ _ _ _).moves ?_
        rw [hostSum, splitDelegations_total]
        exact Nat.add_sub_of_le (Nat.div_mul_le_self _ _)

/-- A bond step that unbonds undelegates what the era takes out more than it
brings in. -/
theorem moves_exits {infos : List ValidatorUnbondInfo} {denom : String}
    {amount : Nat} (validators : List String)
    (htotal : (infos.map (·.unbondAmount)).sum = amount) :
    Moves a (infos.map (fun unbond =>
      genUndelegateTxs a unbond.validator denom unbond.unbondAmount) ++
        withdrawRewardTxs a validators (infos.map (·.validator))) 0
      amount := by
  have hrewards : ∀ m ∈ withdrawRewardTxs a validators
      (infos.map (·.validator)), m.value.delegatedBy a = 0 ∧
        m.value.sentFrom a = 0 ∧ m.value.undelegatedBy a = 0 ∧
          m.value.sentTo a = 0 := by
    intro m hm
    unfold withdrawRewardTxs at hm
    split at hm
    · obtain ⟨_, -, rfl⟩ := List.mem_map.mp hm
      exact ⟨rfl, rfl, rfl, rfl⟩
    · cases hm
  have hexits : ∀ m ∈ infos.map (fun unbond =>
      genUndelegateTxs a unbond.validator denom unbond.unbondAmount),
      m.value.delegatedBy a = 0 ∧ m.value.sentFrom a = 0 ∧
        m.value.sentTo a = 0 := by
    intro m hm
    obtain ⟨_, -, rfl⟩ := List.mem_map.mp hm
    exact ⟨rfl, rfl, rfl⟩
  have hsum : hostSum (HostMsg.undelegatedBy a) (infos.map fun unbond =>
      genUndelegateTxs a unbond.validator denom unbond.unbondAmount) =
        amount := by
    rw [← htotal, hostSum, List.map_map]
    simp [Function.comp_def, genUndelegateTxs, HostMsg.undelegatedBy]
  constructor
  · rw [hostSum_append, hostSum_append,
      hostSum_eq_zero fun m hm => (hexits m hm).1,
      hostSum_eq_zero fun m hm => (hexits m hm).2.1,
      hostSum_eq_zero fun m hm => (hrewards m hm).1,
      hostSum_eq_zero fun m hm => (hrewards m hm).2.1]
  · rw [hostSum_append, hostSum_append, hsum,
      hostSum_eq_zero fun m hm => (hexits m hm).2.2,
      hostSum_eq_zero fun m hm => (hrewards m hm).2.2.1,
      hostSum_eq_zero fun m hm => (hrewards m hm).2.2.2]
    simp only [Nat.add_zero]

/-- A bond step keeps in the account what the snapshot unbonds, and delegates
the rest of its bond. -/
theorem moves_bond (h : eraBondMsgs store querier env a p selectVals =
      .ok (next, msgs, text)) :
    ∃ taken brought, Moves a msgs taken brought ∧
      taken + p.eraSnapshot.unbond = brought + p.eraSnapshot.bond := by
  cases bondMsgs_of_ok h with
  | unbond hless hquery hfresh hunbonds =>
      exact ⟨_, _, moves_exits _ hunbonds.total, by omega⟩
  | stake hmore hstake => exact ⟨_, _, moves_stake hstake, by omega⟩

/-- A rebond step delegates the restake amount. -/
theorem moves_rebond (h : rebondMsgs a p selectVals = .ok msgs) :
    Moves a msgs p.eraSnapshot.restakeAmount 0 := by
  have htotal := rebondMsgs_total h
  cases selectVals with
  | nil => cases h
  | cons first rest =>
      simp only [rebondMsgs, bind_eq_ok, pure_eq_ok] at h
      obtain ⟨_, -, rfl⟩ := h
      exact (onlyDelegates_split _ _ _ _ _ _).moves htotal

/-- Setting the withdraw address takes nothing from any account. -/
theorem setWithdrawSubMsg_taken {poolIcaInfo withdrawIcaInfo : IcaInfo}
    {sub : SubMsg} (h : setWithdrawSubMsg store querier p poolIcaInfo
      withdrawIcaInfo = .ok (next, sub)) : sub.msg.takenFrom a = 0 := by
  simp only [setWithdrawSubMsg, bind_eq_ok, msgWithSudoCallback_eq,
    pure_eq_ok, Prod.mk.injEq] at h
  obtain ⟨_, -, -, rfl⟩ := h
  rfl

theorem retrySetWithdraw_taken {store' : Storage} {rsp : Response}
    {info : MessageInfo} {poolIcaInfo withdrawIcaInfo : IcaInfo} {fee : Nat}
    (h : retrySetWithdraw store querier info p poolIcaInfo withdrawIcaInfo
      fee = .ok (store', rsp)) :
    ∀ sub ∈ packets rsp.messages, sub.msg.takenFrom a = 0 := by
  simp only [retrySetWithdraw, bind_eq_ok, Prod.exists, pure_eq_ok,
    Prod.mk.injEq] at h
  obtain ⟨_, -, _, sub, hset, -, rfl⟩ := h
  intro sub' hsub
  obtain rfl := List.mem_singleton.mp (List.mem_filter.mp hsub).1
  exact setWithdrawSubMsg_taken hset

theorem dealPool_taken {store' : Storage} {rsp : Response}
    {info : MessageInfo} {poolIcaInfo withdrawIcaInfo : IcaInfo}
    {lsdCodeId : Nat} {name symbol : String}
    (h : dealPool store querier env info p poolIcaInfo withdrawIcaInfo
      lsdCodeId name symbol = .ok (store', rsp)) :
    ∀ sub ∈ packets rsp.messages, sub.msg.takenFrom a = 0 := by
  simp only [dealPool, bind_eq_ok, orError_eq_ok, Prod.exists, pure_eq_ok,
    Prod.mk.injEq] at h
  obtain ⟨_, -, _, -, _, -, _, -, _, -, middle, subs, hqueries, next, sub,
    hset, -, rfl⟩ := h
  obtain ⟨-, _, _, _, _, _, _, rfl⟩ := registerPoolQueries_ok hqueries
  intro sub' hsub
  simp only [packets, Response.addSubmessages_messages,
    Response.addMessage_messages, Response.new_messages, List.nil_append,
    List.mem_filter, List.mem_append, List.mem_cons, List.not_mem_nil,
    or_false] at hsub
  -- the other messages are no packets
  obtain ⟨rfl | (rfl | rfl | rfl | rfl) | rfl, hpacket⟩ := hsub
  · cases hpacket
  · cases hpacket
  · cases hpacket
  · cases hpacket
  · cases hpacket
  · exact setWithdrawSubMsg_taken hset

theorem executeInitPool_taken {store' : Storage} {rsp : Response}
    {info : MessageInfo} {param : InitPoolParams}
    (h : executeInitPool store querier env info param = .ok (store', rsp)) :
    ∀ sub ∈ packets rsp.messages, sub.msg.takenFrom a = 0 := by
  simp only [executeInitPool, bind_eq_ok, orError_eq_ok, rejectIf_eq_ok,
    Prod.exists] at h
  obtain ⟨_, -, _, -, _, _, _, -, _, -, _, -, _, -, _, -, h⟩ := h
  split at h
  · exact retrySetWithdraw_taken h
  · simp only [bind_eq_ok] at h
    obtain ⟨_, -, _, -, _, -, _, -, _, -, _, -, h⟩ := h
    exact dealPool_taken h

theorem executeMigratePool_taken {store' : Storage} {rsp : Response}
    {info : MessageInfo} {param : MigratePoolParams}
    (h : executeMigratePool store querier env info param =
      .ok (store', rsp)) :
    ∀ sub ∈ packets rsp.messages, sub.msg.takenFrom a = 0 := by
  simp only [executeMigratePool, bind_eq_ok, orError_eq_ok, rejectIf_eq_ok,
    Prod.exists] at h
  obtain ⟨_, _, _, -, _, -, _, -, _, -, _, -, h⟩ := h
  split at h
  · exact retrySetWithdraw_taken h
  · simp only [bind_eq_ok] at h
    obtain ⟨_, -, _, -, _, -, _, -, _, -, _, -, h⟩ := h
    exact dealPool_taken h

end StakeManager

/-- The host messages of a packet, as what the packet moves. -/
theorem moves_of_hostMsgs {a : String} (denom : String) {msg : CosmosMsg}
    {msgs : List ProtobufAny} {taken brought : Nat}
    (hmsgs : hostMsgs msg = msgs) (h : Moves a msgs taken brought) :
    msg.takenFrom a = taken ∧ brought ≤ msg.broughtTo a denom := by
  subst hmsgs
  refine ⟨h.taken, ?_⟩
  have hbrought : hostTotal (HostMsg.undelegatedBy a) msg +
      hostTotal (HostMsg.sentTo a) msg = brought := h.brought
  rw [← hbrought]
  cases msg with
  | ibcTransfer transfer => exact Nat.zero_le _
  | _ => exact le_rfl

/-- The messages of a packet that take nothing. -/
theorem taken_of_hostMsgs {a : String} {msg : CosmosMsg}
    {msgs : List ProtobufAny} (hmsgs : hostMsgs msg = msgs)
    (h : ∀ m ∈ msgs, m.value.delegatedBy a = 0 ∧ m.value.sentFrom a = 0) :
    msg.takenFrom a = 0 := by
  subst hmsgs
  have hdelegated : hostTotal (HostMsg.delegatedBy a) msg = 0 :=
    hostSum_eq_zero fun m hm => (h m hm).1
  have hsent : hostTotal (HostMsg.sentFrom a) msg = 0 :=
    hostSum_eq_zero fun m hm => (h m hm).2
  rw [CosmosMsg.takenFrom, hdelegated, hsent]

theorem taken_of_transfer {a : String} {msg : CosmosMsg}
    {transfer : IbcTransfer} (h : msg = .ibcTransfer transfer) :
    msg.takenFrom a = 0 := by
  subst h
  rfl

/-- A redelegation leaves the coins with the validators. -/
theorem taken_of_redelegation {a b old new denom : String}
    {delegations : List Delegation} {m : ProtobufAny}
    (h : m ∈ redelegationsFrom b old new denom delegations) :
    m.value.delegatedBy a = 0 ∧ m.value.sentFrom a = 0 := by
  induction delegations with
  | nil => cases h
  | cons delegation rest ih =>
      rw [redelegationsFrom] at h
      split at h
      · exact ih h
      · split at h
        · cases h
        · rcases List.mem_cons.mp h with rfl | h
          · exact ⟨rfl, rfl⟩
          · exact ih h

/-! ### What the waiting packets carry -/

/-- What a packet of pool `a` moves, by its kind. -/
def Cargo (a : String) (p : PoolInfo) (packet : Packet) : TxType → Prop
  | .eraUpdate => packet.msg.takenFrom a = 0 ∧
      p.eraSnapshot.bond ≤ packet.msg.broughtTo a p.ibcDenom
  | .eraBond =>
      packet.msg.takenFrom a + p.eraSnapshot.unbond ≤
        packet.msg.broughtTo a p.ibcDenom + p.eraSnapshot.bond
  | .eraCollectWithdraw => packet.msg.takenFrom a = 0 ∧
      p.eraSnapshot.restakeAmount ≤ packet.msg.broughtTo a p.ibcDenom
  | .eraRebond => packet.msg.takenFrom a = p.eraSnapshot.restakeAmount
  | .userWithdraw => ∀ payout, packet.payout = some payout →
      packet.msg.takenFrom a = payout.amount
  | _ => packet.msg.takenFrom a = 0

theorem Cargo.congr {a : String} {p p' : PoolInfo} {packet : Packet}
    {txType : TxType} (h : Cargo a p packet txType)
    (hsame : txType.isEra = true → p'.eraSnapshot = p.eraSnapshot ∧
      p'.ibcDenom = p.ibcDenom) : Cargo a p' packet txType := by
  cases txType with
  | eraUpdate | eraBond | eraCollectWithdraw | eraRebond =>
      obtain ⟨hsnapshot, hdenom⟩ := hsame rfl
      simpa only [Cargo, hsnapshot, hdenom] using h
  | _ => exact h

namespace World

variable {net : Network} {w w' : World} {ev : Event} {a : String}
  {p p' : PoolInfo} {id : PacketId} {host : HostAccount}

/-- The withdraw account of a pool is not the account of the pool. -/
def WithdrawApart (a : String) (w : World) : Prop :=
  ∀ p ∈ w.store.pools a, ∀ icas ∈ w.store.infoOfIcaId p.icaId,
    icas.2.1.icaAddr ≠ a

instance (a : String) (w : World) : Decidable (WithdrawApart a w) :=
  inferInstanceAs (Decidable (∀ _ ∈ _, ∀ _ ∈ _, _ ≠ _))

/-- An update sends the bond to the account of the pool. -/
theorem executeEraUpdate_receiver {store store' : Storage} {rsp : Response}
    {querier : Querier} {env : Env} {info : MessageInfo}
    (h : executeEraUpdate store querier env info a = .ok (store', rsp)) :
    ∀ sub ∈ rsp.messages, ∀ transfer, sub.msg = .ibcTransfer transfer →
      transfer.receiver = a := by
  simp only [executeEraUpdate, bind_eq_ok, orError_eq_ok, rejectIf_eq_ok,
    addBelow_eq_ok] at h
  obtain ⟨p, hp, _, -, _, -, _, -, _, -, _, ⟨-, rfl⟩, icq, hicq, h⟩ := h
  have hqueries : ∀ msg ∈ icq, ∀ transfer, msg ≠ .ibcTransfer transfer := by
    intro msg hmsg transfer
    obtain ⟨_, _, _, _, rfl⟩ := getUpdatePoolIcqMsgs_ok hicq
    simp only [List.mem_cons, List.not_mem_nil, or_false] at hmsg
    rcases hmsg with rfl | rfl | rfl | rfl
    all_goals simp
  have hold : ∀ sub ∈ icq.map (⟨·, none, none⟩ : CosmosMsg → SubMsg),
      ∀ transfer, sub.msg = .ibcTransfer transfer →
        transfer.receiver = a := by
    intro sub hsub transfer htransfer
    obtain ⟨msg, hmsg, rfl⟩ := List.mem_map.mp hsub
    exact absurd htransfer (hqueries msg hmsg transfer)
  split at h
  · simp only [pure_eq_ok, Prod.mk.injEq] at h
    obtain ⟨-, rfl⟩ := h
    simpa using hold
  · simp only [bind_eq_ok, Prod.exists, msgWithSudoCallback_eq, pure_eq_ok,
      Prod.mk.injEq] at h
    obtain ⟨_, -, _, -, _, _, _, -, -, rfl⟩ := h
    intro sub hsub transfer htransfer
    simp only [Response.addSubmessage_messages, Response.addMessages_messages,
      Response.new_messages, List.nil_append, List.mem_append,
      List.mem_singleton] at hsub
    rcases hsub with hsub | rfl
    · exact hold sub hsub transfer htransfer
    · cases htransfer
      rfl

/-- A packet that is sent carries what its kind says. -/
theorem cargo_of_exec {querier : Querier} {info : MessageInfo}
    {msg : ExecuteMsg} {store : Storage} {rsp : Response} {sub : SubMsg}
    {txType : TxType} (hp : w.store.pools a = some p)
    (hexec : Executed net w w' querier info msg id store rsp (some sub))
    (hstep : ExecStep w.store querier (w.env net) info a p msg (some sub) p')
    (hcalls : Calls sub a txType) (hapart : WithdrawApart a w) :
    Cargo a p' (sub.packet info.sender msg) txType := by
  have hpackets := hexec.outcome.packets
  have hmem : sub ∈ packets rsp.messages := by simp [hpackets]
  have hinit : (∀ sub' ∈ packets rsp.messages, sub'.msg.takenFrom a = 0) →
      Calls sub a .setWithdrawAddr →
        Cargo a p' (sub.packet info.sender msg) txType := by
    intro htaken hcalls'
    obtain rfl := calls_type hcalls hcalls'
    exact htaken sub hmem
  cases hstep with
  | elsewhere htarget hsent => exact absurd hcalls (hsent sub rfl txType)
  | @withdraw receiver indexes _ hcalls' =>
      obtain rfl := calls_type hcalls hcalls'
      obtain ⟨q, next, total, tx, payload, -, -, -, hmsgs, -, -, htype, -,
        hrsp⟩ := executeWithdraw_ok hexec.call
      have hsub := hexec.sent_eq (packets_single rfl hrsp)
      obtain rfl := Option.some.inj hsub
      intro payout hpayout
      simp only [Packet.payout, SubMsg.packet, htype, if_true,
        Option.some.injEq] at hpayout
      subst hpayout
      simp [SubMsg.packet, CosmosMsg.takenFrom, hostTotal, hostMsgs, hmsgs,
        genMsgSend, HostMsg.delegatedBy, HostMsg.sentFrom, HostMsg.sentTo]
  | stakeLsm hstatus hupdate hcalls' hfunds htrace hpath hmsg =>
      obtain rfl := calls_type hcalls hcalls'
      exact taken_of_transfer hmsg
  | redeem hdenoms hcalls' hmsgs htext =>
      obtain rfl := calls_type hcalls hcalls'
      refine taken_of_hostMsgs hmsgs fun m hm => ?_
      obtain ⟨_, -, rfl⟩ := List.mem_map.mp hm
      exact ⟨rfl, rfl⟩
  | rmValidatorSent hstatus hmem hupdate htarget hcalls' htext hmsgs =>
      obtain rfl := calls_type hcalls hcalls'
      refine taken_of_hostMsgs hmsgs fun m hm => ?_
      obtain rfl := List.mem_singleton.mp hm
      exact ⟨rfl, rfl⟩
  | updateValidatorSent hstatus hupdate hold hnew hcalls' htext hmsgs =>
      obtain rfl := calls_type hcalls hcalls'
      refine taken_of_hostMsgs hmsgs fun m hm => ?_
      exact taken_of_redelegation hm
  | delegate hstatus hpayload hmsgs =>
      obtain ⟨payload, hsome, -⟩ := hcalls
      cases hpayload.symm.trans hsome
  | era hera =>
      cases hera with
      | init htarget hstatus hcalls' =>
          exact hinit (executeInitPool_taken hexec.call) hcalls'
      | migrate htarget hstatus hrate hcal hcalls' =>
          exact hinit (executeMigratePool_taken hexec.call) hcalls'
      | retry htarget hmsg hstatus hcalls' =>
          rcases hmsg with ⟨param, rfl⟩ | ⟨param, rfl⟩
          · exact hinit (executeInitPool_taken hexec.call) hcalls'
          · exact hinit (executeMigratePool_taken hexec.call) hcalls'
      | @eraUpdateSent _ transfer hstatus hupdate hbond hcalls' hmsg htoken =>
          obtain rfl := calls_type hcalls hcalls'
          have hreceiver := executeEraUpdate_receiver hexec.call sub
            (List.mem_filter.mp hmem).1 transfer hmsg
          refine ⟨taken_of_transfer hmsg, ?_⟩
          simp [SubMsg.packet, hmsg, CosmosMsg.broughtTo, hreceiver, htoken,
            startEra]
      | eraBond hstatus hmsgs hsent hcalls' =>
          obtain rfl := calls_type hcalls hcalls'
          obtain ⟨taken, brought, hmoves, hnet⟩ := moves_bond hmsgs
          obtain ⟨htaken, hbrought⟩ :=
            moves_of_hostMsgs p.ibcDenom hsent hmoves
          change sub.msg.takenFrom a + p.eraSnapshot.unbond ≤
            sub.msg.broughtTo a p.ibcDenom + p.eraSnapshot.bond
          omega
      | @collectSent pool withdraw admin amount _ hstatus hinfo hamount hne
          hcalls' hmsgs =>
          obtain rfl := calls_type hcalls hcalls'
          have hother : withdraw.icaAddr ≠ a := hapart p hp _ hinfo
          have hmoves : Moves a
              [genMsgSend withdraw.icaAddr a p.remoteDenom amount] 0
              amount := by
            constructor
            · simp [hostSum, genMsgSend, HostMsg.delegatedBy,
                HostMsg.sentFrom, hother]
            · simp [hostSum, genMsgSend, HostMsg.undelegatedBy,
                HostMsg.sentTo]
          exact moves_of_hostMsgs p.ibcDenom hmsgs hmoves
      | rebondSent hstatus hne hmsgs hsent hcalls' =>
          obtain rfl := calls_type hcalls hcalls'
          exact (moves_of_hostMsgs p.ibcDenom hsent (moves_rebond hmsgs)).1

/-- Every waiting packet of the pool carries what its kind says. -/
def Loaded (w : World) (a : String) (p : PoolInfo) : Prop :=
  ∀ id packet txType, w.pending id = some packet →
    packet.kind a = some txType → Cargo a p packet txType

/-- While a packet of the cycle waits on, the snapshot stays as it is. -/
theorem snapshot_of_waiting (hs : Sound net w) (ho : InOrder w a p)
    (horderly : Orderly a w ev) (hmove : PoolMove net w ev w' a p p')
    {txType : TxType} (hwaits : w.waiting TxType.isEra a id = some txType)
    (hstays : w'.pending id = w.pending id) :
    p'.eraSnapshot = p.eraSnapshot ∧ p'.ibcDenom = p.ibcDenom := by
  have hawaited : awaited p.status = some txType :=
    ho.cycle.matched.may id _ hwaits
  have hlive : p.status ≠ .registerEnded := by
    intro hstatus
    rw [hstatus] at hawaited
    cases hawaited
  cases hmove with
  | executed haction hexec hsends =>
      rcases hexec.calm_or_era with hcalm | hera
      · refine ⟨hcalm.snapshot, ?_⟩
        rcases ExecStep.bond hexec with h | ⟨_, _, -, -, -, -, h, -⟩ | ⟨h, -⟩
        · exact h.2.1
        · exact h
        · exact absurd h hlive
      · -- a step is only taken while no packet of the cycle waits
        obtain ⟨hmsg, htarget⟩ := EraStep.isStep hera
        have hidle := horderly.idle hs haction hmsg htarget isStep_of_isEra
        cases (hidle id).symm.trans hwaits
  | @answered other _ _ _ packet payload _ haction hpacket hpayload hpool
      hanswer hpending =>
      rcases hanswer.calm_or_era with hcalm | hera
      · exact ⟨hcalm.snapshot, (AnswerStep.bond hanswer).1⟩
      · exfalso
        have hstep := EraAnswer.isStep hera
        rw [TxType.isStep, Bool.or_eq_true] at hstep
        rcases hstep with hcycle | hinit
        · -- the answered packet is the only one of the cycle
          have hsame := (ho.cycle.awaited_of_packet hpacket hpayload hpool
            hcycle).1
          obtain rfl := ho.cycle.matched.unique id other _ _ hwaits hsame
          rw [hpending, Map.remove_self] at hstays
          simp [waiting, ← hstays, kindFor] at hwaits
        · have hmay := ho.init.may other payload.txType
            (waiting_eq_some.mpr
              ⟨⟨packet, payload, hpacket, hpayload, hpool, rfl⟩, hinit⟩)
          rcases hmay with hstatus | hstatus
          · rw [hstatus] at hawaited
            cases hawaited
          · rw [hstatus] at hawaited
            cases hawaited
  | answeredElsewhere _ _ _ _ => exact ⟨rfl, rfl⟩
  | vain _ _ _ _ _ _ => exact ⟨rfl, rfl⟩
  | idle _ _ _ => exact ⟨rfl, rfl⟩

theorem loaded_of_move (hs : Sound net w) (hstep : w.step net ev = some w')
    (hp : w.store.pools a = some p) (hp' : w'.store.pools a = some p')
    (ho : InOrder w a p) (hl : Loaded w a p) (horderly : Orderly a w ev)
    (hapart : WithdrawApart a w) (hmove : PoolMove net w ev w' a p p') :
    Loaded w' a p' := by
  intro id packet txType hpacket hkind
  -- a packet that was sent before
  have hold : w.pending id = some packet → Cargo a p' packet txType := by
    intro hbefore
    refine (hl id packet txType hbefore hkind).congr fun hera => ?_
    obtain ⟨payload, hpayload, hpool, htype⟩ := Packet.kind_eq_some.mp hkind
    have hwaits : w.waiting TxType.isEra a id = some txType :=
      waiting_eq_some.mpr
        ⟨⟨packet, payload, hbefore, hpayload, hpool, htype⟩, hera⟩
    exact snapshot_of_waiting hs ho horderly hmove hwaits
      (hpacket.trans hbefore.symm)
  cases traffic_of_step hs hstep with
  | quiet _ hpending => exact hold (hpending ▸ hpacket)
  | answered _ hpending => exact hold (pending_of_remove hpending hpacket)
  | sent haction =>
      obtain ⟨store, rsp, sent, hexec⟩ := executed_of_step hs hstep haction
      rcases pending_of_sends hexec.sends hpacket with
        hbefore | ⟨sub, rfl, -, rfl⟩
      · exact hold hbefore
      · obtain ⟨payload, hpayload, hpool, htype⟩ :=
          Packet.kind_eq_some.mp hkind
        obtain ⟨next, hnext, hsent⟩ := hexec.outcome.step a p hp
        rw [← hexec.records.pools, hp'] at hnext
        obtain rfl := Option.some.inj hnext
        exact cargo_of_exec (w := { w with block := ev.block }) hp hexec hsent
          ⟨payload, hpayload, hpool, htype⟩ hapart

end World

end NeutronContracts
