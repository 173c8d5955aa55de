/-
Shares that are being redeemed.  A redemption lists the denoms of its shares
in the record of the pool until its packet is answered, and both callbacks
take the denoms of its text off the list; the list is never consulted, so it
is only right as long as no share is redeemed twice at a time.
-/
import NeutronContracts.Chain.EraProtocol

namespace NeutronContracts

open StakeManager Outstanding Fallible

/-- The shares that a packet redeems on the host. -/
def Packet.shares (packet : Packet) : List Coin :=
  (hostMsgs packet.msg).filterMap fun msg =>
    match msg.value with
    | .redeemTokenForShare _ token => some token
    | _ => none

/-- The shares that a redemption of pool `a` asks for. -/
def redeemRequest (a : String) (ev : Event) : Option (List Coin) :=
  match ev.action with
  | .execute _ _ (.redeemTokenForShare poolAddr tokens) _ =>
      if poolAddr = a then some tokens else none
  | _ => none

theorem redeemRequest_eq_some {a : String} {ev : Event} {tokens : List Coin} :
    redeemRequest a ev = some tokens ↔ ∃ querier info id,
      ev.action = .execute querier info (.redeemTokenForShare a tokens)
        id := by
  unfold redeemRequest
  split
  · rename_i haction
    simp only [Option.ite_none_right_eq_some, Option.some.injEq, haction,
      Action.execute.injEq, ExecuteMsg.redeemTokenForShare.injEq]
    constructor
    · rintro ⟨rfl, rfl⟩
      exact ⟨_, _, _, rfl, rfl, ⟨rfl, rfl⟩, rfl⟩
    · rintro ⟨_, _, _, rfl, rfl, ⟨rfl, rfl⟩, rfl⟩
      exact ⟨rfl, rfl⟩
  · rename_i hother
    simp only [reduceCtorEq, false_iff, not_exists]
    exact fun _ _ _ haction => hother _ _ _ _ _ haction

/-- An accepted list of shares: each is in the pool, no denom twice. -/
theorem redeemTokens_ok {p : PoolInfo} {denoms result : List String}
    {tokens : List Coin} (h : redeemTokens p denoms tokens = .ok result)
    (hnodup : denoms.Nodup) :
    result = denoms ++ tokens.map (·.denom) ∧ result.Nodup ∧
      ∀ token ∈ tokens, token ∈ p.shareTokens := by
  induction tokens generalizing denoms with
  | nil =>
      cases h
      simp [hnodup]
  | cons token rest ih =>
      simp only [redeemTokens, bind_eq_ok, rejectIf_eq_ok, not_not] at h
      obtain ⟨_, hmem, _, hnew, h⟩ := h
      obtain ⟨hresult, hall, hrest⟩ := ih h (by
        simpa [List.nodup_append, hnodup] using
          fun d hd (heq : d = token.denom) => hnew (heq ▸ hd))
      refine ⟨by simp [hresult], hall, ?_⟩
      intro other hother
      rcases List.mem_cons.mp hother with rfl | hother
      · exact hmem
      · exact hrest other hother

theorem shares_of_redeem {tokens : List Coin} {delegator : String}
    {packet : Packet} (h : hostMsgs packet.msg =
      tokens.map (redeemTokenForShareMsg delegator)) :
    packet.shares = tokens := by
  rw [Packet.shares, h]
  clear h
  induction tokens with
  | nil => rfl
  | cons token rest ih => simpa [redeemTokenForShareMsg] using ih

/-- What an accepted call does to the shares of pool `a`. -/
inductive ShareStep (store : Storage) (a : String) (p : PoolInfo)
    (msg : ExecuteMsg) : Option SubMsg → PoolInfo → Prop
  | plain {sent p'} (hmsg : ∀ tokens, msg ≠ .redeemTokenForShare a tokens)
      (hsent : ∀ sub ∈ sent, ¬ Calls sub a .redeemTokenForShare)
      (hshares : p'.shareTokens = p.shareTokens)
      (hlist : p'.redeemmingShareTokenDenom = p.redeemmingShareTokenDenom) :
      ShareStep store a p msg sent p'
  | start {sent p'} (hstatus : p.status = .registerEnded)
      (hnext : p'.status = .initStarted) (htarget : msg.target store = some a)
      (hmsg : ∀ tokens, msg ≠ .redeemTokenForShare a tokens)
      (hsent : ∀ sub ∈ sent, ¬ Calls sub a .redeemTokenForShare)
      (hshares : p'.shareTokens = [] ∨
        ∃ param, msg = .migratePool param ∧
          p'.shareTokens = param.shareTokens)
      (hlist : p'.redeemmingShareTokenDenom = p.redeemmingShareTokenDenom) :
      ShareStep store a p msg sent p'
  | redeem {tokens sub p'} (hmsg : msg = .redeemTokenForShare a tokens)
      (hne : tokens ≠ [])
      (hnodup : (tokens.map (·.denom)).Nodup)
      (hmem : ∀ token ∈ tokens, token ∈ p.shareTokens)
      (hcalls : Calls sub a .redeemTokenForShare)
      (hmsgs : ∃ delegator, hostMsgs sub.msg =
        tokens.map (redeemTokenForShareMsg delegator))
      (htext : sub.text = Text.join ',' (tokens.map (·.denom)))
      (hshares : p'.shareTokens = p.shareTokens)
      (hlist : p'.redeemmingShareTokenDenom =
        p.redeemmingShareTokenDenom ++ tokens.map (·.denom)) :
      ShareStep store a p msg (some sub) p'

section

variable {store : Storage} {querier : Querier} {env : Env}
  {info : MessageInfo} {a : String} {p p' : PoolInfo} {msg : ExecuteMsg}
  {sent : Option SubMsg}

theorem not_redeem_of_calls {sub : SubMsg} {b : String} {txType : TxType}
    (h : Calls sub b txType) (hkind : txType ≠ .redeemTokenForShare) :
    ∀ sub' ∈ some sub, ¬ Calls sub' a .redeemTokenForShare := by
  intro sub' hsub hcalls
  obtain rfl := Option.mem_some.mp hsub
  exact hkind (calls_type h hcalls)

theorem shareStep_of_era (h : EraStep store querier env a p msg sent p') :
    ShareStep store a p msg sent p' := by
  have hnone : ∀ sub ∈ (none : Option SubMsg),
      ¬ Calls sub a .redeemTokenForShare := by
    intro sub hsub
    cases hsub
  cases h with
  | init htarget hstatus hcalls =>
      exact .start hstatus rfl htarget nofun
        (not_redeem_of_calls hcalls (by decide))
        (.inl rfl) rfl
  | migrate htarget hstatus hrate hcal hcalls =>
      exact .start hstatus rfl htarget nofun
        (not_redeem_of_calls hcalls (by decide))
        (.inr ⟨_, rfl, rfl⟩) rfl
  | retry htarget hmsg hstatus hcalls =>
      refine .plain ?_ (not_redeem_of_calls hcalls (by decide)) rfl rfl
      rcases hmsg with ⟨param, rfl⟩ | ⟨param, rfl⟩ <;> exact nofun
  | eraUpdate hstatus hupdate hbond => exact .plain nofun hnone rfl rfl
  | eraUpdateSent hstatus hupdate hbond hcalls =>
      exact .plain nofun (not_redeem_of_calls hcalls (by decide)) rfl rfl
  | eraBond hstatus hmsgs hsent hcalls =>
      exact .plain nofun (not_redeem_of_calls hcalls (by decide)) rfl rfl
  | collect hstatus hinfo hamount => exact .plain nofun hnone rfl rfl
  | collectSent hstatus hinfo hamount hne hcalls hmsgs =>
      exact .plain nofun (not_redeem_of_calls hcalls (by decide)) rfl rfl
  | rebond hstatus hzero => exact .plain nofun hnone rfl rfl
  | rebondSent hstatus hne hmsgs hsent hcalls =>
      exact .plain nofun (not_redeem_of_calls hcalls (by decide)) rfl rfl
  | active hstatus hshares hstack act htotal =>
      exact .plain nofun hnone rfl rfl

theorem shareStep_of_exec
    (h : ExecStep store querier env info a p msg sent p') :
    ShareStep store a p msg sent p' := by
  have hnone : ∀ sub ∈ (none : Option SubMsg),
      ¬ Calls sub a .redeemTokenForShare := by
    intro sub hsub
    cases hsub
  cases h with
  | elsewhere htarget hsent =>
      refine .plain ?_ (fun sub hsub => hsent sub hsub _) rfl rfl
      rintro tokens rfl
      exact htarget rfl
  | redeem hdenoms hcalls hmsgs htext hne =>
      obtain ⟨hresult, hnodup, hmem⟩ := redeemTokens_ok hdenoms List.nodup_nil
      rw [List.nil_append] at hresult
      subst hresult
      exact .redeem rfl hne hnodup hmem hcalls ⟨_, hmsgs⟩ htext rfl rfl
  | withdraw hcalls =>
      exact .plain nofun (not_redeem_of_calls hcalls (by decide)) rfl rfl
  | stakeLsm hstatus hupdate hcalls =>
      exact .plain nofun (not_redeem_of_calls hcalls (by decide)) rfl rfl
  | rmValidatorSent hstatus hmem hupdate htarget hcalls htext hmsgs =>
      exact .plain nofun (not_redeem_of_calls hcalls (by decide)) rfl rfl
  | updateValidatorSent hstatus hupdate hold hnew hcalls htext hmsgs =>
      exact .plain nofun (not_redeem_of_calls hcalls (by decide)) rfl rfl
  | delegate hstatus hpayload hmsgs =>
      refine .plain nofun ?_ rfl rfl
      rintro sub hsub ⟨payload, hsome, -⟩
      obtain rfl := Option.mem_some.mp hsub
      exact absurd (hpayload.symm.trans hsome) (by simp)
  | config hpool hconfig =>
      obtain ⟨_, _, _, _, _, _, _, _, _, _, _, rfl⟩ := hconfig
      exact .plain nofun hnone rfl rfl
  | era hera => exact shareStep_of_era hera
  | _ => exact .plain nofun hnone rfl rfl

end

namespace World

variable {net : Network} {w w' : World} {ev : Event} {a : String}
  {p p' : PoolInfo} {id : PacketId} {packet : Packet} {payload : SudoPayload}

/-- The callbacks of a redemption do not fail. -/
theorem redeem_not_vain {env : Env} {answer : Answer}
    (hp : w.store.pools payload.poolAddr = some p)
    (hvain : ∀ store rsp, callback (w.afterTake id) env payload answer =
      .ok (store, rsp) → rsp.messages ≠ []) :
    payload.txType ≠ .redeemTokenForShare := by
  intro htype
  have hpools : (w.afterTake id).pools payload.poolAddr = some p := hp
  obtain ⟨store, hok⟩ : ∃ store, callback (w.afterTake id) env payload answer =
      .ok (store, Response.new) := by
    cases answer with
    | success =>
        simp only [callback, sudoCallback, htype]
        exact ⟨_, sudoRedeemTokenForShareCallback_ok.mpr ⟨p, hpools, rfl, rfl⟩⟩
    | error =>
        simp only [callback, sudoFailedCallback, htype]
        exact ⟨_, sudoRedeemTokenForShareFailedCallback_ok.mpr
          ⟨p, hpools, rfl, rfl⟩⟩
    | timeout =>
        simp only [callback, sudoFailedCallback, htype]
        exact ⟨_, sudoRedeemTokenForShareFailedCallback_ok.mpr
          ⟨p, hpools, rfl, rfl⟩⟩
  exact hvain store Response.new hok rfl

/-- The unanswered packet `id` redeems the denom. -/
def Redeems (w : World) (a : String) (id : PacketId) (denom : String) : Prop :=
  ∃ packet, w.pending id = some packet ∧
    packet.kind a = some .redeemTokenForShare ∧
    denom ∈ packet.shares.map (·.denom)

/-- The list of the pool has each denom once, and exactly those that an
unanswered packet redeems, each redeemed by one packet. -/
structure RedeemedOnce (w : World) (a : String) (p : PoolInfo) : Prop where
  nodup : p.redeemmingShareTokenDenom.Nodup
  mem_iff : ∀ denom, denom ∈ p.redeemmingShareTokenDenom ↔
    ∃ id, w.Redeems a id denom
  unique : ∀ id id' denom, w.Redeems a id denom → w.Redeems a id' denom →
    id = id'

/-- No share is redeemed again, and the text of an answered packet names the
denoms it carries. -/
structure NoneAgain (a : String) (w : World) (ev : Event) : Prop where
  request : ∀ tokens ∈ redeemRequest a ev, ∀ p ∈ w.store.pools a,
    ∀ token ∈ tokens, token.denom ∉ p.redeemmingShareTokenDenom
  answer : ∀ id ∈ answeredId ev, ∀ packet ∈ w.pending id,
    ∀ payload ∈ packet.payload, payload.poolAddr = a →
    payload.txType = .redeemTokenForShare → ∀ p ∈ w.store.pools a,
    ∀ denom ∈ p.redeemmingShareTokenDenom,
      denom ∈ Text.split ',' payload.message ↔
        denom ∈ packet.shares.map (·.denom)

/-- A move that leaves the list and the redeeming packets alone. -/
theorem RedeemedOnce.of_same (h : RedeemedOnce w a p)
    (hlist : p'.redeemmingShareTokenDenom = p.redeemmingShareTokenDenom)
    (hredeems : ∀ id denom, w'.Redeems a id denom ↔ w.Redeems a id denom) :
    RedeemedOnce w' a p' := by
  refine ⟨by rw [hlist]; exact h.nodup, fun denom => ?_,
    fun id id' denom hid hid' => ?_⟩
  · rw [hlist, h.mem_iff]
    exact exists_congr fun id => (hredeems id denom).symm
  · exact h.unique id id' denom ((hredeems id denom).mp hid)
      ((hredeems id' denom).mp hid')

theorem redeems_of_sends_other {sent : Option SubMsg} {sender : String}
    {msg : ExecuteMsg} (hs : Sound net w)
    (hsends : Sends sent id sender msg w w')
    (hsent : ∀ sub ∈ sent, ¬ Calls sub a .redeemTokenForShare)
    (other : PacketId) (denom : String) :
    w'.Redeems a other denom ↔ w.Redeems a other denom := by
  constructor
  · rintro ⟨packet, hpacket, hkind, hdenom⟩
    rcases pending_of_sends hsends hpacket with hold | ⟨sub, hsub, -, rfl⟩
    · exact ⟨packet, hold, hkind, hdenom⟩
    · exact absurd (Packet.kind_eq_some.mp hkind) (hsent sub hsub)
  · rintro ⟨packet, hpacket, hkind, hdenom⟩
    exact ⟨packet, pending_after_sends hs hsends hpacket, hkind, hdenom⟩

theorem redeems_of_remove (hpending : w'.pending = w.pending.remove id)
    (other : PacketId) (denom : String) :
    w'.Redeems a other denom ↔ other ≠ id ∧ w.Redeems a other denom := by
  constructor
  · rintro ⟨packet, hpacket, hrest⟩
    rw [hpending, Map.remove_apply] at hpacket
    split at hpacket
    case isTrue => cases hpacket
    case isFalse hne => exact ⟨hne, packet, hpacket, hrest⟩
  · rintro ⟨hne, packet, hpacket, hrest⟩
    exact ⟨packet, by rw [hpending, Map.remove_of_ne hne, hpacket], hrest⟩

theorem redeems_of_remove_other (hpending : w'.pending = w.pending.remove id)
    (hpacket : w.pending id = some packet)
    (hkind : packet.kind a ≠ some .redeemTokenForShare)
    (other : PacketId) (denom : String) :
    w'.Redeems a other denom ↔ w.Redeems a other denom := by
  rw [redeems_of_remove hpending]
  refine and_iff_right_of_imp ?_
  rintro ⟨packet', hpacket', hkind', -⟩ rfl
  obtain rfl := Option.some.inj (hpacket.symm.trans hpacket')
  exact hkind hkind'

/-- A request keeps the list right exactly when it repeats no denom. -/
theorem redeemedOnce_request_iff {tokens : List Coin} {sub : SubMsg}
    {sender : String} {msg : ExecuteMsg} (hs : Sound net w)
    (h : RedeemedOnce w a p) (hnodup : (tokens.map (·.denom)).Nodup)
    (hcalls : Calls sub a .redeemTokenForShare)
    (hmsgs : ∃ delegator, hostMsgs sub.msg =
      tokens.map (redeemTokenForShareMsg delegator))
    (hlist : p'.redeemmingShareTokenDenom =
      p.redeemmingShareTokenDenom ++ tokens.map (·.denom))
    (hsends : Sends (some sub) id sender msg w w') :
    RedeemedOnce w' a p' ↔
      ∀ token ∈ tokens, token.denom ∉ p.redeemmingShareTokenDenom := by
  obtain ⟨delegator, hmsgs⟩ := hmsgs
  have hnew : ∀ denom, w'.Redeems a id denom ↔
      denom ∈ tokens.map (·.denom) := by
    intro denom
    have hshares : (sub.packet sender msg).shares = tokens :=
      shares_of_redeem hmsgs
    have hkind : (sub.packet sender msg).kind a =
        some .redeemTokenForShare := Packet.kind_eq_some.mpr hcalls
    simp only [Redeems, hsends.2.2, Map.save_self, Option.some.injEq,
      exists_eq_left', hkind, hshares, true_and]
  have hold : ∀ other denom, other ≠ id →
      (w'.Redeems a other denom ↔ w.Redeems a other denom) := by
    intro other denom hne
    simp only [Redeems, hsends.2.2, Map.save_of_ne hne]
  have hfresh : ∀ denom, ¬ w.Redeems a id denom := by
    rintro denom ⟨packet, hpacket, -⟩
    exact hsends.1 (hs.usedPending id packet hpacket)
  constructor
  · intro h' token htoken hmem
    have hdup := h'.nodup
    rw [hlist, List.nodup_append] at hdup
    exact hdup.2.2 _ hmem _ (List.mem_map_of_mem htoken) rfl
  · intro hnone
    have hapart : ∀ denom, denom ∈ tokens.map (·.denom) →
        denom ∉ p.redeemmingShareTokenDenom := by
      intro denom hdenom
      obtain ⟨token, htoken, rfl⟩ := List.mem_map.mp hdenom
      exact hnone token htoken
    refine ⟨?_, fun denom => ?_, fun first second denom hfirst hsecond => ?_⟩
    · rw [hlist, List.nodup_append]
      refine ⟨h.nodup, hnodup, ?_⟩
      rintro denom hmem _ hdenom rfl
      exact hapart denom hdenom hmem
    · rw [hlist, List.mem_append, h.mem_iff]
      constructor
      · rintro (⟨other, hother⟩ | hdenom)
        · have hne : other ≠ id := fun heq => hfresh denom (heq ▸ hother)
          exact ⟨other, (hold other denom hne).mpr hother⟩
        · exact ⟨id, (hnew denom).mpr hdenom⟩
      · rintro ⟨other, hother⟩
        by_cases hne : other = id
        · subst hne
          exact .inr ((hnew denom).mp hother)
        · exact .inl ⟨other, (hold other denom hne).mp hother⟩
    · -- a denom of the new packet is redeemed by no other one
      have honly : ∀ other, w'.Redeems a id denom → w'.Redeems a other denom →
          other = id := by
        intro other hid hother
        by_contra hne
        exact hapart denom ((hnew denom).mp hid)
          ((h.mem_iff denom).mpr ⟨other, (hold other denom hne).mp hother⟩)
      by_cases hone : first = id
      · subst hone
        exact (honly second hfirst hsecond).symm
      by_cases htwo : second = id
      · subst htwo
        exact honly first hsecond hfirst
      · exact h.unique first second denom ((hold first denom hone).mp hfirst)
          ((hold second denom htwo).mp hsecond)

/-- An answer keeps the list right exactly when its text names the denoms of
its packet. -/
theorem redeemedOnce_answer_iff (h : RedeemedOnce w a p)
    (hpacket : w.pending id = some packet)
    (hkind : packet.kind a = some .redeemTokenForShare)
    (hlist : p'.redeemmingShareTokenDenom =
      p.redeemmingShareTokenDenom.filter fun denom =>
        decide (denom ∉ Text.split ',' payload.message))
    (hpending : w'.pending = w.pending.remove id) :
    RedeemedOnce w' a p' ↔ ∀ denom ∈ p.redeemmingShareTokenDenom,
      (denom ∈ Text.split ',' payload.message ↔
        denom ∈ packet.shares.map (·.denom)) := by
  have hown : ∀ denom, w.Redeems a id denom ↔
      denom ∈ packet.shares.map (·.denom) := by
    intro denom
    simp only [Redeems, hpacket, Option.some.injEq, exists_eq_left', hkind,
      true_and]
  have hleft : ∀ denom, denom ∈ p'.redeemmingShareTokenDenom ↔
      denom ∈ p.redeemmingShareTokenDenom ∧
        denom ∉ Text.split ',' payload.message := by
    intro denom
    rw [hlist, List.mem_filter, decide_eq_true_eq]
  constructor
  · intro h' denom hdenom
    obtain ⟨other, hother⟩ := (h.mem_iff denom).mp hdenom
    rw [← hown]
    constructor
    · intro hsplit
      by_contra hid
      -- another packet still redeems the denom
      have hne : other ≠ id := fun heq => hid (heq ▸ hother)
      have hstill := (h'.mem_iff denom).mpr
        ⟨other, (redeems_of_remove hpending other denom).mpr ⟨hne, hother⟩⟩
      exact ((hleft denom).mp hstill).2 hsplit
    · intro hid
      by_contra hsplit
      obtain ⟨other', hother'⟩ :=
        (h'.mem_iff denom).mp ((hleft denom).mpr ⟨hdenom, hsplit⟩)
      obtain ⟨hne, hother'⟩ :=
        (redeems_of_remove hpending other' denom).mp hother'
      exact hne (h.unique other' id denom hother' hid)
  · intro hnamed
    refine ⟨by rw [hlist]; exact h.nodup.filter _, fun denom => ?_,
      fun first second denom hfirst hsecond => ?_⟩
    · rw [hleft]
      constructor
      · rintro ⟨hdenom, hsplit⟩
        obtain ⟨other, hother⟩ := (h.mem_iff denom).mp hdenom
        refine ⟨other, (redeems_of_remove hpending other denom).mpr
          ⟨?_, hother⟩⟩
        rintro rfl
        exact hsplit ((hnamed denom hdenom).mpr ((hown denom).mp hother))
      · rintro ⟨other, hother⟩
        obtain ⟨hne, hother⟩ :=
          (redeems_of_remove hpending other denom).mp hother
        have hdenom := (h.mem_iff denom).mpr ⟨other, hother⟩
        refine ⟨hdenom, fun hsplit => hne ?_⟩
        exact h.unique other id denom hother
          ((hown denom).mpr ((hnamed denom hdenom).mp hsplit))
    · exact h.unique first second denom
        ((redeems_of_remove hpending first denom).mp hfirst).2
        ((redeems_of_remove hpending second denom).mp hsecond).2

/-- Only a redemption of the pool asks for anything. -/
theorem noneAgain_of_execute {querier : Querier} {info : MessageInfo}
    {msg : ExecuteMsg} (hp : w.store.pools a = some p)
    (haction : ev.action = .execute querier info msg id) :
    NoneAgain a w ev ↔ ∀ tokens, msg = .redeemTokenForShare a tokens →
      ∀ token ∈ tokens, token.denom ∉ p.redeemmingShareTokenDenom := by
  constructor
  · rintro h tokens rfl
    exact h.request tokens (redeemRequest_eq_some.mpr ⟨_, _, _, haction⟩) p hp
  · intro h
    refine ⟨fun tokens htokens q hq => ?_, fun other hother => ?_⟩
    · obtain ⟨_, _, _, haction'⟩ := redeemRequest_eq_some.mp htokens
      obtain ⟨-, -, hmsg, -⟩ := Action.execute.inj (haction.symm.trans haction')
      obtain rfl := Option.some.inj (hp.symm.trans hq)
      exact h tokens hmsg
    · simp [answeredId, haction] at hother

/-- Only an answer has a text to be read. -/
theorem noneAgain_of_answer {answer : Answer} {querier : Querier}
    {bankAccepts : Bool} (hp : w.store.pools a = some p)
    (haction : ev.action = .answer id answer querier bankAccepts)
    (hpacket : w.pending id = some packet) :
    NoneAgain a w ev ↔ ∀ payload ∈ packet.payload, payload.poolAddr = a →
      payload.txType = .redeemTokenForShare →
      ∀ denom ∈ p.redeemmingShareTokenDenom,
        (denom ∈ Text.split ',' payload.message ↔
          denom ∈ packet.shares.map (·.denom)) := by
  constructor
  · intro h payload hpayload hpool htype
    exact h.answer id (by simp [answeredId, haction]) packet hpacket payload
      hpayload hpool htype p hp
  · intro h
    refine ⟨fun tokens htokens => ?_, fun other hother packet' hpacket' payload
      hpayload hpool htype q hq => ?_⟩
    · obtain ⟨_, _, _, haction'⟩ := redeemRequest_eq_some.mp htokens
      cases haction.symm.trans haction'
    · obtain rfl : id = other := by simpa [answeredId, haction] using hother
      obtain rfl := Option.some.inj (hpacket.symm.trans hpacket')
      obtain rfl := Option.some.inj (hp.symm.trans hq)
      exact h payload hpayload hpool htype

theorem noneAgain_of_neither
    (hexecute : ∀ querier info msg id,
      ev.action ≠ .execute querier info msg id)
    (hanswer : ∀ id answer querier bankAccepts,
      ev.action ≠ .answer id answer querier bankAccepts) :
    NoneAgain a w ev := by
  refine ⟨fun tokens htokens => ?_, fun id hid => ?_⟩
  · obtain ⟨_, _, _, haction⟩ := redeemRequest_eq_some.mp htokens
    exact absurd haction (hexecute _ _ _ _)
  · unfold answeredId at hid
    split at hid
    · rename_i haction
      exact absurd haction (hanswer _ _ _ _)
    · cases hid

/-- One step keeps the list of a pool right exactly when nothing is redeemed
again. -/
theorem redeemedOnce_iff_of_move (hs : Sound net w)
    (hp : w.store.pools a = some p) (h : RedeemedOnce w a p)
    (hmove : PoolMove net w ev w' a p p') :
    RedeemedOnce w' a p' ↔ NoneAgain a w ev := by
  cases hmove with
  | executed haction hstep hsends =>
      rw [noneAgain_of_execute hp haction]
      cases shareStep_of_exec hstep with
      | plain hmsg hsent hshares hlist =>
          exact iff_of_true (h.of_same hlist
            (redeems_of_sends_other hs hsends hsent))
            fun tokens htokens => absurd htokens (hmsg tokens)
      | start hstatus hnext htarget hmsg hsent hshares hlist =>
          exact iff_of_true (h.of_same hlist
            (redeems_of_sends_other hs hsends hsent))
            fun tokens htokens => absurd htokens (hmsg tokens)
      | redeem hmsg hne hnodup hmem hcalls hmsgs htext hshares hlist =>
          rw [redeemedOnce_request_iff hs h hnodup hcalls hmsgs hlist hsends]
          subst hmsg
          constructor
          · rintro hnone _ htokens
            obtain ⟨-, rfl⟩ := ExecuteMsg.redeemTokenForShare.inj htokens
            exact hnone
          · exact fun hnone => hnone _ rfl
  | answered haction hpacket hpayload hpool hstep hpending =>
      rename_i id answer querier bankAccepts packet payload
      rw [noneAgain_of_answer hp haction hpacket]
      have hkind : packet.kind a = some payload.txType :=
        Packet.kind_eq_some.mpr ⟨payload, hpayload, hpool, rfl⟩
      have hother : payload.txType ≠ .redeemTokenForShare →
          p'.redeemmingShareTokenDenom = p.redeemmingShareTokenDenom →
          (RedeemedOnce w' a p' ↔ ∀ payload ∈ packet.payload,
            payload.poolAddr = a → payload.txType = .redeemTokenForShare →
            ∀ denom ∈ p.redeemmingShareTokenDenom,
              (denom ∈ Text.split ',' payload.message ↔
                denom ∈ packet.shares.map (·.denom))) := by
        intro hne hlist
        refine iff_of_true (h.of_same hlist (redeems_of_remove_other hpending
          hpacket (by rw [hkind]; simpa using hne))) ?_
        intro payload' hpayload' _ htype
        obtain rfl := Option.some.inj (hpayload.symm.trans hpayload')
        exact absurd htype hne
      have hone : payload.txType = .redeemTokenForShare →
          ((∀ payload ∈ packet.payload, payload.poolAddr = a →
            payload.txType = .redeemTokenForShare →
            ∀ denom ∈ p.redeemmingShareTokenDenom,
              (denom ∈ Text.split ',' payload.message ↔
                denom ∈ packet.shares.map (·.denom))) ↔
          ∀ denom ∈ p.redeemmingShareTokenDenom,
            (denom ∈ Text.split ',' payload.message ↔
              denom ∈ packet.shares.map (·.denom))) := by
        intro htype
        constructor
        · exact fun hall => hall payload hpayload hpool htype
        · intro hnamed payload' hpayload' _ _
          obtain rfl := Option.some.inj (hpayload.symm.trans hpayload')
          exact hnamed
      cases hstep with
      | redeem htype =>
          rw [hone htype]
          exact redeemedOnce_answer_iff h hpacket (by rw [hkind, htype]) rfl
            hpending
      | redeemFailed htype hfailed =>
          rw [hone htype]
          exact redeemedOnce_answer_iff h hpacket (by rw [hkind, htype]) rfl
            hpending
      | era hera =>
          refine hother ?_ (by cases hera <;> rfl)
          have hkind := EraAnswer.isStep hera
          rintro htype
          rw [htype] at hkind
          cases hkind
      | validatorFailed htype hfailed =>
          refine hother ?_ rfl
          rcases htype with htype | htype <;> simp [htype]
      | userWithdraw htype => exact hother (by simp [htype]) rfl
      | updateValidator htype => exact hother (by simp [htype]) rfl
      | rmValidator htype => exact hother (by simp [htype]) rfl
      | stakeLsm htype hcredit hrate => exact hother (by simp [htype]) rfl
      | stakeLsmFailed htype hfailed => exact hother (by simp [htype]) rfl
  | answeredElsewhere haction hpacket helsewhere hpending =>
      rename_i packet
      rw [noneAgain_of_answer hp haction hpacket]
      exact iff_of_true (h.of_same rfl (redeems_of_remove_other hpending
        hpacket (by simp [Packet.kind_elsewhere helsewhere])))
        fun payload hpayload hpool => absurd hpool (helsewhere payload hpayload)
  | vain haction hpacket hpayload hpool hvain hpending =>
      rename_i packet payload
      have hne := redeem_not_vain (hpool ▸ hp) hvain
      rw [noneAgain_of_answer hp haction hpacket]
      refine iff_of_true (h.of_same rfl (redeems_of_remove_other hpending
        hpacket fun hkind => ?_)) fun payload' hpayload' _ htype => ?_
      · obtain ⟨payload', hpayload', -, htype⟩ := Packet.kind_eq_some.mp hkind
        obtain rfl := Option.some.inj (hpayload.symm.trans hpayload')
        exact hne htype
      · obtain rfl := Option.some.inj (hpayload.symm.trans hpayload')
        exact absurd htype hne
  | idle hexecute hanswer hpending =>
      refine iff_of_true (h.of_same rfl fun id denom => ?_)
        (noneAgain_of_neither hexecute hanswer)
      simp only [Redeems, hpending]

/-- A pool that has just been registered redeems nothing. -/
theorem redeemedOnce_registered {icaId admin : String}
    (hnone : ∀ txType id, ¬ w.Unanswered a txType id) :
    RedeemedOnce w a (registeredPool icaId admin) := by
  have hredeems : ∀ id denom, ¬ w.Redeems a id denom := by
    rintro id denom ⟨packet, hpacket, hkind, -⟩
    obtain ⟨payload, hpayload, hpool, htype⟩ := Packet.kind_eq_some.mp hkind
    exact hnone _ id ⟨packet, payload, hpacket, hpayload, hpool, htype⟩
  refine ⟨List.nodup_nil, fun denom => ?_, fun id _ denom hid => ?_⟩
  · exact iff_of_false List.not_mem_nil fun ⟨id, hid⟩ => hredeems id denom hid
  · exact absurd hid (hredeems id denom)

/-- The list of pool `a` is right. -/
def ListedOnce (a : String) (w : World) : Prop :=
  ∀ p ∈ w.store.pools a, RedeemedOnce w a p

theorem listedOnce_iff_of_step (hs : Sound net w)
    (hlisted : ListedOnce a w) (hstep : w.step net ev = some w') :
    ListedOnce a w' ↔ NoneAgain a w ev := by
  cases hp : w.store.pools a with
  | none =>
      refine iff_of_true ?_ ⟨fun tokens _ p hp' => ?_,
        fun id _ packet _ payload _ _ _ p hp' => ?_⟩
      · exact pool_invariant (I := fun _ => False) hs hstep (by simp [hp])
          (fun _ _ _ _ h => h.elim)
          fun _ _ _ _ hnone _ _ => redeemedOnce_registered hnone
      · cases hp.symm.trans hp'
      · cases hp.symm.trans hp'
  | some p =>
      obtain ⟨p', hp', hmove⟩ := pool_move hs hstep hp
      rw [← redeemedOnce_iff_of_move hs hp (hlisted p hp) hmove]
      constructor
      · exact fun h => h p' hp'
      · intro h q hq
        obtain rfl := Option.some.inj (hp'.symm.trans hq)
        exact h

/-- The list of a pool is right in every state of exactly those runs in which
nothing is redeemed again while it is being redeemed. -/
theorem listed_once_iff (net : Network) (a : String) (block : BlockInfo)
    (info : MessageInfo) (lsdTokenCodeId : Nat) (evs : List Event) :
    Transition.AllSteps (step net) (fun _ _ w' => ListedOnce a w')
        (genesis block info lsdTokenCodeId) evs ↔
      Transition.AllSteps (step net) (fun w ev _ => NoneAgain a w ev)
        (genesis block info lsdTokenCodeId) evs := by
  refine Transition.AllSteps.iff_of_invariant (P := fun _ _ _ => True)
    (fun w => Sound net w ∧ ListedOnce a w) ?_ ?_ ?_ ?_
  · intro w ev w' hinv hstep _
    exact listedOnce_iff_of_step hinv.1 hinv.2 hstep
  · intro w ev w' hinv hstep _ hnone
    exact ⟨sound_step hinv.1 hstep,
      (listedOnce_iff_of_step hinv.1 hinv.2 hstep).mpr hnone⟩
  · exact ⟨sound_genesis net block info lsdTokenCodeId, fun _ h => nomatch h⟩
  · exact .of_forall fun _ _ _ _ => trivial

end World

namespace Sample

/-- Shares of 100 are staked and credited. -/
def credited : List Event := setup ++ [allowLsm, stake 1 1000,
  stakeLsm 1 100 "ibc/SHARE" ("channel-7", 0),
  ack 1 .success ("channel-7", 0)]

def redeem (amount sequence : Nat) : Event :=
  call 1 (querier 1 [] 0) (.redeemTokenForShare pool [⟨"val1/1", amount⟩])
    (packetId sequence)

end Sample

namespace World

/-- Shares that are being redeemed can be redeemed again. -/
theorem listed_once_fails :
    ¬ ∀ (net : Network) (a : String) (block : BlockInfo)
      (info : MessageInfo) (lsdTokenCodeId : Nat) (evs : List Event),
      Transition.AllSteps (step net) (fun _ _ w' => ListedOnce a w')
        (genesis block info lsdTokenCodeId) evs := by
  intro hall
  obtain ⟨w, p, hw, hp, htwice⟩ := Sample.exists_of_run
    (Sample.credited ++ [Sample.redeem 100 2, Sample.redeem 100 3])
    (fun _ p => decide (p.redeemmingShareTokenDenom = ["val1/1", "val1/1"]))
    (by decide +kernel)
  have hlisted : ListedOnce Sample.pool w :=
    Transition.AllSteps.invariant_last (ListedOnce Sample.pool)
      (fun _ _ _ _ _ hlisted => hlisted) (fun _ h => by cases h)
      (hall Sample.net Sample.pool (Sample.day 1) ⟨Sample.admin, []⟩ 1 _) hw
  have hnodup := (hlisted p hp).nodup
  rw [of_decide_eq_true htwice] at hnodup
  exact absurd hnodup (by decide)

end World

end NeutronContracts
