/-
The ledger of the shares.  Every credited share should be in the pool until it
is redeemed.  An acknowledged redemption removes all entries of the denoms of
its text, so the ledger is kept exactly as long as each redeemed share is the
only entry of its denom.
-/
import NeutronContracts.Lib.Removal
import NeutronContracts.Properties.Redemption

namespace NeutronContracts

open StakeManager Outstanding Fallible Removal

/-- The share that a packet credits. -/
def Packet.credit (packet : Packet) : Option Coin :=
  packet.payload.bind fun payload =>
    (stakeLsmCredit payload.message).map (·.2.2)

/-- The shares that were credited and those that were redeemed. -/
structure ShareBooks where
  credited : List Coin
  redeemed : List Coin

def ShareBooks.empty : ShareBooks := ⟨[], []⟩

namespace World

/-- The packet of pool `a` whose success is acknowledged. -/
def succeeded (a : String) (w : World) (ev : Event) (txType : TxType) :
    Option (PacketId × Packet) :=
  match ev.action with
  | .answer id .success _ _ =>
      (w.pending id).bind fun packet =>
        if packet.kind a = some txType then some (id, packet) else none
  | _ => none

/-- A success of a share stake credits its share when its callback is not
rolled back, which leaves the payload of the packet where it is. -/
def keepShares (a : String) (books : ShareBooks) (w : World) (ev : Event)
    (w' : World) : ShareBooks :=
  if (w.store.pools a).isNone then ShareBooks.empty
  else
    { credited :=
        match succeeded a w ev .stakeLsm with
        | some (id, packet) =>
            if (w'.store.sudoPayload id).isNone then
              books.credited ++ packet.credit.toList
            else books.credited
        | none => books.credited
      redeemed :=
        match succeeded a w ev .redeemTokenForShare with
        | some (_, packet) => books.redeemed ++ packet.shares
        | none => books.redeemed }

/-- For every denom, what was credited is in the pool or was redeemed. -/
def Conserved (a : String) (s : World × ShareBooks) : Prop :=
  ∀ p ∈ s.1.store.pools a, ∀ denom,
    amountOf denom s.2.credited =
      amountOf denom p.shareTokens + amountOf denom s.2.redeemed

/-- The entries that were credited are in the pool or were redeemed. -/
def EntriesKept (a : String) (s : World × ShareBooks) : Prop :=
  ∀ p ∈ s.1.store.pools a,
    (p.shareTokens ++ s.2.redeemed).Perm s.2.credited

/-- A pool starts without shares. -/
def StartsEmpty (a : String) (w : World) (ev : Event) : Prop :=
  ∀ param ∈ migrated ev,
    (ExecuteMsg.migratePool param).target w.store = some a →
      param.shareTokens = []

instance (a : String) (w : World) (ev : Event) :
    Decidable (StartsEmpty a w ev) :=
  inferInstanceAs (Decidable (∀ param ∈ migrated ev,
    (ExecuteMsg.migratePool param).target w.store = some a →
      param.shareTokens = []))

/-- Each share that an acknowledged packet redeems is the only one of its denom
in the pool, and its denom is without the separator of the text. -/
def RedeemedAlone (a : String) (w : World) (ev : Event) : Prop :=
  ∀ found ∈ succeeded a w ev .redeemTokenForShare, ∀ p ∈ w.store.pools a,
    ∀ token ∈ found.2.shares, ',' ∉ token.denom.toList ∧
      (p.shareTokens.filter fun other =>
        decide (other.denom = token.denom)) = [token]

instance (a : String) (s : World × ShareBooks) :
    Decidable (EntriesKept a s) :=
  inferInstanceAs (Decidable (∀ _ ∈ _, List.Perm _ _))

instance (a : String) (w : World) (ev : Event) :
    Decidable (RedeemedAlone a w ev) :=
  inferInstanceAs (Decidable (∀ _ ∈ _, ∀ _ ∈ _, ∀ _ ∈ _, _ ∧ _ = _))

/-- The text of a redemption names the denoms of its shares, each of them
once. -/
structure NamesShares (packet : Packet) (payload : SudoPayload) : Prop where
  text : payload.message = Text.join ',' (packet.shares.map (·.denom))
  nodup : (packet.shares.map (·.denom)).Nodup
  ne_nil : packet.shares ≠ []

variable {net : Network} {w w' : World} {ev : Event} {a : String}
  {p p' : PoolInfo} {id : PacketId} {packet : Packet} {payload : SudoPayload}
  {books : ShareBooks}

theorem succeeded_eq_some {txType : TxType} :
    succeeded a w ev txType = some (id, packet) ↔
      (∃ querier bankAccepts,
        ev.action = .answer id .success querier bankAccepts) ∧
      w.pending id = some packet ∧ packet.kind a = some txType := by
  unfold succeeded
  split
  · rename_i haction
    simp only [Option.bind_eq_some_iff, Option.ite_none_right_eq_some,
      Option.some.injEq, Prod.mk.injEq, haction, Action.answer.injEq]
    constructor
    · rintro ⟨packet', hpacket, hkind, rfl, rfl⟩
      exact ⟨⟨_, _, rfl, trivial, rfl, rfl⟩, hpacket, hkind⟩
    · rintro ⟨⟨_, _, rfl, -, rfl, rfl⟩, hpacket, hkind⟩
      exact ⟨packet, hpacket, hkind, rfl, rfl⟩
  · rename_i hother
    simp only [reduceCtorEq, false_iff, not_and]
    rintro ⟨_, _, haction⟩
    exact absurd haction (hother _ _ _)

/-- The success of a share stake either credits its share and takes its
payload away, or it is rolled back. -/
theorem share_answer (hs : Sound net w) (hstep : w.step net ev = some w')
    {querier : Querier} {bankAccepts : Bool}
    (haction : ev.action = .answer id .success querier bankAccepts)
    (hp : w.store.pools a = some p) (hpacket : w.pending id = some packet)
    (hpayload : packet.payload = some payload) (hpool : payload.poolAddr = a)
    (htype : payload.txType = .stakeLsm) :
    (w'.store.sudoPayload id = none ∧ ∃ staker worth share,
        stakeLsmCredit payload.message = some (staker, worth, share) ∧
        w'.store.pools a = some (lsmCredited p worth share)) ∨
      w'.store.sudoPayload id = some payload ∧
        w'.store.pools a = some p := by
  obtain ⟨packet', hpacket', hhandled⟩ := handled_of_step hs hstep haction
  obtain rfl := Option.some.inj (hpacket.symm.trans hpacket')
  cases hhandled with
  | handled hpayload' hcall houtcome hdelivered =>
      obtain rfl := Option.some.inj (hpayload.symm.trans hpayload')
      have hquiet := deliverAll_quiet houtcome.packets hdelivered
      simp only [callback, sudoCallback, htype] at hcall
      obtain ⟨q, staker, worth, share, hcredit, hq, -, rfl, -⟩ :=
        sudoStakeLsmCallback_ok hcall
      obtain rfl : p = q := by
        rw [hpool] at hq
        exact Option.some.inj (hp.symm.trans hq)
      refine .inl ⟨?_, staker, worth, share, hcredit, ?_⟩
      · rw [hquiet.sudoPayload]
        exact Map.remove_self
      · rw [hquiet.store.pools, hpool]
        exact Map.save_self
  | vain hvain hsame =>
      subst hsame
      exact .inr ⟨(hs.payload id packet hpacket).trans hpayload, hp⟩

/-- The books after an event that acknowledges nothing of the shares. -/
theorem keepShares_of_other (hp : w.store.pools a = some p)
    (hstake : succeeded a w ev .stakeLsm = none)
    (hredeem : succeeded a w ev .redeemTokenForShare = none) :
    keepShares a books w ev w' = books := by
  simp [keepShares, hp, hstake, hredeem]

/-- The entries of a pool are kept, its packets name what they redeem, and a
pool that has not started has no shares. -/
structure SharesKept (w : World) (a : String) (p : PoolInfo)
    (books : ShareBooks) : Prop where
  fresh : p.status = .registerEnded →
    p.shareTokens = [] ∧ ∀ id, ¬ w.Unanswered a .stakeLsm id
  named : ∀ id packet payload, w.pending id = some packet →
    packet.payload = some payload → payload.poolAddr = a →
    payload.txType = .redeemTokenForShare → NamesShares packet payload
  entries : (p.shareTokens ++ books.redeemed).Perm books.credited

theorem fresh_shares_of_move (h : SharesKept w a p books)
    (hmove : PoolMove net w ev w' a p p')
    (hstatus : p'.status = .registerEnded) :
    p'.shareTokens = [] ∧ ∀ id, ¬ w'.Unanswered a .stakeLsm id := by
  have hbefore := hmove.registered hstatus
  obtain ⟨hnone, hfresh⟩ := h.fresh hbefore
  refine ⟨?_, fresh_of_move rfl (fun _ => hfresh) hmove hstatus⟩
  cases hmove with
  | executed haction hstep hsends =>
      cases shareStep_of_exec hstep with
      | plain _ _ hshares _ => exact hshares.trans hnone
      | start _ hnext => exact absurd (hnext.symm.trans hstatus) (by simp)
      | redeem _ _ _ _ _ _ _ hshares _ => exact hshares.trans hnone
  | answered haction hpacket hpayload hpool hstep hpending =>
      cases hstep with
      | stakeLsm htype hcredit hrate =>
          exact absurd ⟨_, _, hpacket, hpayload, hpool, htype⟩ (hfresh _)
      | redeem htype => simp [hnone]
      | era hera => cases hera <;> exact hnone
      | _ => exact hnone
  | _ => exact hnone

/-- A new redemption of the pool names what it redeems. -/
theorem named_of_move (h : SharesKept w a p books)
    (hmove : PoolMove net w ev w' a p p') :
    ∀ id packet payload, w'.pending id = some packet →
      packet.payload = some payload → payload.poolAddr = a →
      payload.txType = .redeemTokenForShare → NamesShares packet payload := by
  intro id packet payload hpacket hpayload hpool htype
  have hold : w.pending id = some packet → NamesShares packet payload :=
    fun hbefore => h.named id packet payload hbefore hpayload hpool htype
  cases hmove with
  | executed haction hstep hsends =>
      rename_i querier info msg sentId sent
      rcases pending_of_sends hsends hpacket with hbefore | ⟨sub, hsub, -, rfl⟩
      · exact hold hbefore
      have hown : Calls sub a .redeemTokenForShare :=
        ⟨payload, hpayload, hpool, htype⟩
      cases shareStep_of_exec hstep with
      | plain _ hsent _ _ => exact absurd hown (hsent sub hsub)
      | start _ _ _ _ hsent _ _ => exact absurd hown (hsent sub hsub)
      | redeem hmsg hne hnodup hmem hcalls hmsgs htext hshares hlist =>
          obtain rfl := Option.mem_some.mp hsub
          rename_i tokens sub
          obtain ⟨delegator, hmsgs⟩ := hmsgs
          have htokens : (sub.packet info.sender msg).shares = tokens :=
            shares_of_redeem hmsgs
          refine ⟨?_, ?_, ?_⟩
          · rw [htokens]
            exact (SubMsg.text_eq hpayload).symm.trans htext
          · rwa [htokens]
          · rwa [htokens]
  | answered _ _ _ _ _ hpending =>
      exact hold (pending_of_remove hpending hpacket)
  | answeredElsewhere _ _ _ hpending =>
      exact hold (pending_of_remove hpending hpacket)
  | vain _ _ _ _ _ hpending =>
      exact hold (pending_of_remove hpending hpacket)
  | idle _ _ hpending => exact hold (hpending ▸ hpacket)

/-- Nothing is acknowledged: the books stay, and only the shares of the pool
have to. -/
theorem entries_of_other (hp : w.store.pools a = some p)
    (h : SharesKept w a p books)
    (hstake : succeeded a w ev .stakeLsm = none)
    (hredeem : succeeded a w ev .redeemTokenForShare = none)
    (hshares : p'.shareTokens = p.shareTokens) :
    (p'.shareTokens ++ (keepShares a books w ev w').redeemed).Perm
        (keepShares a books w ev w').credited ↔
      RedeemedAlone a w ev := by
  rw [keepShares_of_other hp hstake hredeem, hshares]
  refine iff_of_true h.entries fun found hfound => ?_
  rw [hredeem] at hfound
  cases hfound

theorem succeeded_of_execute {querier : Querier} {info : MessageInfo}
    {msg : ExecuteMsg} (haction : ev.action = .execute querier info msg id)
    (txType : TxType) : succeeded a w ev txType = none := by
  simp [succeeded, haction]

theorem succeeded_of_kind {answer : Answer} {querier : Querier}
    {bankAccepts : Bool}
    (haction : ev.action = .answer id answer querier bankAccepts)
    (hpacket : w.pending id = some packet) {txType : TxType}
    (hkind : packet.kind a ≠ some txType ∨ answer ≠ .success) :
    succeeded a w ev txType = none := by
  cases hfound : succeeded a w ev txType with
  | none => rfl
  | some found =>
      obtain ⟨⟨_, _, haction'⟩, hpacket', hkind'⟩ :=
        succeeded_eq_some.mp hfound
      obtain ⟨rfl, rfl, -⟩ := Action.answer.inj (haction.symm.trans haction')
      obtain rfl := Option.some.inj (hpacket.symm.trans hpacket')
      rcases hkind with hkind | hfailed
      · exact absurd hkind' hkind
      · exact absurd rfl hfailed

/-- The success of a share stake credits what it adds to the pool. -/
theorem entries_of_credit (hs : Sound net w)
    (hstep : w.step net ev = some w') {querier : Querier} {bankAccepts : Bool}
    (haction : ev.action = .answer id .success querier bankAccepts)
    (hp : w.store.pools a = some p) (hp' : w'.store.pools a = some p')
    (h : SharesKept w a p books) (hpacket : w.pending id = some packet)
    (hpayload : packet.payload = some payload) (hpool : payload.poolAddr = a)
    (htype : payload.txType = .stakeLsm) :
    (p'.shareTokens ++ (keepShares a books w ev w').redeemed).Perm
        (keepShares a books w ev w').credited ↔
      RedeemedAlone a w ev := by
  have hkind : packet.kind a = some .stakeLsm :=
    Packet.kind_eq_some.mpr ⟨payload, hpayload, hpool, htype⟩
  have hstake : succeeded a w ev .stakeLsm = some (id, packet) :=
    succeeded_eq_some.mpr ⟨⟨querier, bankAccepts, haction⟩, hpacket, hkind⟩
  have hredeem : succeeded a w ev .redeemTokenForShare = none :=
    succeeded_of_kind haction hpacket (.inl (by simp [hkind]))
  refine iff_of_true ?_ fun found hfound => ?_
  · have hentries := h.entries
    rcases share_answer hs hstep haction hp hpacket hpayload hpool htype with
      ⟨hgone, staker, worth, share, hcredit, hnext⟩ | ⟨hkept, hnext⟩
    · obtain rfl := Option.some.inj (hp'.symm.trans hnext)
      have hshare : packet.credit = some share := by
        simp [Packet.credit, hpayload, hcredit]
      simp only [keepShares, hp, hstake, hredeem, hgone, hshare, lsmCredited,
        Option.isNone_none, Option.isNone_some, Bool.false_eq_true, if_true,
        if_false, Option.toList_some, List.append_assoc]
      rw [List.perm_iff_count] at hentries ⊢
      intro other
      have hcount := hentries other
      simp only [List.count_append] at hcount ⊢
      omega
    · obtain rfl := Option.some.inj (hp'.symm.trans hnext)
      simp only [keepShares, hp, hstake, hredeem, hkept, Option.isNone_some,
        Bool.false_eq_true, if_false]
      exact hentries
  · rw [hredeem] at hfound
    cases hfound

/-- What leaves the pool with the text of a redemption is what it redeems
exactly when each of its shares is alone. -/
theorem removed_perm_iff (hnamed : NamesShares packet payload)
    (tokens : List Coin) :
    (tokens.filter fun token =>
        decide (token.denom ∈ Text.split ',' payload.message)).Perm
        packet.shares ↔
      ∀ token ∈ packet.shares, ',' ∉ token.denom.toList ∧
        (tokens.filter fun other =>
          decide (other.denom = token.denom)) = [token] := by
  constructor
  · intro hperm token htoken
    obtain ⟨hpiece, halone⟩ := alone_of_perm hnamed.nodup hperm htoken
    exact ⟨Text.not_mem_of_mem_split hpiece, halone⟩
  · intro halone
    have hsplit : Text.split ',' payload.message =
        packet.shares.map (·.denom) := by
      rw [hnamed.text]
      refine Text.split_join (by simpa using hnamed.ne_nil) ?_
      intro denom hdenom
      obtain ⟨token, htoken, rfl⟩ := List.mem_map.mp hdenom
      exact (halone token htoken).1
    rw [hsplit]
    exact perm_of_alone hnamed.nodup fun token htoken =>
      (halone token htoken).2

/-- The success of a redemption keeps the entries exactly when each redeemed
share is alone. -/
theorem entries_of_redeem {querier : Querier} {bankAccepts : Bool}
    (haction : ev.action = .answer id .success querier bankAccepts)
    (hp : w.store.pools a = some p) (h : SharesKept w a p books)
    (hpacket : w.pending id = some packet)
    (hpayload : packet.payload = some payload) (hpool : payload.poolAddr = a)
    (htype : payload.txType = .redeemTokenForShare)
    (hshares : p'.shareTokens = p.shareTokens.filter fun token =>
      decide (token.denom ∉ Text.split ',' payload.message)) :
    (p'.shareTokens ++ (keepShares a books w ev w').redeemed).Perm
        (keepShares a books w ev w').credited ↔
      RedeemedAlone a w ev := by
  have hkind : packet.kind a = some .redeemTokenForShare :=
    Packet.kind_eq_some.mpr ⟨payload, hpayload, hpool, htype⟩
  have hredeem : succeeded a w ev .redeemTokenForShare = some (id, packet) :=
    succeeded_eq_some.mpr ⟨⟨querier, bankAccepts, haction⟩, hpacket, hkind⟩
  have hstake : succeeded a w ev .stakeLsm = none :=
    succeeded_of_kind haction hpacket (.inl (by simp [hkind]))
  have halone : RedeemedAlone a w ev ↔ ∀ token ∈ packet.shares,
      ',' ∉ token.denom.toList ∧ (p.shareTokens.filter fun other =>
        decide (other.denom = token.denom)) = [token] := by
    constructor
    · exact fun hall => hall (id, packet) hredeem p hp
    · intro hall found hfound q hq
      obtain rfl := Option.some.inj (hredeem.symm.trans hfound)
      obtain rfl := Option.some.inj (hp.symm.trans hq)
      exact hall
  rw [halone, ← removed_perm_iff
    (h.named id packet payload hpacket hpayload hpool htype)]
  simp only [keepShares, hp, hstake, hredeem, hshares, Option.isNone_some,
    Bool.false_eq_true, if_false]
  -- what is kept and what is removed make up the pool
  have hentries := h.entries
  have hparts := List.filter_append_perm (fun token : Coin =>
    decide (token.denom ∈ Text.split ',' payload.message)) p.shareTokens
  simp only [← decide_not] at hparts
  rw [List.perm_iff_count] at hentries hparts ⊢
  rw [List.perm_iff_count]
  refine forall_congr' fun token => ?_
  have hcount := hentries token
  have hpart := hparts token
  simp only [List.count_append] at hcount hpart ⊢
  omega

theorem entries_iff_of_move (hs : Sound net w)
    (hstep : w.step net ev = some w') (hp : w.store.pools a = some p)
    (hp' : w'.store.pools a = some p') (h : SharesKept w a p books)
    (hempty : StartsEmpty a w ev) (hmove : PoolMove net w ev w' a p p') :
    (p'.shareTokens ++ (keepShares a books w ev w').redeemed).Perm
        (keepShares a books w ev w').credited ↔
      RedeemedAlone a w ev := by
  cases hmove with
  | executed haction hexec hsends =>
      refine entries_of_other hp h (succeeded_of_execute haction _)
        (succeeded_of_execute haction _) ?_
      cases shareStep_of_exec hexec with
      | plain hmsg hsent hshares hlist => exact hshares
      | redeem hmsg hne hnodup hmem hcalls hmsgs htext hshares hlist =>
          exact hshares
      | start hstatus hnext htarget hmsg hsent hshares hlist =>
          rw [(h.fresh hstatus).1]
          rcases hshares with hshares | ⟨param, rfl, hshares⟩
          · exact hshares
          · exact hshares.trans
              (hempty param (by simp [migrated, haction]) htarget)
  | answered haction hpacket hpayload hpool hanswer hpending =>
      rename_i id answer querier bankAccepts packet payload
      have hkind : packet.kind a = some payload.txType :=
        Packet.kind_eq_some.mpr ⟨payload, hpayload, hpool, rfl⟩
      have hother : payload.txType ≠ .stakeLsm ∨ answer ≠ .success →
          payload.txType ≠ .redeemTokenForShare ∨ answer ≠ .success →
          p'.shareTokens = p.shareTokens →
          ((p'.shareTokens ++ (keepShares a books w ev w').redeemed).Perm
              (keepShares a books w ev w').credited ↔
            RedeemedAlone a w ev) := by
        intro hstake hredeem hshares
        refine entries_of_other hp h
          (succeeded_of_kind haction hpacket ?_)
          (succeeded_of_kind haction hpacket ?_) hshares
        · rw [hkind]
          simpa using hstake
        · rw [hkind]
          simpa using hredeem
      cases hanswer with
      | stakeLsm htype hcredit hrate =>
          exact entries_of_credit hs hstep haction hp hp' h hpacket hpayload
            hpool htype
      | redeem htype =>
          exact entries_of_redeem haction hp h hpacket hpayload hpool htype rfl
      | stakeLsmFailed htype hfailed =>
          exact hother (.inr hfailed) (.inr hfailed) rfl
      | redeemFailed htype hfailed =>
          exact hother (.inr hfailed) (.inr hfailed) rfl
      | validatorFailed htype hfailed =>
          exact hother (.inr hfailed) (.inr hfailed) rfl
      | era hera =>
          have hstepKind := EraAnswer.isStep hera
          refine hother (.inl ?_) (.inl ?_) (by cases hera <;> rfl)
          · rintro htype
            rw [htype] at hstepKind
            cases hstepKind
          · rintro htype
            rw [htype] at hstepKind
            cases hstepKind
      | userWithdraw htype =>
          exact hother (.inl (by simp [htype])) (.inl (by simp [htype])) rfl
      | updateValidator htype =>
          exact hother (.inl (by simp [htype])) (.inl (by simp [htype])) rfl
      | rmValidator htype =>
          exact hother (.inl (by simp [htype])) (.inl (by simp [htype])) rfl
  | answeredElsewhere haction hpacket helsewhere hpending =>
      have hnone := Packet.kind_elsewhere helsewhere
      exact entries_of_other hp h
        (succeeded_of_kind haction hpacket (.inl (by simp [hnone])))
        (succeeded_of_kind haction hpacket (.inl (by simp [hnone]))) rfl
  | vain haction hpacket hpayload hpool hvain hpending =>
      rename_i id answer querier bankAccepts packet payload
      have hkind : packet.kind a = some payload.txType :=
        Packet.kind_eq_some.mpr ⟨payload, hpayload, hpool, rfl⟩
      have hne := redeem_not_vain (hpool ▸ hp) hvain
      by_cases hcredit : payload.txType = .stakeLsm ∧ answer = .success
      · obtain ⟨htype, rfl⟩ := hcredit
        exact entries_of_credit hs hstep haction hp hp' h hpacket hpayload
          hpool htype
      · refine entries_of_other hp h (succeeded_of_kind haction hpacket ?_)
          (succeeded_of_kind haction hpacket (.inl ?_)) rfl
        · rw [hkind]
          simpa [or_iff_not_imp_left] using hcredit
        · rw [hkind]
          simpa using hne
  | idle hexecute hanswer hpending =>
      have hnone : ∀ txType, succeeded a w ev txType = none := by
        intro txType
        unfold succeeded
        split
        · rename_i haction
          exact absurd haction (hanswer _ _ _ _)
        · rfl
      exact entries_of_other hp h (hnone _) (hnone _) rfl

def AllKept (net : Network) (a : String) (s : World × ShareBooks) : Prop :=
  Sound net s.1 ∧ ∀ p, s.1.store.pools a = some p → SharesKept s.1 a p s.2

/-- A step keeps the entries exactly when each redeemed share is alone. -/
theorem entriesKept_iff_of_step {s s' : World × ShareBooks}
    (hinv : AllKept net a s)
    (hstep : Transition.track (step net) (keepShares a) s ev = some s')
    (hempty : StartsEmpty a s.1 ev) :
    EntriesKept a s' ↔ RedeemedAlone a s.1 ev := by
  obtain ⟨w, books⟩ := s
  obtain ⟨w', books'⟩ := s'
  obtain ⟨hworld, rfl⟩ := Transition.track_eq_some.mp hstep
  obtain ⟨hs, hI⟩ := hinv
  dsimp only at hs hI hempty
  cases hp : w.store.pools a with
  | none =>
      refine iff_of_true (fun p' hp' => ?_) fun found _ p hp' => ?_
      · obtain ⟨⟨_, _, _, rfl, -⟩, -⟩ := pool_created hs hworld hp hp'
        simp [keepShares, hp, ShareBooks.empty, registeredPool]
      · cases hp.symm.trans hp'
  | some p =>
      obtain ⟨p', hp', hmove⟩ := pool_move hs hworld hp
      rw [← entries_iff_of_move hs hworld hp hp' (hI p hp) hempty hmove]
      constructor
      · exact fun h => h p' hp'
      · intro h q hq
        obtain rfl := Option.some.inj (hp'.symm.trans hq)
        exact h

theorem allKept_step {s s' : World × ShareBooks} (hinv : AllKept net a s)
    (hstep : Transition.track (step net) (keepShares a) s ev = some s')
    (hempty : StartsEmpty a s.1 ev) (halone : RedeemedAlone a s.1 ev) :
    AllKept net a s' := by
  have hentries := (entriesKept_iff_of_step hinv hstep hempty).mpr halone
  obtain ⟨w, books⟩ := s
  obtain ⟨w', books'⟩ := s'
  obtain ⟨hworld, rfl⟩ := Transition.track_eq_some.mp hstep
  obtain ⟨hs, hI⟩ := hinv
  dsimp only at hs hI
  refine ⟨sound_step hs hworld, pool_invariant
    (J := fun p' => w'.store.pools a = some p' →
      SharesKept w' a p' (keepShares a books w ev w')) hs hworld hI ?_ ?_ |>
        fun h p' hp' => h p' hp' hp'⟩
  · intro p p' _ _ hpool hmove hp'
    exact ⟨fresh_shares_of_move hpool hmove, named_of_move hpool hmove,
      hentries p' hp'⟩
  · intro _ _ _ _ hnone _ _ hp'
    refine ⟨fun _ => ⟨rfl, hnone .stakeLsm⟩, ?_, hentries _ hp'⟩
    intro id packet payload hpacket hpayload hpool htype
    exact absurd ⟨packet, payload, hpacket, hpayload, hpool, htype⟩
      (hnone .redeemTokenForShare id)

/-- Where the entries are kept, the amounts of every denom are. -/
theorem conserved_of_entries {s : World × ShareBooks} (h : EntriesKept a s) :
    Conserved a s := by
  intro p hp denom
  rw [← amountOf_perm (h p hp) denom, amountOf_append]

/-- On a pool that starts without shares, the shares of every denom are
conserved, and no entry leaves the pool without having been redeemed, in
exactly those runs in which each acknowledged redemption finds its shares
alone. -/
theorem shares_conserved_iff {net : Network} {a : String} {block : BlockInfo}
    {info : MessageInfo} {lsdTokenCodeId : Nat} {evs : List Event}
    (hrun : Transition.AllSteps (Transition.track (step net) (keepShares a))
      (fun s ev _ => StartsEmpty a s.1 ev)
      (genesis block info lsdTokenCodeId, ShareBooks.empty) evs) :
    Transition.AllSteps (Transition.track (step net) (keepShares a))
        (fun _ _ s' => Conserved a s' ∧ EntriesKept a s')
        (genesis block info lsdTokenCodeId, ShareBooks.empty) evs ↔
      Transition.AllSteps (Transition.track (step net) (keepShares a))
        (fun s ev _ => RedeemedAlone a s.1 ev)
        (genesis block info lsdTokenCodeId, ShareBooks.empty) evs := by
  refine Transition.AllSteps.iff_of_invariant (AllKept net a) ?_ ?_ ?_ hrun
  · intro s ev s' hinv hstep hempty
    rw [← entriesKept_iff_of_step hinv hstep hempty]
    exact and_iff_right_of_imp conserved_of_entries
  · intro s ev s' hinv hstep hempty halone
    exact allKept_step hinv hstep hempty halone
  · exact ⟨sound_genesis net block info lsdTokenCodeId, fun _ h => nomatch h⟩

/-- The credited shares are redeemed. -/
theorem shares_conserved_sample :
    Transition.AllSteps (Transition.track (step Sample.net)
      (keepShares Sample.pool))
      (fun _ _ s' => Conserved Sample.pool s' ∧ EntriesKept Sample.pool s')
      (Sample.genesis, ShareBooks.empty)
      (Sample.credited ++ [Sample.redeem 100 2,
        Sample.ack 1 .success (Sample.packetId 2)]) :=
  (shares_conserved_iff (by decide +kernel)).mpr (by decide +kernel)

end World

namespace Sample

/-- Two deposits of the same share, of which the first is redeemed. -/
def twoDeposits : List Event := credited ++ [
  stakeLsm 1 50 "ibc/SHARE" ("channel-7", 1),
  ack 1 .success ("channel-7", 1), redeem 100 2, ack 1 .success (packetId 2)]

end Sample

namespace World

/-- With the first deposit of a share the second one leaves the list. -/
theorem shares_conserved_fails :
    ¬ ∀ (net : Network) (a : String) (block : BlockInfo)
      (info : MessageInfo) (lsdTokenCodeId : Nat) (evs : List Event),
      Transition.AllSteps (Transition.track (step net) (keepShares a))
          (fun s ev _ => StartsEmpty a s.1 ev)
          (genesis block info lsdTokenCodeId, ShareBooks.empty) evs →
        Transition.AllSteps (Transition.track (step net) (keepShares a))
          (fun _ _ s' => Conserved a s')
          (genesis block info lsdTokenCodeId, ShareBooks.empty) evs := by
  intro hall
  have hconserved := hall Sample.net Sample.pool (Sample.day 1)
    ⟨Sample.admin, []⟩ 1 Sample.twoDeposits (by decide +kernel)
  obtain ⟨s, hrun, htest⟩ : ∃ s,
      Transition.exec (Transition.track (step Sample.net)
        (keepShares Sample.pool)) (Sample.genesis, ShareBooks.empty)
        Sample.twoDeposits = some s ∧
      (s.1.store.pools Sample.pool).any (fun p => decide
        (amountOf "val1/1" s.2.credited = 150 ∧ p.shareTokens = [] ∧
          amountOf "val1/1" s.2.redeemed = 100)) = true :=
    (Option.any_eq_true _ _).mp (by decide +kernel)
  have hlast : Conserved Sample.pool s :=
    Transition.AllSteps.invariant_last (Conserved Sample.pool)
      (fun _ _ _ _ _ h => h) (fun _ h => by cases h) hconserved hrun
  obtain ⟨p, hp, hamounts⟩ := (Option.any_eq_true _ _).mp htest
  obtain ⟨hcredited, hnone, hredeemed⟩ := of_decide_eq_true hamounts
  have hbalance := hlast p hp "val1/1"
  rw [hcredited, hnone, hredeemed] at hbalance
  exact absurd hbalance (by decide)

end World

end NeutronContracts
