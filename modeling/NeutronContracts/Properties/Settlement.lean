/-
The settlement of a share stake.  Its packet carries the staker, the amounts
and the denoms as one text; the callbacks read them back when none of the
pieces contains the separator, and then the shares are credited or refunded.
-/
import NeutronContracts.Chain.Sound

namespace NeutronContracts

open StakeManager Fallible

/-- What the text of a share stake is split into. -/
theorem split_stakeLsmMessage (user : String) (tokenAmount shareAmount : Nat)
    (ibcDenom denom : String) :
    Text.split '_' (stakeLsmMessage user tokenAmount shareAmount ibcDenom
        denom) =
      Text.split '_' user ++ toString tokenAmount :: toString shareAmount ::
        (Text.split '_' ibcDenom ++ Text.split '_' denom) := by
  have hplain : ∀ n : Nat, Text.split '_' (toString n) = [toString n] :=
    fun n => Text.split_eq_singleton (Text.sep_not_mem_toString rfl n)
  have hsep : ("_" : String) = String.singleton '_' := rfl
  simp only [stakeLsmMessage, hsep, Text.split_append_sep, hplain,
    List.append_assoc, List.cons_append, List.nil_append]

/-- The separator stands in none of the pieces that are not numerals. -/
def Plain5 (user ibcDenom denom : String) : Prop :=
  '_' ∉ user.toList ∧ '_' ∉ ibcDenom.toList ∧ '_' ∉ denom.toList

instance (user ibcDenom denom : String) :
    Decidable (Plain5 user ibcDenom denom) :=
  inferInstanceAs (Decidable (_ ∧ _ ∧ _))

/-- The text has the five pieces that the callbacks insist on exactly when the
separator is in none of them. -/
theorem five_pieces_iff {user ibcDenom denom : String}
    {tokenAmount shareAmount : Nat} :
    (Text.split '_' (stakeLsmMessage user tokenAmount shareAmount ibcDenom
        denom)).length = 5 ↔ Plain5 user ibcDenom denom := by
  rw [split_stakeLsmMessage]
  have huser := Text.length_split_pos '_' user
  have hibc := Text.length_split_pos '_' ibcDenom
  have hdenom := Text.length_split_pos '_' denom
  simp only [Plain5, ← Text.length_split_eq_one, List.length_append,
    List.length_cons]
  omega

theorem split_of_plain {user ibcDenom denom : String}
    {tokenAmount shareAmount : Nat} (h : Plain5 user ibcDenom denom) :
    Text.split '_' (stakeLsmMessage user tokenAmount shareAmount ibcDenom
        denom) =
      [user, toString tokenAmount, toString shareAmount, ibcDenom, denom] := by
  rw [split_stakeLsmMessage, Text.split_eq_singleton h.1,
    Text.split_eq_singleton h.2.1, Text.split_eq_singleton h.2.2]
  rfl

/-- A call that leads to success has split its text into five pieces. -/
theorem length_of_five {s : String} {first second third fourth fifth : String}
    (h : Text.split '_' s = [first, second, third, fourth, fifth]) :
    (Text.split '_' s).length = 5 := by
  rw [h]
  rfl

/-- A share stake: who staked in which pool, the coin, the worth of the shares
and their denom on the host. -/
structure LsmStake where
  user : String
  pool : String
  coin : Coin
  tokenAmount : Nat
  denom : String

/-- The payload that an accepted stake leaves for its callbacks. -/
structure LsmStake.PaidInto (stake : LsmStake) (payload : SudoPayload) :
    Prop where
  message : payload.message = stakeLsmMessage stake.user stake.tokenAmount
    stake.coin.amount stake.coin.denom stake.denom
  poolAddr : payload.poolAddr = stake.pool
  txType : payload.txType = .stakeLsm
  worth : stake.tokenAmount < Uint128.limit
  amount : stake.coin.amount < Uint128.limit

namespace World

variable {net : Network} {w w' : World} {id : PacketId} {answer : Answer}
  {querier : Querier} {bankAccepts : Bool} {payload : SudoPayload}
  {stake : LsmStake} {p : PoolInfo} {store store' : Storage} {rsp : Response}

/-- The mint of a credited stake. -/
def creditMsg (stake : LsmStake) (p : PoolInfo) : LsdTokenMsg :=
  .mint stake.user (stake.tokenAmount * calBase / p.rate)

/-- The answer settles the stake: its callback succeeds with one message that
is executed, the mint of the credit together with the entry of the shares, or
the refund of the coin. -/
def Settled (net : Network) (w : World) (id : PacketId) (querier : Querier)
    (bankAccepts : Bool) (payload : SudoPayload) (stake : LsmStake)
    (p : PoolInfo) (answer : Answer) : Prop :=
  ∃ store rsp w',
    callback (w.afterTake id) (w.env net) payload answer = .ok (store, rsp) ∧
    deliverAll net ⟨querier, bankAccepts, none⟩
      { w with pending := w.pending.remove id, store := store }
      rsp.messages = some w' ∧
    match answer with
    | .success =>
        rsp.messages =
          [⟨.wasmExecute p.lsdToken (creditMsg stake p), none, none⟩] ∧
        w'.store.pools stake.pool = some (lsmCredited p stake.tokenAmount
          ⟨stake.denom, stake.coin.amount⟩)
    | _ =>
        rsp.messages = [⟨.bankSend stake.user [stake.coin], none, none⟩] ∧
        w'.store.pools stake.pool = some p

/-- What settles a stake: its text can be split, a credit stays in range and
the token mints it, a refund is accepted by the bank. -/
def Settleable (net : Network) (w : World) (querier : Querier)
    (bankAccepts : Bool) (stake : LsmStake) (p : PoolInfo) (answer : Answer) :
    Prop :=
  Plain5 stake.user stake.coin.denom stake.denom ∧
    match answer with
    | .success =>
        p.rate ≠ 0 ∧ p.active + stake.tokenAmount < Uint128.limit ∧
        stake.tokenAmount * calBase < Uint128.limit ∧
        p.totalLsdTokenAmount + stake.tokenAmount * calBase / p.rate <
          Uint128.limit ∧
        (w.runToken querier.addrValidate p.lsdToken net.self
          (tokenCall (creditMsg stake p))).isSome = true
    | _ => bankAccepts = true

/-- A credit succeeds when the text can be split and the sums stay in
range. -/
theorem credit_ok_iff (hpaid : stake.PaidInto payload)
    (hp : store.pools stake.pool = some p) :
    (∃ result, sudoStakeLsmCallback store payload = .ok result) ↔
      Plain5 stake.user stake.coin.denom stake.denom ∧ p.rate ≠ 0 ∧
        p.active + stake.tokenAmount < Uint128.limit ∧
        stake.tokenAmount * calBase < Uint128.limit ∧
        p.totalLsdTokenAmount + stake.tokenAmount * calBase / p.rate <
          Uint128.limit := by
  constructor
  · rintro ⟨result, h⟩
    have hplain : Plain5 stake.user stake.coin.denom stake.denom := by
      rw [← five_pieces_iff, ← hpaid.message]
      unfold sudoStakeLsmCallback at h
      split at h
      case h_1 hsplit => exact length_of_five hsplit
      case h_2 => cases h
    refine ⟨hplain, ?_⟩
    simp only [sudoStakeLsmCallback, hpaid.message, split_of_plain hplain,
      hpaid.poolAddr, hp, load, Uint128.parse,
      Text.parseBelow_toString hpaid.worth,
      Text.parseBelow_toString hpaid.amount, bind_eq_ok, orError_eq_ok,
      Option.some.injEq, exists_eq_left', addBelow_eq_ok, mulBelow_eq_ok,
      divExact_eq_ok] at h
    obtain ⟨_, ⟨hactive, -⟩, _, ⟨hscaled, rfl⟩, _, ⟨hrate, rfl⟩, _,
      ⟨htotal, -⟩, -⟩ := h
    exact ⟨hrate, hactive, hscaled, htotal⟩
  · rintro ⟨hplain, hrate, hactive, hscaled, htotal⟩
    simp only [sudoStakeLsmCallback, hpaid.message, split_of_plain hplain,
      hpaid.poolAddr, hp, load, Uint128.parse,
      Text.parseBelow_toString hpaid.worth,
      Text.parseBelow_toString hpaid.amount, exists_bind_eq_ok,
      orError_eq_ok, Option.some.injEq, exists_eq_left', addBelow_eq_ok,
      mulBelow_eq_ok, divExact_eq_ok]
    exact ⟨_, ⟨hactive, rfl⟩, _, ⟨hscaled, rfl⟩, _, ⟨hrate, rfl⟩, _,
      ⟨htotal, rfl⟩, _, rfl⟩

/-- What a credit does. -/
theorem credit_eq (hpaid : stake.PaidInto payload)
    (hp : store.pools stake.pool = some p)
    (h : sudoStakeLsmCallback store payload = .ok (store', rsp)) :
    store' = store.savePool stake.pool (lsmCredited p stake.tokenAmount
        ⟨stake.denom, stake.coin.amount⟩) ∧
      rsp.messages =
        [⟨.wasmExecute p.lsdToken (creditMsg stake p), none, none⟩] := by
  obtain ⟨hplain, -⟩ := (credit_ok_iff hpaid hp).mp ⟨_, h⟩
  obtain ⟨q, staker, tokenAmount, share, hcredit, hq, -, rfl, hmsgs⟩ :=
    sudoStakeLsmCallback_ok h
  rw [hpaid.poolAddr, hp, Option.some.injEq] at hq
  subst hq
  rw [hpaid.message] at hcredit
  simp only [stakeLsmCredit, split_of_plain hplain, Uint128.parse,
    Text.parseBelow_toString hpaid.worth,
    Text.parseBelow_toString hpaid.amount, Option.bind_eq_bind,
    Option.bind_some, pure, Option.some.injEq, Prod.mk.injEq] at hcredit
  obtain ⟨rfl, rfl, rfl⟩ := hcredit
  exact ⟨by rw [hpaid.poolAddr], hmsgs⟩

/-- A refund succeeds when the text can be split. -/
theorem refund_ok_iff (store : Storage)
    (hpaid : stake.PaidInto payload) :
    (∃ result, sudoStakeLsmFailedCallback store payload = .ok result) ↔
      Plain5 stake.user stake.coin.denom stake.denom := by
  constructor
  · rintro ⟨result, h⟩
    rw [← five_pieces_iff, ← hpaid.message]
    unfold sudoStakeLsmFailedCallback at h
    split at h
    case h_1 hsplit => exact length_of_five hsplit
    case h_2 => cases h
  · intro hplain
    simp only [sudoStakeLsmFailedCallback, hpaid.message,
      split_of_plain hplain, Uint128.parse,
      Text.parseBelow_toString hpaid.amount, exists_bind_eq_ok,
      orError_eq_ok, Option.some.injEq, exists_eq_left']
    exact ⟨_, rfl⟩

theorem refund_eq (hpaid : stake.PaidInto payload)
    (h : sudoStakeLsmFailedCallback store payload = .ok (store', rsp)) :
    store' = store ∧
      rsp.messages = [⟨.bankSend stake.user [stake.coin], none, none⟩] := by
  have hplain := (refund_ok_iff _ hpaid).mp ⟨_, h⟩
  simp only [sudoStakeLsmFailedCallback, hpaid.message, split_of_plain hplain,
    Uint128.parse, Text.parseBelow_toString hpaid.amount, bind_eq_ok,
    orError_eq_ok, Option.some.injEq, exists_eq_left', pure_eq_ok,
    Prod.mk.injEq] at h
  obtain ⟨rfl, rfl⟩ := h
  exact ⟨rfl, rfl⟩

theorem deliverAll_singleton (net : Network) (delivery : Delivery) (w : World)
    (sub : SubMsg) : deliverAll net delivery w [sub] =
      deliver net delivery w sub := by
  unfold deliverAll
  cases h : deliver net delivery w sub with
  | none => simp [Transition.exec, h]
  | some next => simp [Transition.exec, h]

/-- A token answers a call whatever the packets and the records are. -/
theorem exists_runToken_iff (pending : Map PacketId Packet) (store : Storage)
    (addrValidate : String → Bool) (address sender : String)
    (msg : LsdToken.ExecuteMsg) :
    (∃ w', ({ w with pending := pending, store := store } : World).runToken
        addrValidate address sender msg = some w') ↔
      (w.runToken addrValidate address sender msg).isSome = true := by
  unfold runToken
  cases w.tokens address with
  | none => simp
  | some token =>
      dsimp only
      cases LsdToken.execute token ⟨w.block, addrValidate⟩ sender msg with
      | error e => simp
      | ok result => simp

/-- The answer to a share packet settles the stake exactly when the stake can
be settled. -/
theorem settled_iff (hpaid : stake.PaidInto payload)
    (hp : w.store.pools stake.pool = some p) :
    Settled net w id querier bankAccepts payload stake p answer ↔
      Settleable net w querier bankAccepts stake p answer := by
  have htype := hpaid.txType
  -- both failures are refunds
  have hrefund : (∃ store rsp w',
      sudoFailedCallback (w.afterTake id) payload = .ok (store, rsp) ∧
      deliverAll net ⟨querier, bankAccepts, none⟩
        { w with pending := w.pending.remove id, store := store }
        rsp.messages = some w' ∧
      rsp.messages = [⟨.bankSend stake.user [stake.coin], none, none⟩] ∧
      w'.store.pools stake.pool = some p) ↔
      Plain5 stake.user stake.coin.denom stake.denom ∧
        bankAccepts = true := by
    simp only [sudoFailedCallback, htype]
    constructor
    · rintro ⟨store, rsp, w', hcall, hdeliver, hmsgs, -⟩
      refine ⟨(refund_ok_iff _ hpaid).mp ⟨_, hcall⟩, ?_⟩
      rw [hmsgs, deliverAll_singleton] at hdeliver
      simp only [deliver] at hdeliver
      split at hdeliver
      · assumption
      · cases hdeliver
    · rintro ⟨hplain, haccepts⟩
      obtain ⟨⟨store, rsp⟩, hcall⟩ :=
        (refund_ok_iff (w.afterTake id) hpaid).mpr hplain
      obtain ⟨rfl, hmsgs⟩ := refund_eq hpaid hcall
      refine ⟨_, rsp,
        { w with pending := w.pending.remove id, store := w.afterTake id },
        hcall, ?_, hmsgs, hp⟩
      rw [hmsgs, deliverAll_singleton]
      simp only [deliver, haccepts, if_true]
  cases answer with
  | success =>
      simp only [Settled, Settleable, callback, sudoCallback, htype]
      have hp' : (w.afterTake id).pools stake.pool = some p := hp
      constructor
      · rintro ⟨store, rsp, w', hcall, hdeliver, hmsgs, -⟩
        obtain ⟨hplain, hrate, hactive, hscaled, htotal⟩ :=
          (credit_ok_iff hpaid hp').mp ⟨_, hcall⟩
        rw [hmsgs, deliverAll_singleton] at hdeliver
        exact ⟨hplain, hrate, hactive, hscaled, htotal,
          (exists_runToken_iff _ _ _ _ _ _).mp ⟨w', hdeliver⟩⟩
      · rintro ⟨hplain, hrate, hactive, hscaled, htotal, hminted⟩
        obtain ⟨⟨store, rsp⟩, hcall⟩ := (credit_ok_iff hpaid hp').mpr
          ⟨hplain, hrate, hactive, hscaled, htotal⟩
        obtain ⟨rfl, hmsgs⟩ := credit_eq hpaid hp' hcall
        obtain ⟨w', hw'⟩ := (exists_runToken_iff (w.pending.remove id)
          ((w.afterTake id).savePool stake.pool (lsmCredited p
            stake.tokenAmount ⟨stake.denom, stake.coin.amount⟩)) _ _ _ _).mpr
          hminted
        refine ⟨_, rsp, w', hcall, ?_, hmsgs, ?_⟩
        · rw [hmsgs, deliverAll_singleton]
          exact hw'
        · rw [(runToken_quiet hw').2.1]
          exact Map.save_self
  | error => exact hrefund
  | timeout => exact hrefund

/-- Whatever a call has been accepted with, each answer to its packet settles
the stake exactly when the text of the packet can be split again and the
credit or the refund can be executed. -/
theorem lsm_settled_iff {net : Network} {store store' : Storage}
    {querier : Querier} {env : Env} {info : MessageInfo} {user a : String}
    {rsp : Response}
    (haccepted : executeStakeLsm store querier env info user a =
      .ok (store', rsp)) :
    ∃ coin trace validator validators tokenAmount payload,
      info.funds = [coin] ∧
      queryDenomTraceFromIbcDenom querier coin.denom = .ok trace ∧
      queryValidatorByAddr store querier a = .ok validators ∧
      validator ∈ validators.result ∧
      lsmTokenAmount validator coin.amount = .ok tokenAmount ∧
      rsp.messages.map (·.payload) = [some payload] ∧
      ∀ (w : World) (id : PacketId) (querier : Querier) (bankAccepts : Bool)
          (p : PoolInfo) (answer : Answer), w.store.pools a = some p →
        (Settled net w id querier bankAccepts payload
            ⟨user, a, coin, tokenAmount, trace.baseDenom⟩ p answer ↔
          Settleable net w querier bankAccepts
            ⟨user, a, coin, tokenAmount, trace.baseDenom⟩ p answer) := by
  obtain ⟨p, coin, trace, port, channel, _, record, tokenAmount, transfer,
    payload, -, hfunds, -, -, -, htrace, -, -, -,
    ⟨validators, validator, hvalidators, hfind, hworth, hne⟩, -, -, -, -,
    hmessage, hpool, htype, -, hmsgs⟩ := executeStakeLsm_ok haccepted
  obtain ⟨hworth', hamount⟩ := lsmTokenAmount_lt hworth hne
  refine ⟨coin, trace, validator, validators, tokenAmount, payload, hfunds,
    htrace, hvalidators, List.mem_of_find?_eq_some hfind, hworth,
    by rw [hmsgs]; rfl, fun w id querier bankAccepts p answer hp => ?_⟩
  exact settled_iff ⟨hmessage, hpool, htype, hworth', hamount⟩ hp

/-- A stake of shares of the first validator, whose failure is refunded. -/
theorem lsm_settled_sample : ∃ w p store' rsp payload,
    Sample.run (Sample.setup ++ [Sample.allowLsm]) = some w ∧
    executeStakeLsm w.store (Sample.querier 1 [] 0)
      ⟨Sample.day 1, Sample.net.self⟩
      ⟨Sample.user, [⟨"ibc/SHARE", 100⟩]⟩ Sample.user Sample.pool =
        .ok (store', rsp) ∧
    rsp.messages.map (·.payload) = [some payload] ∧
    Settled Sample.net w (Sample.packetId 2) (Sample.querier 1 [] 0) true
      payload ⟨Sample.user, Sample.pool, ⟨"ibc/SHARE", 100⟩, 100, "val1/1"⟩
      p .timeout := by
  obtain ⟨w, p, hw, hp, htest⟩ := Sample.exists_of_run
    (Sample.setup ++ [Sample.allowLsm])
    (fun w _ => (executeStakeLsm w.store (Sample.querier 1 [] 0)
        ⟨Sample.day 1, Sample.net.self⟩
        ⟨Sample.user, [⟨"ibc/SHARE", 100⟩]⟩ Sample.user
        Sample.pool).toOption.isSome &&
      ((queryValidatorByAddr w.store (Sample.querier 1 [] 0)
        Sample.pool).toOption.all fun validators =>
          validators.result.all fun validator => decide
            ((lsmTokenAmount validator 100).toOption = some 100)))
    (by decide +kernel)
  rw [Bool.and_eq_true, Option.isSome_iff_exists] at htest
  obtain ⟨⟨⟨store', rsp⟩, hcall⟩, hworth⟩ := htest
  have hcall := toOption_eq_some.mp hcall
  refine ⟨w, p, store', rsp, ?_⟩
  obtain ⟨coin, trace, validator, validators, tokenAmount, payload, hfunds,
    htrace, hvalidators, hmem, hamount, hpayload, hiff⟩ :=
    lsm_settled_iff hcall
  obtain rfl : ⟨"ibc/SHARE", 100⟩ = coin := by simpa using hfunds
  obtain rfl : ⟨"transfer/channel-7", "val1/1"⟩ = trace := by
    have hsample : queryDenomTraceFromIbcDenom (Sample.querier 1 [] 0)
        "ibc/SHARE" = .ok ⟨"transfer/channel-7", "val1/1"⟩ := by rfl
    exact Except.ok.inj (hsample.symm.trans htrace)
  rw [toOption_eq_some.mpr hvalidators, Option.all_some, List.all_eq_true]
    at hworth
  have hworth := toOption_eq_some.mp (of_decide_eq_true (hworth _ hmem))
  obtain rfl := Except.ok.inj (hworth.symm.trans hamount)
  refine ⟨payload, hw, hcall, hpayload, ?_⟩
  exact (hiff w _ _ true p .timeout hp).mpr ⟨by decide +kernel, rfl⟩

/-- An address with a separator is accepted, and then no answer settles the
stake. -/
theorem lsm_settled_fails : ∃ w p packet payload,
    Sample.run (Sample.setup ++ [Sample.allowLsm,
      ⟨Sample.day 1, .execute (Sample.querier 1 [] 0)
        ⟨Sample.user, [⟨"ibc/SHARE", 100⟩]⟩
        (.stakeLsm "neutron1_user" Sample.pool) ("channel-7", 0)⟩]) =
      some w ∧
    w.store.pools Sample.pool = some p ∧
    w.pending ("channel-7", 0) = some packet ∧
    packet.payload = some payload ∧ payload.txType = .stakeLsm ∧
    ∀ querier bankAccepts answer,
      ¬ Settled Sample.net w ("channel-7", 0) querier bankAccepts payload
        ⟨"neutron1_user", Sample.pool, ⟨"ibc/SHARE", 100⟩, 100, "val1/1"⟩ p
        answer := by
  obtain ⟨w, p, hw, hp, htest⟩ := Sample.exists_of_run
    (Sample.setup ++ [Sample.allowLsm,
      ⟨Sample.day 1, .execute (Sample.querier 1 [] 0)
        ⟨Sample.user, [⟨"ibc/SHARE", 100⟩]⟩
        (.stakeLsm "neutron1_user" Sample.pool) ("channel-7", 0)⟩])
    (fun w _ => (w.pending ("channel-7", 0)).any fun packet =>
      packet.payload.any fun payload => decide (
        payload.message = stakeLsmMessage "neutron1_user" 100 100 "ibc/SHARE"
          "val1/1" ∧ payload.poolAddr = Sample.pool ∧
        payload.txType = .stakeLsm))
    (by decide +kernel)
  simp only [Option.any_eq_true, decide_eq_true_eq] at htest
  obtain ⟨packet, hpacket, payload, hpayload, hmessage, hpool, htype⟩ := htest
  refine ⟨w, p, packet, payload, hw, hp, hpacket, hpayload, htype, ?_⟩
  intro querier bankAccepts answer hsettled
  have hpaid : LsmStake.PaidInto ⟨"neutron1_user", Sample.pool,
      ⟨"ibc/SHARE", 100⟩, 100, "val1/1"⟩ payload :=
    ⟨hmessage, hpool, htype, by decide, by decide⟩
  have hplain := ((settled_iff hpaid hp).mp hsettled).1
  exact absurd hplain (by decide +kernel)

end World

end NeutronContracts
