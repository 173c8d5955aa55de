/-
What the callbacks read is what the calls wrote, exactly when no free text
contains the separator: the texts are joined and split without escaping.
-/
import NeutronContracts.Properties.NetStake
import NeutronContracts.Properties.Redemption
import NeutronContracts.Properties.Settlement
import NeutronContracts.StakeManager.Payloads

namespace NeutronContracts

open Fallible

namespace StakeManager

/-! ### What should be read -/

/-- Both callbacks of a withdrawal read what was withdrawn, by whom, to whom,
and which indexes: no other index is among those that are searched. -/
structure WithdrawReadBack (message : String) (total : Nat)
    (sender receiver : String) (indexes : List Nat) : Prop where
  success : ∃ parts, withdrawParts message = some parts ∧
    parts.amount = toString total ∧ parts.user = sender ∧
    parts.receiver = receiver ∧
    parts.indexText = Text.join '_' (indexes.map toString) ∧
    (∀ index < U64.limit,
      toString index ∈ parts.searched ↔ index ∈ indexes) ∧
    ∀ store payload, payload.message = message →
      sudoWithdrawCallback store payload =
        .ok (settleWithdraw store payload.poolAddr parts)
  failure : restoredIndexes message = some indexes ∧
    ∀ store payload, payload.message = message →
      sudoWithdrawFailedCallback store payload = do
        let store ← restoreIndexes payload.poolAddr store indexes
        return (store, Response.new)

/-- The sender and the receiver are single pieces, and neither is the numeral
of an index that is not withdrawn. -/
structure PlainWithdraw (sender receiver : String) (indexes : List Nat) :
    Prop where
  plainSender : '_' ∉ sender.toList
  plainReceiver : '_' ∉ receiver.toList
  numeral : ∀ index < U64.limit,
    toString index = sender ∨ toString index = receiver → index ∈ indexes

/-- Both callbacks of a share stake read the staker, the amounts and the
denominations. -/
structure StakeLsmReadBack (message staker : String)
    (tokenAmount shareAmount : Nat) (ibcDenom denom : String) : Prop where
  success : stakeLsmCredit message =
      some (staker, tokenAmount, ⟨denom, shareAmount⟩) ∧
    ∀ store payload, payload.message = message →
      sudoStakeLsmCallback store payload =
        creditShares store payload.poolAddr staker tokenAmount
          ⟨denom, shareAmount⟩
  failure : stakeLsmRefund message = some (staker, ⟨ibcDenom, shareAmount⟩) ∧
    ∀ store payload, payload.message = message →
      sudoStakeLsmFailedCallback store payload =
        .ok (refundShares store staker ⟨ibcDenom, shareAmount⟩)

/-- The callback of a bond step reads the validators. -/
structure BondReadBack (message : String) (validators : List String) :
    Prop where
  success : unbondedValidators message = validators
  callback : ∀ store env payload, payload.message = message →
    sudoEraBondCallback store env payload =
      endBond store env payload.poolAddr validators

/-- The callback of a replacement reads the validators. -/
structure ReplacementReadBack (message : String) (validators : List String) :
    Prop where
  success : replacedValidators message = validators
  callback : ∀ store payload, payload.message = message →
    sudoUpdateValidatorCallback store payload =
      endReplacement store payload.poolAddr validators

/-- Both callbacks of a redemption read the denominations. -/
structure RedemptionReadBack (message : String) (denoms : List String) :
    Prop where
  both : redeemedDenoms message = denoms
  success : ∀ store payload, payload.message = message →
    sudoRedeemTokenForShareCallback store payload =
      endRedemption true store payload.poolAddr denoms
  failure : ∀ store payload, payload.message = message →
    sudoRedeemTokenForShareFailedCallback store payload =
      endRedemption false store payload.poolAddr denoms

/-- The validators that the loop of `allocate_unbond_amount` chooses. -/
def chosenLoop (currentTime unbondingPeriodSeconds : Nat) :
    Storage → Nat → List Delegation → List String
  | _, _, [] => []
  | store, remaining, delegation :: rest =>
      if remaining = 0 then []
      else
        match clearTimestamps store currentTime unbondingPeriodSeconds
            delegation.delegator delegation.validator with
        | .error _ => []
        | .ok (store, full) =>
            if full then
              chosenLoop currentTime unbondingPeriodSeconds store remaining
                rest
            else
              delegation.validator ::
                chosenLoop currentTime unbondingPeriodSeconds store
                  (remaining - min delegation.amount.amount remaining) rest

/-- The validators from which a bond step has to undelegate what leaves the
pool: the largest delegations with a free unbonding entry, up to the amount. -/
def unbondChoice (store : Storage) (querier : Querier) (env : Env)
    (poolAddr : String) (p : PoolInfo) : List String :=
  if p.eraSnapshot.unbond ≤ p.eraSnapshot.bond then []
  else
    match queryDelegationByAddr store querier poolAddr
        p.sdkGreaterOrEqualV047 with
    | .error _ => []
    | .ok queried =>
        chosenLoop env.block.seconds (p.unbondingPeriod * p.eraSeconds) store
          (p.eraSnapshot.unbond - p.eraSnapshot.bond)
          (byAmount queried.result)

section

variable {store store' next : Storage} {querier : Querier} {env : Env}
  {info : MessageInfo} {a sender receiver text : String} {p : PoolInfo}
  {rsp : Response} {indexes : List Nat} {total : Nat}
  {currentTime period remaining left amount : Nat}
  {infos result : List ValidatorUnbondInfo} {delegations : List Delegation}
  {selectVals : List String}

/-! ### Withdrawals -/

theorem mapM_parse_toString (h : ∀ index ∈ indexes, index < U64.limit) :
    (indexes.map toString).mapM U64.parse = some indexes := by
  induction indexes with
  | nil => rfl
  | cons index rest ih =>
      rw [List.forall_mem_cons] at h
      have hparse : U64.parse (toString index) = some index :=
        Text.parseBelow_toString h.1
      rw [List.map_cons, List.mapM_cons, hparse, ih h.2]
      rfl

theorem withdrawParts_eq_some {message : String} {parts : WithdrawParts} :
    withdrawParts message = some parts ↔ ∃ index rest,
      Text.split '_' message =
        parts.amount :: parts.user :: parts.receiver :: index :: rest ∧
      parts.indexText = Text.join '_' (index :: rest) ∧
      parts.searched = parts.user :: parts.receiver :: index :: rest := by
  unfold withdrawParts
  constructor
  · intro h
    split at h
    case h_2 => cases h
    case h_1 hsplit =>
        obtain rfl := Option.some.inj h
        exact ⟨_, _, hsplit, rfl, rfl⟩
  · rintro ⟨index, rest, hsplit, hindex, hsearched⟩
    rw [hsplit]
    dsimp only
    rw [← hindex, ← hsearched]

theorem plainWithdraw_of_read
    (h : WithdrawReadBack (withdrawMessage total sender receiver indexes) total
      sender receiver indexes) : PlainWithdraw sender receiver indexes := by
  obtain ⟨parts, hparts, -, rfl, rfl, -, hsearch, -⟩ := h.success
  obtain ⟨index, rest, hsplit, -, hsearched⟩ :=
    withdrawParts_eq_some.mp hparts
  constructor
  · apply Text.not_mem_of_mem_split
    rw [hsplit]
    exact List.mem_cons_of_mem _ List.mem_cons_self
  · apply Text.not_mem_of_mem_split
    rw [hsplit]
    exact List.mem_cons_of_mem _ (List.mem_cons_of_mem _ List.mem_cons_self)
  · intro index hindex hnumeral
    apply (hsearch index hindex).mp
    rw [hsearched]
    rcases hnumeral with huser | hreceiver
    · exact huser ▸ List.mem_cons_self
    · exact hreceiver ▸ List.mem_cons_of_mem _ List.mem_cons_self

theorem withdraw_read_back (hne : indexes ≠ [])
    (hindexes : ∀ index ∈ indexes, index < U64.limit)
    (h : PlainWithdraw sender receiver indexes) :
    WithdrawReadBack (withdrawMessage total sender receiver indexes) total
      sender receiver indexes := by
  have hsplit := split_withdrawMessage total sender receiver hne
  rw [Text.split_eq_singleton h.plainSender,
    Text.split_eq_singleton h.plainReceiver] at hsplit
  constructor
  · obtain ⟨first, rest, rfl⟩ := List.exists_cons_of_ne_nil hne
    have hparts : withdrawParts
        (withdrawMessage total sender receiver (first :: rest)) =
          some ⟨toString total, sender, receiver,
            Text.join '_' ((first :: rest).map toString),
            sender :: receiver :: (first :: rest).map toString⟩ :=
      withdrawParts_eq_some.mpr ⟨_, _, hsplit, rfl, rfl⟩
    refine ⟨_, hparts, rfl, rfl, rfl, rfl, fun index hindex => ?_,
      fun store payload hmessage => ?_⟩
    case refine_2 =>
        rw [sudoWithdrawCallback_reads, hmessage, hparts]
    constructor
    · intro hmem
      rcases List.mem_cons.mp hmem with huser | hmem
      · exact h.numeral index hindex (.inl huser)
      rcases List.mem_cons.mp hmem with hreceiver | hmem
      · exact h.numeral index hindex (.inr hreceiver)
      · obtain ⟨other, hother, hsame⟩ := List.mem_map.mp hmem
        exact Text.toString_inj hsame ▸ hother
    · intro hmem
      exact List.mem_cons_of_mem _
        (List.mem_cons_of_mem _ (List.mem_map_of_mem hmem))
  · have hread : restoredIndexes
        (withdrawMessage total sender receiver indexes) = some indexes := by
      rw [restoredIndexes, hsplit]
      exact mapM_parse_toString hindexes
    refine ⟨hread, fun store payload hmessage => ?_⟩
    rw [← hmessage] at hread
    exact sudoWithdrawFailedCallback_reads store payload hread

/-! ### Share stakes -/

theorem stakeLsm_read_back_iff {neutronAddress ibcDenom denom : String}
    {tokenAmount shareAmount : Nat} (htoken : tokenAmount < Uint128.limit)
    (hshare : shareAmount < Uint128.limit) :
    StakeLsmReadBack (stakeLsmMessage neutronAddress tokenAmount shareAmount
        ibcDenom denom) neutronAddress tokenAmount shareAmount ibcDenom denom ↔
      Plain5 neutronAddress ibcDenom denom := by
  constructor
  · intro h
    apply five_pieces_iff.mp
    have hread := h.success.1
    unfold stakeLsmCredit at hread
    split at hread
    case h_1 hsplit => exact length_of_five hsplit
    case h_2 => cases hread
  · intro h
    have hsplit : Text.split '_' (stakeLsmMessage neutronAddress tokenAmount
        shareAmount ibcDenom denom) = _ := split_of_plain h
    have hcredit : stakeLsmCredit (stakeLsmMessage neutronAddress tokenAmount
        shareAmount ibcDenom denom) =
          some (neutronAddress, tokenAmount, ⟨denom, shareAmount⟩) := by
      rw [stakeLsmCredit, hsplit]
      simp only [Uint128.parse, Text.parseBelow_toString htoken,
        Text.parseBelow_toString hshare]
      rfl
    have hrefund : stakeLsmRefund (stakeLsmMessage neutronAddress tokenAmount
        shareAmount ibcDenom denom) =
          some (neutronAddress, ⟨ibcDenom, shareAmount⟩) := by
      rw [stakeLsmRefund, hsplit]
      simp only [Uint128.parse, Text.parseBelow_toString hshare]
      rfl
    constructor
    · refine ⟨hcredit, fun store payload hmessage => ?_⟩
      rw [sudoStakeLsmCallback_reads, hmessage, hcredit]
    · refine ⟨hrefund, fun store payload hmessage => ?_⟩
      rw [sudoStakeLsmFailedCallback_reads, hmessage, hrefund]

/-! ### Lists of names -/

/-- The validators a bond step notes are read back, unless the only one has no
name. -/
theorem bond_read_back_iff (validators : List String) :
    BondReadBack (Text.join '_' validators) validators ↔
      (∀ v ∈ validators, '_' ∉ v.toList) ∧ validators ≠ [""] := by
  have hread : BondReadBack (Text.join '_' validators) validators ↔
      unbondedValidators (Text.join '_' validators) = validators := by
    refine ⟨fun h => h.success, fun h => ⟨h, fun store env payload hmessage =>
      ?_⟩⟩
    rw [sudoEraBondCallback_reads, hmessage, h]
  rw [hread, unbondedValidators]
  by_cases hnil : validators = []
  · subst hnil
    simp [Text.join]
  by_cases hempty : Text.join '_' validators = ""
  · -- only a list of one nameless validator is joined to nothing
    rw [if_neg (not_not.mpr hempty)]
    constructor
    · intro h
      exact absurd h.symm hnil
    · rintro ⟨hplain, hname⟩
      have hsplit := Text.split_join hnil hplain
      rw [hempty] at hsplit
      exact absurd hsplit.symm hname
  · rw [if_pos hempty, Text.split_join_iff hnil]
    refine ⟨fun h => ⟨h, ?_⟩, fun h => h.1⟩
    rintro rfl
    exact hempty rfl

theorem replacement_read_back_iff {validators : List String}
    (hne : validators ≠ []) :
    ReplacementReadBack (Text.join '_' validators) validators ↔
      ∀ v ∈ validators, '_' ∉ v.toList := by
  rw [← Text.split_join_iff hne]
  constructor
  · intro h
    exact h.success
  · intro h
    refine ⟨h, fun store payload hmessage => ?_⟩
    rw [sudoUpdateValidatorCallback_reads, hmessage, replacedValidators, h]

theorem redemption_read_back_iff {denoms : List String} (hne : denoms ≠ []) :
    RedemptionReadBack (Text.join ',' denoms) denoms ↔
      ∀ denom ∈ denoms, ',' ∉ denom.toList := by
  rw [← Text.split_join_iff hne]
  constructor
  · intro h
    exact h.both
  · intro h
    refine ⟨h, fun store payload hmessage => ?_, fun store payload hmessage =>
      ?_⟩
    · rw [sudoRedeemTokenForShareCallback_reads, hmessage, redeemedDenoms, h]
    · rw [sudoRedeemTokenForShareFailedCallback_reads, hmessage,
        redeemedDenoms, h]

/-! ### The choice of a bond step -/

/-- The loop adds the validators it chooses. -/
theorem Allocates.chosen
    (h : Allocates currentTime period store remaining infos delegations next
      left result) :
    result.map (·.validator) = infos.map (·.validator) ++
      chosenLoop currentTime period store remaining delegations := by
  induction h with
  | nil => exact (List.append_nil _).symm
  | enough =>
      rw [chosenLoop, if_pos rfl]
      exact (List.append_nil _).symm
  | skip hmore hclear hrest ih =>
      rw [chosenLoop, if_neg hmore, hclear]
      exact ih
  | choose hmore hclear hrest ih =>
      rw [chosenLoop, if_neg hmore, hclear]
      rw [List.map_append, List.append_assoc] at ih
      exact ih

theorem Unbonds.chosen
    (h : Unbonds store env p delegations amount next infos) :
    infos.map (·.validator) =
      if amount = 0 then []
      else chosenLoop env.block.seconds (p.unbondingPeriod * p.eraSeconds)
        store amount (byAmount delegations) := by
  cases h with
  | nothing hzero =>
      rw [if_pos hzero]
      rfl
  | allocated hpos hne halloc =>
      rw [if_neg hpos.ne']
      exact (allocateUnbondAmount_ok halloc).chosen

/-- The text of a bond step names what it undelegates from, and that is the
choice. -/
theorem eraBondMsgs_chosen {msgs : List ProtobufAny}
    (h : eraBondMsgs store querier env a p selectVals =
      .ok (next, msgs, text)) :
    text = Text.join '_' (undelegated a msgs) ∧
      undelegated a msgs = unbondChoice store querier env a p := by
  cases bondMsgs_of_ok h with
  | unbond hless hquery hfresh hunbonds =>
      rw [undelegated_append, undelegated_genUndelegateTxs,
        undelegated_withdrawRewardTxs, List.append_nil]
      refine ⟨rfl, ?_⟩
      rw [hunbonds.chosen, unbondChoice, hquery]
      by_cases hall : p.eraSnapshot.unbond ≤ p.eraSnapshot.bond
      · rw [if_pos (Nat.sub_eq_zero_of_le hall), if_pos hall]
      · rw [if_neg (by omega), if_neg hall]
  | stake hmore hstake =>
      rw [undelegated_eraStakeMsgs hstake, unbondChoice, if_pos hmore.le]
      exact ⟨rfl, rfl⟩

end

/-! ### The calls -/

section

variable {store store' : Storage} {querier : Querier} {env : Env}
  {info : MessageInfo} {a receiver neutronAddress : String} {p : PoolInfo}
  {rsp : Response} {indexes : List Nat} {tokens : List Coin}
  {selectVals : List String} {oldValidator newValidator : String}

/-- The only message of the response carries the payload. -/
def Response.Carries (rsp : Response) (payload : SudoPayload) : Prop :=
  ∃ sub, rsp.messages = [sub] ∧ sub.payload = some payload

theorem withdraw_payload_iff
    (hindexes : ∀ index ∈ indexes, index < U64.limit)
    (h : executeWithdraw store querier info a receiver indexes =
      .ok (store', rsp)) :
    ∃ payload, rsp.Carries payload ∧
      (WithdrawReadBack payload.message
          ((recordKeys a indexes).map store.amountAt).sum info.sender receiver
          indexes ↔ PlainWithdraw info.sender receiver indexes) := by
  obtain ⟨q, next, total, tx, payload, -, hne, hrecords, -, hmessage, -, -, -,
    hrsp⟩ := executeWithdraw_ok h
  obtain ⟨-, -, -, htotal⟩ := withdrawRecords_records hrecords
  rw [Nat.zero_add] at htotal
  refine ⟨payload, ⟨_, hrsp, rfl⟩, ?_⟩
  rw [hmessage, ← htotal]
  exact ⟨plainWithdraw_of_read, withdraw_read_back hne hindexes⟩

theorem stakeLsm_payload_iff
    (h : executeStakeLsm store querier env info neutronAddress a =
      .ok (store', rsp)) :
    ∃ coin trace validators validator tokenAmount payload,
      info.funds = [coin] ∧
      queryDenomTraceFromIbcDenom querier coin.denom = .ok trace ∧
      queryValidatorByAddr store querier a = .ok validators ∧
      validator ∈ validators.result ∧
      lsmTokenAmount validator coin.amount = .ok tokenAmount ∧
      rsp.Carries payload ∧
      (StakeLsmReadBack payload.message neutronAddress tokenAmount coin.amount
          coin.denom trace.baseDenom ↔
        Plain5 neutronAddress coin.denom trace.baseDenom) := by
  obtain ⟨q, coin, trace, port, channel, _, record, tokenAmount, transfer,
    payload, -, hfunds, -, -, -, htrace, -, -, -,
    ⟨validators, validator, hquery, hfind, hworth, hne⟩, -, -, -, -, hmessage,
    -, -, -, hrsp⟩ := executeStakeLsm_ok h
  obtain ⟨htoken, hshare⟩ := lsmTokenAmount_lt hworth hne
  refine ⟨coin, trace, validators, validator, tokenAmount, payload, hfunds,
    htrace, hquery, List.mem_of_find?_eq_some hfind, hworth, ⟨_, hrsp, rfl⟩,
    ?_⟩
  rw [hmessage]
  exact stakeLsm_read_back_iff htoken hshare

theorem bond_payload_iff (hp : store.pools a = some p)
    (h : executeEraBond store querier env info a selectVals =
      .ok (store', rsp)) :
    ∃ payload, rsp.Carries payload ∧
      (BondReadBack payload.message (undelegated a rsp.txMsgs) ↔
        (∀ v ∈ unbondChoice store querier env a p, '_' ∉ v.toList) ∧
          unbondChoice store querier env a p ≠ [""]) := by
  obtain ⟨next, sub, payload, hrsp, hpayload, hmsgs⟩ :=
    executeEraBond_msgs hp h
  obtain ⟨htext, hchoice⟩ := eraBondMsgs_chosen hmsgs
  refine ⟨payload, ⟨sub, hrsp, hpayload⟩, ?_⟩
  rw [htext, hchoice]
  exact bond_read_back_iff _

theorem update_payload_iff (hp : store.pools a = some p)
    (h : executePoolUpdateValidator store querier info a oldValidator
      newValidator = .ok (store', rsp)) :
    rsp.messages = [] ∨ ∃ payload, rsp.Carries payload ∧
      (ReplacementReadBack payload.message
          (replaced p.validatorAddrs oldValidator newValidator) ↔
        ∀ v ∈ replaced p.validatorAddrs oldValidator newValidator,
          '_' ∉ v.toList) := by
  obtain ⟨q, delegations, msgs, hq, -, -, -, -, -, -, hcases⟩ :=
    executePoolUpdateValidator_ok h
  obtain rfl := Option.some.inj (hp.symm.trans hq)
  rcases hcases with ⟨-, -, rfl⟩ | ⟨-, tx, payload, _, _, _, -, -, hmessage,
    -, -, -, hrsp⟩
  · exact .inl rfl
  · refine .inr ⟨payload, ⟨_, hrsp, rfl⟩, ?_⟩
    rw [hmessage]
    exact replacement_read_back_iff (by simp [replaced])

theorem redeem_payload_iff
    (h : executeRedeemTokenForShare store querier info a tokens =
      .ok (store', rsp)) :
    ∃ payload, rsp.Carries payload ∧
      (RedemptionReadBack payload.message (tokens.map (·.denom)) ↔
        ∀ token ∈ tokens, ',' ∉ token.denom.toList) := by
  have hne : tokens ≠ [] := by
    rintro rfl
    simp [executeRedeemTokenForShare, rejectIf] at h
  obtain ⟨q, denoms, tx, payload, _, -, hdenoms, -, hmessage, -, -, -,
    hrsp⟩ := executeRedeemTokenForShare_ok h
  obtain ⟨hresult, -⟩ := redeemTokens_ok hdenoms List.nodup_nil
  rw [List.nil_append] at hresult
  refine ⟨payload, ⟨_, hrsp, rfl⟩, ?_⟩
  rw [hmessage, hresult, redemption_read_back_iff (by simpa using hne),
    List.forall_mem_map]

end

/-- The payload of each accepted call is read back by its callbacks exactly
when the free texts in it do not contain the separator; a withdrawal may also
not name as sender or receiver the numeral of an index it leaves out, and a
bond step not undelegate from a single validator without a name. -/
theorem payloads_read_back_iff {store store' : Storage} {querier : Querier}
    {info : MessageInfo} {a : String} {p : PoolInfo} {rsp : Response}
    (hp : store.pools a = some p) :
    (∀ receiver indexes, (∀ index ∈ indexes, index < U64.limit) →
      executeWithdraw store querier info a receiver indexes =
        .ok (store', rsp) →
      ∃ payload, rsp.Carries payload ∧
        (WithdrawReadBack payload.message
            ((recordKeys a indexes).map store.amountAt).sum info.sender
            receiver indexes ↔
          PlainWithdraw info.sender receiver indexes)) ∧
    (∀ env neutronAddress,
      executeStakeLsm store querier env info neutronAddress a =
        .ok (store', rsp) →
      ∃ coin trace validators validator tokenAmount payload,
        info.funds = [coin] ∧
        queryDenomTraceFromIbcDenom querier coin.denom = .ok trace ∧
        queryValidatorByAddr store querier a = .ok validators ∧
        validator ∈ validators.result ∧
        lsmTokenAmount validator coin.amount = .ok tokenAmount ∧
        rsp.Carries payload ∧
        (StakeLsmReadBack payload.message neutronAddress tokenAmount
            coin.amount coin.denom trace.baseDenom ↔
          Plain5 neutronAddress coin.denom trace.baseDenom)) ∧
    (∀ env selectVals,
      executeEraBond store querier env info a selectVals =
        .ok (store', rsp) →
      ∃ payload, rsp.Carries payload ∧
        (BondReadBack payload.message (undelegated a rsp.txMsgs) ↔
          (∀ v ∈ unbondChoice store querier env a p, '_' ∉ v.toList) ∧
            unbondChoice store querier env a p ≠ [""])) ∧
    (∀ oldValidator newValidator,
      executePoolUpdateValidator store querier info a oldValidator
        newValidator = .ok (store', rsp) →
      rsp.messages = [] ∨ ∃ payload, rsp.Carries payload ∧
        (ReplacementReadBack payload.message
            (replaced p.validatorAddrs oldValidator newValidator) ↔
          ∀ v ∈ replaced p.validatorAddrs oldValidator newValidator,
            '_' ∉ v.toList)) ∧
    (∀ tokens, executeRedeemTokenForShare store querier info a tokens =
        .ok (store', rsp) →
      ∃ payload, rsp.Carries payload ∧
        (RedemptionReadBack payload.message (tokens.map (·.denom)) ↔
          ∀ token ∈ tokens, ',' ∉ token.denom.toList)) :=
  ⟨fun _ _ => withdraw_payload_iff, fun _ _ => stakeLsm_payload_iff,
    fun _ _ => bond_payload_iff hp, fun _ _ => update_payload_iff hp,
    fun _ => redeem_payload_iff⟩

/-- The payload of a share stake for an address without separator is read
back. -/
theorem payloads_read_back_sample : ∃ w p store' rsp payload,
    Sample.run (Sample.setup ++ [Sample.allowLsm]) = some w ∧
    w.store.pools Sample.pool = some p ∧
    executeStakeLsm w.store (Sample.querier 1 [] 0)
      ⟨Sample.day 1, Sample.net.self⟩
      ⟨Sample.user, [⟨"ibc/SHARE", 100⟩]⟩ Sample.user Sample.pool =
        .ok (store', rsp) ∧
    rsp.Carries payload ∧
    ∃ tokenAmount, StakeLsmReadBack payload.message Sample.user tokenAmount
      100 "ibc/SHARE" "val1/1" := by
  obtain ⟨w, p, hw, hp, htest⟩ := Sample.exists_of_run
    (Sample.setup ++ [Sample.allowLsm])
    (fun w _ => (executeStakeLsm w.store (Sample.querier 1 [] 0)
        ⟨Sample.day 1, Sample.net.self⟩
        ⟨Sample.user, [⟨"ibc/SHARE", 100⟩]⟩ Sample.user
        Sample.pool).toOption.isSome)
    (by decide +kernel)
  obtain ⟨⟨store', rsp⟩, hcall⟩ := Option.isSome_iff_exists.mp htest
  have hcall := toOption_eq_some.mp hcall
  obtain ⟨coin, trace, _, _, tokenAmount, payload, hfunds, htrace, -, -, -,
    hcarries, hiff⟩ := (payloads_read_back_iff hp).2.1 _ _ hcall
  obtain rfl : ⟨"ibc/SHARE", 100⟩ = coin := by simpa using hfunds
  obtain rfl : ⟨"transfer/channel-7", "val1/1"⟩ = trace := by
    have hsample : queryDenomTraceFromIbcDenom (Sample.querier 1 [] 0)
        "ibc/SHARE" = .ok ⟨"transfer/channel-7", "val1/1"⟩ := by rfl
    exact Except.ok.inj (hsample.symm.trans htrace)
  exact ⟨w, p, store', rsp, payload, hw, hp, hcall, hcarries, tokenAmount,
    hiff.mpr (by decide +kernel)⟩

/-- A share stake for an address with a separator is accepted, and neither
callback reads what it was made with: both reject the text. -/
theorem payloads_read_back_fails : ∃ w store' rsp payload,
    Sample.run (Sample.setup ++ [Sample.allowLsm]) = some w ∧
    executeStakeLsm w.store (Sample.querier 1 [] 0)
      ⟨Sample.day 1, Sample.net.self⟩
      ⟨Sample.user, [⟨"ibc/SHARE", 100⟩]⟩ "neutron1_user" Sample.pool =
        .ok (store', rsp) ∧
    rsp.Carries payload ∧
    (∀ tokenAmount shareAmount ibcDenom denom,
      ¬ StakeLsmReadBack payload.message "neutron1_user" tokenAmount
        shareAmount ibcDenom denom) ∧
    ∀ store, (sudoStakeLsmCallback store payload).toOption = none ∧
      (sudoStakeLsmFailedCallback store payload).toOption = none := by
  obtain ⟨w, p, hw, hp, htest⟩ := Sample.exists_of_run
    (Sample.setup ++ [Sample.allowLsm])
    (fun w _ => (executeStakeLsm w.store (Sample.querier 1 [] 0)
        ⟨Sample.day 1, Sample.net.self⟩
        ⟨Sample.user, [⟨"ibc/SHARE", 100⟩]⟩ "neutron1_user"
        Sample.pool).toOption.isSome)
    (by decide +kernel)
  obtain ⟨⟨store', rsp⟩, hcall⟩ := Option.isSome_iff_exists.mp htest
  have hcall := toOption_eq_some.mp hcall
  obtain ⟨_, _, _, _, _, _, _, _, _, payload, -, -, -, -, -, -, -, -, -, -, -,
    -, -, -, hmessage, -, -, -, hrsp⟩ := executeStakeLsm_ok hcall
  have hlength : (Text.split '_' payload.message).length ≠ 5 := by
    rw [hmessage, Ne, five_pieces_iff]
    exact fun hplain => absurd hplain.1 (by decide)
  refine ⟨w, store', rsp, payload, hw, hcall, ⟨_, hrsp, rfl⟩,
    fun tokenAmount shareAmount ibcDenom denom h => ?_, fun store => ?_⟩
  · have hread := h.success.1
    unfold stakeLsmCredit at hread
    split at hread
    case h_1 hsplit => exact hlength (length_of_five hsplit)
    case h_2 => cases hread
  · constructor
    · unfold sudoStakeLsmCallback
      split
      case h_1 hsplit => exact absurd (length_of_five hsplit) hlength
      case h_2 => rfl
    · unfold sudoStakeLsmFailedCallback
      split
      case h_1 hsplit => exact absurd (length_of_five hsplit) hlength
      case h_2 => rfl

end StakeManager

end NeutronContracts
