/-
The credit for a stake of shares.  The total of the delegator shares is rounded
down to a whole number before the division by it, so the staker can be credited
more than the host redeems the shares for, and a total below one share makes
the division fail.  Only a validator with a whole number of shares is priced
right for every stake.
-/
import NeutronContracts.Lib.Truncation
import NeutronContracts.Properties.PayloadText

namespace NeutronContracts

open Fallible Truncation

namespace StakeManager

/-- The delegator shares of a validator are reported in units of this part of
a share. -/
def shareScale : Nat := 1000000000000000000

/-- What the host pays for shares, when all shares of the validator stand for
all its tokens. -/
def redeemable (shares valTokens delegatorShares : Nat) : Nat :=
  shares * valTokens * shareScale / delegatorShares

section

variable {store store' : Storage} {querier : Querier} {env : Env}
  {info : MessageInfo} {a neutronAddress : String} {rsp : Response}
  {validator : Validator} {shares tokens delegatorShares amount : Nat}

/-- The credit divides by the whole shares of the validator. -/
theorem lsmTokenAmount_eq_ok :
    lsmTokenAmount validator shares = .ok amount ↔
      ∃ tokens delegatorShares,
        Uint128.parse validator.tokens = some tokens ∧
        Uint128.parse validator.delegatorShares = some delegatorShares ∧
        shares * tokens < Uint128.limit ∧ shareScale ≤ delegatorShares ∧
        shares * tokens / (delegatorShares / shareScale) = amount := by
  have hdivisor : ∀ n, n / shareScale ≠ 0 ↔ shareScale ≤ n := by
    intro n
    rw [Nat.ne_zero_iff_zero_lt, Nat.div_pos_iff]
    exact ⟨fun h => h.2, fun h => ⟨by decide, h⟩⟩
  simp only [lsmTokenAmount, bind_eq_ok, orError_eq_ok, mulBelow_eq_ok,
    divExact_eq_ok]
  constructor
  · rintro ⟨tokens, htokens, total, htotal, _, ⟨-, rfl⟩, _, ⟨hfits, rfl⟩,
      hne, rfl⟩
    exact ⟨tokens, total, htokens, htotal, hfits, (hdivisor _).mp hne, rfl⟩
  · rintro ⟨tokens, total, htokens, htotal, hfits, hle, rfl⟩
    exact ⟨tokens, htokens, total, htotal, _, ⟨by decide, rfl⟩, _,
      ⟨hfits, rfl⟩, (hdivisor _).mpr hle, rfl⟩

/-- With numbers in range, the computation only fails by its division. -/
theorem lsmTokenAmount_defined_iff
    (htokens : Uint128.parse validator.tokens = some tokens)
    (htotal : Uint128.parse validator.delegatorShares = some delegatorShares)
    (hfits : shares * tokens < Uint128.limit) :
    (∃ amount, lsmTokenAmount validator shares = .ok amount) ↔
      shareScale ≤ delegatorShares := by
  simp only [lsmTokenAmount_eq_ok]
  constructor
  · rintro ⟨_, _, total, -, htotal', -, hle, -⟩
    obtain rfl := Option.some.inj (htotal.symm.trans htotal')
    exact hle
  · intro hle
    exact ⟨_, tokens, delegatorShares, htokens, htotal, hfits, hle, rfl⟩

/-- No stake of shares of the validator is credited more than the host pays for
them, and the credit can be computed for all stakes that are in range. -/
def PricedRight (validator : Validator) (tokens delegatorShares : Nat) : Prop :=
  ∀ shares, (∀ amount, lsmTokenAmount validator shares = .ok amount →
      amount ≤ redeemable shares tokens delegatorShares) ∧
    (shares * tokens < Uint128.limit →
      ∃ amount, lsmTokenAmount validator shares = .ok amount)

/-- A credit is what the host pays at most exactly when the remainder of the
division makes up for the part of a share that is cut off. -/
theorem lsmTokenAmount_le_iff
    (htokens : Uint128.parse validator.tokens = some tokens)
    (htotal : Uint128.parse validator.delegatorShares = some delegatorShares)
    (h : lsmTokenAmount validator shares = .ok amount) :
    amount ≤ redeemable shares tokens delegatorShares ↔
      Absorbed shareScale (shares * tokens) delegatorShares := by
  obtain ⟨tokens', total, htokens', htotal', -, hle, rfl⟩ :=
    lsmTokenAmount_eq_ok.mp h
  obtain rfl := Option.some.inj (htokens.symm.trans htokens')
  obtain rfl := Option.some.inj (htotal.symm.trans htotal')
  exact truncated_le_iff hle (by decide)

/-- Whole shares are priced right. -/
theorem pricedRight_of_dvd
    (htokens : Uint128.parse validator.tokens = some tokens)
    (htotal : Uint128.parse validator.delegatorShares = some delegatorShares)
    (hpos : 0 < delegatorShares) (hwhole : shareScale ∣ delegatorShares) :
    PricedRight validator tokens delegatorShares := by
  intro shares
  constructor
  · intro amount hamount
    exact (lsmTokenAmount_le_iff htokens htotal hamount).mpr
      (absorbed_of_dvd hwhole)
  · intro hfits
    exact (lsmTokenAmount_defined_iff htokens htotal hfits).mpr
      (Nat.le_of_dvd hpos hwhole)

/-- A stake of all whole shares is credited too much when a part of a share is
left over. -/
theorem dvd_of_pricedRight
    (htokens : Uint128.parse validator.tokens = some tokens)
    (htotal : Uint128.parse validator.delegatorShares = some delegatorShares)
    (hpos : 0 < tokens)
    (hfits : delegatorShares / shareScale * tokens < Uint128.limit)
    (h : PricedRight validator tokens delegatorShares) :
    shareScale ∣ delegatorShares := by
  obtain ⟨amount, hamount⟩ := (h (delegatorShares / shareScale)).2 hfits
  have hle := (h (delegatorShares / shareScale)).1 amount hamount
  have habsorbed := (lsmTokenAmount_le_iff htokens htotal hamount).mp hle
  obtain ⟨_, total, -, htotal', -, hscale, -⟩ :=
    lsmTokenAmount_eq_ok.mp hamount
  obtain rfl := Option.some.inj (htotal.symm.trans htotal')
  have hshares : 0 < delegatorShares / shareScale :=
    Nat.div_pos hscale (by decide)
  rw [Absorbed, Nat.mul_mod_right, Nat.sub_zero, Nat.zero_mul,
    Nat.zero_mul, Nat.le_zero] at habsorbed
  have hnone := (Nat.mul_eq_zero.mp habsorbed).resolve_left
    (Nat.mul_pos hshares hpos).ne'
  exact Nat.dvd_of_mod_eq_zero hnone

end

/-- An accepted stake is credited at the price of the validator that the denom
names, which is at most what the host pays for the shares when the validator
has a whole number of them.  The credit can be computed exactly when the
validator has at least one whole share.  A validator with a whole number of
shares is priced right for every stake; and where all whole shares of a
validator can be staked at once, only such a validator is. -/
theorem lsm_credit_iff {store store' : Storage} {querier : Querier}
    {env : Env} {info : MessageInfo} {neutronAddress a : String}
    {rsp : Response} :
    (executeStakeLsm store querier env info neutronAddress a =
        .ok (store', rsp) →
      ∃ coin trace issuer record validators validator tokens delegatorShares
          amount payload,
        info.funds = [coin] ∧
        queryDenomTraceFromIbcDenom querier coin.denom = .ok trace ∧
        Text.split '/' trace.baseDenom = [issuer, record] ∧
        queryValidatorByAddr store querier a = .ok validators ∧
        validators.result.find? (·.operatorAddress = issuer) =
          some validator ∧
        Uint128.parse validator.tokens = some tokens ∧
        Uint128.parse validator.delegatorShares = some delegatorShares ∧
        lsmTokenAmount validator coin.amount = .ok amount ∧
        rsp.Carries payload ∧
        payload.message = stakeLsmMessage neutronAddress amount coin.amount
          coin.denom trace.baseDenom ∧
        (shareScale ∣ delegatorShares →
          amount ≤ redeemable coin.amount tokens delegatorShares)) ∧
    ∀ (validator : Validator) (tokens delegatorShares : Nat),
      Uint128.parse validator.tokens = some tokens →
      Uint128.parse validator.delegatorShares = some delegatorShares →
      0 < delegatorShares →
      (∀ shares, shares * tokens < Uint128.limit →
        ((∃ amount, lsmTokenAmount validator shares = .ok amount) ↔
          shareScale ≤ delegatorShares)) ∧
      (shareScale ∣ delegatorShares →
        PricedRight validator tokens delegatorShares) ∧
      (0 < tokens → delegatorShares / shareScale * tokens < Uint128.limit →
        (PricedRight validator tokens delegatorShares ↔
          shareScale ∣ delegatorShares)) := by
  constructor
  · intro haccepted
    obtain ⟨p, coin, trace, port, channel, issuer, record, amount, transfer,
      payload, -, hfunds, -, -, -, htrace, -, hbase, -,
      ⟨validators, validator, hquery, hfind, hworth, -⟩, -, -, -, -, hmessage,
      -, -, -, hrsp⟩ := executeStakeLsm_ok haccepted
    obtain ⟨tokens, delegatorShares, htokens, htotal, -⟩ :=
      lsmTokenAmount_eq_ok.mp hworth
    refine ⟨coin, trace, issuer, record, validators, validator, tokens,
      delegatorShares, amount, payload, hfunds, htrace, hbase, hquery, hfind,
      htokens, htotal, hworth, ⟨_, hrsp, rfl⟩, hmessage, fun hwhole => ?_⟩
    exact (lsmTokenAmount_le_iff htokens htotal hworth).mpr
      (absorbed_of_dvd hwhole)
  · intro validator tokens delegatorShares htokens htotal hpos
    refine ⟨fun _ => lsmTokenAmount_defined_iff htokens htotal,
      pricedRight_of_dvd htokens htotal hpos, fun htokensPos hfits => ?_⟩
    exact ⟨dvd_of_pricedRight htokens htotal htokensPos hfits,
      pricedRight_of_dvd htokens htotal hpos⟩

/-- The answers of the chain when the validator has tokens for a number of
shares that is not whole. -/
def Sample.fractional (delegatorShares : String) : Querier :=
  { Sample.querier 1 [] 0 with
    kvValidators := fun _ => some [⟨"val1", "1000000", delegatorShares⟩] }

/-- A stake of 100 is accepted and credited as 100. -/
def Sample.credits (delegatorShares : String) (w : World) : Bool :=
  (executeStakeLsm w.store (Sample.fractional delegatorShares)
    ⟨Sample.day 1, Sample.net.self⟩ ⟨Sample.user, [⟨"ibc/SHARE", 100⟩]⟩
    Sample.user Sample.pool).toOption.any fun result =>
      result.2.messages.all fun sub => sub.payload.all fun payload =>
        decide (payload.message = stakeLsmMessage Sample.user 100 100
          "ibc/SHARE" "val1/1")

/-- The stake of 100 with so many delegator shares, its credit in the
payload. -/
def Sample.CreditedFor (delegatorShares : String) (payload : SudoPayload) :
    Prop :=
  ∃ w store' rsp,
    Sample.run (Sample.setup ++ [Sample.allowLsm]) = some w ∧
    executeStakeLsm w.store (Sample.fractional delegatorShares)
      ⟨Sample.day 1, Sample.net.self⟩ ⟨Sample.user, [⟨"ibc/SHARE", 100⟩]⟩
      Sample.user Sample.pool = .ok (store', rsp) ∧
    rsp.Carries payload ∧
    payload.message = stakeLsmMessage Sample.user 100 100 "ibc/SHARE" "val1/1"

theorem exists_credited {delegatorShares : String}
    (h : (Sample.run (Sample.setup ++ [Sample.allowLsm])).any
      (Sample.credits delegatorShares) = true) :
    ∃ payload, Sample.CreditedFor delegatorShares payload := by
  obtain ⟨w, hw, hcredits⟩ := (Option.any_eq_true _ _).mp h
  obtain ⟨⟨store', rsp⟩, hcall, hall⟩ :=
    (Option.any_eq_true _ _).mp hcredits
  have hcall := toOption_eq_some.mp hcall
  obtain ⟨_, _, _, _, _, _, _, _, _, payload, -, -, -, -, -, -, -, -, -, -, -,
    -, -, -, -, -, -, -, hrsp⟩ := executeStakeLsm_ok hcall
  refine ⟨payload, w, store', rsp, hw, hcall, ⟨_, hrsp, rfl⟩, ?_⟩
  simpa [hrsp] using hall

theorem validator_of_fractional {store : Storage} {delegatorShares : String}
    {validators : QueryResult (List Validator)} {validator : Validator}
    (hquery : queryValidatorByAddr store (Sample.fractional delegatorShares)
      Sample.pool = .ok validators) {issuer : String}
    (hfind : validators.result.find? (·.operatorAddress = issuer) =
      some validator) :
    validator = ⟨"val1", "1000000", delegatorShares⟩ := by
  simp only [queryValidatorByAddr, bind_eq_ok, orError_eq_ok, pure_eq_ok,
    Prod.exists] at hquery
  obtain ⟨queryId, height, -, found, hfound, rfl⟩ := hquery
  obtain rfl := Option.some.inj hfound
  exact List.mem_singleton.mp (List.mem_of_find?_eq_some hfind)

/-- With a whole number of shares the credit is what the host pays. -/
theorem lsm_credit_sample : ∃ w store' rsp payload denom amount,
    Sample.run (Sample.setup ++ [Sample.allowLsm]) = some w ∧
    executeStakeLsm w.store (Sample.fractional "1000000000000000000000000")
      ⟨Sample.day 1, Sample.net.self⟩ ⟨Sample.user, [⟨"ibc/SHARE", 100⟩]⟩
      Sample.user Sample.pool = .ok (store', rsp) ∧
    rsp.Carries payload ∧
    payload.message =
      stakeLsmMessage Sample.user amount 100 "ibc/SHARE" denom ∧
    amount ≤ redeemable 100 1000000 1000000000000000000000000 := by
  obtain ⟨_, w, store', rsp, hw, hcall, -, -⟩ :=
    @exists_credited "1000000000000000000000000" (by decide +kernel)
  obtain ⟨coin, trace, issuer, record, validators, validator, tokens,
    delegatorShares, amount, payload, hfunds, -, -, hquery, hfind, htokens,
    htotal, -, hcarries, hmessage, hfair⟩ := lsm_credit_iff.1 hcall
  obtain rfl : ⟨"ibc/SHARE", 100⟩ = coin := by simpa using hfunds
  obtain rfl := validator_of_fractional hquery hfind
  have hmillion : Uint128.parse "1000000" = some 1000000 := by decide +kernel
  have hwhole : Uint128.parse "1000000000000000000000000" =
      some 1000000000000000000000000 := by decide +kernel
  obtain rfl := Option.some.inj (hmillion.symm.trans htokens)
  obtain rfl := Option.some.inj (hwhole.symm.trans htotal)
  refine ⟨w, store', rsp, payload, trace.baseDenom, amount, hw, hcall,
    hcarries, hmessage, hfair ?_⟩
  decide +kernel

/-- With 0.9 of a share more the credit of 100 is more than what the host
pays, and with half a share in all the computation fails. -/
theorem lsm_credit_fails :
    (∃ payload, Sample.CreditedFor "1000000900000000000000000" payload ∧
      Uint128.parse "1000000900000000000000000" =
        some 1000000900000000000000000 ∧
      redeemable 100 1000000 1000000900000000000000000 < 100) ∧
    Uint128.parse "500000000000000000" = some 500000000000000000 ∧
    (lsmTokenAmount ⟨"val1", "1", "500000000000000000"⟩ 100).toOption =
      none := by
  obtain ⟨payload, hpayload⟩ :=
    @exists_credited "1000000900000000000000000" (by decide +kernel)
  exact ⟨⟨payload, hpayload, by decide +kernel, by decide +kernel⟩,
    by decide +kernel, by decide +kernel⟩

end StakeManager

end NeutronContracts
