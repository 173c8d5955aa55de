/-
Staking with tokenized shares and redeeming the shares on the host.
-/
import NeutronContracts.StakeManager.Callback

namespace NeutronContracts.StakeManager

open Fallible

/-- The price of the shares in tokens, from the numbers the validator query
reports as text. -/
def lsmTokenAmount (validator : Validator) (shareTokenAmount : Nat) :
    NeutronResult Nat := do
  let valTokenAmount ← orError (Uint128.parse validator.tokens) .std
  let delegatorShares ← orError (Uint128.parse validator.delegatorShares) .std
  let valShareAmount ← Uint128.div delegatorShares 1000000000000000000
  let scaled ← Uint128.mul shareTokenAmount valTokenAmount
  Uint128.div scaled valShareAmount

/-- The message a share transfer carries to its callbacks. -/
def stakeLsmMessage (neutronAddress : String)
    (tokenAmount shareTokenAmount : Nat)
    (shareTokenIbcDenom shareTokenDenom : String) : String :=
  neutronAddress ++ "_" ++ toString tokenAmount ++ "_" ++
    toString shareTokenAmount ++ "_" ++ shareTokenIbcDenom ++ "_" ++
    shareTokenDenom

def executeStakeLsm (store : Storage) (querier : Querier) (env : Env)
    (info : MessageInfo) (neutronAddress poolAddr : String) :
    NeutronResult (Storage × Response) := do
  let poolInfo ← load (store.pools poolAddr)
  rejectIf (¬ poolInfo.lsmSupport) .lsmStakeNotSupport
  rejectIf (U64.asUsize poolInfo.lsmPendingLimit ≤
    poolInfo.shareTokens.length) .lsmPendingStakeOverLimit
  rejectIf (poolInfo.status ≠ .activeEnded) .eraProcessNotEnd
  rejectIf (poolInfo.validatorUpdateStatus ≠ .ended) .poolIcqNotUpdated
  let (poolIcaInfo, _, _) ← load (store.infoOfIcaId poolInfo.icaId)
  rejectIf poolInfo.paused .poolIsPaused
  match info.funds with
  | [coin] =>
      rejectIf ('/' ∉ coin.denom.toList) .paramsErrorFundsNotMatch
      let shareTokenAmount := coin.amount
      rejectIf (shareTokenAmount < poolInfo.minimalStake)
        .lessThanMinimalStake
      let shareTokenIbcDenom := coin.denom
      let denomTrace ←
        queryDenomTraceFromIbcDenom querier shareTokenIbcDenom
      let shareTokenDenom := denomTrace.baseDenom
      match Text.split '/' denomTrace.path with
      | [_, channelIdOfShareToken] =>
          match Text.split '/' shareTokenDenom with
          | [validatorAddr, _] =>
              rejectIf (validatorAddr ∉ poolInfo.validatorAddrs)
                .validatorNotSupport
              let validators ← queryValidatorByAddr store querier poolAddr
              let validator ← orError (validators.result.find? fun val =>
                val.operatorAddress = validatorAddr) .noValidatorInfo
              let tokenAmount ← lsmTokenAmount validator shareTokenAmount
              rejectIf (tokenAmount = 0) .tokenAmountZero
              let minFee ← queryMinIbcFee querier
              let timeoutTimestamp ← U64.add env.block.time
                (defaultTimeoutSeconds * 1000000000)
              let (store, subMsg) := msgWithSudoCallback store
                (.ibcTransfer
                  { sourcePort := "transfer"
                    sourceChannel := channelIdOfShareToken
                    sender := env.contractAddress
                    receiver := poolAddr
                    token := coin
                    timeoutTimestamp := timeoutTimestamp
                    memo := ""
                    fee := minNtrnIbcFee minFee })
                { portId := poolIcaInfo.ctrlPortId
                  message := stakeLsmMessage neutronAddress tokenAmount
                    shareTokenAmount shareTokenIbcDenom shareTokenDenom
                  poolAddr := poolAddr
                  txType := .stakeLsm }
              return (store, Response.new.addSubmessage subMsg)
          | _ => throw .denomTraceNotMatch
      | _ => throw .denomPathNotMatch
  | _ => throw .paramsErrorFundsNotMatch

def sudoStakeLsmCallback (store : Storage) (payload : SudoPayload) :
    NeutronResult (Storage × Response) :=
  match Text.split '_' payload.message with
  | [stakerNeutronAddr, tokenAmountStr, shareTokenAmountStr, _,
      shareTokenDenom] => do
      let tokenAmount ← orError (Uint128.parse tokenAmountStr)
        (.unsupportedMessage payload.message)
      let shareTokenAmount ← orError (Uint128.parse shareTokenAmountStr)
        (.unsupportedMessage payload.message)
      let poolInfo ← load (store.pools payload.poolAddr)
      let active ← Uint128.add poolInfo.active tokenAmount
      let scaled ← Uint128.mul tokenAmount calBase
      let lsdTokenAmount ← Uint128.div scaled poolInfo.rate
      let total ← Uint128.add poolInfo.totalLsdTokenAmount lsdTokenAmount
      return (store.savePool payload.poolAddr
          { poolInfo with
            active := active
            totalLsdTokenAmount := total
            shareTokens :=
              poolInfo.shareTokens ++ [⟨shareTokenDenom, shareTokenAmount⟩] },
        Response.new
          |>.addMessage (.wasmExecute poolInfo.lsdToken
              (.mint stakerNeutronAddr lsdTokenAmount))
          |>.addAttribute "action" "stake_lsm"
          |>.addAttribute "pool" payload.poolAddr
          |>.addAttribute "staker" stakerNeutronAddr
          |>.addAttribute "token_amount" (toString tokenAmount)
          |>.addAttribute "lsd_token_amount" (toString lsdTokenAmount))
  | _ => throw (.unsupportedMessage payload.message)

def sudoStakeLsmFailedCallback (store : Storage) (payload : SudoPayload) :
    NeutronResult (Storage × Response) :=
  match Text.split '_' payload.message with
  | [stakerNeutronAddr, _, shareTokenAmountStr, shareTokenIbcDenom, _] => do
      let shareTokenAmount ← orError (Uint128.parse shareTokenAmountStr)
        (.unsupportedMessage payload.message)
      return (store, Response.new.addMessage
        (.bankSend stakerNeutronAddr
          [⟨shareTokenIbcDenom, shareTokenAmount⟩]))
  | _ => throw (.unsupportedMessage payload.message)

/-- The loop of `execute_redeem_token_for_share` over the requested tokens:
the denominations seen so far, and the pool with its list extended. -/
def redeemTokens (poolInfo : PoolInfo) :
    List String → List Coin → NeutronResult (List String)
  | denoms, [] => return denoms
  | denoms, token :: rest => do
      rejectIf (token ∉ poolInfo.shareTokens) .shareTokenNotExist
      rejectIf (token.denom ∈ denoms) .duplicateToken
      redeemTokens poolInfo (denoms ++ [token.denom]) rest

def executeRedeemTokenForShare (store : Storage) (querier : Querier)
    (info : MessageInfo) (poolAddr : String) (tokens : List Coin) :
    NeutronResult (Storage × Response) := do
  rejectIf (tokens.length = 0 ∨ 10 < tokens.length) .tokensLenNotMatch
  let poolInfo ← load (store.pools poolAddr)
  rejectIf (¬ poolInfo.lsmSupport) .lsmStakeNotSupport
  let (poolIcaInfo, _, _) ← load (store.infoOfIcaId poolInfo.icaId)
  let denoms ← redeemTokens poolInfo [] tokens
  let ibcFee ← checkIbcFee querier info
  let (store, submsg) := msgWithSudoCallback store
    (.submitTx
      { connectionId := poolIcaInfo.ctrlConnectionId
        interchainAccountId := poolInfo.icaId
        msgs := tokens.map (redeemTokenForShareMsg poolIcaInfo.icaAddr)
        memo := ""
        timeout := defaultTimeoutSeconds
        fee := ibcFee })
    { portId := poolIcaInfo.ctrlPortId
      message := Text.join ',' denoms
      poolAddr := poolAddr
      txType := .redeemTokenForShare }
  let store := store.savePool poolAddr
    { poolInfo with
      redeemmingShareTokenDenom :=
        poolInfo.redeemmingShareTokenDenom ++ denoms }
  return (store, Response.new.addSubmessage submsg)

def sudoRedeemTokenForShareCallback (store : Storage)
    (payload : SudoPayload) : NeutronResult (Storage × Response) := do
  let poolInfo ← load (store.pools payload.poolAddr)
  let willRemovedDenoms := Text.split ',' payload.message
  return (store.savePool payload.poolAddr
    { poolInfo with
      shareTokens := poolInfo.shareTokens.filter fun token =>
        decide (token.denom ∉ willRemovedDenoms)
      redeemmingShareTokenDenom :=
        poolInfo.redeemmingShareTokenDenom.filter fun denom =>
          decide (denom ∉ willRemovedDenoms) },
    Response.new)

def sudoRedeemTokenForShareFailedCallback (store : Storage)
    (payload : SudoPayload) : NeutronResult (Storage × Response) := do
  let poolInfo ← load (store.pools payload.poolAddr)
  let willRemovedDenoms := Text.split ',' payload.message
  return (store.savePool payload.poolAddr
    { poolInfo with
      redeemmingShareTokenDenom :=
        poolInfo.redeemmingShareTokenDenom.filter fun denom =>
          decide (denom ∉ willRemovedDenoms) },
    Response.new)

/-! ### What a successful call has done -/

/-- The guards of a share stake, in the order of the source. -/
structure LsmAcceptable (store : Storage) (querier : Querier) (env : Env)
    (info : MessageInfo) (poolAddr : String) (p : PoolInfo) (coin : Coin)
    (trace : DenomTrace) : Prop where
  pool : store.pools poolAddr = some p
  support : p.lsmSupport = true
  limit : p.shareTokens.length < U64.asUsize p.lsmPendingLimit
  status : p.status = .activeEnded
  update : p.validatorUpdateStatus = .ended
  icas : ∃ icas, store.infoOfIcaId p.icaId = some icas
  unpaused : p.paused = false
  funds : info.funds = [coin]
  ibcDenom : '/' ∈ coin.denom.toList
  minimal : p.minimalStake ≤ coin.amount
  traced : queryDenomTraceFromIbcDenom querier coin.denom = .ok trace
  path : ∃ port channel, Text.split '/' trace.path = [port, channel]
  record : ∃ validatorAddr number,
    Text.split '/' trace.baseDenom = [validatorAddr, number] ∧
    validatorAddr ∈ p.validatorAddrs ∧
    ∃ validators validator tokenAmount,
      queryValidatorByAddr store querier poolAddr = .ok validators ∧
      validators.result.find? (·.operatorAddress = validatorAddr) =
        some validator ∧
      lsmTokenAmount validator coin.amount = .ok tokenAmount ∧
      tokenAmount ≠ 0
  fee : ∃ fee, queryMinIbcFee querier = .ok fee
  timeout : env.block.time + defaultTimeoutSeconds * 1000000000 < U64.limit

section

variable {store store' : Storage} {rsp : Response} {querier : Querier}
  {env : Env} {info : MessageInfo} {payload : SudoPayload} {poolAddr : String}

/-- Shares that are worth something are neither too many nor worth too
much. -/
theorem lsmTokenAmount_lt {validator : Validator}
    {shareAmount tokenAmount : Nat}
    (h : lsmTokenAmount validator shareAmount = .ok tokenAmount)
    (hne : tokenAmount ≠ 0) :
    tokenAmount < Uint128.limit ∧ shareAmount < Uint128.limit := by
  simp only [lsmTokenAmount, bind_eq_ok, mulBelow_eq_ok, divExact_eq_ok] at h
  obtain ⟨tokens, -, _, -, shares, -, _, ⟨hbelow, rfl⟩, -, rfl⟩ := h
  have hpos : 0 < tokens := by
    apply Nat.pos_of_ne_zero
    rintro rfl
    simp at hne
  exact ⟨Nat.lt_of_le_of_lt (Nat.div_le_self _ _) hbelow,
    Nat.lt_of_le_of_lt (Nat.le_mul_of_pos_right _ hpos) hbelow⟩

theorem executeStakeLsm_ok {neutronAddress : String}
    (h : executeStakeLsm store querier env info neutronAddress poolAddr =
      .ok (store', rsp)) :
    ∃ p coin trace port channel validator record tokenAmount transfer payload,
      store.pools poolAddr = some p ∧ info.funds = [coin] ∧
      p.status = .activeEnded ∧ p.validatorUpdateStatus = .ended ∧
      p.shareTokens.length < p.lsmPendingLimit ∧
      queryDenomTraceFromIbcDenom querier coin.denom = .ok trace ∧
      Text.split '/' trace.path = [port, channel] ∧
      Text.split '/' trace.baseDenom = [validator, record] ∧
      validator ∈ p.validatorAddrs ∧
      (∃ validators info,
        queryValidatorByAddr store querier poolAddr = .ok validators ∧
        validators.result.find? (·.operatorAddress = validator) = some info ∧
        lsmTokenAmount info coin.amount = .ok tokenAmount ∧
        tokenAmount ≠ 0) ∧
      transfer.sourcePort = "transfer" ∧ transfer.sourceChannel = channel ∧
      transfer.receiver = poolAddr ∧ transfer.token = coin ∧
      payload.message = stakeLsmMessage neutronAddress tokenAmount coin.amount
        coin.denom trace.baseDenom ∧
      payload.poolAddr = poolAddr ∧ payload.txType = .stakeLsm ∧
      store' = store.queuePayload payload ∧
      rsp.messages =
        [⟨.ibcTransfer transfer, some store.replyId, some payload⟩] := by
  simp only [executeStakeLsm, bind_eq_ok, orError_eq_ok, rejectIf_eq_ok,
    Prod.exists, ne_eq, not_not, Nat.not_le] at h
  obtain ⟨p, hp, _, -, _, hlimit, _, hstatus, _, hupdate, _, _, _, -, _, -,
    h⟩ := h
  split at h
  case h_2 => cases h
  case h_1 coin hfunds =>
      simp only [bind_eq_ok] at h
      obtain ⟨_, -, _, -, trace, htrace, h⟩ := h
      split at h
      case h_2 => cases h
      case h_1 port channel hpath =>
          split at h
          case h_2 => cases h
          case h_1 validator record hbase =>
              simp only [bind_eq_ok, rejectIf_eq_ok, not_not,
                msgWithSudoCallback_eq, pure_eq_ok, Prod.mk.injEq] at h
              obtain ⟨_, hvalidator, validators, hvalidators, val, hval,
                tokenAmount, htoken, _, hne, _, -, _, -, rfl, rfl⟩ := h
              exact ⟨p, coin, trace, port, channel, validator, record,
                tokenAmount, _, _, hp, hfunds, hstatus, hupdate,
                hlimit.trans_le (U64.asUsize_le _),
                htrace, hpath, hbase, hvalidator,
                ⟨validators, val, hvalidators, orError_eq_ok.mp hval, htoken,
                  hne⟩, rfl, rfl, rfl, rfl, rfl, rfl,
                rfl, rfl, rfl⟩

/-- A share stake is accepted exactly when all guards let it pass. -/
theorem executeStakeLsm_accepts_iff {neutronAddress : String} :
    (∃ result, executeStakeLsm store querier env info neutronAddress poolAddr =
        .ok result) ↔
      ∃ p coin trace,
        LsmAcceptable store querier env info poolAddr p coin trace := by
  constructor
  · rintro ⟨⟨store', rsp⟩, h⟩
    simp only [executeStakeLsm, bind_eq_ok, orError_eq_ok, rejectIf_eq_ok,
      Prod.exists, ne_eq, not_not, Nat.not_le, Bool.not_eq_true] at h
    obtain ⟨p, hp, _, hsupport, _, hlimit, _, hstatus, _, hupdate, _, _, _,
      hicas, _, hpaused, h⟩ := h
    split at h
    case h_2 => cases h
    case h_1 coin hfunds =>
        simp only [bind_eq_ok, rejectIf_eq_ok, not_not, Nat.not_lt] at h
        obtain ⟨_, hdenom, _, hminimal, trace, htrace, h⟩ := h
        split at h
        case h_2 => cases h
        case h_1 port channel hpath =>
            split at h
            case h_2 => cases h
            case h_1 validator record hbase =>
                simp only [bind_eq_ok, rejectIf_eq_ok, not_not, orError_eq_ok,
                  addBelow_eq_ok] at h
                obtain ⟨_, hvalidator, validators, hvalidators, val, hval,
                  tokenAmount, htoken, _, hne, fee, hfee, _, ⟨htimeout, -⟩,
                  -⟩ := h
                exact ⟨p, coin, trace, hp, by simpa using hsupport, hlimit,
                  hstatus, hupdate, ⟨_, hicas⟩, hpaused, hfunds, hdenom,
                  hminimal, htrace, ⟨port, channel, hpath⟩,
                  ⟨validator, record, hbase, hvalidator, validators, val,
                    tokenAmount, hvalidators, hval, htoken, hne⟩, ⟨fee, hfee⟩,
                  htimeout⟩
  · rintro ⟨p, coin, trace, h⟩
    obtain ⟨⟨pool, withdraw, admin⟩, hicas⟩ := h.icas
    obtain ⟨port, channel, hpath⟩ := h.path
    obtain ⟨validatorAddr, number, hbase, hvalidator, validators, validator,
      tokenAmount, hvalidators, hfind, htoken, hne⟩ := h.record
    obtain ⟨fee, hfee⟩ := h.fee
    simp only [executeStakeLsm, exists_bind_eq_ok, orError_eq_ok,
      rejectIf_eq_ok, ne_eq, not_not, Nat.not_le, exists_const]
    refine ⟨p, h.pool, h.support, h.limit, h.status, h.update,
      (pool, withdraw, admin), hicas, by simp [h.unpaused], ?_⟩
    rw [h.funds]
    simp only [exists_bind_eq_ok, rejectIf_eq_ok, not_not, Nat.not_lt,
      exists_const]
    refine ⟨h.ibcDenom, h.minimal, trace, h.traced, ?_⟩
    rw [hpath]
    simp only [hbase]
    simp only [exists_bind_eq_ok, rejectIf_eq_ok, not_not, orError_eq_ok,
      addBelow_eq_ok, exists_const]
    exact ⟨hvalidator, validators, hvalidators, validator, hfind, tokenAmount,
      htoken, hne, fee, hfee, _, ⟨h.timeout, rfl⟩, _, rfl⟩

/-- The record of a pool after shares worth `tokenAmount` were credited. -/
def lsmCredited (p : PoolInfo) (tokenAmount : Nat) (share : Coin) :
    PoolInfo :=
  { p with
    active := p.active + tokenAmount
    totalLsdTokenAmount :=
      p.totalLsdTokenAmount + tokenAmount * calBase / p.rate
    shareTokens := p.shareTokens ++ [share] }

/-- The credit a message announces: the staker, the worth of the shares and
the shares. -/
def stakeLsmCredit (message : String) : Option (String × Nat × Coin) :=
  match Text.split '_' message with
  | [staker, tokenAmountStr, shareTokenAmountStr, _, shareTokenDenom] => do
      let tokenAmount ← Uint128.parse tokenAmountStr
      let shareTokenAmount ← Uint128.parse shareTokenAmountStr
      return (staker, tokenAmount, ⟨shareTokenDenom, shareTokenAmount⟩)
  | _ => none

theorem sudoStakeLsmCallback_ok
    (h : sudoStakeLsmCallback store payload = .ok (store', rsp)) :
    ∃ p staker tokenAmount share,
      stakeLsmCredit payload.message = some (staker, tokenAmount, share) ∧
      store.pools payload.poolAddr = some p ∧ p.rate ≠ 0 ∧
      store' = store.savePool payload.poolAddr
        (lsmCredited p tokenAmount share) ∧
      rsp.messages = [⟨.wasmExecute p.lsdToken
        (.mint staker (tokenAmount * calBase / p.rate)), none, none⟩] := by
  unfold sudoStakeLsmCallback at h
  split at h
  case h_2 => cases h
  case h_1 staker tokenStr shareStr ibcDenom denom hsplit =>
      simp only [bind_eq_ok, orError_eq_ok, addBelow_eq_ok, mulBelow_eq_ok,
        divExact_eq_ok, pure_eq_ok, Prod.mk.injEq] at h
      obtain ⟨tokenAmount, htoken, shareAmount, hshare, p, hp, _, ⟨-, rfl⟩, _,
        ⟨-, rfl⟩, _, ⟨hrate, rfl⟩, _, ⟨-, rfl⟩, rfl, rfl⟩ := h
      refine ⟨p, staker, tokenAmount, ⟨denom, shareAmount⟩, ?_, hp, hrate,
        rfl, rfl⟩
      simp [stakeLsmCredit, hsplit, htoken, hshare]

theorem sudoStakeLsmFailedCallback_ok
    (h : sudoStakeLsmFailedCallback store payload = .ok (store', rsp)) :
    ∃ staker coin, store' = store ∧
      rsp.messages = [⟨.bankSend staker [coin], none, none⟩] := by
  unfold sudoStakeLsmFailedCallback at h
  split at h
  case h_2 => cases h
  case h_1 =>
      simp only [bind_eq_ok, pure_eq_ok, Prod.mk.injEq] at h
      obtain ⟨_, -, rfl, rfl⟩ := h
      exact ⟨_, _, rfl, rfl⟩

theorem executeRedeemTokenForShare_ok {tokens : List Coin}
    (h : executeRedeemTokenForShare store querier info poolAddr tokens =
      .ok (store', rsp)) :
    ∃ p denoms tx payload, ∃ poolIcaInfo : IcaInfo,
      store.pools poolAddr = some p ∧
      redeemTokens p [] tokens = .ok denoms ∧
      tx.msgs = tokens.map (redeemTokenForShareMsg poolIcaInfo.icaAddr) ∧
      payload.message = Text.join ',' denoms ∧
      payload.poolAddr = poolAddr ∧
      payload.txType = .redeemTokenForShare ∧
      store' = (store.queuePayload payload).savePool poolAddr
        { p with
          redeemmingShareTokenDenom :=
            p.redeemmingShareTokenDenom ++ denoms } ∧
      rsp.messages =
        [⟨.submitTx tx, some store.replyId, some payload⟩] := by
  simp only [executeRedeemTokenForShare, bind_eq_ok, orError_eq_ok,
    Prod.exists, msgWithSudoCallback_eq, pure_eq_ok, Prod.mk.injEq] at h
  obtain ⟨_, -, p, hp, _, -, poolIcaInfo, _, _, -, denoms, hdenoms, _, -, rfl,
    rfl⟩ := h
  exact ⟨p, denoms, _, _, poolIcaInfo, hp, hdenoms, rfl, rfl, rfl, rfl, rfl,
    rfl⟩

/-- A redemption asks for something. -/
theorem executeRedeemTokenForShare_ne_nil {tokens : List Coin}
    (h : executeRedeemTokenForShare store querier info poolAddr tokens =
      .ok (store', rsp)) : tokens ≠ [] := by
  simp only [executeRedeemTokenForShare, bind_eq_ok, rejectIf_eq_ok] at h
  obtain ⟨_, hlength, -⟩ := h
  rintro rfl
  exact hlength (.inl rfl)

theorem sudoRedeemTokenForShareCallback_ok :
    sudoRedeemTokenForShareCallback store payload = .ok (store', rsp) ↔
      ∃ p, store.pools payload.poolAddr = some p ∧
        store' = store.savePool payload.poolAddr
          { p with
            shareTokens := p.shareTokens.filter fun token =>
              decide (token.denom ∉ Text.split ',' payload.message)
            redeemmingShareTokenDenom :=
              p.redeemmingShareTokenDenom.filter fun denom =>
                decide (denom ∉ Text.split ',' payload.message) } ∧
        rsp = Response.new := by
  simp only [sudoRedeemTokenForShareCallback, bind_eq_ok, orError_eq_ok,
    pure_eq_ok, Prod.mk.injEq, eq_comm (b := store'), eq_comm (b := rsp)]

theorem sudoRedeemTokenForShareFailedCallback_ok :
    sudoRedeemTokenForShareFailedCallback store payload =
        .ok (store', rsp) ↔
      ∃ p, store.pools payload.poolAddr = some p ∧
        store' = store.savePool payload.poolAddr
          { p with
            redeemmingShareTokenDenom :=
              p.redeemmingShareTokenDenom.filter fun denom =>
                decide (denom ∉ Text.split ',' payload.message) } ∧
        rsp = Response.new := by
  simp only [sudoRedeemTokenForShareFailedCallback, bind_eq_ok, orError_eq_ok,
    pure_eq_ok, Prod.mk.injEq, eq_comm (b := store'), eq_comm (b := rsp)]

end

end NeutronContracts.StakeManager
