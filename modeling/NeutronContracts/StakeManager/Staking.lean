/-
What users do with a pool: stake, unstake and withdraw.
-/
import NeutronContracts.StakeManager.Callback

namespace NeutronContracts.StakeManager

open Fallible

def executeStake (store : Storage) (neutronAddress poolAddr : String)
    (info : MessageInfo) : NeutronResult (Storage × Response) := do
  let poolInfo ← load (store.pools poolAddr)
  rejectIf poolInfo.paused .poolIsPaused
  match info.funds with
  | [coin] =>
      rejectIf (coin.denom ≠ poolInfo.ibcDenom) .paramsErrorFundsNotMatch
      let tokenAmount := coin.amount
      rejectIf (tokenAmount < poolInfo.minimalStake) .lessThanMinimalStake
      let active ← Uint128.add poolInfo.active tokenAmount
      let bond ← Uint128.add poolInfo.bond tokenAmount
      let scaled ← Uint128.mul tokenAmount calBase
      let lsdTokenAmount ← Uint128.div scaled poolInfo.rate
      let total ← Uint128.add poolInfo.totalLsdTokenAmount lsdTokenAmount
      return (store.savePool poolAddr
          { poolInfo with
            active := active
            bond := bond
            totalLsdTokenAmount := total },
        Response.new
          |>.addMessage (.wasmExecute poolInfo.lsdToken
              (.mint neutronAddress lsdTokenAmount))
          |>.addAttribute "action" "stake"
          |>.addAttribute "pool" poolAddr
          |>.addAttribute "staker" neutronAddress
          |>.addAttribute "token_amount" (toString tokenAmount)
          |>.addAttribute "lsd_token_amount" (toString lsdTokenAmount))
  | _ => throw .paramsErrorFundsNotMatch

/-- The commission on an unstake; none is computed when it is switched off. -/
def unstakeCommission (poolInfo : PoolInfo) (lsdTokenAmount : Nat) :
    NeutronResult Nat :=
  if 0 < poolInfo.unbondCommission then do
    let scaled ← Uint128.mul lsdTokenAmount poolInfo.unbondCommission
    Uint128.div scaled calBase
  else return 0

/-- Before this step, the user has to allow the contract to burn. -/
def executeUnstake (store : Storage) (info : MessageInfo)
    (lsdTokenAmount : Nat) (poolAddr : String) :
    NeutronResult (Storage × Response) := do
  rejectIf (lsdTokenAmount = 0) .encodeErrLsdTokenAmountZero
  let poolInfo ← load (store.pools poolAddr)
  let unstakesIndexForUser :=
    (store.unstakesIndexForUser (info.sender, poolAddr)).getD []
  rejectIf (poolInfo.unstakeTimesLimit ≤ unstakesIndexForUser.length)
    .encodeErrUnstakeTimesLimitReached
  let cmsFee ← unstakeCommission poolInfo lsdTokenAmount
  let willBurnLsdTokenAmount ← Uint128.sub lsdTokenAmount cmsFee
  let rsp :=
    if 0 < cmsFee then
      Response.new.addMessage (.wasmExecute poolInfo.lsdToken
        (.transferFrom info.sender poolInfo.platformFeeReceiver cmsFee))
    else Response.new
  rejectIf (willBurnLsdTokenAmount = 0) .burnLsdTokenAmountIsZero
  let scaled ← Uint128.mul willBurnLsdTokenAmount poolInfo.rate
  let tokenAmount ← Uint128.div scaled calBase
  let nextUnstakeIndex ← U64.add poolInfo.nextUnstakeIndex 1
  let unbond ← Uint128.add poolInfo.unbond tokenAmount
  let active ← Uint128.sub poolInfo.active tokenAmount
  let total ←
    Uint128.sub poolInfo.totalLsdTokenAmount willBurnLsdTokenAmount
  -- five units stay behind, against precision issues
  let receiveAmount := if 5 < tokenAmount then tokenAmount - 5 else 0
  rejectIf (receiveAmount = 0) .encodeErrZeroWithdrawAmount
  let unstakeInfo : UnstakeInfo :=
    { era := poolInfo.era
      poolAddr := poolAddr
      unstaker := info.sender
      amount := receiveAmount
      status := .idle
      index := nextUnstakeIndex }
  let store := store.saveUnstake poolAddr nextUnstakeIndex unstakeInfo
  let store := store.savePool poolAddr
    { poolInfo with
      nextUnstakeIndex := nextUnstakeIndex
      unbond := unbond
      active := active
      totalLsdTokenAmount := total }
  let store := store.saveUserIndexes info.sender poolAddr
    (unstakesIndexForUser ++ [nextUnstakeIndex])
  return (store, rsp
    |>.addMessage (.wasmExecute poolInfo.lsdToken
        (.burnFrom info.sender willBurnLsdTokenAmount))
    |>.addAttribute "action" "unstake"
    |>.addAttribute "pool" poolAddr
    |>.addAttribute "from" info.sender
    |>.addAttribute "token_amount" (toString tokenAmount)
    |>.addAttribute "lsd_token_amount" (toString lsdTokenAmount)
    |>.addAttribute "unstake_index" (toString nextUnstakeIndex))

/-- The loop of `execute_withdraw`: every listed record is checked, marked as
pending and added to the total. -/
def withdrawRecords (sender poolAddr : String) (poolInfo : PoolInfo) :
    Storage → Nat → List Nat → NeutronResult (Storage × Nat)
  | store, total, [] => return (store, total)
  | store, total, unstakeIndex :: rest => do
      let unstakeInfo ← load (store.unstakesOfIndex (poolAddr, unstakeIndex))
      rejectIf (unstakeInfo.poolAddr ≠ poolAddr)
        (.unstakeIndexPoolNotMatch unstakeIndex)
      rejectIf (unstakeInfo.unstaker ≠ sender)
        (.unstakeIndexUnstakerNotMatch unstakeIndex)
      rejectIf (unstakeInfo.status = .pending)
        (.unstakeIndexStatusNotMatch unstakeIndex)
      let matureEra ← U64.add unstakeInfo.era poolInfo.unbondingPeriod
      rejectIf (poolInfo.era < matureEra)
        (.unstakeIndexNotWithdrawable unstakeIndex)
      let total ← Uint128.add total unstakeInfo.amount
      withdrawRecords sender poolAddr poolInfo
        (store.saveUnstake poolAddr unstakeIndex
          { unstakeInfo with status := .pending })
        total rest

/-- The message a withdrawal packet carries to its callbacks. -/
def withdrawMessage (total : Nat) (sender receiver : String)
    (unstakeIndexList : List Nat) : String :=
  toString total ++ "_" ++ sender ++ "_" ++ receiver ++ "_" ++
    Text.join '_' (unstakeIndexList.map toString)

def executeWithdraw (store : Storage) (querier : Querier) (info : MessageInfo)
    (poolAddr receiver : String) (unstakeIndexList : List Nat) :
    NeutronResult (Storage × Response) := do
  rejectIf (unstakeIndexList = []) .emptyUnstakeList
  let poolInfo ← load (store.pools poolAddr)
  let (store, totalWithdrawAmount) ←
    withdrawRecords info.sender poolAddr poolInfo store 0 unstakeIndexList
  rejectIf (totalWithdrawAmount = 0) .encodeErrZeroWithdrawAmount
  let ibcFee ← checkIbcFee querier info
  let (poolIcaInfo, _, _) ← load (store.infoOfIcaId poolInfo.icaId)
  let (store, submsg) := msgWithSudoCallback store
    (.submitTx
      { connectionId := poolIcaInfo.ctrlConnectionId
        interchainAccountId := poolInfo.icaId
        msgs := [genMsgSend poolAddr receiver poolInfo.remoteDenom
          totalWithdrawAmount]
        memo := ""
        timeout := defaultTimeoutSeconds
        fee := ibcFee })
    { portId := poolIcaInfo.ctrlPortId
      message := withdrawMessage totalWithdrawAmount info.sender receiver
        unstakeIndexList
      poolAddr := poolAddr
      txType := .userWithdraw }
  return (store, Response.new.addSubmessage submsg)

def sudoWithdrawCallback (store : Storage) (payload : SudoPayload) :
    NeutronResult (Storage × Response) :=
  match Text.split '_' payload.message with
  | totalWithdrawAmount :: userAddr :: receiver :: index :: indexes =>
      let unstakeIndexListStr := Text.join '_' (index :: indexes)
      -- the source searches every piece after the first one
      let indexList := userAddr :: receiver :: index :: indexes
      let store :=
        match store.unstakesIndexForUser (userAddr, payload.poolAddr) with
        | none => store
        | some unstakes =>
            let withdrawn := unstakes.filter fun unstakeIndex =>
              decide (toString unstakeIndex ∈ indexList)
            let store := withdrawn.foldl
              (fun store unstakeIndex =>
                store.removeUnstake payload.poolAddr unstakeIndex) store
            store.saveUserIndexes userAddr payload.poolAddr
              (unstakes.filter fun unstakeIndex =>
                decide (toString unstakeIndex ∉ indexList))
      return (store, Response.new
        |>.addAttribute "action" "withdraw"
        |>.addAttribute "from" userAddr
        |>.addAttribute "pool" payload.poolAddr
        |>.addAttribute "receiver" receiver
        |>.addAttribute "unstake_index_list" unstakeIndexListStr
        |>.addAttribute "amount" totalWithdrawAmount)
  | _ => throw (.unsupportedMessage payload.message)

/-- The loop of the failure callback: every piece is read as an index and the
record under it goes back to its idle state. -/
def restoreRecords (poolAddr : String) :
    Storage → List String → NeutronResult Storage
  | store, [] => return store
  | store, indexStr :: rest => do
      let index ← orError (U64.parse indexStr) .panic
      let unstakeInfo ← load (store.unstakesOfIndex (poolAddr, index))
      restoreRecords poolAddr
        (store.saveUnstake poolAddr index
          { unstakeInfo with status := .idle })
        rest

def sudoWithdrawFailedCallback (store : Storage) (payload : SudoPayload) :
    NeutronResult (Storage × Response) := do
  let parts := Text.split '_' payload.message
  -- skip the amount, the user and the receiver
  let store ← restoreRecords payload.poolAddr store (parts.drop 3)
  return (store, Response.new)

/-! ### What a successful call has done -/

section

variable {store store' next : Storage} {rsp : Response} {querier : Querier}
  {info : MessageInfo} {payload : SudoPayload} {poolAddr : String}

theorem executeStake_ok {neutronAddress : String}
    (h : executeStake store neutronAddress poolAddr info =
      .ok (store', rsp)) :
    ∃ p coin, store.pools poolAddr = some p ∧ info.funds = [coin] ∧
      coin.denom = p.ibcDenom ∧ p.rate ≠ 0 ∧
      store' = store.savePool poolAddr
        { p with
          active := p.active + coin.amount
          bond := p.bond + coin.amount
          totalLsdTokenAmount :=
            p.totalLsdTokenAmount + coin.amount * calBase / p.rate } ∧
      rsp.messages = [⟨.wasmExecute p.lsdToken
        (.mint neutronAddress (coin.amount * calBase / p.rate)),
        none, none⟩] := by
  simp only [executeStake, bind_eq_ok, orError_eq_ok] at h
  obtain ⟨p, hp, _, -, h⟩ := h
  split at h
  case h_1 coin hfunds =>
      simp only [bind_eq_ok, rejectIf_eq_ok, addBelow_eq_ok, mulBelow_eq_ok,
        divExact_eq_ok, pure_eq_ok, Prod.mk.injEq, ne_eq, not_not] at h
      obtain ⟨_, hdenom, _, -, _, ⟨-, rfl⟩, _, ⟨-, rfl⟩, _, ⟨-, rfl⟩, _,
        ⟨hrate, rfl⟩, _, ⟨-, rfl⟩, rfl, rfl⟩ := h
      exact ⟨p, coin, hp, hfunds, hdenom, hrate, rfl, rfl⟩
  case h_2 => cases h

theorem unstakeCommission_ok {p : PoolInfo} {lsdTokenAmount cmsFee : Nat}
    (h : unstakeCommission p lsdTokenAmount = .ok cmsFee) :
    cmsFee = lsdTokenAmount * p.unbondCommission / calBase := by
  unfold unstakeCommission at h
  split at h
  case isTrue =>
      simp only [bind_eq_ok, mulBelow_eq_ok, divExact_eq_ok] at h
      obtain ⟨_, ⟨-, rfl⟩, -, rfl⟩ := h
      rfl
  case isFalse hzero =>
      cases h
      simp [Nat.eq_zero_of_not_pos hzero]

/-- The messages of an unstake: the commission moves, the rest is burned. -/
def unstakeMessages (p : PoolInfo) (sender : String)
    (cmsFee willBurnLsdTokenAmount : Nat) : List LsdTokenMsg :=
  (if 0 < cmsFee then [.transferFrom sender p.platformFeeReceiver cmsFee]
    else []) ++ [.burnFrom sender willBurnLsdTokenAmount]

/-- The record of a pool after an unstake of tokens worth `tokenAmount`. -/
def unstaked (p : PoolInfo) (tokenAmount willBurnLsdTokenAmount : Nat) :
    PoolInfo :=
  { p with
    nextUnstakeIndex := p.nextUnstakeIndex + 1
    unbond := p.unbond + tokenAmount
    active := p.active - tokenAmount
    totalLsdTokenAmount := p.totalLsdTokenAmount - willBurnLsdTokenAmount }

theorem executeUnstake_ok {lsdTokenAmount : Nat}
    (h : executeUnstake store info lsdTokenAmount poolAddr =
      .ok (store', rsp)) :
    ∃ p cmsFee burned token, store.pools poolAddr = some p ∧
      cmsFee = lsdTokenAmount * p.unbondCommission / calBase ∧
      cmsFee ≤ lsdTokenAmount ∧ burned = lsdTokenAmount - cmsFee ∧
      token = burned * p.rate / calBase ∧ token ≤ p.active ∧
      burned ≤ p.totalLsdTokenAmount ∧ 5 < token ∧
      store' = ((store.saveUnstake poolAddr (p.nextUnstakeIndex + 1)
          { era := p.era
            poolAddr := poolAddr
            unstaker := info.sender
            amount := token - 5
            status := .idle
            index := p.nextUnstakeIndex + 1 }).savePool poolAddr
          (unstaked p token burned)).saveUserIndexes info.sender poolAddr
            ((store.unstakesIndexForUser (info.sender, poolAddr)).getD [] ++
              [p.nextUnstakeIndex + 1]) ∧
      rsp.messages = (unstakeMessages p info.sender cmsFee burned).map
        fun msg => ⟨.wasmExecute p.lsdToken msg, none, none⟩ := by
  simp only [executeUnstake, bind_eq_ok, orError_eq_ok, rejectIf_eq_ok,
    addBelow_eq_ok, subExact_eq_ok, mulBelow_eq_ok, divExact_eq_ok,
    pure_eq_ok, Prod.mk.injEq] at h
  obtain ⟨_, -, p, hp, _, -, cmsFee, hfee, burned, ⟨hle, rfl⟩, _, -, _,
    ⟨-, rfl⟩, token, ⟨-, rfl⟩, _, ⟨-, rfl⟩, _, ⟨-, rfl⟩, _, ⟨hactive, rfl⟩, _,
    ⟨htotal, rfl⟩, _, hreceive, rfl, rfl⟩ := h
  refine ⟨p, cmsFee, _, _, hp, unstakeCommission_ok hfee, hle, rfl, rfl,
    hactive, htotal, ?_, ?_, ?_⟩
  · by_contra hsmall
    simp [hsmall] at hreceive
  · have hlarge : 5 < (lsdTokenAmount - cmsFee) * p.rate / calBase := by
      by_contra hsmall
      simp [hsmall] at hreceive
    simp only [hlarge, if_true]
    rfl
  · unfold unstakeMessages
    split <;> rfl

theorem withdrawRecords_store {sender : String} {p : PoolInfo}
    {total result : Nat} {unstakeIndexList : List Nat}
    (h : withdrawRecords sender poolAddr p store total unstakeIndexList =
      .ok (next, result)) :
    ∃ records, next = { store with unstakesOfIndex := records } := by
  induction unstakeIndexList generalizing store total with
  | nil =>
      cases h
      exact ⟨_, rfl⟩
  | cons unstakeIndex rest ih =>
      simp only [withdrawRecords, bind_eq_ok] at h
      obtain ⟨_, -, _, -, _, -, _, -, _, -, _, -, _, -, h⟩ := h
      obtain ⟨records, rfl⟩ := ih h
      exact ⟨records, rfl⟩

theorem executeWithdraw_ok {receiver : String} {unstakeIndexList : List Nat}
    (h : executeWithdraw store querier info poolAddr receiver
      unstakeIndexList = .ok (store', rsp)) :
    ∃ p next total tx payload, store.pools poolAddr = some p ∧
      unstakeIndexList ≠ [] ∧
      withdrawRecords info.sender poolAddr p store 0 unstakeIndexList =
        .ok (next, total) ∧
      tx.msgs = [genMsgSend poolAddr receiver p.remoteDenom total] ∧
      payload.message =
        withdrawMessage total info.sender receiver unstakeIndexList ∧
      payload.poolAddr = poolAddr ∧ payload.txType = .userWithdraw ∧
      store' = next.queuePayload payload ∧
      rsp.messages = [⟨.submitTx tx, some next.replyId, some payload⟩] := by
  simp only [executeWithdraw, bind_eq_ok, orError_eq_ok, rejectIf_eq_ok,
    Prod.exists, msgWithSudoCallback_eq, pure_eq_ok, Prod.mk.injEq] at h
  obtain ⟨_, hne, p, hp, next, total, hrecords, _, -, _, -, _, _, _, -, rfl,
    rfl⟩ := h
  exact ⟨p, next, total, _, _, hp, hne, hrecords, rfl, rfl, rfl, rfl, rfl,
    rfl⟩

/-- The callbacks of a withdrawal write nothing but unstake records and their
indexes. -/
def SameButUnstakes (store store' : Storage) : Prop :=
  ∃ records indexes, store' =
    { store with
      unstakesOfIndex := records
      unstakesIndexForUser := indexes }

theorem removeUnstakes_store (poolAddr : String) (indexes : List Nat)
    (store : Storage) :
    SameButUnstakes store (indexes.foldl (fun store unstakeIndex =>
      store.removeUnstake poolAddr unstakeIndex) store) := by
  induction indexes generalizing store with
  | nil => exact ⟨_, _, rfl⟩
  | cons unstakeIndex rest ih =>
      obtain ⟨records, indexes, h⟩ := ih (store.removeUnstake poolAddr
        unstakeIndex)
      exact ⟨records, indexes, h⟩

theorem sudoWithdrawCallback_store
    (h : sudoWithdrawCallback store payload = .ok (store', rsp)) :
    SameButUnstakes store store' ∧ rsp.messages = [] := by
  unfold sudoWithdrawCallback at h
  split at h
  · simp only [pure_eq_ok, Prod.mk.injEq] at h
    obtain ⟨rfl, rfl⟩ := h
    refine ⟨?_, rfl⟩
    split
    · exact ⟨_, _, rfl⟩
    · rename_i unstakes _
      obtain ⟨records, indexes, hfold⟩ := removeUnstakes_store
        payload.poolAddr _ store
      rw [hfold]
      exact ⟨records, _, rfl⟩
  · cases h

theorem restoreRecords_store {indexStrs : List String}
    (h : restoreRecords poolAddr store indexStrs = .ok next) :
    SameButUnstakes store next := by
  induction indexStrs generalizing store with
  | nil =>
      cases h
      exact ⟨_, _, rfl⟩
  | cons indexStr rest ih =>
      simp only [restoreRecords, bind_eq_ok] at h
      obtain ⟨_, -, _, -, h⟩ := h
      obtain ⟨records, indexes, rfl⟩ := ih h
      exact ⟨records, indexes, rfl⟩

theorem sudoWithdrawFailedCallback_store
    (h : sudoWithdrawFailedCallback store payload = .ok (store', rsp)) :
    SameButUnstakes store store' ∧ rsp.messages = [] := by
  simp only [sudoWithdrawFailedCallback, bind_eq_ok, pure_eq_ok,
    Prod.mk.injEq] at h
  obtain ⟨_, hrestore, rfl, rfl⟩ := h
  exact ⟨restoreRecords_store hrestore, rfl⟩

end

end NeutronContracts.StakeManager
