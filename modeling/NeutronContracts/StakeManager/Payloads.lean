/-
The texts of the payloads as the callbacks read them: what each callback takes
out of its text, and that it looks at nothing else of it.
-/
import NeutronContracts.StakeManager.EraCycle
import NeutronContracts.StakeManager.Lsm
import NeutronContracts.StakeManager.Validators
import NeutronContracts.StakeManager.Withdrawal

namespace NeutronContracts.StakeManager

open Fallible

/-- What the success callback of a withdrawal reads: the attributes of its
response, and the texts among which it looks for the indexes of the user. -/
structure WithdrawParts where
  amount : String
  user : String
  receiver : String
  indexText : String
  searched : List String

def withdrawParts (message : String) : Option WithdrawParts :=
  match Text.split '_' message with
  | amount :: user :: receiver :: index :: indexes =>
      some
        { amount := amount
          user := user
          receiver := receiver
          indexText := Text.join '_' (index :: indexes)
          searched := user :: receiver :: index :: indexes }
  | _ => none

/-- The indexes that the failure callback of a withdrawal reads. -/
def restoredIndexes (message : String) : Option (List Nat) :=
  ((Text.split '_' message).drop 3).mapM U64.parse

/-- The refund a message announces: the staker and the shares. -/
def stakeLsmRefund (message : String) : Option (String × Coin) :=
  match Text.split '_' message with
  | [staker, _, shareTokenAmountStr, shareTokenIbcDenom, _] => do
      let shareTokenAmount ← Uint128.parse shareTokenAmountStr
      return (staker, ⟨shareTokenIbcDenom, shareTokenAmount⟩)
  | _ => none

/-- The validators whose undelegation the callback of a bond step notes. -/
def unbondedValidators (message : String) : List String :=
  if message ≠ "" then Text.split '_' message else []

/-- The validators that the callback of a replacement writes. -/
def replacedValidators (message : String) : List String :=
  Text.split '_' message

/-- The denominations that both callbacks of a redemption take off. -/
def redeemedDenoms (message : String) : List String := Text.split ',' message

/-! ### The callbacks without their texts -/

/-- The success callback of a withdrawal, from what it reads. -/
def settleWithdraw (store : Storage) (poolAddr : String)
    (parts : WithdrawParts) : Storage × Response :=
  (match store.unstakesIndexForUser (parts.user, poolAddr) with
    | none => store
    | some unstakes =>
        ((unstakes.filter fun unstakeIndex =>
            decide (toString unstakeIndex ∈ parts.searched)).foldl
          (fun store unstakeIndex => store.removeUnstake poolAddr unstakeIndex)
          store).saveUserIndexes parts.user poolAddr
          (unstakes.filter fun unstakeIndex =>
            decide (toString unstakeIndex ∉ parts.searched)),
    Response.new
      |>.addAttribute "action" "withdraw"
      |>.addAttribute "from" parts.user
      |>.addAttribute "pool" poolAddr
      |>.addAttribute "receiver" parts.receiver
      |>.addAttribute "unstake_index_list" parts.indexText
      |>.addAttribute "amount" parts.amount)

/-- The loop of the failure callback of a withdrawal, over the indexes. -/
def restoreIndexes (poolAddr : String) :
    Storage → List Nat → NeutronResult Storage
  | store, [] => return store
  | store, index :: rest => do
      let unstakeInfo ← load (store.unstakesOfIndex (poolAddr, index))
      restoreIndexes poolAddr
        (store.saveUnstake poolAddr index
          { unstakeInfo with status := .idle })
        rest

/-- The success callback of a share stake, from what it reads. -/
def creditShares (store : Storage) (poolAddr staker : String)
    (tokenAmount : Nat) (share : Coin) :
    NeutronResult (Storage × Response) := do
  let poolInfo ← load (store.pools poolAddr)
  let active ← Uint128.add poolInfo.active tokenAmount
  let scaled ← Uint128.mul tokenAmount calBase
  let lsdTokenAmount ← Uint128.div scaled poolInfo.rate
  let total ← Uint128.add poolInfo.totalLsdTokenAmount lsdTokenAmount
  return (store.savePool poolAddr
      { poolInfo with
        active := active
        totalLsdTokenAmount := total
        shareTokens := poolInfo.shareTokens ++ [share] },
    Response.new
      |>.addMessage (.wasmExecute poolInfo.lsdToken
          (.mint staker lsdTokenAmount))
      |>.addAttribute "action" "stake_lsm"
      |>.addAttribute "pool" poolAddr
      |>.addAttribute "staker" staker
      |>.addAttribute "token_amount" (toString tokenAmount)
      |>.addAttribute "lsd_token_amount" (toString lsdTokenAmount))

/-- The refund of a share stake, from what its callback reads. -/
def refundShares (store : Storage) (staker : String) (coin : Coin) :
    Storage × Response :=
  (store, Response.new.addMessage (.bankSend staker [coin]))

/-- The success callback of a bond step, from the validators it reads. -/
def endBond (store : Storage) (env : Env) (poolAddr : String)
    (validators : List String) : NeutronResult (Storage × Response) := do
  let poolInfo ← load (store.pools poolAddr)
  let bond ← Uint128.sub poolInfo.bond poolInfo.eraSnapshot.bond
  let unbond ← Uint128.sub poolInfo.unbond poolInfo.eraSnapshot.unbond
  return ((recordUnbonds poolAddr env.block.seconds store
      validators).savePool poolAddr
      { poolInfo with
        status := .bondEnded
        eraSnapshot :=
          { poolInfo.eraSnapshot with
            lastStepHeight := env.block.height }
        bond := bond
        unbond := unbond },
    Response.new)

/-- The success callback of a replacement, from the validators it reads. -/
def endReplacement (store : Storage) (poolAddr : String)
    (validators : List String) : NeutronResult (Storage × Response) := do
  let poolInfo ← load (store.pools poolAddr)
  return (withoutRedelegation store poolAddr poolInfo validators,
    Response.new)

/-- The callbacks of a redemption, from the denominations they read: both take
them off the list, and the shares are gone on success. -/
def endRedemption (success : Bool) (store : Storage) (poolAddr : String)
    (denoms : List String) : NeutronResult (Storage × Response) := do
  let poolInfo ← load (store.pools poolAddr)
  return (store.savePool poolAddr
    { poolInfo with
      shareTokens :=
        if success then
          poolInfo.shareTokens.filter fun token =>
            decide (token.denom ∉ denoms)
        else poolInfo.shareTokens
      redeemmingShareTokenDenom :=
        poolInfo.redeemmingShareTokenDenom.filter fun denom =>
          decide (denom ∉ denoms) },
    Response.new)

theorem sudoWithdrawCallback_reads (store : Storage) (payload : SudoPayload) :
    sudoWithdrawCallback store payload =
      match withdrawParts payload.message with
      | some parts => .ok (settleWithdraw store payload.poolAddr parts)
      | none => .error (.unsupportedMessage payload.message) := by
  unfold sudoWithdrawCallback withdrawParts
  generalize Text.split '_' payload.message = pieces
  rcases pieces with _ | ⟨_, _ | ⟨_, _ | ⟨_, _ | ⟨_, _⟩⟩⟩⟩ <;> rfl

theorem restoreRecords_reads (poolAddr : String) (store : Storage)
    {indexStrs : List String} {indexes : List Nat}
    (h : indexStrs.mapM U64.parse = some indexes) :
    restoreRecords poolAddr store indexStrs =
      restoreIndexes poolAddr store indexes := by
  induction indexStrs generalizing store indexes with
  | nil =>
      cases h
      rfl
  | cons indexStr rest ih =>
      rw [List.mapM_cons] at h
      obtain ⟨index, hparse, h⟩ := Option.bind_eq_some_iff.mp h
      obtain ⟨others, hrest, h⟩ := Option.bind_eq_some_iff.mp h
      cases h
      rw [restoreRecords, restoreIndexes, hparse]
      change (load (store.unstakesOfIndex (poolAddr, index)) >>= _) = _
      congr 1
      funext info
      exact ih _ hrest

theorem sudoWithdrawFailedCallback_reads (store : Storage)
    (payload : SudoPayload) {indexes : List Nat}
    (h : restoredIndexes payload.message = some indexes) :
    sudoWithdrawFailedCallback store payload = do
      let store ← restoreIndexes payload.poolAddr store indexes
      return (store, Response.new) := by
  rw [sudoWithdrawFailedCallback, restoreRecords_reads _ _ h]

theorem sudoStakeLsmCallback_reads (store : Storage) (payload : SudoPayload) :
    sudoStakeLsmCallback store payload =
      match stakeLsmCredit payload.message with
      | some (staker, tokenAmount, share) =>
          creditShares store payload.poolAddr staker tokenAmount share
      | none => .error (.unsupportedMessage payload.message) := by
  unfold sudoStakeLsmCallback stakeLsmCredit
  generalize Text.split '_' payload.message = pieces
  rcases pieces with _ | ⟨_, _ | ⟨tokenText, _ | ⟨shareText, _ |
    ⟨_, _ | ⟨denom, _ | ⟨_, _⟩⟩⟩⟩⟩⟩
  case cons.cons.cons.cons.cons.nil =>
      dsimp only
      cases Uint128.parse tokenText with
      | none => rfl
      | some tokenAmount => cases Uint128.parse shareText <;> rfl
  all_goals rfl

theorem sudoStakeLsmFailedCallback_reads (store : Storage)
    (payload : SudoPayload) :
    sudoStakeLsmFailedCallback store payload =
      match stakeLsmRefund payload.message with
      | some (staker, coin) =>
          .ok (refundShares store staker coin)
      | none => .error (.unsupportedMessage payload.message) := by
  unfold sudoStakeLsmFailedCallback stakeLsmRefund
  generalize Text.split '_' payload.message = pieces
  rcases pieces with _ | ⟨_, _ | ⟨_, _ | ⟨shareText, _ |
    ⟨_, _ | ⟨_, _ | ⟨_, _⟩⟩⟩⟩⟩⟩
  case cons.cons.cons.cons.cons.nil =>
      dsimp only
      cases Uint128.parse shareText <;> rfl
  all_goals rfl

theorem sudoEraBondCallback_reads (store : Storage) (env : Env)
    (payload : SudoPayload) :
    sudoEraBondCallback store env payload =
      endBond store env payload.poolAddr
        (unbondedValidators payload.message) := by
  have hstore : (if payload.message ≠ "" then
      recordUnbonds payload.poolAddr env.block.seconds store
        (Text.split '_' payload.message)
      else store) = recordUnbonds payload.poolAddr env.block.seconds store
        (unbondedValidators payload.message) := by
    unfold unbondedValidators
    split <;> rfl
  rw [sudoEraBondCallback, endBond]
  simp only [hstore]

theorem sudoUpdateValidatorCallback_reads (store : Storage)
    (payload : SudoPayload) :
    sudoUpdateValidatorCallback store payload =
      endReplacement store payload.poolAddr
        (replacedValidators payload.message) := rfl

theorem sudoRedeemTokenForShareCallback_reads (store : Storage)
    (payload : SudoPayload) :
    sudoRedeemTokenForShareCallback store payload =
      endRedemption true store payload.poolAddr
        (redeemedDenoms payload.message) := rfl

theorem sudoRedeemTokenForShareFailedCallback_reads (store : Storage)
    (payload : SudoPayload) :
    sudoRedeemTokenForShareFailedCallback store payload =
      endRedemption false store payload.poolAddr
        (redeemedDenoms payload.message) := rfl

end NeutronContracts.StakeManager
