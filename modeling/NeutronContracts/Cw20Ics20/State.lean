/-
The storage of the contract that sends tokens over IBC channels: how much of
every denom is outstanding on every channel, which token contracts may be
sent, and the arguments with which a failed payment is undone.
-/
import NeutronContracts.CosmWasm
import NeutronContracts.Lib.Holdings
import NeutronContracts.Lib.Mirror

namespace NeutronContracts.Cw20Ics20

open Fallible Holdings

/-! ### Errors -/

inductive PaymentError
  | noFunds
  | multipleDenoms
  | nonPayable
deriving DecidableEq, Repr

inductive ContractError
  | std (text : String)
  | panic
  | payment (error : PaymentError)
  | notAdmin
  | noSuchChannel (id : String)
  | noFunds
  | amountOverflow
  | invalidIbcVersion (version : String)
  | onlyOrderedChannel
  | insufficientFunds
  | noForeignTokens
  | fromOtherPort (port : String)
  | fromOtherChannel (channel : String)
  | cannotMigrate (previousContract : String)
  | cannotMigrateVersion (previousVersion : String)
  | unknownReplyId (id : Nat)
  | cannotLowerGas
  | notOnAllowList
deriving DecidableEq, Repr

instance : Panics ContractError := ⟨.panic⟩

abbrev Result := Except ContractError

def PaymentError.text : PaymentError → String
  | .noFunds => "No funds sent"
  | .multipleDenoms => "Sent more than one denomination"
  | .nonPayable => "This message does no accept funds"

/-- What an acknowledgement of failure says.  An aborted execution writes
none. -/
def ContractError.text : ContractError → String
  | .std text => text
  | .panic => ""
  | .payment error => error.text
  | .notAdmin => "Caller is not admin"
  | .noSuchChannel id => "Channel doesn't exist: " ++ id
  | .noFunds => "Didn't send any funds"
  | .amountOverflow =>
      "Amount larger than 2**64, not supported by ics20 packets"
  | .invalidIbcVersion version =>
      "Only supports channel with ibc version ics20-1, got " ++ version
  | .onlyOrderedChannel => "Only supports unordered channel"
  | .insufficientFunds => "Insufficient funds to redeem voucher on channel"
  | .noForeignTokens =>
      "Only accepts tokens that originate on this chain, not native tokens " ++
        "of remote chain"
  | .fromOtherPort port =>
      "Parsed port from denom (" ++ port ++ ") doesn't match packet"
  | .fromOtherChannel channel =>
      "Parsed channel from denom (" ++ channel ++ ") doesn't match packet"
  | .cannotMigrate previousContract =>
      "Cannot migrate from different contract type: " ++ previousContract
  | .cannotMigrateVersion previousVersion =>
      "Cannot migrate from unsupported version: " ++ previousVersion
  | .unknownReplyId id =>
      "Got a submessage reply with unknown id: " ++ toString id
  | .cannotLowerGas =>
      "You cannot lower the gas limit for a contract on the allow list"
  | .notOnAllowList =>
      "You can only send cw20 tokens that have been explicitly allowed by " ++
        "governance"

/-- Which texts are addresses; for the others, the error of the chain. -/
structure Api where
  addrError : String → Option String

def Api.isAddr (api : Api) (text : String) : Bool :=
  (api.addrError text).isNone

/-- `addr_validate` returns the text itself when it is an address. -/
def Api.addrValidate (api : Api) (text : String) : Result String :=
  match api.addrError text with
  | some error => .error (.std error)
  | none => .ok text

/-! ### Amounts -/

structure Cw20Coin where
  address : String
  amount : Nat
deriving DecidableEq, Repr

inductive Amount
  | native (coin : Coin)
  | cw20 (coin : Cw20Coin)
deriving DecidableEq, Repr

/-- The mark of the denoms that stand for token contracts. -/
def cw20Mark : List Char := "cw20:".toList

/-- `denom.starts_with("cw20:")` -/
def isCw20 (denom : String) : Bool := cw20Mark.isPrefixOf denom.toList

def Amount.fromParts (denom : String) (amount : Nat) : Amount :=
  if isCw20 denom then .cw20 ⟨String.ofList (denom.toList.drop 5), amount⟩
  else .native ⟨denom, amount⟩

def Amount.denom : Amount → String
  | .native coin => coin.denom
  | .cw20 coin => "cw20:" ++ coin.address

def Amount.amount : Amount → Nat
  | .native coin => coin.amount
  | .cw20 coin => coin.amount

def Amount.isEmpty (amount : Amount) : Bool := decide (amount.amount = 0)

section

variable {address denom : String} {amount : Nat}

theorem toList_cw20 (address : String) :
    ("cw20:" ++ address).toList = cw20Mark ++ address.toList :=
  String.toList_append

theorem drop_cw20 (rest : List Char) : (cw20Mark ++ rest).drop 5 = rest :=
  List.drop_left' rfl

@[simp] theorem isCw20_cw20 (address : String) :
    isCw20 ("cw20:" ++ address) = true := by
  rw [isCw20, toList_cw20, List.isPrefixOf_iff_prefix]
  exact List.prefix_append _ _

theorem eq_of_isCw20 (h : isCw20 denom = true) :
    denom = "cw20:" ++ String.ofList (denom.toList.drop 5) := by
  obtain ⟨rest, hrest⟩ := List.isPrefixOf_iff_prefix.mp h
  rw [← String.toList_inj, toList_cw20, ← hrest, drop_cw20,
    String.toList_ofList]

@[simp] theorem fromParts_cw20 (address : String) (amount : Nat) :
    Amount.fromParts ("cw20:" ++ address) amount = .cw20 ⟨address, amount⟩ := by
  rw [Amount.fromParts, if_pos (isCw20_cw20 address), toList_cw20, drop_cw20,
    String.ofList_toList]

theorem fromParts_native (h : isCw20 denom = false) :
    Amount.fromParts denom amount = .native ⟨denom, amount⟩ := by
  rw [Amount.fromParts, h]
  rfl

@[simp] theorem amount_fromParts (denom : String) (amount : Nat) :
    (Amount.fromParts denom amount).amount = amount := by
  unfold Amount.fromParts
  split <;> rfl

@[simp] theorem denom_fromParts (denom : String) (amount : Nat) :
    (Amount.fromParts denom amount).denom = denom := by
  unfold Amount.fromParts
  split
  case isTrue h => exact (eq_of_isCw20 h).symm
  case isFalse => rfl

end

/-! ### Storage -/

structure IbcEndpoint where
  portId : String
  channelId : String
deriving DecidableEq, Repr

structure ChannelState where
  outstanding : Nat
  totalSent : Nat
deriving DecidableEq, Repr

structure Config where
  defaultTimeout : Nat
  defaultGasLimit : Option Nat
deriving DecidableEq, Repr

/-- The item `ics20_config` holds a configuration of this version, or one of
the versions before 0.12.0; each is read by its own reader only. -/
inductive StoredConfig
  | v1 (defaultTimeout : Nat) (govContract : String)
  | current (config : Config)
deriving DecidableEq, Repr

structure ChannelInfo where
  id : String
  counterpartyEndpoint : IbcEndpoint
  connectionId : String
deriving DecidableEq, Repr

structure AllowInfo where
  gasLimit : Option Nat
deriving DecidableEq, Repr

structure ReplyArgs where
  channel : String
  denom : String
  amount : Nat
deriving DecidableEq, Repr

/-- The name and the version of the contract that wrote the storage. -/
structure ContractVersion where
  contract : String
  version : String
deriving DecidableEq, Repr

structure Storage where
  contractVersion : ContractVersion
  admin : Option String
  config : StoredConfig
  replyArgs : Option ReplyArgs
  channelInfo : Map String ChannelInfo
  /-- `(channel, denom)` -/
  channelState : Map (String × String) ChannelState
  allowList : Map String AllowInfo

/-- `CONFIG.load` -/
def Storage.loadConfig (store : Storage) : Result Config :=
  match store.config with
  | .current config => .ok config
  | .v1 _ _ => .error (.std "unknown field")

def increaseChannelBalance (store : Storage) (channel denom : String)
    (amount : Nat) : Result Storage := do
  let state := (store.channelState (channel, denom)).getD ⟨0, 0⟩
  let outstanding ← Uint128.add state.outstanding amount
  let totalSent ← Uint128.add state.totalSent amount
  return { store with
    channelState :=
      store.channelState.save (channel, denom) ⟨outstanding, totalSent⟩ }

def reduceChannelBalance (store : Storage) (channel denom : String)
    (amount : Nat) : Result Storage := do
  let cur ← orError (store.channelState (channel, denom)) .insufficientFunds
  let outstanding ← subExact .insufficientFunds cur.outstanding amount
  return { store with
    channelState :=
      store.channelState.save (channel, denom)
        { cur with outstanding := outstanding } }

def undoReduceChannelBalance (store : Storage) (channel denom : String)
    (amount : Nat) : Result Storage := do
  let state := (store.channelState (channel, denom)).getD ⟨0, 0⟩
  let outstanding ← Uint128.add state.outstanding amount
  return { store with
    channelState :=
      store.channelState.save (channel, denom)
        { state with outstanding := outstanding } }

/-! ### The balances of the channels -/

/-- How much of a denom is outstanding on a channel. -/
def Storage.outstanding (store : Storage) : Book (String × String) :=
  fun key => ((store.channelState key).map (·.outstanding)).getD 0

/-- How much of a denom was ever sent over a channel. -/
def Storage.totalSent (store : Storage) : Book (String × String) :=
  fun key => ((store.channelState key).map (·.totalSent)).getD 0

/-- The channels and the settings of the contract are the same. -/
structure SameSettings (store store' : Storage) : Prop where
  contractVersion : store'.contractVersion = store.contractVersion
  admin : store'.admin = store.admin
  config : store'.config = store.config
  channelInfo : store'.channelInfo = store.channelInfo
  allowList : store'.allowList = store.allowList

/-- An amount was added under a key. -/
structure Increased (store : Storage) (key : String × String) (amount : Nat)
    (store' : Storage) : Prop where
  settings : SameSettings store store'
  others : ∀ other, other ≠ key →
    store'.channelState other = store.channelState other
  bounded : store.outstanding key + amount < Uint128.limit
  outstanding : store'.outstanding = add store.outstanding key amount
  totalSent : store'.totalSent = add store.totalSent key amount

/-- An amount that was outstanding under a key was taken back. -/
structure Reduced (store : Storage) (key : String × String) (amount : Nat)
    (store' : Storage) : Prop where
  settings : SameSettings store store'
  known : ∀ other, (store'.channelState other).isSome =
    (store.channelState other).isSome
  present : (store.channelState key).isSome = true
  covered : amount ≤ store.outstanding key
  outstanding : store'.outstanding = sub store.outstanding key amount
  totalSent : store'.totalSent = store.totalSent

section

variable {store store' reduced : Storage} {channel denom : String}
  {amount : Nat} {key : String × String} {api : Api} {text addr : String}

@[simp] theorem Api.addrValidate_eq_ok :
    api.addrValidate text = .ok addr ↔
      api.isAddr text = true ∧ addr = text := by
  unfold Api.addrValidate Api.isAddr
  cases api.addrError text with
  | none => simp [eq_comm]
  | some error => simp

theorem SameSettings.trans {middle : Storage} (h : SameSettings store middle)
    (h' : SameSettings middle store') : SameSettings store store' :=
  ⟨h'.1.trans h.1, h'.2.trans h.2, h'.3.trans h.3, h'.4.trans h.4,
    h'.5.trans h.5⟩

theorem outstanding_congr (h : store'.channelState = store.channelState) :
    store'.outstanding = store.outstanding := by
  unfold Storage.outstanding
  rw [h]

theorem outstanding_of_state {state : ChannelState}
    (h : store.channelState key = some state) :
    store.outstanding key = state.outstanding := by
  simp [Storage.outstanding, h]

/-- Only the outstanding amount under the key is written. -/
theorem outstanding_save {state : ChannelState}
    (h : store'.channelState = store.channelState.save key state) :
    store'.outstanding =
      Function.update store.outstanding key state.outstanding := by
  funext other
  simp only [Storage.outstanding, h, Map.save_apply, Function.update_apply]
  split <;> rfl

theorem totalSent_save {state : ChannelState}
    (h : store'.channelState = store.channelState.save key state) :
    store'.totalSent =
      Function.update store.totalSent key state.totalSent := by
  funext other
  simp only [Storage.totalSent, h, Map.save_apply, Function.update_apply]
  split <;> rfl

/-- A transfer adds to what is outstanding and to what was ever sent. -/
theorem increaseChannelBalance_ok
    (h : increaseChannelBalance store channel denom amount = .ok store') :
    Increased store (channel, denom) amount store' := by
  simp only [increaseChannelBalance, bind_eq_ok, addBelow_eq_ok,
    pure_eq_ok] at h
  obtain ⟨_, ⟨hbound, rfl⟩, _, ⟨-, rfl⟩, rfl⟩ := h
  have hold : store.outstanding (channel, denom) =
      ((store.channelState (channel, denom)).getD ⟨0, 0⟩).outstanding := by
    rw [Storage.outstanding]
    cases store.channelState (channel, denom) <;> rfl
  refine ⟨⟨rfl, rfl, rfl, rfl, rfl⟩,
    fun other hother => Map.save_of_ne hother, hold ▸ hbound, ?_, ?_⟩
  · rw [outstanding_save rfl, add, hold]
  · rw [totalSent_save rfl, add, Storage.totalSent]
    cases store.channelState (channel, denom) <;> rfl

/-- What is taken back was outstanding. -/
theorem reduceChannelBalance_ok
    (h : reduceChannelBalance store channel denom amount = .ok store') :
    Reduced store (channel, denom) amount store' := by
  simp only [reduceChannelBalance, bind_eq_ok, orError_eq_ok, subExact_eq_ok,
    pure_eq_ok] at h
  obtain ⟨cur, hcur, _, ⟨hle, rfl⟩, rfl⟩ := h
  refine ⟨⟨rfl, rfl, rfl, rfl, rfl⟩, fun other => ?_, by simp [hcur],
    ?_, ?_, ?_⟩
  · by_cases hother : other = (channel, denom)
    · simp [hother, hcur]
    · simp [Map.save_of_ne hother]
  · rwa [outstanding_of_state hcur]
  · rw [outstanding_save rfl, sub, outstanding_of_state hcur]
  · rw [totalSent_save rfl]
    have hsame : store.totalSent (channel, denom) = cur.totalSent := by
      simp [Storage.totalSent, hcur]
    rw [← hsame, Function.update_eq_self]

/-- The arguments of a reply do not belong to the balances. -/
theorem Reduced.saveReplyArgs (h : Reduced store key amount store')
    (args : Option ReplyArgs) :
    Reduced store key amount { store' with replyArgs := args } := by
  obtain ⟨hsettings, hknown, hpresent, hcovered, hout, htotal⟩ := h
  exact ⟨⟨hsettings.1, hsettings.2, hsettings.3, hsettings.4, hsettings.5⟩,
    hknown, hpresent, hcovered, hout, htotal⟩

/-- What is outstanding can be taken back. -/
theorem reduceChannelBalance_total (hamount : 0 < amount)
    (hle : amount ≤ store.outstanding (channel, denom)) :
    ∃ store', reduceChannelBalance store channel denom amount =
      .ok store' := by
  cases hcur : store.channelState (channel, denom) with
  | none => simp [Storage.outstanding, hcur] at hle; omega
  | some cur =>
      rw [outstanding_of_state hcur] at hle
      simp [reduceChannelBalance, hcur, orError, subExact, hle, bind,
        Except.bind, pure, Except.pure]

/-- A reduction that is undone leaves the balances as they were. -/
theorem undoReduceChannelBalance_ok {args : Option ReplyArgs}
    (hreduce : reduceChannelBalance store channel denom amount = .ok reduced)
    (hundo : undoReduceChannelBalance { reduced with replyArgs := args }
      channel denom amount = .ok store') :
    store' = { store with replyArgs := args } := by
  simp only [reduceChannelBalance, bind_eq_ok, orError_eq_ok, subExact_eq_ok,
    pure_eq_ok] at hreduce
  obtain ⟨cur, hcur, _, ⟨hle, rfl⟩, rfl⟩ := hreduce
  simp only [undoReduceChannelBalance, bind_eq_ok, addBelow_eq_ok, pure_eq_ok,
    Map.save_self, Option.getD_some] at hundo
  obtain ⟨_, ⟨-, rfl⟩, rfl⟩ := hundo
  have hback : (store.channelState.save (channel, denom)
        ⟨cur.outstanding - amount, cur.totalSent⟩).save (channel, denom)
      ⟨cur.outstanding - amount + amount, cur.totalSent⟩ =
        store.channelState := by
    rw [Nat.sub_add_cancel hle]
    funext other
    by_cases hother : other = (channel, denom)
    · rw [hother, Map.save_self, hcur]
    · rw [Map.save_of_ne hother, Map.save_of_ne hother]
  rw [hback]

/-- A reduction can be undone. -/
theorem undoReduceChannelBalance_total
    (hreduce : reduceChannelBalance store channel denom amount = .ok reduced)
    (hbound : store.outstanding (channel, denom) < Uint128.limit)
    (args : Option ReplyArgs) :
    ∃ store', undoReduceChannelBalance { reduced with replyArgs := args }
      channel denom amount = .ok store' := by
  simp only [reduceChannelBalance, bind_eq_ok, orError_eq_ok, subExact_eq_ok,
    pure_eq_ok] at hreduce
  obtain ⟨cur, hcur, _, ⟨hle, rfl⟩, rfl⟩ := hreduce
  rw [outstanding_of_state hcur] at hbound
  have hadd : (Uint128.add (cur.outstanding - amount) amount : Result Nat) =
      .ok cur.outstanding :=
    addBelow_eq_ok.mpr ⟨by omega, by omega⟩
  simp [undoReduceChannelBalance, hadd, bind, Except.bind, pure, Except.pure]

end

end NeutronContracts.Cw20Ics20
