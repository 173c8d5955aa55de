/-
The entry points of the contract that users and its admin call, its migration
and its queries.
-/
import NeutronContracts.Cw20Ics20.Ibc

namespace NeutronContracts.Cw20Ics20

open Fallible

def contractName : String := "crates.io:cw20-ics20"

def contractVersion : String := "1.1.2"

structure AllowMsg where
  contract : String
  gasLimit : Option Nat

structure InitMsg where
  defaultTimeout : Nat
  govContract : String
  allowlist : List AllowMsg
  defaultGasLimit : Option Nat

structure TransferMsg where
  channel : String
  remoteAddress : String
  timeout : Option Nat
  memo : Option String
deriving DecidableEq, Repr

/-- `msg` is what `from_json` makes of the bytes that come with the tokens. -/
structure Cw20ReceiveMsg where
  sender : String
  amount : Nat
  msg : Except String TransferMsg

inductive ExecuteMsg
  | receive (wrapper : Cw20ReceiveMsg)
  | transfer (msg : TransferMsg)
  | allow (allow : AllowMsg)
  | updateAdmin (admin : String)

/-! ### Instantiation -/

/-- The loop over the allow list. -/
def saveAllowlist (api : Api) :
    Map String AllowInfo → List AllowMsg → Result (Map String AllowInfo)
  | allowList, [] => return allowList
  | allowList, allowed :: rest => do
      let contract ← api.addrValidate allowed.contract
      saveAllowlist api (allowList.save contract ⟨allowed.gasLimit⟩) rest

def instantiate (api : Api) (msg : InitMsg) : Result Storage := do
  let admin ← api.addrValidate msg.govContract
  let allowList ← saveAllowlist api Map.empty msg.allowlist
  return {
    contractVersion := ⟨contractName, contractVersion⟩
    admin := some admin
    config := .current ⟨msg.defaultTimeout, msg.defaultGasLimit⟩
    replyArgs := none
    channelInfo := Map.empty
    channelState := Map.empty
    allowList := allowList }

/-! ### Transfers -/

/-- `cw_utils::one_coin` -/
def oneCoin (info : MessageInfo) : Result Coin :=
  match info.funds with
  | [] => .error (.payment .noFunds)
  | [coin] =>
      if coin.amount = 0 then .error (.payment .noFunds) else .ok coin
  | _ => .error (.payment .multipleDenoms)

/-- `cw_utils::nonpayable` -/
def nonpayable (info : MessageInfo) : Result Unit :=
  rejectIf (info.funds ≠ []) (.payment .nonPayable)

/-- Token contracts must be on the allow list, unless there is a default gas
limit. -/
def checkAllowed (api : Api) (store : Storage) (config : Config) :
    Amount → Result Unit
  | .cw20 coin => do
      let addr ← api.addrValidate coin.address
      rejectIf (config.defaultGasLimit = none ∧ store.allowList addr = none)
        .notOnAllowList
  | .native _ => return ()

/-- `block.time.plus_seconds` -/
def plusSeconds (time seconds : Nat) : Result Nat := do
  let nanos ← U64.mul seconds 1000000000
  U64.add time nanos

def executeTransfer (api : Api) (store : Storage) (block : BlockInfo)
    (msg : TransferMsg) (amount : Amount) (sender : String) :
    Result (Storage × Response) := do
  rejectIf (amount.isEmpty = true) .noFunds
  rejectIf (store.channelInfo msg.channel = none) (.noSuchChannel msg.channel)
  let config ← store.loadConfig
  checkAllowed api store config amount
  let timeoutDelta := msg.timeout.getD config.defaultTimeout
  let timeout ← plusSeconds block.time timeoutDelta
  let packet :=
    (Ics20Packet.new amount.amount amount.denom sender
      msg.remoteAddress).withMemo msg.memo
  packet.validate
  let store ←
    increaseChannelBalance store msg.channel amount.denom amount.amount
  return (store,
    { messages := [⟨.sendPacket msg.channel packet timeout, none, none⟩]
      attributes :=
        [("action", "transfer"), ("sender", packet.sender),
          ("receiver", packet.receiver), ("denom", packet.denom),
          ("amount", toString packet.amount)] })

def executeReceive (api : Api) (store : Storage) (block : BlockInfo)
    (info : MessageInfo) (wrapper : Cw20ReceiveMsg) :
    Result (Storage × Response) := do
  nonpayable info
  let msg ← wrapper.msg.mapError .std
  let amount := Amount.cw20 ⟨info.sender, wrapper.amount⟩
  let sender ← api.addrValidate wrapper.sender
  executeTransfer api store block msg amount sender

/-! ### Administration -/

/-- `ADMIN.assert_admin` -/
def assertAdmin (store : Storage) (caller : String) : Result Unit :=
  rejectIf (store.admin ≠ some caller) .notAdmin

/-- The gas limit of a contract on the list is not lowered; no limit counts as
the highest. -/
def updateAllow (old : Option AllowInfo) (gasLimit : Option Nat) :
    Result AllowInfo :=
  match old with
  | some old =>
      match old.gasLimit, gasLimit with
      | none, some _ => .error .cannotLowerGas
      | some old, some new =>
          if new < old then .error .cannotLowerGas else .ok ⟨some new⟩
      | _, none => .ok ⟨none⟩
  | none => .ok ⟨gasLimit⟩

def executeAllow (api : Api) (store : Storage) (info : MessageInfo)
    (allow : AllowMsg) : Result (Storage × Response) := do
  assertAdmin store info.sender
  let contract ← api.addrValidate allow.contract
  let allowed ← updateAllow (store.allowList contract) allow.gasLimit
  let gas := (allow.gasLimit.map toString).getD "None"
  return ({ store with allowList := store.allowList.save contract allowed },
    { messages := []
      attributes :=
        [("action", "allow"), ("contract", allow.contract),
          ("gas_limit", gas)] })

/-- `ADMIN.execute_update_admin` -/
def executeUpdateAdmin (api : Api) (store : Storage) (info : MessageInfo)
    (admin : String) : Result (Storage × Response) := do
  let admin ← api.addrValidate admin
  assertAdmin store info.sender
  return ({ store with admin := some admin },
    { messages := []
      attributes :=
        [("action", "update_admin"), ("admin", admin),
          ("sender", info.sender)] })

def execute (api : Api) (store : Storage) (block : BlockInfo)
    (info : MessageInfo) : ExecuteMsg → Result (Storage × Response)
  | .receive msg => executeReceive api store block info msg
  | .transfer msg => do
      let coin ← oneCoin info
      executeTransfer api store block msg (.native coin) info.sender
  | .allow allow => executeAllow api store info allow
  | .updateAdmin admin => executeUpdateAdmin api store info admin

/-! ### Migration -/

/-- What the contract owns: coins of the bank, and tokens of the contracts that
answer the query. -/
structure Balances where
  bank : String → Nat
  cw20 : String → Except String Nat

/-- The walks of the storage over the channels and over the denoms of each. -/
structure Walk (store : Storage) where
  channels : store.channelInfo.Range
  states : ∀ channel, (store.channelState.under channel).Range

def Balances.query (balances : Balances) : Amount → Result Nat
  | .native coin => .ok (balances.bank coin.denom)
  | .cw20 coin => (balances.cw20 coin.address).mapError .std

def updateDenom (balances : Balances) (store : Storage) (channel : String)
    (denom : String) (state : ChannelState) : Result Storage := do
  let balance ← balances.query (.fromParts denom state.outstanding)
  let diff ← Uint128.sub balance state.outstanding
  if diff = 0 then return store
  else do
    let outstanding ← Uint128.add state.outstanding diff
    let totalSent ← Uint128.add state.totalSent diff
    return { store with
      channelState :=
        store.channelState.save (channel, denom) ⟨outstanding, totalSent⟩ }

/-- The loop over the denoms of a channel. -/
def updateDenoms (balances : Balances) (channel : String) :
    Storage → List (String × ChannelState) → Result Storage
  | store, [] => return store
  | store, (denom, state) :: rest => do
      let store ← updateDenom balances store channel denom state
      updateDenoms balances channel store rest

/-- `channels` are the keys of the channels, `states` the entries of each. -/
def updateBalances (balances : Balances) (channels : List String)
    (states : String → List (String × ChannelState)) (store : Storage) :
    Result Storage :=
  match channels with
  | [] => return store
  | [channel] => updateDenoms balances channel store (states channel)
  | _ => .error (.cannotMigrate "multiple channels open")

/-- The conversion of the storage of the versions before 0.12.0. -/
def fromV1 (store : Storage) : Result Storage :=
  match store.config with
  | .v1 defaultTimeout govContract =>
      return { store with
        admin := some govContract
        config := .current ⟨defaultTimeout, none⟩ }
  | .current _ => .error (.std "missing field")

/-- Convert the storage, when its version needs it. -/
def convertIf (needed : Prop) [Decidable needed]
    (convert : Storage → Result Storage) (store : Storage) : Result Storage :=
  if needed then convert store else return store

structure MigrateMsg where
  defaultGasLimit : Option Nat

/-- The default gas limit is set, when the message has one. -/
def setDefaultGas (store : Storage) (msg : MigrateMsg) : Result Storage :=
  match msg.defaultGasLimit with
  | some gasLimit => do
      let config ← store.loadConfig
      return { store with
        config := .current { config with defaultGasLimit := some gasLimit } }
  | none => return store

section

variable {V : Type} [LinearOrder V]

/-- `parse` reads a version number. -/
def migrate (parse : String → Except String V) (balances : Balances)
    (store : Storage) (walk : Walk store) (msg : MigrateMsg) :
    Result Storage := do
  let version ← (parse contractVersion).mapError .std
  let stored := store.contractVersion
  let storageVersion ← (parse stored.version).mapError .std
  rejectIf (contractName ≠ stored.contract) (.cannotMigrate stored.contract)
  rejectIf (version < storageVersion) (.cannotMigrateVersion stored.version)
  let minVersion ← (parse "0.11.1").mapError .std
  rejectIf (storageVersion < minVersion) (.cannotMigrateVersion stored.version)
  let version2 ← (parse "0.12.0-alpha1").mapError .std
  let store ← convertIf (storageVersion ≤ version2) fromV1 store
  let version3 ← (parse "0.13.0").mapError .std
  let store ← convertIf (storageVersion ≤ version3)
    (updateBalances balances (walk.channels.list.map Prod.fst)
      fun channel => (walk.states channel).list) store
  let store ← setDefaultGas store msg
  if storageVersion < version then
    return { store with
      contractVersion := ⟨contractName, contractVersion⟩ }
  else return store

end

/-! ### Queries -/

structure ChannelResponse where
  info : ChannelInfo
  balances : List Amount
  totalSent : List Amount

def queryList (store : Storage) (range : store.channelInfo.Range) :
    List ChannelInfo :=
  range.list.map Prod.snd

def queryChannel (store : Storage) (id : String)
    (range : (store.channelState.under id).Range) : Result ChannelResponse := do
  let info ←
    orError (store.channelInfo id) (.std "cw20_ics20::state::ChannelInfo")
  return {
    info := info
    balances := range.list.map fun (denom, v) => .fromParts denom v.outstanding
    totalSent := range.list.map fun (denom, v) => .fromParts denom v.totalSent }

structure AllowedInfo where
  contract : String
  gasLimit : Option Nat
deriving DecidableEq, Repr

structure AllowedResponse where
  isAllowed : Bool
  gasLimit : Option Nat
deriving DecidableEq, Repr

def queryAllowed (api : Api) (store : Storage) (contract : String) :
    Result AllowedResponse := do
  let addr ← api.addrValidate contract
  return match store.allowList addr with
    | none => ⟨false, none⟩
    | some a => ⟨true, a.gasLimit⟩

def maxLimit : Nat := 30

def defaultLimit : Nat := 10

/-- `cw_utils::maybe_addr` -/
def maybeAddr (api : Api) (human : Option String) : Result (Option String) :=
  match human with
  | some text => some <$> api.addrValidate text
  | none => return none

def listAllowed (api : Api) (store : Storage) (range : store.allowList.Range)
    (startAfter : Option String) (limit : Option Nat) :
    Result (List AllowedInfo) := do
  let limit := min (limit.getD defaultLimit) maxLimit
  let start ← maybeAddr api startAfter
  return (range.page start limit).map fun (addr, allow) =>
    ⟨addr, allow.gasLimit⟩

/-! ### What a message does -/

/-- Gas limits by how much they allow; no limit is the highest. -/
def GasLe : Option Nat → Option Nat → Prop
  | _, none => True
  | none, some _ => False
  | some old, some new => old ≤ new

/-- Whatever may be sent by the first storage may be sent by the second, and a
contract on the list with no less gas. -/
structure Admits (store store' : Storage) : Prop where
  listed : ∀ contract info, store.allowList contract = some info →
    ∃ info', store'.allowList contract = some info' ∧
      GasLe info.gasLimit info'.gasLimit
  config : ∀ config, store.config = .current config →
    ∃ config', store'.config = .current config' ∧
      (config.defaultGasLimit ≠ none → config'.defaultGasLimit ≠ none)

section

variable {api : Api} {store middle store' : Storage} {block : BlockInfo}
  {info : MessageInfo} {rsp : Response} {amount : Amount} {sender : String}

theorem GasLe.refl (gas : Option Nat) : GasLe gas gas := by
  cases gas with
  | none => trivial
  | some limit => exact le_refl limit

theorem GasLe.trans {a b c : Option Nat} (hab : GasLe a b) (hbc : GasLe b c) :
    GasLe a c := by
  cases c with
  | none => trivial
  | some z =>
      cases b with
      | none => cases hbc
      | some y =>
          cases a with
          | none => cases hab
          | some x => exact Nat.le_trans hab hbc

theorem Admits.trans (h : Admits store middle) (h' : Admits middle store') :
    Admits store store' := by
  refine ⟨fun contract info hinfo => ?_, fun config hconfig => ?_⟩
  · obtain ⟨info', hinfo', hle⟩ := h.listed contract info hinfo
    obtain ⟨info'', hinfo'', hle'⟩ := h'.listed contract info' hinfo'
    exact ⟨info'', hinfo'', hle.trans hle'⟩
  · obtain ⟨config', hconfig', hgas⟩ := h.config config hconfig
    obtain ⟨config'', hconfig'', hgas'⟩ := h'.config config' hconfig'
    exact ⟨config'', hconfig'', hgas' ∘ hgas⟩

theorem Admits.of_eq (hallow : store'.allowList = store.allowList)
    (hconfig : store'.config = store.config) : Admits store store' := by
  refine ⟨fun contract info hinfo => ?_, fun config h => ?_⟩
  · exact ⟨info, by rw [hallow, hinfo], GasLe.refl _⟩
  · exact ⟨config, by rw [hconfig, h], id⟩

theorem SameSettings.admits (h : SameSettings store store') :
    Admits store store' :=
  Admits.of_eq h.allowList h.config

theorem loadConfig_eq_ok {config : Config} :
    store.loadConfig = .ok config ↔ store.config = .current config := by
  unfold Storage.loadConfig
  cases store.config <;> simp

/-- What can be paid out can still be paid out. -/
theorem Admits.checkGasLimit (h : Admits store store') {gas : Option Nat}
    (hgas : checkGasLimit api store amount = .ok gas) :
    ∃ gas', checkGasLimit api store' amount = .ok gas' := by
  cases amount with
  | native coin => exact ⟨none, rfl⟩
  | cw20 coin =>
      simp only [Cw20Ics20.checkGasLimit, bind_eq_ok, Api.addrValidate_eq_ok]
        at hgas
      obtain ⟨_, ⟨haddr, rfl⟩, hgas⟩ := hgas
      have hvalid : api.addrValidate coin.address = .ok coin.address :=
        Api.addrValidate_eq_ok.mpr ⟨haddr, rfl⟩
      simp only [Cw20Ics20.checkGasLimit, hvalid, bind, Except.bind]
      split at hgas
      case h_1 allow hallow =>
          obtain ⟨allow', hallow', -⟩ := h.listed _ _ hallow
          exact ⟨allow'.gasLimit, by rw [hallow']; rfl⟩
      case h_2 hnone =>
          simp only [bind_eq_ok, loadConfig_eq_ok] at hgas
          obtain ⟨config, hconfig, hgas⟩ := hgas
          obtain ⟨config', hconfig', hdefault⟩ := h.config config hconfig
          cases hbase : config.defaultGasLimit with
          | none => simp [hbase] at hgas
          | some base =>
              obtain ⟨base', hbase'⟩ :=
                Option.ne_none_iff_exists'.mp (hdefault (by simp [hbase]))
              cases hlisted : store'.allowList coin.address with
              | some allow => exact ⟨allow.gasLimit, rfl⟩
              | none =>
                  refine ⟨some base', ?_⟩
                  simp [loadConfig_eq_ok.mpr hconfig', hbase', pure,
                    Except.pure]

/-- The query allows a contract with the gas limit of its entry. -/
theorem queryAllowed_allowed {contract : String} {gas : Option Nat} :
    queryAllowed api store contract = .ok ⟨true, gas⟩ ↔
      api.isAddr contract = true ∧ store.allowList contract = some ⟨gas⟩ := by
  simp only [queryAllowed, bind_eq_ok, Api.addrValidate_eq_ok, pure_eq_ok]
  constructor
  · rintro ⟨_, ⟨haddr, rfl⟩, hanswer⟩
    split at hanswer
    · cases hanswer
    next info hlisted =>
      cases hanswer
      exact ⟨haddr, hlisted⟩
  · rintro ⟨haddr, hlisted⟩
    exact ⟨contract, ⟨haddr, rfl⟩, by rw [hlisted]⟩

/-- What is allowed stays allowed, with no less gas. -/
theorem Admits.queryAllowed (h : Admits store store') {contract : String}
    {gas : Option Nat}
    (hallowed : queryAllowed api store contract = .ok ⟨true, gas⟩) :
    ∃ gas', Cw20Ics20.queryAllowed api store' contract = .ok ⟨true, gas'⟩ ∧
      GasLe gas gas' := by
  obtain ⟨haddr, hlisted⟩ := queryAllowed_allowed.mp hallowed
  obtain ⟨⟨gas'⟩, hlisted', hle⟩ := h.listed contract _ hlisted
  exact ⟨gas', queryAllowed_allowed.mpr ⟨haddr, hlisted'⟩, hle⟩

/-- The tokens of a contract that is allowed are paid out with that gas. -/
theorem checkGasLimit_of_allowed {contract : String} {gas : Option Nat}
    (hallowed : queryAllowed api store contract = .ok ⟨true, gas⟩) (n : Nat) :
    checkGasLimit api store (.cw20 ⟨contract, n⟩) = .ok gas := by
  obtain ⟨haddr, hlisted⟩ := queryAllowed_allowed.mp hallowed
  have hvalid : api.addrValidate contract = .ok contract :=
    Api.addrValidate_eq_ok.mpr ⟨haddr, rfl⟩
  simp [checkGasLimit, hvalid, hlisted, bind, Except.bind, pure, Except.pure]

/-- A transfer that is accepted sends one packet for its amount. -/
structure Transferred (api : Api) (store : Storage) (channel : String)
    (amount : Amount) (sender : String) (store' : Storage) (rsp : Response) :
    Prop where
  positive : 0 < amount.amount
  known : store.channelInfo channel ≠ none
  payable : ∃ gas, checkGasLimit api store amount = .ok gas
  increased : increaseChannelBalance store channel amount.denom amount.amount =
    .ok store'
  packet : ∃ data timeout,
    rsp.messages = [⟨.sendPacket channel data timeout, none, none⟩] ∧
      data.denom = amount.denom ∧ data.amount = amount.amount ∧
      data.sender = sender ∧ data.amount < U64.limit

/-- A token that may be sent can be paid out. -/
theorem checkAllowed_payable {config : Config}
    (hconfig : store.loadConfig = .ok config)
    (h : checkAllowed api store config amount = .ok ()) :
    ∃ gas, checkGasLimit api store amount = .ok gas := by
  cases amount with
  | native coin => exact ⟨none, rfl⟩
  | cw20 coin =>
      simp only [checkAllowed, bind_eq_ok, Api.addrValidate_eq_ok,
        rejectIf_eq_ok] at h
      obtain ⟨_, ⟨haddr, rfl⟩, hallowed⟩ := h
      have hvalid : api.addrValidate coin.address = .ok coin.address :=
        Api.addrValidate_eq_ok.mpr ⟨haddr, rfl⟩
      simp only [checkGasLimit, hvalid, bind, Except.bind]
      cases hlisted : store.allowList coin.address with
      | some allow => exact ⟨allow.gasLimit, rfl⟩
      | none =>
          cases hbase : config.defaultGasLimit with
          | none => exact absurd ⟨hbase, hlisted⟩ hallowed
          | some base => exact ⟨some base, by simp [hconfig, hbase, pure,
              Except.pure]⟩

theorem executeTransfer_ok {msg : TransferMsg}
    (h : executeTransfer api store block msg amount sender =
      .ok (store', rsp)) :
    Transferred api store msg.channel amount sender store' rsp := by
  simp only [executeTransfer, bind_eq_ok, rejectIf_eq_ok, pure_eq_ok,
    Prod.mk.injEq, Ics20Packet.validate] at h
  obtain ⟨_, hpositive, _, hknown, config, hconfig, _, hallowed, timeout, -,
    _, hbound, _, hincrease, rfl, rfl⟩ := h
  refine ⟨?_, hknown, checkAllowed_payable hconfig hallowed, hincrease,
    _, timeout, rfl, rfl, rfl, rfl, by simpa using hbound⟩
  simpa [Amount.isEmpty, Nat.pos_iff_ne_zero] using hpositive

theorem executeReceive_ok {wrapper : Cw20ReceiveMsg}
    (h : executeReceive api store block info wrapper = .ok (store', rsp)) :
    ∃ channel, Transferred api store channel
      (.cw20 ⟨info.sender, wrapper.amount⟩) wrapper.sender store' rsp := by
  simp only [executeReceive, bind_eq_ok, mapError_eq_ok,
    Api.addrValidate_eq_ok] at h
  obtain ⟨_, -, msg, -, _, ⟨-, rfl⟩, h⟩ := h
  exact ⟨msg.channel, executeTransfer_ok h⟩

theorem updateAllow_ok {old new : AllowInfo} {gasLimit : Option Nat}
    (h : updateAllow (some old) gasLimit = .ok new) :
    GasLe old.gasLimit new.gasLimit := by
  obtain ⟨limit⟩ := old
  cases gasLimit with
  | none =>
      have hnew : (⟨none⟩ : AllowInfo) = new := by
        cases limit <;> exact Except.ok.inj h
      rw [← hnew]
      trivial
  | some raised =>
      cases limit with
      | none => cases h
      | some limit =>
          simp only [updateAllow] at h
          split at h
          · cases h
          · next hle =>
              obtain rfl := Except.ok.inj h
              exact Nat.le_of_not_lt hle

/-- What a message that is accepted does. -/
inductive Executed (api : Api) (store : Storage) (info : MessageInfo) :
    Storage → Response → Prop
  /-- coins or tokens that came with the message are sent -/
  | transferred {store' : Storage} {rsp : Response} (channel sender : String)
      (amount : Amount)
      (htransfer : Transferred api store channel amount sender store' rsp)
      (hfunds : amount = .cw20 ⟨info.sender, amount.amount⟩ ∨
        ∃ coin, info.funds = [coin] ∧ amount = .native coin) :
      Executed api store info store' rsp
  /-- the admin changes the settings -/
  | administered {store' : Storage} {rsp : Response}
      (hadmin : store.admin = some info.sender)
      (hadmits : Admits store store')
      (hversion : store'.contractVersion = store.contractVersion)
      (hstate : store'.channelState = store.channelState)
      (hmessages : rsp.messages = []) :
      Executed api store info store' rsp

theorem execute_ok {msg : ExecuteMsg}
    (h : execute api store block info msg = .ok (store', rsp)) :
    Executed api store info store' rsp := by
  cases msg with
  | receive wrapper =>
      obtain ⟨channel, htransfer⟩ := executeReceive_ok h
      exact .transferred channel _ _ htransfer (.inl rfl)
  | transfer msg =>
      simp only [execute, bind_eq_ok] at h
      obtain ⟨coin, hcoin, h⟩ := h
      refine .transferred msg.channel _ _ (executeTransfer_ok h)
        (.inr ⟨coin, ?_, rfl⟩)
      unfold oneCoin at hcoin
      split at hcoin
      · cases hcoin
      · next funds hfunds =>
          split at hcoin
          · cases hcoin
          · obtain rfl := Except.ok.inj hcoin
            exact hfunds
      · cases hcoin
  | allow allow =>
      simp only [execute, executeAllow, assertAdmin, bind_eq_ok,
        rejectIf_eq_ok, Decidable.not_not, Api.addrValidate_eq_ok, pure_eq_ok,
        Prod.mk.injEq] at h
      obtain ⟨_, hadmin, _, ⟨-, rfl⟩, allowed, hallowed, rfl, rfl⟩ := h
      refine .administered hadmin ⟨?_, fun config hconfig =>
        ⟨config, hconfig, id⟩⟩ rfl rfl rfl
      intro contract old hold
      by_cases heq : contract = allow.contract
      · subst heq
        rw [hold] at hallowed
        exact ⟨allowed, Map.save_self, updateAllow_ok hallowed⟩
      · exact ⟨old, (Map.save_of_ne heq).trans hold, GasLe.refl _⟩
  | updateAdmin admin =>
      simp only [execute, executeUpdateAdmin, assertAdmin, bind_eq_ok,
        rejectIf_eq_ok, Decidable.not_not, Api.addrValidate_eq_ok, pure_eq_ok,
        Prod.mk.injEq] at h
      obtain ⟨_, ⟨-, rfl⟩, _, hadmin, rfl, rfl⟩ := h
      exact .administered hadmin (Admits.of_eq rfl rfl) rfl rfl rfl

/-- From a version after 0.13.0 a migration sets the default gas limit only. -/
theorem migrate_newer {V : Type} [LinearOrder V]
    {parse : String → Except String V} {balances : Balances}
    {walk : Walk store} {msg : MigrateMsg} {old : V}
    (hold : parse store.contractVersion.version = .ok old)
    (hnewer : ∀ text ∈ ["0.12.0-alpha1", "0.13.0"], ∀ legacy,
      parse text = .ok legacy → legacy < old)
    (h : migrate parse balances store walk msg = .ok store') :
    ∃ version set, parse contractVersion = .ok version ∧ old ≤ version ∧
      setDefaultGas store msg = .ok set ∧
      store' = if old < version then
        { set with contractVersion := ⟨contractName, contractVersion⟩ }
      else set := by
  simp only [migrate, hold, bind_eq_ok, mapError_eq_ok, Except.ok.injEq,
    exists_eq_left', rejectIf_eq_ok] at h
  obtain ⟨version, hcurrent, _, -, _, hle, _, -, _, -, version2, hversion2,
    store2, hstore2, version3, hversion3, store3, hstore3, set, hset, h⟩ := h
  rw [convertIf, if_neg (not_le_of_gt (hnewer _ (by simp) _ hversion2)),
    pure_eq_ok] at hstore2
  rw [convertIf, if_neg (not_le_of_gt (hnewer _ (by simp) _ hversion3)),
    pure_eq_ok] at hstore3
  subst hstore2 hstore3
  refine ⟨version, set, hcurrent, le_of_not_gt hle, hset, ?_⟩
  split at h
  · next hlt => rw [if_pos hlt, pure_eq_ok.mp h]
  · next hnot => rw [if_neg hnot, pure_eq_ok.mp h]

theorem setDefaultGas_ok {msg : MigrateMsg}
    (h : setDefaultGas store msg = .ok store') :
    store'.channelState = store.channelState ∧
      store'.contractVersion = store.contractVersion ∧
      Admits store store' := by
  unfold setDefaultGas at h
  split at h
  · simp only [bind_eq_ok, loadConfig_eq_ok, pure_eq_ok] at h
    obtain ⟨config, hconfig, rfl⟩ := h
    refine ⟨rfl, rfl, fun contract info hinfo => ⟨info, hinfo, GasLe.refl _⟩,
      fun other hother => ⟨_, rfl, fun _ => Option.some_ne_none _⟩⟩
  · obtain rfl := pure_eq_ok.mp h
    exact ⟨rfl, rfl, Admits.of_eq rfl rfl⟩

end

end NeutronContracts.Cw20Ics20
