/-
The interchain queries of a pool: four are registered when it starts, under
reply ids that are handed out in a ring.
-/
import NeutronContracts.Lib.Wheel
import NeutronContracts.StakeManager.Contract

namespace NeutronContracts.StakeManager

open Fallible

/-- An account and what is asked about it. -/
abbrev QueryKey := String × QueryKind

/-- The accounts with their reply ids, and the reply ids with their query
ids. -/
def Storage.directory (store : Storage) : Directory QueryKey Nat :=
  ⟨⟨store.replyIdToQueryId, store.latestQueryReplyId⟩, store.addressToReplyId⟩

/-- Register a query: the key gets the next reply id, and the reply brings the
query id. -/
def enterQuery (directory : Directory QueryKey Nat) (entry : QueryKey × Nat) :
    Directory QueryKey Nat :=
  directory.enter queryReplyIdRangeStart queryReplyIdRangeEnd entry

/-- The keys under which a pool registers its queries, in order. -/
def poolQueries (poolAddr withdrawAddr : String) : List QueryKey :=
  [(poolAddr, .balances), (withdrawAddr, .balances), (poolAddr, .delegations),
    (poolAddr, .validators)]

/-- The reply id the next query gets. -/
def Storage.queryReplyId (store : Storage) : Nat :=
  store.latestQueryReplyId.getD queryReplyIdRangeStart

def nextQueryReplyId : Nat → Nat :=
  nextId queryReplyIdRangeStart queryReplyIdRangeEnd

section

variable {store store' next : Storage} {rsp : Response} {querier : Querier}
  {env : Env} {info : MessageInfo} {p : PoolInfo}
  {poolIcaInfo withdrawIcaInfo : IcaInfo} {addr : String} {kind : QueryKind}

theorem getQueryId_eq_ok {queryId : Nat} :
    getQueryId store addr kind = .ok queryId ↔
      store.directory.find (addr, kind) = some queryId := by
  simp only [getQueryId, bind_eq_ok, orError_eq_ok, Directory.find,
    Option.bind_eq_some_iff]
  rfl

/-- Four keys get the next four reply ids. -/
structure Asked (store next : Storage) (poolAddr withdrawAddr : String) :
    Prop where
  addresses : next.addressToReplyId =
    (((store.addressToReplyId.save (poolAddr, .balances)
      store.queryReplyId).save (withdrawAddr, .balances)
      (nextQueryReplyId store.queryReplyId)).save (poolAddr, .delegations)
      (nextQueryReplyId (nextQueryReplyId store.queryReplyId))).save
      (poolAddr, .validators)
      (nextQueryReplyId (nextQueryReplyId (nextQueryReplyId
        store.queryReplyId)))
  latest : next.latestQueryReplyId = some (nextQueryReplyId (nextQueryReplyId
    (nextQueryReplyId (nextQueryReplyId store.queryReplyId))))
  queries : next.replyIdToQueryId = store.replyIdToQueryId

theorem registerPoolQueries_asked {subs : List SubMsg}
    (h : registerPoolQueries store querier p poolIcaInfo withdrawIcaInfo =
      .ok (next, subs)) :
    querier.decodeAndConvert poolIcaInfo.icaAddr = true ∧
      p.validatorAddrs.all querier.decodeAndConvert = true ∧
      Asked store next poolIcaInfo.icaAddr withdrawIcaInfo.icaAddr ∧
      subs.map SubMsg.replyOnSuccess = [some store.queryReplyId,
        some (nextQueryReplyId store.queryReplyId),
        some (nextQueryReplyId (nextQueryReplyId store.queryReplyId)),
        some (nextQueryReplyId (nextQueryReplyId (nextQueryReplyId
          store.queryReplyId)))] := by
  simp only [registerPoolQueries, bind_eq_ok, pure_eq_ok, Prod.mk.injEq] at h
  obtain ⟨_, hpool, _, -, _, hdelegation, _, -, rfl, rfl⟩ := h
  simp only [newRegisterBalanceQueryMsg, bind_eq_ok, rejectIf_eq_ok,
    Decidable.not_not] at hpool
  obtain ⟨_, hdecode, -⟩ := hpool
  simp only [registerDelegatorDelegationsQueryMsg, bind_eq_ok, rejectIf_eq_ok,
    Decidable.not_not] at hdelegation
  obtain ⟨_, -, _, hvalidators, -⟩ := hdelegation
  exact ⟨hdecode, hvalidators, ⟨rfl, rfl, rfl⟩, rfl⟩

/-- What the start of a pool does to the queries: its addresses decode, the
four keys get their reply ids, and the messages carry these. -/
structure Started (store store' : Storage) (rsp : Response)
    (querier : Querier) (poolAddr withdrawAddr : String)
    (validators : List String) : Prop where
  decodes : querier.decodeAndConvert poolAddr = true
  valid : validators.all querier.decodeAndConvert = true
  pool : ∃ p', store'.pools poolAddr = some p' ∧
    p'.validatorAddrs = validators
  asked : Asked store store' poolAddr withdrawAddr
  messages : ∃ admin codeId msg label salt connection withdrawConnection tx
      payload replyId, ∃ a b c d : KVKeys, rsp.messages = [
    ⟨.wasmInstantiate2 admin codeId msg label salt, none, none⟩,
    ⟨.registerInterchainQuery connection a defaultUpdatePeriod,
      some store.queryReplyId, none⟩,
    ⟨.registerInterchainQuery withdrawConnection b defaultUpdatePeriod,
      some (nextQueryReplyId store.queryReplyId), none⟩,
    ⟨.registerInterchainQuery connection c defaultUpdatePeriod,
      some (nextQueryReplyId (nextQueryReplyId store.queryReplyId)), none⟩,
    ⟨.registerInterchainQuery connection d 6,
      some (nextQueryReplyId (nextQueryReplyId (nextQueryReplyId
        store.queryReplyId))), none⟩,
    ⟨.submitTx tx, some replyId, some payload⟩]

theorem dealPool_started {lsdCodeId : Nat} {name symbol : String}
    (h : dealPool store querier env info p poolIcaInfo withdrawIcaInfo
      lsdCodeId name symbol = .ok (store', rsp)) :
    Started store store' rsp querier poolIcaInfo.icaAddr
      withdrawIcaInfo.icaAddr p.validatorAddrs := by
  simp only [dealPool, bind_eq_ok, orError_eq_ok, Prod.exists, pure_eq_ok,
    Prod.mk.injEq] at h
  obtain ⟨_, -, _, -, _, -, checksum, -, lsdToken, -, middle, subs, hqueries,
    next, sub, hset, rfl, rfl⟩ := h
  obtain ⟨hdecode, hvalid, ⟨haddresses, hlatest, hsame⟩, hreplies⟩ :=
    registerPoolQueries_asked hqueries
  obtain ⟨⟨_, _, _, rfl⟩, a, b, c, d, connection, withdrawConnection, rfl⟩ :=
    registerPoolQueries_ok hqueries
  obtain ⟨tx, payload, -, -, rfl, rfl⟩ := setWithdrawSubMsg_ok hset
  simp only [List.map_cons, List.map_nil, List.cons.injEq,
    Option.some.injEq] at hreplies
  obtain ⟨rfl, rfl, rfl, rfl, -⟩ := hreplies
  exact ⟨hdecode, hvalid, ⟨_, Map.save_self, rfl⟩,
    ⟨haddresses, hlatest, hsame⟩, _, _, _, _, _, connection,
    withdrawConnection, tx, payload, _, _, _, _, _, rfl⟩

theorem executeInitPool_started {param : InitPoolParams} {admin : String}
    (h : executeInitPool store querier env info param = .ok (store', rsp))
    (hinfo : store.infoOfIcaId param.interchainAccountId =
      some (poolIcaInfo, withdrawIcaInfo, admin))
    (hp : store.pools poolIcaInfo.icaAddr = some p)
    (hstatus : p.status = .registerEnded) :
    Started store store' rsp querier poolIcaInfo.icaAddr
        withdrawIcaInfo.icaAddr param.validatorAddrs ∧
      param.validatorAddrs ≠ [] ∧
      param.validatorAddrs.length ≤ validaterLenLimit := by
  simp only [executeInitPool, hinfo, bind_eq_ok, orError_eq_ok,
    rejectIf_eq_ok, Prod.exists, not_or, Option.some.injEq,
    Prod.mk.injEq] at h
  obtain ⟨_, -, _, -, _, _, _, ⟨rfl, rfl, rfl⟩, _, hvals, _, hload, _, -, fee,
    -, h⟩ := h
  obtain rfl := Option.some.inj (hp.symm.trans hload)
  rw [if_neg (by simp [hstatus])] at h
  simp only [bind_eq_ok] at h
  obtain ⟨_, -, _, -, eraSeconds, -, _, -, offset, -, _, -, h⟩ := h
  exact ⟨dealPool_started h, hvals.1, Nat.not_lt.mp hvals.2⟩

theorem executeMigratePool_started {param : MigratePoolParams} {admin : String}
    (h : executeMigratePool store querier env info param = .ok (store', rsp))
    (hinfo : store.infoOfIcaId param.interchainAccountId =
      some (poolIcaInfo, withdrawIcaInfo, admin))
    (hp : store.pools poolIcaInfo.icaAddr = some p)
    (hstatus : p.status = .registerEnded) :
    Started store store' rsp querier poolIcaInfo.icaAddr
        withdrawIcaInfo.icaAddr param.validatorAddrs ∧
      param.validatorAddrs ≠ [] ∧
      param.validatorAddrs.length ≤ validaterLenLimit := by
  simp only [executeMigratePool, hinfo, bind_eq_ok, orError_eq_ok,
    rejectIf_eq_ok, Prod.exists, not_or, Option.some.injEq,
    Prod.mk.injEq] at h
  obtain ⟨_, _, _, ⟨rfl, rfl, rfl⟩, _, hvals, _, hload, _, -, fee, -, h⟩ := h
  obtain rfl := Option.some.inj (hp.symm.trans hload)
  rw [if_neg (by simp [hstatus])] at h
  simp only [bind_eq_ok] at h
  obtain ⟨_, -, _, -, _, -, rate, -, _, -, _, -, h⟩ := h
  exact ⟨dealPool_started h, hvals.1, Nat.not_lt.mp hvals.2⟩

/-- The accounts of a registered pool that has not been started. -/
def Storage.starting (store : Storage) (icaId : String) :
    Option (String × String) :=
  (store.infoOfIcaId icaId).bind fun info =>
    (store.pools info.1.icaAddr).bind fun p =>
      if p.status = .registerEnded then
        some (info.1.icaAddr, info.2.1.icaAddr)
      else none

/-- The accounts of the pool that a call starts. -/
def ExecuteMsg.starting (store : Storage) :
    ExecuteMsg → Option (String × String)
  | .initPool param => store.starting param.interchainAccountId
  | .migratePool param => store.starting param.interchainAccountId
  | _ => none

/-- The validators that a call starts a pool with. -/
def ExecuteMsg.startValidators : ExecuteMsg → List String
  | .initPool param => param.validatorAddrs
  | .migratePool param => param.validatorAddrs
  | _ => []

theorem starting_eq_some {icaId poolAddr withdrawAddr : String} :
    store.starting icaId = some (poolAddr, withdrawAddr) ↔
      ∃ poolIcaInfo withdrawIcaInfo : IcaInfo, ∃ admin p,
        store.infoOfIcaId icaId = some (poolIcaInfo, withdrawIcaInfo, admin) ∧
        store.pools poolIcaInfo.icaAddr = some p ∧
        p.status = .registerEnded ∧ poolIcaInfo.icaAddr = poolAddr ∧
        withdrawIcaInfo.icaAddr = withdrawAddr := by
  simp only [Storage.starting, Option.bind_eq_some_iff, Prod.exists,
    Option.ite_none_right_eq_some, Option.some.injEq, Prod.mk.injEq]
  constructor
  · rintro ⟨pool, withdraw, admin, hinfo, p, hp, hstatus, hpool, hwithdraw⟩
    exact ⟨pool, withdraw, admin, p, hinfo, hp, hstatus, hpool, hwithdraw⟩
  · rintro ⟨pool, withdraw, admin, p, hinfo, hp, hstatus, hpool, hwithdraw⟩
    exact ⟨pool, withdraw, admin, hinfo, p, hp, hstatus, hpool, hwithdraw⟩

/-- A pool that is registered only can be started. -/
theorem starting_of_target {icaId poolAddr : String}
    (htarget : (store.infoOfIcaId icaId).map (fun info => info.1.icaAddr) =
      some poolAddr)
    (hp : store.pools poolAddr = some p) (hstatus : p.status = .registerEnded) :
    ∃ withdrawAddr, store.starting icaId = some (poolAddr, withdrawAddr) := by
  obtain ⟨info, hinfo, rfl⟩ := Option.map_eq_some_iff.mp htarget
  exact ⟨info.2.1.icaAddr, starting_eq_some.mpr
    ⟨info.1, info.2.1, info.2.2, p, hinfo, hp, hstatus, rfl, rfl⟩⟩

theorem execute_started {msg : ExecuteMsg} {poolAddr withdrawAddr : String}
    (h : execute store querier env info msg = .ok (store', rsp))
    (hstart : msg.starting store = some (poolAddr, withdrawAddr)) :
    Started store store' rsp querier poolAddr withdrawAddr
        msg.startValidators ∧
      msg.startValidators ≠ [] ∧
      msg.startValidators.length ≤ validaterLenLimit := by
  cases msg with
  | initPool param =>
      obtain ⟨pool, withdraw, admin, p, hinfo, hp, hstatus, rfl, rfl⟩ :=
        starting_eq_some.mp hstart
      exact executeInitPool_started h hinfo hp hstatus
  | migratePool param =>
      obtain ⟨pool, withdraw, admin, p, hinfo, hp, hstatus, rfl, rfl⟩ :=
        starting_eq_some.mp hstart
      exact executeMigratePool_started h hinfo hp hstatus
  | _ => cases hstart

/-- A call for a pool that was started before only sends its packet again. -/
theorem execute_retried {msg : ExecuteMsg}
    (h : execute store querier env info msg = .ok (store', rsp))
    (hstarts : (∃ param, msg = .initPool param) ∨
      ∃ param, msg = .migratePool param)
    (hstart : msg.starting store = none) :
    ∃ poolAddr, Retried store store' rsp poolAddr := by
  rcases hstarts with ⟨param, rfl⟩ | ⟨param, rfl⟩
  · obtain ⟨p, pool, withdraw, admin, hinfo, hp, -, ⟨-, hretry⟩ |
      ⟨hstatus, -⟩⟩ := executeInitPool_ok h
    · exact ⟨_, hretry⟩
    · have hsome := starting_eq_some.mpr ⟨pool, withdraw, admin, p, hinfo, hp,
        hstatus, rfl, rfl⟩
      cases hstart.symm.trans hsome
  · obtain ⟨p, pool, withdraw, admin, hinfo, hp, -, ⟨-, hretry⟩ |
      ⟨hstatus, -⟩⟩ := executeMigratePool_ok h
    · exact ⟨_, hretry⟩
    · have hsome := starting_eq_some.mpr ⟨pool, withdraw, admin, p, hinfo, hp,
        hstatus, rfl, rfl⟩
      cases hstart.symm.trans hsome

/-- An update of the queries checks the addresses whose keys it builds. -/
theorem dealValidatorsIcqUpdate_valid {ctrlConnectionId : String}
    (h : dealValidatorsIcqUpdate store querier addr p ctrlConnectionId =
      .ok rsp) : p.validatorAddrs.all querier.decodeAndConvert = true := by
  simp only [dealValidatorsIcqUpdate, bind_eq_ok] at h
  obtain ⟨_, hkeys, -⟩ := h
  unfold registerDelegatorDelegationsQueryMsg rejectIf at hkeys
  split at hkeys
  · cases hkeys
  · split at hkeys
    · cases hkeys
    · rename_i hvalid
      exact Decidable.not_not.mp hvalid

/-- The queries of a pool can be updated when all its addresses are valid. -/
theorem dealValidatorsIcqUpdate_total (ctrlConnectionId : String)
    (hdecodes : querier.decodeAndConvert addr = true)
    (hvalid : p.validatorAddrs.all querier.decodeAndConvert = true)
    (hdelegations : (store.directory.find (addr, .delegations)).isSome = true)
    (hvalidators : (store.directory.find (addr, .validators)).isSome = true) :
    ∃ rsp, dealValidatorsIcqUpdate store querier addr p ctrlConnectionId =
      .ok rsp := by
  obtain ⟨delegationsId, hdelegations⟩ :=
    Option.isSome_iff_exists.mp hdelegations
  obtain ⟨validatorsId, hvalidators⟩ := Option.isSome_iff_exists.mp hvalidators
  have hdelegationKeys : registerDelegatorDelegationsQueryMsg querier
      ctrlConnectionId addr p.validatorAddrs defaultUpdatePeriod
      p.sdkGreaterOrEqualV047 = .ok (.registerInterchainQuery ctrlConnectionId
        (.delegations addr p.validatorAddrs p.sdkGreaterOrEqualV047)
        defaultUpdatePeriod) := by
    simp [registerDelegatorDelegationsQueryMsg, hdecodes, hvalid, rejectIf]
  have hvalidatorKeys : newRegisterStakingValidatorsQueryMsg querier
      ctrlConnectionId p.validatorAddrs defaultUpdatePeriod =
      .ok (.registerInterchainQuery ctrlConnectionId
        (.stakingValidators p.validatorAddrs) defaultUpdatePeriod) := by
    simp [newRegisterStakingValidatorsQueryMsg, hvalid, rejectIf]
  rw [dealValidatorsIcqUpdate, hdelegationKeys, hvalidatorKeys,
    getQueryId_eq_ok.mpr hdelegations, getQueryId_eq_ok.mpr hvalidators]
  exact ⟨_, rfl⟩

/-- The administrator ends a change of validators that can be queried. -/
theorem executeUpdateValidatorsIcq_total
    {entry : IcaInfo × IcaInfo × String} (hp : store.pools addr = some p)
    (hadmin : info.sender = p.admin)
    (hwaits : p.validatorUpdateStatus = .waitQueryUpdate)
    (hentry : store.infoOfIcaId p.icaId = some entry)
    (hdecodes : querier.decodeAndConvert addr = true)
    (hvalid : p.validatorAddrs.all querier.decodeAndConvert = true)
    (hdelegations : (store.directory.find (addr, .delegations)).isSome = true)
    (hvalidators : (store.directory.find (addr, .validators)).isSome = true) :
    ∃ rsp, executeUpdateValidatorsIcq store querier info addr =
      .ok (store.savePool addr { p with validatorUpdateStatus := .ended },
        rsp) := by
  obtain ⟨rsp, hrsp⟩ := @dealValidatorsIcqUpdate_total
    (store.savePool addr { p with validatorUpdateStatus := .ended }) querier
    { p with validatorUpdateStatus := .ended } addr entry.1.ctrlConnectionId
    hdecodes hvalid hdelegations hvalidators
  refine ⟨rsp, ?_⟩
  simp only [executeUpdateValidatorsIcq, bind_eq_ok, orError_eq_ok,
    rejectIf_eq_ok, Prod.exists, pure_eq_ok, Prod.mk.injEq, ne_eq, not_not]
  exact ⟨p, hp, (), hadmin, (), hwaits, entry.1, entry.2.1, entry.2.2, hentry,
    rsp, hrsp, rfl, rfl⟩

end

end NeutronContracts.StakeManager
