/-
Replies and interchain queries: how the payload of a sent packet reaches the
key `(channel, sequence)` under which its answer will look for it, how a
registered query is found again, and the query results the contract reads.
-/
import NeutronContracts.StakeManager.Helper

namespace NeutronContracts.StakeManager

open Fallible

/-- The decoded data of the response to a sub-message. -/
inductive ReplyData
  | ibcTransferResponse (sequenceId : Nat) (channel : String)
  | registerInterchainQueryResponse (id : Nat)

structure Reply where
  id : Nat
  data : ReplyData

/-- The successor of a reply id; after the end of the range it starts over. -/
def nextId (rangeStart rangeEnd id : Nat) : Nat :=
  if rangeEnd < id + 1 then rangeStart else id + 1

def getNextReplyId (store : Storage) : Storage × Nat :=
  let id := store.latestReplyId.getD replyIdRangeStart
  ({ store with
      latestReplyId := some (nextId replyIdRangeStart replyIdRangeEnd id) }, id)

def getNextQueryReplyId (store : Storage) : Storage × Nat :=
  let id := store.latestQueryReplyId.getD queryReplyIdRangeStart
  ({ store with
      latestQueryReplyId :=
        some (nextId queryReplyIdRangeStart queryReplyIdRangeEnd id) }, id)

def saveReplyPayload (store : Storage) (payload : SudoPayload) :
    Storage × Nat :=
  let (store, id) := getNextReplyId store
  ({ store with replyIdToPayload := store.replyIdToPayload.save id payload },
    id)

/-- Saves the payload under a fresh reply id and wraps the message so that the
reply with this id is delivered. -/
def msgWithSudoCallback (store : Storage) (msg : CosmosMsg)
    (payload : SudoPayload) : Storage × SubMsg :=
  let (store, id) := saveReplyPayload store payload
  (store, ⟨msg, some id, some payload⟩)

/-- The reply id the next packet gets. -/
def Storage.replyId (store : Storage) : Nat :=
  store.latestReplyId.getD replyIdRangeStart

/-- The storage after a payload has been saved under the next reply id. -/
@[simps] def Storage.queuePayload (store : Storage) (payload : SudoPayload) :
    Storage :=
  { store with
    latestReplyId :=
      some (nextId replyIdRangeStart replyIdRangeEnd store.replyId)
    replyIdToPayload := store.replyIdToPayload.save store.replyId payload }

theorem msgWithSudoCallback_eq (store : Storage) (msg : CosmosMsg)
    (payload : SudoPayload) :
    msgWithSudoCallback store msg payload =
      (store.queuePayload payload,
        ⟨msg, some store.replyId, some payload⟩) := rfl

/-- The reply handler of sent packets: it moves the payload from the reply id
to the channel and sequence of the packet. -/
def prepareSudoPayload (store : Storage) (msg : Reply) :
    NeutronResult Storage := do
  let payload ← load (store.replyIdToPayload msg.id)
  match msg.data with
  | .ibcTransferResponse sequenceId channel =>
      return { store with
        sudoPayload := store.sudoPayload.save (channel, sequenceId) payload }
  | .registerInterchainQueryResponse _ => throw .icqErrFailedParse

def registerQuerySubmsg (store : Storage) (msg : CosmosMsg) (addr : String)
    (queryKind : QueryKind) : Storage × SubMsg :=
  let (store, nextReplyId) := getNextQueryReplyId store
  let store := { store with
    addressToReplyId :=
      store.addressToReplyId.save (addr, queryKind) nextReplyId }
  let store :=
    if queryKind = .validators then
      { store with
        replyIdToNeedUpdate := store.replyIdToNeedUpdate.save nextReplyId true }
    else store
  (store, ⟨msg, some nextReplyId, none⟩)

def writeReplyIdToQueryId (store : Storage) (msg : Reply) :
    NeutronResult Storage :=
  match msg.data with
  | .registerInterchainQueryResponse id =>
      return { store with
        replyIdToQueryId := store.replyIdToQueryId.save msg.id id
        queryIdToReplyId := store.queryIdToReplyId.save id msg.id }
  | .ibcTransferResponse _ _ => throw .icqErrFailedParse

/-- The first result of a query of staking validators slows the query down to
the default period. -/
def sudoKvQueryResult (store : Storage) (queryId : Nat) :
    NeutronResult (Storage × Response) :=
  match store.queryIdToReplyId queryId with
  | none => return (store, Response.new)
  | some replyId =>
      let store := { store with
        queryIdToReplyId := store.queryIdToReplyId.remove queryId }
      if (store.replyIdToNeedUpdate replyId).getD false then
        return ({ store with
            replyIdToNeedUpdate := store.replyIdToNeedUpdate.remove replyId },
          Response.new.addMessage
            (.updateInterchainQuery queryId none (some defaultUpdatePeriod)))
      else return (store, Response.new)

theorem sudoKvQueryResult_ok {store store' : Storage} {queryId : Nat}
    {rsp : Response}
    (h : sudoKvQueryResult store queryId = .ok (store', rsp)) :
    (∃ replies needed, store' =
      { store with
        queryIdToReplyId := replies
        replyIdToNeedUpdate := needed }) ∧
      (rsp.messages = [] ∨ rsp.messages =
        [⟨.updateInterchainQuery queryId none (some defaultUpdatePeriod),
          none, none⟩]) := by
  unfold sudoKvQueryResult at h
  split at h
  · cases h
    exact ⟨⟨_, _, rfl⟩, .inl rfl⟩
  · dsimp only at h
    split at h <;> cases h
    · exact ⟨⟨_, _, rfl⟩, .inr rfl⟩
    · exact ⟨⟨_, _, rfl⟩, .inl rfl⟩

/-- The entry point of replies. -/
def reply (store : Storage) (msg : Reply) : NeutronResult Storage :=
  if replyIdRangeStart ≤ msg.id ∧ msg.id ≤ replyIdRangeEnd then
    prepareSudoPayload store msg
  else if queryReplyIdRangeStart ≤ msg.id ∧ msg.id ≤ queryReplyIdRangeEnd then
    writeReplyIdToQueryId store msg
  else .error (.unsupportedReplyId msg.id)

/-- A reply with the id of a packet moves the payload that was saved under
the reply id. -/
theorem reply_packet_ok {store store' : Storage} {id sequenceId : Nat}
    {channel : String}
    (h : reply store ⟨id, .ibcTransferResponse sequenceId channel⟩ =
      .ok store') :
    ∃ payload, store.replyIdToPayload id = some payload ∧
      store' = { store with
        sudoPayload :=
          store.sudoPayload.save (channel, sequenceId) payload } := by
  unfold reply at h
  split at h
  · simp only [prepareSudoPayload, bind_eq_ok, orError_eq_ok, pure_eq_ok] at h
    obtain ⟨payload, hpayload, rfl⟩ := h
    exact ⟨payload, hpayload, rfl⟩
  · split at h <;> cases h

theorem reply_query_ok {store store' : Storage} {id queryId : Nat}
    (h : reply store ⟨id, .registerInterchainQueryResponse queryId⟩ =
      .ok store') :
    store' = { store with
      replyIdToQueryId := store.replyIdToQueryId.save id queryId
      queryIdToReplyId := store.queryIdToReplyId.save queryId id } := by
  unfold reply at h
  split at h
  · simp only [prepareSudoPayload, bind_eq_ok] at h
    obtain ⟨_, -, h⟩ := h
    cases h
  · split at h <;> cases h
    rfl

/-! ### Query results -/

def getQueryId (store : Storage) (addr : String) (queryKind : QueryKind) :
    NeutronResult Nat := do
  let replyId ← load (store.addressToReplyId (addr, queryKind))
  load (store.replyIdToQueryId replyId)

/-- A query result and the local height at which it was submitted. -/
structure QueryResult (α : Type) where
  result : α
  lastSubmittedLocalHeight : Nat

/-- The registered query of an address, which must watch storage keys. -/
def registeredKvQuery (store : Storage) (querier : Querier) (addr : String)
    (queryKind : QueryKind) : NeutronResult (Nat × Nat) := do
  let queryId ← getQueryId store addr queryKind
  let registered ← orError (querier.registeredQuery queryId) .std
  rejectIf (¬ registered.isKV) .std
  return (queryId, registered.lastSubmittedResultLocalHeight)

def queryBalanceByAddr (store : Storage) (querier : Querier) (addr : String)
    (sdkGreaterOrEqualV047 : Bool) :
    NeutronResult (QueryResult (List Coin)) := do
  let (queryId, height) ← registeredKvQuery store querier addr .balances
  let coins ← orError (querier.kvBalances sdkGreaterOrEqualV047 queryId) .std
  return ⟨coins, height⟩

def queryDelegationByAddr (store : Storage) (querier : Querier) (addr : String)
    (sdkGreaterOrEqualV047 : Bool) :
    NeutronResult (QueryResult (List Delegation)) := do
  let (queryId, height) ← registeredKvQuery store querier addr .delegations
  let delegations ←
    orError (querier.kvDelegations sdkGreaterOrEqualV047 queryId) .std
  return ⟨delegations, height⟩

def queryValidatorByAddr (store : Storage) (querier : Querier)
    (addr : String) : NeutronResult (QueryResult (List Validator)) := do
  let (queryId, height) ← registeredKvQuery store querier addr .validators
  let validators ← orError (querier.kvValidators queryId) .std
  return ⟨validators, height⟩

def getUpdatePoolIcqMsgs (store : Storage) (poolAddr poolIcaId : String)
    (period : Nat) : NeutronResult (List CosmosMsg) := do
  let poolBalancesQueryId ← getQueryId store poolAddr .balances
  let (_, withdrawIcaInfo, _) ← load (store.infoOfIcaId poolIcaId)
  let withdrawAddrBalancesQueryId ←
    getQueryId store withdrawIcaInfo.icaAddr .balances
  let poolDelegationsQueryId ← getQueryId store poolAddr .delegations
  let poolValidatorsQueryId ← getQueryId store poolAddr .validators
  return [
    .updateInterchainQuery poolBalancesQueryId none (some period),
    .updateInterchainQuery withdrawAddrBalancesQueryId none (some period),
    .updateInterchainQuery poolDelegationsQueryId none (some period),
    .updateInterchainQuery poolValidatorsQueryId none (some period)]

theorem getUpdatePoolIcqMsgs_ok {store : Storage} {poolAddr icaId : String}
    {period : Nat} {msgs : List CosmosMsg}
    (h : getUpdatePoolIcqMsgs store poolAddr icaId period = .ok msgs) :
    ∃ a b c d, msgs = [
      .updateInterchainQuery a none (some period),
      .updateInterchainQuery b none (some period),
      .updateInterchainQuery c none (some period),
      .updateInterchainQuery d none (some period)] := by
  simp only [getUpdatePoolIcqMsgs, bind_eq_ok, pure_eq_ok, Prod.exists] at h
  obtain ⟨a, -, _, b, _, -, c, -, d, -, e, -, rfl⟩ := h
  exact ⟨a, c, d, e, rfl⟩

/-! ### Building query keys -/

def newRegisterBalanceQueryMsg (querier : Querier)
    (connectionId addr denom : String) (updatePeriod : Nat) :
    NeutronResult CosmosMsg := do
  rejectIf (¬ querier.decodeAndConvert addr) .std
  return .registerInterchainQuery connectionId (.balance addr denom)
    updatePeriod

def registerDelegatorDelegationsQueryMsg (querier : Querier)
    (connectionId delegator : String) (validators : List String)
    (updatePeriod : Nat) (sdkGreaterOrEqualV047 : Bool) :
    NeutronResult CosmosMsg := do
  rejectIf (¬ querier.decodeAndConvert delegator) .std
  rejectIf (¬ validators.all querier.decodeAndConvert) .std
  return .registerInterchainQuery connectionId
    (.delegations delegator validators sdkGreaterOrEqualV047) updatePeriod

def newRegisterStakingValidatorsQueryMsg (querier : Querier)
    (connectionId : String) (validators : List String) (updatePeriod : Nat) :
    NeutronResult CosmosMsg := do
  rejectIf (¬ validators.all querier.decodeAndConvert) .std
  return .registerInterchainQuery connectionId (.stakingValidators validators)
    updatePeriod

/-- The keys inside a registration message. -/
def keysOfRegistration (registration : NeutronResult CosmosMsg) :
    NeutronResult KVKeys :=
  match registration with
  | .ok (.registerInterchainQuery _ keys _) => .ok keys
  | _ => .error .icqNewKeyBuildFailed

def dealValidatorsIcqUpdate (store : Storage) (querier : Querier)
    (poolAddr : String) (poolInfo : PoolInfo) (ctrlConnectionId : String) :
    NeutronResult Response := do
  let newDelegationsKeys ← keysOfRegistration
    (registerDelegatorDelegationsQueryMsg querier ctrlConnectionId poolAddr
      poolInfo.validatorAddrs defaultUpdatePeriod
      poolInfo.sdkGreaterOrEqualV047)
  let delegationsQueryId ← getQueryId store poolAddr .delegations
  let newValidatorsKeys ← keysOfRegistration
    (newRegisterStakingValidatorsQueryMsg querier ctrlConnectionId
      poolInfo.validatorAddrs defaultUpdatePeriod)
  let validatorsQueryId ← getQueryId store poolAddr .validators
  return Response.new.addMessages [
    .updateInterchainQuery delegationsQueryId (some newDelegationsKeys) none,
    .updateInterchainQuery validatorsQueryId (some newValidatorsKeys) none]

/-- An update of the queries of a pool watches its current validators. -/
theorem dealValidatorsIcqUpdate_ok {store : Storage} {querier : Querier}
    {poolAddr ctrlConnectionId : String} {poolInfo : PoolInfo}
    {rsp : Response}
    (h : dealValidatorsIcqUpdate store querier poolAddr poolInfo
      ctrlConnectionId = .ok rsp) :
    ∃ delegationsQueryId validatorsQueryId, rsp.messages = [
      ⟨.updateInterchainQuery delegationsQueryId
        (some (.delegations poolAddr poolInfo.validatorAddrs
          poolInfo.sdkGreaterOrEqualV047)) none, none, none⟩,
      ⟨.updateInterchainQuery validatorsQueryId
        (some (.stakingValidators poolInfo.validatorAddrs)) none,
        none, none⟩] := by
  simp only [dealValidatorsIcqUpdate, bind_eq_ok, pure_eq_ok] at h
  obtain ⟨keys, hkeys, delegationsQueryId, -, valKeys, hval,
    validatorsQueryId, -, rfl⟩ := h
  have hkeys : keys = .delegations poolAddr poolInfo.validatorAddrs
      poolInfo.sdkGreaterOrEqualV047 := by
    unfold registerDelegatorDelegationsQueryMsg rejectIf at hkeys
    split at hkeys <;> [skip; split at hkeys] <;> cases hkeys
    rfl
  have hval : valKeys = .stakingValidators poolInfo.validatorAddrs := by
    unfold newRegisterStakingValidatorsQueryMsg rejectIf at hval
    split at hval <;> cases hval
    rfl
  subst hkeys hval
  exact ⟨delegationsQueryId, validatorsQueryId, rfl⟩

end NeutronContracts.StakeManager
