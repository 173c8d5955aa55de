/-
The rates of past eras and the registered queries: which calls write them.
-/
import NeutronContracts.Chain.Messages
import NeutronContracts.Chain.Records

namespace NeutronContracts

open StakeManager Fallible

/-- The rates of past eras and the book of registered queries are the same. -/
structure SameRegistry (store store' : Storage) : Prop where
  rates : store'.eraRate = store.eraRate
  addresses : store'.addressToReplyId = store.addressToReplyId
  latest : store'.latestQueryReplyId = store.latestQueryReplyId

namespace SameRegistry

theorem refl (store : Storage) : SameRegistry store store := ⟨rfl, rfl, rfl⟩

variable {store store' : Storage}

/-- Replies do not write the registry. -/
theorem of_bookkept (h : Bookkept store store') :
    SameRegistry store store' := by
  obtain ⟨_, _, _, rfl⟩ := h
  exact ⟨rfl, rfl, rfl⟩

end SameRegistry

/-- What callbacks may write. -/
def SameButPools (store store' : Storage) : Prop :=
  ∃ pools records indexes times, store' =
    { store with
      pools := pools
      unstakesOfIndex := records
      unstakesIndexForUser := indexes
      validatorsUnbondsTime := times }

theorem SameRegistry.of_pools {store store' : Storage}
    (h : SameButPools store store') : SameRegistry store store' := by
  obtain ⟨_, _, _, _, rfl⟩ := h
  exact ⟨rfl, rfl, rfl⟩

/-- The calls that start a pool or end its era. -/
def StakeManager.ExecuteMsg.writesRegistry : ExecuteMsg → Bool
  | .initPool _ => true
  | .migratePool _ => true
  | .eraActive _ => true
  | _ => false

/-- A call writes no registry that is not its own; the ids of queries are
written by replies only. -/
structure OwnRegistry (msg : ExecuteMsg) (store store' : Storage) : Prop where
  registry : msg.writesRegistry = false → SameRegistry store store'
  infos : (∀ connectionId icaId, msg ≠ .registerPool connectionId icaId) →
    store'.infoOfIcaId = store.infoOfIcaId
  queries : store'.replyIdToQueryId = store.replyIdToQueryId
  asked : msg.startsPool = false →
    store'.addressToReplyId = store.addressToReplyId ∧
      store'.latestQueryReplyId = store.latestQueryReplyId

theorem OwnRegistry.of_same {store store' : Storage} {msg : ExecuteMsg}
    (h : SameRegistry store store')
    (hinfos : store'.infoOfIcaId = store.infoOfIcaId)
    (hqueries : store'.replyIdToQueryId = store.replyIdToQueryId) :
    OwnRegistry msg store store' :=
  ⟨fun _ => h, fun _ => hinfos, hqueries, fun _ => ⟨h.addresses, h.latest⟩⟩

section

variable {store store' : Storage} {querier : Querier} {env : Env}
  {info : MessageInfo} {msg : ExecuteMsg} {rsp : Response}
  {payload : SudoPayload} {answer : Answer} {a b : String} {p : PoolInfo}

theorem infos_of_dealt (h : Dealt store store' rsp querier a p b) :
    store'.infoOfIcaId = store.infoOfIcaId := by
  obtain ⟨_, next, _, _, _, _, _, _, _, _, _, _, _, _, _, _, _, -, -, -,
    ⟨_, _, _, rfl⟩, -, -, rfl, -⟩ := h
  rfl

theorem infos_of_retried (h : Retried store store' rsp a) :
    store'.infoOfIcaId = store.infoOfIcaId := by
  obtain ⟨_, _, -, -, rfl, -⟩ := h
  rfl

theorem queries_of_dealt (h : Dealt store store' rsp querier a p b) :
    store'.replyIdToQueryId = store.replyIdToQueryId := by
  obtain ⟨_, next, _, _, _, _, _, _, _, _, _, _, _, _, _, _, _, -, -, -,
    ⟨_, _, _, rfl⟩, -, -, rfl, -⟩ := h
  rfl

theorem queries_of_retried (h : Retried store store' rsp a) :
    store'.replyIdToQueryId = store.replyIdToQueryId := by
  obtain ⟨_, _, -, -, rfl, -⟩ := h
  rfl

theorem execute_own_registry
    (h : execute store querier env info msg = .ok (store', rsp)) :
    OwnRegistry msg store store' := by
  cases msg with
  | registerPool connectionId interchainAccountId =>
      obtain ⟨_, -, -, rfl, -⟩ := executeRegisterPool_ok h
      exact ⟨fun _ => ⟨rfl, rfl, rfl⟩, fun hother =>
        absurd rfl (hother connectionId interchainAccountId), rfl,
        fun _ => ⟨rfl, rfl⟩⟩
  | initPool param =>
      obtain ⟨_, _, _, _, -, -, -, ⟨-, hretry⟩ | ⟨-, _, _, hdealt⟩⟩ :=
        executeInitPool_ok h
      · exact ⟨nofun, fun _ => infos_of_retried hretry,
          queries_of_retried hretry, nofun⟩
      · exact ⟨nofun, fun _ => infos_of_dealt hdealt,
          queries_of_dealt hdealt, nofun⟩
  | migratePool param =>
      obtain ⟨_, _, _, _, -, -, -, ⟨-, hretry⟩ | ⟨-, -, -, hdealt⟩⟩ :=
        executeMigratePool_ok h
      · exact ⟨nofun, fun _ => infos_of_retried hretry,
          queries_of_retried hretry, nofun⟩
      · exact ⟨nofun, fun _ => infos_of_dealt hdealt,
          queries_of_dealt hdealt, nofun⟩
  | configPool param =>
      obtain ⟨_, _, -, -, rfl, -⟩ := executeConfigPool_ok h
      exact .of_same ⟨rfl, rfl, rfl⟩ rfl rfl
  | configStack param =>
      obtain ⟨_, _, -, -, rfl, -⟩ := executeConfigStack_ok h
      exact .of_same ⟨rfl, rfl, rfl⟩ rfl rfl
  | openChannel poolAddr closedChannelId =>
      obtain ⟨_, _, _, _, -, rfl, -⟩ := executeOpenChannel_ok h
      exact .of_same (.refl _) rfl rfl
  | redeemTokenForShare poolAddr tokens =>
      obtain ⟨_, _, _, _, _, -, -, -, -, -, -, rfl, -⟩ :=
        executeRedeemTokenForShare_ok h
      exact .of_same ⟨rfl, rfl, rfl⟩ rfl rfl
  | stake neutronAddress poolAddr =>
      obtain ⟨_, _, -, -, -, -, rfl, -⟩ := executeStake_ok h
      exact .of_same ⟨rfl, rfl, rfl⟩ rfl rfl
  | unstake amount poolAddr =>
      obtain ⟨_, _, _, _, -, -, -, -, -, -, -, -, rfl, -⟩ := executeUnstake_ok h
      exact .of_same ⟨rfl, rfl, rfl⟩ rfl rfl
  | withdraw poolAddr receiver unstakeIndexList =>
      obtain ⟨_, _, _, _, _, -, -, hrecords, -, -, -, -, rfl, -⟩ :=
        executeWithdraw_ok h
      obtain ⟨_, rfl⟩ := withdrawRecords_store hrecords
      exact .of_same ⟨rfl, rfl, rfl⟩ rfl rfl
  | poolRmValidator poolAddr validatorAddr =>
      obtain ⟨_, _, -, -, -, -, -, -, ⟨-, rfl, -⟩ | ⟨_, _, _, _, _, _, _, -, -,
        -, -, -, -, -, -, rfl, -⟩⟩ := executeRmPoolValidator_ok h
      · exact .of_same ⟨rfl, rfl, rfl⟩ rfl rfl
      · exact .of_same ⟨rfl, rfl, rfl⟩ rfl rfl
  | poolAddValidator poolAddr validatorAddr =>
      obtain ⟨_, _, _, -, -, -, -, rfl, -⟩ := executeAddPoolValidators_ok h
      exact .of_same ⟨rfl, rfl, rfl⟩ rfl rfl
  | poolUpdateValidator poolAddr oldValidator newValidator =>
      obtain ⟨_, _, _, -, -, -, -, -, -, -, ⟨-, rfl, -⟩ | ⟨-, _, _, _, _, _, -,
        -, -, -, -, rfl, -⟩⟩ := executePoolUpdateValidator_ok h
      · exact .of_same ⟨rfl, rfl, rfl⟩ rfl rfl
      · exact .of_same ⟨rfl, rfl, rfl⟩ rfl rfl
  | poolUpdateValidatorsIcq poolAddr =>
      obtain ⟨_, _, _, -, -, rfl, -⟩ := executeUpdateValidatorsIcq_ok h
      exact .of_same ⟨rfl, rfl, rfl⟩ rfl rfl
  | poolDelegate poolAddr stakeAmount =>
      obtain ⟨_, _, -, -, -, rfl, -⟩ := executePoolDelegate_ok h
      exact .of_same (.refl _) rfl rfl
  | eraUpdate poolAddr =>
      obtain ⟨_, _, -, -, -, -, ⟨-, rfl, -⟩ | ⟨-, _, _, -, -, -, -, rfl, -⟩⟩ :=
        executeEraUpdate_ok h
      · exact .of_same ⟨rfl, rfl, rfl⟩ rfl rfl
      · exact .of_same ⟨rfl, rfl, rfl⟩ rfl rfl
  | eraBond poolAddr selectVals =>
      obtain ⟨_, _, _, _, _, -, -, hbond, -, -, -, rfl, -⟩ :=
        executeEraBond_ok h
      obtain ⟨_, rfl⟩ := eraBondMsgs_store hbond
      exact .of_same ⟨rfl, rfl, rfl⟩ rfl rfl
  | eraCollectWithdraw poolAddr =>
      obtain ⟨_, _, _, _, _, -, -, -, -, ⟨-, rfl, -⟩ | ⟨-, _, _, -, -, -, rfl,
        -⟩⟩ := executeEraCollectWithdraw_ok h
      · exact .of_same ⟨rfl, rfl, rfl⟩ rfl rfl
      · exact .of_same ⟨rfl, rfl, rfl⟩ rfl rfl
  | eraRebond poolAddr selectVals =>
      obtain ⟨_, -, -, ⟨-, rfl, -⟩ | ⟨-, _, _, _, -, -, -, -, rfl, -⟩⟩ :=
        executeEraRebond_ok h
      · exact .of_same ⟨rfl, rfl, rfl⟩ rfl rfl
      · exact .of_same ⟨rfl, rfl, rfl⟩ rfl rfl
  | eraActive poolAddr =>
      obtain ⟨_, _, _, _, _, _, -, -, -, -, -, rfl, -⟩ :=
        executeEraActive_ok h
      exact ⟨nofun, fun _ => rfl, rfl, fun _ => ⟨rfl, rfl⟩⟩
  | stakeLsm neutronAddress poolAddr =>
      obtain ⟨_, _, _, _, _, _, _, _, _, _, -, -, -, -, -, -, -, -, -, -, -, -,
        -, -, -, -, -, rfl, -⟩ := executeStakeLsm_ok h
      exact .of_same ⟨rfl, rfl, rfl⟩ rfl rfl
  | updateIcqUpdatePeriod poolAddr newUpdatePeriod =>
      obtain ⟨_, _, -, -, rfl, -⟩ := updateIcqUpdatePeriod_ok h
      exact .of_same (.refl _) rfl rfl

theorem execute_registry
    (h : execute store querier env info msg = .ok (store', rsp))
    (hother : msg.writesRegistry = false) : SameRegistry store store' :=
  (execute_own_registry h).registry hother

theorem sudoCallback_pools
    (h : sudoCallback store env payload = .ok (store', rsp)) :
    SameButPools store store' := by
  cases htype : payload.txType with
  | userWithdraw =>
      simp only [sudoCallback, htype] at h
      obtain ⟨⟨_, _, rfl⟩, -⟩ := sudoWithdrawCallback_store h
      exact ⟨_, _, _, _, rfl⟩
  | setWithdrawAddr =>
      simp only [sudoCallback, htype] at h
      obtain ⟨_, -, rfl, -⟩ := sudoSetWithdrawAddrCallback_ok.mp h
      exact ⟨_, _, _, _, rfl⟩
  | eraUpdate =>
      simp only [sudoCallback, htype] at h
      obtain ⟨_, -, rfl, -⟩ := sudoEraUpdateCallback_ok.mp h
      exact ⟨_, _, _, _, rfl⟩
  | eraBond =>
      simp only [sudoCallback, htype] at h
      obtain ⟨_, _, -, -, -, rfl, -⟩ := sudoEraBondCallback_ok h
      exact ⟨_, _, _, _, rfl⟩
  | eraCollectWithdraw =>
      simp only [sudoCallback, htype] at h
      obtain ⟨_, -, rfl, -⟩ := sudoEraCollectWithdrawCallback_ok.mp h
      exact ⟨_, _, _, _, rfl⟩
  | eraRebond =>
      simp only [sudoCallback, htype] at h
      obtain ⟨_, -, rfl, -⟩ := sudoEraRebondCallback_ok.mp h
      exact ⟨_, _, _, _, rfl⟩
  | updateValidator =>
      simp only [sudoCallback, htype] at h
      obtain ⟨_, -, rfl, -⟩ := sudoUpdateValidatorCallback_ok.mp h
      exact ⟨_, _, _, _, rfl⟩
  | rmValidator =>
      simp only [sudoCallback, htype] at h
      obtain ⟨_, -, rfl, -⟩ := sudoRmValidatorCallback_ok.mp h
      exact ⟨_, _, _, _, rfl⟩
  | stakeLsm =>
      simp only [sudoCallback, htype] at h
      obtain ⟨_, _, _, _, -, -, -, rfl, -⟩ := sudoStakeLsmCallback_ok h
      exact ⟨_, _, _, _, rfl⟩
  | redeemTokenForShare =>
      simp only [sudoCallback, htype] at h
      obtain ⟨_, -, rfl, -⟩ := sudoRedeemTokenForShareCallback_ok.mp h
      exact ⟨_, _, _, _, rfl⟩

theorem sudoFailedCallback_pools
    (h : sudoFailedCallback store payload = .ok (store', rsp)) :
    SameButPools store store' := by
  cases htype : payload.txType with
  | userWithdraw =>
      simp only [sudoFailedCallback, htype] at h
      obtain ⟨⟨_, _, rfl⟩, -⟩ := sudoWithdrawFailedCallback_store h
      exact ⟨_, _, _, _, rfl⟩
  | setWithdrawAddr =>
      simp only [sudoFailedCallback, htype] at h
      obtain ⟨_, -, rfl, -⟩ := sudoSetWithdrawAddrFailedCallback_ok.mp h
      exact ⟨_, _, _, _, rfl⟩
  | eraUpdate =>
      simp only [sudoFailedCallback, htype] at h
      obtain ⟨_, -, -, rfl, -⟩ := sudoEraUpdateFailedCallback_ok.mp h
      exact ⟨_, _, _, _, rfl⟩
  | eraBond =>
      simp only [sudoFailedCallback, htype] at h
      obtain ⟨_, -, rfl, -⟩ := sudoEraBondFailedCallback_ok.mp h
      exact ⟨_, _, _, _, rfl⟩
  | eraCollectWithdraw =>
      simp only [sudoFailedCallback, htype] at h
      obtain ⟨_, -, rfl, -⟩ := sudoEraCollectWithdrawFailedCallback_ok.mp h
      exact ⟨_, _, _, _, rfl⟩
  | eraRebond =>
      simp only [sudoFailedCallback, htype] at h
      obtain ⟨_, -, rfl, -⟩ := sudoEraRebondFailedCallback_ok.mp h
      exact ⟨_, _, _, _, rfl⟩
  | updateValidator =>
      simp only [sudoFailedCallback, htype] at h
      obtain ⟨_, -, rfl, -⟩ := endValidatorUpdate_ok.mp h
      exact ⟨_, _, _, _, rfl⟩
  | rmValidator =>
      simp only [sudoFailedCallback, htype] at h
      obtain ⟨_, -, rfl, -⟩ := endValidatorUpdate_ok.mp h
      exact ⟨_, _, _, _, rfl⟩
  | stakeLsm =>
      simp only [sudoFailedCallback, htype] at h
      obtain ⟨_, _, rfl, -⟩ := sudoStakeLsmFailedCallback_ok h
      exact ⟨_, _, _, _, rfl⟩
  | redeemTokenForShare =>
      simp only [sudoFailedCallback, htype] at h
      obtain ⟨_, -, rfl, -⟩ := sudoRedeemTokenForShareFailedCallback_ok.mp h
      exact ⟨_, _, _, _, rfl⟩

/-- A callback writes pools, unstake records and times of undelegations
only. -/
theorem callback_pools
    (h : callback store env payload answer = .ok (store', rsp)) :
    SameButPools store store' := by
  cases answer with
  | success => exact sudoCallback_pools h
  | error => exact sudoFailedCallback_pools h
  | timeout => exact sudoFailedCallback_pools h

/-- A pool that starts writes the rate of its first era. -/
theorem rates_of_dealt (h : Dealt store store' rsp querier a p b) :
    ∃ p', store'.pools b = some p' ∧ p'.status = .initStarted ∧
      p'.era = p.era ∧ p'.rate = p.rate ∧
      store'.eraRate = store.eraRate.save (b, p.era) p.rate := by
  obtain ⟨_, next, _, _, _, _, _, _, _, _, _, _, _, _, _, _, _, -, -, -,
    ⟨_, _, _, rfl⟩, -, -, rfl, -⟩ := h
  exact ⟨_, Map.save_self, rfl, rfl, rfl, rfl⟩

theorem registry_of_retried (h : Retried store store' rsp a) :
    SameRegistry store store' := by
  obtain ⟨_, _, -, -, rfl, -⟩ := h
  exact ⟨rfl, rfl, rfl⟩

end

namespace World

variable {net : Network} {w w' : World} {ev : Event}

/-- How an accepted event writes the rates of past eras. -/
inductive RatesMove (w : World) (ev : Event) (w' : World) : Prop
  | started {querier info msg id b p p'}
      (haction : ev.action = .execute querier info msg id)
      (hmsg : (∃ param, msg = .initPool param) ∧ p'.era = 0 ∨
        ∃ param, msg = .migratePool param)
      (htarget : msg.target w.store = some b)
      (hp : w.store.pools b = some p) (hstatus : p.status = .registerEnded)
      (hp' : w'.store.pools b = some p') (hstarted : p'.status = .initStarted)
      (hrates : w'.store.eraRate = w.store.eraRate.save (b, p'.era) p'.rate) :
      RatesMove w ev w'
  | activated {querier info id b p p'}
      (haction : ev.action = .execute querier info (.eraActive b) id)
      (hp : w.store.pools b = some p) (hstatus : p.status = .rebondEnded)
      (hp' : w'.store.pools b = some p') (hended : p'.status = .activeEnded)
      (hera : p'.era = p.era)
      (hrates : w'.store.eraRate = w.store.eraRate.save (b, p'.era) p'.rate) :
      RatesMove w ev w'
  | kept
      (hother : ∀ querier info msg id,
        ev.action = .execute querier info msg id →
          ∀ b p, msg.target w.store = some b → w.store.pools b = some p →
            msg.writesRegistry = true → p.status = .initFailed)
      (hrates : w'.store.eraRate = w.store.eraRate) : RatesMove w ev w'

theorem rates_of_execute (hs : Sound net w) (hstep : w.step net ev = some w')
    {querier : Querier} {info : MessageInfo} {msg : ExecuteMsg} {id : PacketId}
    (haction : ev.action = .execute querier info msg id) :
    RatesMove w ev w' := by
  obtain ⟨store, rsp, sent, hexec⟩ := executed_of_step hs hstep haction
  have hcall := hexec.call
  have hkept := SameRegistry.of_bookkept hexec.records
  -- a retry of a failed initialisation writes nothing
  have hretried : ∀ {b : String} {p : PoolInfo}, msg.target w.store = some b →
      w.store.pools b = some p → p.status = .initFailed →
      Retried w.store store rsp b → RatesMove w ev w' := by
    intro b p htarget hp hfailed hretry
    refine .kept (fun _ _ _ _ haction' => ?_)
      (hkept.rates.trans (registry_of_retried hretry).rates)
    obtain ⟨-, -, rfl, -⟩ := Action.execute.inj (haction.symm.trans haction')
    intro b' p' htarget' hp' _
    obtain rfl := Option.some.inj (htarget.symm.trans htarget')
    obtain rfl := Option.some.inj (hp.symm.trans hp')
    exact hfailed
  have hdealt : ∀ {b : String} {p q : PoolInfo},
      ((∃ param, msg = .initPool param) ∧ q.era = 0 ∨
        ∃ param, msg = .migratePool param) → msg.target w.store = some b →
      w.store.pools b = some p → p.status = .registerEnded →
      Dealt w.store store rsp querier net.self q b → RatesMove w ev w' := by
    intro b p q hmsg htarget hp hstatus hdeal
    obtain ⟨p', hp', hstarted, hera, hrate, hrates⟩ := rates_of_dealt hdeal
    refine .started haction (by rwa [hera]) htarget hp hstatus
      (by rw [hexec.records.pools, hp']) hstarted ?_
    rw [hkept.rates, hrates, hera, hrate]
  cases msg with
  | initPool param =>
      obtain ⟨p, pool, _, _, hinfo, hp, -, hcases⟩ := executeInitPool_ok hcall
      have htarget : (ExecuteMsg.initPool param).target w.store =
          some pool.icaAddr := congrArg
        (Option.map fun entry : IcaInfo × IcaInfo × String => entry.1.icaAddr)
        hinfo
      rcases hcases with ⟨hstatus, hretry⟩ | ⟨hstatus, _, _, hdeal⟩
      · exact hretried htarget hp hstatus hretry
      · exact hdealt (.inl ⟨⟨_, rfl⟩, rfl⟩) htarget hp hstatus hdeal
  | migratePool param =>
      obtain ⟨p, pool, _, _, hinfo, hp, -, hcases⟩ :=
        executeMigratePool_ok hcall
      have htarget : (ExecuteMsg.migratePool param).target w.store =
          some pool.icaAddr := congrArg
        (Option.map fun entry : IcaInfo × IcaInfo × String => entry.1.icaAddr)
        hinfo
      rcases hcases with ⟨hstatus, hretry⟩ | ⟨hstatus, -, -, hdeal⟩
      · exact hretried htarget hp hstatus hretry
      · exact hdealt (.inr ⟨_, rfl⟩) htarget hp hstatus hdeal
  | eraActive poolAddr =>
      obtain ⟨p, stackInfo, act, _, _, _, hp, hstatus, -, -, -, rfl, -⟩ :=
        executeEraActive_ok hcall
      have hp' : w'.store.pools poolAddr = some act.apply := by
        rw [hexec.records.pools]
        exact Map.save_self
      refine .activated haction hp hstatus hp' rfl rfl ?_
      rw [hkept.rates]
      rfl
  | _ =>
      refine .kept (fun _ _ _ _ haction' => ?_)
        (hkept.rates.trans (execute_registry hcall rfl).rates)
      obtain ⟨-, -, rfl, -⟩ :=
        Action.execute.inj (haction.symm.trans haction')
      exact fun _ _ _ _ => nofun

theorem rates_move (hs : Sound net w) (hstep : w.step net ev = some w') :
    RatesMove w ev w' := by
  obtain ⟨-, -, hact⟩ := step_eq_some hstep
  cases haction : ev.action with
  | execute querier info msg id => exact rates_of_execute hs hstep haction
  | answer id answer querier bankAccepts =>
      refine .kept (by simp [haction]) ?_
      obtain ⟨packet, hpacket, hhandled⟩ := handled_of_step hs hstep haction
      cases hhandled with
      | handled hpayload hcall houtcome hdelivered =>
          have hquiet := deliverAll_quiet houtcome.packets hdelivered
          have hcalled := SameRegistry.of_pools (callback_pools hcall)
          exact (SameRegistry.of_bookkept hquiet.store).rates.trans
            hcalled.rates
      | vain hvain hsame => rw [hsame]
  | openAck icaId channelId counterpartyChannelId hostConnectionId =>
      refine .kept (by simp [haction]) ?_
      rw [haction] at hact
      simp only [act, sudoEntry] at hact
      split at hact
      case h_1 => cases hact
      case h_2 store rsp hcall =>
          obtain rfl := Option.some.inj hact
          obtain ⟨_, _, _, _, _, _, _, _, -, -, -, -, rfl, -⟩ :=
            sudoOpenAck_ok hcall
          split <;> rfl
  | kvQueryResult queryId querier =>
      refine .kept (by simp [haction]) ?_
      rw [haction] at hact
      obtain ⟨_, _, hquiet⟩ := kvQueryResult_of_act hact
      exact (SameRegistry.of_bookkept hquiet.store).rates
  | token addrValidate address sender msg =>
      refine .kept (by simp [haction]) ?_
      rw [haction] at hact
      obtain ⟨-, -, hstore, -⟩ := token_of_act hact
      rw [hstore]

end World

end NeutronContracts
