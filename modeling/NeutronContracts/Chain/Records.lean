/-
The unstake records along a run: a record is written by an unstake, marked by
a withdrawal, and released or removed by the answer to the packet of the
withdrawal.  Everything else leaves the records alone.  Likewise the stack is
only written by its configuration, and the times of the undelegations by a
bond step and its answer.
-/
import NeutronContracts.Chain.Sound

namespace NeutronContracts

open StakeManager Fallible

/-- The unstake records and the indexes of the users are the same. -/
structure SameRecords (store store' : Storage) : Prop where
  records : store'.unstakesOfIndex = store.unstakesOfIndex
  indexes : store'.unstakesIndexForUser = store.unstakesIndexForUser

namespace SameRecords

theorem refl (store : Storage) : SameRecords store store := ⟨rfl, rfl⟩

theorem trans {first second third : Storage} (h : SameRecords first second)
    (h' : SameRecords second third) : SameRecords first third :=
  ⟨h'.records.trans h.records, h'.indexes.trans h.indexes⟩

variable {store store' : Storage}

theorem of_bookkept (h : Bookkept store store') : SameRecords store store' :=
  ⟨h.unstakesOfIndex, h.unstakesIndexForUser⟩

end SameRecords

/-- The records, the stack and the times of the undelegations are the same. -/
structure SameLedgers (store store' : Storage) : Prop extends
    SameRecords store store' where
  stack : store'.stack = store.stack
  times : store'.validatorsUnbondsTime = store.validatorsUnbondsTime

namespace SameLedgers

theorem refl (store : Storage) : SameLedgers store store := ⟨.refl _, rfl, rfl⟩

variable {store store' : Storage}

theorem of_queries (h : SameButQueries store store') :
    SameLedgers store store' := by
  obtain ⟨_, _, _, rfl⟩ := h
  exact ⟨⟨rfl, rfl⟩, rfl, rfl⟩

theorem of_bookkept (h : Bookkept store store') : SameLedgers store store' :=
  ⟨.of_bookkept h, h.stack, h.validatorsUnbondsTime⟩

theorem of_unstakes (h : SameButUnstakes store store') :
    store'.stack = store.stack ∧
      store'.validatorsUnbondsTime = store.validatorsUnbondsTime := by
  obtain ⟨_, _, rfl⟩ := h
  exact ⟨rfl, rfl⟩

end SameLedgers

/-- Two records of the same claim; only the status may differ. -/
def SameClaim (info info' : UnstakeInfo) : Prop :=
  ∃ status, info' = { info with status := status }

theorem SameClaim.refl (info : UnstakeInfo) : SameClaim info info := ⟨_, rfl⟩

theorem SameClaim.trans {first second third : UnstakeInfo}
    (h : SameClaim first second) (h' : SameClaim second third) :
    SameClaim first third := by
  obtain ⟨_, rfl⟩ := h
  obtain ⟨status, rfl⟩ := h'
  exact ⟨status, rfl⟩

/-- Every record was there before, for the same claim. -/
def OldRecords (store store' : Storage) : Prop :=
  ∀ key info', store'.unstakesOfIndex key = some info' →
    ∃ info, store.unstakesOfIndex key = some info ∧ SameClaim info info'

namespace OldRecords

theorem of_same {store store' : Storage}
    (h : store'.unstakesOfIndex = store.unstakesOfIndex) :
    OldRecords store store' := fun _ info' hinfo =>
  ⟨info', h ▸ hinfo, .refl _⟩

theorem trans {first second third : Storage} (h : OldRecords first second)
    (h' : OldRecords second third) : OldRecords first third := by
  intro key info'' hinfo
  obtain ⟨info', hinfo', hclaim'⟩ := h' key info'' hinfo
  obtain ⟨info, hinfo, hclaim⟩ := h key info' hinfo'
  exact ⟨info, hinfo, hclaim.trans hclaim'⟩

/-- The status of a record is set. -/
theorem of_save {store : Storage} {a : String} {index : Nat}
    {info : UnstakeInfo} (hinfo : store.unstakesOfIndex (a, index) = some info)
    (status : WithdrawStatus) :
    OldRecords store
      (store.saveUnstake a index { info with status := status }) := by
  intro key info' hsaved
  simp only [Storage.saveUnstake_unstakesOfIndex, Map.save_apply] at hsaved
  split at hsaved
  · rename_i hkey
    obtain rfl := Option.some.inj hsaved
    exact ⟨info, hkey ▸ hinfo, status, rfl⟩
  · exact ⟨info', hsaved, .refl _⟩

theorem of_remove (store : Storage) (a : String) (index : Nat) :
    OldRecords store (store.removeUnstake a index) := by
  intro key info' hleft
  simp only [Storage.removeUnstake_unstakesOfIndex, Map.remove_apply] at hleft
  split at hleft
  · cases hleft
  · exact ⟨info', hleft, .refl _⟩

end OldRecords

/-- The calls that write unstake records. -/
def StakeManager.ExecuteMsg.writesRecords : ExecuteMsg → Bool
  | .unstake _ _ => true
  | .withdraw _ _ _ => true
  | _ => false

/-- A call writes no ledger that is not its own. -/
structure OwnLedgers (msg : ExecuteMsg) (store store' : Storage) : Prop where
  records : msg.writesRecords = false → SameRecords store store'
  stack : (∀ param, msg ≠ .configStack param) → store'.stack = store.stack
  times : (∀ a selectVals, msg ≠ .eraBond a selectVals) →
    store'.validatorsUnbondsTime = store.validatorsUnbondsTime

theorem OwnLedgers.of_same {store store' : Storage} {msg : ExecuteMsg}
    (h : SameLedgers store store') : OwnLedgers msg store store' :=
  ⟨fun _ => h.toSameRecords, fun _ => h.stack, fun _ => h.times⟩

section

variable {store store' : Storage} {querier : Querier} {env : Env}
  {info : MessageInfo} {msg : ExecuteMsg} {rsp : Response}
  {payload : SudoPayload} {answer : Answer} {a b : String} {p : PoolInfo}

theorem sameLedgers_of_dealt (h : Dealt store store' rsp querier a p b) :
    SameLedgers store store' := by
  obtain ⟨_, next, _, _, _, _, _, _, _, _, _, _, _, _, _, _, _, -, -, -, hsame,
    -, -, rfl, -⟩ := h
  have hqueries := SameLedgers.of_queries hsame
  exact ⟨⟨hqueries.records, hqueries.indexes⟩, hqueries.stack, hqueries.times⟩

theorem sameLedgers_of_retried (h : Retried store store' rsp a) :
    SameLedgers store store' := by
  obtain ⟨_, _, -, -, rfl, -⟩ := h
  exact ⟨⟨rfl, rfl⟩, rfl, rfl⟩

theorem execute_ledgers
    (h : execute store querier env info msg = .ok (store', rsp)) :
    OwnLedgers msg store store' := by
  cases msg with
  | registerPool connectionId interchainAccountId =>
      obtain ⟨_, -, -, rfl, -⟩ := executeRegisterPool_ok h
      exact .of_same ⟨⟨rfl, rfl⟩, rfl, rfl⟩
  | initPool param =>
      obtain ⟨_, _, _, _, -, -, -, ⟨-, hretry⟩ | ⟨-, _, _, hdealt⟩⟩ :=
        executeInitPool_ok h
      · exact .of_same (sameLedgers_of_retried hretry)
      · exact .of_same (sameLedgers_of_dealt hdealt)
  | migratePool param =>
      obtain ⟨_, _, _, _, -, -, -, ⟨-, hretry⟩ | ⟨-, -, -, hdealt⟩⟩ :=
        executeMigratePool_ok h
      · exact .of_same (sameLedgers_of_retried hretry)
      · exact .of_same (sameLedgers_of_dealt hdealt)
  | configPool param =>
      obtain ⟨_, _, -, -, rfl, -⟩ := executeConfigPool_ok h
      exact .of_same ⟨⟨rfl, rfl⟩, rfl, rfl⟩
  | configStack param =>
      obtain ⟨_, _, -, -, rfl, -⟩ := executeConfigStack_ok h
      exact ⟨fun _ => ⟨rfl, rfl⟩, fun hother => absurd rfl (hother param),
        fun _ => rfl⟩
  | openChannel poolAddr closedChannelId =>
      obtain ⟨_, _, _, _, -, rfl, -⟩ := executeOpenChannel_ok h
      exact .of_same (.refl _)
  | redeemTokenForShare poolAddr tokens =>
      obtain ⟨_, _, _, _, _, -, -, -, -, -, -, rfl, -⟩ :=
        executeRedeemTokenForShare_ok h
      exact .of_same ⟨⟨rfl, rfl⟩, rfl, rfl⟩
  | stake neutronAddress poolAddr =>
      obtain ⟨_, _, -, -, -, -, rfl, -⟩ := executeStake_ok h
      exact .of_same ⟨⟨rfl, rfl⟩, rfl, rfl⟩
  | unstake amount poolAddr =>
      obtain ⟨_, _, _, _, -, -, -, -, -, -, -, -, rfl, -⟩ := executeUnstake_ok h
      exact ⟨nofun, fun _ => rfl, fun _ => rfl⟩
  | withdraw poolAddr receiver unstakeIndexList =>
      obtain ⟨_, _, _, _, _, -, -, hrecords, -, -, -, -, rfl, -⟩ :=
        executeWithdraw_ok h
      obtain ⟨_, rfl⟩ := withdrawRecords_store hrecords
      exact ⟨nofun, fun _ => rfl, fun _ => rfl⟩
  | poolRmValidator poolAddr validatorAddr =>
      obtain ⟨_, _, -, -, -, -, -, -, ⟨-, rfl, -⟩ | ⟨_, _, _, _, _, _, _, -, -,
        -, -, -, -, -, -, rfl, -⟩⟩ := executeRmPoolValidator_ok h
      · exact .of_same ⟨⟨rfl, rfl⟩, rfl, rfl⟩
      · exact .of_same ⟨⟨rfl, rfl⟩, rfl, rfl⟩
  | poolAddValidator poolAddr validatorAddr =>
      obtain ⟨_, _, _, -, -, -, -, rfl, -⟩ := executeAddPoolValidators_ok h
      exact .of_same ⟨⟨rfl, rfl⟩, rfl, rfl⟩
  | poolUpdateValidator poolAddr oldValidator newValidator =>
      obtain ⟨_, _, _, -, -, -, -, -, -, -, ⟨-, rfl, -⟩ | ⟨-, _, _, _, _, _, -,
        -, -, -, -, rfl, -⟩⟩ := executePoolUpdateValidator_ok h
      · exact .of_same ⟨⟨rfl, rfl⟩, rfl, rfl⟩
      · exact .of_same ⟨⟨rfl, rfl⟩, rfl, rfl⟩
  | poolUpdateValidatorsIcq poolAddr =>
      obtain ⟨_, _, _, -, -, rfl, -⟩ := executeUpdateValidatorsIcq_ok h
      exact .of_same ⟨⟨rfl, rfl⟩, rfl, rfl⟩
  | poolDelegate poolAddr stakeAmount =>
      obtain ⟨_, _, -, -, -, rfl, -⟩ := executePoolDelegate_ok h
      exact .of_same (.refl _)
  | eraUpdate poolAddr =>
      obtain ⟨_, _, -, -, -, -, ⟨-, rfl, -⟩ | ⟨-, _, _, -, -, -, -, rfl, -⟩⟩ :=
        executeEraUpdate_ok h
      · exact .of_same ⟨⟨rfl, rfl⟩, rfl, rfl⟩
      · exact .of_same ⟨⟨rfl, rfl⟩, rfl, rfl⟩
  | eraBond poolAddr selectVals =>
      obtain ⟨_, _, _, _, _, -, -, hbond, -, -, -, rfl, -⟩ :=
        executeEraBond_ok h
      obtain ⟨_, rfl⟩ := eraBondMsgs_store hbond
      exact ⟨fun _ => ⟨rfl, rfl⟩, fun _ => rfl,
        fun hother => absurd rfl (hother poolAddr selectVals)⟩
  | eraCollectWithdraw poolAddr =>
      obtain ⟨_, _, _, _, _, -, -, -, -, ⟨-, rfl, -⟩ | ⟨-, _, _, -, -, -, rfl,
        -⟩⟩ := executeEraCollectWithdraw_ok h
      · exact .of_same ⟨⟨rfl, rfl⟩, rfl, rfl⟩
      · exact .of_same ⟨⟨rfl, rfl⟩, rfl, rfl⟩
  | eraRebond poolAddr selectVals =>
      obtain ⟨_, -, -, ⟨-, rfl, -⟩ | ⟨-, _, _, _, -, -, -, -, rfl, -⟩⟩ :=
        executeEraRebond_ok h
      · exact .of_same ⟨⟨rfl, rfl⟩, rfl, rfl⟩
      · exact .of_same ⟨⟨rfl, rfl⟩, rfl, rfl⟩
  | eraActive poolAddr =>
      obtain ⟨_, _, _, _, _, _, -, -, -, hstack, -, rfl, -⟩ :=
        executeEraActive_ok h
      -- the stack is saved again as it was loaded
      exact .of_same ⟨⟨rfl, rfl⟩, hstack.symm, rfl⟩
  | stakeLsm neutronAddress poolAddr =>
      obtain ⟨_, _, _, _, _, _, _, _, _, _, -, -, -, -, -, -, -, -, -, -, -, -,
        -, -, -, -, -, rfl, -⟩ := executeStakeLsm_ok h
      exact .of_same ⟨⟨rfl, rfl⟩, rfl, rfl⟩
  | updateIcqUpdatePeriod poolAddr newUpdatePeriod =>
      obtain ⟨_, _, -, -, rfl, -⟩ := updateIcqUpdatePeriod_ok h
      exact .of_same (.refl _)

/-- All other calls leave the records alone. -/
theorem execute_records
    (h : execute store querier env info msg = .ok (store', rsp))
    (hother : msg.writesRecords = false) : SameRecords store store' :=
  (execute_ledgers h).records hother

/-- A withdrawal only marks records that are there, and all of them have
matured. -/
theorem withdrawRecords_old {sender : String} {next : Storage}
    {total result : Nat} {indexes : List Nat}
    (h : withdrawRecords sender a p store total indexes = .ok (next, result)) :
    OldRecords store next ∧ ∀ index ∈ indexes, ∃ info,
      store.unstakesOfIndex (a, index) = some info ∧
        info.unstaker = sender ∧ info.era + p.unbondingPeriod ≤ p.era := by
  induction indexes generalizing store total with
  | nil =>
      cases h
      exact ⟨.of_same rfl, nofun⟩
  | cons index rest ih =>
      simp only [withdrawRecords, bind_eq_ok, orError_eq_ok, rejectIf_eq_ok,
        addBelow_eq_ok, Decidable.not_not, Nat.not_lt] at h
      obtain ⟨info, hinfo, _, -, _, hsender, _, -, _, ⟨-, rfl⟩, _, hmature, _,
        -, h⟩ := h
      have hsaved := OldRecords.of_save hinfo .pending
      obtain ⟨hold, hrest⟩ := ih h
      refine ⟨hsaved.trans hold, ?_⟩
      rw [List.forall_mem_cons]
      refine ⟨⟨info, hinfo, hsender, hmature⟩, fun other hother => ?_⟩
      obtain ⟨info', hinfo', hsender', hmature'⟩ := hrest other hother
      obtain ⟨before, hbefore, _, rfl⟩ := hsaved _ _ hinfo'
      exact ⟨before, hbefore, hsender', hmature'⟩

theorem restoreRecords_old {next : Storage} {indexStrs : List String}
    (h : restoreRecords a store indexStrs = .ok next) :
    OldRecords store next := by
  induction indexStrs generalizing store with
  | nil =>
      cases h
      exact .of_same rfl
  | cons indexStr rest ih =>
      simp only [restoreRecords, bind_eq_ok, orError_eq_ok] at h
      obtain ⟨index, -, info, hinfo, h⟩ := h
      exact (OldRecords.of_save hinfo .idle).trans (ih h)

theorem removeUnstakes_old (a : String) (indexes : List Nat)
    (store : Storage) :
    OldRecords store (indexes.foldl (fun store unstakeIndex =>
      store.removeUnstake a unstakeIndex) store) := by
  induction indexes generalizing store with
  | nil => exact .of_same rfl
  | cons index rest ih =>
      exact (OldRecords.of_remove store a index).trans (ih _)

theorem sudoWithdrawCallback_old
    (h : sudoWithdrawCallback store payload = .ok (store', rsp)) :
    OldRecords store store' := by
  unfold sudoWithdrawCallback at h
  split at h
  · simp only [pure_eq_ok, Prod.mk.injEq] at h
    obtain ⟨rfl, -⟩ := h
    split
    · exact .of_same rfl
    · exact (removeUnstakes_old _ _ store).trans (.of_same rfl)
  · cases h

theorem sudoWithdrawFailedCallback_old
    (h : sudoWithdrawFailedCallback store payload = .ok (store', rsp)) :
    OldRecords store store' := by
  simp only [sudoWithdrawFailedCallback, bind_eq_ok, pure_eq_ok,
    Prod.mk.injEq] at h
  obtain ⟨_, hrestore, rfl, -⟩ := h
  exact restoreRecords_old hrestore

theorem sudoCallback_ledgers
    (h : sudoCallback store env payload = .ok (store', rsp))
    (hother : payload.txType ≠ .userWithdraw)
    (hbond : payload.txType ≠ .eraBond) : SameLedgers store store' := by
  cases htype : payload.txType with
  | userWithdraw => exact absurd htype hother
  | setWithdrawAddr =>
      simp only [sudoCallback, htype] at h
      obtain ⟨_, -, rfl, -⟩ := sudoSetWithdrawAddrCallback_ok.mp h
      exact ⟨⟨rfl, rfl⟩, rfl, rfl⟩
  | eraUpdate =>
      simp only [sudoCallback, htype] at h
      obtain ⟨_, -, rfl, -⟩ := sudoEraUpdateCallback_ok.mp h
      exact ⟨⟨rfl, rfl⟩, rfl, rfl⟩
  | eraBond => exact absurd htype hbond
  | eraCollectWithdraw =>
      simp only [sudoCallback, htype] at h
      obtain ⟨_, -, rfl, -⟩ := sudoEraCollectWithdrawCallback_ok.mp h
      exact ⟨⟨rfl, rfl⟩, rfl, rfl⟩
  | eraRebond =>
      simp only [sudoCallback, htype] at h
      obtain ⟨_, -, rfl, -⟩ := sudoEraRebondCallback_ok.mp h
      exact ⟨⟨rfl, rfl⟩, rfl, rfl⟩
  | updateValidator =>
      simp only [sudoCallback, htype] at h
      obtain ⟨_, -, rfl, -⟩ := sudoUpdateValidatorCallback_ok.mp h
      exact ⟨⟨rfl, rfl⟩, rfl, rfl⟩
  | rmValidator =>
      simp only [sudoCallback, htype] at h
      obtain ⟨_, -, rfl, -⟩ := sudoRmValidatorCallback_ok.mp h
      exact ⟨⟨rfl, rfl⟩, rfl, rfl⟩
  | stakeLsm =>
      simp only [sudoCallback, htype] at h
      obtain ⟨_, _, _, _, -, -, -, rfl, -⟩ := sudoStakeLsmCallback_ok h
      exact ⟨⟨rfl, rfl⟩, rfl, rfl⟩
  | redeemTokenForShare =>
      simp only [sudoCallback, htype] at h
      obtain ⟨_, -, rfl, -⟩ := sudoRedeemTokenForShareCallback_ok.mp h
      exact ⟨⟨rfl, rfl⟩, rfl, rfl⟩

theorem sudoFailedCallback_ledgers
    (h : sudoFailedCallback store payload = .ok (store', rsp))
    (hother : payload.txType ≠ .userWithdraw) : SameLedgers store store' := by
  cases htype : payload.txType with
  | userWithdraw => exact absurd htype hother
  | setWithdrawAddr =>
      simp only [sudoFailedCallback, htype] at h
      obtain ⟨_, -, rfl, -⟩ := sudoSetWithdrawAddrFailedCallback_ok.mp h
      exact ⟨⟨rfl, rfl⟩, rfl, rfl⟩
  | eraUpdate =>
      simp only [sudoFailedCallback, htype] at h
      obtain ⟨_, -, -, rfl, -⟩ := sudoEraUpdateFailedCallback_ok.mp h
      exact ⟨⟨rfl, rfl⟩, rfl, rfl⟩
  | eraBond =>
      simp only [sudoFailedCallback, htype] at h
      obtain ⟨_, -, rfl, -⟩ := sudoEraBondFailedCallback_ok.mp h
      exact ⟨⟨rfl, rfl⟩, rfl, rfl⟩
  | eraCollectWithdraw =>
      simp only [sudoFailedCallback, htype] at h
      obtain ⟨_, -, rfl, -⟩ := sudoEraCollectWithdrawFailedCallback_ok.mp h
      exact ⟨⟨rfl, rfl⟩, rfl, rfl⟩
  | eraRebond =>
      simp only [sudoFailedCallback, htype] at h
      obtain ⟨_, -, rfl, -⟩ := sudoEraRebondFailedCallback_ok.mp h
      exact ⟨⟨rfl, rfl⟩, rfl, rfl⟩
  | updateValidator =>
      simp only [sudoFailedCallback, htype] at h
      obtain ⟨_, -, rfl, -⟩ := endValidatorUpdate_ok.mp h
      exact ⟨⟨rfl, rfl⟩, rfl, rfl⟩
  | rmValidator =>
      simp only [sudoFailedCallback, htype] at h
      obtain ⟨_, -, rfl, -⟩ := endValidatorUpdate_ok.mp h
      exact ⟨⟨rfl, rfl⟩, rfl, rfl⟩
  | stakeLsm =>
      simp only [sudoFailedCallback, htype] at h
      obtain ⟨_, _, rfl, -⟩ := sudoStakeLsmFailedCallback_ok h
      exact .refl _
  | redeemTokenForShare =>
      simp only [sudoFailedCallback, htype] at h
      obtain ⟨_, -, rfl, -⟩ := sudoRedeemTokenForShareFailedCallback_ok.mp h
      exact ⟨⟨rfl, rfl⟩, rfl, rfl⟩

/-- What a bond callback writes besides the times of the undelegations. -/
theorem bondCallback_ledgers
    (h : callback store env payload answer = .ok (store', rsp))
    (htype : payload.txType = .eraBond) :
    SameRecords store store' ∧ store'.stack = store.stack := by
  cases answer with
  | success =>
      simp only [callback, sudoCallback, htype] at h
      obtain ⟨_, _, -, -, -, rfl, -⟩ := sudoEraBondCallback_ok h
      exact ⟨⟨rfl, rfl⟩, rfl⟩
  | error =>
      have hsame := sudoFailedCallback_ledgers h (by simp [htype])
      exact ⟨hsame.toSameRecords, hsame.stack⟩
  | timeout =>
      have hsame := sudoFailedCallback_ledgers h (by simp [htype])
      exact ⟨hsame.toSameRecords, hsame.stack⟩

theorem callback_ledgers
    (h : callback store env payload answer = .ok (store', rsp))
    (hother : payload.txType ≠ .userWithdraw)
    (hbond : payload.txType = .eraBond → answer ≠ .success) :
    SameLedgers store store' := by
  cases answer with
  | success => exact sudoCallback_ledgers h hother fun htype => hbond htype rfl
  | error => exact sudoFailedCallback_ledgers h hother
  | timeout => exact sudoFailedCallback_ledgers h hother

/-- The callbacks of all other packets leave the records alone. -/
theorem callback_records
    (h : callback store env payload answer = .ok (store', rsp))
    (hother : payload.txType ≠ .userWithdraw) : SameRecords store store' := by
  by_cases hbond : payload.txType = .eraBond
  · exact (bondCallback_ledgers h hbond).1
  · exact (callback_ledgers h hother fun htype =>
      absurd htype hbond).toSameRecords

/-- The callbacks of a withdrawal write the records only and send nothing. -/
theorem withdrawCallback_store
    (h : callback store env payload answer = .ok (store', rsp))
    (htype : payload.txType = .userWithdraw) :
    SameButUnstakes store store' ∧ rsp.messages = [] := by
  cases answer with
  | success =>
      simp only [callback, sudoCallback, htype] at h
      exact sudoWithdrawCallback_store h
  | error =>
      simp only [callback, sudoFailedCallback, htype] at h
      exact sudoWithdrawFailedCallback_store h
  | timeout =>
      simp only [callback, sudoFailedCallback, htype] at h
      exact sudoWithdrawFailedCallback_store h

/-- No callback writes the stack. -/
theorem callback_stack
    (h : callback store env payload answer = .ok (store', rsp)) :
    store'.stack = store.stack := by
  by_cases hwithdraw : payload.txType = .userWithdraw
  · exact (SameLedgers.of_unstakes (withdrawCallback_store h hwithdraw).1).1
  · by_cases hbond : payload.txType = .eraBond
    · exact (bondCallback_ledgers h hbond).2
    · exact (callback_ledgers h hwithdraw fun htype =>
        absurd htype hbond).stack

/-- Only the success of a bond step writes the times of undelegations. -/
theorem callback_times
    (h : callback store env payload answer = .ok (store', rsp))
    (hbond : payload.txType = .eraBond → answer ≠ .success) :
    store'.validatorsUnbondsTime = store.validatorsUnbondsTime := by
  by_cases hwithdraw : payload.txType = .userWithdraw
  · exact (SameLedgers.of_unstakes (withdrawCallback_store h hwithdraw).1).2
  · exact (callback_ledgers h hwithdraw hbond).times

theorem withdrawCallback_old
    (h : callback store env payload answer = .ok (store', rsp))
    (htype : payload.txType = .userWithdraw) : OldRecords store store' := by
  cases answer with
  | success =>
      simp only [callback, sudoCallback, htype] at h
      exact sudoWithdrawCallback_old h
  | error =>
      simp only [callback, sudoFailedCallback, htype] at h
      exact sudoWithdrawFailedCallback_old h
  | timeout =>
      simp only [callback, sudoFailedCallback, htype] at h
      exact sudoWithdrawFailedCallback_old h

end

namespace World

variable {net : Network} {w w' : World} {ev : Event}

/-- How an accepted event touches the unstake records. -/
inductive RecordMove (net : Network) (w : World) (ev : Event) (w' : World) :
    Prop
  | unstaked {querier info amount b id p burned token}
      (haction : ev.action = .execute querier info (.unstake amount b) id)
      (hp : w.store.pools b = some p)
      (htoken : token = burned * p.rate / calBase) (hlarge : 5 < token)
      (hpools : w'.store.pools =
        w.store.pools.save b (unstaked p token burned))
      (hrecords : w'.store.unstakesOfIndex =
        w.store.unstakesOfIndex.save (b, p.nextUnstakeIndex + 1)
          { era := p.era
            poolAddr := b
            unstaker := info.sender
            amount := token - 5
            status := .idle
            index := p.nextUnstakeIndex + 1 })
      (hindexes : w'.store.unstakesIndexForUser =
        w.store.unstakesIndexForUser.save (info.sender, b)
          ((w.store.unstakesIndexForUser (info.sender, b)).getD [] ++
            [p.nextUnstakeIndex + 1]))
      (hpending : w'.pending = w.pending) : RecordMove net w ev w'
  | withdrawn {querier info b receiver indexes id p next total sub payload}
      {tx : SubmitTx}
      (haction : ev.action =
        .execute querier info (.withdraw b receiver indexes) id)
      (haccount : isAccount info.sender = true)
      (hp : w.store.pools b = some p)
      (hrecords : withdrawRecords info.sender b p w.store 0 indexes =
        .ok (next, total))
      (hnext : w'.store.unstakesOfIndex = next.unstakesOfIndex)
      (hindexes :
        w'.store.unstakesIndexForUser = w.store.unstakesIndexForUser)
      (hpools : w'.store.pools = w.store.pools)
      (hsends : Sends (some sub) id info.sender (.withdraw b receiver indexes)
        w w')
      (hmsg : sub.msg = .submitTx tx)
      (hmsgs : tx.msgs = [genMsgSend b receiver p.remoteDenom total])
      (hpayload : sub.payload = some payload)
      (htext : payload.message =
        withdrawMessage total info.sender receiver indexes)
      (hpool : payload.poolAddr = b)
      (htype : payload.txType = .userWithdraw) : RecordMove net w ev w'
  | answered {id answer querier bankAccepts packet payload store rsp}
      (haction : ev.action = .answer id answer querier bankAccepts)
      (hpacket : w.pending id = some packet)
      (hpayload : packet.payload = some payload)
      (htype : payload.txType = .userWithdraw)
      (hcall : callback (w.afterTake id) ⟨ev.block, net.self⟩ payload answer =
        .ok (store, rsp))
      (hrecords : SameRecords store w'.store)
      (hpools : w'.store.pools = w.store.pools)
      (hpending : w'.pending = w.pending.remove id) : RecordMove net w ev w'
  | dropped {id answer querier bankAccepts packet payload}
      (haction : ev.action = .answer id answer querier bankAccepts)
      (hpacket : w.pending id = some packet)
      (hpayload : packet.payload = some payload)
      (htype : payload.txType = .userWithdraw)
      (hfailed : ∀ result, callback (w.afterTake id) ⟨ev.block, net.self⟩
        payload answer ≠ .ok result)
      (hsame : SameRecords w.store w'.store)
      (hpending : w'.pending = w.pending.remove id) : RecordMove net w ev w'
  | other
      (hexecute : ∀ querier info msg id,
        ev.action = .execute querier info msg id → msg.writesRecords = false)
      (hanswer : ∀ id answer querier bankAccepts packet payload,
        ev.action = .answer id answer querier bankAccepts →
          w.pending id = some packet → packet.payload = some payload →
            payload.txType ≠ .userWithdraw)
      (hsame : SameRecords w.store w'.store) : RecordMove net w ev w'

/-- A token call or an answer of a query leaves the records alone. -/
theorem Quiet.sameRecords (h : Quiet w w') : SameRecords w.store w'.store :=
  .of_bookkept h.store

theorem record_move_of_execute (hs : Sound net w)
    (hstep : w.step net ev = some w') {querier : Querier} {info : MessageInfo}
    {msg : ExecuteMsg} {id : PacketId}
    (haction : ev.action = .execute querier info msg id) :
    RecordMove net w ev w' := by
  obtain ⟨store, rsp, sent, hexec⟩ := executed_of_step hs hstep haction
  have hcall := hexec.call
  have hkept := SameRecords.of_bookkept hexec.records
  have hquiet : msg.writesRecords = false → RecordMove net w ev w' := by
    intro hother
    refine .other (fun _ _ _ _ haction' => ?_) (by simp [haction])
      ((execute_records hcall hother).trans hkept)
    obtain ⟨-, -, rfl, -⟩ := Action.execute.inj (haction.symm.trans haction')
    exact hother
  cases msg with
  | unstake amount b =>
      obtain ⟨p, _, burned, token, hp, -, -, -, htoken, -, -, hlarge, hstore,
        hmsgs⟩ := executeUnstake_ok hcall
      have hpackets : packets rsp.messages = [] := by
        rw [hmsgs]
        simp [packets, isPacket]
      have hsends := hexec.sends
      rw [hexec.sent_eq (o := none) hpackets] at hsends
      refine .unstaked haction hp htoken hlarge ?_ ?_ ?_ hsends.1
      · rw [hexec.records.pools, hstore]
        rfl
      · rw [hkept.records, hstore]
        rfl
      · rw [hkept.indexes, hstore]
        rfl
  | withdraw b receiver indexes =>
      obtain ⟨p, next, total, tx, payload, hp, -, hrecords, hmsgs, htext,
        hpool, htype, hstore, hrsp⟩ := executeWithdraw_ok hcall
      obtain ⟨_, hnext⟩ := withdrawRecords_store hrecords
      have hpackets : packets rsp.messages = (some (⟨.submitTx tx,
          some next.replyId, some payload⟩ : SubMsg)).toList := by
        rw [hrsp]
        rfl
      have hsends := hexec.sends
      rw [hexec.sent_eq hpackets] at hsends
      refine .withdrawn haction hexec.account hp hrecords ?_ ?_ ?_ hsends rfl
        hmsgs rfl htext hpool htype
      · rw [hkept.records, hstore]
        rfl
      · rw [hkept.indexes, hstore, hnext]
        rfl
      · rw [hexec.records.pools, hstore, hnext]
        rfl
  | _ => exact hquiet rfl

theorem record_move_of_answer (hs : Sound net w)
    (hstep : w.step net ev = some w') {id : PacketId} {answer : Answer}
    {querier : Querier} {bankAccepts : Bool}
    (haction : ev.action = .answer id answer querier bankAccepts) :
    RecordMove net w ev w' := by
  obtain ⟨packet, hpacket, hhandled⟩ := handled_of_step hs hstep haction
  have hother : ∀ payload, packet.payload = some payload →
      payload.txType ≠ .userWithdraw → SameRecords w.store w'.store →
        RecordMove net w ev w' := by
    intro payload hpayload htype hsame
    refine .other (by simp [haction]) ?_ hsame
    intro _ _ _ _ packet' payload' haction' hpacket' hpayload'
    obtain ⟨rfl, -⟩ := Action.answer.inj (haction.symm.trans haction')
    obtain rfl := Option.some.inj (hpacket.symm.trans hpacket')
    obtain rfl := Option.some.inj (hpayload.symm.trans hpayload')
    exact htype
  cases hhandled with
  | handled hpayload hcall houtcome hdelivered =>
      rename_i payload store rsp
      have hquiet := deliverAll_quiet houtcome.packets hdelivered
      by_cases htype : payload.txType = .userWithdraw
      · obtain ⟨⟨_, _, hsame⟩, -⟩ := withdrawCallback_store hcall htype
        refine .answered haction hpacket hpayload htype hcall hquiet.sameRecords
          ?_ hquiet.pending
        rw [hquiet.store.pools]
        simp only [hsame]
        rfl
      · have hsame := callback_records hcall htype
        exact hother payload hpayload htype
          ⟨hquiet.sameRecords.records.trans hsame.records,
            hquiet.sameRecords.indexes.trans hsame.indexes⟩
  | vain hvain hsame =>
      subst hsame
      cases hpayload : packet.payload with
      | none =>
          refine .other (by simp [haction]) ?_ ⟨rfl, rfl⟩
          intro _ _ _ _ packet' payload' haction' hpacket' hpayload'
          obtain ⟨rfl, -⟩ := Action.answer.inj (haction.symm.trans haction')
          obtain rfl := Option.some.inj (hpacket.symm.trans hpacket')
          cases hpayload.symm.trans hpayload'
      | some payload =>
          by_cases htype : payload.txType = .userWithdraw
          · refine .dropped haction hpacket hpayload htype ?_ ⟨rfl, rfl⟩ rfl
            rintro ⟨store, rsp⟩ hok
            have hnone := hvain payload store rsp hpayload hok
            rw [(withdrawCallback_store hok htype).2] at hnone
            cases hnone
          · exact hother payload hpayload htype ⟨rfl, rfl⟩

/-- Which handler has written the storage in an accepted step. -/
inductive StoreMove (net : Network) (w : World) (ev : Event) (w' : World) :
    Prop
  | called {querier info msg id store rsp}
      (haction : ev.action = .execute querier info msg id)
      (hcall : execute w.store querier ⟨ev.block, net.self⟩ info msg =
        .ok (store, rsp))
      (hkept : Bookkept store w'.store) : StoreMove net w ev w'
  | answered {id answer querier bankAccepts packet payload store rsp}
      (haction : ev.action = .answer id answer querier bankAccepts)
      (hpacket : w.pending id = some packet)
      (hpayload : packet.payload = some payload)
      (hcall : callback (w.afterTake id) ⟨ev.block, net.self⟩ payload answer =
        .ok (store, rsp))
      (hkept : Bookkept store w'.store) : StoreMove net w ev w'
  | other (hsame : SameLedgers w.store w'.store) : StoreMove net w ev w'

theorem store_move (hs : Sound net w) (hstep : w.step net ev = some w') :
    StoreMove net w ev w' := by
  obtain ⟨-, -, hact⟩ := step_eq_some hstep
  cases haction : ev.action with
  | execute querier info msg id =>
      obtain ⟨store, rsp, sent, hexec⟩ := executed_of_step hs hstep haction
      exact .called haction hexec.call hexec.records
  | answer id answer querier bankAccepts =>
      obtain ⟨packet, hpacket, hhandled⟩ := handled_of_step hs hstep haction
      cases hhandled with
      | handled hpayload hcall houtcome hdelivered =>
          exact .answered haction hpacket hpayload hcall
            (deliverAll_quiet houtcome.packets hdelivered).store
      | vain hvain hsame =>
          subst hsame
          exact .other (.refl _)
  | openAck icaId channelId counterpartyChannelId hostConnectionId =>
      rw [haction] at hact
      obtain ⟨store, hopened, rfl⟩ := opened_of_act hact
      exact .other ⟨⟨hopened.unstakesOfIndex, hopened.unstakesIndexForUser⟩,
        hopened.stack, hopened.validatorsUnbondsTime⟩
  | kvQueryResult queryId querier =>
      rw [haction] at hact
      obtain ⟨_, _, hquiet⟩ := kvQueryResult_of_act hact
      have hsame := SameLedgers.of_bookkept hquiet.store
      exact .other ⟨⟨hsame.records, hsame.indexes⟩, hsame.stack, hsame.times⟩
  | token addrValidate address sender msg =>
      rw [haction] at hact
      obtain ⟨-, -, hstore, -⟩ := token_of_act hact
      refine .other ?_
      rw [hstore]
      exact .refl _

/-- Every accepted event touches the records in one of these ways. -/
theorem record_move (hs : Sound net w) (hstep : w.step net ev = some w') :
    RecordMove net w ev w' := by
  cases haction : ev.action with
  | execute querier info msg id =>
      exact record_move_of_execute hs hstep haction
  | answer id answer querier bankAccepts =>
      exact record_move_of_answer hs hstep haction
  | _ =>
      refine .other (by simp [haction]) (by simp [haction]) ?_
      cases store_move hs hstep with
      | called hcall => cases haction.symm.trans hcall
      | answered hanswer => cases haction.symm.trans hanswer
      | other hsame => exact hsame.toSameRecords

/-- The stack is only written by its configuration. -/
theorem stack_of_step (hs : Sound net w) (hstep : w.step net ev = some w')
    (hother : ∀ querier info param id,
      ev.action ≠ .execute querier info (.configStack param) id) :
    w'.store.stack = w.store.stack := by
  cases store_move hs hstep with
  | called haction hcall hkept =>
      rw [hkept.stack]
      refine (execute_ledgers hcall).stack ?_
      rintro param rfl
      exact hother _ _ _ _ haction
  | answered haction hpacket hpayload hcall hkept =>
      rw [hkept.stack, callback_stack hcall]
      rfl
  | other hsame => exact hsame.stack

/-- A step without an unstake only keeps records that were there. -/
theorem RecordMove.old (h : RecordMove net w ev w')
    (hunstake : ∀ querier info amount b id,
      ev.action ≠ .execute querier info (.unstake amount b) id) :
    OldRecords w.store w'.store := by
  cases h with
  | unstaked haction => exact absurd haction (hunstake _ _ _ _ _)
  | withdrawn _ _ _ hrecords hnext =>
      exact (withdrawRecords_old hrecords).1.trans (.of_same hnext)
  | answered _ _ _ htype hcall hrecords =>
      have hold := (withdrawCallback_old hcall htype).trans
        (.of_same hrecords.records)
      exact hold
  | dropped _ _ _ _ _ hsame => exact .of_same hsame.records
  | other _ _ hsame => exact .of_same hsame.records

end World

end NeutronContracts
