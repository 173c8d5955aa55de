/-
Who may change the configuration: what belongs to the administrator of a pool
is left alone by the calls of everybody else, and so is the stack.
-/
import NeutronContracts.Chain.Records

namespace NeutronContracts

open StakeManager Fallible

namespace StakeManager

/-- The part of a pool that belongs to its administrator. -/
structure PoolConfig where
  admin : String
  lsdToken : String
  ibcDenom : String
  channelIdOfIbcDenom : String
  remoteDenom : String
  validatorAddrs : List String
  eraSeconds : Nat
  offset : Int
  unbondingPeriod : Nat
  minimalStake : Nat
  unstakeTimesLimit : Nat
  lsmPendingLimit : Nat
  rateChangeLimit : Nat
  unbondCommission : Nat
  platformFeeCommission : Nat
  platformFeeReceiver : String
  paused : Bool
  lsmSupport : Bool

def PoolInfo.config (p : PoolInfo) : PoolConfig where
  admin := p.admin
  lsdToken := p.lsdToken
  ibcDenom := p.ibcDenom
  channelIdOfIbcDenom := p.channelIdOfIbcDenom
  remoteDenom := p.remoteDenom
  validatorAddrs := p.validatorAddrs
  eraSeconds := p.eraSeconds
  offset := p.offset
  unbondingPeriod := p.unbondingPeriod
  minimalStake := p.minimalStake
  unstakeTimesLimit := p.unstakeTimesLimit
  lsmPendingLimit := p.lsmPendingLimit
  rateChangeLimit := p.rateChangeLimit
  unbondCommission := p.unbondCommission
  platformFeeCommission := p.platformFeeCommission
  platformFeeReceiver := p.platformFeeReceiver
  paused := p.paused
  lsmSupport := p.lsmSupport

/-- The calls that can change the configuration of a pool. -/
def ExecuteMsg.configures : ExecuteMsg → Bool
  | .initPool _ => true
  | .migratePool _ => true
  | .configPool _ => true
  | .poolRmValidator _ _ => true
  | .poolAddValidator _ _ => true
  | .poolUpdateValidator _ _ _ => true
  | _ => false

variable {store store' : Storage} {querier : Querier} {env : Env}
  {info : MessageInfo} {msg : ExecuteMsg} {rsp : Response}

/-- Only the administrator of a pool can make these calls. -/
theorem execute_admin (hconfigures : msg.configures = true)
    (h : execute store querier env info msg = .ok (store', rsp)) :
    ∃ a p, msg.target store = some a ∧ store.pools a = some p ∧
      info.sender = p.admin := by
  cases msg with
  | initPool param =>
      simp only [execute, executeInitPool, bind_eq_ok, orError_eq_ok,
        rejectIf_eq_ok, Prod.exists, ne_eq, not_not] at h
      obtain ⟨_, -, _, -, pool, _, _, hinfo, _, -, p, hp, _, hadmin, -⟩ := h
      exact ⟨pool.icaAddr, p, by simp [ExecuteMsg.target, hinfo], hp, hadmin⟩
  | migratePool param =>
      simp only [execute, executeMigratePool, bind_eq_ok, orError_eq_ok,
        rejectIf_eq_ok, Prod.exists, ne_eq, not_not] at h
      obtain ⟨pool, _, _, hinfo, _, -, p, hp, _, hadmin, -⟩ := h
      exact ⟨pool.icaAddr, p, by simp [ExecuteMsg.target, hinfo], hp, hadmin⟩
  | configPool param =>
      simp only [execute, executeConfigPool, bind_eq_ok, orError_eq_ok,
        rejectIf_eq_ok, ne_eq, not_not] at h
      obtain ⟨p, hp, _, hadmin, -⟩ := h
      exact ⟨_, p, rfl, hp, hadmin⟩
  | poolRmValidator poolAddr validatorAddr =>
      simp only [execute, executeRmPoolValidator, bind_eq_ok, orError_eq_ok,
        rejectIf_eq_ok, ne_eq, not_not] at h
      obtain ⟨p, hp, _, hadmin, -⟩ := h
      exact ⟨_, p, rfl, hp, hadmin⟩
  | poolAddValidator poolAddr validatorAddr =>
      simp only [execute, executeAddPoolValidators, bind_eq_ok, orError_eq_ok,
        rejectIf_eq_ok, ne_eq, not_not] at h
      obtain ⟨p, hp, _, hadmin, -⟩ := h
      exact ⟨_, p, rfl, hp, hadmin⟩
  | poolUpdateValidator poolAddr oldValidator newValidator =>
      simp only [execute, executePoolUpdateValidator, bind_eq_ok,
        orError_eq_ok, rejectIf_eq_ok, ne_eq, not_not] at h
      obtain ⟨p, hp, _, hadmin, -⟩ := h
      exact ⟨_, p, rfl, hp, hadmin⟩
  | _ => cases hconfigures

/-- Only its administrator changes the stack. -/
theorem executeConfigStack_admin {param : ConfigStackParams}
    (h : executeConfigStack store info param = .ok (store', rsp)) :
    ∃ stack, store.stack = some stack ∧ info.sender = stack.admin := by
  simp only [executeConfigStack, bind_eq_ok, orError_eq_ok, rejectIf_eq_ok,
    ne_eq, not_not] at h
  obtain ⟨stack, hstack, _, hadmin, -⟩ := h
  exact ⟨stack, hstack, hadmin.symm⟩

end StakeManager

section

variable {store : Storage} {querier : Querier} {env : Env}
  {info : MessageInfo} {a : String} {p p' : PoolInfo} {msg : ExecuteMsg}
  {sent : Option SubMsg}

theorem EraStep.config_eq (h : EraStep store querier env a p msg sent p')
    (hother : msg.configures = false ∨ msg.target store ≠ some a) :
    p'.config = p.config := by
  cases h with
  | init htarget => exact hother.elim nofun (absurd htarget)
  | migrate htarget => exact hother.elim nofun (absurd htarget)
  | retry => rfl
  | eraUpdate => rfl
  | eraUpdateSent => rfl
  | eraBond => rfl
  | collect => rfl
  | collectSent => rfl
  | rebond => rfl
  | rebondSent => rfl
  | active => rfl

/-- All other calls, and those about other pools, keep the configuration. -/
theorem ExecStep.config_eq
    (h : ExecStep store querier env info a p msg sent p')
    (hother : msg.configures = false ∨ msg.target store ≠ some a) :
    p'.config = p.config := by
  cases h with
  | addValidator => exact hother.elim nofun (absurd rfl)
  | rmValidator => exact hother.elim nofun (absurd rfl)
  | updateValidator => exact hother.elim nofun (absurd rfl)
  | updateValidatorSent => exact hother.elim nofun (absurd rfl)
  | config hpool => exact hother.elim nofun (absurd (congrArg some hpool))
  | era hera => exact hera.config_eq hother
  | elsewhere => rfl
  | stake => rfl
  | unstake => rfl
  | withdraw => rfl
  | stakeLsm => rfl
  | redeem => rfl
  | rmValidatorSent => rfl
  | updateValidatorsIcq => rfl
  | delegate => rfl
  | openChannel => rfl
  | updatePeriod => rfl

end

namespace World

variable {net : Network} {w w' : World} {ev : Event} {querier : Querier}
  {info : MessageInfo} {msg : ExecuteMsg} {id : PacketId}

theorem config_of_step (hs : Sound net w) (hstep : w.step net ev = some w')
    (haction : ev.action = .execute querier info msg id) {a : String}
    {p : PoolInfo} (hp : w.store.pools a = some p)
    (hsender : info.sender ≠ p.admin) :
    ∃ p', w'.store.pools a = some p' ∧ p'.config = p.config := by
  obtain ⟨store, rsp, sent, hexec⟩ := executed_of_step hs hstep haction
  obtain ⟨p', hp', hpool⟩ := hexec.outcome.step a p hp
  refine ⟨p', by rw [hexec.records.pools, hp'], hpool.config_eq ?_⟩
  cases hconfigures : msg.configures with
  | false => exact .inl rfl
  | true =>
      obtain ⟨b, q, htarget, hq, hadmin⟩ :=
        execute_admin hconfigures hexec.call
      refine .inr ?_
      rw [htarget]
      rintro hab
      rw [Option.some.inj hab] at hq
      obtain rfl := Option.some.inj (hp.symm.trans hq)
      exact hsender hadmin

theorem stack_of_other (hs : Sound net w) (hstep : w.step net ev = some w')
    (haction : ev.action = .execute querier info msg id) {stack : Stack}
    (hstack : w.store.stack = some stack)
    (hsender : info.sender ≠ stack.admin) : w'.store.stack = some stack := by
  rw [← hstack]
  refine stack_of_step hs hstep ?_
  intro querier' info' param id' haction'
  obtain ⟨rfl, rfl, rfl, rfl⟩ :=
    Action.execute.inj (haction.symm.trans haction')
  obtain ⟨store, rsp, sent, hexec⟩ := executed_of_step hs hstep haction
  obtain ⟨stack', hstack', hadmin⟩ := executeConfigStack_admin hexec.call
  obtain rfl := Option.some.inj (hstack.symm.trans hstack')
  exact hsender hadmin

/-- In every reachable state, a call of anyone but the administrator of a pool
keeps the configuration of the pool, and a call of anyone but the
administrator of the stack keeps the stack. -/
theorem config_changed_by_admin {block : BlockInfo} {deployer : MessageInfo}
    {lsdTokenCodeId : Nat} {evs : List Event}
    (hrun : Transition.exec (step net)
      (genesis block deployer lsdTokenCodeId) evs = some w)
    (hstep : w.step net ev = some w')
    (haction : ev.action = .execute querier info msg id) :
    (∀ a p, w.store.pools a = some p → info.sender ≠ p.admin →
      ∃ p', w'.store.pools a = some p' ∧ p'.config = p.config) ∧
    ∀ stack, w.store.stack = some stack → info.sender ≠ stack.admin →
      w'.store.stack = some stack :=
  have hs := sound_run hrun
  ⟨fun _ _ hp hsender => config_of_step hs hstep haction hp hsender,
    fun _ hstack hsender => stack_of_other hs hstep haction hstack hsender⟩

theorem config_changed_by_admin_sample :
    ∃ w w' p p', Sample.run Sample.setup = some w ∧
      w.step Sample.net (Sample.stake 1 1000) = some w' ∧
      w.store.pools Sample.pool = some p ∧
      w'.store.pools Sample.pool = some p' ∧ p.active = 0 ∧
      p'.active = 1000 ∧ p'.config = p.config := by
  obtain ⟨w, p, hw, hp, htest⟩ := Sample.exists_of_run Sample.setup
    (fun _ p => p.active = 0 && p.admin = Sample.admin) (by decide +kernel)
  obtain ⟨w', p', hw', hp', hactive⟩ := Sample.exists_of_run
    (Sample.setup ++ [Sample.stake 1 1000]) (fun _ p => p.active = 1000)
    (by decide +kernel)
  obtain ⟨middle, hmiddle, hlast⟩ := Transition.exec_append_eq_some.mp hw'
  obtain rfl := Option.some.inj (hw.symm.trans hmiddle)
  obtain ⟨next, hstep, hnext⟩ := Transition.exec_cons_eq_some.mp hlast
  obtain rfl := Option.some.inj hnext
  simp only [Bool.and_eq_true, decide_eq_true_eq] at htest hactive
  have hsender : Sample.user ≠ p.admin := by
    rw [htest.2]
    decide
  obtain ⟨p'', hp'', hconfig⟩ :=
    (config_changed_by_admin hw hstep rfl).1 Sample.pool p hp hsender
  obtain rfl := Option.some.inj (hp'.symm.trans hp'')
  exact ⟨w, next, p, p', hw, hstep, hp, hp', htest.1, hactive, hconfig⟩

end World

end NeutronContracts
