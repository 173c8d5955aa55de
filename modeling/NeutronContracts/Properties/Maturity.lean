/-
The age of an unstake record when it is withdrawn.  Maturity is counted in the
eras of the pool.  An era of the pool never runs ahead of the clock, so the
count is right as long as the record has been made in the era of the clock,
and as long as a new era length does not move the record behind that era.
-/
import NeutronContracts.Lib.Calendar
import NeutronContracts.Properties.Unbonding

namespace NeutronContracts

open StakeManager Fallible

/-- The unbonding time in eras, as the configuration of the era length sets
it. -/
def roundedPeriod (eraSeconds : Nat) : Nat :=
  (unbondingSeconds + eraSeconds - 1) / eraSeconds + 1

/-- The era of the clock is ahead of the era of the pool. -/
def eraDue (block : BlockInfo) (p : PoolInfo) : Bool :=
  match currentEra block p with
  | .ok era => decide (p.era < era)
  | .error _ => false

/-- The number of the era that the second `t` is in, in the calendar of a
pool. -/
def StakeManager.PoolInfo.eraAt (p : PoolInfo) (t : Nat) : Int :=
  Calendar.number p.eraSeconds p.offset t

section

variable {p p' : PoolInfo} {block : BlockInfo}

/-- The saturating sum of the code is the era of the clock while that fits. -/
theorem saturating_eq (hbegun : 0 ≤ p.eraAt block.seconds)
    (hfits : p.eraAt block.seconds < 2 ^ 63) :
    (U64.saturatingAddSigned (block.seconds / p.eraSeconds) p.offset : Int) =
      p.eraAt block.seconds := by
  unfold PoolInfo.eraAt Calendar.number at *
  unfold U64.saturatingAddSigned U64.limit
  omega

theorem seconds_lt (hlimit : block.time < U64.limit) :
    block.seconds < 2 ^ 63 := by
  have hle : block.seconds ≤ block.time / 1000000000 := le_rfl
  simp only [U64.limit] at hlimit
  omega

/-- The offset of the configuration keeps the era of the clock. -/
theorem offset_realigned (hlimit : block.time < U64.limit)
    (hbegun : 0 ≤ p.eraAt block.seconds)
    (hfits : p.eraAt block.seconds < 2 ^ 63)
    (hoffset : p'.offset = U64.asI64 (U64.saturatingAddSigned
        (block.seconds / p.eraSeconds) p.offset) -
      U64.asI64 (block.seconds / p'.eraSeconds)) :
    p'.offset = p.eraAt block.seconds - (block.seconds / p'.eraSeconds : Nat) ∧
      p'.eraAt block.seconds = p.eraAt block.seconds := by
  have hseconds := seconds_lt hlimit
  have hera := saturating_eq hbegun hfits
  have hperiods : block.seconds / p'.eraSeconds ≤ block.seconds :=
    Nat.div_le_self _ _
  unfold U64.asI64 at hoffset
  rw [if_pos (by omega), if_pos (by omega), hera] at hoffset
  refine ⟨hoffset, ?_⟩
  unfold PoolInfo.eraAt
  rw [hoffset]
  exact Calendar.number_realigned _ _ _

/-- The clock of a new pool shows era zero. -/
theorem eraAt_started (hlimit : block.time < U64.limit)
    (hoffset : p.offset = 0 - U64.asI64 (block.seconds / p.eraSeconds)) :
    p.eraAt block.seconds = 0 := by
  have hseconds := seconds_lt hlimit
  have hperiods : block.seconds / p.eraSeconds ≤ block.seconds :=
    Nat.div_le_self _ _
  unfold U64.asI64 at hoffset
  rw [if_pos (by omega)] at hoffset
  unfold PoolInfo.eraAt
  rw [hoffset]
  exact Calendar.number_realigned _ _ _

theorem minEraSeconds_pos (h : minEraSeconds ≤ p.eraSeconds) :
    0 < p.eraSeconds :=
  Nat.lt_of_lt_of_le (by decide) h

end

/-- The eras of a pool have begun by the second `now`, and there are not more
of them than seconds. -/
structure Clocked (p : PoolInfo) (now : Nat) : Prop where
  length : 0 < p.eraSeconds
  begun : 0 ≤ p.eraAt now
  bounded : p.eraAt now ≤ now

namespace Clocked

variable {p p' : PoolInfo} {now now' : Nat} {block : BlockInfo}

theorem later (h : Clocked p now) (hle : now ≤ now') : Clocked p now' where
  length := h.length
  begun := h.begun.trans (Calendar.number_mono hle)
  bounded := by
    have hadd : p.eraAt now' ≤ p.eraAt now + (now' - now : Nat) :=
      Calendar.number_le_add h.length hle
    have hbounded := h.bounded
    omega

theorem of_same (h : Clocked p now) (hlength : p'.eraSeconds = p.eraSeconds)
    (hoffset : p'.offset = p.offset) : Clocked p' now := by
  obtain ⟨hpos, hbegun, hbounded⟩ := h
  unfold PoolInfo.eraAt at hbegun hbounded
  refine ⟨hlength ▸ hpos, ?_, ?_⟩
  all_goals
    unfold PoolInfo.eraAt
    rw [hlength, hoffset]
    assumption

theorem fits (h : Clocked p block.seconds) (hlimit : block.time < U64.limit) :
    p.eraAt block.seconds < 2 ^ 63 := by
  have hseconds := seconds_lt hlimit
  have hbounded := h.bounded
  omega

theorem currentEra_ok (h : Clocked p block.seconds)
    (hlimit : block.time < U64.limit) :
    ∃ era, currentEra block p = .ok era ∧
      (era : Int) = p.eraAt block.seconds := by
  refine ⟨_, ?_, saturating_eq h.begun (h.fits hlimit)⟩
  simp only [currentEra, bind_eq_ok, divExact_eq_ok, pure_eq_ok]
  exact ⟨_, ⟨h.length.ne', rfl⟩, rfl⟩

theorem le_of_not_due (h : Clocked p block.seconds)
    (hlimit : block.time < U64.limit) (hdue : eraDue block p = false) :
    p.eraAt block.seconds ≤ p.era := by
  obtain ⟨era, hera, heq⟩ := h.currentEra_ok hlimit
  simp only [eraDue, hera, decide_eq_false_iff_not, Nat.not_lt] at hdue
  omega

/-- A new era length keeps the era of the clock. -/
theorem realigned (h : Clocked p block.seconds)
    (hlimit : block.time < U64.limit) (hlength : minEraSeconds ≤ p'.eraSeconds)
    (hoffset : p'.offset = U64.asI64 (U64.saturatingAddSigned
        (block.seconds / p.eraSeconds) p.offset) -
      U64.asI64 (block.seconds / p'.eraSeconds)) :
    p'.offset = p.eraAt block.seconds - (block.seconds / p'.eraSeconds : Nat) ∧
      p'.eraAt block.seconds = p.eraAt block.seconds ∧
      Clocked p' block.seconds := by
  obtain ⟨hnumber, hsame⟩ :=
    offset_realigned hlimit h.begun (h.fits hlimit) hoffset
  exact ⟨hnumber, hsame, minEraSeconds_pos hlength, hsame ▸ h.begun,
    hsame ▸ h.bounded⟩

/-- The clock of a new pool starts at era zero. -/
theorem started (hlimit : block.time < U64.limit)
    (hlength : minEraSeconds ≤ p.eraSeconds)
    (hoffset : p.offset = 0 - U64.asI64 (block.seconds / p.eraSeconds)) :
    Clocked p block.seconds := by
  have hzero := eraAt_started hlimit hoffset
  exact ⟨minEraSeconds_pos hlength, hzero.ge, by omega⟩

end Clocked

/-- A record made at the second `birth` in the era `era` of the pool: this era
is not behind the clock at its birth, and the pool has not run ahead of the
clock since. -/
structure Punctual (p : PoolInfo) (now birth era : Nat) : Prop where
  past : birth ≤ now
  birth : p.eraAt birth ≤ era
  since : p.era ≤ era ∨ (p.era : Int) ≤ p.eraAt now

namespace Punctual

variable {p p' : PoolInfo} {now now' birth era : Nat}

theorem later (h : Punctual p now birth era) (hle : now ≤ now') :
    Punctual p now' birth era where
  past := h.past.trans hle
  birth := h.birth
  since := h.since.imp_right fun hclock =>
    hclock.trans (Calendar.number_mono hle)

/-- The era of the pool may go back, or forward to the era of the clock. -/
theorem of_same (h : Punctual p now birth era)
    (hlength : p'.eraSeconds = p.eraSeconds) (hoffset : p'.offset = p.offset)
    (hera : p'.era ≤ p.era ∨ (p'.era : Int) ≤ p.eraAt now) :
    Punctual p' now birth era := by
  have hcalendar : p'.eraAt = p.eraAt := by
    unfold PoolInfo.eraAt
    rw [hlength, hoffset]
  obtain ⟨hpast, hbirth, hsince⟩ := h
  refine ⟨hpast, hcalendar ▸ hbirth, ?_⟩
  rw [hcalendar]
  rcases hera with hback | hforward
  · rcases hsince with hera | hclock
    · exact .inl (hback.trans hera)
    · exact .inr (by omega)
  · exact .inr hforward

/-- A record that is mature by its eras is as old as the unbonding time. -/
theorem matured (h : Punctual p now birth era) (hclock : Clocked p now)
    (hmature : era + roundedPeriod p.eraSeconds ≤ p.era) :
    birth + unbondingSeconds ≤ now := by
  obtain ⟨hpast, hbirth, hsince⟩ := h
  have hpositive : 0 < roundedPeriod p.eraSeconds := Nat.succ_pos _
  have hpassed : p.eraAt birth + (roundedPeriod p.eraSeconds : Nat) ≤
      p.eraAt now := by
    rcases hsince with hback | hclock
    · omega
    · omega
  exact (Calendar.add_span_lt hclock.length hpassed).le

end Punctual

namespace World

/-- The second in which each unstake record of a pool was made, the last one
first. -/
abbrev Births := List (Nat × Nat)

/-- The births of the records of pool `a` along a run. -/
def keepBirths (a : String) (births : Births) (w : World) (ev : Event)
    (_ : World) : Births :=
  match ev.action, w.store.pools a with
  | .execute _ _ (.unstake _ b) _, some p =>
      if b = a then (p.nextUnstakeIndex + 1, ev.block.seconds) :: births
      else births
  | _, _ => births

/-- Every withdrawn record is as old as the unbonding time. -/
def Matured (a : String) (s : World × Births) (ev : Event) : Prop :=
  ∀ indexes ∈ withdrawal a ev, ∀ index ∈ indexes,
    ∃ birth ∈ s.2.lookup index,
      birth + unbondingSeconds ≤ ev.block.seconds

instance (a : String) (s : World × Births) (ev : Event) :
    Decidable (Matured a s ev) :=
  inferInstanceAs (Decidable (∀ indexes ∈ withdrawal a ev,
    ∀ index ∈ indexes, ∃ birth ∈ s.2.lookup index,
      birth + unbondingSeconds ≤ ev.block.seconds))

/-- The pools the property is about: they start by `InitPool`, the time is
a 64-bit number of nanoseconds, and a withdrawal finds the unbonding period
that was set with the era length. -/
structure Periodic (a : String) (w : World) (ev : Event) : Prop where
  time : ev.block.time < U64.limit
  initialised : StartsByInit a w ev
  period : (withdrawal a ev).isSome → ∀ p ∈ w.store.pools a,
    p.unbondingPeriod = roundedPeriod p.eraSeconds

instance (a : String) (w : World) (ev : Event) :
    Decidable (Periodic a w ev) :=
  decidable_of_iff (ev.block.time < U64.limit ∧ StartsByInit a w ev ∧
      ((withdrawal a ev).isSome → ∀ p ∈ w.store.pools a,
        p.unbondingPeriod = roundedPeriod p.eraSeconds))
    ⟨fun ⟨htime, hinit, hperiod⟩ => ⟨htime, hinit, hperiod⟩,
      fun ⟨htime, hinit, hperiod⟩ => ⟨htime, hinit, hperiod⟩⟩

/-- An unstake from pool `a`. -/
def unstakes (a : String) (ev : Event) : Bool :=
  match ev.action with
  | .execute _ _ (.unstake _ b) _ => decide (b = a)
  | _ => false

/-- The era length that an event configures for pool `a`. -/
def newEraSeconds (a : String) (ev : Event) : Option Nat :=
  match ev.action with
  | .execute _ _ (.configPool param) _ =>
      if param.poolAddr = a then param.eraSeconds else none
  | _ => none

/-- No record is made while an era is due, and a new era length fits the
records: since the birth of a record at least as many eras of the new length
have begun as are counted since its era. -/
structure OnSchedule (a : String) (s : World × Births) (ev : Event) :
    Prop where
  unstake : unstakes a ev = true → ∀ p ∈ s.1.store.pools a,
    eraDue ev.block p = false
  config : ∀ eraSeconds ∈ newEraSeconds a ev, ∀ p ∈ s.1.store.pools a,
    ∀ era ∈ (currentEra ev.block p).toOption, ∀ entry ∈ s.2,
      ∀ info ∈ s.1.store.unstakesOfIndex (a, entry.1),
        era + entry.2 / eraSeconds ≤ info.era + ev.block.seconds / eraSeconds

instance (a : String) (s : World × Births) (ev : Event) :
    Decidable (OnSchedule a s ev) :=
  decidable_of_iff ((unstakes a ev = true → ∀ p ∈ s.1.store.pools a,
        eraDue ev.block p = false) ∧
      ∀ eraSeconds ∈ newEraSeconds a ev, ∀ p ∈ s.1.store.pools a,
        ∀ era ∈ (currentEra ev.block p).toOption, ∀ entry ∈ s.2,
          ∀ info ∈ s.1.store.unstakesOfIndex (a, entry.1),
            era + entry.2 / eraSeconds ≤
              info.era + ev.block.seconds / eraSeconds)
    ⟨fun ⟨hunstake, hconfig⟩ => ⟨hunstake, hconfig⟩,
      fun ⟨hunstake, hconfig⟩ => ⟨hunstake, hconfig⟩⟩

variable {net : Network} {w w' : World} {ev : Event} {a : String}
  {p p' : PoolInfo} {births : Births}

/-! ### What an event does to the schedule -/

/-- The length of an era stays, and the era of the pool goes no further than
the clock. -/
structure KeepsSchedule (block : BlockInfo) (p p' : PoolInfo) : Prop where
  eraSeconds : p'.eraSeconds = p.eraSeconds
  offset : p'.offset = p.offset
  era : p'.era ≤ p.era ∨
    ∃ era, currentEra block p = .ok era ∧ p'.era ≤ era
  started : p'.status = .registerEnded ↔ p.status = .registerEnded

/-- How an event changes the schedule of a pool. -/
inductive ScheduleMove (a : String) (w : World) (ev : Event)
    (p p' : PoolInfo) : Prop
  | kept (hkept : KeepsSchedule ev.block p p')
  | realigned (hnew : newEraSeconds a ev = some p'.eraSeconds)
      (hlength : minEraSeconds ≤ p'.eraSeconds) (hold : p.eraSeconds ≠ 0)
      (hoffset : p'.offset = U64.asI64 (U64.saturatingAddSigned
          (ev.block.seconds / p.eraSeconds) p.offset) -
        U64.asI64 (ev.block.seconds / p'.eraSeconds))
      (hera : p'.era = p.era) (hstatus : p'.status = p.status)
  | started (hfresh : p.status = .registerEnded)
      (hlive : p'.status ≠ .registerEnded)
      (hlength : minEraSeconds ≤ p'.eraSeconds)
      (hoffset : p'.offset =
        0 - U64.asI64 (ev.block.seconds / p'.eraSeconds))
      (hera : p'.era = 0)
  | migrated {param} (hparam : param ∈ migrated ev)
      (htarget : (ExecuteMsg.migratePool param).target w.store = some a)
      (hfresh : p.status = .registerEnded)
      (hlength : p'.eraSeconds = param.eraSeconds)
      (hoffset : p'.offset = param.offset) (hera : p'.era = param.era)

theorem KeepsSchedule.refl (block : BlockInfo) (p : PoolInfo) :
    KeepsSchedule block p p :=
  ⟨rfl, rfl, .inl le_rfl, Iff.rfl⟩

/-- A pool that has started. -/
theorem KeepsSchedule.of_live {block : BlockInfo}
    (hlength : p'.eraSeconds = p.eraSeconds) (hoffset : p'.offset = p.offset)
    (hera : p'.era ≤ p.era) (hlive : p.status ≠ .registerEnded)
    (hlive' : p'.status ≠ .registerEnded) : KeepsSchedule block p p' :=
  ⟨hlength, hoffset, .inl hera,
    ⟨fun hstatus => absurd hstatus hlive', fun hstatus => absurd hstatus hlive⟩⟩

theorem keepsSchedule_of_answer {payload : SudoPayload} {answer : Answer}
    {block : BlockInfo}
    (h : AnswerStep block.height p payload answer p')
    (hlive : payload.txType.needsStart = true → p.status ≠ .registerEnded) :
    KeepsSchedule block p p' := by
  cases h with
  | era hera =>
      have hstarted : p.status ≠ .registerEnded := by
        refine hlive ?_
        cases hera <;> simp [TxType.needsStart, *]
      cases hera with
      | eraUpdateFailed htype hfailed hpos =>
          exact .of_live rfl rfl (Nat.sub_le _ _) hstarted (by simp)
      | _ => exact .of_live rfl rfl le_rfl hstarted (by simp)
  | _ => exact ⟨rfl, rfl, .inl le_rfl, Iff.rfl⟩

theorem scheduleMove_of_era (hs : Sound net w)
    (hstep : w.step net ev = some w') (hp : w.store.pools a = some p)
    (hp' : w'.store.pools a = some p') {querier : Querier}
    {info : MessageInfo} {msg : ExecuteMsg} {id : PacketId}
    {sent : Option SubMsg}
    (haction : ev.action = .execute querier info msg id)
    (h : EraStep w.store querier ⟨ev.block, net.self⟩ a p msg sent p') :
    ScheduleMove a w ev p p' := by
  obtain ⟨store, rsp, sent', hexec⟩ := executed_of_step hs hstep haction
  have hdue : msg = .eraUpdate a →
      ∃ era, currentEra ev.block p = .ok era ∧ p.era + 1 ≤ era := by
    rintro rfl
    obtain ⟨q, era, hq, hera, hlt⟩ := executeEraUpdate_due hexec.call
    obtain rfl := Option.some.inj (hp.symm.trans hq)
    exact ⟨era, hera, hlt⟩
  cases h with
  | init htarget hstatus hcalls =>
      obtain ⟨q, pool, withdraw, admin, hinfo, hq, hstart⟩ :=
        executeInitPool_schedule hexec.call
      dsimp only at hinfo hq
      simp only [ExecuteMsg.target, hinfo, Option.map_some,
        Option.some.injEq] at htarget
      subst htarget
      obtain rfl := Option.some.inj (hp.symm.trans hq)
      obtain ⟨q', hq', hera, hlength, hoffset⟩ := hstart hstatus
      rw [← hexec.records.pools, hp'] at hq'
      obtain rfl := Option.some.inj hq'
      exact .started hstatus (by simp) hlength hoffset hera
  | migrate htarget hstatus hrate hcal hcalls =>
      exact .migrated (by simp [migrated, haction]) htarget hstatus rfl rfl rfl
  | retry htarget hmsg hstatus hcalls => exact .kept (.refl _ _)
  | eraUpdate hstatus hupdate hbond =>
      exact .kept ⟨rfl, rfl, .inr (hdue rfl), by simp [hstatus]⟩
  | eraUpdateSent hstatus hupdate hbond hcalls hmsg htoken =>
      exact .kept ⟨rfl, rfl, .inr (hdue rfl), by simp [startEra, hstatus]⟩
  | eraBond hstatus hmsgs hsent hcalls =>
      exact .kept (.of_live rfl rfl le_rfl (by simp [hstatus]) (by simp))
  | collect hstatus hinfo hamount =>
      exact .kept (.of_live rfl rfl le_rfl (by simp [hstatus]) (by simp))
  | collectSent hstatus hinfo hamount hne hcalls hmsgs =>
      exact .kept (.of_live rfl rfl le_rfl (by simp [hstatus]) (by simp))
  | rebond hstatus hzero =>
      exact .kept (.of_live rfl rfl le_rfl (by simp [hstatus]) (by simp))
  | rebondSent => exact .kept (.refl _ _)
  | active hstatus hshares hstack act htotal =>
      have hended : act.apply.status = .activeEnded := rfl
      exact .kept (.of_live rfl rfl le_rfl (by simp [hstatus])
        (by simp [hended]))

theorem scheduleMove_of_move (hs : Sound net w)
    (hstep : w.step net ev = some w') (hp : w.store.pools a = some p)
    (hp' : w'.store.pools a = some p')
    (hfresh : p.status = .registerEnded → Unstarted w a p)
    (hmove : PoolMove net w ev w' a p p') : ScheduleMove a w ev p p' := by
  cases hmove with
  | executed haction hexec hsends =>
      cases hexec with
      | era hera =>
          exact scheduleMove_of_era hs hstep hp hp' haction hera
      | config hpool hconfig =>
          obtain ⟨store, rsp, sent, hcall⟩ := executed_of_step hs hstep haction
          obtain ⟨q, q', hq, hq', hschedule⟩ :=
            executeConfigPool_schedule hcall.call
          subst hpool
          obtain rfl := Option.some.inj (hp.symm.trans hq)
          rw [← hcall.records.pools, hp'] at hq'
          obtain rfl := Option.some.inj hq'
          have hkept : p'.era = p.era ∧ p'.status = p.status := by
            obtain ⟨_, _, _, _, _, _, _, _, _, _, _, rfl⟩ := hconfig
            exact ⟨rfl, rfl⟩
          obtain ⟨hera, hstatus⟩ := hkept
          rcases hschedule with ⟨-, hlength, hoffset⟩ |
            ⟨hsome, hlength, hold, hoffset⟩
          · exact .kept ⟨hlength, hoffset, .inl hera.le, by rw [hstatus]⟩
          · exact .realigned (by simp [newEraSeconds, haction, hsome]) hlength
              hold hoffset hera hstatus
      | _ => exact .kept ⟨rfl, rfl, .inl le_rfl, Iff.rfl⟩
  | answered haction hpacket hpayload hpool hanswer hpending =>
      exact .kept (keepsSchedule_of_answer hanswer fun hkind hstatus =>
        (hfresh hstatus).quiet _ _ hkind
          ⟨_, _, hpacket, hpayload, hpool, rfl⟩)
  | answeredElsewhere => exact .kept (.refl _ _)
  | vain => exact .kept (.refl _ _)
  | idle => exact .kept (.refl _ _)

/-! ### The records -/

/-- The clock of a pool runs once it has started, and its records are in time
with it. -/
structure Timed (w : World) (a : String) (p : PoolInfo) (births : Births) :
    Prop where
  fresh : p.status = .registerEnded → Unstarted w a p ∧
    ∀ index, w.store.unstakesOfIndex (a, index) = none
  clock : p.status ≠ .registerEnded → Clocked p w.block.seconds
  records : ∀ index info, w.store.unstakesOfIndex (a, index) = some info →
    ∃ birth, births.lookup index = some birth ∧
      Punctual p w.block.seconds birth info.era

theorem Timed.live {index : Nat} {info : UnstakeInfo}
    (h : Timed w a p births)
    (hinfo : w.store.unstakesOfIndex (a, index) = some info) :
    p.status ≠ .registerEnded := by
  intro hstatus
  cases hinfo.symm.trans ((h.fresh hstatus).2 index)

theorem seconds_le {first second : BlockInfo}
    (h : first.time ≤ second.time) : first.seconds ≤ second.seconds :=
  Nat.div_le_div_right h

/-- The clock and the records at the block of the event. -/
theorem Timed.later (h : Timed w a p births)
    (htime : w.block.time ≤ ev.block.time) :
    Timed { w with block := ev.block } a p births where
  fresh hstatus :=
    ⟨⟨(h.fresh hstatus).1.rate, (h.fresh hstatus).1.quiet⟩, (h.fresh hstatus).2⟩
  clock hlive := (h.clock hlive).later (seconds_le htime)
  records index info hinfo := by
    obtain ⟨birth, hbirth, hpunctual⟩ := h.records index info hinfo
    exact ⟨birth, hbirth, hpunctual.later (seconds_le htime)⟩

theorem timed_of_move (h : Timed { w with block := ev.block } a p births)
    (hlimit : ev.block.time < U64.limit) (hinit : StartsByInit a w ev)
    (hp : w.store.pools a = some p) (hblock : w'.block = ev.block)
    (hfresh' : p'.status = .registerEnded → Unstarted w' a p')
    (hold : KeepsRecords a w w')
    (hconfig : ∀ eraSeconds ∈ newEraSeconds a ev,
      ∀ era ∈ (currentEra ev.block p).toOption,
        ∀ index birth, births.lookup index = some birth →
          ∀ info ∈ w.store.unstakesOfIndex (a, index),
            era + birth / eraSeconds ≤
              info.era + ev.block.seconds / eraSeconds)
    (hmove : ScheduleMove a w ev p p') : Timed w' a p' births := by
  cases hmove with
  | kept hkept =>
      refine ⟨fun hstatus => ⟨hfresh' hstatus, fun index => ?_⟩,
        fun hlive => ?_, fun index info' hinfo' => ?_⟩
      · exact hold.none ((h.fresh (hkept.started.mp hstatus)).2 index)
      · rw [hblock]
        exact (h.clock fun hstatus => hlive (hkept.started.mpr hstatus)).of_same
          hkept.eraSeconds hkept.offset
      · obtain ⟨info, hinfo, _, rfl⟩ := hold index info' hinfo'
        obtain ⟨birth, hbirth, hpunctual⟩ := h.records index info hinfo
        refine ⟨birth, hbirth, ?_⟩
        rw [hblock]
        refine hpunctual.of_same hkept.eraSeconds hkept.offset ?_
        rcases hkept.era with hback | ⟨era, hera, hle⟩
        · exact .inl hback
        · obtain ⟨era', hera', heq⟩ :=
            (h.clock (h.live hinfo)).currentEra_ok hlimit
          obtain rfl := Except.ok.inj (hera.symm.trans hera')
          dsimp only at heq ⊢
          exact .inr (by omega)
  | realigned hnew hlength hpos hoffset hera hstatus =>
      refine ⟨fun hfresh => ⟨hfresh' hfresh, fun index => ?_⟩,
        fun hlive => ?_, fun index info' hinfo' => ?_⟩
      · exact hold.none ((h.fresh (hstatus ▸ hfresh)).2 index)
      · rw [hblock]
        exact ((h.clock (hstatus ▸ hlive)).realigned hlimit hlength
          hoffset).2.2
      · obtain ⟨info, hinfo, _, rfl⟩ := hold index info' hinfo'
        obtain ⟨birth, hbirth, hpunctual⟩ := h.records index info hinfo
        have hclock := h.clock (h.live hinfo)
        obtain ⟨era, hcurrent, heq⟩ := hclock.currentEra_ok hlimit
        have hfits := hconfig _ hnew era (toOption_eq_some.mpr hcurrent) index
          birth hbirth info hinfo
        obtain ⟨hnumber, hsame, -⟩ :=
          hclock.realigned hlimit hlength hoffset
        refine ⟨birth, hbirth, ?_⟩
        rw [hblock]
        refine ⟨hpunctual.past, ?_, ?_⟩
        · unfold PoolInfo.eraAt
          rw [hnumber, ← heq]
          exact Calendar.number_realigned_le hfits
        · rw [hera, hsame]
          exact hpunctual.since
  | started hfresh hlive hlength hoffset hera =>
      refine ⟨fun hstatus => absurd hstatus hlive, fun _ => ?_,
        fun index info' hinfo' => ?_⟩
      · rw [hblock]
        exact .started hlimit hlength hoffset
      · cases hinfo'.symm.trans (hold.none ((h.fresh hfresh).2 index))
  | migrated hparam htarget hfresh =>
      exact absurd hfresh (hinit _ hparam htarget p hp)

/-- A record that is made while no era is due is in time. -/
theorem timed_of_unstake {token burned : Nat} {unstaker : String}
    (h : Timed { w with block := ev.block } a p births)
    (hlimit : ev.block.time < U64.limit) (hblock : w'.block = ev.block)
    (hdue : eraDue ev.block p = false)
    (htoken : token = burned * p.rate / calBase) (hlarge : 5 < token)
    (hrecords : w'.store.unstakesOfIndex =
      w.store.unstakesOfIndex.save (a, p.nextUnstakeIndex + 1)
        { era := p.era
          poolAddr := a
          unstaker := unstaker
          amount := token - 5
          status := .idle
          index := p.nextUnstakeIndex + 1 }) :
    Timed w' a (unstaked p token burned)
      ((p.nextUnstakeIndex + 1, ev.block.seconds) :: births) := by
  have hlive : p.status ≠ .registerEnded := by
    intro hstatus
    rw [(h.fresh hstatus).1.rate] at htoken
    simp only [Nat.mul_zero, Nat.zero_div] at htoken
    omega
  have hclock : Clocked p ev.block.seconds := h.clock hlive
  refine ⟨fun hstatus => absurd hstatus hlive, fun _ => ?_,
    fun index info hinfo => ?_⟩
  · rw [hblock]
    exact hclock.of_same rfl rfl
  · rw [hrecords, Map.save_apply] at hinfo
    rw [hblock, List.lookup_cons]
    by_cases hindex : index = p.nextUnstakeIndex + 1
    · rw [if_pos (by rw [hindex])] at hinfo
      obtain rfl := Option.some.inj hinfo
      exact ⟨_, by simp [hindex], le_rfl, hclock.le_of_not_due hlimit hdue,
        .inl le_rfl⟩
    · rw [if_neg (by simp [hindex])] at hinfo
      obtain ⟨birth, hbirth, hpunctual⟩ := h.records index info hinfo
      have hother : (index == p.nextUnstakeIndex + 1) = false := by
        simpa using hindex
      refine ⟨birth, ?_, hpunctual.of_same rfl rfl (.inl le_rfl)⟩
      rw [hother]
      exact hbirth

theorem keepBirths_of_other (h : unstakes a ev = false) :
    keepBirths a births w ev w' = births := by
  unfold keepBirths
  split
  · rename_i haction _
    refine if_neg fun hpool => ?_
    simp [unstakes, haction, hpool] at h
  · rfl

theorem unstakes_eq_true : unstakes a ev = true ↔
    ∃ querier info amount id,
      ev.action = .execute querier info (.unstake amount a) id := by
  unfold unstakes
  split
  · rename_i haction
    rw [haction]
    simp [eq_comm]
  · rename_i hother
    simp only [Bool.false_eq_true, false_iff, not_exists]
    exact fun _ _ _ _ haction => hother _ _ _ _ _ haction

/-- Every step on schedule keeps the records in time. -/
theorem timed_of_step (hs : Sound net w) (hstep : w.step net ev = some w')
    (hperiodic : Periodic a w ev) (honTime : OnSchedule a (w, births) ev)
    (h : Timed w a p births) (hp : w.store.pools a = some p)
    (hp' : w'.store.pools a = some p') (hmove : PoolMove net w ev w' a p p') :
    Timed w' a p' (keepBirths a births w ev w') := by
  have hblock := block_of_step hstep
  have hlater : Timed { w with block := ev.block } a p births :=
    h.later (step_eq_some hstep).2.1
  cases hunstake : unstakes a ev with
  | true =>
      obtain ⟨querier, info, amount, id, haction⟩ :=
        unstakes_eq_true.mp hunstake
      cases record_move hs hstep with
      | unstaked haction' hq htoken hlarge hpools hrecords =>
          obtain ⟨rfl, rfl, hmsg, rfl⟩ :=
            Action.execute.inj (haction.symm.trans haction')
          obtain ⟨rfl, rfl⟩ := ExecuteMsg.unstake.inj hmsg
          obtain rfl := Option.some.inj (hp.symm.trans hq)
          rw [hpools, Map.save_self] at hp'
          obtain rfl := Option.some.inj hp'
          have hbirths : keepBirths a births w ev w' =
              (p.nextUnstakeIndex + 1, ev.block.seconds) :: births := by
            simp [keepBirths, haction, hp]
          rw [hbirths]
          exact timed_of_unstake hlater hperiodic.time hblock
            (honTime.unstake hunstake p hp) htoken hlarge hrecords
      | withdrawn haction' => cases haction.symm.trans haction'
      | answered haction' => cases haction.symm.trans haction'
      | dropped haction' => cases haction.symm.trans haction'
      | other hexecute => cases hexecute _ _ _ _ haction
  | false =>
      have hold : KeepsRecords a w w' :=
        records_of_step hs hstep fun _ _ _ _ haction => by
          rw [unstakes_eq_true.mpr ⟨_, _, _, _, haction⟩] at hunstake
          cases hunstake
      rw [keepBirths_of_other hunstake]
      refine timed_of_move hlater hperiodic.time hperiodic.initialised hp
        hblock ?_ hold ?_ (scheduleMove_of_move hs hstep hp hp'
          (fun hstatus => (h.fresh hstatus).1) hmove)
      · refine unstarted_step hs hstep (fun q hq hstatus => ?_) p' hp'
        obtain rfl := Option.some.inj (hp.symm.trans hq)
        exact (h.fresh hstatus).1
      · intro eraSeconds hnew era hera index birth hbirth
        obtain ⟨before, after, rfl, -⟩ := List.lookup_eq_some_iff.mp hbirth
        exact honTime.config eraSeconds hnew p hp era hera (index, birth)
          (by simp)

/-! ### Runs -/

structure AllTimed (net : Network) (a : String) (s : World × Births) :
    Prop where
  sound : Sound net s.1
  homed : NoRecords a s.1
  pool : ∀ p, s.1.store.pools a = some p → Timed s.1 a p s.2

theorem allTimed_step {s s' : World × Births} (hinv : AllTimed net a s)
    (hstep : Transition.track (step net) (keepBirths a) s ev = some s')
    (hperiodic : Periodic a s.1 ev) (honTime : OnSchedule a s ev) :
    AllTimed net a s' := by
  obtain ⟨w, births⟩ := s
  obtain ⟨w', births'⟩ := s'
  obtain ⟨hworld, rfl⟩ := Transition.track_eq_some.mp hstep
  obtain ⟨hs, hhomed, hI⟩ := hinv
  dsimp only at hs hhomed hI hperiodic
  refine ⟨sound_step hs hworld, noRecords_step hs hworld hhomed, ?_⟩
  refine pool_invariant (J := fun p' => Timed w' a p'
    (keepBirths a births w ev w')) hs hworld hI ?_ ?_
  · intro p p' hp hp' hpool hmove
    exact timed_of_step hs hworld hperiodic honTime hpool hp hp' hmove
  · intro icaId admin hp _ hquiet _ _
    have hnone : ∀ index, w'.store.unstakesOfIndex (a, index) = none :=
      fun index =>
        (keepsRecords_of_missing hs hworld hp).none (hhomed hp index)
    refine ⟨fun _ => ⟨⟨rfl, fun txType id _ => hquiet txType id⟩, hnone⟩,
      fun hlive => absurd rfl hlive, fun index info hinfo => ?_⟩
    cases hinfo.symm.trans (hnone index)

/-- A record that is withdrawn is old enough. -/
theorem matured_of_step {s s' : World × Births} (hinv : AllTimed net a s)
    (hstep : Transition.track (step net) (keepBirths a) s ev = some s')
    (hperiodic : Periodic a s.1 ev) : Matured a s ev := by
  obtain ⟨w, births⟩ := s
  obtain ⟨w', births'⟩ := s'
  obtain ⟨hworld, -⟩ := Transition.track_eq_some.mp hstep
  obtain ⟨hs, -, hI⟩ := hinv
  dsimp only at hs hI hperiodic
  intro indexes hindexes index hmem
  obtain ⟨p, hp, hall⟩ := withdrawn_of_step hs hworld hindexes
  obtain ⟨info, hinfo, hmature⟩ := hall index hmem
  have htimed := (hI p hp).later (step_eq_some hworld).2.1
  obtain ⟨birth, hbirth, hpunctual⟩ := htimed.records index info hinfo
  have hperiod := hperiodic.period (by rw [hindexes]; rfl) p hp
  rw [hperiod] at hmature
  exact ⟨birth, hbirth, hpunctual.matured (htimed.clock (htimed.live hinfo))
    hmature⟩

/-- When every step is on schedule, no record is withdrawn before the
unbonding time of the host is over. -/
theorem never_early {net : Network} {a : String} {block : BlockInfo}
    {info : MessageInfo} {lsdTokenCodeId : Nat} {evs : List Event}
    (hrun : Transition.AllSteps (Transition.track (step net) (keepBirths a))
      (fun s ev _ => Periodic a s.1 ev ∧ OnSchedule a s ev)
      (genesis block info lsdTokenCodeId, []) evs) :
    Transition.AllSteps (Transition.track (step net) (keepBirths a))
      (fun s ev _ => Matured a s ev)
      (genesis block info lsdTokenCodeId, []) evs := by
  refine Transition.AllSteps.of_invariant (AllTimed net a) ?_ ?_ hrun
  · intro s ev s' hinv hstep hcond
    exact ⟨allTimed_step hinv hstep hcond.1 hcond.2,
      matured_of_step hinv hstep hcond.1⟩
  · exact ⟨sound_genesis net block info lsdTokenCodeId, fun _ _ => rfl,
      fun _ h => nomatch h⟩

end World

namespace Sample

/-- The unbonding period for eras of a day. -/
def rounded : List Event := setup.set 3 (call 1 (querier 0 [] 0)
  (.initPool { initParams with unbondingPeriod := roundedPeriod 86400 })
  (packetId 1))

/-- An event on day `n`, at a height of its own. -/
def atHeight (height n : Nat) (ev : Event) : Event :=
  { ev with block := ⟨height, (day n).time⟩ }

/-- The `k`-th era without stakes, all of it on day `n`; the delegations are
`before` until the bond step and `after` from then on. -/
def idleEra (k n before after : Nat) : List Event :=
  let height := 2 * k + 4
  [atHeight height n
      (call n (querier height [] 0) (.eraUpdate pool) (packetId 0)),
    atHeight (height + 1) n
      (call n (querier (height + 1) [("val1", before)] 0) (.eraBond pool [])
        (packetId (10 + k))),
    atHeight (height + 1) n (ack n .success (packetId (10 + k))),
    atHeight (height + 2) n
      (call n (querier (height + 2) [] 0) (.eraCollectWithdraw pool)
        (packetId 0)),
    atHeight (height + 2) n
      (call n (querier (height + 2) [] 0) (.eraRebond pool []) (packetId 0)),
    atHeight (height + 2) n
      (call n (querier (height + 2) [("val1", after)] 0) (.eraActive pool)
        (packetId 0))]

/-- An unstake on day `n`. -/
def unstakeAt (height n : Nat) : List Event :=
  [atHeight height n (allowBurn n 1000), atHeight height n (unstake n 500)]

end Sample

namespace World

/-- An unstake in the era of the clock, withdrawn when one era of each of the
next 22 days has begun. -/
theorem never_early_sample :
    let evs := Sample.rounded ++ Sample.firstEra ++
      Sample.idleEra 0 4 1050 1050 ++ Sample.idleEra 1 4 1050 1050 ++
      Sample.unstakeAt 8 4 ++ Sample.idleEra 2 5 1050 528 ++
      (List.range 21).flatMap (fun k =>
        Sample.idleEra (k + 3) (k + 6) 528 528) ++
      [Sample.atHeight 60 26
        (Sample.withdraw 26 "cosmos1user" [1] (Sample.packetId 7))]
    (Sample.run evs).isSome ∧
      Transition.AllSteps (Transition.track (step Sample.net)
          (keepBirths Sample.pool))
        (fun s ev _ => Matured Sample.pool s ev) (Sample.genesis, []) evs :=
  ⟨by decide +kernel, never_early (by decide +kernel)⟩

/-- After a pause of 20 days an unstake is made in an old era, all the eras
that are due are run on the same day, and the record is withdrawn. -/
theorem never_early_fails :
    let evs := Sample.rounded ++ Sample.firstEra ++ Sample.unstakeAt 4 24 ++
      Sample.idleEra 0 24 1050 528 ++
      (List.range 21).flatMap (fun k => Sample.idleEra (k + 1) 24 528 528) ++
      [Sample.atHeight 60 24
        (Sample.withdraw 24 "cosmos1user" [1] (Sample.packetId 7))]
    Transition.AllSteps (Transition.track (step Sample.net)
          (keepBirths Sample.pool))
        (fun s ev _ => Periodic Sample.pool s.1 ev) (Sample.genesis, []) evs ∧
      ¬ Transition.AllSteps (Transition.track (step Sample.net)
          (keepBirths Sample.pool))
        (fun s ev _ => Matured Sample.pool s ev) (Sample.genesis, []) evs :=
  ⟨by decide +kernel, by decide +kernel⟩

end World

end NeutronContracts
