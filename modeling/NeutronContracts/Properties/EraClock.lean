/-
The clock of a pool: the era it shows for a block never falls and is never
overtaken by the era of the pool, and it is defined as long as eras are long
enough and their numbers fit.  Initialisation and configuration make sure of
that; a migration takes any length, offset and era.
-/
import NeutronContracts.Properties.Maturity

namespace NeutronContracts

open StakeManager Fallible

/-- The last second of the clock, which counts nanoseconds in 64 bits. -/
def lastSecond : Nat := (U64.limit - 1) / 1000000000

theorem seconds_le_last {block : BlockInfo} (hlimit : block.time < U64.limit) :
    block.seconds ≤ lastSecond :=
  Nat.div_le_div_right (Nat.le_sub_one_of_lt hlimit)

/-- The eras of pool `a` are long enough, nothing fails by a division through
their length, one era later the next era is due and can be started, and the
administrator can set any length that is allowed. -/
structure EraDefined (store : Storage) (now : BlockInfo) (a : String)
    (p : PoolInfo) : Prop where
  long : minEraSeconds ≤ p.eraSeconds
  division : ∀ seconds, ∃ eras,
    (U64.div seconds p.eraSeconds : NeutronResult Nat) = .ok eras
  current : ∀ block, ∃ era, currentEra block p = .ok era
  due : ∀ block : BlockInfo, block.time < U64.limit →
    now.seconds + p.eraSeconds ≤ block.seconds →
      ∃ era, currentEra block p = .ok era ∧ p.era < era ∧
        p.era + 1 < U64.limit
  advance : ∀ (querier : Querier) (env : Env) (info : MessageInfo),
    env.block.time < U64.limit →
    now.seconds + p.eraSeconds ≤ env.block.seconds →
    EraReady store querier env info a p →
      ∃ result, executeEraUpdate store querier env info a = .ok result
  reconfigure : ∀ (env : Env) (info : MessageInfo) (param : ConfigPoolParams),
    now.time ≤ env.block.time → env.block.time < U64.limit →
    param.poolAddr = a → info.sender = p.admin →
    (∀ eraSeconds ∈ param.eraSeconds,
      minEraSeconds ≤ eraSeconds ∧ eraSeconds ≤ maxEraSeconds) →
      ∃ result, executeConfigPool store env info param = .ok result

/-- The eras of a pool are long enough, its own era has begun by the second
`now`, and the numbers of its eras fit the signed numbers of the offset even
if one begins every second until the clock ends. -/
structure Fitting (p : PoolInfo) (now : Nat) : Prop where
  long : minEraSeconds ≤ p.eraSeconds
  begun : (p.era : Int) ≤ p.eraAt now
  room : p.eraAt now + lastSecond < 2 ^ 63 + now

namespace Fitting

variable {p p' : PoolInfo} {now now' : Nat} {block : BlockInfo}

theorem later (h : Fitting p now) (hle : now ≤ now') : Fitting p now' where
  long := h.long
  begun := h.begun.trans (Calendar.number_mono hle)
  room := by
    have hadd : p.eraAt now' ≤ p.eraAt now + (now' - now : Nat) :=
      Calendar.number_le_add (minEraSeconds_pos h.long) hle
    have hroom := h.room
    omega

/-- The calendar stays, and the era goes no further than the clock. -/
theorem of_same (h : Fitting p now) (hlength : p'.eraSeconds = p.eraSeconds)
    (hoffset : p'.offset = p.offset)
    (hera : p'.era ≤ p.era ∨ (p'.era : Int) ≤ p.eraAt now) :
    Fitting p' now := by
  have hcalendar : p'.eraAt = p.eraAt := by
    unfold PoolInfo.eraAt
    rw [hlength, hoffset]
  have hbegun := h.begun
  refine ⟨hlength ▸ h.long, ?_, hcalendar ▸ h.room⟩
  rw [hcalendar]
  rcases hera with hback | hforward
  · omega
  · exact hforward

theorem fits (h : Fitting p block.seconds)
    (hlimit : block.time < U64.limit) :
    0 ≤ p.eraAt block.seconds ∧ p.eraAt block.seconds < 2 ^ 63 := by
  have hlast := seconds_le_last hlimit
  have hbegun := h.begun
  have hroom := h.room
  constructor <;> omega

theorem currentEra_ok (h : Fitting p block.seconds)
    (hlimit : block.time < U64.limit) :
    ∃ era, currentEra block p = .ok era ∧
      (era : Int) = p.eraAt block.seconds := by
  obtain ⟨hbegun, hfits⟩ := h.fits hlimit
  refine ⟨_, ?_, saturating_eq hbegun hfits⟩
  simp only [currentEra, bind_eq_ok, divExact_eq_ok, pure_eq_ok]
  exact ⟨_, ⟨(minEraSeconds_pos h.long).ne', rfl⟩, rfl⟩

/-- A new length keeps the number of the current era. -/
theorem realigned (h : Fitting p block.seconds)
    (hlimit : block.time < U64.limit) (hlength : minEraSeconds ≤ p'.eraSeconds)
    (hoffset : p'.offset = U64.asI64 (U64.saturatingAddSigned
        (block.seconds / p.eraSeconds) p.offset) -
      U64.asI64 (block.seconds / p'.eraSeconds))
    (hera : p'.era = p.era) : Fitting p' block.seconds := by
  obtain ⟨hbegun, hfits⟩ := h.fits hlimit
  have hsame := (offset_realigned hlimit hbegun hfits hoffset).2
  refine ⟨hlength, ?_, hsame ▸ h.room⟩
  rw [hsame, hera]
  exact h.begun

/-- The clock of a new pool starts at era zero. -/
theorem started (hlimit : block.time < U64.limit)
    (hlength : minEraSeconds ≤ p.eraSeconds)
    (hoffset : p.offset = 0 - U64.asI64 (block.seconds / p.eraSeconds))
    (hera : p.era = 0) : Fitting p block.seconds := by
  have hzero := eraAt_started hlimit hoffset
  refine ⟨hlength, by omega, ?_⟩
  rw [hzero]
  have hlast : lastSecond < 2 ^ 63 := by decide
  omega

/-- The offset of a new length is a number of 64 bits. -/
theorem offset_ok (h : Fitting p block.seconds)
    (hlimit : block.time < U64.limit) (eraSeconds : Nat) :
    ∃ offset, (I64.sub (U64.asI64 (U64.saturatingAddSigned
          (block.seconds / p.eraSeconds) p.offset))
        (U64.asI64 (block.seconds / eraSeconds)) : NeutronResult Int) =
      .ok offset := by
  obtain ⟨hbegun, hfits⟩ := h.fits hlimit
  have hera := saturating_eq hbegun hfits
  have hseconds := seconds_lt hlimit
  have hperiods : block.seconds / eraSeconds ≤ block.seconds :=
    Nat.div_le_self _ _
  generalize block.seconds / eraSeconds = periods at hperiods ⊢
  refine ⟨_, if_pos ?_⟩
  unfold U64.asI64
  rw [if_pos (by omega), if_pos (by omega)]
  constructor <;> omega

/-- An era after a block the next era has begun. -/
theorem due {later : BlockInfo} (h : Fitting p block.seconds)
    (hlimit : later.time < U64.limit)
    (hpassed : block.seconds + p.eraSeconds ≤ later.seconds) :
    ∃ era, currentEra later p = .ok era ∧ p.era < era ∧
      p.era + 1 < U64.limit := by
  have hlater := h.later (Nat.le_of_add_right_le hpassed)
  obtain ⟨era, hera, heq⟩ := hlater.currentEra_ok hlimit
  have hfits := (hlater.fits hlimit).2
  have hnext : p.eraAt block.seconds + 1 ≤ p.eraAt later.seconds := by
    have hdiv : block.seconds / p.eraSeconds + 1 ≤
        later.seconds / p.eraSeconds := by
      rw [← Nat.add_div_right _ (minEraSeconds_pos h.long)]
      exact Nat.div_le_div_right hpassed
    unfold PoolInfo.eraAt Calendar.number
    omega
  have hbegun := h.begun
  refine ⟨era, hera, by omega, ?_⟩
  unfold U64.limit
  omega

/-- The eras of a fitting pool are defined from now on. -/
theorem defined {store : Storage} {a : String} (h : Fitting p block.seconds)
    (hp : store.pools a = some p) : EraDefined store block a p := by
  have hne : p.eraSeconds ≠ 0 := (minEraSeconds_pos h.long).ne'
  constructor
  · exact h.long
  · exact fun seconds => ⟨_, divExact_eq_ok.mpr ⟨hne, rfl⟩⟩
  · intro other
    exact ⟨_, bind_eq_ok.mpr ⟨_, divExact_eq_ok.mpr ⟨hne, rfl⟩, rfl⟩⟩
  · exact fun _ hlimit hpassed => h.due hlimit hpassed
  · intro querier env info hlimit hpassed hready
    obtain ⟨era, hera, hdue, hfits⟩ := h.due hlimit hpassed
    exact executeEraUpdate_accepts_iff.mpr
      ⟨p, era, hready, hera, hdue, hfits⟩
  · intro env info param htime hlimit hpool hsender hallowed
    have hlater : Fitting p env.block.seconds :=
      h.later (Nat.div_le_div_right htime)
    refine executeConfigPool_accepts (hpool ▸ hp) hsender ?_
    intro eraSeconds hnew
    obtain ⟨hmin, hmax⟩ := hallowed eraSeconds hnew
    exact ⟨hmin, hmax, hne, hlater.offset_ok hlimit eraSeconds⟩

end Fitting

namespace World

variable {net : Network} {w w' : World} {ev : Event} {a : String}
  {p p' : PoolInfo}

/-! ### The arithmetic of the eras -/

/-- The eras of a started pool are defined. -/
def ErasDefined (a : String) (w : World) : Prop :=
  ∀ p ∈ w.store.pools a, p.status ≠ .registerEnded →
    EraDefined w.store w.block a p

/-- A migration that starts the pool brings eras that are long enough, an era
that has begun, and an offset with which the numbers of the eras fit. -/
def FittingEras (a : String) (w : World) (ev : Event) : Prop :=
  ∀ param ∈ migrated ev,
    (ExecuteMsg.migratePool param).target w.store = some a →
      ∀ p ∈ w.store.pools a, p.status = .registerEnded →
        minEraSeconds ≤ param.eraSeconds ∧
        (param.era : Int) ≤
          (ev.block.seconds / param.eraSeconds : Nat) + param.offset ∧
        (ev.block.seconds / param.eraSeconds : Nat) + param.offset +
          lastSecond < 2 ^ 63 + ev.block.seconds

instance (a : String) (w : World) (ev : Event) :
    Decidable (FittingEras a w ev) :=
  inferInstanceAs (Decidable (∀ param ∈ migrated ev,
    (ExecuteMsg.migratePool param).target w.store = some a →
      ∀ p ∈ w.store.pools a, p.status = .registerEnded →
        minEraSeconds ≤ param.eraSeconds ∧
        (param.era : Int) ≤
          (ev.block.seconds / param.eraSeconds : Nat) + param.offset ∧
        (ev.block.seconds / param.eraSeconds : Nat) + param.offset +
          lastSecond < 2 ^ 63 + ev.block.seconds))

/-- The book-keeping, and the eras of pool `a`. -/
structure ErasKept (net : Network) (a : String) (w : World) : Prop where
  sound : Sound net w
  fresh : ∀ p, w.store.pools a = some p → p.status = .registerEnded →
    Unstarted w a p
  fitting : ∀ p, w.store.pools a = some p → p.status ≠ .registerEnded →
    Fitting p w.block.seconds

/-- What an event makes of the schedule of a pool fits again. -/
theorem fitting_of_move (hlimit : ev.block.time < U64.limit)
    (hconditions : FittingEras a w ev) (hp : w.store.pools a = some p)
    (h : p.status ≠ .registerEnded → Fitting p ev.block.seconds)
    (hlive : p'.status ≠ .registerEnded)
    (hmove : ScheduleMove a w ev p p') : Fitting p' ev.block.seconds := by
  cases hmove with
  | kept hkept =>
      have hbefore := h fun hstatus => hlive (hkept.started.mpr hstatus)
      refine hbefore.of_same hkept.eraSeconds hkept.offset ?_
      rcases hkept.era with hback | ⟨era, hera, hle⟩
      · exact .inl hback
      · obtain ⟨era', hera', heq⟩ := hbefore.currentEra_ok hlimit
        obtain rfl := Except.ok.inj (hera.symm.trans hera')
        exact .inr (by omega)
  | realigned hnew hlength hold hoffset hera hstatus =>
      exact (h (hstatus ▸ hlive)).realigned hlimit hlength hoffset hera
  | started hfresh hlive' hlength hoffset hera =>
      exact .started hlimit hlength hoffset hera
  | migrated hparam htarget hfresh hlength hoffset hera =>
      obtain ⟨hmin, hbegun, hroom⟩ := hconditions _ hparam htarget p hp hfresh
      refine ⟨hlength ▸ hmin, ?_, ?_⟩
      · unfold PoolInfo.eraAt Calendar.number
        rw [hera, hlength, hoffset]
        exact hbegun
      · unfold PoolInfo.eraAt Calendar.number
        rw [hlength, hoffset]
        exact hroom

theorem erasKept_step (h : ErasKept net a w) (hstep : w.step net ev = some w')
    (hlimit : ev.block.time < U64.limit) (hconditions : FittingEras a w ev) :
    ErasKept net a w' := by
  refine ⟨sound_step h.sound hstep, unstarted_step h.sound hstep h.fresh, ?_⟩
  rw [block_of_step hstep]
  refine pool_invariant (J := fun p' => p'.status ≠ .registerEnded →
    Fitting p' ev.block.seconds) h.sound hstep h.fitting ?_ ?_
  · intro p p' hp hp' hpool hmove hlive
    have hlater := fun hbefore => (hpool hbefore).later
      (seconds_le (step_eq_some hstep).2.1)
    exact fitting_of_move hlimit hconditions hp hlater hlive
      (scheduleMove_of_move h.sound hstep hp hp' (h.fresh p hp) hmove)
  · exact fun _ _ _ _ _ _ _ hlive => absurd rfl hlive

/-- In every state of a run whose migrations bring fitting eras, the eras of a
started pool are long enough, and the pool can be advanced and reconfigured. -/
theorem eras_defined {net : Network} {a : String} {block : BlockInfo}
    {info : MessageInfo} {lsdTokenCodeId : Nat} {evs : List Event}
    (hrun : Transition.AllSteps (step net)
      (fun w ev _ => ev.block.time < U64.limit ∧ FittingEras a w ev)
      (genesis block info lsdTokenCodeId) evs) :
    Transition.AllSteps (step net) (fun _ _ w' => ErasDefined a w')
      (genesis block info lsdTokenCodeId) evs := by
  refine Transition.AllSteps.of_invariant (ErasKept net a) ?_ ?_ hrun
  · rintro w ev w' hinv hstep ⟨hlimit, hconditions⟩
    have hnext := erasKept_step hinv hstep hlimit hconditions
    exact ⟨hnext, fun p hp hlive => (hnext.fitting p hp hlive).defined hp⟩
  · exact ⟨sound_genesis net block info lsdTokenCodeId,
      fun _ h => (nomatch h), fun _ h => (nomatch h)⟩

end World

namespace Sample

/-- An empty pool that is moved to this contract. -/
def migrateParams : MigratePoolParams where
  interchainAccountId := "pool"
  unbond := 0
  bond := 0
  active := 0
  ibcDenom := "ibc/ATOM"
  channelIdOfIbcDenom := "channel-7"
  remoteDenom := "uatom"
  validatorAddrs := ["val1", "val2"]
  era := 0
  rate := calBase
  totalPlatformFee := 0
  totalLsdTokenAmount := 0
  platformFeeReceiver := "neutron1fees"
  shareTokens := []
  lsdCodeId := some 1
  lsdTokenName := "stATOM"
  lsdTokenSymbol := "stATOM"
  minimalStake := 1
  unbondingPeriod := 1
  platformFeeCommission := none
  eraSeconds := 86400
  offset := 0
  sdkGreaterOrEqualV047 := true

/-- A pool is registered and migrated. -/
def migration (param : MigratePoolParams) : List Event :=
  setup.set 3 (call 1 (querier 0 [] 0) (.migratePool param) (packetId 1))

/-- A migrated pool goes to its next era, and eras become ten hours long. -/
def moved : List Event := migration migrateParams ++ [
  call 2 (querier 0 [] 0) (.eraUpdate pool) (packetId 2),
  configure 3 { unchanged with eraSeconds := some 36000 }]

/-- Eras without length. -/
def noLength : MigratePoolParams := { migrateParams with eraSeconds := 0 }

/-- An offset that leaves no room for another length. -/
def noRoom : MigratePoolParams := { migrateParams with offset := 2 ^ 63 - 1 }

/-- An era that no other one follows. -/
def lastEra : MigratePoolParams := { migrateParams with era := U64.limit - 1 }

/-- The pool has started, and its eras are not defined. -/
def isBroken (w : World) : Bool :=
  (w.store.pools pool).any fun p =>
    decide (p.status ≠ .registerEnded ∧ w.block.time < U64.limit) &&
      (decide (p.eraSeconds < minEraSeconds) ||
        (executeConfigPool w.store ⟨w.block, net.self⟩ ⟨p.admin, []⟩
          { unchanged with
            eraSeconds := some minEraSeconds }).toOption.isNone ||
        decide (p.era = U64.limit - 1 ∧
          w.block.seconds + p.eraSeconds ≤ lastSecond))

/-- Eras of a day that become eras of ten hours after a failed update. -/
def shortened : List Event := setup ++ [
  stake 1 1000,
  call 2 (querier 0 [] 0) (.eraUpdate pool) (packetId 2),
  ack 2 .timeout (packetId 2),
  configure 3 { unchanged with eraSeconds := some 36000 },
  call 4 (querier 0 [] 0) (.eraUpdate pool) (packetId 3)]

end Sample

namespace World

/-- A migrated pool is advanced and reconfigured. -/
theorem eras_defined_sample :
    (Sample.run Sample.moved).isSome ∧
      Transition.AllSteps (step Sample.net)
        (fun _ _ w' => ErasDefined Sample.pool w') Sample.genesis
        Sample.moved :=
  ⟨by decide +kernel, eras_defined (by decide +kernel)⟩

/-- The number of an era is at most the largest number of 64 bits. -/
theorem currentEra_lt {block : BlockInfo} {p : PoolInfo} {era : Nat}
    (h : currentEra block p = .ok era) : era < U64.limit := by
  simp only [currentEra, bind_eq_ok, pure_eq_ok] at h
  obtain ⟨eras, -, rfl⟩ := h
  have hpos : 0 < U64.limit := by decide
  unfold U64.saturatingAddSigned
  omega

theorem not_erasDefined_of_broken {w : World} (h : Sample.isBroken w = true) :
    ¬ ErasDefined Sample.pool w := by
  intro hdefined
  obtain ⟨p, hp, htest⟩ := (Option.any_eq_true _ _).mp h
  simp only [Bool.and_eq_true, Bool.or_eq_true, decide_eq_true_eq] at htest
  obtain ⟨⟨hlive, hlimit⟩, htest⟩ := htest
  have hera := hdefined p hp hlive
  rcases htest with (hshort | hoffset) | ⟨hlast, hpassed⟩
  · exact absurd hera.long (Nat.not_le.mpr hshort)
  · obtain ⟨result, hresult⟩ := hera.reconfigure ⟨w.block, Sample.net.self⟩
      ⟨p.admin, []⟩
      { Sample.unchanged with eraSeconds := some minEraSeconds } le_rfl hlimit
      rfl rfl (by simp [minEraSeconds, maxEraSeconds])
    rw [hresult] at hoffset
    cases hoffset
  · obtain ⟨era, hcurrent, hlt, -⟩ := hera.due
      ⟨0, lastSecond * 1000000000⟩ (by decide) (hpassed.trans_eq (by decide))
    have hbound := currentEra_lt hcurrent
    omega

theorem not_defined_of_broken {param : MigratePoolParams}
    (h : (Sample.run (Sample.migration param)).any Sample.isBroken = true) :
    ¬ Transition.AllSteps (step Sample.net)
      (fun _ _ w' => ErasDefined Sample.pool w') Sample.genesis
      (Sample.migration param) := by
  intro hdefined
  obtain ⟨w, hrun, hbroken⟩ := (Option.any_eq_true _ _).mp h
  have hlast : ErasDefined Sample.pool w :=
    Transition.AllSteps.invariant_last (ErasDefined Sample.pool)
      (fun _ _ _ _ _ h => h) (fun _ h => by cases h) hdefined hrun
  exact not_erasDefined_of_broken hbroken hlast

/-- A migration can bring eras without length, which can neither be advanced
nor repaired, an offset with which no length can be configured, and an era that
is never followed by another one. -/
theorem eras_defined_fails :
    ¬ Transition.AllSteps (step Sample.net)
      (fun _ _ w' => ErasDefined Sample.pool w') Sample.genesis
      (Sample.migration Sample.noLength) ∧
    ¬ Transition.AllSteps (step Sample.net)
      (fun _ _ w' => ErasDefined Sample.pool w') Sample.genesis
      (Sample.migration Sample.noRoom) ∧
    ¬ Transition.AllSteps (step Sample.net)
      (fun _ _ w' => ErasDefined Sample.pool w') Sample.genesis
      (Sample.migration Sample.lastEra) :=
  ⟨not_defined_of_broken (by decide +kernel),
    not_defined_of_broken (by decide +kernel),
    not_defined_of_broken (by decide +kernel)⟩

/-! ### The era of the clock -/

variable {net : Network} {w w' : World} {ev : Event} {a : String}
  {p p' : PoolInfo}

/-- An update of the era of pool `a`. -/
def updatesEra (a : String) (ev : Event) : Bool :=
  match ev.action with
  | .execute _ _ (.eraUpdate b) _ => decide (b = a)
  | _ => false

/-- The clock of a started pool is defined, not behind the era of the pool and
never set back, and what an event does to the pool does not move it; an update
adds one to the era of the pool. -/
structure ClockStep (a : String) (w : World) (ev : Event) (w' : World) :
    Prop where
  bounded : ∀ p' ∈ w'.store.pools a, p'.status ≠ .registerEnded →
    ∃ era, currentEra w'.block p' = .ok era ∧ p'.era ≤ era
  forward : ∀ p ∈ w.store.pools a, ∀ p' ∈ w'.store.pools a,
    p.status ≠ .registerEnded →
      ∃ era era', currentEra w.block p = .ok era ∧
        currentEra w'.block p' = .ok era' ∧ era ≤ era'
  unmoved : ∀ p ∈ w.store.pools a, ∀ p' ∈ w'.store.pools a,
    p.status ≠ .registerEnded →
      currentEra ev.block p' = currentEra ev.block p
  update : updatesEra a ev = true → ∀ p ∈ w.store.pools a,
    ∀ p' ∈ w'.store.pools a, p'.era = p.era + 1

/-- The clock of a pool runs once it has started, and its era is not ahead. -/
structure OnTime (w : World) (a : String) (p : PoolInfo) : Prop where
  fresh : p.status = .registerEnded → Unstarted w a p
  clock : p.status ≠ .registerEnded → Clocked p w.block.seconds
  era : p.status ≠ .registerEnded → (p.era : Int) ≤ p.eraAt w.block.seconds

/-- The clock and the era at the block of an event. -/
theorem OnTime.later (h : OnTime w a p)
    (htime : w.block.time ≤ ev.block.time) (hlive : p.status ≠ .registerEnded) :
    Clocked p ev.block.seconds ∧ (p.era : Int) ≤ p.eraAt ev.block.seconds ∧
      p.eraAt w.block.seconds ≤ p.eraAt ev.block.seconds := by
  have hle := seconds_le htime
  have hmono : p.eraAt w.block.seconds ≤ p.eraAt ev.block.seconds :=
    Calendar.number_mono hle
  exact ⟨(h.clock hlive).later hle, (h.era hlive).trans hmono, hmono⟩

/-- What an event does to the clock of a pool: a started pool keeps it. -/
theorem clock_of_move (hlimit : ev.block.time < U64.limit)
    (hinit : StartsByInit a w ev) (hp : w.store.pools a = some p)
    (hclock : p.status ≠ .registerEnded → Clocked p ev.block.seconds)
    (hera : p.status ≠ .registerEnded →
      (p.era : Int) ≤ p.eraAt ev.block.seconds)
    (hmove : ScheduleMove a w ev p p') :
    (p.status ≠ .registerEnded → p'.status ≠ .registerEnded ∧
        p'.eraAt ev.block.seconds = p.eraAt ev.block.seconds) ∧
      (p'.status ≠ .registerEnded → Clocked p' ev.block.seconds ∧
        (p'.era : Int) ≤ p'.eraAt ev.block.seconds) := by
  cases hmove with
  | kept hkept =>
      have hsame : p'.eraAt = p.eraAt := by
        unfold PoolInfo.eraAt
        rw [hkept.eraSeconds, hkept.offset]
      refine ⟨fun hlive => ⟨fun h => hlive (hkept.started.mp h), by rw [hsame]⟩,
        fun hlive' => ?_⟩
      have hlive := fun h => hlive' (hkept.started.mpr h)
      refine ⟨(hclock hlive).of_same hkept.eraSeconds hkept.offset, ?_⟩
      rw [hsame]
      rcases hkept.era with hback | ⟨era, hcurrent, hle⟩
      · have hbefore := hera hlive
        omega
      · obtain ⟨era', hcurrent', heq⟩ := (hclock hlive).currentEra_ok hlimit
        obtain rfl := Except.ok.inj (hcurrent.symm.trans hcurrent')
        omega
  | realigned hnew hlength hpos hoffset hsame hstatus =>
      have hrealigned := fun hlive =>
        (hclock hlive).realigned hlimit hlength hoffset
      refine ⟨fun hlive => ⟨hstatus ▸ hlive, (hrealigned hlive).2.1⟩,
        fun hlive' => ?_⟩
      have hlive : p.status ≠ .registerEnded := hstatus ▸ hlive'
      obtain ⟨-, hkept, hclock'⟩ := hrealigned hlive
      refine ⟨hclock', ?_⟩
      rw [hkept, hsame]
      exact hera hlive
  | started hfresh hlive hlength hoffset hzero =>
      refine ⟨fun h => absurd hfresh h, fun _ => ?_⟩
      have hclock' := Clocked.started hlimit hlength hoffset
      refine ⟨hclock', ?_⟩
      rw [hzero]
      exact hclock'.begun
  | migrated hparam htarget hfresh =>
      exact absurd hfresh (hinit _ hparam htarget p hp)

theorem clockMove_of_step (hs : Sound net w) (hstep : w.step net ev = some w')
    (hlimit : ev.block.time < U64.limit) (hinit : StartsByInit a w ev)
    (hp : w.store.pools a = some p) (hp' : w'.store.pools a = some p')
    (h : OnTime w a p) (hmove : PoolMove net w ev w' a p p') :
    (p.status ≠ .registerEnded → p'.status ≠ .registerEnded ∧
        p'.eraAt ev.block.seconds = p.eraAt ev.block.seconds) ∧
      (p'.status ≠ .registerEnded → Clocked p' ev.block.seconds ∧
        (p'.era : Int) ≤ p'.eraAt ev.block.seconds) := by
  have hlater := fun hlive => h.later (step_eq_some hstep).2.1 hlive
  exact clock_of_move hlimit hinit hp (fun hlive => (hlater hlive).1)
    (fun hlive => (hlater hlive).2.1)
    (scheduleMove_of_move hs hstep hp hp' h.fresh hmove)

/-- The eras of pool `a` are on time. -/
structure AllOnTime (net : Network) (a : String) (w : World) : Prop where
  sound : Sound net w
  pool : ∀ p, w.store.pools a = some p → OnTime w a p

theorem allOnTime_step (hinv : AllOnTime net a w)
    (hstep : w.step net ev = some w') (hlimit : ev.block.time < U64.limit)
    (hinit : StartsByInit a w ev) : AllOnTime net a w' := by
  have hblock := block_of_step hstep
  have hfresh := unstarted_step hinv.sound hstep
    (fun p hp => (hinv.pool p hp).fresh)
  refine ⟨sound_step hinv.sound hstep, ?_⟩
  intro p' hp'
  have hclock : p'.status ≠ .registerEnded →
      Clocked p' ev.block.seconds ∧
        (p'.era : Int) ≤ p'.eraAt ev.block.seconds := by
    refine pool_invariant (J := fun p' => p'.status ≠ .registerEnded →
      Clocked p' ev.block.seconds ∧
        (p'.era : Int) ≤ p'.eraAt ev.block.seconds)
      hinv.sound hstep hinv.pool ?_ ?_ p' hp'
    · intro p p' hp hp' hpool hmove
      exact (clockMove_of_step hinv.sound hstep hlimit hinit hp hp' hpool
        hmove).2
    · exact fun _ _ _ _ _ _ _ hlive => absurd rfl hlive
  rw [← hblock] at hclock
  exact ⟨hfresh p' hp', fun hlive => (hclock hlive).1,
    fun hlive => (hclock hlive).2⟩

theorem era_of_update (hs : Sound net w) (hstep : w.step net ev = some w')
    (hupdates : updatesEra a ev = true) (hp : w.store.pools a = some p)
    (hp' : w'.store.pools a = some p') : p'.era = p.era + 1 := by
  obtain ⟨next, hnext, hmove⟩ := pool_move hs hstep hp
  obtain rfl := Option.some.inj (hnext.symm.trans hp')
  unfold updatesEra at hupdates
  split at hupdates
  · rename_i querier info b id haction
    obtain rfl := of_decide_eq_true hupdates
    cases hmove with
    | executed haction' hexec hsends =>
        cases haction.symm.trans haction'
        cases hexec with
        | elsewhere helsewhere => exact absurd rfl helsewhere
        | era hera =>
            cases hera with
            | eraUpdate => rfl
            | eraUpdateSent => rfl
            | retry _ hmsg =>
                rcases hmsg with ⟨_, hmsg⟩ | ⟨_, hmsg⟩
                · cases hmsg
                · cases hmsg
    | answered haction' => cases haction.symm.trans haction'
    | answeredElsewhere haction' => cases haction.symm.trans haction'
    | vain haction' => cases haction.symm.trans haction'
    | idle hexecute => exact absurd haction (hexecute _ _ _ _)
  · cases hupdates

theorem clockStep_of_step (hinv : AllOnTime net a w)
    (hstep : w.step net ev = some w') (hlimit : ev.block.time < U64.limit)
    (hinit : StartsByInit a w ev) : ClockStep a w ev w' := by
  have htime := (step_eq_some hstep).2.1
  have hblock := block_of_step hstep
  have hnext := allOnTime_step hinv hstep hlimit hinit
  have hmoved : ∀ p ∈ w.store.pools a, ∀ p' ∈ w'.store.pools a,
      p.status ≠ .registerEnded → p'.status ≠ .registerEnded ∧
        p'.eraAt ev.block.seconds = p.eraAt ev.block.seconds := by
    intro p hp p' hp'
    obtain ⟨next, hnext, hmove⟩ := pool_move hinv.sound hstep hp
    obtain rfl := Option.some.inj (hnext.symm.trans hp')
    exact (clockMove_of_step hinv.sound hstep hlimit hinit hp hp'
      (hinv.pool p hp) hmove).1
  constructor
  · intro p' hp' hlive
    obtain ⟨era, hera, heq⟩ :=
      ((hnext.pool p' hp').clock hlive).currentEra_ok (hblock ▸ hlimit)
    have hle := (hnext.pool p' hp').era hlive
    exact ⟨era, hera, by omega⟩
  · intro p hp p' hp' hlive
    obtain ⟨hlive', hsame⟩ := hmoved p hp p' hp' hlive
    obtain ⟨era, hera, heq⟩ := ((hinv.pool p hp).clock hlive).currentEra_ok
      (htime.trans_lt hlimit)
    obtain ⟨era', hera', heq'⟩ :=
      ((hnext.pool p' hp').clock hlive').currentEra_ok (hblock ▸ hlimit)
    have hmono := ((hinv.pool p hp).later htime hlive).2.2
    rw [hblock] at heq'
    exact ⟨era, era', hera, hera', by omega⟩
  · intro p hp p' hp' hlive
    obtain ⟨hlive', hsame⟩ := hmoved p hp p' hp' hlive
    obtain ⟨era, hera, heq⟩ :=
      ((hinv.pool p hp).later htime hlive).1.currentEra_ok hlimit
    have hclock' := (hnext.pool p' hp').clock hlive'
    rw [hblock] at hclock'
    obtain ⟨era', hera', heq'⟩ := hclock'.currentEra_ok hlimit
    rw [hera, hera']
    exact congrArg _ (by omega)
  · intro hupdates p hp p' hp'
    exact era_of_update hinv.sound hstep hupdates hp hp'

/-- The clock of a pool that starts by an initialisation goes on steadily, and
the pool never overtakes it. -/
theorem clock_steady {net : Network} {a : String} {block : BlockInfo}
    {info : MessageInfo} {lsdTokenCodeId : Nat} {evs : List Event}
    (hrun : Transition.AllSteps (step net)
      (fun w ev _ => ev.block.time < U64.limit ∧ StartsByInit a w ev)
      (genesis block info lsdTokenCodeId) evs) :
    Transition.AllSteps (step net) (ClockStep a)
      (genesis block info lsdTokenCodeId) evs := by
  refine Transition.AllSteps.of_invariant (AllOnTime net a) ?_ ?_ hrun
  · rintro w ev w' hinv hstep ⟨hlimit, hinit⟩
    exact ⟨allOnTime_step hinv hstep hlimit hinit,
      clockStep_of_step hinv hstep hlimit hinit⟩
  · exact ⟨sound_genesis net block info lsdTokenCodeId,
      fun _ h => nomatch h⟩

theorem clock_steady_sample :
    (Sample.run Sample.shortened).isSome ∧
      Transition.AllSteps (step Sample.net) (ClockStep Sample.pool)
        Sample.genesis Sample.shortened :=
  ⟨by decide +kernel, clock_steady (by decide +kernel)⟩

end World

end NeutronContracts
