/-
The migration of the storage of older versions, which counted a packet only
when it was acknowledged: afterwards all that the contract owns is outstanding
on its channel.
-/
import NeutronContracts.Properties.TransferSolvency

namespace NeutronContracts.Cw20Ics20

open Fallible Holdings

/-- The state of a channel that owns a balance. -/
def ChannelState.settled (state : ChannelState) (balance : Nat) :
    ChannelState :=
  ⟨balance, state.totalSent + (balance - state.outstanding)⟩

/-- The denoms of a channel are settled, and nothing else is written. -/
structure Settles (balances : Balances) (channel : String)
    (states : List (String × ChannelState)) (store store' : Storage) :
    Prop where
  settings : SameSettings store store'
  others : ∀ key : String × String,
    key.1 ≠ channel ∨ key.2 ∉ states.map Prod.fst →
      store'.channelState key = store.channelState key
  settled : ∀ denom state, (denom, state) ∈ states →
    ∃ balance, balances.query (.fromParts denom 0) = .ok balance ∧
      state.outstanding ≤ balance ∧
      store'.channelState (channel, denom) = some (state.settled balance)

section

variable {balances : Balances} {store middle store' : Storage}
  {channel denom : String} {state : ChannelState}
  {states : List (String × ChannelState)} {balance : Nat}

theorem query_fromParts {n m : Nat} :
    balances.query (.fromParts denom n) =
      balances.query (.fromParts denom m) := by
  unfold Amount.fromParts
  split <;> rfl

theorem updateDenom_settles
    (hstate : store.channelState (channel, denom) = some state)
    (h : updateDenom balances store channel denom state = .ok store') :
    Settles balances channel [(denom, state)] store store' := by
  simp only [updateDenom, bind_eq_ok, subExact_eq_ok] at h
  obtain ⟨balance, hquery, _, ⟨hle, rfl⟩, h⟩ := h
  have hsettled : store'.channelState (channel, denom) =
      some (state.settled balance) ∧ SameSettings store store' ∧
        ∀ key, key ≠ (channel, denom) →
          store'.channelState key = store.channelState key := by
    split at h
    · next hzero =>
        obtain rfl := pure_eq_ok.mp h
        refine ⟨?_, ⟨rfl, rfl, rfl, rfl, rfl⟩, fun _ _ => rfl⟩
        have hbalance : balance = state.outstanding := by omega
        rw [hstate, hbalance, ChannelState.settled, Nat.sub_self]
        rfl
    · simp only [bind_eq_ok, addBelow_eq_ok, pure_eq_ok] at h
      obtain ⟨_, ⟨-, rfl⟩, _, ⟨-, rfl⟩, rfl⟩ := h
      refine ⟨?_, ⟨rfl, rfl, rfl, rfl, rfl⟩,
        fun key hkey => Map.save_of_ne hkey⟩
      dsimp only
      rw [Map.save_self, Nat.add_sub_cancel' hle]
      rfl
  refine ⟨hsettled.2.1, fun key hkey => hsettled.2.2 key ?_, ?_⟩
  · rintro rfl
    simp at hkey
  · intro other otherState hmem
    obtain ⟨rfl, rfl⟩ := Prod.mk.inj (List.mem_singleton.mp hmem)
    exact ⟨balance, query_fromParts.trans hquery, hle, hsettled.1⟩

/-- The rest of the walk leaves the denoms before it alone. -/
theorem Settles.cons
    (hfirst : Settles balances channel [(denom, state)] store middle)
    (hrest : Settles balances channel states middle store')
    (hnew : denom ∉ states.map Prod.fst) :
    Settles balances channel ((denom, state) :: states) store store' := by
  refine ⟨hfirst.settings.trans hrest.settings, fun key hkey => ?_, ?_⟩
  · rw [List.map_cons, List.mem_cons, not_or] at hkey
    rw [hrest.others key (hkey.imp_right And.right),
      hfirst.others key (hkey.imp_right fun h => by simpa using h.1)]
  · intro other otherState hmem
    rcases List.mem_cons.mp hmem with heq | hmem
    · obtain ⟨rfl, rfl⟩ := Prod.mk.inj heq
      obtain ⟨balance, hquery, hle, hstate⟩ :=
        hfirst.settled other otherState (by simp)
      refine ⟨balance, hquery, hle, ?_⟩
      rw [hrest.others _ (.inr hnew), hstate]
    · exact hrest.settled other otherState hmem

/-- The loop over the denoms of a channel. -/
theorem updateDenoms_settles (hnodup : (states.map Prod.fst).Nodup)
    (hstates : ∀ denom state, (denom, state) ∈ states →
      store.channelState (channel, denom) = some state)
    (h : updateDenoms balances channel store states = .ok store') :
    Settles balances channel states store store' := by
  induction states generalizing store with
  | nil =>
      obtain rfl := pure_eq_ok.mp h
      exact ⟨⟨rfl, rfl, rfl, rfl, rfl⟩, fun _ _ => rfl, by simp⟩
  | cons entry rest ih =>
      obtain ⟨denom, state⟩ := entry
      simp only [updateDenoms, bind_eq_ok] at h
      obtain ⟨middle, hfirst, h⟩ := h
      rw [List.map_cons, List.nodup_cons] at hnodup
      have hsettles := updateDenom_settles (hstates denom state (by simp))
        hfirst
      refine hsettles.cons (ih hnodup.2 (fun other otherState hmem => ?_) h)
        hnodup.1
      have hother : other ≠ denom := by
        rintro rfl
        exact hnodup.1 (List.mem_map.mpr ⟨_, hmem, rfl⟩)
      rw [hsettles.others _ (.inr (by simpa using hother))]
      exact hstates other otherState (List.mem_cons_of_mem _ hmem)

/-! ### A storage of an old version -/

namespace Sample

def info0 : ChannelInfo :=
  ⟨"channel-0", ⟨"transfer", "channel-7"⟩, "connection-2"⟩

/-- 20 coins came in with packets that are not acknowledged. -/
def legacy : HomeChain :=
  { home with
    store :=
      { home.store with
        contractVersion := ⟨contractName, "0.13.0"⟩
        channelInfo := Map.empty.save "channel-0" info0
        channelState := Map.empty.save ("channel-0", "untrn") ⟨30, 40⟩ }
    bank := add empty "untrn" 50 }

/-- A walk over one channel with coins. -/
def walkOf (store : Storage) (state : ChannelState)
    (hinfo : store.channelInfo = Map.empty.save "channel-0" info0)
    (hstate : store.channelState =
      Map.empty.save ("channel-0", "untrn") state) : Walk store where
  channels :=
    { list := [("channel-0", info0)]
      complete := fun key value => by
        simp [hinfo, Map.save_apply, Map.empty, eq_comm]
      sorted := List.pairwise_singleton _ _ }
  states channel :=
    { list := if channel = "channel-0" then [("untrn", state)] else []
      complete := fun denom value => by
        by_cases hchannel : channel = "channel-0"
        · simp [hstate, Map.under, Map.save_apply, Map.empty, hchannel,
            eq_comm]
        · simp [hstate, Map.under, Map.empty, hchannel]
      sorted := by split <;> simp }

def walk0 : Walk legacy.store := walkOf legacy.store ⟨30, 40⟩ rfl rfl

def migrated : Storage :=
  { legacy.store with
    contractVersion := ⟨contractName, contractVersion⟩
    config := .current ⟨600, some 100000⟩
    channelState := Map.empty.save ("channel-0", "untrn") ⟨50, 60⟩ }

def walk1 : Walk migrated := walkOf migrated ⟨50, 60⟩ rfl rfl

theorem migrate_legacy :
    migrate parse (legacy.balances net) legacy.store walk0 ⟨some 100000⟩ =
      .ok migrated := by
  have hstate : (Map.empty.save ("channel-0", "untrn") ⟨30, 40⟩).save
      ("channel-0", "untrn") ⟨50, 60⟩ =
        Map.empty.save ("channel-0", "untrn") (⟨50, 60⟩ : ChannelState) := by
    funext key
    simp only [Map.save_apply]
    split <;> rfl
  rw [migrated, ← hstate]
  rfl

end Sample

/-! ### The migration -/

variable {V : Type} [LinearOrder V] {parse : String → Except String V}
  {walk : Walk store} {msg : MigrateMsg} {old version3 version : V}

/-- The channels are those of the walk, and there is at most one. -/
theorem updateBalances_settles {legacy : Storage}
    (hstate : legacy.channelState = store.channelState)
    (h : updateBalances balances (walk.channels.list.map Prod.fst)
      (fun channel => (walk.states channel).list) legacy = .ok store') :
    (∀ channel, store.channelInfo channel = none) ∧ store' = legacy ∨
      ∃ channel, (∀ other, store.channelInfo other ≠ none ↔
          other = channel) ∧
        Settles balances channel (walk.states channel).list legacy store' := by
  have hmem : ∀ channel, store.channelInfo channel ≠ none ↔
      channel ∈ walk.channels.list.map Prod.fst := by
    intro channel
    rw [Option.ne_none_iff_exists', List.mem_map]
    constructor
    · rintro ⟨info, hinfo⟩
      exact ⟨(channel, info), (walk.channels.complete channel info).mpr hinfo,
        rfl⟩
    · rintro ⟨⟨_, info⟩, hentry, rfl⟩
      exact ⟨info, (walk.channels.complete _ info).mp hentry⟩
  generalize walk.channels.list.map Prod.fst = channels at h hmem
  unfold updateBalances at h
  split at h
  · left
    refine ⟨fun channel => ?_, (pure_eq_ok.mp h).symm⟩
    by_contra hknown
    exact List.not_mem_nil ((hmem channel).mp hknown)
  · next channel =>
      right
      refine ⟨channel, fun other => (hmem other).trans List.mem_singleton, ?_⟩
      refine updateDenoms_settles ?_ (fun denom state hentry => ?_) h
      · exact (List.pairwise_map.mpr (walk.states channel).sorted).imp ne_of_lt
      · rw [hstate]
        exact ((walk.states channel).complete denom state).mp hentry
  · cases h

theorem fromV1_ok (h : fromV1 store = .ok store') :
    store'.channelState = store.channelState := by
  unfold fromV1 at h
  split at h
  · obtain rfl := pure_eq_ok.mp h
    rfl
  · cases h

/-- A migration that succeeds from 0.13.0 or before.  There is at most one
channel; on it every denom becomes what the contract owns of it, and the total
that was sent grows by as much; everything else on the channels is kept. -/
theorem migrate_settles
    (hmigrate : migrate parse balances store walk msg = .ok store')
    (hold : parse store.contractVersion.version = .ok old)
    (hversion : parse "0.13.0" = .ok version3) (hle : old ≤ version3) :
    (∀ a b, store.channelInfo a ≠ none → store.channelInfo b ≠ none →
      a = b) ∧
    (∀ channel denom, store.channelInfo channel = none ∨
        store.channelState (channel, denom) = none →
      store'.channelState (channel, denom) =
        store.channelState (channel, denom)) ∧
    ∀ channel denom state, store.channelInfo channel ≠ none →
      store.channelState (channel, denom) = some state →
      ∃ balance, balances.query (.fromParts denom 0) = .ok balance ∧
        state.outstanding ≤ balance ∧
        store'.channelState (channel, denom) =
          some (state.settled balance) := by
  simp only [migrate, hold, hversion, bind_eq_ok, mapError_eq_ok,
    Except.ok.injEq, exists_eq_left', rejectIf_eq_ok] at hmigrate
  obtain ⟨_, -, _, -, _, -, _, -, _, -, _, -, legacy, hlegacy, settled,
    hsettled, last, hgas, hlast⟩ := hmigrate
  have hkept : legacy.channelState = store.channelState := by
    unfold convertIf at hlegacy
    split at hlegacy
    · exact fromV1_ok hlegacy
    · rw [pure_eq_ok.mp hlegacy]
  have hstate : store'.channelState = settled.channelState := by
    rw [← (setDefaultGas_ok hgas).1]
    split at hlast <;> · obtain rfl := pure_eq_ok.mp hlast; rfl
  rw [convertIf, if_pos hle] at hsettled
  rw [hstate]
  rcases updateBalances_settles hkept hsettled with
    ⟨hnone, rfl⟩ | ⟨only, hknown, hsettles⟩
  · refine ⟨fun a b ha => absurd (hnone a) ha, fun channel denom _ => ?_,
      fun channel denom state hchannel => absurd (hnone channel) hchannel⟩
    rw [hkept]
  · refine ⟨fun a b ha hb => ?_, fun channel denom hother => ?_,
      fun channel denom state hchannel hentry => ?_⟩
    · exact ((hknown a).mp ha).trans ((hknown b).mp hb).symm
    · rw [hsettles.others _ ?_, hkept]
      by_cases hchannel : channel = only
      · subst hchannel
        have hnone := hother.resolve_left ((hknown channel).mpr rfl)
        refine .inr fun hmem => ?_
        obtain ⟨⟨_, state⟩, hentry, rfl⟩ := List.mem_map.mp hmem
        have hsome := ((walk.states channel).complete _ state).mp hentry
        exact absurd hnone (by rw [Map.under] at hsome; simp [hsome])
      · exact .inl hchannel
    · obtain rfl := (hknown channel).mp hchannel
      exact hsettles.settled denom state
        (((walk.states channel).complete denom state).mpr hentry)

theorem migrate_settles_sample :
    ∃ balance,
      (Sample.legacy.balances Sample.net).query (.fromParts "untrn" 0) =
        .ok balance ∧
      Sample.migrated.channelState ("channel-0", "untrn") =
        some ((⟨30, 40⟩ : ChannelState).settled balance) := by
  have hversion : Sample.parse "0.13.0" = .ok 1300 := rfl
  obtain ⟨balance, hquery, -, hstate⟩ := (migrate_settles
    Sample.migrate_legacy hversion hversion le_rfl).2.2 "channel-0" "untrn"
    ⟨30, 40⟩ (by decide) (by decide)
  exact ⟨balance, hquery, hstate⟩

theorem migrate_version
    (hcurrent : parse contractVersion = .ok version)
    (hmigrate : migrate parse balances store walk msg = .ok store') :
    ∃ old, parse store.contractVersion.version = .ok old ∧ old ≤ version ∧
      (old < version →
        store'.contractVersion = ⟨contractName, contractVersion⟩) := by
  simp only [migrate, hcurrent, bind_eq_ok, mapError_eq_ok,
    Except.ok.injEq, exists_eq_left', rejectIf_eq_ok] at hmigrate
  obtain ⟨old, hold, _, -, _, hnot, _, -, _, -, _, -, _, -, _, -, _, -, _, -,
    hlast⟩ := hmigrate
  refine ⟨old, hold, le_of_not_gt hnot, fun hlt => ?_⟩
  rw [if_pos hlt] at hlast
  rw [← pure_eq_ok.mp hlast]

/-- After a migration the storage has the current version, so migrating again
leaves the channels alone, whatever the contract owns by then. -/
theorem migrate_again {again : Storage} {balances' : Balances}
    {walk' : Walk store'} {msg' : MigrateMsg}
    (hmigrate : migrate parse balances store walk msg = .ok store')
    (hcurrent : parse contractVersion = .ok version)
    (hnewer : ∀ text ∈ ["0.12.0-alpha1", "0.13.0"], ∀ old,
      parse text = .ok old → old < version)
    (hagain : migrate parse balances' store' walk' msg' = .ok again) :
    parse store'.contractVersion.version = .ok version ∧
      again.channelState = store'.channelState := by
  have hstored : parse store'.contractVersion.version = .ok version := by
    obtain ⟨old, hold, hle, hraised⟩ := migrate_version hcurrent hmigrate
    rcases hle.lt_or_eq with hlt | rfl
    · rw [hraised hlt]
      exact hcurrent
    · -- an equal version is kept, and nothing is converted
      obtain ⟨_, set, hparse, -, hset, hstore⟩ :=
        migrate_newer hold hnewer hmigrate
      obtain rfl := Except.ok.inj (hcurrent.symm.trans hparse)
      rw [hstore, if_neg (lt_irrefl _), (setDefaultGas_ok hset).2.1, hold]
  refine ⟨hstored, ?_⟩
  obtain ⟨_, set, hparse, -, hset, hstore⟩ :=
    migrate_newer hstored hnewer hagain
  obtain rfl := Except.ok.inj (hcurrent.symm.trans hparse)
  rw [hstore, if_neg (lt_irrefl _)]
  exact (setDefaultGas_ok hset).1

theorem migrate_again_sample :
    migrate Sample.parse (Sample.home.balances Sample.net) Sample.migrated
        Sample.walk1 ⟨none⟩ = .ok Sample.migrated ∧
      Sample.parse Sample.migrated.contractVersion.version = .ok 10102 := by
  have hagain : migrate Sample.parse (Sample.home.balances Sample.net)
      Sample.migrated Sample.walk1 ⟨none⟩ = .ok Sample.migrated := rfl
  refine ⟨hagain, (migrate_again Sample.migrate_legacy rfl ?_ hagain).1⟩
  intro text htext old hold
  rcases List.mem_pair.mp htext with rfl | rfl <;> cases hold <;> decide

namespace HomeChain

theorem balance_of_query {net : Setting V} {h : HomeChain}
    (hquery : (h.balances net).query (.fromParts denom 0) = .ok balance) :
    h.holding net denom = balance := by
  unfold holding
  split
  · next coin hcoin =>
      rw [hcoin] at hquery
      exact Except.ok.inj hquery
  · next coin hcoin =>
      rw [hcoin] at hquery
      simp only [Balances.query, balances, mapError_eq_ok] at hquery
      split at hquery
      · next token htoken =>
          rw [htoken]
          exact Except.ok.inj hquery
      · cases hquery

/-- After the migration of old storage all that the contract owns is
outstanding on its channel, so it is solvent. -/
theorem migrated_solvent {net : Setting V} {h : HomeChain}
    {walk : Walk h.store}
    (hmigrate : migrate net.parse (h.balances net) h.store walk msg =
      .ok store')
    (hold : net.parse h.store.contractVersion.version = .ok old)
    (hversion : net.parse "0.13.0" = .ok version3) (hle : old ≤ version3)
    (hknown : ∀ channel denom,
      h.store.channelState (channel, denom) ≠ none →
        h.store.channelInfo channel ≠ none) :
    (∀ channel denom, h.store.channelState (channel, denom) ≠ none →
      store'.outstanding (channel, denom) = h.holding net denom) ∧
    Solvent net { h with store := store' } := by
  obtain ⟨hsingle, hothers, hsettled⟩ :=
    migrate_settles hmigrate hold hversion hle
  have hall : ∀ channel denom,
      h.store.channelState (channel, denom) ≠ none →
        store'.outstanding (channel, denom) = h.holding net denom := by
    intro channel denom hsome
    obtain ⟨state, hstate⟩ := Option.ne_none_iff_exists'.mp hsome
    obtain ⟨balance, hquery, -, hafter⟩ :=
      hsettled channel denom state (hknown channel denom hsome) hstate
    rw [outstanding_of_state hafter, balance_of_query hquery]
    rfl
  refine ⟨hall, fun denom _ channels _ => ?_⟩
  have hsame : HomeChain.holding net { h with store := store' } denom =
      h.holding net denom := congrFun (holding_congr rfl rfl) denom
  rw [hsame]
  have hzero : ∀ channel, h.store.channelState (channel, denom) = none →
      ({ h with store := store' } : HomeChain).owed denom channel = 0 := by
    intro channel hnone
    simp [owed, Storage.outstanding, hothers channel denom (.inr hnone), hnone]
  by_cases hexists : ∃ channel ∈ channels,
      h.store.channelState (channel, denom) ≠ none
  · -- all other channels have nothing outstanding
    obtain ⟨channel, hmem, hsome⟩ := hexists
    have honly : ∀ other ∈ channels, other ≠ channel →
        ({ h with store := store' } : HomeChain).owed denom other = 0 := by
      intro other _ hother
      by_cases hnone : h.store.channelState (other, denom) = none
      · exact hzero other hnone
      · exact absurd (hsingle other channel (hknown other denom hnone)
          (hknown channel denom hsome)) hother
    rw [Finset.sum_eq_single_of_mem channel hmem honly, owed,
      hall channel denom hsome]
  · rw [Finset.sum_eq_zero fun channel hmem => ?_]
    · exact Int.natCast_nonneg _
    · apply hzero
      by_contra hsome
      exact hexists ⟨channel, hmem, hsome⟩

theorem migrated_solvent_sample :
    Sample.migrated.outstanding ("channel-0", "untrn") =
      Sample.legacy.holding Sample.net "untrn" := by
  have hversion : Sample.parse "0.13.0" = .ok 1300 := rfl
  refine (migrated_solvent Sample.migrate_legacy hversion hversion
    le_rfl ?_).1 "channel-0" "untrn" (by decide)
  intro channel denom hsome
  by_cases hchannel : channel = "channel-0"
  · subst hchannel
    decide
  · exact absurd (by simp [Sample.legacy, Map.empty, hchannel]) hsome

end HomeChain

end

end NeutronContracts.Cw20Ics20
