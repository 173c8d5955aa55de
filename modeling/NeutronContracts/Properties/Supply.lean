/-
The counter of a pool and the supply of its token.  Every handler moves the
two by the same amount, each pool has a token of its own, and whoever else
calls the token can only burn: the difference is what others have burned.
-/
import NeutronContracts.Chain.Supply

namespace NeutronContracts

open StakeManager Fallible

namespace World

/-- What others than the stake manager have burned of the token of pool `a`
since the pool has started. -/
def keepBurned (a : String) (burned : Nat) (w : World) (ev : Event)
    (_ : World) : Nat :=
  match w.store.pools a with
  | none => 0
  | some p =>
      if p.status = .registerEnded then 0
      else burned + foreignBurn p.lsdToken ev

/-- The counter of a pool that has started is the supply of its token and what
others have burned. -/
def SupplyAgrees (a : String) (s : World × Nat) : Prop :=
  ∀ p ∈ s.1.store.pools a, p.status ≠ .registerEnded →
    ∃ token ∈ s.1.tokens p.lsdToken,
      p.totalLsdTokenAmount = token.info.totalSupply + s.2

/-- The stake manager is the only minter of the token of pool `a`. -/
def OnlyMinter (net : Network) (a : String) (w : World) : Prop :=
  ∀ p ∈ w.store.pools a, ∀ token ∈ w.tokens p.lsdToken,
    ∀ mint ∈ token.info.mint, ∀ minter ∈ mint.minters, minter = net.self

instance (net : Network) (a : String) (w : World) :
    Decidable (OnlyMinter net a w) :=
  inferInstanceAs (Decidable (∀ p ∈ w.store.pools a,
    ∀ token ∈ w.tokens p.lsdToken, ∀ mint ∈ token.info.mint,
      ∀ minter ∈ mint.minters, minter = net.self))

variable {net : Network} {w w' : World} {ev : Event} {a b : String}
  {p p' : PoolInfo} {burnt : Nat}

/-- Every pool that has started has a token of its own. -/
structure TokensApart (w : World) : Prop where
  unstarted : ∀ b p, w.store.pools b = some p → p.status = .registerEnded →
    Unstarted w b p
  existing : ∀ b p, w.store.pools b = some p → p.status ≠ .registerEnded →
    ∃ token, w.tokens p.lsdToken = some token
  distinct : ∀ b c p q, w.store.pools b = some p → w.store.pools c = some q →
    p.status ≠ .registerEnded → q.status ≠ .registerEnded →
    p.lsdToken = q.lsdToken → b = c

theorem TokensApart.owns (h : TokensApart w) (hp : w.store.pools a = some p)
    (hlive : p.status ≠ .registerEnded) : OwnsToken w.store a p := by
  intro b q hq hrate htoken
  refine h.distinct b a q p hq hp (fun hstatus => ?_) hlive htoken
  rcases hrate with hrate | hstarted
  · exact hrate (h.unstarted b q hq hstatus).rate
  · exact hstarted hstatus

/-- The event that starts a pool. -/
theorem start_of_step (hs : Sound net w) (hstep : w.step net ev = some w')
    (hp : w.store.pools a = some p) (hp' : w'.store.pools a = some p')
    (hfresh : p.status = .registerEnded) (hold : Unstarted w a p)
    (hlive : p'.status ≠ .registerEnded) :
    ∃ querier info msg id, ev.action = .execute querier info msg id ∧
      msg.target w.store = some a ∧ ((∃ param, msg = .initPool param) ∨
        ∃ param, msg = .migratePool param) := by
  obtain ⟨q, hq, hmove⟩ := pool_move hs hstep hp
  obtain rfl := Option.some.inj (hp'.symm.trans hq)
  cases start_of_move hmove hold hfresh hlive with
  | init haction htarget => exact ⟨_, _, _, _, haction, htarget, .inl ⟨_, rfl⟩⟩
  | migrate haction htarget =>
      exact ⟨_, _, _, _, haction, htarget, .inr ⟨_, rfl⟩⟩

/-- A pool starts with a new token, which has no supply. -/
theorem started_of_step (hs : Sound net w) (hstep : w.step net ev = some w')
    (hp : w.store.pools a = some p) (hp' : w'.store.pools a = some p')
    (hfresh : p.status = .registerEnded) (hold : Unstarted w a p)
    (hlive : p'.status ≠ .registerEnded) :
    ∃ token, w.tokens p'.lsdToken = none ∧
      w'.tokens p'.lsdToken = some token ∧ token.info.totalSupply = 0 ∧
      (StartsByInit a w ev → p'.totalLsdTokenAmount = 0) := by
  obtain ⟨querier, info, msg, id, haction, htarget, hmsg⟩ :=
    start_of_step hs hstep hp hp' hfresh hold hlive
  obtain ⟨store, rsp, sent, hexec⟩ := executed_of_step hs hstep haction
  rw [hexec.records.pools] at hp'
  rcases hmsg with ⟨param, rfl⟩ | ⟨param, rfl⟩
  · obtain ⟨q, pool, withdraw, admin, hinfo, hq, -, hdealt⟩ :=
      executeInitPool_ok hexec.call
    dsimp only at hinfo hq
    simp only [ExecuteMsg.target, hinfo, Option.map_some,
      Option.some.injEq] at htarget
    subst htarget
    obtain rfl := Option.some.inj (hp.symm.trans hq)
    rcases hdealt with ⟨hfailed, -⟩ | ⟨-, eraSeconds, offset, hdealt⟩
    · cases hfresh.symm.trans hfailed
    · obtain ⟨next, token, hnext, htotal, hnone, hsome, hsupply⟩ :=
        created_of_dealt hdealt hexec.delivered
      obtain rfl := Option.some.inj (hp'.symm.trans hnext)
      exact ⟨token, hnone, hsome, hsupply, fun _ => htotal⟩
  · obtain ⟨q, pool, withdraw, admin, hinfo, hq, -, hdealt⟩ :=
      executeMigratePool_ok hexec.call
    dsimp only at hinfo hq
    have haddr := htarget
    simp only [ExecuteMsg.target, hinfo, Option.map_some,
      Option.some.injEq] at haddr
    subst haddr
    obtain rfl := Option.some.inj (hp.symm.trans hq)
    rcases hdealt with ⟨hfailed, -⟩ | ⟨-, -, -, hdealt⟩
    · cases hfresh.symm.trans hfailed
    · obtain ⟨next, token, hnext, -, hnone, hsome, hsupply⟩ :=
        created_of_dealt hdealt hexec.delivered
      obtain rfl := Option.some.inj (hp'.symm.trans hnext)
      exact ⟨token, hnone, hsome, hsupply, fun hinit =>
        absurd hfresh (hinit param (by simp [migrated, haction]) htarget p
          hp)⟩

/-- A pool keeps its token, and a pool that starts gets a new one. -/
theorem token_of_step (hs : Sound net w) (hstep : w.step net ev = some w')
    (h : TokensApart w) (hp : w.store.pools a = some p)
    (hp' : w'.store.pools a = some p') (hlive : p'.status ≠ .registerEnded) :
    p.status ≠ .registerEnded ∧ p'.lsdToken = p.lsdToken ∨
      p.status = .registerEnded ∧ w.tokens p'.lsdToken = none := by
  by_cases hfresh : p.status = .registerEnded
  · obtain ⟨_, hnone, -⟩ := started_of_step hs hstep hp hp' hfresh
      (h.unstarted a p hp hfresh) hlive
    exact .inr ⟨hfresh, hnone⟩
  · exact .inl ⟨hfresh,
      (counts_of_step hs hstep hp hp' hfresh (h.owns hp hfresh)).token⟩

/-- A started pool was there before the step. -/
theorem old_of_started (hs : Sound net w) (hstep : w.step net ev = some w')
    (hp' : w'.store.pools a = some p') (hlive : p'.status ≠ .registerEnded) :
    ∃ p, w.store.pools a = some p := by
  cases hp : w.store.pools a with
  | some p => exact ⟨p, rfl⟩
  | none =>
      obtain ⟨⟨_, _, _, rfl, -⟩, -⟩ := pool_created hs hstep hp hp'
      exact absurd rfl hlive

theorem tokensApart_step (hs : Sound net w) (hstep : w.step net ev = some w')
    (h : TokensApart w) : TokensApart w' where
  unstarted b := unstarted_step hs hstep (h.unstarted b)
  existing b p' hp' hlive := by
    obtain ⟨p, hp⟩ := old_of_started hs hstep hp' hlive
    by_cases hfresh : p.status = .registerEnded
    · obtain ⟨token, -, hsome, -⟩ := started_of_step hs hstep hp hp' hfresh
        (h.unstarted b p hp hfresh) hlive
      exact ⟨token, hsome⟩
    · obtain ⟨token, htoken⟩ := h.existing b p hp hfresh
      obtain ⟨token', htoken', -⟩ := supply_of_step hstep htoken
      rw [(counts_of_step hs hstep hp hp' hfresh (h.owns hp hfresh)).token]
      exact ⟨token', htoken'⟩
  distinct b c p' q' hp' hq' hlive hlive' hsame := by
    obtain ⟨p, hp⟩ := old_of_started hs hstep hp' hlive
    obtain ⟨q, hq⟩ := old_of_started hs hstep hq' hlive'
    rcases token_of_step hs hstep h hp hp' hlive with
      ⟨hold, htoken⟩ | ⟨hnew, hnone⟩
    · rcases token_of_step hs hstep h hq hq' hlive' with
        ⟨hold', htoken'⟩ | ⟨hnew', hnone'⟩
      · exact h.distinct b c p q hp hq hold hold'
          (htoken.symm.trans (hsame.trans htoken'))
      · -- the token of a new pool did not exist before
        obtain ⟨token, hsome⟩ := h.existing b p hp hold
        rw [← hsame, htoken, hsome] at hnone'
        cases hnone'
    · rcases token_of_step hs hstep h hq hq' hlive' with
        ⟨hold', htoken'⟩ | ⟨hnew', hnone'⟩
      · obtain ⟨token, hsome⟩ := h.existing c q hq hold'
        rw [hsame, htoken', hsome] at hnone
        cases hnone
      · -- one event starts one pool
        obtain ⟨_, _, msg, _, haction, htarget, -⟩ :=
          start_of_step hs hstep hp hp' hnew (h.unstarted b p hp hnew) hlive
        obtain ⟨_, _, _, _, haction', htarget', -⟩ :=
          start_of_step hs hstep hq hq' hnew' (h.unstarted c q hq hnew') hlive'
        obtain ⟨-, -, rfl, -⟩ :=
          Action.execute.inj (haction.symm.trans haction')
        exact Option.some.inj (htarget.symm.trans htarget')

/-! ### Runs -/

theorem foreignMint_eq_zero {token : LsdToken.Token}
    (hstep : w.step net ev = some w') (hp : w.store.pools a = some p)
    (htoken : w.tokens p.lsdToken = some token) (hminter : OnlyMinter net a w) :
    foreignMint p.lsdToken ev = 0 := by
  obtain ⟨-, -, hact⟩ := step_eq_some hstep
  unfold foreignMint foreignCall
  split
  case h_2 => rfl
  case h_1 addrValidate address sender msg haction =>
      by_cases haddr : address = p.lsdToken
      · subst haddr
        rw [if_pos rfl]
        simp only [haction, act] at hact
        split at hact
        case isTrue => cases hact
        case isFalse hforeign =>
            unfold runToken at hact
            simp only [htoken] at hact
            split at hact
            case h_1 => cases hact
            case h_2 hcall =>
                by_contra hminted
                obtain ⟨mint, hmint, hmem⟩ :=
                  LsdToken.execute_minter hcall hminted
                exact hforeign
                  (hminter p hp token htoken mint hmint sender hmem)
      · rw [if_neg haddr]
        rfl

structure AllSupplied (net : Network) (a : String) (s : World × Nat) :
    Prop where
  sound : Sound net s.1
  apart : TokensApart s.1
  agrees : SupplyAgrees a s

theorem supplyAgrees_step (hs : Sound net w) (hstep : w.step net ev = some w')
    (hapart : TokensApart w) (h : SupplyAgrees a (w, burnt))
    (hinit : StartsByInit a w ev) (hminter : OnlyMinter net a w) :
    SupplyAgrees a (w', keepBurned a burnt w ev w') := by
  intro p' hp' hlive
  obtain ⟨p, hp⟩ := old_of_started hs hstep hp' hlive
  by_cases hfresh : p.status = .registerEnded
  · obtain ⟨token, -, hsome, hsupply, htotal⟩ := started_of_step hs hstep hp
      hp' hfresh (hapart.unstarted a p hp hfresh) hlive
    refine ⟨token, hsome, ?_⟩
    simp [keepBurned, hp, hfresh, hsupply, htotal hinit]
  · obtain ⟨token, htoken, htotal⟩ := h p hp hfresh
    have hcounts := counts_of_step hs hstep hp hp' hfresh
      (hapart.owns hp hfresh)
    obtain ⟨token', htoken', hsupply⟩ := supply_of_step hstep htoken
    rw [foreignMint_eq_zero hstep hp htoken hminter] at hsupply
    refine ⟨token', by rw [hcounts.token]; exact htoken', ?_⟩
    have hkept : keepBurned a burnt w ev w' =
        burnt + foreignBurn p.lsdToken ev := by
      simp [keepBurned, hp, hfresh]
    have hcount := hcounts.total
    dsimp only at htotal ⊢
    rw [hkept]
    omega

theorem allSupplied_step {s s' : World × Nat} (hinv : AllSupplied net a s)
    (hstep : Transition.track (step net) (keepBurned a) s ev = some s')
    (hinit : StartsByInit a s.1 ev) (hminter : OnlyMinter net a s.1) :
    AllSupplied net a s' := by
  obtain ⟨w, burnt⟩ := s
  obtain ⟨w', burnt'⟩ := s'
  obtain ⟨hworld, rfl⟩ := Transition.track_eq_some.mp hstep
  obtain ⟨hs, hapart, hagrees⟩ := hinv
  exact ⟨sound_step hs hworld, tokensApart_step hs hworld hapart,
    supplyAgrees_step hs hworld hapart hagrees hinit hminter⟩

/-- As long as the stake manager is the only minter of the token, the counter
of a pool is the supply and what others have burned. -/
theorem supply_agrees {net : Network} {a : String} {block : BlockInfo}
    {info : MessageInfo} {lsdTokenCodeId : Nat} {evs : List Event}
    (hrun : Transition.AllSteps (Transition.track (step net) (keepBurned a))
      (fun s ev _ => StartsByInit a s.1 ev ∧ OnlyMinter net a s.1)
      (genesis block info lsdTokenCodeId, 0) evs) :
    Transition.AllSteps (Transition.track (step net) (keepBurned a))
      (fun _ _ s' => SupplyAgrees a s')
      (genesis block info lsdTokenCodeId, 0) evs := by
  refine Transition.AllSteps.of_invariant (AllSupplied net a) ?_ ?_ hrun
  · intro s ev s' hinv hstep hcond
    have hnext := allSupplied_step hinv hstep hcond.1 hcond.2
    exact ⟨hnext, hnext.agrees⟩
  · exact ⟨sound_genesis net block info lsdTokenCodeId,
      ⟨fun _ _ h => (nomatch h), fun _ _ h => (nomatch h),
        fun _ _ _ _ h => (nomatch h)⟩, fun _ h => (nomatch h)⟩

end World

namespace Sample

/-- The user burns tokens of its own. -/
def burn (n amount : Nat) : Event :=
  ⟨day n, .token (fun _ => true) lsdToken user (.burn amount)⟩

end Sample

namespace World

/-- A user burns tokens between a stake and an unstake. -/
theorem supply_agrees_sample :
    let evs := Sample.setup ++ Sample.firstEra ++
      [Sample.burn 4 100, Sample.allowBurn 4 1000, Sample.unstake 4 500]
    (Sample.run evs).isSome ∧
      Transition.AllSteps (Transition.track (step Sample.net)
          (keepBurned Sample.pool))
        (fun _ _ s' => SupplyAgrees Sample.pool s') (Sample.genesis, 0) evs :=
  ⟨by decide +kernel, supply_agrees (by decide +kernel)⟩

end World

end NeutronContracts
