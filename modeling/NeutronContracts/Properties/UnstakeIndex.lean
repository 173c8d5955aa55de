/-
The indexes of the users and the unstake records tell the same.  An unstake
writes both, a successful withdrawal removes from both what its text names,
and nothing else changes either; the index of a record is never used again.
-/
import NeutronContracts.Chain.Payouts
import NeutronContracts.Lib.OwnerIndex

namespace NeutronContracts

open StakeManager Fallible OwnerIndex

/-- The indexes of a pool that an unstake record has ever been stored under. -/
abbrev Taken := String × Nat → Prop

/-- Remember the indexes of all records. -/
def keepTaken (taken : Taken) (_ : World) (_ : Event) (w' : World) : Taken :=
  fun key => taken key ∨ ∃ info, w'.store.unstakesOfIndex key = some info

namespace World

/-- The indexes of the users and the records agree, and so the unstakes of a
user can always be looked up. -/
structure UnstakesAgree (w : World) : Prop where
  listed : ∀ user pool index, index ∈ w.store.indexesOf user pool ↔
    ∃ info, w.store.unstakesOfIndex (pool, index) = some info ∧
      info.unstaker = user
  once : ∀ user pool, (w.store.indexesOf user pool).Nodup
  range : ∀ pool index info,
    w.store.unstakesOfIndex (pool, index) = some info →
    ∃ p, w.store.pools pool = some p ∧ 1 ≤ index ∧ index ≤ p.nextUnstakeIndex
  query : ∀ user pool,
    ∃ results, queryUserUnstake w.store pool user = .ok results

/-- A record under an index that has been taken is the one that took it. -/
def NeverReused (s : World × Taken) (_ : Event) (s' : World × Taken) : Prop :=
  ∀ key info', s.2 key → s'.1.store.unstakesOfIndex key = some info' →
    ∃ info, s.1.store.unstakesOfIndex key = some info ∧ SameClaim info info'

variable {net : Network} {w w' : World} {ev : Event} {taken : Taken}
  {pool : String}

/-- The unstakers of the records of a pool. -/
def owners (w : World) (pool : String) : Map Nat String :=
  fun index => (w.store.unstakesOfIndex (pool, index)).map (·.unstaker)

/-- The indexes of all users in a pool. -/
def lists (w : World) (pool : String) : String → List Nat :=
  fun user => w.store.indexesOf user pool

theorem owners_eq_some {index : Nat} {user : String} :
    w.owners pool index = some user ↔
      ∃ info, w.store.unstakesOfIndex (pool, index) = some info ∧
        info.unstaker = user :=
  Option.map_eq_some_iff

theorem owners_of_same (h : w'.store.unstakesOfIndex =
    w.store.unstakesOfIndex) : w'.owners pool = w.owners pool := by
  unfold owners
  rw [h]

theorem lists_of_same (h : w'.store.unstakesIndexForUser =
    w.store.unstakesIndexForUser) : w'.lists pool = w.lists pool := by
  unfold lists Storage.indexesOf
  rw [h]

/-- The status of a record says nothing about its unstaker. -/
theorem owners_of_update {status : WithdrawStatus}
    {keys : List (String × Nat)} (h : w'.store.unstakesOfIndex =
      w.store.unstakesOfIndex.updateAll (.withStatus status) keys) :
    w'.owners pool = w.owners pool := by
  funext index
  unfold owners
  rw [h, Map.updateAll_apply]
  split
  · rw [Option.map_map]
    rfl
  · rfl

theorem owners_of_save {b : String} {index : Nat} {info : UnstakeInfo}
    (h : w'.store.unstakesOfIndex =
      w.store.unstakesOfIndex.save (b, index) info) :
    w'.owners pool = if pool = b then (w.owners pool).save index info.unstaker
      else w.owners pool := by
  funext other
  unfold owners
  rw [h, Map.save_apply]
  by_cases hpool : pool = b
  · rw [if_pos hpool, Map.save_apply]
    by_cases hother : other = index <;> simp [hpool, hother]
  · simp [hpool]

theorem owners_of_remove {b : String} {indexes : List Nat}
    (h : w'.store.unstakesOfIndex =
      w.store.unstakesOfIndex.removeAll (recordKeys b indexes)) :
    w'.owners pool = if pool = b then (w.owners pool).removeAll indexes
      else w.owners pool := by
  funext other
  unfold owners
  rw [h, Map.removeAll_apply]
  by_cases hpool : pool = b
  · rw [if_pos hpool, Map.removeAll_apply]
    by_cases hother : other ∈ indexes <;> simp [hpool, hother]
  · simp [hpool]

/-- The indexes and the records agree, and no index is taken beyond the
counter of its pool. -/
structure Indexed (net : Network) (s : World × Taken) : Prop where
  sound : Sound net s.1
  traced : Traced s.1
  fresh : ∀ a p, s.1.store.pools a = some p → p.status = .registerEnded →
    Unstarted s.1 a p
  inStep : ∀ pool, InStep (s.1.owners pool) (s.1.lists pool)
  noted : ∀ key info, s.1.store.unstakesOfIndex key = some info → s.2 key
  used : ∀ pool index, s.2 (pool, index) →
    1 ≤ index ∧ ¬ Unused s.1 pool index

/-- What a step does to the records: it changes claims or removes them, or it
makes one record under an unused index. -/
inductive TakenMove (w w' : World) : Prop
  | old (h : OldRecords w.store w'.store) : TakenMove w w'
  | new {b index info} (hpos : 1 ≤ index) (hnew : Unused w b index)
      (hused : ¬ Unused w' b index)
      (hrecords : w'.store.unstakesOfIndex =
        w.store.unstakesOfIndex.save (b, index) info) : TakenMove w w'

theorem OldRecords.of_removeAll {keys : List (String × Nat)}
    (h : w'.store.unstakesOfIndex =
      w.store.unstakesOfIndex.removeAll keys) :
    OldRecords w.store w'.store := by
  intro key info hinfo
  rw [h, Map.removeAll_apply] at hinfo
  split at hinfo
  · cases hinfo
  · exact ⟨info, hinfo, .refl _⟩

/-- The next index of a pool that unstakes is taken by the unstake. -/
theorem used_next {b : String} {p : PoolInfo} {token burned : Nat}
    (hrate : p.rate ≠ 0)
    (hfresh : p.status = .registerEnded → Unstarted w b p)
    (hpools : w'.store.pools =
      w.store.pools.save b (unstaked p token burned)) :
    ¬ Unused w' b (p.nextUnstakeIndex + 1) := by
  intro hunused
  rcases hunused _ (hpools ▸ Map.save_self) with hregistered | hless
  · exact hrate (hfresh hregistered).rate
  · exact lt_irrefl _ hless

theorem taken_move (h : Indexed net (w, taken)) (hmove : ClaimMove w ev w') :
    TakenMove w w' := by
  cases hmove with
  | request hanswer hrequest =>
      cases hrequest with
      | made hp hrate hlimit hpools hrecords hindexes hpayouts =>
          exact .new (Nat.le_add_left 1 _) (unused_next hp)
            (used_next hrate (h.fresh _ _ hp) hpools) hrecords
      | requested _ _ _ _ _ hrecords _ =>
          exact .old (record_updated hrecords).1
      | kept _ hsame => exact .old (.of_same hsame.records)
  | settled _ _ _ hrecords _ => exact .old (OldRecords.of_removeAll hrecords)
  | restored _ _ _ _ hrecords _ => exact .old (record_updated hrecords).1
  | lost _ _ _ _ hsame => exact .old (.of_same hsame.records)

/-- The lists of the users and the records stay in step. -/
theorem inStep_of_move (h : Indexed net (w, taken))
    (hmove : ClaimMove w ev w') (pool : String) :
    InStep (w'.owners pool) (w'.lists pool) := by
  have hold : InStep (w.owners pool) (w.lists pool) := h.inStep pool
  cases hmove with
  | request hanswer hrequest =>
      cases hrequest with
      | @made b sender p _ _ hp hrate hlimit hpools hrecords hindexes _ =>
          rw [owners_of_save hrecords]
          split
          case isTrue hpool =>
              subst hpool
              refine hold.add ?_ fun user => ?_
              · -- an index in use would have been taken
                cases howner : w.owners pool (p.nextUnstakeIndex + 1) with
                | none => rfl
                | some user =>
                    obtain ⟨info, hinfo, -⟩ := owners_eq_some.mp howner
                    exact absurd (unused_next hp)
                      (h.used _ _ (h.noted _ info hinfo)).2
              · simp only [lists, Storage.indexesOf, hindexes, Map.save_apply,
                  Prod.mk.injEq, and_true]
                split <;> rfl
          case isFalse hpool =>
              have hlists : w'.lists pool = w.lists pool := by
                funext user
                simp [lists, Storage.indexesOf, hindexes, hpool]
              rw [hlists]
              exact hold
      | requested _ _ _ _ _ hrecords hindexes =>
          rw [owners_of_update hrecords, lists_of_same hindexes]
          exact hold
      | kept _ hsame =>
          rw [owners_of_same hsame.records, lists_of_same hsame.indexes]
          exact hold
  | @settled id payout _ _ _ hrecords hindexes =>
      rw [owners_of_remove hrecords]
      split
      case isTrue hpool =>
          subst hpool
          refine hold.drop (o := payout.sender)
            (fun index => decide (toString index ∉ settledTexts payout.sender
              payout.receiver payout.indexes)) ?_ fun user => ?_
          · simp only [decide_not, Bool.not_not]
            rfl
          · simp only [lists, hindexes, and_true]
      case isFalse hpool =>
          have hlists : w'.lists pool = w.lists pool := by
            funext user
            simp [lists, hindexes, hpool]
          rw [hlists]
          exact hold
  | restored _ _ _ _ hrecords hindexes =>
      rw [owners_of_update hrecords, lists_of_same hindexes]
      exact hold
  | lost _ _ _ _ hsame =>
      rw [owners_of_same hsame.records, lists_of_same hsame.indexes]
      exact hold

theorem indexed_step (h : Indexed net (w, taken))
    (hstep : w.step net ev = some w') :
    Indexed net (w', keepTaken taken w ev w') := by
  have hs : Sound net w := h.sound
  have hmove := claim_move hs h.traced hstep
  have hused : ∀ pool index, ¬ Unused w pool index → ¬ Unused w' pool index :=
    fun _ _ hnot hunused => hnot (unused_of_step hs hstep hunused)
  refine ⟨sound_step hs hstep, traced_step hs hstep h.traced,
    fun a => unstarted_step hs hstep (h.fresh a), inStep_of_move h hmove,
    fun key info hinfo => .inr ⟨info, hinfo⟩, ?_⟩
  rintro pool index (htaken | ⟨info, hinfo⟩)
  · exact (h.used pool index htaken).imp_right (hused pool index)
  · have hrecorded : ∀ info, w.store.unstakesOfIndex (pool, index) =
        some info → 1 ≤ index ∧ ¬ Unused w' pool index := fun info hinfo =>
      (h.used pool index (h.noted _ info hinfo)).imp_right (hused pool index)
    cases taken_move h hmove with
    | old hold =>
        obtain ⟨before, hbefore, -⟩ := hold _ info hinfo
        exact hrecorded before hbefore
    | new hpos hnew hnext hrecords =>
        rw [hrecords, Map.save_apply] at hinfo
        split at hinfo
        case isTrue hkey =>
            obtain ⟨rfl, rfl⟩ := Prod.mk.inj hkey
            exact ⟨hpos, hnext⟩
        case isFalse => exact hrecorded info hinfo

/-- The agreement as users and queries see it. -/
theorem Indexed.agree (h : Indexed net (w, taken)) : UnstakesAgree w := by
  have hlisted : ∀ user pool index, index ∈ w.store.indexesOf user pool ↔
      ∃ info, w.store.unstakesOfIndex (pool, index) = some info ∧
        info.unstaker = user := fun user pool index =>
    ((h.inStep pool).mem_iff user index).trans owners_eq_some
  refine ⟨hlisted, fun user pool => (h.inStep pool).nodup user, ?_, ?_⟩
  · intro pool index info hinfo
    obtain ⟨hpos, hused⟩ := h.used pool index (h.noted _ info hinfo)
    simp only [Unused, not_forall, not_or, Nat.not_lt] at hused
    obtain ⟨p, hp, -, hle⟩ := hused
    exact ⟨p, hp, hpos, hle⟩
  · intro user pool
    apply queryUserUnstake_total
    intro index hindex
    obtain ⟨info, hinfo, -⟩ := (hlisted user pool index).mp hindex
    exact ⟨info, hinfo⟩

/-- No step stores another record under an index that has been taken. -/
theorem neverReused_step (h : Indexed net (w, taken))
    (hstep : w.step net ev = some w') (taken' : Taken) :
    NeverReused (w, taken) ev (w', taken') := by
  intro key info' htaken hinfo
  cases taken_move h (claim_move h.sound h.traced hstep) with
  | old hold => exact hold key info' hinfo
  | @new b index info hpos hnew hnext hrecords =>
      refine ⟨info', ?_, .refl _⟩
      have hne : key ≠ (b, index) := by
        rintro rfl
        exact (h.used _ _ htaken).2 hnew
      exact (Map.save_of_ne hne).symm.trans (hrecords ▸ hinfo)

theorem indexed_genesis (net : Network) (block : BlockInfo)
    (info : MessageInfo) (lsdTokenCodeId : Nat) :
    Indexed net (genesis block info lsdTokenCodeId, fun _ => False) := by
  refine ⟨sound_genesis net block info lsdTokenCodeId, ?_, ?_,
    fun _ => inStep_empty, ?_, fun _ _ => False.elim⟩
  · intro _ _ _ h
    cases h
  · intro _ _ h
    cases h
  · intro _ _ h
    cases h

/-- In every run the indexes of the users and the unstake records tell the
same after every step, and no index is ever used for a second record. -/
theorem unstakes_agree {block : BlockInfo} {deployer : MessageInfo}
    {lsdTokenCodeId : Nat} {evs : List Event} :
    Transition.AllSteps (Transition.track (step net) keepTaken)
      (fun s ev s' => UnstakesAgree s'.1 ∧ NeverReused s ev s')
      (genesis block deployer lsdTokenCodeId, fun _ => False) evs := by
  refine Transition.AllSteps.of_invariant (C := fun _ _ _ => True)
    (Indexed net) ?_ (indexed_genesis net block deployer lsdTokenCodeId)
    (.of_forall fun _ _ _ _ => trivial)
  rintro ⟨w, taken⟩ ev ⟨w', taken'⟩ hinv hstep -
  obtain ⟨hworld, rfl⟩ := Transition.track_eq_some.mp hstep
  have hinv' := indexed_step hinv hworld
  exact ⟨hinv', hinv'.agree, neverReused_step hinv hworld _⟩

end World

end NeutronContracts
