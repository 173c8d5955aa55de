/-
From an unstake to its withdrawal.  The tokens of an unstake record wait in
`unbond`, are taken into the snapshot of an era, and are bonded when the bond
step of that era succeeds.  An unbonding period of two eras is long enough for
this to happen before the record can be withdrawn, wherever in the cycle the
unstake has happened.
-/
import NeutronContracts.Chain.EraProtocol
import NeutronContracts.Chain.Records

namespace NeutronContracts

open StakeManager Outstanding Fallible

/-- The index of an unstake record and the tokens it added to `unbond`. -/
abbrev Entry := Nat × Nat

/-- The tokens of a list of entries. -/
def tokenSum (entries : List Entry) : Nat := (entries.map Prod.snd).sum

@[simp] theorem tokenSum_append (first second : List Entry) :
    tokenSum (first ++ second) = tokenSum first + tokenSum second := by
  simp [tokenSum]

@[simp] theorem tokenSum_nil : tokenSum [] = 0 := rfl

@[simp] theorem tokenSum_singleton (entry : Entry) :
    tokenSum [entry] = entry.2 := by
  simp [tokenSum]

/-- Where the entries of a pool are: waiting for a snapshot, in the snapshot
of the current era, or in the snapshot of an era that was bonded. -/
structure UnbondBooks where
  queued : List Entry
  taken : List Entry
  bonded : List (EraSnapshot × List Entry)

namespace UnbondBooks

def empty : UnbondBooks := ⟨[], [], []⟩

/-- All entries that were ever made. -/
def all (books : UnbondBooks) : List Entry :=
  books.bonded.flatMap Prod.snd ++ books.taken ++ books.queued

/-- An unstake. -/
def queue (books : UnbondBooks) (entry : Entry) : UnbondBooks :=
  { books with queued := books.queued ++ [entry] }

/-- The snapshot of a new era. -/
def take (books : UnbondBooks) : UnbondBooks :=
  { books with taken := books.taken ++ books.queued, queued := [] }

/-- The snapshot is dropped. -/
def giveBack (books : UnbondBooks) : UnbondBooks :=
  { books with taken := [], queued := books.taken ++ books.queued }

/-- The snapshot is bonded. -/
def settle (books : UnbondBooks) (snapshot : EraSnapshot) : UnbondBooks :=
  { books with
    taken := []
    bonded := books.bonded ++ [(snapshot, books.taken)] }

variable (books : UnbondBooks)

@[simp] theorem all_empty : empty.all = [] := rfl

@[simp] theorem all_queue (entry : Entry) :
    (books.queue entry).all = books.all ++ [entry] := by
  simp [all, queue]

@[simp] theorem all_take : books.take.all = books.all := by
  simp [all, take]

@[simp] theorem all_giveBack : books.giveBack.all = books.all := by
  simp [all, giveBack]

@[simp] theorem all_settle (snapshot : EraSnapshot) :
    (books.settle snapshot).all = books.all := by
  simp [all, settle]

/-- What an accepted call writes into the books of pool `a`. -/
def ofCall (a : String) (p p' : PoolInfo) : ExecuteMsg → UnbondBooks
  | .unstake _ b =>
      if b = a then books.queue (p'.nextUnstakeIndex, p'.unbond - p.unbond)
      else books
  | .eraUpdate b => if b = a then books.take else books
  | _ => books

/-- What the answer to a packet writes into the books. -/
def ofAnswer (p : PoolInfo) (kind : Option TxType) (answer : Answer) :
    UnbondBooks :=
  match kind with
  | some .eraUpdate =>
      if answer = .success then books else books.giveBack
  | some .eraBond =>
      if answer = .success then books.settle p.eraSnapshot else books
  | _ => books

variable {books}

theorem ofAnswer_of_other {p : PoolInfo} {kind : Option TxType}
    {answer : Answer} (hupdate : kind ≠ some .eraUpdate)
    (hbond : kind ≠ some .eraBond) : books.ofAnswer p kind answer = books := by
  unfold ofAnswer
  split
  · exact absurd rfl hupdate
  · exact absurd rfl hbond
  · rfl

end UnbondBooks

/-- The entry of a record is where the era of the record allows it: an entry
that is not bonded is at most one era old. -/
def Staged (books : UnbondBooks) (era index : Nat) (info : UnstakeInfo) :
    Prop :=
  (∃ batch ∈ books.bonded, (index, info.amount + 5) ∈ batch.2) ∨
    (index, info.amount + 5) ∈ books.taken ∧ era ≤ info.era + 1 ∨
    (index, info.amount + 5) ∈ books.queued ∧ era ≤ info.era

namespace Staged

variable {books : UnbondBooks} {era index : Nat} {info : UnstakeInfo}

theorem queue (h : Staged books era index info) (entry : Entry) :
    Staged (books.queue entry) era index info :=
  h.imp_right (.imp_right fun ⟨hmem, hera⟩ =>
    ⟨List.mem_append_left _ hmem, hera⟩)

theorem take (h : Staged books era index info) (hnone : books.taken = []) :
    Staged books.take (era + 1) index info := by
  rcases h with hbonded | ⟨htaken, -⟩ | ⟨hqueued, hera⟩
  · exact .inl hbonded
  · simp [hnone] at htaken
  · exact .inr (.inl ⟨List.mem_append_right _ hqueued, by omega⟩)

theorem giveBack (h : Staged books era index info) :
    Staged books.giveBack (era - 1) index info := by
  rcases h with hbonded | ⟨htaken, hera⟩ | ⟨hqueued, hera⟩
  · exact .inl hbonded
  · exact .inr (.inr ⟨List.mem_append_left _ htaken, by omega⟩)
  · exact .inr (.inr ⟨List.mem_append_right _ hqueued, by omega⟩)

theorem settle (h : Staged books era index info) (snapshot : EraSnapshot) :
    Staged (books.settle snapshot) era index info := by
  rcases h with ⟨batch, hbatch, hmem⟩ | ⟨htaken, -⟩ | hqueued
  · exact .inl ⟨batch, List.mem_append_left _ hbatch, hmem⟩
  · exact .inl ⟨_, List.mem_append_right _ (List.mem_singleton_self _),
      htaken⟩
  · exact .inr (.inr hqueued)

/-- A claim keeps its place when the status of its record changes. -/
theorem claim {info' : UnstakeInfo} (h : Staged books era index info)
    (hclaim : SameClaim info info') : Staged books era index info' := by
  obtain ⟨_, rfl⟩ := hclaim
  exact h

/-- Two eras after the unstake its tokens are bonded. -/
theorem mature {period : Nat} (h : Staged books era index info)
    (hperiod : 2 ≤ period) (hmature : info.era + period ≤ era) :
    ∃ batch ∈ books.bonded, (index, info.amount + 5) ∈ batch.2 := by
  rcases h with hbonded | ⟨-, hera⟩ | ⟨-, hera⟩
  · exact hbonded
  · omega
  · omega

end Staged

section

variable {a : String} {p p' : PoolInfo}

theorem ofCall_elsewhere {books : UnbondBooks} {store : Storage}
    {msg : ExecuteMsg}
    (htarget : msg.target store ≠ some a) :
    books.ofCall a p p' msg = books := by
  cases msg with
  | unstake amount b => exact if_neg fun h => htarget (congrArg some h)
  | eraUpdate b => exact if_neg fun h => htarget (congrArg some h)
  | _ => rfl

/-- Two records of a pool with the same status, era, snapshot and unstakes. -/
structure SameUnbonds (p p' : PoolInfo) : Prop where
  status : p'.status = p.status
  era : p'.era = p.era
  snapshot : p'.eraSnapshot = p.eraSnapshot
  rate : p'.rate = p.rate
  unbond : p'.unbond = p.unbond
  next : p'.nextUnstakeIndex = p.nextUnstakeIndex

/-- A call is an unstake from the pool, a step of its era cycle, or nothing
the books are about. -/
theorem ExecStep.unbonds {store : Storage} {querier : Querier} {env : Env}
    {info : MessageInfo} {msg : ExecuteMsg} {sent : Option SubMsg}
    (h : ExecStep store querier env info a p msg sent p') :
    (∃ lsdTokenAmount, msg = .unstake lsdTokenAmount a) ∨
      EraStep store querier env a p msg sent p' ∨
      SameUnbonds p p' ∧
        ∀ books : UnbondBooks, books.ofCall a p p' msg = books := by
  cases h with
  | era hera => exact .inr (.inl hera)
  | unstake => exact .inl ⟨_, rfl⟩
  | elsewhere htarget hsent =>
      exact .inr (.inr ⟨⟨rfl, rfl, rfl, rfl, rfl, rfl⟩,
        fun _ => ofCall_elsewhere htarget⟩)
  | config hpool hconfig =>
      obtain ⟨_, _, _, _, _, _, _, _, _, _, _, rfl⟩ := hconfig
      exact .inr (.inr ⟨⟨rfl, rfl, rfl, rfl, rfl, rfl⟩, fun _ => rfl⟩)
  | _ => exact .inr (.inr ⟨⟨rfl, rfl, rfl, rfl, rfl, rfl⟩, fun _ => rfl⟩)

theorem AnswerStep.unbonds {height : Nat} {payload : SudoPayload}
    {answer : Answer} (h : AnswerStep height p payload answer p') :
    EraAnswer height p payload answer p' ∨
      SameUnbonds p p' ∧ payload.txType.isStep = false := by
  cases h with
  | era hera => exact .inl hera
  | validatorFailed htype hfailed =>
      refine .inr ⟨⟨rfl, rfl, rfl, rfl, rfl, rfl⟩, ?_⟩
      rcases htype with htype | htype
      all_goals
        rw [htype]
        rfl
  | _ =>
      refine .inr ⟨⟨rfl, rfl, rfl, rfl, rfl, rfl⟩, ?_⟩
      simp [TxType.isStep, TxType.isEra, TxType.isInit, *]

end

namespace World

/-- The books of pool `a` along a run. -/
def keepUnbonds (a : String) (books : UnbondBooks) (w : World) (ev : Event)
    (w' : World) : UnbondBooks :=
  match w.store.pools a, w'.store.pools a with
  | some p, some p' =>
      match ev.action with
      | .execute _ _ msg _ => books.ofCall a p p' msg
      | .answer id answer _ _ =>
          books.ofAnswer p ((w.pending id).bind (·.kind a)) answer
      | _ => books
  | _, _ => UnbondBooks.empty

/-- The unstake records that an event withdraws from pool `a`. -/
def withdrawal (a : String) (ev : Event) : Option (List Nat) :=
  match ev.action with
  | .execute _ _ (.withdraw b _ indexes) _ =>
      if b = a then some indexes else none
  | _ => none

/-- Every withdrawn record added its tokens to `unbond` in the snapshot of an
era that was bonded. -/
def OnlyBonded (a : String) (s : World × UnbondBooks) (ev : Event) : Prop :=
  ∀ indexes ∈ withdrawal a ev, ∀ index ∈ indexes,
    ∃ info ∈ s.1.store.unstakesOfIndex (a, index),
      ∃ batch ∈ s.2.bonded, (index, info.amount + 5) ∈ batch.2 ∧
        tokenSum batch.2 ≤ batch.1.unbond

/-- The unbonding period of a pool that has been set up is two eras at
least. -/
def LongPeriod (a : String) (w : World) : Prop :=
  ∀ p ∈ w.store.pools a, p.status ≠ .registerEnded → 2 ≤ p.unbondingPeriod

instance (a : String) (w : World) : Decidable (LongPeriod a w) :=
  inferInstanceAs (Decidable (∀ p ∈ w.store.pools a,
    p.status ≠ .registerEnded → 2 ≤ p.unbondingPeriod))

variable {net : Network} {w w' : World} {ev : Event} {a : String}
  {p p' : PoolInfo} {books : UnbondBooks}

/-- The entries are counted in `unbond`, the taken ones in the snapshot, and
every record has its entry. -/
structure Unbonding (w : World) (a : String) (p : PoolInfo)
    (books : UnbondBooks) : Prop where
  fresh : p.status = .registerEnded → p.rate = 0 ∧ books = UnbondBooks.empty
  apart : ¬ beforeBond p.status → books.taken = []
  counted : tokenSum books.queued ≤ p.unbond
  snapshot : beforeBond p.status →
    tokenSum books.queued + p.eraSnapshot.unbond ≤ p.unbond ∧
      tokenSum books.taken ≤ p.eraSnapshot.unbond
  bonded : ∀ batch ∈ books.bonded, tokenSum batch.2 ≤ batch.1.unbond
  distinct : (books.all.map Prod.fst).Nodup
  below : ∀ entry ∈ books.all, entry.1 ≤ p.nextUnstakeIndex
  records : ∀ index info, w.store.unstakesOfIndex (a, index) = some info →
    Staged books p.era index info

/-- The records of pool `a` are old ones. -/
def KeepsRecords (a : String) (w w' : World) : Prop :=
  ∀ index info', w'.store.unstakesOfIndex (a, index) = some info' →
    ∃ info, w.store.unstakesOfIndex (a, index) = some info ∧
      SameClaim info info'

/-- Only an unstake from pool `a` makes a record of it. -/
theorem records_of_step (hs : Sound net w) (hstep : w.step net ev = some w')
    (hunstake : ∀ querier info amount id,
      ev.action ≠ .execute querier info (.unstake amount a) id) :
    KeepsRecords a w w' := by
  intro index info' hinfo'
  have hmove := record_move hs hstep
  by_cases hany : ∃ querier info amount b id,
      ev.action = .execute querier info (.unstake amount b) id
  · obtain ⟨querier, info, amount, b, id, haction⟩ := hany
    cases hmove with
    | unstaked haction' hp htoken hlarge hpools hrecords hindexes hpending =>
        rename_i b' _ _ _ _
        have hne : a ≠ b' := by
          rintro rfl
          exact hunstake _ _ _ _ haction'
        rw [hrecords, Map.save_of_ne (by simp [hne])] at hinfo'
        exact ⟨info', hinfo', .refl _⟩
    | withdrawn haction' => cases haction.symm.trans haction'
    | answered haction' => cases haction.symm.trans haction'
    | dropped haction' => cases haction.symm.trans haction'
    | other hexecute => cases hexecute _ _ _ _ haction
  · exact hmove.old (fun _ _ _ _ _ haction => hany ⟨_, _, _, _, _, haction⟩) _
      _ hinfo'

/-- The books after a call that is neither an unstake from the pool nor its
update step. -/
theorem keepUnbonds_of_call {querier : Querier} {info : MessageInfo}
    {msg : ExecuteMsg} {id : PacketId} (hp : w.store.pools a = some p)
    (hp' : w'.store.pools a = some p')
    (haction : ev.action = .execute querier info msg id) :
    keepUnbonds a books w ev w' = books.ofCall a p p' msg := by
  simp [keepUnbonds, hp, hp', haction]

theorem keepUnbonds_of_answer {querier : Querier} {id : PacketId}
    {answer : Answer} {bankAccepts : Bool} {packet : Packet}
    (hp : w.store.pools a = some p) (hp' : w'.store.pools a = some p')
    (haction : ev.action = .answer id answer querier bankAccepts)
    (hpacket : w.pending id = some packet) :
    keepUnbonds a books w ev w' = books.ofAnswer p (packet.kind a) answer := by
  simp [keepUnbonds, hp, hp', haction, hpacket]

/-- A move that changes no status and no snapshot keeps the books. -/
theorem Unbonding.of_same (h : Unbonding w a p books)
    (hstatus : p'.status = p.status) (hera : p'.era = p.era)
    (hsnapshot : p'.eraSnapshot = p.eraSnapshot) (hrate : p'.rate = p.rate)
    (hunbond : p.unbond ≤ p'.unbond)
    (hnext : p.nextUnstakeIndex ≤ p'.nextUnstakeIndex)
    (hold : KeepsRecords a w w') : Unbonding w' a p' books where
  fresh := by rw [hstatus, hrate]; exact h.fresh
  apart := by rw [hstatus]; exact h.apart
  counted := h.counted.trans hunbond
  snapshot := by
    rw [hstatus, hsnapshot]
    exact fun hbefore => ⟨(h.snapshot hbefore).1.trans hunbond,
      (h.snapshot hbefore).2⟩
  bonded := h.bonded
  distinct := h.distinct
  below entry hentry := (h.below entry hentry).trans hnext
  records index info' hinfo' := by
    obtain ⟨info, hinfo, hclaim⟩ := hold index info' hinfo'
    rw [hera]
    exact (h.records index info hinfo).claim hclaim

/-- A move between two statuses without a snapshot. -/
theorem Unbonding.of_after (h : Unbonding w a p books)
    (hold : KeepsRecords a w w') (hbefore : ¬ beforeBond p.status)
    (hafter : ¬ beforeBond p'.status) (hlive : p'.status ≠ .registerEnded)
    (hera : p'.era = p.era) (hunbond : p'.unbond = p.unbond)
    (hnext : p'.nextUnstakeIndex = p.nextUnstakeIndex) :
    Unbonding w' a p' books where
  fresh hstatus := absurd hstatus hlive
  apart _ := h.apart hbefore
  counted := hunbond ▸ h.counted
  snapshot hstatus := absurd hstatus hafter
  bonded := h.bonded
  distinct := h.distinct
  below := hnext ▸ h.below
  records index info' hinfo' := by
    obtain ⟨info, hinfo, hclaim⟩ := hold index info' hinfo'
    exact hera ▸ (h.records index info hinfo).claim hclaim

/-- A move between two statuses with a snapshot. -/
theorem Unbonding.of_before (h : Unbonding w a p books)
    (hold : KeepsRecords a w w') (hbefore : beforeBond p.status)
    (hafter : beforeBond p'.status) (hera : p'.era = p.era)
    (hunbond : p'.unbond = p.unbond)
    (hsnapshot : p'.eraSnapshot.unbond = p.eraSnapshot.unbond)
    (hnext : p'.nextUnstakeIndex = p.nextUnstakeIndex) :
    Unbonding w' a p' books where
  fresh hstatus := by simp [hstatus, beforeBond] at hafter
  apart hstatus := absurd hafter hstatus
  counted := hunbond ▸ h.counted
  snapshot _ := by
    rw [hunbond, hsnapshot]
    exact h.snapshot hbefore
  bonded := h.bonded
  distinct := h.distinct
  below := hnext ▸ h.below
  records index info' hinfo' := by
    obtain ⟨info, hinfo, hclaim⟩ := hold index info' hinfo'
    exact hera ▸ (h.records index info hinfo).claim hclaim

/-- A pool that starts has neither entries nor records. -/
theorem Unbonding.start (h : Unbonding w a p books)
    (hold : KeepsRecords a w w') (hstatus : p.status = .registerEnded)
    (hstarted : p'.status = .initStarted) : Unbonding w' a p' books := by
  obtain ⟨-, rfl⟩ := h.fresh hstatus
  refine ⟨by simp [hstarted], fun _ => rfl, Nat.zero_le _,
    by simp [hstarted, beforeBond], nofun, List.nodup_nil, nofun, ?_⟩
  intro index info' hinfo'
  obtain ⟨info, hinfo, -⟩ := hold index info' hinfo'
  have hstaged := h.records index info hinfo
  simp [Staged, UnbondBooks.empty] at hstaged

/-- The update step takes all entries into the snapshot. -/
theorem Unbonding.update (h : Unbonding w a p books)
    (hold : KeepsRecords a w w') (hstatus : p.status = .activeEnded)
    (hafter : beforeBond p'.status) (hera : p'.era = p.era + 1)
    (hunbond : p'.unbond = p.unbond)
    (hsnapshot : p'.eraSnapshot.unbond = p.unbond)
    (hnext : p'.nextUnstakeIndex = p.nextUnstakeIndex) :
    Unbonding w' a p' books.take := by
  have hnone : books.taken = [] :=
    h.apart (by simp [hstatus, beforeBond])
  refine ⟨fun hregistered => ?_, fun hother => absurd hafter hother,
    Nat.zero_le _, fun _ => ?_, h.bonded, ?_, ?_, ?_⟩
  · simp [hregistered, beforeBond] at hafter
  · rw [hsnapshot, hunbond]
    have hcounted := h.counted
    simp only [UnbondBooks.take, hnone, List.nil_append, tokenSum_nil]
    omega
  · simpa using h.distinct
  · simpa [hnext] using h.below
  · intro index info' hinfo'
    obtain ⟨info, hinfo, hclaim⟩ := hold index info' hinfo'
    rw [hera]
    exact ((h.records index info hinfo).claim hclaim).take hnone

/-- A failed update gives the entries back. -/
theorem Unbonding.updateFailed (h : Unbonding w a p books)
    (hold : KeepsRecords a w w') (hbefore : beforeBond p.status)
    (hstatus : p'.status = .activeEnded) (hera : p'.era = p.era - 1)
    (hunbond : p'.unbond = p.unbond)
    (hnext : p'.nextUnstakeIndex = p.nextUnstakeIndex) :
    Unbonding w' a p' books.giveBack := by
  obtain ⟨hqueued, htaken⟩ := h.snapshot hbefore
  refine ⟨by simp [hstatus], fun _ => rfl, ?_, by simp [hstatus, beforeBond],
    h.bonded, ?_, ?_, ?_⟩
  · simp only [UnbondBooks.giveBack, tokenSum_append]
    omega
  · simpa using h.distinct
  · simpa [hnext] using h.below
  · intro index info' hinfo'
    obtain ⟨info, hinfo, hclaim⟩ := hold index info' hinfo'
    rw [hera]
    exact ((h.records index info hinfo).claim hclaim).giveBack

/-- The success of the bond step settles the snapshot. -/
theorem Unbonding.bond (h : Unbonding w a p books)
    (hold : KeepsRecords a w w') (hbefore : beforeBond p.status)
    (hstatus : p'.status = .bondEnded) (hera : p'.era = p.era)
    (hunbond : p'.unbond = p.unbond - p.eraSnapshot.unbond)
    (hnext : p'.nextUnstakeIndex = p.nextUnstakeIndex) :
    Unbonding w' a p' (books.settle p.eraSnapshot) := by
  obtain ⟨hqueued, htaken⟩ := h.snapshot hbefore
  refine ⟨by simp [hstatus], fun _ => rfl, ?_, by simp [hstatus, beforeBond],
    ?_, ?_, ?_, ?_⟩
  · simp only [UnbondBooks.settle]
    omega
  · simp only [UnbondBooks.settle, List.mem_append, List.mem_singleton]
    rintro batch (hbatch | rfl)
    · exact h.bonded batch hbatch
    · exact htaken
  · simpa using h.distinct
  · simpa [hnext] using h.below
  · intro index info' hinfo'
    obtain ⟨info, hinfo, hclaim⟩ := hold index info' hinfo'
    rw [hera]
    exact ((h.records index info hinfo).claim hclaim).settle _

/-- An unstake queues its entry under a new index. -/
theorem Unbonding.unstake (h : Unbonding w a p books) {token burned : Nat}
    {sender : String} (htoken : token = burned * p.rate / calBase)
    (hlarge : 5 < token)
    (hrecords : w'.store.unstakesOfIndex =
      w.store.unstakesOfIndex.save (a, p.nextUnstakeIndex + 1)
        ⟨p.era, a, sender, token - 5, .idle, p.nextUnstakeIndex + 1⟩) :
    Unbonding w' a (unstaked p token burned)
      (books.queue (p.nextUnstakeIndex + 1, token)) := by
  have hfresh : p.status ≠ .registerEnded := by
    intro hstatus
    rw [(h.fresh hstatus).1, Nat.mul_zero, Nat.zero_div] at htoken
    omega
  refine ⟨fun hstatus => absurd hstatus hfresh, h.apart, ?_,
    fun hbefore => ⟨?_, (h.snapshot hbefore).2⟩, h.bonded, ?_, ?_, ?_⟩
  · have hcounted := h.counted
    simp only [UnbondBooks.queue, tokenSum_append, tokenSum_singleton,
      unstaked]
    omega
  · have hqueued := (h.snapshot hbefore).1
    simp only [UnbondBooks.queue, tokenSum_append, tokenSum_singleton,
      unstaked]
    omega
  · rw [UnbondBooks.all_queue, List.map_append, List.map_singleton,
      ← List.concat_eq_append, List.nodup_concat]
    refine ⟨fun hmem => ?_, h.distinct⟩
    obtain ⟨entry, hentry, hindex⟩ := List.mem_map.mp hmem
    have hbelow := h.below entry hentry
    omega
  · intro entry hentry
    rw [UnbondBooks.all_queue, List.mem_append, List.mem_singleton] at hentry
    rcases hentry with hentry | rfl
    · exact (h.below entry hentry).trans (Nat.le_succ _)
    · exact le_rfl
  · intro index info' hinfo'
    rw [hrecords, Map.save_apply] at hinfo'
    split at hinfo'
    case isTrue hkey =>
      obtain ⟨-, rfl⟩ := Prod.mk.inj hkey
      obtain rfl := Option.some.inj hinfo'
      refine .inr (.inr ⟨List.mem_append_right _ ?_, le_rfl⟩)
      rw [List.mem_singleton, Prod.mk.injEq]
      exact ⟨rfl, by dsimp only; omega⟩
    case isFalse => exact (h.records index info' hinfo').queue _

/-- The steps of the era cycle. -/
theorem unbonding_of_era {querier : Querier} {info : MessageInfo}
    {msg : ExecuteMsg} {sent : Option SubMsg} {env : Env} {id : PacketId}
    (h : Unbonding w a p books) (hold : KeepsRecords a w w')
    (hp : w.store.pools a = some p) (hp' : w'.store.pools a = some p')
    (haction : ev.action = .execute querier info msg id)
    (hera : EraStep w.store querier env a p msg sent p') :
    Unbonding w' a p' (keepUnbonds a books w ev w') := by
  rw [keepUnbonds_of_call hp hp' haction]
  cases hera with
  | init htarget hstatus hcalls => exact h.start hold hstatus rfl
  | migrate htarget hstatus hrate hcal hcalls => exact h.start hold hstatus rfl
  | retry htarget hmsg hstatus hcalls =>
      have hsame : Unbonding w' a p books :=
        h.of_same rfl rfl rfl rfl le_rfl le_rfl hold
      rcases hmsg with ⟨_, rfl⟩ | ⟨_, rfl⟩
      · exact hsame
      · exact hsame
  | eraUpdate hstatus hupdate hbond =>
      simp only [UnbondBooks.ofCall, if_true]
      exact h.update hold hstatus (.inr (.inl rfl)) rfl rfl rfl rfl
  | eraUpdateSent hstatus hupdate hbond hcalls hmsg htoken =>
      simp only [UnbondBooks.ofCall, if_true]
      exact h.update hold hstatus (.inl rfl) rfl rfl rfl rfl
  | eraBond hstatus hmsgs hsent hcalls =>
      exact h.of_before hold (.inr (.inl hstatus)) (.inr (.inr rfl)) rfl rfl
        rfl rfl
  | collect hstatus hinfo hamount =>
      exact h.of_after hold (by simp [hstatus, beforeBond])
        (by simp [beforeBond]) (by simp) rfl rfl rfl
  | collectSent hstatus hinfo hamount hne hcalls hmsgs =>
      exact h.of_after hold (by simp [hstatus, beforeBond])
        (by simp [beforeBond]) (by simp) rfl rfl rfl
  | rebond hstatus hzero =>
      exact h.of_after hold (by simp [hstatus, beforeBond])
        (by simp [beforeBond]) (by simp) rfl rfl rfl
  | rebondSent hstatus hne hmsgs hsent hcalls =>
      exact h.of_same rfl rfl rfl rfl le_rfl le_rfl hold
  | active hstatus hshares hstack act htotal =>
      exact h.of_after hold (by simp [hstatus, beforeBond])
        (by simp [beforeBond, Activation.apply])
        (by simp [Activation.apply]) rfl rfl rfl

/-- The answers to the packets of the era cycle. -/
theorem unbonding_of_answer {querier : Querier} {id : PacketId}
    {answer : Answer} {bankAccepts : Bool} {packet : Packet}
    {payload : SudoPayload} {height : Nat} (ho : InOrder w a p)
    (h : Unbonding w a p books) (hold : KeepsRecords a w w')
    (hp : w.store.pools a = some p) (hp' : w'.store.pools a = some p')
    (haction : ev.action = .answer id answer querier bankAccepts)
    (hpacket : w.pending id = some packet)
    (hpayload : packet.payload = some payload) (hpool : payload.poolAddr = a)
    (hera : EraAnswer height p payload answer p') :
    Unbonding w' a p' (keepUnbonds a books w ev w') := by
  rw [keepUnbonds_of_answer hp hp' haction hpacket,
    Packet.kind_eq_some.mpr ⟨payload, hpayload, hpool, rfl⟩]
  have hawaited : payload.txType.isEra = true →
      awaited p.status = some payload.txType := fun hkind =>
    (ho.cycle.awaited_of_packet hpacket hpayload hpool hkind).2
  have hinit : payload.txType = .setWithdrawAddr → ¬ beforeBond p.status := by
    intro htype
    have hwaits := waiting_eq_some.mpr
      ⟨⟨packet, payload, hpacket, hpayload, hpool, htype⟩,
        (rfl : TxType.isInit .setWithdrawAddr = true)⟩
    rcases ho.init.may id _ hwaits with hstatus | hstatus
    · simp [hstatus, beforeBond]
    · simp [hstatus, beforeBond]
  cases hera with
  | setWithdraw htype =>
      rw [htype]
      exact h.of_after hold (hinit htype) (by simp [beforeBond]) (by simp) rfl
        rfl rfl
  | setWithdrawFailed htype hfailed =>
      rw [htype]
      exact h.of_after hold (hinit htype) (by simp [beforeBond]) (by simp) rfl
        rfl rfl
  | eraUpdate htype =>
      rw [htype] at hawaited ⊢
      exact h.of_before hold (beforeBond_of_awaited (.inl (hawaited rfl)))
        (.inr (.inl rfl)) rfl rfl rfl rfl
  | eraUpdateFailed htype hfailed hera =>
      rw [htype] at hawaited ⊢
      simp only [UnbondBooks.ofAnswer, hfailed, if_false]
      exact h.updateFailed hold (beforeBond_of_awaited (.inl (hawaited rfl)))
        rfl rfl rfl rfl
  | eraBond htype hbond hunbond =>
      rw [htype] at hawaited ⊢
      exact h.bond hold (beforeBond_of_awaited (.inr (hawaited rfl))) rfl rfl
        rfl rfl
  | eraBondFailed htype hfailed =>
      rw [htype] at hawaited ⊢
      simp only [UnbondBooks.ofAnswer, hfailed, if_false]
      exact h.of_before hold (beforeBond_of_awaited (.inr (hawaited rfl)))
        (.inr (.inl rfl)) rfl rfl rfl rfl
  | collect htype =>
      rw [htype] at hawaited ⊢
      have hstatus := status_of_awaited.2.2.1.mp (hawaited rfl)
      exact h.of_after hold (by simp [hstatus, beforeBond])
        (by simp [beforeBond]) (by simp) rfl rfl rfl
  | collectFailed htype hfailed =>
      rw [htype] at hawaited ⊢
      have hstatus := status_of_awaited.2.2.1.mp (hawaited rfl)
      exact h.of_after hold (by simp [hstatus, beforeBond])
        (by simp [beforeBond]) (by simp) rfl rfl rfl
  | rebond htype =>
      rw [htype] at hawaited ⊢
      have hstatus := status_of_awaited.2.2.2.mp (hawaited rfl)
      exact h.of_after hold (by simp [hstatus, beforeBond])
        (by simp [beforeBond]) (by simp) rfl rfl rfl
  | rebondFailed htype hfailed =>
      rw [htype] at hawaited ⊢
      have hstatus := status_of_awaited.2.2.2.mp (hawaited rfl)
      exact h.of_after hold (by simp [hstatus, beforeBond])
        (by simp [beforeBond]) (by simp) rfl rfl rfl

theorem Unbonding.of_unbonds (h : Unbonding w a p books)
    (hsame : SameUnbonds p p') (hold : KeepsRecords a w w') :
    Unbonding w' a p' books :=
  h.of_same hsame.status hsame.era hsame.snapshot hsame.rate hsame.unbond.ge
    hsame.next.ge hold

/-- An answer to a packet of another kind writes nothing into the books. -/
theorem ofAnswer_of_plain {kind : Option TxType} {answer : Answer}
    (h : ∀ txType ∈ kind, txType.isStep = false) :
    books.ofAnswer p kind answer = books := by
  refine UnbondBooks.ofAnswer_of_other ?_ ?_
  · rintro rfl
    exact absurd (h _ rfl) (by decide)
  · rintro rfl
    exact absurd (h _ rfl) (by decide)

/-- Every step of an orderly run keeps the books right. -/
theorem unbonding_of_move (hs : Sound net w) (hstep : w.step net ev = some w')
    (ho : InOrder w a p) (h : Unbonding w a p books)
    (hp : w.store.pools a = some p) (hp' : w'.store.pools a = some p')
    (hmove : PoolMove net w ev w' a p p') :
    Unbonding w' a p' (keepUnbonds a books w ev w') := by
  by_cases hunstake : ∃ querier info amount id,
      ev.action = .execute querier info (.unstake amount a) id
  · obtain ⟨querier, info, amount, id, haction⟩ := hunstake
    cases record_move hs hstep with
    | unstaked haction' hq htoken hlarge hpools hrecords =>
        obtain ⟨rfl, rfl, hmsg, rfl⟩ :=
          Action.execute.inj (haction.symm.trans haction')
        obtain ⟨rfl, rfl⟩ := ExecuteMsg.unstake.inj hmsg
        obtain rfl := Option.some.inj (hp.symm.trans hq)
        rw [hpools, Map.save_self] at hp'
        obtain rfl := Option.some.inj hp'
        rw [keepUnbonds_of_call hp (hpools ▸ Map.save_self) haction]
        have hnew := h.unstake htoken hlarge hrecords
        simpa [UnbondBooks.ofCall, unstaked] using hnew
    | withdrawn haction' => cases haction.symm.trans haction'
    | answered haction' => cases haction.symm.trans haction'
    | dropped haction' => cases haction.symm.trans haction'
    | other hexecute => cases hexecute _ _ _ _ haction
  have hold : KeepsRecords a w w' :=
    records_of_step hs hstep fun _ _ _ _ haction =>
      hunstake ⟨_, _, _, _, haction⟩
  cases hmove with
  | executed haction hexec hsends =>
      rcases hexec.unbonds with ⟨amount, rfl⟩ | hera | ⟨hsame, hbooks⟩
      · exact absurd ⟨_, _, _, _, haction⟩ hunstake
      · exact unbonding_of_era h hold hp hp' haction hera
      · rw [keepUnbonds_of_call hp hp' haction, hbooks]
        exact h.of_unbonds hsame hold
  | answered haction hpacket hpayload hpool hanswer hpending =>
      rcases hanswer.unbonds with hera | ⟨hsame, hkind⟩
      · exact unbonding_of_answer ho h hold hp hp' haction hpacket hpayload
          hpool hera
      · rw [keepUnbonds_of_answer hp hp' haction hpacket, ofAnswer_of_plain]
        · exact h.of_unbonds hsame hold
        · rw [Packet.kind_eq_some.mpr ⟨_, hpayload, hpool, rfl⟩]
          simpa using hkind
  | answeredElsewhere haction hpacket helsewhere hpending =>
      rw [keepUnbonds_of_answer hp hp' haction hpacket, ofAnswer_of_plain]
      · exact h.of_same rfl rfl rfl rfl le_rfl le_rfl hold
      · simp [Packet.kind_elsewhere helsewhere]
  | vain haction hpacket hpayload hpool hvain hpending =>
      have hkind := ho.cycle.not_vain hp hpacket hpayload hpool hvain
      rw [keepUnbonds_of_answer hp hp' haction hpacket, ofAnswer_of_plain]
      · exact h.of_same rfl rfl rfl rfl le_rfl le_rfl hold
      · rw [Packet.kind_eq_some.mpr ⟨_, hpayload, hpool, rfl⟩]
        simpa using hkind
  | idle hexecute hanswer hpending =>
      have hbooks : keepUnbonds a books w ev w' = books := by
        unfold keepUnbonds
        rw [hp, hp']
        dsimp only
        split
        · rename_i haction
          exact absurd haction (hexecute _ _ _ _)
        · rename_i haction
          exact absurd haction (hanswer _ _ _ _)
        · rfl
      rw [hbooks]
      exact h.of_same rfl rfl rfl rfl le_rfl le_rfl hold

/-- A pool that is not there has no records. -/
def NoRecords (a : String) (w : World) : Prop :=
  w.store.pools a = none → ∀ index, w.store.unstakesOfIndex (a, index) = none

theorem KeepsRecords.none {index : Nat} (h : KeepsRecords a w w')
    (hnone : w.store.unstakesOfIndex (a, index) = none) :
    w'.store.unstakesOfIndex (a, index) = none := by
  cases hinfo' : w'.store.unstakesOfIndex (a, index) with
  | none => rfl
  | some info' =>
      obtain ⟨info, hinfo, -⟩ := h index info' hinfo'
      cases hnone.symm.trans hinfo

/-- Without the pool there is no unstake from it. -/
theorem keepsRecords_of_missing (hs : Sound net w)
    (hstep : w.step net ev = some w') (hp : w.store.pools a = none) :
    KeepsRecords a w w' := by
  refine records_of_step hs hstep fun querier info amount id haction => ?_
  cases record_move hs hstep with
  | unstaked haction' hq =>
      obtain ⟨-, -, hmsg, -⟩ :=
        Action.execute.inj (haction.symm.trans haction')
      obtain ⟨-, rfl⟩ := ExecuteMsg.unstake.inj hmsg
      cases hp.symm.trans hq
  | withdrawn haction' => cases haction.symm.trans haction'
  | answered haction' => cases haction.symm.trans haction'
  | dropped haction' => cases haction.symm.trans haction'
  | other hexecute => cases hexecute _ _ _ _ haction

theorem noRecords_step (hs : Sound net w) (hstep : w.step net ev = some w')
    (h : NoRecords a w) : NoRecords a w' := by
  intro hp' index
  have hp : w.store.pools a = none := by
    cases hp : w.store.pools a with
    | none => rfl
    | some p =>
        obtain ⟨p', hnext⟩ := pool_persists hs hstep hp
        cases hp'.symm.trans hnext
  exact (keepsRecords_of_missing hs hstep hp).none (h hp index)

/-- A new pool has empty books. -/
theorem unbonding_registered {icaId admin : String}
    (hrecords : ∀ index, w.store.unstakesOfIndex (a, index) = none) :
    Unbonding w a (registeredPool icaId admin) UnbondBooks.empty := by
  refine ⟨fun _ => ⟨rfl, rfl⟩, fun _ => rfl, Nat.zero_le _,
    by simp [registeredPool, beforeBond], nofun, List.nodup_nil, nofun, ?_⟩
  intro index info hinfo
  cases (hrecords index).symm.trans hinfo

structure AllUnbonding (net : Network) (a : String)
    (s : World × UnbondBooks) : Prop where
  sound : Sound net s.1
  homed : NoRecords a s.1
  pool : ∀ p, s.1.store.pools a = some p →
    InOrder s.1 a p ∧ Unbonding s.1 a p s.2

theorem allUnbonding_step {s s' : World × UnbondBooks}
    (hinv : AllUnbonding net a s)
    (hstep : Transition.track (step net) (keepUnbonds a) s ev = some s')
    (horderly : Orderly a s.1 ev) : AllUnbonding net a s' := by
  obtain ⟨w, books⟩ := s
  obtain ⟨w', books'⟩ := s'
  obtain ⟨hworld, rfl⟩ := Transition.track_eq_some.mp hstep
  obtain ⟨hs, hhomed, hI⟩ := hinv
  dsimp only at hs hhomed hI horderly
  have horder := inOrder_step hs hworld (fun p hp => (hI p hp).1) horderly
  refine ⟨sound_step hs hworld, noRecords_step hs hworld hhomed,
    fun p' hp' => ⟨horder p' hp', ?_⟩⟩
  refine pool_invariant (J := fun p' => Unbonding w' a p'
    (keepUnbonds a books w ev w')) hs hworld hI ?_ ?_ p' hp'
  · intro p p' hp hp' hpool hmove
    exact unbonding_of_move hs hworld hpool.1 hpool.2 hp hp' hmove
  · intro icaId admin hp _ _ _ _
    have hbooks : keepUnbonds a books w ev w' = UnbondBooks.empty := by
      simp [keepUnbonds, hp]
    rw [hbooks]
    exact unbonding_registered fun index =>
      (keepsRecords_of_missing hs hworld hp).none (hhomed hp index)

theorem distinct_of_step {s s' : World × UnbondBooks}
    (hinv : AllUnbonding net a s)
    (hstep : Transition.track (step net) (keepUnbonds a) s ev = some s')
    (horderly : Orderly a s.1 ev) : (s'.2.all.map Prod.fst).Nodup := by
  have hnext := allUnbonding_step hinv hstep horderly
  cases hp' : s'.1.store.pools a with
  | some p' => exact (hnext.pool p' hp').2.distinct
  | none =>
      obtain ⟨w, books⟩ := s
      obtain ⟨w', books'⟩ := s'
      obtain ⟨-, rfl⟩ := Transition.track_eq_some.mp hstep
      have hbooks : keepUnbonds a books w ev w' = UnbondBooks.empty := by
        dsimp only at hp'
        unfold keepUnbonds
        rw [hp']
        cases w.store.pools a <;> rfl
      simp [hbooks]

theorem withdrawal_eq_some {indexes : List Nat} :
    withdrawal a ev = some indexes ↔ ∃ querier info receiver id,
      ev.action = .execute querier info (.withdraw a receiver indexes) id := by
  unfold withdrawal
  split
  · rename_i querier info b receiver indexes' id haction
    simp only [Option.ite_none_right_eq_some, Option.some.injEq, haction,
      Action.execute.injEq, ExecuteMsg.withdraw.injEq]
    constructor
    · rintro ⟨rfl, rfl⟩
      exact ⟨querier, info, receiver, id, rfl, rfl, ⟨rfl, rfl, rfl⟩, rfl⟩
    · rintro ⟨_, _, _, _, -, -, ⟨rfl, -, rfl⟩, -⟩
      exact ⟨rfl, rfl⟩
  · rename_i hother
    simp only [reduceCtorEq, false_iff, not_exists]
    exact fun _ _ _ _ haction => hother _ _ _ _ _ _ haction

/-- What an accepted withdrawal has checked. -/
theorem withdrawn_of_step (hs : Sound net w) (hstep : w.step net ev = some w')
    {indexes : List Nat} (h : withdrawal a ev = some indexes) :
    ∃ p, w.store.pools a = some p ∧ ∀ index ∈ indexes, ∃ info,
      w.store.unstakesOfIndex (a, index) = some info ∧
        info.era + p.unbondingPeriod ≤ p.era := by
  obtain ⟨querier, info, receiver, id, haction⟩ := withdrawal_eq_some.mp h
  cases record_move hs hstep with
  | withdrawn haction' haccount hp hrecords =>
      obtain ⟨-, rfl, hmsg, -⟩ :=
        Action.execute.inj (haction.symm.trans haction')
      obtain ⟨rfl, rfl, rfl⟩ := ExecuteMsg.withdraw.inj hmsg
      refine ⟨_, hp, fun index hindex => ?_⟩
      obtain ⟨record, hrecord, -, hmature⟩ :=
        (withdrawRecords_old hrecords).2 index hindex
      exact ⟨record, hrecord, hmature⟩
  | unstaked haction' => cases haction.symm.trans haction'
  | answered haction' => cases haction.symm.trans haction'
  | dropped haction' => cases haction.symm.trans haction'
  | other hexecute => cases hexecute _ _ _ _ haction

/-- A record that is withdrawn was bonded. -/
theorem onlyBonded_of_step {s s' : World × UnbondBooks}
    (hinv : AllUnbonding net a s)
    (hstep : Transition.track (step net) (keepUnbonds a) s ev = some s')
    (hlong : LongPeriod a s.1) : OnlyBonded a s ev := by
  obtain ⟨w, books⟩ := s
  obtain ⟨w', books'⟩ := s'
  obtain ⟨hworld, -⟩ := Transition.track_eq_some.mp hstep
  obtain ⟨hs, -, hI⟩ := hinv
  dsimp only at hs hI hlong
  intro indexes hindexes index hmem
  obtain ⟨p, hp, hall⟩ := withdrawn_of_step hs hworld hindexes
  obtain ⟨info, hinfo, hmature⟩ := hall index hmem
  obtain ⟨-, hunbonding⟩ := hI p hp
  have hstaged := hunbonding.records index info hinfo
  have hlive : p.status ≠ .registerEnded := by
    intro hstatus
    rw [(hunbonding.fresh hstatus).2] at hstaged
    simp [Staged, UnbondBooks.empty] at hstaged
  obtain ⟨batch, hbatch, hentry⟩ :=
    hstaged.mature (hlong p hp hlive) hmature
  exact ⟨info, hinfo, batch, hbatch, hentry,
    hunbonding.bonded batch hbatch⟩

/-- In an orderly run of a pool with an unbonding period of two eras or more,
every withdrawn record was part of the snapshot of an era that was bonded, and
no entry is made twice. -/
theorem only_bonded {net : Network} {a : String} {block : BlockInfo}
    {info : MessageInfo} {lsdTokenCodeId : Nat} {evs : List Event}
    (hrun : Transition.AllSteps (Transition.track (step net) (keepUnbonds a))
      (fun s ev _ => Orderly a s.1 ev ∧ LongPeriod a s.1)
      (genesis block info lsdTokenCodeId, UnbondBooks.empty) evs) :
    Transition.AllSteps (Transition.track (step net) (keepUnbonds a))
      (fun s ev s' => OnlyBonded a s ev ∧ (s'.2.all.map Prod.fst).Nodup)
      (genesis block info lsdTokenCodeId, UnbondBooks.empty) evs := by
  refine Transition.AllSteps.of_invariant (AllUnbonding net a) ?_ ?_ hrun
  · intro s ev s' hinv hstep hcond
    have hnext := allUnbonding_step hinv hstep hcond.1
    exact ⟨hnext, onlyBonded_of_step hinv hstep hcond.2,
      distinct_of_step hinv hstep hcond.1⟩
  · exact ⟨sound_genesis net block info lsdTokenCodeId, fun _ _ => rfl,
      fun _ h => by cases h⟩

end World

namespace Sample

/-- An unbonding period of two eras. -/
def twoEras : List Event := setup.set 3 (call 1 (querier 0 [] 0)
  (.initPool { initParams with unbondingPeriod := 2 }) (packetId 1))

/-- The second era undelegates what was unstaked after the first one, and the
third one makes the record mature. -/
def unbonded : List Event := [
  allowBurn 4 1000, unstake 4 500,
  call 4 (querier 0 [] 0) (.eraUpdate pool) (packetId 0),
  call 5 (querier 5 [("val1", 1050)] 0) (.eraBond pool []) (packetId 6),
  ack 5 .success (packetId 6),
  call 6 (querier 6 [] 0) (.eraCollectWithdraw pool) (packetId 0),
  call 6 (querier 6 [] 0) (.eraRebond pool []) (packetId 0),
  call 6 (querier 6 [("val1", 528)] 0) (.eraActive pool) (packetId 0),
  call 6 (querier 0 [] 0) (.eraUpdate pool) (packetId 0)]

end Sample

namespace World

/-- A record is withdrawn two eras after its unstake. -/
theorem only_bonded_sample :
    let evs := Sample.twoEras ++ Sample.firstEra ++ Sample.unbonded ++
      [Sample.withdraw 6 "cosmos1user" [1] (Sample.packetId 7)]
    (Sample.run evs).isSome ∧
      Transition.AllSteps (Transition.track (step Sample.net)
          (keepUnbonds Sample.pool))
        (fun s ev s' => OnlyBonded Sample.pool s ev ∧
          (s'.2.all.map Prod.fst).Nodup)
        (Sample.genesis, UnbondBooks.empty) evs :=
  ⟨by decide +kernel, only_bonded (by decide +kernel)⟩

end World

end NeutronContracts
