/-
What a withdrawal and its two callbacks do to the unstake records.  The
indexes of the withdrawal come back as pieces of a text in which the receiver
stands before them, so a receiver with separators adds pieces of its own.
-/
import NeutronContracts.StakeManager.Staking

namespace NeutronContracts.StakeManager

open Fallible

/-- The keys of the records that a pool has under some indexes. -/
def recordKeys (poolAddr : String) (indexes : List Nat) :
    List (String × Nat) :=
  indexes.map fun index => (poolAddr, index)

/-- The record with another status. -/
def UnstakeInfo.withStatus (status : WithdrawStatus) (info : UnstakeInfo) :
    UnstakeInfo :=
  { info with status := status }

/-- The amount of the record under a key; nothing when there is none. -/
def Storage.amountAt (store : Storage) (key : String × Nat) : Nat :=
  ((store.unstakesOfIndex key).map (·.amount)).getD 0

/-- The indexes that a user has in a pool. -/
def Storage.indexesOf (store : Storage) (user poolAddr : String) : List Nat :=
  (store.unstakesIndexForUser (user, poolAddr)).getD []

/-- The loop of `query_user_unstake`. -/
def loadUnstakes (store : Storage) (poolAddr : String) :
    List Nat → NeutronResult (List UnstakeInfo)
  | [] => return []
  | unstakeIndex :: rest => do
      let unstakeInfo ← load (store.unstakesOfIndex (poolAddr, unstakeIndex))
      let results ← loadUnstakes store poolAddr rest
      return unstakeInfo :: results

def queryUserUnstake (store : Storage) (poolAddr userNeutronAddr : String) :
    NeutronResult (List UnstakeInfo) :=
  match store.unstakesIndexForUser (userNeutronAddr, poolAddr) with
  | none => return []
  | some unstakes => loadUnstakes store poolAddr unstakes

variable {store store' next : Storage} {poolAddr sender receiver : String}
  {payload : SudoPayload} {rsp : Response} {total result : Nat}
  {indexes : List Nat}

@[simp] theorem mem_recordKeys {key : String × Nat} :
    key ∈ recordKeys poolAddr indexes ↔
      key.1 = poolAddr ∧ key.2 ∈ indexes := by
  simp only [recordKeys, List.mem_map]
  constructor
  · rintro ⟨index, hindex, rfl⟩
    exact ⟨rfl, hindex⟩
  · rintro ⟨rfl, hindex⟩
    exact ⟨key.2, hindex, rfl⟩

theorem loadUnstakes_total (h : ∀ index ∈ indexes,
    ∃ info, store.unstakesOfIndex (poolAddr, index) = some info) :
    ∃ results, loadUnstakes store poolAddr indexes = .ok results := by
  induction indexes with
  | nil => exact ⟨[], rfl⟩
  | cons index rest ih =>
      obtain ⟨info, hinfo⟩ := h index List.mem_cons_self
      obtain ⟨results, hresults⟩ :=
        ih fun other hother => h other (List.mem_cons_of_mem _ hother)
      refine ⟨info :: results, ?_⟩
      simp [loadUnstakes, hinfo, hresults]

/-- The query of a user's unstakes fails on an index without a record only. -/
theorem queryUserUnstake_total {user : String}
    (h : ∀ index ∈ store.indexesOf user poolAddr,
      ∃ info, store.unstakesOfIndex (poolAddr, index) = some info) :
    ∃ results, queryUserUnstake store poolAddr user = .ok results := by
  unfold queryUserUnstake
  unfold Storage.indexesOf at h
  cases hlist : store.unstakesIndexForUser (user, poolAddr) with
  | none => exact ⟨[], rfl⟩
  | some unstakes =>
      rw [hlist] at h
      exact loadUnstakes_total h

theorem amountAt_eq {key : String × Nat} {info : UnstakeInfo}
    (h : store.unstakesOfIndex key = some info) :
    store.amountAt key = info.amount := by
  rw [Storage.amountAt, h]
  rfl

theorem amountAt_save {key : String × Nat} {info : UnstakeInfo}
    {status : WithdrawStatus} (hinfo : store.unstakesOfIndex key = some info)
    (hnext : next.unstakesOfIndex =
      store.unstakesOfIndex.save key (info.withStatus status)) :
    next.amountAt = store.amountAt := by
  funext other
  unfold Storage.amountAt
  rw [hnext, Map.save_apply]
  split
  · rename_i hother
    rw [hother, hinfo]
    rfl
  · rfl

/-- A withdrawal marks idle records of its sender, each of them once, and adds
up their amounts. -/
theorem withdrawRecords_records {p : PoolInfo}
    (h : withdrawRecords sender poolAddr p store total indexes =
      .ok (next, result)) :
    indexes.Nodup ∧
      (∀ index ∈ indexes, ∃ info,
        store.unstakesOfIndex (poolAddr, index) = some info ∧
          info.unstaker = sender ∧ info.status = .idle) ∧
      next.unstakesOfIndex = store.unstakesOfIndex.updateAll
        (.withStatus .pending) (recordKeys poolAddr indexes) ∧
      result =
        total + ((recordKeys poolAddr indexes).map store.amountAt).sum := by
  induction indexes generalizing store total with
  | nil =>
      cases h
      exact ⟨List.nodup_nil, by simp, by simp [recordKeys], rfl⟩
  | cons unstakeIndex rest ih =>
      simp only [withdrawRecords, bind_eq_ok, orError_eq_ok, rejectIf_eq_ok,
        addBelow_eq_ok, ne_eq, not_not] at h
      obtain ⟨info, hinfo, _, -, _, hsender, _, hstatus, _, -, _, -, total',
        ⟨-, rfl⟩, h⟩ := h
      have hsaved : (store.saveUnstake poolAddr unstakeIndex
          (info.withStatus .pending)).unstakesOfIndex =
            store.unstakesOfIndex.save (poolAddr, unstakeIndex)
              (info.withStatus .pending) := rfl
      change withdrawRecords sender poolAddr p (store.saveUnstake poolAddr
        unstakeIndex (info.withStatus .pending)) _ rest = _ at h
      generalize store.saveUnstake poolAddr unstakeIndex
        (info.withStatus .pending) = middle at h hsaved
      obtain ⟨hnodup, hall, hrecords, htotal⟩ := ih h
      have hidle : info.status = .idle := by
        cases hcase : info.status with
        | idle => rfl
        | pending => exact absurd hcase hstatus
      -- the loop would stop at an index that it has seen before
      have hnew : unstakeIndex ∉ rest := by
        intro hmem
        obtain ⟨again, hagain, -, hstatus'⟩ := hall unstakeIndex hmem
        rw [hsaved, Map.save_self] at hagain
        obtain rfl := Option.some.inj hagain
        cases hstatus'
      refine ⟨List.nodup_cons.mpr ⟨hnew, hnodup⟩, ?_, ?_, ?_⟩
      · rw [List.forall_mem_cons]
        refine ⟨⟨info, hinfo, hsender, hidle⟩, fun index hindex => ?_⟩
        obtain ⟨info', hinfo', hrest⟩ := hall index hindex
        have hne : (poolAddr, index) ≠ (poolAddr, unstakeIndex) := by
          intro heq
          exact hnew ((Prod.mk.inj heq).2 ▸ hindex)
        rw [hsaved, Map.save_of_ne hne] at hinfo'
        exact ⟨info', hinfo', hrest⟩
      · rw [hrecords, hsaved]
        exact Map.updateAll_save (fun _ => rfl) hinfo
      · rw [htotal, amountAt_save hinfo hsaved]
        simp only [recordKeys, List.map_cons, List.sum_cons,
          amountAt_eq hinfo]
        omega

/-- The failure callback sets back the records under its numerals. -/
theorem restoreRecords_records {indexStrs : List String}
    (h : restoreRecords poolAddr store indexStrs = .ok next) :
    ∃ indexes, indexStrs.map U64.parse = indexes.map some ∧
      next.unstakesOfIndex = store.unstakesOfIndex.updateAll
        (.withStatus .idle) (recordKeys poolAddr indexes) ∧
      next.unstakesIndexForUser = store.unstakesIndexForUser := by
  induction indexStrs generalizing store with
  | nil =>
      cases h
      exact ⟨[], rfl, by simp [recordKeys], rfl⟩
  | cons indexStr rest ih =>
      simp only [restoreRecords, bind_eq_ok, orError_eq_ok] at h
      obtain ⟨index, hparse, info, hinfo, h⟩ := h
      obtain ⟨indexes, hrest, hrecords, hindexes⟩ := ih h
      refine ⟨index :: indexes, by simp [hparse, hrest], ?_, hindexes⟩
      rw [hrecords]
      exact Map.updateAll_save (fun _ => rfl) hinfo

theorem restoreRecords_total {indexStrs : List String}
    (hparse : indexStrs.map U64.parse = indexes.map some)
    (hall : ∀ index ∈ indexes,
      store.unstakesOfIndex (poolAddr, index) ≠ none) :
    ∃ next, restoreRecords poolAddr store indexStrs = .ok next := by
  induction indexStrs generalizing store indexes with
  | nil => exact ⟨store, rfl⟩
  | cons indexStr rest ih =>
      cases indexes with
      | nil => simp at hparse
      | cons index indexes =>
          rw [List.map_cons, List.map_cons, List.cons.injEq] at hparse
          obtain ⟨hindex, hrest⟩ := hparse
          rw [List.forall_mem_cons] at hall
          obtain ⟨info, hinfo⟩ := Option.ne_none_iff_exists'.mp hall.1
          have hsaved : ∀ other ∈ indexes,
              (store.saveUnstake poolAddr index
                (info.withStatus .idle)).unstakesOfIndex (poolAddr, other) ≠
              none := by
            intro other hother
            change store.unstakesOfIndex.save (poolAddr, index) _ _ ≠ none
            rw [Map.save_apply]
            split
            · simp
            · exact hall.2 other hother
          obtain ⟨next, hnext⟩ := ih hrest hsaved
          refine ⟨next, ?_⟩
          simp only [restoreRecords, bind_eq_ok, orError_eq_ok]
          exact ⟨index, hindex, info, hinfo, hnext⟩

theorem removeUnstakes_records (indexes : List Nat) (store : Storage) :
    (indexes.foldl (fun store unstakeIndex =>
        store.removeUnstake poolAddr unstakeIndex) store).unstakesOfIndex =
      store.unstakesOfIndex.removeAll (recordKeys poolAddr indexes) := by
  induction indexes generalizing store with
  | nil => simp [recordKeys]
  | cons index rest ih =>
      rw [List.foldl_cons, ih]
      exact Map.removeAll_remove

theorem removeUnstakes_indexes (indexes : List Nat) (store : Storage) :
    (indexes.foldl (fun store unstakeIndex => store.removeUnstake poolAddr
        unstakeIndex) store).unstakesIndexForUser =
      store.unstakesIndexForUser := by
  induction indexes generalizing store with
  | nil => rfl
  | cons index rest ih =>
      rw [List.foldl_cons, ih]
      rfl

/-- The pieces of the text of a withdrawal: those of the sender and of the
receiver stand before the indexes. -/
theorem split_withdrawMessage (total : Nat) (sender receiver : String)
    (hne : indexes ≠ []) :
    Text.split '_' (withdrawMessage total sender receiver indexes) =
      toString total :: (Text.split '_' sender ++
        (Text.split '_' receiver ++ indexes.map toString)) := by
  have hsep : ("_" : String) = String.singleton '_' := rfl
  have hindexes : Text.split '_' (Text.join '_' (indexes.map toString)) =
      indexes.map toString := by
    refine Text.split_join (by simpa using hne) fun piece hpiece => ?_
    obtain ⟨index, -, rfl⟩ := List.mem_map.mp hpiece
    exact Text.sep_not_mem_toString rfl index
  have htotal : '_' ∉ (toString total).toList :=
    Text.sep_not_mem_toString rfl total
  simp only [withdrawMessage, hsep, Text.split_append_sep,
    Text.split_eq_singleton htotal, hindexes, List.cons_append,
    List.nil_append, List.append_assoc]

theorem split_withdrawMessage_of_plain (hsender : '_' ∉ sender.toList)
    (hne : indexes ≠ []) :
    Text.split '_' (withdrawMessage total sender receiver indexes) =
      toString total :: sender ::
        (Text.split '_' receiver ++ indexes.map toString) := by
  rw [split_withdrawMessage total sender receiver hne,
    Text.split_eq_singleton hsender]
  rfl

/-- What the success callback looks for among the indexes of the sender. -/
def settledTexts (sender receiver : String) (indexes : List Nat) :
    List String :=
  sender :: (Text.split '_' receiver ++ indexes.map toString)

/-- The text of a withdrawal always has the pieces that the success callback
needs. -/
theorem settled_pieces (hsender : '_' ∉ sender.toList) (hne : indexes ≠ [])
    (htext : payload.message =
      withdrawMessage total sender receiver indexes) :
    ∃ piece index rest, settledTexts sender receiver indexes =
        sender :: piece :: index :: rest ∧
      Text.split '_' payload.message =
        toString total :: sender :: piece :: index :: rest := by
  obtain ⟨piece, pieces, hpieces⟩ :=
    List.exists_cons_of_ne_nil (Text.split_ne_nil '_' receiver)
  obtain ⟨index, rest, hrest⟩ : ∃ index rest,
      pieces ++ indexes.map toString = index :: rest :=
    List.exists_cons_of_ne_nil (by simp [hne])
  refine ⟨piece, index, rest, ?_, ?_⟩
  · rw [settledTexts, hpieces, List.cons_append, hrest]
  · rw [htext, split_withdrawMessage_of_plain hsender hne, hpieces,
      List.cons_append, hrest]

theorem sudoWithdrawCallback_total (store : Storage)
    (hsender : '_' ∉ sender.toList) (hne : indexes ≠ [])
    (htext : payload.message =
      withdrawMessage total sender receiver indexes) :
    ∃ result, sudoWithdrawCallback store payload = .ok result := by
  obtain ⟨piece, index, rest, -, hparts⟩ :=
    settled_pieces hsender hne htext
  rw [sudoWithdrawCallback, hparts]
  exact ⟨_, rfl⟩

/-- The success callback removes the records of the sender whose index is one
of the pieces. -/
theorem sudoWithdrawCallback_eq (hsender : '_' ∉ sender.toList)
    (hne : indexes ≠ [])
    (htext : payload.message =
      withdrawMessage total sender receiver indexes)
    (h : sudoWithdrawCallback store payload = .ok (store', rsp)) :
    store'.unstakesOfIndex = store.unstakesOfIndex.removeAll
        (recordKeys payload.poolAddr
          ((store.indexesOf sender payload.poolAddr).filter fun index =>
            decide (toString index ∈
              settledTexts sender receiver indexes))) ∧
      ∀ user other, store'.indexesOf user other =
        if user = sender ∧ other = payload.poolAddr then
          (store.indexesOf sender payload.poolAddr).filter fun index =>
            decide (toString index ∉ settledTexts sender receiver indexes)
        else store.indexesOf user other := by
  obtain ⟨piece, index, rest, htexts, hparts⟩ :=
    settled_pieces hsender hne htext
  simp only [sudoWithdrawCallback, hparts, pure_eq_ok, Prod.mk.injEq] at h
  obtain ⟨hstore, -⟩ := h
  rw [htexts]
  cases hlist : store.unstakesIndexForUser (sender, payload.poolAddr) with
  | none =>
      have hnone : store.indexesOf sender payload.poolAddr = [] := by
        simp [Storage.indexesOf, hlist]
      simp only [hlist] at hstore
      subst hstore
      refine ⟨by simp [hnone, recordKeys], fun user other => ?_⟩
      split
      · rename_i huser
        obtain ⟨rfl, rfl⟩ := huser
        rw [hnone, List.filter_nil]
      · rfl
  | some unstakes =>
      have hsome : store.indexesOf sender payload.poolAddr = unstakes := by
        simp [Storage.indexesOf, hlist]
      simp only [hlist] at hstore
      subst hstore
      rw [hsome]
      refine ⟨removeUnstakes_records _ store, fun user other => ?_⟩
      unfold Storage.indexesOf
      change ((Map.save (List.foldl _ store _).unstakesIndexForUser _ _)
        (user, other)).getD [] = _
      rw [removeUnstakes_indexes, Map.save_apply]
      by_cases huser : user = sender ∧ other = payload.poolAddr
      · obtain ⟨rfl, rfl⟩ := huser
        simp
      · rw [if_neg huser, if_neg]
        intro heq
        exact huser (Prod.mk.inj heq)

/-- What the failure callback reads as the indexes to set back. -/
def restoredTexts (receiver : String) (indexes : List Nat) : List String :=
  (Text.split '_' receiver).tail ++ indexes.map toString

theorem drop_withdrawMessage (hsender : '_' ∉ sender.toList)
    (hne : indexes ≠ [])
    (htext : payload.message =
      withdrawMessage total sender receiver indexes) :
    (Text.split '_' payload.message).drop 3 =
      restoredTexts receiver indexes := by
  obtain ⟨piece, pieces, hpieces⟩ :=
    List.exists_cons_of_ne_nil (Text.split_ne_nil '_' receiver)
  rw [htext, split_withdrawMessage_of_plain hsender hne, restoredTexts, hpieces]
  rfl

/-- The failure callback sets back the records under the pieces after the
first one of the receiver. -/
theorem sudoWithdrawFailedCallback_eq (hsender : '_' ∉ sender.toList)
    (hne : indexes ≠ [])
    (htext : payload.message =
      withdrawMessage total sender receiver indexes)
    (h : sudoWithdrawFailedCallback store payload = .ok (store', rsp)) :
    ∃ restored, (restoredTexts receiver indexes).map U64.parse =
        restored.map some ∧
      store'.unstakesOfIndex = store.unstakesOfIndex.updateAll
        (.withStatus .idle) (recordKeys payload.poolAddr restored) ∧
      store'.unstakesIndexForUser = store.unstakesIndexForUser := by
  simp only [sudoWithdrawFailedCallback, drop_withdrawMessage hsender hne
    htext, bind_eq_ok, pure_eq_ok, Prod.mk.injEq] at h
  obtain ⟨_, hrestore, rfl, -⟩ := h
  exact restoreRecords_records hrestore

theorem sudoWithdrawFailedCallback_total (store : Storage)
    (hsender : '_' ∉ sender.toList)
    (hne : indexes ≠ [])
    (htext : payload.message =
      withdrawMessage total sender receiver indexes) {restored : List Nat}
    (hparse : (restoredTexts receiver indexes).map U64.parse =
      restored.map some)
    (hall : ∀ index ∈ restored,
      store.unstakesOfIndex (payload.poolAddr, index) ≠ none) :
    ∃ result, sudoWithdrawFailedCallback store payload = .ok result := by
  obtain ⟨next, hnext⟩ := restoreRecords_total hparse hall
  refine ⟨(next, Response.new), ?_⟩
  simp only [sudoWithdrawFailedCallback, drop_withdrawMessage hsender hne
    htext, bind_eq_ok, pure_eq_ok]
  exact ⟨next, hnext, rfl⟩

end NeutronContracts.StakeManager
