/-
Which withdrawals are accepted.  The loop marks every record it has passed, so
it meets an index for the second time only with a record that is pending; an
accepted list is therefore free of duplicates.
-/
import NeutronContracts.Properties.NetStake
import NeutronContracts.Properties.Payment

namespace NeutronContracts

open Fallible

namespace StakeManager

/-- The sender may withdraw the record under the index. -/
def Withdrawable (store : Storage) (a sender : String) (p : PoolInfo)
    (index : Nat) : Prop :=
  ∃ record, store.unstakesOfIndex (a, index) = some record ∧
    record.poolAddr = a ∧ record.unstaker = sender ∧
    record.status = .idle ∧ record.era + p.unbondingPeriod ≤ p.era

/-- What the records under the indexes amount to. -/
def Storage.amountOf (store : Storage) (a : String) (indexes : List Nat) :
    Nat :=
  ((recordKeys a indexes).map store.amountAt).sum

/-- The sums that are formed for the listed records, each counted once, are in
the range of their types. -/
structure SumsFit (store : Storage) (a : String) (p : PoolInfo)
    (indexes : List Nat) : Prop where
  eras : ∀ index ∈ indexes, ∀ record ∈ store.unstakesOfIndex (a, index),
    record.era + p.unbondingPeriod < U64.limit
  total : store.amountOf a indexes.dedup < Uint128.limit

/-- The storage after a call: the writes of a call that fails are dropped. -/
def Storage.after (store : Storage)
    (result : NeutronResult (Storage × Response)) : Storage :=
  match result with
  | .ok (next, _) => next
  | .error _ => store

section

variable {store store' next : Storage} {querier : Querier}
  {info : MessageInfo} {a sender receiver : String} {p : PoolInfo}
  {rsp : Response} {indexes : List Nat} {index total result : Nat}

theorem amountOf_cons :
    store.amountOf a (index :: indexes) =
      store.amountAt (a, index) + store.amountOf a indexes := by
  simp [Storage.amountOf, recordKeys]

theorem saveUnstake_elsewhere (store : Storage) (a : String)
    (record : UnstakeInfo) {other : Nat} (hother : other ≠ index) :
    (store.saveUnstake a index record).unstakesOfIndex (a, other) =
      store.unstakesOfIndex (a, other) :=
  Map.save_of_ne fun heq => hother (Prod.mk.inj heq).2

/-- Marking a record leaves what may be withdrawn under the other indexes. -/
theorem withdrawable_of_saved {record : UnstakeInfo} {other : Nat}
    (hother : other ≠ index) :
    Withdrawable (store.saveUnstake a index record) a sender p other ↔
      Withdrawable store a sender p other := by
  rw [Withdrawable, Withdrawable, saveUnstake_elsewhere store a record hother]

theorem amountOf_saved {record : UnstakeInfo} (hindex : index ∉ indexes) :
    (store.saveUnstake a index record).amountOf a indexes =
      store.amountOf a indexes := by
  induction indexes with
  | nil => rfl
  | cons other rest ih =>
      rw [List.mem_cons, not_or] at hindex
      have hsame : (store.saveUnstake a index record).amountAt (a, other) =
          store.amountAt (a, other) := by
        rw [Storage.amountAt, Storage.amountAt,
          saveUnstake_elsewhere store a record (Ne.symm hindex.1)]
      rw [amountOf_cons, amountOf_cons, ih hindex.2, hsame]

/-! ### The loop -/

theorem withdrawRecords_checks
    (h : withdrawRecords sender a p store total indexes = .ok (next, result)) :
    ∀ index ∈ indexes, Withdrawable store a sender p index := by
  induction indexes generalizing store total with
  | nil => exact fun index hindex => absurd hindex List.not_mem_nil
  | cons index rest ih =>
      have hnew := List.nodup_cons.mp (withdrawRecords_records h).1
      simp only [withdrawRecords, bind_eq_ok, orError_eq_ok, rejectIf_eq_ok,
        addBelow_eq_ok, ne_eq, not_not, Nat.not_lt] at h
      obtain ⟨record, hrecord, _, hpool, _, hsender, _, hstatus, _, ⟨-, rfl⟩,
        _, hmature, _, ⟨-, rfl⟩, h⟩ := h
      have hidle : record.status = .idle := by
        cases hcase : record.status with
        | idle => rfl
        | pending => exact absurd hcase hstatus
      rw [List.forall_mem_cons]
      refine ⟨⟨record, hrecord, hpool, hsender, hidle, hmature⟩,
        fun other hother => ?_⟩
      have hne : other ≠ index := fun heq => hnew.1 (heq ▸ hother)
      exact (withdrawable_of_saved hne).mp (ih h other hother)

/-- A list of different records that may be withdrawn passes the loop. -/
theorem withdrawRecords_accepts (hnodup : indexes.Nodup)
    (hall : ∀ index ∈ indexes, Withdrawable store a sender p index)
    (heras : ∀ index ∈ indexes, ∀ record ∈ store.unstakesOfIndex (a, index),
      record.era + p.unbondingPeriod < U64.limit)
    (htotal : total + store.amountOf a indexes < Uint128.limit) :
    ∃ next, withdrawRecords sender a p store total indexes =
      .ok (next, total + store.amountOf a indexes) := by
  induction indexes generalizing store total with
  | nil => exact ⟨store, rfl⟩
  | cons index rest ih =>
      rw [List.nodup_cons] at hnodup
      rw [List.forall_mem_cons] at hall heras
      obtain ⟨⟨record, hrecord, hpool, hsender, hidle, hmature⟩, hall⟩ := hall
      rw [amountOf_cons, amountAt_eq hrecord, ← Nat.add_assoc] at htotal ⊢
      have hne : ∀ other ∈ rest, other ≠ index :=
        fun other hother heq => hnodup.1 (heq ▸ hother)
      have hkept : ∀ record' : UnstakeInfo,
          (store.saveUnstake a index record').amountOf a rest =
            store.amountOf a rest :=
        fun record' => amountOf_saved hnodup.1
      have hrest : ∃ next, withdrawRecords sender a p
          (store.saveUnstake a index { record with status := .pending })
          (total + record.amount) rest =
            .ok (next, total + record.amount + store.amountOf a rest) := by
        rw [← hkept { record with status := .pending }] at htotal ⊢
        refine ih hnodup.2 (fun other hother => ?_) (fun other hother => ?_)
          htotal
        · exact (withdrawable_of_saved (hne other hother)).mpr
            (hall other hother)
        · rw [saveUnstake_elsewhere _ _ _ (hne other hother)]
          exact heras.2 other hother
      obtain ⟨next, hnext⟩ := hrest
      refine ⟨next, ?_⟩
      simp only [withdrawRecords, bind_eq_ok, orError_eq_ok, rejectIf_eq_ok,
        addBelow_eq_ok, ne_eq, not_not, Nat.not_lt]
      exact ⟨record, hrecord, (), hpool, (), hsender, (), by simp [hidle], _,
        ⟨heras.1 record hrecord, rfl⟩, (), hmature, _, ⟨by omega, rfl⟩, hnext⟩

theorem amountOf_pos (hne : indexes ≠ [])
    (hall : ∀ index ∈ indexes, Withdrawable store a sender p index)
    (hpositive : ∀ index ∈ indexes,
      ∀ record ∈ store.unstakesOfIndex (a, index), 0 < record.amount) :
    0 < store.amountOf a indexes := by
  obtain ⟨index, rest, rfl⟩ := List.exists_cons_of_ne_nil hne
  obtain ⟨record, hrecord, -⟩ := hall index List.mem_cons_self
  have hpos := hpositive index List.mem_cons_self record hrecord
  rw [amountOf_cons, amountAt_eq hrecord]
  omega

/-! ### The call -/

theorem withdraw_checks (hp : store.pools a = some p)
    (h : executeWithdraw store querier info a receiver indexes =
      .ok (store', rsp)) :
    indexes ≠ [] ∧ indexes.Nodup ∧
      ∀ index ∈ indexes, Withdrawable store a info.sender p index := by
  obtain ⟨q, next, total, tx, payload, hq, hne, hrecords, -⟩ :=
    executeWithdraw_ok h
  obtain rfl := Option.some.inj (hp.symm.trans hq)
  exact ⟨hne, (withdrawRecords_records hrecords).1,
    withdrawRecords_checks hrecords⟩

theorem withdraw_accepts (hp : store.pools a = some p)
    (hpositive : ∀ index ∈ indexes,
      ∀ record ∈ store.unstakesOfIndex (a, index), 0 < record.amount)
    (hfee : ∃ fee, checkIbcFee querier info = .ok fee)
    (hicas : ∃ icas, store.infoOfIcaId p.icaId = some icas)
    (hfits : SumsFit store a p indexes)
    (hne : indexes ≠ []) (hnodup : indexes.Nodup)
    (hall : ∀ index ∈ indexes, Withdrawable store a info.sender p index) :
    ∃ result, executeWithdraw store querier info a receiver indexes =
      .ok result := by
  have htotal := hfits.total
  rw [hnodup.dedup, ← Nat.zero_add (store.amountOf a indexes)] at htotal
  obtain ⟨next, hnext⟩ :=
    withdrawRecords_accepts hnodup hall hfits.eras htotal
  have hpos := amountOf_pos hne hall hpositive
  obtain ⟨fee, hfee⟩ := hfee
  obtain ⟨icas, hicas⟩ := hicas
  obtain ⟨records, hstore⟩ := withdrawRecords_store hnext
  simp only [executeWithdraw, exists_bind_eq_ok, orError_eq_ok,
    rejectIf_eq_ok, exists_const]
  refine ⟨hne, p, hp, _, hnext, by dsimp only; omega, fee, hfee, icas, ?_, ?_⟩
  · rw [hstore]
    exact hicas
  · exact ⟨_, rfl⟩

/-- The listed records are pending, and one message sends their sum. -/
theorem withdraw_marks (hp : store.pools a = some p)
    (h : executeWithdraw store querier info a receiver indexes =
      .ok (store', rsp)) :
    (∀ key ∈ recordKeys a indexes, store'.unstakesOfIndex key =
      (store.unstakesOfIndex key).map (.withStatus .pending)) ∧
    (∀ key ∉ recordKeys a indexes,
      store'.unstakesOfIndex key = store.unstakesOfIndex key) ∧
    rsp.messages.length = 1 ∧
    rsp.txMsgs = [genMsgSend a receiver p.remoteDenom
      (store.amountOf a indexes)] := by
  obtain ⟨q, next, total, tx, payload, hq, hne, hrecords, htx, -, -, -, rfl,
    hrsp⟩ := executeWithdraw_ok h
  obtain rfl := Option.some.inj (hp.symm.trans hq)
  obtain ⟨-, -, hmarked, htotal⟩ := withdrawRecords_records hrecords
  rw [Nat.zero_add] at htotal
  refine ⟨fun key hkey => ?_, fun key hkey => ?_, by rw [hrsp]; rfl, ?_⟩
  · change next.unstakesOfIndex key = _
    rw [hmarked, Map.updateAll_apply, if_pos hkey]
  · change next.unstakesOfIndex key = _
    rw [hmarked, Map.updateAll_apply, if_neg hkey]
  · simp [Response.txMsgs, hrsp, hostMsgs, htx, htotal, Storage.amountOf]

end

/-- A withdrawal for which the fee, the account and the sums are in order is
accepted exactly when it lists, without duplicates, records of its sender that
are idle and mature.  Then the listed records and no others become pending and
one message sends the sum of their amounts; a withdrawal that fails changes
nothing. -/
theorem withdraw_accepts_iff {store : Storage} {querier : Querier}
    {info : MessageInfo} {a receiver : String} {p : PoolInfo}
    {indexes : List Nat} (hp : store.pools a = some p)
    (hpositive : ∀ index ∈ indexes,
      ∀ record ∈ store.unstakesOfIndex (a, index), 0 < record.amount)
    (hfee : ∃ fee, checkIbcFee querier info = .ok fee)
    (hicas : ∃ icas, store.infoOfIcaId p.icaId = some icas)
    (hfits : SumsFit store a p indexes) :
    ((∃ result, executeWithdraw store querier info a receiver indexes =
        .ok result) ↔
      indexes ≠ [] ∧ indexes.Nodup ∧
        ∀ index ∈ indexes, Withdrawable store a info.sender p index) ∧
    (∀ store' rsp, executeWithdraw store querier info a receiver indexes =
        .ok (store', rsp) →
      (∀ key ∈ recordKeys a indexes, store'.unstakesOfIndex key =
        (store.unstakesOfIndex key).map (.withStatus .pending)) ∧
      (∀ key ∉ recordKeys a indexes,
        store'.unstakesOfIndex key = store.unstakesOfIndex key) ∧
      rsp.messages.length = 1 ∧
      rsp.txMsgs = [genMsgSend a receiver p.remoteDenom
        (store.amountOf a indexes)]) ∧
    ∀ e, executeWithdraw store querier info a receiver indexes = .error e →
      store.after (executeWithdraw store querier info a receiver indexes) =
        store := by
  refine ⟨⟨?_, ?_⟩, fun store' rsp => withdraw_marks hp, fun e h => ?_⟩
  · rintro ⟨⟨store', rsp⟩, h⟩
    exact withdraw_checks hp h
  · rintro ⟨hne, hnodup, hall⟩
    exact withdraw_accepts hp hpositive hfee hicas hfits hne hnodup hall
  · rw [h]
    rfl

/-- The record under the index is worth something, its sums are small and the
user may withdraw it. -/
def Sample.ready (store : Storage) (p : PoolInfo) (index : Nat) : Bool :=
  (store.unstakesOfIndex (Sample.pool, index)).any fun record =>
    decide (0 < record.amount ∧
      record.era + p.unbondingPeriod < U64.limit ∧
      record.poolAddr = Sample.pool ∧ record.unstaker = Sample.user ∧
      record.status = .idle ∧ record.era + p.unbondingPeriod ≤ p.era)

theorem ready_record {store : Storage} {p : PoolInfo} {index : Nat}
    (h : Sample.ready store p index = true) :
    Withdrawable store Sample.pool Sample.user p index ∧
      ∀ record ∈ store.unstakesOfIndex (Sample.pool, index),
        0 < record.amount ∧ record.era + p.unbondingPeriod < U64.limit := by
  obtain ⟨record, hrecord, htest⟩ := (Option.any_eq_true _ _).mp h
  obtain ⟨hpos, hfits, hpool, hsender, hidle, hmature⟩ :=
    of_decide_eq_true htest
  refine ⟨⟨record, hrecord, hpool, hsender, hidle, hmature⟩, ?_⟩
  intro other hother
  obtain rfl := Option.some.inj (hrecord.symm.trans hother)
  exact ⟨hpos, hfits⟩

/-- Two mature records are withdrawn together, the second one first. -/
theorem withdraw_accepts_sample : ∃ w p,
    Sample.run Sample.twoRecords = some w ∧
    w.store.pools Sample.pool = some p ∧
    ∃ result, executeWithdraw w.store (Sample.querier 0 [] 0)
      ⟨Sample.user, Sample.fee⟩ Sample.pool "cosmos1user" [2, 1] =
        .ok result := by
  obtain ⟨w, p, hw, hp, htest⟩ := Sample.exists_of_run Sample.twoRecords
    (fun w p => (checkIbcFee (Sample.querier 0 [] 0)
        ⟨Sample.user, Sample.fee⟩).toOption.isSome &&
      (w.store.infoOfIcaId p.icaId).isSome &&
      Sample.ready w.store p 2 && Sample.ready w.store p 1 &&
      decide (w.store.amountOf Sample.pool [2, 1] < Uint128.limit))
    (by decide +kernel)
  simp only [Bool.and_eq_true, Option.isSome_iff_exists, toOption_eq_some,
    decide_eq_true_eq] at htest
  obtain ⟨⟨⟨⟨hfee, hicas⟩, htwo⟩, hone⟩, htotal⟩ := htest
  have hready : ∀ index ∈ [2, 1], Sample.ready w.store p index = true := by
    simp [htwo, hone]
  have hnodup : [2, 1].Nodup := by decide
  have hfits : SumsFit w.store Sample.pool p [2, 1] := by
    constructor
    · exact fun index hindex record hrecord =>
        ((ready_record (hready index hindex)).2 record hrecord).2
    · rw [hnodup.dedup]
      exact htotal
  refine ⟨w, p, hw, hp, (withdraw_accepts_iff hp ?_ hfee hicas hfits).1.mpr
    ⟨by simp, hnodup, fun index hindex => ?_⟩⟩
  · exact fun index hindex record hrecord =>
      ((ready_record (hready index hindex)).2 record hrecord).1
  · exact (ready_record (hready index hindex)).1

end StakeManager

end NeutronContracts
