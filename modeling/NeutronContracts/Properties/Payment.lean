/-
An unstake record is paid at most once.  A record is pending exactly while one
withdrawal of its unstaker waits for its answer, as long as no receiver brings
pieces into the text of a withdrawal that its callbacks take for indexes.
-/
import NeutronContracts.Lib.Reservation
import NeutronContracts.Chain.Payouts

namespace NeutronContracts

open StakeManager Fallible

/-- What the records were worth, and what successful withdrawals have sent for
them. -/
structure Payments where
  made : String × Nat → Nat
  paid : String × Nat → Nat

def Payments.none : Payments := ⟨fun _ => 0, fun _ => 0⟩

/-- The amount of a record is remembered when the record is gone; a successful
withdrawal pays the amount of every record it lists. -/
def keepPayments (books : Payments) (w : World) (ev : Event) (w' : World) :
    Payments where
  made key :=
    ((w'.store.unstakesOfIndex key).map (·.amount)).getD (books.made key)
  paid key := books.paid key +
    match w.answeredPayout ev with
    | some (_, .success, payout) => payout.keys.count key * books.made key
    | _ => 0

namespace World

/-- The withdrawal `id` of the user waits, and it lists the record. -/
def Claims (w : World) (user pool : String) (index : Nat) (id : PacketId) :
    Prop :=
  ∃ payout, w.payouts id = some payout ∧ payout.sender = user ∧
    payout.pool = pool ∧ index ∈ payout.indexes

/-- The record of an unstake is reserved by one withdrawal at a time, given
back when that one fails, removed when it succeeds, and paid once. -/
structure PaidOnce (s : World × Payments) (ev : Event)
    (s' : World × Payments) : Prop where
  pending : ∀ pool index info,
    s'.1.store.unstakesOfIndex (pool, index) = some info →
    (info.status = .pending ↔
      ∃! id, s'.1.Claims info.unstaker pool index id)
  returned : ∀ pool index info info',
    s.1.store.unstakesOfIndex (pool, index) = some info →
    s'.1.store.unstakesOfIndex (pool, index) = some info' →
    info.status = .pending → info'.status = .idle →
    ∃ id answer payout,
      s.1.answeredPayout ev = some (id, answer, payout) ∧
        answer ≠ .success ∧ s.1.Claims info.unstaker pool index id
  removed : ∀ pool index info,
    s.1.store.unstakesOfIndex (pool, index) = some info →
    s'.1.store.unstakesOfIndex (pool, index) = none →
    ∃ id payout, s.1.answeredPayout ev = some (id, .success, payout) ∧
      s.1.Claims info.unstaker pool index id
  amount : ∀ id payout, s'.1.payouts id = some payout →
    payout.amount = (payout.keys.map s'.2.made).sum
  paid : ∀ key, s'.2.paid key ≤ s'.2.made key

/-- The pieces of the receiver do no harm when the withdrawal is answered: no
piece is another index of the sender, which a success would remove, and every
piece after the first one is an index of the withdrawal itself or of an idle
record, which a failure can set back. -/
def Harmless (store : Storage) (payout : Payout) : Answer → Prop
  | .success => ∀ index ∈ store.indexesOf payout.sender payout.pool,
      toString index ∈ Text.split '_' payout.receiver →
        index ∈ payout.indexes
  | _ => ∀ piece ∈ (Text.split '_' payout.receiver).tail,
      ∃ index ∈ U64.parse piece, index ∈ payout.indexes ∨
        ∃ info ∈ store.unstakesOfIndex (payout.pool, index),
          info.status = .idle

instance (store : Storage) (payout : Payout) (answer : Answer) :
    Decidable (Harmless store payout answer) :=
  match answer with
  | .success => inferInstanceAs (Decidable (∀ _ ∈ _, _ → _ ∈ _))
  | .error => inferInstanceAs (Decidable (∀ _ ∈ _, ∃ _ ∈ _, _ ∨ ∃ _ ∈ _, _))
  | .timeout => inferInstanceAs (Decidable (∀ _ ∈ _, ∃ _ ∈ _, _ ∨ ∃ _ ∈ _, _))

/-- The receiver of the answered withdrawal does no harm. -/
def PlainReceiver (w : World) (ev : Event) : Prop :=
  ∀ answered ∈ w.answeredPayout ev,
    Harmless w.store answered.2.2 answered.2.1

instance (w : World) (ev : Event) : Decidable (PlainReceiver w ev) :=
  inferInstanceAs (Decidable (∀ _ ∈ _, Harmless _ _ _))

variable {net : Network} {w w' : World} {ev : Event} {id : PacketId}
  {payout : Payout} {answer : Answer} {books : Payments}

/-! ### Claims as reservations -/

/-- Which records are pending. -/
def marks (w : World) : Map (String × Nat) Bool :=
  w.store.unstakesOfIndex.view fun info => decide (info.status = .pending)

/-- The records that the waiting withdrawals list. -/
def claimed (w : World) : Map PacketId (List (String × Nat)) :=
  w.payouts.view Payout.keys

/-- The records and the withdrawals agree, and every user has the indexes of
his records. -/
structure Claimed (w : World) : Prop where
  consistent : Reservation.Consistent w.marks w.claimed
  owned : ∀ id payout, w.payouts id = some payout →
    ∀ index ∈ payout.indexes, ∃ info,
      w.store.unstakesOfIndex (payout.pool, index) = some info ∧
        info.unstaker = payout.sender
  distinct : ∀ id payout, w.payouts id = some payout → payout.indexes.Nodup
  listed : ∀ pool index info,
    w.store.unstakesOfIndex (pool, index) = some info →
    index ∈ w.store.indexesOf info.unstaker pool ∧ index < U64.limit

/-- What an answered withdrawal should do: pay its records, or give them
back. -/
inductive FairMove (w : World) (ev : Event) (w' : World) : Prop
  | request (hanswer : w.answeredPayout ev = none)
      (hmove : RequestMove w w') : FairMove w ev w'
  | paid {id : PacketId} {payout : Payout}
      (hanswer : w.answeredPayout ev = some (id, .success, payout))
      (hpayouts : w'.payouts = w.payouts.remove id)
      (hrecords : w'.store.unstakesOfIndex =
        w.store.unstakesOfIndex.removeAll payout.keys)
      (hindexes : ∀ user other index, index ∈ w.store.indexesOf user other →
        index ∈ w'.store.indexesOf user other ∨
          user = payout.sender ∧ other = payout.pool ∧
            index ∈ payout.indexes) : FairMove w ev w'
  | returned {id : PacketId} {answer : Answer} {payout : Payout}
      (hanswer : w.answeredPayout ev = some (id, answer, payout))
      (hfailed : answer ≠ .success)
      (hpayouts : w'.payouts = w.payouts.remove id)
      (hrecords : w'.store.unstakesOfIndex =
        w.store.unstakesOfIndex.updateAll (.withStatus .idle) payout.keys)
      (hindexes :
        w'.store.unstakesIndexForUser = w.store.unstakesIndexForUser) :
      FairMove w ev w'

theorem waiting_of_answered
    (h : w.answeredPayout ev = some (id, answer, payout)) :
    w.payouts id = some payout := by
  unfold answeredPayout at h
  split at h
  · simp only [Option.map_eq_some_iff, Prod.mk.injEq] at h
    obtain ⟨_, hpayout, rfl, -, rfl⟩ := h
    exact hpayout
  · cases h

theorem mem_settledTexts (haccount : isAccount payout.sender = true)
    {index : Nat} :
    toString index ∈
        settledTexts payout.sender payout.receiver payout.indexes ↔
      toString index ∈ Text.split '_' payout.receiver ∨
        index ∈ payout.indexes := by
  have hmap : toString index ∈ payout.indexes.map toString ↔
      index ∈ payout.indexes := by
    rw [List.mem_map]
    constructor
    · rintro ⟨other, hother, hsame⟩
      exact Text.toString_inj hsame ▸ hother
    · intro hindex
      exact ⟨index, hindex, rfl⟩
  rw [settledTexts, List.mem_cons, List.mem_append, hmap]
  exact or_iff_right (toString_ne_account haccount index)

/-- The success callback removes the records of the withdrawal and no
others. -/
theorem settled_keys (h : Claimed w) (hid : w.payouts id = some payout)
    (haccount : isAccount payout.sender = true)
    (hharmless : Harmless w.store payout .success) (key : String × Nat) :
    key ∈ recordKeys payout.pool
        ((w.store.indexesOf payout.sender payout.pool).filter fun index =>
          decide (toString index ∈ settledTexts payout.sender payout.receiver
            payout.indexes)) ↔
      key ∈ payout.keys := by
  rw [Payout.keys, mem_recordKeys, mem_recordKeys]
  refine and_congr_right fun hpool => ?_
  simp only [List.mem_filter, decide_eq_true_eq, mem_settledTexts haccount]
  constructor
  · rintro ⟨hlisted, hpiece | hindex⟩
    · exact hharmless key.2 hlisted hpiece
    · exact hindex
  · intro hindex
    obtain ⟨info, hinfo, hsender⟩ := h.owned id payout hid key.2 hindex
    exact ⟨hsender ▸ (h.listed payout.pool key.2 info hinfo).1, .inr hindex⟩

/-- What the failure callback reads: the indexes of the withdrawal, and those
that the receiver adds. -/
theorem mem_restored {restored : List Nat}
    (hparse : (restoredTexts payout.receiver payout.indexes).map U64.parse =
      restored.map some) {index : Nat} :
    index ∈ restored ↔
      ∃ text ∈ restoredTexts payout.receiver payout.indexes,
        U64.parse text = some index := by
  have hmem : some index ∈ restored.map some ↔ index ∈ restored := by simp
  rw [← hmem, ← hparse, List.mem_map]

theorem parse_index (h : Claimed w) (hid : w.payouts id = some payout)
    {index : Nat} (hindex : index ∈ payout.indexes) :
    U64.parse (toString index) = some index := by
  obtain ⟨info, hinfo, -⟩ := h.owned id payout hid index hindex
  exact Text.parseBelow_toString (h.listed payout.pool index info hinfo).2

/-- The failure callback meets the indexes of the withdrawal, and otherwise
only idle records. -/
theorem restored_index (h : Claimed w) (hid : w.payouts id = some payout)
    (hfailed : answer ≠ .success)
    (hharmless : Harmless w.store payout answer) {restored : List Nat}
    (hparse : (restoredTexts payout.receiver payout.indexes).map U64.parse =
      restored.map some) {index : Nat} (hindex : index ∈ restored) :
    index ∈ payout.indexes ∨
      ∃ info, w.store.unstakesOfIndex (payout.pool, index) = some info ∧
        info.status = .idle := by
  obtain ⟨text, htext, hread⟩ := (mem_restored hparse).mp hindex
  rcases List.mem_append.mp htext with hpiece | hown
  · have hpieces : ∀ piece ∈ (Text.split '_' payout.receiver).tail,
        ∃ index ∈ U64.parse piece, index ∈ payout.indexes ∨
          ∃ info ∈ w.store.unstakesOfIndex (payout.pool, index),
            info.status = .idle := by
      cases answer with
      | success => exact absurd rfl hfailed
      | error => exact hharmless
      | timeout => exact hharmless
    obtain ⟨other, hother, hgood⟩ := hpieces text hpiece
    obtain rfl := Option.some.inj (hread.symm.trans hother)
    exact hgood
  · obtain ⟨other, hother, rfl⟩ := List.mem_map.mp hown
    have hself := parse_index h hid hother
    obtain rfl := Option.some.inj (hread.symm.trans hself)
    exact .inl hother

/-- When every piece of the receiver is harmless the failure callback can read
all of them. -/
theorem exists_restored (h : Claimed w) (hid : w.payouts id = some payout)
    (hfailed : answer ≠ .success)
    (hharmless : Harmless w.store payout answer) :
    ∃ restored : List Nat,
      (restoredTexts payout.receiver payout.indexes).map U64.parse =
        restored.map some := by
  have hall : ∀ texts : List String,
      (∀ text ∈ texts, ∃ index, U64.parse text = some index) →
      ∃ restored : List Nat, texts.map U64.parse = restored.map some := by
    intro texts htexts
    induction texts with
    | nil => exact ⟨[], rfl⟩
    | cons text rest ih =>
        obtain ⟨index, hindex⟩ := htexts text List.mem_cons_self
        obtain ⟨restored, hrestored⟩ :=
          ih fun other hother => htexts other (List.mem_cons_of_mem _ hother)
        exact ⟨index :: restored, by simp [hindex, hrestored]⟩
  refine hall _ fun text htext => ?_
  rcases List.mem_append.mp htext with hpiece | hown
  · cases answer with
    | success => exact absurd rfl hfailed
    | error =>
        obtain ⟨index, hindex, -⟩ := hharmless text hpiece
        exact ⟨index, hindex⟩
    | timeout =>
        obtain ⟨index, hindex, -⟩ := hharmless text hpiece
        exact ⟨index, hindex⟩
  · obtain ⟨index, hindex, rfl⟩ := List.mem_map.mp hown
    exact ⟨index, parse_index h hid hindex⟩

/-- With a harmless receiver the callbacks do what they should. -/
theorem fair_of_claim_move (h : Claimed w) (hmove : ClaimMove w ev w')
    (hplain : PlainReceiver w ev) : FairMove w ev w' := by
  cases hmove with
  | request hanswer hmove => exact .request hanswer hmove
  | @settled _ payout hanswer hpayouts haccount hrecords hindexes =>
      have hid := waiting_of_answered hanswer
      have hharmless := hplain _ hanswer
      have hkeys := settled_keys h hid haccount hharmless
      refine .paid hanswer hpayouts
        (hrecords.trans (Map.removeAll_congr hkeys)) ?_
      intro user other index hlisted
      rw [hindexes]
      split
      · rename_i hown
        obtain ⟨rfl, rfl⟩ := hown
        simp only [List.mem_filter, decide_eq_true_eq,
          mem_settledTexts haccount]
        by_cases hindex : index ∈ payout.indexes
        · exact .inr ⟨trivial, trivial, hindex⟩
        · left
          refine ⟨hlisted, fun htext => ?_⟩
          rcases htext with hpiece | hmem
          · exact hindex (hharmless index hlisted hpiece)
          · exact hindex hmem
      · exact .inl hlisted
  | restored hanswer hfailed hpayouts hparse hrecords hindexes =>
      have hid := waiting_of_answered hanswer
      have hharmless := hplain _ hanswer
      refine .returned hanswer hfailed hpayouts (hrecords.trans ?_) hindexes
      apply Map.updateAll_congr
      · intro key hkey
        rw [Payout.keys, mem_recordKeys] at hkey
        rw [mem_recordKeys, mem_restored hparse]
        exact ⟨hkey.1, toString key.2,
          List.mem_append_right _ (List.mem_map_of_mem hkey.2),
          parse_index h hid hkey.2⟩
      · rintro ⟨pool, index⟩ hkey hother
        rw [mem_recordKeys] at hkey
        obtain ⟨rfl, hindex⟩ := hkey
        -- what the receiver adds is idle already
        rcases restored_index h hid hfailed hharmless hparse hindex with
          hown | ⟨info, hinfo, hidle⟩
        · exact absurd (mem_recordKeys.mpr ⟨rfl, hown⟩) hother
        · rw [hinfo, Option.map_some]
          congr 1
          exact hidle ▸ rfl
  | lost hanswer hfailed hunread hpayouts hsame =>
      have hid := waiting_of_answered hanswer
      have hharmless := hplain _ hanswer
      obtain ⟨restored, hparse⟩ := exists_restored h hid hfailed hharmless
      obtain ⟨index, hindex, hnone⟩ := hunread restored hparse
      rcases restored_index h hid hfailed hharmless hparse hindex with
        hown | ⟨info, hinfo, -⟩
      · obtain ⟨info, hinfo, -⟩ := h.owned _ _ hid index hown
        cases hnone.symm.trans hinfo
      · cases hnone.symm.trans hinfo

/-! ### The records and the withdrawals agree -/

theorem mem_keys {key : String × Nat} :
    key ∈ payout.keys ↔ key.1 = payout.pool ∧ key.2 ∈ payout.indexes :=
  mem_recordKeys

theorem lists_claimed {key : String × Nat} :
    Reservation.Lists w.claimed id key ↔
      ∃ payout, w.payouts id = some payout ∧ key ∈ payout.keys := by
  unfold Reservation.Lists claimed
  simp only [Map.view_apply, Option.map_eq_some_iff]
  constructor
  · rintro ⟨_, ⟨payout, hpayout, rfl⟩, hkey⟩
    exact ⟨payout, hpayout, hkey⟩
  · rintro ⟨payout, hpayout, hkey⟩
    exact ⟨_, ⟨payout, hpayout, rfl⟩, hkey⟩

/-- A record that a waiting withdrawal lists is listed for its unstaker. -/
theorem Claimed.lists_iff (h : Claimed w) {pool : String} {index : Nat}
    {info : UnstakeInfo}
    (hinfo : w.store.unstakesOfIndex (pool, index) = some info) :
    Reservation.Lists w.claimed id (pool, index) ↔
      w.Claims info.unstaker pool index id := by
  rw [lists_claimed]
  constructor
  · rintro ⟨payout, hpayout, hkey⟩
    obtain ⟨rfl, hindex⟩ := mem_keys.mp hkey
    obtain ⟨info', hinfo', hsender⟩ := h.owned id payout hpayout index hindex
    obtain rfl := Option.some.inj (hinfo.symm.trans hinfo')
    exact ⟨payout, hpayout, hsender.symm, rfl, hindex⟩
  · rintro ⟨payout, hpayout, -, rfl, hindex⟩
    exact ⟨payout, hpayout, mem_keys.mpr ⟨rfl, hindex⟩⟩

/-- A record is pending exactly while one withdrawal of its unstaker lists
it. -/
theorem Claimed.pending_iff (h : Claimed w) {pool : String} {index : Nat}
    {info : UnstakeInfo}
    (hinfo : w.store.unstakesOfIndex (pool, index) = some info) :
    info.status = .pending ↔
      ∃! id, w.Claims info.unstaker pool index id := by
  have hmark : w.marks (pool, index) = some true ↔ info.status = .pending := by
    rw [marks, Map.view_apply, hinfo]
    simp
  rw [← hmark, h.consistent.unique]
  simp only [h.lists_iff hinfo]

theorem marks_updated {status : WithdrawStatus} {keys : List (String × Nat)}
    (h : w'.store.unstakesOfIndex =
      w.store.unstakesOfIndex.updateAll (.withStatus status) keys) :
    w'.marks = w.marks.updateAll (fun _ => decide (status = .pending))
      keys := by
  rw [marks, h]
  exact Map.view_updateAll fun _ => rfl

/-- The waiting withdrawals keep what they own when no claim changes. -/
theorem owned_of_old (h : Claimed w) (hold : OldRecords w'.store w.store)
    (hid : w.payouts id = some payout) :
    ∀ index ∈ payout.indexes, ∃ info,
      w'.store.unstakesOfIndex (payout.pool, index) = some info ∧
        info.unstaker = payout.sender := by
  intro index hindex
  obtain ⟨info, hinfo, hsender⟩ := h.owned id payout hid index hindex
  obtain ⟨info', hinfo', status, rfl⟩ := hold _ _ hinfo
  exact ⟨info', hinfo', hsender⟩

/-- The users keep their indexes when no claim changes. -/
theorem listed_of_old (h : Claimed w) (hold : OldRecords w.store w'.store)
    (hindexes :
      w'.store.unstakesIndexForUser = w.store.unstakesIndexForUser)
    (pool : String) (index : Nat) (info : UnstakeInfo)
    (hinfo : w'.store.unstakesOfIndex (pool, index) = some info) :
    index ∈ w'.store.indexesOf info.unstaker pool ∧ index < U64.limit := by
  obtain ⟨before, hbefore, status, rfl⟩ := hold _ _ hinfo
  rw [Storage.indexesOf, hindexes]
  exact h.listed pool index before hbefore

theorem claimed_of_made (h : Claimed w) {b sender : String} {index : Nat}
    {info : UnstakeInfo} (hidle : info.status = .idle)
    (hsender : info.unstaker = sender) (hlimit : index < U64.limit)
    (hnew : w.store.unstakesOfIndex (b, index) = none)
    (hrecords : w'.store.unstakesOfIndex =
      w.store.unstakesOfIndex.save (b, index) info)
    (hindexes : w'.store.unstakesIndexForUser =
      w.store.unstakesIndexForUser.save (sender, b)
        (w.store.indexesOf sender b ++ [index]))
    (hpayouts : w'.payouts = w.payouts) : Claimed w' := by
  have hmarks : w'.marks = w.marks.save (b, index) false := by
    rw [marks, hrecords, Map.view_save, hidle]
    rfl
  have hclaimed : w'.claimed = w.claimed := by
    rw [claimed, hpayouts]
    rfl
  have hgrow : ∀ user other, ∀ index ∈ w.store.indexesOf user other,
      index ∈ w'.store.indexesOf user other := by
    intro user other index hindex
    rw [Storage.indexesOf, hindexes, Map.save_apply]
    split
    · rename_i hkey
      obtain ⟨rfl, rfl⟩ := Prod.mk.inj hkey
      exact List.mem_append_left _ hindex
    · exact hindex
  refine ⟨?_, ?_, hpayouts ▸ h.distinct, ?_⟩
  · rw [hmarks, hclaimed]
    apply h.consistent.add
    rw [marks, Map.view_apply, hnew]
    rfl
  · intro id payout hid index' hindex'
    rw [hpayouts] at hid
    obtain ⟨old, hold, howner⟩ := h.owned id payout hid index' hindex'
    have hne : (payout.pool, index') ≠ (b, index) := by
      intro heq
      rw [heq] at hold
      cases hnew.symm.trans hold
    exact ⟨old, by rw [hrecords, Map.save_of_ne hne, hold], howner⟩
  · intro pool index' info' hinfo'
    rw [hrecords, Map.save_apply] at hinfo'
    split at hinfo'
    · rename_i hkey
      obtain ⟨rfl, rfl⟩ := Prod.mk.inj hkey
      obtain rfl := Option.some.inj hinfo'
      refine ⟨?_, hlimit⟩
      rw [Storage.indexesOf, hindexes, hsender, Map.save_self]
      exact List.mem_append_right _ List.mem_cons_self
    · obtain ⟨hlisted, hlimit'⟩ := h.listed pool index' info' hinfo'
      exact ⟨hgrow _ _ _ hlisted, hlimit'⟩

theorem claimed_of_requested (h : Claimed w)
    (hfresh : w.payouts id = none)
    (hpayouts : w'.payouts = w.payouts.save id payout)
    (hnodup : payout.indexes.Nodup)
    (hfree : ∀ index ∈ payout.indexes, ∃ info,
      w.store.unstakesOfIndex (payout.pool, index) = some info ∧
        info.unstaker = payout.sender ∧ info.status = .idle)
    (hrecords : w'.store.unstakesOfIndex =
      w.store.unstakesOfIndex.updateAll (.withStatus .pending) payout.keys)
    (hindexes :
      w'.store.unstakesIndexForUser = w.store.unstakesIndexForUser) :
    Claimed w' := by
  obtain ⟨hold, hback⟩ := record_updated hrecords
  have hwaiting : ∀ other payout', w'.payouts other = some payout' →
      payout' = payout ∨ w.payouts other = some payout' := by
    intro other payout' hother
    rw [hpayouts, Map.save_apply] at hother
    split at hother
    · exact .inl (Option.some.inj hother).symm
    · exact .inr hother
  refine ⟨?_, ?_, ?_, listed_of_old h hold hindexes⟩
  · rw [marks_updated hrecords, claimed, hpayouts, Map.view_save]
    apply h.consistent.reserve
    · rintro ⟨pool, index⟩ hkey
      obtain ⟨rfl, hindex⟩ := mem_keys.mp hkey
      obtain ⟨info, hinfo, -, hidle⟩ := hfree index hindex
      simp only [marks, Map.view_apply]
      rw [hinfo, Option.map_some, hidle]
      rfl
    · rw [claimed, Map.view_apply, hfresh]
      rfl
  · intro other payout' hother
    rcases hwaiting other payout' hother with rfl | hbefore
    · intro index hindex
      obtain ⟨info, hinfo, hsender, -⟩ := hfree index hindex
      obtain ⟨info', hinfo', status, rfl⟩ := hback _ _ hinfo
      exact ⟨info', hinfo', hsender⟩
    · exact owned_of_old h hback hbefore
  · intro other payout' hother
    rcases hwaiting other payout' hother with rfl | hbefore
    · exact hnodup
    · exact h.distinct other payout' hbefore

theorem waiting_of_removed {other : PacketId}
    (hpayouts : w'.payouts = w.payouts.remove id)
    (hother : w'.payouts other = some payout) :
    other ≠ id ∧ w.payouts other = some payout := by
  rw [hpayouts, Map.remove_apply] at hother
  split at hother
  · cases hother
  · rename_i hne
    exact ⟨hne, hother⟩

theorem claimed_of_paid (h : Claimed w) (hid : w.payouts id = some payout)
    (hpayouts : w'.payouts = w.payouts.remove id)
    (hrecords : w'.store.unstakesOfIndex =
      w.store.unstakesOfIndex.removeAll payout.keys)
    (hindexes : ∀ user other index, index ∈ w.store.indexesOf user other →
      index ∈ w'.store.indexesOf user other ∨
        user = payout.sender ∧ other = payout.pool ∧
          index ∈ payout.indexes) : Claimed w' := by
  have hlists : w.claimed id = some payout.keys := by
    rw [claimed, Map.view_apply, hid]
    rfl
  refine ⟨?_, ?_, ?_, ?_⟩
  · rw [marks, hrecords, Map.view_removeAll, claimed, hpayouts,
      Map.view_remove]
    exact h.consistent.consume hlists fun _ => Iff.rfl
  · intro other payout' hother index hindex
    obtain ⟨hne, hbefore⟩ := waiting_of_removed hpayouts hother
    obtain ⟨info, hinfo, hsender⟩ := h.owned other payout' hbefore index hindex
    -- no two withdrawals list the same record
    have hkey : (payout'.pool, index) ∉ payout.keys := fun hkey =>
      hne (h.consistent.apart other id _
        (lists_claimed.mpr ⟨payout', hbefore, mem_keys.mpr ⟨rfl, hindex⟩⟩)
        (lists_claimed.mpr ⟨payout, hid, hkey⟩))
    refine ⟨info, ?_, hsender⟩
    rw [hrecords, Map.removeAll_apply, if_neg hkey, hinfo]
  · intro other payout' hother
    exact h.distinct other payout' (waiting_of_removed hpayouts hother).2
  · intro pool index info hinfo
    rw [hrecords, Map.removeAll_apply] at hinfo
    split at hinfo
    · cases hinfo
    · rename_i hkey
      obtain ⟨hlisted, hlimit⟩ := h.listed pool index info hinfo
      refine ⟨?_, hlimit⟩
      rcases hindexes _ _ _ hlisted with hkept | ⟨-, rfl, hindex⟩
      · exact hkept
      · exact absurd (mem_keys.mpr ⟨rfl, hindex⟩) hkey

theorem claimed_of_returned (h : Claimed w) (hid : w.payouts id = some payout)
    (hpayouts : w'.payouts = w.payouts.remove id)
    (hrecords : w'.store.unstakesOfIndex =
      w.store.unstakesOfIndex.updateAll (.withStatus .idle) payout.keys)
    (hindexes :
      w'.store.unstakesIndexForUser = w.store.unstakesIndexForUser) :
    Claimed w' := by
  obtain ⟨hold, hback⟩ := record_updated hrecords
  have hlists : w.claimed id = some payout.keys := by
    rw [claimed, Map.view_apply, hid]
    rfl
  refine ⟨?_, ?_, ?_, listed_of_old h hold hindexes⟩
  · rw [marks_updated hrecords, claimed, hpayouts, Map.view_remove]
    exact h.consistent.release hlists (fun _ hkey => hkey)
      fun _ hkey _ => hkey
  · intro other payout' hother
    exact owned_of_old h hback (waiting_of_removed hpayouts hother).2
  · intro other payout' hother
    exact h.distinct other payout' (waiting_of_removed hpayouts hother).2

theorem claimed_of_kept (h : Claimed w) (hpayouts : w'.payouts = w.payouts)
    (hsame : SameRecords w.store w'.store) : Claimed w' := by
  have hold : OldRecords w.store w'.store := .of_same hsame.records
  have hback : OldRecords w'.store w.store := .of_same hsame.records.symm
  refine ⟨?_, ?_, hpayouts ▸ h.distinct, listed_of_old h hold hsame.indexes⟩
  · rw [marks, hsame.records, claimed, hpayouts]
    exact h.consistent
  · intro id payout hid
    exact owned_of_old h hback (hpayouts ▸ hid)

/-! ### The books -/

/-- The books tell what the records are worth, no record that is there has
been paid, and no index is used twice. -/
structure Booked (w : World) (books : Payments) : Prop where
  unused : ∀ pool index, Unused w pool index →
    w.store.unstakesOfIndex (pool, index) = none ∧
      books.made (pool, index) = 0
  made : ∀ key info, w.store.unstakesOfIndex key = some info →
    books.made key = info.amount
  unpaid : ∀ key info, w.store.unstakesOfIndex key = some info →
    books.paid key = 0
  amount : ∀ id payout, w.payouts id = some payout →
    payout.amount = (payout.keys.map books.made).sum
  paid : ∀ key, books.paid key ≤ books.made key

theorem made_of_old (h : Booked w books)
    (hold : OldRecords w.store w'.store) :
    (keepPayments books w ev w').made = books.made := by
  funext key
  simp only [keepPayments]
  cases hinfo : w'.store.unstakesOfIndex key with
  | none => rfl
  | some info =>
      obtain ⟨before, hbefore, status, rfl⟩ := hold key info hinfo
      exact (h.made key before hbefore).symm

theorem paid_of_request (hanswer : w.answeredPayout ev = none) :
    (keepPayments books w ev w').paid = books.paid := by
  simp [keepPayments, hanswer]

theorem paid_of_failed
    (hanswer : w.answeredPayout ev = some (id, answer, payout))
    (hfailed : answer ≠ .success) :
    (keepPayments books w ev w').paid = books.paid := by
  funext key
  simp only [keepPayments, hanswer]
  cases answer with
  | success => exact absurd rfl hfailed
  | error => rfl
  | timeout => rfl

theorem OldRecords.none {store store' : Storage} {key : String × Nat}
    (h : OldRecords store store')
    (hnone : store.unstakesOfIndex key = Option.none) :
    store'.unstakesOfIndex key = Option.none := by
  cases hinfo : store'.unstakesOfIndex key with
  | none => rfl
  | some info =>
      obtain ⟨before, hbefore, -⟩ := h key info hinfo
      cases hnone.symm.trans hbefore

/-- A move that makes no record and pays nothing keeps the books. -/
theorem booked_of_old (h : Booked w books)
    (hold : OldRecords w.store w'.store)
    (hunused : ∀ pool index, Unused w' pool index → Unused w pool index)
    (hpaid : (keepPayments books w ev w').paid = books.paid)
    (hamount : ∀ id payout, w'.payouts id = some payout →
      payout.amount = (payout.keys.map books.made).sum) :
    Booked w' (keepPayments books w ev w') := by
  have hmade : (keepPayments books w ev w').made = books.made :=
    made_of_old h hold
  refine ⟨?_, ?_, ?_, ?_, ?_⟩
  · intro pool index hnew
    obtain ⟨hnone, hzero⟩ := h.unused pool index (hunused pool index hnew)
    exact ⟨OldRecords.none hold hnone, hmade ▸ hzero⟩
  · intro key info hinfo
    obtain ⟨before, hbefore, status, rfl⟩ := hold key info hinfo
    rw [hmade]
    exact h.made key before hbefore
  · intro key info hinfo
    obtain ⟨before, hbefore, -⟩ := hold key info hinfo
    rw [hpaid]
    exact h.unpaid key before hbefore
  · rw [hmade]
    exact hamount
  · rw [hmade, hpaid]
    exact h.paid

/-- A success pays the records of the withdrawal, which have not been paid. -/
theorem booked_of_paid (hc : Claimed w) (h : Booked w books)
    (hanswer : w.answeredPayout ev = some (id, .success, payout))
    (hunused : ∀ pool index, Unused w' pool index → Unused w pool index)
    (hpayouts : w'.payouts = w.payouts.remove id)
    (hrecords : w'.store.unstakesOfIndex =
      w.store.unstakesOfIndex.removeAll payout.keys) :
    Booked w' (keepPayments books w ev w') := by
  have hid := waiting_of_answered hanswer
  have hkept : ∀ key info, w'.store.unstakesOfIndex key = some info →
      key ∉ payout.keys ∧ w.store.unstakesOfIndex key = some info := by
    intro key info hinfo
    rw [hrecords, Map.removeAll_apply] at hinfo
    split at hinfo
    · cases hinfo
    · rename_i hkey
      exact ⟨hkey, hinfo⟩
  have hold : OldRecords w.store w'.store := fun key info hinfo =>
    ⟨info, (hkept key info hinfo).2, .refl _⟩
  have hmade : (keepPayments books w ev w').made = books.made :=
    made_of_old h hold
  have hpaid : ∀ key, (keepPayments books w ev w').paid key =
      books.paid key + payout.keys.count key * books.made key := by
    intro key
    simp [keepPayments, hanswer]
  refine ⟨?_, ?_, ?_, ?_, ?_⟩
  · intro pool index hnew
    obtain ⟨hnone, hzero⟩ := h.unused pool index (hunused pool index hnew)
    exact ⟨OldRecords.none hold hnone, hmade ▸ hzero⟩
  · intro key info hinfo
    rw [hmade]
    exact h.made key info (hkept key info hinfo).2
  · intro key info hinfo
    obtain ⟨hkey, hbefore⟩ := hkept key info hinfo
    rw [hpaid, h.unpaid key info hbefore, List.count_eq_zero_of_not_mem hkey]
    simp
  · intro other payout' hother
    rw [hmade]
    exact h.amount other payout' (waiting_of_removed hpayouts hother).2
  · rintro ⟨pool, index⟩
    rw [hpaid, hmade]
    by_cases hkey : (pool, index) ∈ payout.keys
    · obtain ⟨rfl, hindex⟩ := mem_keys.mp hkey
      obtain ⟨info, hinfo, -⟩ := hc.owned id payout hid index hindex
      have honce : payout.keys.count (payout.pool, index) ≤ 1 := by
        apply List.nodup_iff_count_le_one.mp
        apply List.Nodup.map _ (hc.distinct id payout hid)
        intro first second heq
        exact (Prod.mk.inj heq).2
      rw [h.unpaid _ info hinfo, Nat.zero_add]
      calc payout.keys.count (payout.pool, index) *
            books.made (payout.pool, index)
          ≤ 1 * books.made (payout.pool, index) :=
            Nat.mul_le_mul_right _ honce
        _ = books.made (payout.pool, index) := Nat.one_mul _
    · rw [List.count_eq_zero_of_not_mem hkey]
      simpa using h.paid (pool, index)

/-- An unstake makes a record under an index that was never used. -/
theorem booked_of_made (hc : Claimed w) (h : Booked w books) {b : String}
    {index : Nat} {info : UnstakeInfo}
    (hanswer : w.answeredPayout ev = none)
    (hnew : Unused w b index) (hused : ¬ Unused w' b index)
    (hunused : ∀ pool index, Unused w' pool index → Unused w pool index)
    (hrecords : w'.store.unstakesOfIndex =
      w.store.unstakesOfIndex.save (b, index) info)
    (hpayouts : w'.payouts = w.payouts) :
    Booked w' (keepPayments books w ev w') := by
  obtain ⟨hnone, hzero⟩ := h.unused b index hnew
  have hpaid : (keepPayments books w ev w').paid = books.paid :=
    paid_of_request hanswer
  have hself : (keepPayments books w ev w').made (b, index) =
      info.amount := by
    simp [keepPayments, hrecords]
  have hmade : ∀ key, key ≠ (b, index) →
      (keepPayments books w ev w').made key = books.made key := by
    intro key hne
    simp only [keepPayments, hrecords, Map.save_of_ne hne]
    cases hinfo : w.store.unstakesOfIndex key with
    | none => rfl
    | some info => exact (h.made key info hinfo).symm
  refine ⟨?_, ?_, ?_, ?_, ?_⟩
  · intro pool index' hunused'
    have hne : (pool, index') ≠ (b, index) := by
      intro heq
      obtain ⟨rfl, rfl⟩ := Prod.mk.inj heq
      exact hused hunused'
    rw [hmade _ hne, hrecords, Map.save_of_ne hne]
    exact h.unused pool index' (hunused pool index' hunused')
  · intro key info' hinfo'
    simp [keepPayments, hinfo']
  · intro key info' hinfo'
    rw [hpaid]
    rw [hrecords, Map.save_apply] at hinfo'
    split at hinfo'
    · rename_i hkey
      have hle := h.paid (b, index)
      rw [hkey]
      omega
    · exact h.unpaid key info' hinfo'
  · intro id payout hid
    rw [hpayouts] at hid
    rw [h.amount id payout hid]
    congr 1
    apply List.map_congr_left
    rintro ⟨pool, index'⟩ hkey
    obtain ⟨rfl, hindex⟩ := mem_keys.mp hkey
    obtain ⟨old, hold, -⟩ := hc.owned id payout hid index' hindex
    refine (hmade _ fun heq => ?_).symm
    rw [heq] at hold
    cases hnone.symm.trans hold
  · intro key
    rw [hpaid]
    by_cases hkey : key = (b, index)
    · have hle := h.paid (b, index)
      rw [hkey]
      omega
    · rw [hmade key hkey]
      exact h.paid key

/-! ### Runs -/

structure InPayment (net : Network) (s : World × Payments) : Prop where
  sound : Sound net s.1
  traced : Traced s.1
  fresh : ∀ a p, s.1.store.pools a = some p → p.status = .registerEnded →
    Unstarted s.1 a p
  claimed : Claimed s.1
  booked : Booked s.1 s.2

theorem records_kept_of_request (hinv : InPayment net (w, books))
    (hstep : w.step net ev = some w')
    (hanswer : w.answeredPayout ev = none) (hmove : RequestMove w w') :
    Claimed w' ∧ Booked w' (keepPayments books w ev w') := by
  have hc : Claimed w := hinv.claimed
  have hb : Booked w books := hinv.booked
  have hunused : ∀ pool index, Unused w' pool index → Unused w pool index :=
    fun _ _ h => unused_of_step hinv.sound hstep h
  cases hmove with
  | made hp hrate hlimit hpools hrecords hindexes hpayouts =>
      have hnew := unused_next hp
      refine ⟨claimed_of_made hc rfl rfl hlimit (hb.unused _ _ hnew).1
        hrecords hindexes hpayouts,
        booked_of_made hc hb hanswer hnew ?_ hunused hrecords hpayouts⟩
      intro hagain
      rcases hagain _ (hpools ▸ Map.save_self) with hregistered | hless
      · exact hrate (hinv.fresh _ _ hp hregistered).rate
      · exact lt_irrefl _ hless
  | requested hfresh hpayouts hnodup hfree hamount hrecords hindexes =>
      refine ⟨claimed_of_requested hc hfresh hpayouts hnodup hfree hrecords
        hindexes, booked_of_old hb (record_updated hrecords).1 hunused
          (paid_of_request hanswer) ?_⟩
      intro other payout' hother
      rw [hpayouts, Map.save_apply] at hother
      split at hother
      · obtain rfl := Option.some.inj hother
        rw [hamount]
        congr 1
        apply List.map_congr_left
        rintro ⟨pool, index⟩ hkey
        obtain ⟨rfl, hindex⟩ := mem_keys.mp hkey
        obtain ⟨info, hinfo, -⟩ := hfree index hindex
        rw [hb.made _ info hinfo, Storage.amountAt, hinfo]
        rfl
      · exact hb.amount other payout' hother
  | kept hpayouts hsame =>
      exact ⟨claimed_of_kept hc hpayouts hsame,
        booked_of_old hb (.of_same hsame.records) hunused
          (paid_of_request hanswer) (hpayouts ▸ hb.amount)⟩

theorem records_kept (hinv : InPayment net (w, books))
    (hstep : w.step net ev = some w') (hmove : FairMove w ev w') :
    Claimed w' ∧ Booked w' (keepPayments books w ev w') := by
  have hc : Claimed w := hinv.claimed
  have hb : Booked w books := hinv.booked
  have hunused : ∀ pool index, Unused w' pool index → Unused w pool index :=
    fun _ _ h => unused_of_step hinv.sound hstep h
  cases hmove with
  | request hanswer hmove =>
      exact records_kept_of_request hinv hstep hanswer hmove
  | paid hanswer hpayouts hrecords hindexes =>
      have hid := waiting_of_answered hanswer
      exact ⟨claimed_of_paid hc hid hpayouts hrecords hindexes,
        booked_of_paid hc hb hanswer hunused hpayouts hrecords⟩
  | returned hanswer hfailed hpayouts hrecords hindexes =>
      have hid := waiting_of_answered hanswer
      refine ⟨claimed_of_returned hc hid hpayouts hrecords hindexes,
        booked_of_old hb (record_updated hrecords).1 hunused
          (paid_of_failed hanswer hfailed) ?_⟩
      intro other payout' hother
      exact hb.amount other payout' (waiting_of_removed hpayouts hother).2

/-- A record goes back to idle only when the withdrawal that lists it
fails. -/
theorem returned_of_fair (hc : Claimed w) (hb : Booked w books)
    (hmove : FairMove w ev w') {pool : String} {index : Nat}
    {info info' : UnstakeInfo}
    (hinfo : w.store.unstakesOfIndex (pool, index) = some info)
    (hinfo' : w'.store.unstakesOfIndex (pool, index) = some info')
    (hpending : info.status = .pending) (hidle : info'.status = .idle) :
    ∃ id answer payout, w.answeredPayout ev = some (id, answer, payout) ∧
      answer ≠ .success ∧ w.Claims info.unstaker pool index id := by
  have hchanged : w'.store.unstakesOfIndex (pool, index) ≠
      w.store.unstakesOfIndex (pool, index) := by
    intro hsame
    obtain rfl := Option.some.inj (hinfo.symm.trans (hsame.symm.trans hinfo'))
    cases hpending.symm.trans hidle
  cases hmove with
  | request hanswer hmove =>
      cases hmove with
      | made hp _ _ _ hrecords =>
          rw [hrecords, Map.save_apply] at hchanged
          split at hchanged
          · rename_i hkey
            rw [hkey] at hinfo
            cases (hb.unused _ _ (unused_next hp)).1.symm.trans hinfo
          · exact absurd rfl hchanged
      | requested _ _ _ _ _ hrecords =>
          rw [hrecords, Map.updateAll_apply] at hinfo' hchanged
          split at hinfo'
          · obtain ⟨_, -, rfl⟩ := Option.map_eq_some_iff.mp hinfo'
            cases hidle
          · rename_i hkey
            rw [if_neg hkey] at hchanged
            exact absurd rfl hchanged
      | kept _ hsame =>
          rw [hsame.records] at hchanged
          exact absurd rfl hchanged
  | paid _ _ hrecords =>
      rw [hrecords, Map.removeAll_apply] at hinfo' hchanged
      split at hinfo'
      · cases hinfo'
      · rename_i hkey
        rw [if_neg hkey] at hchanged
        exact absurd rfl hchanged
  | @returned id answer payout hanswer hfailed _ hrecords =>
      have hid := waiting_of_answered hanswer
      by_cases hkey : (pool, index) ∈ payout.keys
      · have hlists := lists_claimed.mpr ⟨payout, hid, hkey⟩
        exact ⟨id, answer, payout, hanswer, hfailed,
          (hc.lists_iff hinfo).mp hlists⟩
      · rw [hrecords, Map.updateAll_apply, if_neg hkey] at hchanged
        exact absurd rfl hchanged

/-- A record is removed only when the withdrawal that lists it succeeds. -/
theorem removed_of_fair (hc : Claimed w) (hmove : FairMove w ev w')
    {pool : String} {index : Nat} {info : UnstakeInfo}
    (hinfo : w.store.unstakesOfIndex (pool, index) = some info)
    (hnone : w'.store.unstakesOfIndex (pool, index) = none) :
    ∃ id payout, w.answeredPayout ev = some (id, .success, payout) ∧
      w.Claims info.unstaker pool index id := by
  have hlost : ¬ OldRecords w'.store w.store := by
    intro hback
    obtain ⟨_, hsome, -⟩ := hback _ _ hinfo
    cases hnone.symm.trans hsome
  cases hmove with
  | request _ hmove =>
      cases hmove with
      | made _ _ _ _ hrecords =>
          rw [hrecords, Map.save_apply] at hnone
          split at hnone
          · cases hnone
          · cases hinfo.symm.trans hnone
      | requested _ _ _ _ _ hrecords =>
          exact absurd (record_updated hrecords).2 hlost
      | kept _ hsame =>
          exact absurd (.of_same hsame.records.symm) hlost
  | @paid id payout hanswer _ hrecords =>
      have hid := waiting_of_answered hanswer
      by_cases hkey : (pool, index) ∈ payout.keys
      · have hlists := lists_claimed.mpr ⟨payout, hid, hkey⟩
        exact ⟨id, payout, hanswer, (hc.lists_iff hinfo).mp hlists⟩
      · rw [hrecords, Map.removeAll_apply, if_neg hkey] at hnone
        cases hinfo.symm.trans hnone
  | returned _ _ _ hrecords =>
      exact absurd (record_updated hrecords).2 hlost

theorem inPayment_genesis (net : Network) (block : BlockInfo)
    (info : MessageInfo) (lsdTokenCodeId : Nat) :
    InPayment net (genesis block info lsdTokenCodeId, Payments.none) := by
  refine ⟨sound_genesis net block info lsdTokenCodeId, ?_, ?_, ?_, ?_⟩
  · intro _ _ _ h
    cases h
  · intro _ _ h
    cases h
  · refine ⟨⟨fun key => ?_, ?_⟩, ?_, ?_, ?_⟩
    · constructor
      · intro h
        cases h
      · rintro ⟨_, _, h, -⟩
        cases h
    · rintro _ _ _ ⟨_, h, -⟩
      cases h
    · intro _ _ h
      cases h
    · intro _ _ h
      cases h
    · intro _ _ _ h
      cases h
  · refine ⟨fun _ _ _ => ⟨rfl, rfl⟩, ?_, ?_, ?_, fun _ => le_rfl⟩
    · intro _ _ h
      cases h
    · intro _ _ h
      cases h
    · intro _ _ h
      cases h

/-- In every run without a harmful receiver a record is reserved by one
withdrawal at a time, and paid at most once. -/
theorem paid_once {block : BlockInfo} {info : MessageInfo}
    {lsdTokenCodeId : Nat} {evs : List Event}
    (hplain : Transition.AllSteps
      (Transition.track (step net) keepPayments)
      (fun s ev _ => PlainReceiver s.1 ev)
      (genesis block info lsdTokenCodeId, Payments.none) evs) :
    Transition.AllSteps (Transition.track (step net) keepPayments) PaidOnce
      (genesis block info lsdTokenCodeId, Payments.none) evs := by
  refine Transition.AllSteps.of_invariant (InPayment net) ?_
    (inPayment_genesis net block info lsdTokenCodeId) hplain
  rintro ⟨w, books⟩ ev ⟨w', books'⟩ hinv hstep hcond
  obtain ⟨hworld, rfl⟩ := Transition.track_eq_some.mp hstep
  have hs : Sound net w := hinv.sound
  have hc : Claimed w := hinv.claimed
  have hb : Booked w books := hinv.booked
  have hmove := fair_of_claim_move hc
    (claim_move hs hinv.traced hworld) hcond
  obtain ⟨hc', hb'⟩ := records_kept hinv hworld hmove
  constructor
  · exact ⟨sound_step hs hworld, traced_step hs hworld hinv.traced,
      fun a => unstarted_step hs hworld (hinv.fresh a), hc', hb'⟩
  · exact ⟨fun _ _ _ hinfo => hc'.pending_iff hinfo,
      fun _ _ _ _ => returned_of_fair hc hb hmove,
      fun _ _ _ => removed_of_fair hc hmove, hb'.amount, hb'.paid⟩

end World

namespace Sample

/-- Two unstakes that are mature. -/
def twoRecords : List Event := setup ++ firstEra ++ [
  allowBurn 4 1000, unstake 4 200, unstake 4 300,
  call 4 (querier 0 [] 0) (.eraUpdate pool) (packetId 0)]

end Sample

namespace World

/-- A withdrawal fails, is made again, and both records are paid. -/
theorem paid_once_sample :
    let evs := Sample.twoRecords ++ [
      Sample.withdraw 4 "cosmos1user" [1] (Sample.packetId 6),
      Sample.withdraw 4 "cosmos1user_2" [2] (Sample.packetId 7),
      Sample.ack 4 .timeout (Sample.packetId 7),
      Sample.withdraw 4 "cosmos1user" [2] (Sample.packetId 8),
      Sample.ack 4 .success (Sample.packetId 6),
      Sample.ack 4 .success (Sample.packetId 8)]
    (Sample.run evs).isSome ∧
      Transition.AllSteps (Transition.track (step Sample.net) keepPayments)
        PaidOnce (Sample.genesis, Payments.none) evs :=
  ⟨by decide +kernel, paid_once (by decide +kernel)⟩

/-- The second withdrawal times out and its receiver sets back the record of
the first one, which is withdrawn again; both withdrawals succeed. -/
theorem paid_once_fails :
    ¬ Transition.AllSteps
      (Transition.track (step Sample.net) keepPayments) PaidOnce
      (Sample.genesis, Payments.none)
      (Sample.twoRecords ++ [
        Sample.withdraw 4 "cosmos1user" [1] (Sample.packetId 6),
        Sample.withdraw 4 "cosmos1user_1" [2] (Sample.packetId 7),
        Sample.ack 4 .timeout (Sample.packetId 7),
        Sample.withdraw 4 "cosmos1user" [1] (Sample.packetId 8),
        Sample.ack 4 .success (Sample.packetId 6),
        Sample.ack 4 .success (Sample.packetId 8)]) := by
  intro h
  have hpaid := h.mono (fun _ _ s' _ hstep => hstep.paid (Sample.pool, 1))
  revert hpaid
  decide +kernel

end World

end NeutronContracts
