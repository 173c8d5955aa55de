/-
A store over pairs beside a copy with the pairs turned round, and the pages
of entries that a range over a store returns.
-/
import NeutronContracts.Lib.KeyValue
import Mathlib.Data.Finset.Sort
import Mathlib.Data.Set.Finite.Lattice

universe u v w

/-! ### Edits -/

/-- One change of a store. -/
inductive Map.Edit (K : Type u) (V : Type v)
  | keep
  | save (key : K) (value : V)
  | remove (key : K)

namespace Map

variable {A : Type u} {B : Type w} {K : Type u} {V : Type v}

def Edit.apply [DecidableEq K] (m : Map K V) : Edit K V → Map K V
  | keep => m
  | save key value => m.save key value
  | remove key => m.remove key

/-- The same change under the turned key. -/
def Edit.swap : Edit (A × B) V → Edit (B × A) V
  | keep => .keep
  | save key value => .save key.swap value
  | remove key => .remove key.swap

/-- The second store holds the entries of the first under turned keys. -/
def Mirrors (m : Map (A × B) V) (copy : Map (B × A) V) : Prop :=
  ∀ a b, m (a, b) = copy (b, a)

/-- The keys with an entry. -/
def stored (m : Map K V) : Set K := { key | m key ≠ none }

theorem Mirrors.stored_finite {m : Map (A × B) V} {copy : Map (B × A) V}
    (h : m.Mirrors copy) (hfinite : m.stored.Finite) : copy.stored.Finite := by
  refine (hfinite.preimage Prod.swap_injective.injOn).subset ?_
  intro key hkey
  exact (h key.2 key.1).trans_ne hkey

section

variable [DecidableEq A] [DecidableEq B] [DecidableEq K]
  {m : Map (A × B) V} {copy : Map (B × A) V}

theorem Mirrors.save (h : m.Mirrors copy) (key : A × B) (value : V) :
    (m.save key value).Mirrors (copy.save key.swap value) := by
  intro a b
  rw [save_apply, save_apply, h a b]
  simp [Prod.ext_iff, and_comm]

theorem Mirrors.remove (h : m.Mirrors copy) (key : A × B) :
    (m.remove key).Mirrors (copy.remove key.swap) := by
  intro a b
  rw [remove_apply, remove_apply, h a b]
  simp [Prod.ext_iff, and_comm]

/-- The same change on both sides keeps them alike. -/
theorem Mirrors.edit (h : m.Mirrors copy) (edit : Edit (A × B) V) :
    (edit.apply m).Mirrors (edit.swap.apply copy) := by
  cases edit with
  | keep => exact h
  | save key value => exact h.save key value
  | remove key => exact h.remove key

theorem stored_edit {m : Map K V} (h : m.stored.Finite) (edit : Edit K V) :
    (edit.apply m).stored.Finite := by
  cases edit with
  | keep => exact h
  | save key value =>
      refine (h.insert key).subset fun other hother => ?_
      by_cases heq : other = key
      · exact .inl heq
      · have hkept : m.save key value other = m other := save_of_ne heq
        exact .inr fun hnone => hother (hkept.trans hnone)
  | remove key =>
      refine h.subset fun other hother hnone => hother ?_
      by_cases heq : other = key
      · rw [heq]
        exact remove_self
      · exact (remove_of_ne heq).trans hnone

end

/-! ### Ranges -/

/-- The entries of a store in some order. -/
structure Entries (m : Map K V) where
  list : List (K × V)
  complete : ∀ key value, (key, value) ∈ list ↔ m key = some value

/-- The entries of a store by ascending keys. -/
structure Range [LT K] (m : Map K V) extends Entries m where
  sorted : list.Pairwise fun entry later => entry.1 < later.1

/-- The entries after a key, at most `limit` of them. -/
def Range.page [LT K] [DecidableLT K] {m : Map K V} (range : Range m)
    (startAfter : Option K) (limit : Nat) : List (K × V) :=
  (range.list.filter fun entry =>
    startAfter.all fun start => decide (start < entry.1)).take limit

/-- Write every entry of a list to a store. -/
def saveAll [DecidableEq K] (m : Map K V) (list : List (K × V)) : Map K V :=
  list.foldl (fun m entry => m.save entry.1 entry.2) m

/-- The part of a store under one first key. -/
def under (m : Map (A × B) V) (a : A) : Map B V := fun b => m (a, b)

theorem stored_under {m : Map (A × B) V} (h : m.stored.Finite) (a : A) :
    (m.under a).stored.Finite :=
  h.preimage (Prod.mk_right_injective a).injOn

/-- The entries of a store under keys in a list. -/
def entriesAt (m : Map K V) (keys : List K) : List (K × V) :=
  keys.filterMap fun key => (m key).map (key, ·)

theorem mem_entriesAt {m : Map K V} {keys : List K} {key : K} {value : V} :
    (key, value) ∈ m.entriesAt keys ↔ key ∈ keys ∧ m key = some value := by
  simp only [entriesAt, List.mem_filterMap, Option.map_eq_some_iff,
    Prod.mk.injEq]
  constructor
  · rintro ⟨_, hmem, _, hvalue, rfl, rfl⟩
    exact ⟨hmem, hvalue⟩
  · rintro ⟨hmem, hvalue⟩
    exact ⟨key, hmem, value, hvalue, rfl, rfl⟩

theorem exists_entries {m : Map K V} (h : m.stored.Finite) :
    Nonempty (Entries m) := by
  refine ⟨⟨m.entriesAt h.toFinset.toList, fun key value => ?_⟩⟩
  rw [mem_entriesAt, and_iff_right_of_imp]
  intro hvalue
  simp [stored, hvalue]

/-- A store with finitely many entries has a range. -/
theorem exists_range [LinearOrder K] {m : Map K V} (h : m.stored.Finite) :
    Nonempty (Range m) := by
  have hsorted : (h.toFinset.sort (· ≤ ·)).Pairwise (· < ·) :=
    h.toFinset.sortedLT_sort.pairwise
  refine ⟨{ list := m.entriesAt (h.toFinset.sort (· ≤ ·)),
            complete := fun key value => ?_, sorted := ?_ }⟩
  · rw [mem_entriesAt, and_iff_right_of_imp]
    intro hvalue
    simp [stored, hvalue]
  · refine List.pairwise_filterMap.mpr (hsorted.imp ?_)
    intro key later hlt entry hentry entry' hentry'
    obtain ⟨_, -, rfl⟩ := Option.map_eq_some_iff.mp hentry
    obtain ⟨_, -, rfl⟩ := Option.map_eq_some_iff.mp hentry'
    exact hlt

/-- Writing what a store holds already changes nothing. -/
theorem saveAll_eq_self [DecidableEq K] {m : Map K V} {list : List (K × V)}
    (h : ∀ entry ∈ list, m entry.1 = some entry.2) : m.saveAll list = m := by
  induction list with
  | nil => rfl
  | cons entry rest ih =>
      have hrest := ih fun other hother =>
        h other (List.mem_cons_of_mem _ hother)
      calc m.saveAll (entry :: rest)
          = (m.save entry.1 entry.2).saveAll rest := rfl
        _ = m.saveAll rest := by rw [save_eq_self (h entry List.mem_cons_self)]
        _ = m := hrest

theorem Range.mem_of_page [LT K] [DecidableLT K] {m : Map K V}
    {range : Range m} {startAfter : Option K} {limit : Nat} {key : K}
    {value : V} (h : (key, value) ∈ range.page startAfter limit) :
    m key = some value := by
  have hmem := List.mem_of_mem_filter (List.mem_of_mem_take h)
  exact (range.complete key value).mp hmem

/-- Every entry heads the page after the key before it. -/
theorem Range.exists_page [LinearOrder K] {m : Map K V} (range : Range m)
    {key : K} {value : V} (h : m key = some value) :
    ∃ startAfter, (key, value) ∈ range.page startAfter 1 := by
  obtain ⟨before, after, hlist⟩ :=
    List.append_of_mem ((range.complete key value).mpr h)
  have hsorted := range.sorted
  rw [hlist, List.pairwise_append] at hsorted
  obtain ⟨hbefore, -, hcross⟩ := hsorted
  rcases List.eq_nil_or_concat before with rfl | ⟨front, last, rfl⟩
  · exact ⟨none, by simp [page, hlist]⟩
  · refine ⟨some last.1, ?_⟩
    rw [List.concat_eq_append, List.pairwise_append] at hbefore
    have hpassed :
        front.filter (fun entry => decide (last.1 < entry.1)) = [] := by
      refine List.filter_eq_nil_iff.mpr fun entry hentry => ?_
      simpa using (hbefore.2.2 entry hentry last (by simp)).le
    have hnext : last.1 < key :=
      hcross last (by simp) (key, value) List.mem_cons_self
    simp [page, hlist, hpassed, hnext]

end Map
