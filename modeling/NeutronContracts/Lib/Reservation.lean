/-
Items that are reserved by batches.

A batch takes a list of items at once.  While it is outstanding its items are
reserved; when it ends, they are all given back or all used up.  As long as a
batch never takes an item that is reserved, and gives back or uses up no item
that another batch lists, an item is reserved exactly while one batch lists
it.
-/
import NeutronContracts.Lib.KeyValue

namespace Reservation

universe u v

variable {K : Type u} {I : Type v}

/-- The outstanding batch `id` lists the item. -/
def Lists (batches : Map I (List K)) (id : I) (key : K) : Prop :=
  ∃ keys, batches id = some keys ∧ key ∈ keys

/-- An item is reserved exactly when a batch lists it, and no two batches list
the same item.  The items are marked with `true` while they are reserved. -/
structure Consistent (items : Map K Bool) (batches : Map I (List K)) :
    Prop where
  held : ∀ key, items key = some true ↔ ∃ id, Lists batches id key
  apart : ∀ id id' key, Lists batches id key → Lists batches id' key → id = id'

variable {items : Map K Bool} {batches : Map I (List K)} {id : I} {key : K}
  {keys : List K}

/-- A reserved item is listed by exactly one batch. -/
theorem Consistent.unique (h : Consistent items batches) :
    items key = some true ↔ ∃! id, Lists batches id key := by
  rw [h.held]
  constructor
  · rintro ⟨id, hid⟩
    exact ⟨id, hid, fun other hother => h.apart other id key hother hid⟩
  · rintro ⟨id, hid, -⟩
    exact ⟨id, hid⟩

section

variable [DecidableEq I]

theorem lists_save {other : I} :
    Lists (batches.save id keys) other key ↔
      other = id ∧ key ∈ keys ∨ other ≠ id ∧ Lists batches other key := by
  unfold Lists
  rw [Map.save_apply]
  by_cases hother : other = id <;> simp [hother]

theorem lists_remove {other : I} :
    Lists (batches.remove id) other key ↔
      other ≠ id ∧ Lists batches other key := by
  unfold Lists
  rw [Map.remove_apply]
  by_cases hother : other = id <;> simp [hother]

/-- Once the batch has ended, an item is listed exactly when it was, but not
by this batch. -/
theorem Consistent.listed_remove (h : Consistent items batches)
    (hid : batches id = some keys) :
    (∃ other, Lists (batches.remove id) other key) ↔
      items key = some true ∧ key ∉ keys := by
  simp only [lists_remove, h.held]
  constructor
  · rintro ⟨other, hne, hother⟩
    exact ⟨⟨other, hother⟩, fun hkey =>
      hne (h.apart other id key hother ⟨keys, hid, hkey⟩)⟩
  · rintro ⟨⟨other, hother⟩, hkey⟩
    refine ⟨other, ?_, hother⟩
    rintro rfl
    obtain ⟨keys', hkeys', hmem⟩ := hother
    obtain rfl := Option.some.inj (hid.symm.trans hkeys')
    exact hkey hmem

theorem Consistent.apart_remove (h : Consistent items batches)
    (other other' : I) (hother : Lists (batches.remove id) other key)
    (hother' : Lists (batches.remove id) other' key) : other = other' :=
  h.apart other other' key (lists_remove.mp hother).2
    (lists_remove.mp hother').2

end

variable [DecidableEq K]

/-- A new item is free. -/
theorem Consistent.add (h : Consistent items batches)
    (hnew : items key = none) : Consistent (items.save key false) batches where
  held other := by
    rw [← h.held, Map.save_apply]
    split
    · rename_i hother
      simp [hother, hnew]
    · rfl
  apart := h.apart

variable [DecidableEq I]

/-- A new batch takes free items. -/
theorem Consistent.reserve (h : Consistent items batches)
    (hfree : ∀ key ∈ keys, items key = some false)
    (hid : batches id = none) :
    Consistent (items.updateAll (fun _ => true) keys)
      (batches.save id keys) := by
  have hunlisted : ∀ other key, key ∈ keys → ¬ Lists batches other key := by
    intro other key hkey hother
    have hreserved := (h.held key).mpr ⟨other, hother⟩
    rw [hfree key hkey] at hreserved
    cases hreserved
  refine ⟨fun key => ?_, fun first second key hfirst hsecond => ?_⟩
  · rw [Map.updateAll_apply]
    simp only [lists_save]
    split
    case isTrue hkey =>
      simp only [hfree key hkey, Option.map_some, true_iff]
      exact ⟨id, .inl ⟨rfl, hkey⟩⟩
    case isFalse hkey =>
      rw [h.held]
      constructor
      · rintro ⟨other, hother⟩
        refine ⟨other, .inr ⟨?_, hother⟩⟩
        rintro rfl
        obtain ⟨_, hsome, -⟩ := hother
        cases hid.symm.trans hsome
      · rintro ⟨other, ⟨-, hmem⟩ | ⟨-, hother⟩⟩
        · exact absurd hmem hkey
        · exact ⟨other, hother⟩
  · rcases lists_save.mp hfirst with ⟨hnew, hkey⟩ | ⟨-, hold⟩
    · rcases lists_save.mp hsecond with ⟨hnew', -⟩ | ⟨-, hold'⟩
      · rw [hnew, hnew']
      · exact absurd hold' (hunlisted second key hkey)
    · rcases lists_save.mp hsecond with ⟨-, hkey⟩ | ⟨-, hold'⟩
      · exact absurd hold (hunlisted first key hkey)
      · exact h.apart first second key hold hold'

/-- A batch ends and its items are given back, with others that were free. -/
theorem Consistent.release {freed : List K} (h : Consistent items batches)
    (hid : batches id = some keys) (hall : ∀ key ∈ keys, key ∈ freed)
    (hfree : ∀ key ∈ freed, items key = some true → key ∈ keys) :
    Consistent (items.updateAll (fun _ => false) freed)
      (batches.remove id) where
  held key := by
    rw [h.listed_remove hid, Map.updateAll_apply]
    split
    case isTrue hkey =>
      simp only [Option.map_eq_some_iff, Bool.false_eq_true, and_false,
        exists_false, false_iff, not_and, not_not]
      exact hfree key hkey
    case isFalse hkey =>
      exact (and_iff_left fun hmem => hkey (hall key hmem)).symm
  apart other other' _ := h.apart_remove other other'

/-- A batch ends and its items are used up. -/
theorem Consistent.consume {used : List K} (h : Consistent items batches)
    (hid : batches id = some keys) (hused : ∀ key, key ∈ used ↔ key ∈ keys) :
    Consistent (items.removeAll used) (batches.remove id) where
  held key := by
    rw [h.listed_remove hid, Map.removeAll_apply]
    by_cases hkey : key ∈ keys
    · simp [hkey, (hused key).mpr hkey]
    · simp [hkey, mt (hused key).mp hkey]
  apart other other' _ := h.apart_remove other other'

end Reservation
