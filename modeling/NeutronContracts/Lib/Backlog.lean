/-
Entries that are announced before they arrive.

A store with a limit takes entries that are announced first and arrive later,
in any order, or never.  It does not overflow when every announcement counts
the entries that are still expected along with those that are there.
-/
import Mathlib.Data.Finset.Card
import Mathlib.Tactic.Common

universe u

/-- The number of entries, the announced ones that are still expected, and
how many entries there may be. -/
structure Backlog (Id : Type u) where
  stored : Nat
  expected : Finset Id
  limit : Nat

namespace Backlog

variable {Id : Type u}

/-- There is room for all entries, also for those that are expected. -/
def Fits (b : Backlog Id) : Prop := b.stored + b.expected.card ≤ b.limit

/-- There is room for one more. -/
def HasRoom (b : Backlog Id) : Prop := b.stored + b.expected.card < b.limit

instance (b : Backlog Id) : Decidable b.Fits :=
  inferInstanceAs (Decidable (_ ≤ _))

instance (b : Backlog Id) : Decidable b.HasRoom :=
  inferInstanceAs (Decidable (_ < _))

variable {b b' : Backlog Id}

theorem Fits.stored_le (h : b.Fits) : b.stored ≤ b.limit :=
  (Nat.le_add_right _ _).trans h

variable [DecidableEq Id]

/-- The moves of a store whose limit is never lowered: an entry is announced
or arrives, entries leave or are no longer expected, or the store starts
anew. -/
inductive Move (b b' : Backlog Id) : Prop
  | announce {id : Id} (hroom : b.HasRoom) (hstored : b'.stored ≤ b.stored)
      (hexpected : b'.expected = insert id b.expected)
      (hlimit : b.limit ≤ b'.limit)
  | arrive {id : Id} (hid : id ∈ b.expected)
      (hstored : b'.stored ≤ b.stored + 1)
      (hexpected : b'.expected = b.expected.erase id)
      (hlimit : b.limit ≤ b'.limit)
  | settle (hstored : b'.stored ≤ b.stored)
      (hexpected : b'.expected ⊆ b.expected) (hlimit : b.limit ≤ b'.limit)
  | start (hstored : b'.stored ≤ b'.limit) (hexpected : b'.expected = ∅)

/-- An entry that arrives takes the room that was kept for it. -/
theorem Fits.move (h : b.Fits) (hmove : Move b b') : b'.Fits := by
  cases hmove with
  | announce hroom hstored hexpected hlimit =>
      rename_i id
      unfold Fits
      calc b'.stored + b'.expected.card
          ≤ b.stored + (b.expected.card + 1) := by
            rw [hexpected]
            exact Nat.add_le_add hstored (Finset.card_insert_le id _)
        _ ≤ b.limit := hroom
        _ ≤ b'.limit := hlimit
  | arrive hid hstored hexpected hlimit =>
      unfold Fits
      calc b'.stored + b'.expected.card
          ≤ b.stored + 1 + b'.expected.card := Nat.add_le_add_right hstored _
        _ = b.stored + (b'.expected.card + 1) := by omega
        _ = b.stored + b.expected.card := by
            rw [hexpected, Finset.card_erase_add_one hid]
        _ ≤ b.limit := h
        _ ≤ b'.limit := hlimit
  | settle hstored hexpected hlimit =>
      have hsmaller := Nat.add_le_add hstored (Finset.card_le_card hexpected)
      exact (hsmaller.trans h).trans hlimit
  | start hstored hexpected =>
      unfold Fits
      rw [hexpected, Finset.card_empty]
      exact hstored

end Backlog
