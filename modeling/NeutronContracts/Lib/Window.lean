/-
The times of the latest events of a kind, of which only a limited number may
be recent.  A visit forgets the oldest time when it has expired; that one time
for each visit is enough as long as the number never exceeds the limit.
-/
import Mathlib.Data.Nat.Basic

namespace Window

/-- Forget the oldest time when more than `period` has passed since then. -/
def expire (now period : Nat) : List Nat → List Nat
  | [] => []
  | oldest :: later =>
      if oldest + period < now then later else oldest :: later

/-- At most `limit` times, the oldest first and none later than `now`. -/
structure Valid (limit now : Nat) (times : List Nat) : Prop where
  sorted : times.Pairwise (· ≤ ·)
  short : times.length ≤ limit
  past : ∀ t ∈ times, t ≤ now

variable {limit now now' period : Nat} {times later history : List Nat}

theorem expire_sublist (now period : Nat) (times : List Nat) :
    (expire now period times).Sublist times := by
  cases times with
  | nil => exact List.Sublist.refl []
  | cons oldest later =>
      rw [expire]
      split
      · exact List.sublist_cons_self oldest later
      · exact List.Sublist.refl _

theorem valid_nil (limit now : Nat) : Valid limit now [] :=
  ⟨List.Pairwise.nil, Nat.zero_le limit, nofun⟩

theorem Valid.sublist (h : Valid limit now times)
    (hsub : later.Sublist times) : Valid limit now later :=
  ⟨h.sorted.sublist hsub, Nat.le_trans hsub.length_le h.short,
    fun t ht => h.past t (hsub.subset ht)⟩

theorem Valid.mono (h : Valid limit now times) (hle : now ≤ now') :
    Valid limit now' times :=
  ⟨h.sorted, h.short, fun t ht => Nat.le_trans (h.past t ht) hle⟩

/-- A new event is the latest one. -/
theorem Valid.concat (h : Valid limit now times)
    (hroom : times.length < limit) : Valid limit now (times ++ [now]) := by
  refine ⟨?_, ?_, ?_⟩
  · rw [List.pairwise_append]
    refine ⟨h.sorted, List.pairwise_singleton _ _, fun t ht s hs => ?_⟩
    obtain rfl := List.mem_singleton.mp hs
    exact h.past t ht
  · rw [List.length_append, List.length_singleton]
    exact hroom
  · intro t ht
    rcases List.mem_append.mp ht with hold | hnew
    · exact h.past t hold
    · exact Nat.le_of_eq (List.mem_singleton.mp hnew)

/-- When a visit finds no room, nothing has expired. -/
theorem Valid.recent {t : Nat} (h : Valid limit now times) (hpos : 0 < limit)
    (hfull : limit ≤ (expire t period times).length) :
    limit ≤ times.length ∧ ∀ s ∈ times, t ≤ s + period := by
  have hshort := h.short
  cases times with
  | nil => exact absurd (Nat.lt_of_lt_of_le hpos hfull) (Nat.lt_irrefl 0)
  | cons oldest later =>
      rw [expire] at hfull
      split at hfull
      case isTrue =>
          rw [List.length_cons] at hshort
          omega
      case isFalse hlive =>
          refine ⟨hfull, fun s hs => ?_⟩
          have holdest : oldest ≤ s := by
            rcases List.mem_cons.mp hs with rfl | hlater
            · exact le_rfl
            · exact (List.pairwise_cons.mp h.sorted).1 s hlater
          omega

/-- Then as many events as the limit allows have happened recently. -/
theorem Valid.recent_history {t : Nat} (h : Valid limit now times)
    (hpos : 0 < limit) (hfull : limit ≤ (expire t period times).length)
    (hsub : times.Sublist history) :
    limit ≤ history.countP fun s => decide (t ≤ s + period) := by
  obtain ⟨hlength, hrecent⟩ := h.recent hpos hfull
  calc limit
      ≤ times.length := hlength
    _ = times.countP fun s => decide (t ≤ s + period) := by
        refine (List.countP_eq_length.mpr fun s hs => ?_).symm
        exact decide_eq_true (hrecent s hs)
    _ ≤ history.countP fun s => decide (t ≤ s + period) := hsub.countP_le

end Window
