/-
Dividing by a number that was rounded down.

A quotient `n * base / d` can be computed as `n / (d / base)`, without the
large product.  The divisor is then too small by what the first division cuts
off, so the result can be too large: it is not only as far as the remainder of
the second division makes up for what was cut off.
-/
import Mathlib.Data.Nat.Basic
import Mathlib.Tactic.Common

namespace Truncation

variable {base n d : Nat}

/-- The remainder of the division by the rounded divisor makes up for what
rounding has cut off. -/
def Absorbed (base n d : Nat) : Prop :=
  (n - n % (d / base)) * (d % base) ≤ n % (d / base) * (d / base) * base

/-- Nothing has to be made up for when nothing is cut off. -/
theorem absorbed_of_dvd (h : base ∣ d) : Absorbed base n d := by
  rw [Absorbed, Nat.mod_eq_zero_of_dvd h, Nat.mul_zero]
  exact Nat.zero_le _

/-- The quotient by the rounded divisor is not too large exactly when the
remainder makes up for the rounding. -/
theorem truncated_le_iff (hd : base ≤ d) (hbase : 0 < base) :
    n / (d / base) ≤ n * base / d ↔ Absorbed base n d := by
  have hpos : 0 < d / base := Nat.div_pos hd hbase
  have hdpos : 0 < d := Nat.lt_of_lt_of_le hbase hd
  have hn : n / (d / base) * (d / base) + n % (d / base) = n := by
    rw [Nat.mul_comm]
    exact Nat.div_add_mod n (d / base)
  have hdiv : d / base * base + d % base = d := by
    rw [Nat.mul_comm]
    exact Nat.div_add_mod d base
  rw [Nat.le_div_iff_mul_le hdpos, Absorbed]
  generalize hquot : d / base = quot at *
  generalize hrest : d % base = rest at *
  generalize hk : n / quot = k at *
  generalize hm : n % quot = m at *
  have hcut : n - m = k * quot := by omega
  rw [hcut, ← hn, ← hdiv]
  constructor
  · intro h
    have hle : k * rest ≤ m * base := by
      simp only [Nat.mul_add, Nat.add_mul, Nat.mul_assoc] at h
      omega
    calc k * quot * rest = k * rest * quot := Nat.mul_right_comm _ _ _
      _ ≤ m * base * quot := Nat.mul_le_mul_right _ hle
      _ = m * quot * base := Nat.mul_right_comm _ _ _
  · intro h
    have hle : k * rest ≤ m * base := by
      refine Nat.le_of_mul_le_mul_right ?_ hpos
      rw [Nat.mul_right_comm k rest, Nat.mul_right_comm m base]
      exact h
    simp only [Nat.mul_add, Nat.add_mul, Nat.mul_assoc]
    omega

end Truncation
