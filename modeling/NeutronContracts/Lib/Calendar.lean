/-
A clock that is divided into periods of one length.  The periods are numbered
from an offset, so that the length can change while the number of the current
period stays the same.
-/
import Mathlib.Algebra.Order.Floor.Div

namespace Calendar

/-- The number of the period that the time `t` falls in. -/
def number (length : Nat) (offset : Int) (t : Nat) : Int :=
  (t / length : Nat) + offset

variable {length : Nat} {offset : Int} {s t : Nat}

theorem number_mono (h : s ≤ t) :
    number length offset s ≤ number length offset t := by
  have hdiv : s / length ≤ t / length := Nat.div_le_div_right h
  unfold number
  omega

/-- Periods do not begin faster than the clock runs. -/
theorem number_le_add (hlength : 0 < length) (h : s ≤ t) :
    number length offset t ≤ number length offset s + (t - s : Nat) := by
  have hdiv : t / length ≤ s / length + (t - s) := by
    calc t / length
        ≤ (s + (t - s) * length) / length := by
          refine Nat.div_le_div_right ?_
          have hle : t - s ≤ (t - s) * length :=
            Nat.le_mul_of_pos_right _ hlength
          omega
      _ = s / length + (t - s) := Nat.add_mul_div_right _ _ hlength
  unfold number
  omega

/-- When `n + 1` periods have begun since `s`, then `n` whole periods have
passed. -/
theorem add_mul_lt (hlength : 0 < length) {n : Nat}
    (h : number length offset s + (n + 1 : Nat) ≤ number length offset t) :
    s + n * length < t := by
  have hdiv : s / length + 1 + n ≤ t / length := by
    unfold number at h
    omega
  calc s + n * length
      < (s / length + 1) * length + n * length := by
        have hnext := Nat.lt_mul_div_succ s hlength
        rw [Nat.mul_comm] at hnext
        omega
    _ = (s / length + 1 + n) * length := (Nat.add_mul _ _ _).symm
    _ ≤ t / length * length := Nat.mul_le_mul_right _ hdiv
    _ ≤ t := Nat.div_mul_le_self _ _

/-- A span that is rounded up to whole periods, with one more period for the
one that has already begun, is over when that many periods have begun. -/
theorem add_span_lt (hlength : 0 < length) {span : Nat}
    (h : number length offset s +
        ((span + length - 1) / length + 1 : Nat) ≤ number length offset t) :
    s + span < t := by
  have hpassed := add_mul_lt hlength h
  have hceil : span ≤ length • (span ⌈/⌉ length) := le_smul_ceilDiv hlength
  rw [Nat.ceilDiv_eq_add_pred_div, smul_eq_mul, Nat.mul_comm] at hceil
  omega

/-! ### Another length -/

/-- With the offset that makes up for the difference, the current period keeps
its number. -/
theorem number_realigned (length : Nat) (n : Int) (t : Nat) :
    number length (n - (t / length : Nat)) t = n := by
  unfold number
  omega

/-- The time `s` is not numbered beyond `m` when at least as many periods of
the new length have begun since `s` as are counted since `m`. -/
theorem number_realigned_le {n m : Nat}
    (h : n + s / length ≤ m + t / length) :
    number length (n - (t / length : Nat)) s ≤ m := by
  unfold number
  omega

end Calendar
