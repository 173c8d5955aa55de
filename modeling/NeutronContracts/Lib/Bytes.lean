/-
Numbers and texts as bytes: a number of fixed width can be read back from its
bytes, and so can a text, but two texts that stand side by side only together.
-/
import Mathlib.Algebra.Order.Ring.Int
import Mathlib.Data.List.Basic
import Mathlib.Tactic.Common

namespace Bytes

/-- The last `width` bytes of a number, the most significant one first. -/
def bigEndian : Nat → Nat → List UInt8
  | 0, _ => []
  | width + 1, n => bigEndian width (n / 256) ++ [UInt8.ofNat n]

theorem length_bigEndian (width n : Nat) :
    (bigEndian width n).length = width := by
  induction width generalizing n with
  | zero => rfl
  | succ width ih => simp [bigEndian, ih]

/-- A number that fits the width is determined by its bytes. -/
theorem bigEndian_inj {width a b : Nat} (ha : a < 256 ^ width)
    (hb : b < 256 ^ width) :
    bigEndian width a = bigEndian width b ↔ a = b := by
  induction width generalizing a b with
  | zero =>
      rw [Nat.pow_zero, Nat.lt_one_iff] at ha hb
      simp [ha, hb]
  | succ width ih =>
      rw [Nat.pow_succ] at ha hb
      have hlow : UInt8.ofNat a = UInt8.ofNat b ↔ a % 256 = b % 256 := by
        rw [← UInt8.toNat_inj, UInt8.toNat_ofNat', UInt8.toNat_ofNat']
      have hhigh := ih (a := a / 256) (b := b / 256)
        (Nat.div_lt_of_lt_mul (by omega)) (Nat.div_lt_of_lt_mul (by omega))
      constructor
      · intro h
        obtain ⟨hfirst, hlast⟩ := List.append_inj h (by
          rw [length_bigEndian, length_bigEndian])
        have hquot := hhigh.mp hfirst
        have hrem := hlow.mp (List.cons.inj hlast).1
        omega
      · rintro rfl
        rfl

/-- The UTF-8 form of a text. -/
def ofText (s : String) : List UInt8 := s.toByteArray.data.toList

theorem ofText_append (s t : String) :
    ofText (s ++ t) = ofText s ++ ofText t := by
  simp [ofText]

theorem ofText_inj {s t : String} : ofText s = ofText t ↔ s = t := by
  rw [ofText, ofText, ← String.toByteArray_inj, Array.toList_inj]
  exact ⟨ByteArray.ext, congrArg _⟩

end Bytes
