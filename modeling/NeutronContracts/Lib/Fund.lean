/-
Shares of a fund at an integer rate.

A rate is the price of a share in units of `1 / scale`.  Shares are handed out
and taken back at the rate, every division rounds down, and the shares stay
covered: at the rate they are never worth more than the assets.
-/
import Mathlib.Data.Nat.Basic
import Mathlib.Tactic.Common

namespace Fund

/-- At the rate the shares are worth at most the assets. -/
def Covered (scale rate shares assets : Nat) : Prop :=
  rate * shares ≤ assets * scale

/-- The shares for a deposit. -/
def sharesFor (scale rate amount : Nat) : Nat := amount * scale / rate

/-- The worth of shares. -/
def worth (scale rate shares : Nat) : Nat := shares * rate / scale

/-- The rate at which shares are worth all assets. -/
def rateFor (scale shares assets : Nat) : Nat := assets * scale / shares

variable {scale rate shares assets : Nat}

theorem covered_zero (scale rate assets : Nat) :
    Covered scale rate 0 assets := by
  simp [Covered]

theorem Covered.deposit (h : Covered scale rate shares assets)
    (amount : Nat) :
    Covered scale rate (shares + sharesFor scale rate amount)
      (assets + amount) := by
  unfold Covered sharesFor at *
  rw [Nat.mul_add, Nat.add_mul]
  exact Nat.add_le_add h (Nat.mul_div_le _ _)

/-- Shares are never worth more than the assets that cover them. -/
theorem Covered.worth_le (h : Covered scale rate shares assets)
    {burned : Nat} (hburned : burned ≤ shares) :
    worth scale rate burned ≤ assets := by
  unfold Covered worth at *
  apply Nat.div_le_of_le_mul
  calc burned * rate ≤ shares * rate := Nat.mul_le_mul_right rate hburned
    _ = rate * shares := Nat.mul_comm _ _
    _ ≤ assets * scale := h
    _ = scale * assets := Nat.mul_comm _ _

theorem Covered.redeem (h : Covered scale rate shares assets)
    (burned : Nat) :
    Covered scale rate (shares - burned)
      (assets - worth scale rate burned) := by
  unfold Covered worth at *
  rw [Nat.mul_sub, Nat.sub_mul]
  have hpaid : burned * rate / scale * scale ≤ rate * burned := by
    rw [Nat.mul_comm rate]
    exact Nat.div_mul_le_self _ _
  omega

theorem covered_rateFor (scale shares assets : Nat) :
    Covered scale (rateFor scale shares assets) shares assets :=
  Nat.div_mul_le_self _ _

/-- Shares are covered at exactly the rates up to the one at which they are
worth all assets. -/
theorem covered_iff_le_rateFor (hshares : 0 < shares) :
    Covered scale rate shares assets ↔ rate ≤ rateFor scale shares assets :=
  (Nat.le_div_iff_mul_le hshares).symm

/-- The shares for a commission on a reward leave the others covered. -/
theorem Covered.reward {reward commission : Nat}
    (h : Covered scale rate shares assets) (hcommission : commission ≤ scale) :
    Covered scale rate (shares + reward * commission / rate)
      (assets + reward) := by
  unfold Covered at *
  have hfee : rate * (reward * commission / rate) ≤ reward * commission :=
    Nat.mul_div_le _ _
  have hless : reward * commission ≤ reward * scale :=
    Nat.mul_le_mul_left reward hcommission
  rw [Nat.mul_add, Nat.add_mul]
  omega

/-- A rate below one means fewer assets than shares. -/
theorem lt_of_rateFor_lt (h : rateFor scale shares assets < scale) :
    shares = 0 ∨ assets < shares := by
  rcases Nat.eq_zero_or_pos shares with hzero | hpos
  · exact .inl hzero
  · refine .inr (Nat.lt_of_not_le fun hle => ?_)
    have hrate : scale ≤ rateFor scale shares assets := by
      rw [rateFor, Nat.le_div_iff_mul_le hpos, Nat.mul_comm]
      exact Nat.mul_le_mul_right scale hle
    omega

/-- At a rate of one, covered shares are at most the assets. -/
theorem covered_one (hscale : 0 < scale) :
    Covered scale scale shares assets ↔ shares ≤ assets := by
  rw [Covered, Nat.mul_comm assets]
  exact Nat.mul_le_mul_left_iff hscale

/-! ### Trading at one rate -/

/-- What a trader has paid in, holds in shares and was paid out. -/
structure Trader where
  paid : Nat
  held : Nat
  received : Nat

/-- Shares are bought for a deposit, sold for at most their worth, or lost. -/
inductive Trade (scale rate : Nat) : Trader → Trader → Prop
  | buy {t : Trader} {amount held : Nat}
      (hheld : held ≤ t.held + sharesFor scale rate amount) :
      Trade scale rate t ⟨t.paid + amount, held, t.received⟩
  | sell {t : Trader} {sold held payout : Nat} (hheld : held + sold ≤ t.held)
      (hpayout : payout ≤ worth scale rate sold) :
      Trade scale rate t ⟨t.paid, held, t.received + payout⟩
  | lose {t : Trader} {held : Nat} (hheld : held ≤ t.held) :
      Trade scale rate t ⟨t.paid, held, t.received⟩

/-- What was paid out and what is still held is worth at most what was paid
in. -/
def Trader.Even (scale rate : Nat) (t : Trader) : Prop :=
  t.received * scale + t.held * rate ≤ t.paid * scale

theorem Trade.even {t t' : Trader} (h : Trade scale rate t t')
    (heven : t.Even scale rate) : t'.Even scale rate := by
  unfold Trader.Even at *
  cases h with
  | @buy amount held hheld =>
      have hshares : sharesFor scale rate amount * rate ≤ amount * scale :=
        Nat.div_mul_le_self _ _
      have hworth := Nat.mul_le_mul_right rate hheld
      simp only [Nat.add_mul] at hworth ⊢
      omega
  | @sell sold held payout hheld hpayout =>
      have hpaid : worth scale rate sold * scale ≤ sold * rate :=
        Nat.div_mul_le_self _ _
      have hout := Nat.mul_le_mul_right scale hpayout
      have hworth := Nat.mul_le_mul_right rate hheld
      simp only [Nat.add_mul] at hworth ⊢
      omega
  | @lose held hheld =>
      have hworth := Nat.mul_le_mul_right rate hheld
      dsimp only
      omega

/-- Trading at one rate makes no profit. -/
theorem Trader.Even.received_le {t : Trader} (hscale : 0 < scale)
    (h : t.Even scale rate) : t.received ≤ t.paid := by
  unfold Trader.Even at h
  exact Nat.le_of_mul_le_mul_right (Nat.le_of_add_right_le h) hscale

end Fund
