/-
What the contracts share: coins, the data of a call, and the integers of the
CosmWasm standard library, whose operators abort the call on overflow.
-/
import NeutronContracts.Lib.Fallible
import NeutronContracts.Lib.KeyValue
import NeutronContracts.Lib.Text

namespace NeutronContracts

open Fallible

/-- An amount of one denomination. -/
structure Coin where
  denom : String
  amount : Nat
deriving DecidableEq, Repr

/-- The amount of one denom in a list of coins. -/
def amountOf (denom : String) (coins : List Coin) : Nat :=
  (coins.map fun coin => if coin.denom = denom then coin.amount else 0).sum

@[simp] theorem amountOf_append (denom : String) (first second : List Coin) :
    amountOf denom (first ++ second) =
      amountOf denom first + amountOf denom second := by
  simp [amountOf]

/-- The order of the coins does not matter. -/
theorem amountOf_perm {first second : List Coin} (h : first.Perm second)
    (denom : String) : amountOf denom first = amountOf denom second :=
  (h.map _).sum_nat

/-- The block in which a call is executed; the time is in nanoseconds. -/
structure BlockInfo where
  height : Nat
  time : Nat

/-- `block.time.seconds()` -/
def BlockInfo.seconds (block : BlockInfo) : Nat := block.time / 1000000000

structure Env where
  block : BlockInfo
  contractAddress : String

structure MessageInfo where
  sender : String
  funds : List Coin

/-- Errors with a value for an aborted execution. -/
class Panics (ε : Type) where
  panic : ε

variable {ε : Type} [Panics ε]

namespace Uint128

def limit : Nat := 2 ^ 128

abbrev add (a b : Nat) : Except ε Nat := addBelow limit Panics.panic a b
abbrev sub (a b : Nat) : Except ε Nat := subExact Panics.panic a b
abbrev mul (a b : Nat) : Except ε Nat := mulBelow limit Panics.panic a b
abbrev div (a b : Nat) : Except ε Nat := divExact Panics.panic a b

/-- `str::parse::<u128>` and `Uint128::from_str` -/
abbrev parse (s : String) : Option Nat := Text.parseBelow limit s

end Uint128

namespace U64

def limit : Nat := 2 ^ 64

abbrev add (a b : Nat) : Except ε Nat := addBelow limit Panics.panic a b
abbrev sub (a b : Nat) : Except ε Nat := subExact Panics.panic a b
abbrev mul (a b : Nat) : Except ε Nat := mulBelow limit Panics.panic a b
abbrev div (a b : Nat) : Except ε Nat := divExact Panics.panic a b

/-- `str::parse::<u64>` -/
abbrev parse (s : String) : Option Nat := Text.parseBelow limit s

/-- `u64::saturating_add_signed` -/
def saturatingAddSigned (a : Nat) (b : Int) : Nat :=
  min (limit - 1) ((a : Int) + b).toNat

/-- `as i64` -/
def asI64 (a : Nat) : Int :=
  if a < 2 ^ 63 then a else (a : Int) - 2 ^ 64

/-- `as usize`, where pointers have 32 bits -/
def asUsize (a : Nat) : Nat := a % 2 ^ 32

theorem asUsize_le (a : Nat) : asUsize a ≤ a := Nat.mod_le a _

end U64

/-- Subtraction of signed 64-bit numbers. -/
def I64.sub (a b : Int) : Except ε Int :=
  if -2 ^ 63 ≤ a - b ∧ a - b < 2 ^ 63 then .ok (a - b)
  else .error Panics.panic

theorem I64.sub_ok {a b c : Int}
    (h : (I64.sub a b : Except ε Int) = .ok c) : c = a - b := by
  unfold I64.sub at h
  split at h
  · exact (Except.ok.inj h).symm
  · cases h

end NeutronContracts
