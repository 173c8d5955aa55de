/-
An escrow with two ends.

One end locks amounts and sends messages for them.  The other end mints as
much when it accepts a message, and burns what it sends back, which the first
end releases.  A message that is not accepted is undone by the end that sent
it.  In between an amount is on its way, in one direction or the other.  The
rules below say that what is locked is what was minted and what is on its way,
after any moves.
-/
import NeutronContracts.Lib.Holdings
import Mathlib.Logic.Relation

namespace Escrow

open Holdings

universe u v

variable {ι : Type u} {κ : Type v}

/-- What is locked at one end, minted at the other, and on its way under the
message that carries it. -/
@[ext] structure Account (ι : Type u) (κ : Type v) where
  locked : Nat
  minted : Nat
  outgoing : Book ι
  incoming : Book κ

variable [DecidableEq ι] [DecidableEq κ]

inductive Move (a : Account ι κ) : Account ι κ → Prop
  | stay : Move a a
  /-- an amount is locked, and a message sent for it -/
  | lock (i : ι) (n : Nat) (hfree : a.outgoing i = 0) :
      Move a { a with
        locked := a.locked + n
        outgoing := Function.update a.outgoing i n }
  /-- the other end accepts a message -/
  | accept (i : ι) :
      Move a { a with
        minted := a.minted + a.outgoing i
        outgoing := Function.update a.outgoing i 0 }
  /-- a message that was not accepted is undone -/
  | refund (i : ι) :
      Move a { a with
        locked := a.locked - a.outgoing i
        outgoing := Function.update a.outgoing i 0 }
  /-- the other end burns an amount, and sends a message for it -/
  | burn (k : κ) (n : Nat) (hle : n ≤ a.minted) (hfree : a.incoming k = 0) :
      Move a { a with
        minted := a.minted - n
        incoming := Function.update a.incoming k n }
  /-- the amount of a message is released -/
  | release (k : κ) :
      Move a { a with
        locked := a.locked - a.incoming k
        incoming := Function.update a.incoming k 0 }
  /-- the other end undoes a message -/
  | restore (k : κ) :
      Move a { a with
        minted := a.minted + a.incoming k
        incoming := Function.update a.incoming k 0 }

/-- What is locked is minted or on its way. -/
structure Balanced (a : Account ι κ) : Prop where
  outgoing : Bounded a.outgoing
  incoming : Bounded a.incoming
  balance : a.locked = a.minted + total a.outgoing + total a.incoming

namespace Balanced

variable {a b : Account ι κ}

omit [DecidableEq ι] [DecidableEq κ] in
theorem outgoing_le (h : Balanced a) (i : ι) : a.outgoing i ≤ a.locked := by
  have hle := le_total h.outgoing i
  have hbalance := h.balance
  omega

omit [DecidableEq ι] [DecidableEq κ] in
theorem incoming_le (h : Balanced a) (k : κ) : a.incoming k ≤ a.locked := by
  have hle := le_total h.incoming k
  have hbalance := h.balance
  omega

theorem move (h : Balanced a) (hmove : Move a b) : Balanced b := by
  have hbalance := h.balance
  cases hmove with
  | stay => exact h
  | lock i n hfree =>
      have htotal := @total_update _ _ _ i n h.outgoing
      refine ⟨h.outgoing.update, h.incoming, ?_⟩
      dsimp only
      omega
  | accept i =>
      have htotal := @total_update _ _ _ i 0 h.outgoing
      refine ⟨h.outgoing.update, h.incoming, ?_⟩
      dsimp only
      omega
  | refund i =>
      have htotal := @total_update _ _ _ i 0 h.outgoing
      refine ⟨h.outgoing.update, h.incoming, ?_⟩
      dsimp only
      omega
  | burn k n hle hfree =>
      have htotal := @total_update _ _ _ k n h.incoming
      refine ⟨h.outgoing, h.incoming.update, ?_⟩
      dsimp only
      omega
  | release k =>
      have htotal := @total_update _ _ _ k 0 h.incoming
      refine ⟨h.outgoing, h.incoming.update, ?_⟩
      dsimp only
      omega
  | restore k =>
      have htotal := @total_update _ _ _ k 0 h.incoming
      refine ⟨h.outgoing, h.incoming.update, ?_⟩
      dsimp only
      omega

end Balanced

end Escrow
