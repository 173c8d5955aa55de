/-
Polls that close with the vote that reaches a quorum.

A box holds a poll for every key somebody has voted under.  Nobody votes twice
in a poll or in a closed one, and the quorum may be another one at every vote.
Each poll then closes once at most, with as many distinct voters as the quorum
of its last vote asks for.
-/
import Mathlib.Data.List.Nodup
import NeutronContracts.Lib.KeyValue

universe u v

/-- Who has voted, in order, and whether the poll is closed. -/
structure Poll (V : Type u) where
  voters : List V
  closed : Bool

/-- The polls by their keys, and the keys of the polls that have closed. -/
structure Poll.Box (K : Type u) (V : Type v) where
  polls : Map K (Poll V)
  closings : List K

namespace Poll

variable {K : Type u} {V : Type v}

/-- The poll in which nobody has voted. -/
def new : Poll V := ⟨[], false⟩

/-- A poll after one more vote. -/
def add (poll : Poll V) (quorum : Nat) (voter : V) : Poll V :=
  ⟨poll.voters ++ [voter], decide (quorum ≤ (poll.voters ++ [voter]).length)⟩

@[simp] theorem add_voters (poll : Poll V) (quorum : Nat) (voter : V) :
    (poll.add quorum voter).voters = poll.voters ++ [voter] := rfl

theorem add_closed (poll : Poll V) (quorum : Nat) (voter : V) :
    (poll.add quorum voter).closed = true ↔
      quorum ≤ (poll.add quorum voter).voters.length :=
  decide_eq_true_iff

namespace Box

variable {box box' : Box K V} {quorum : Nat} {key : K} {voter : V}
  {poll : Poll V}

def empty : Box K V := ⟨Map.empty, []⟩

/-- The poll under a key; a new one before the first vote. -/
def pollOf (box : Box K V) (key : K) : Poll V := (box.polls key).getD Poll.new

section

variable [DecidableEq K] [DecidableEq V]

/-- A vote, refused from those who have voted and in a closed poll. -/
def vote (box : Box K V) (quorum : Nat) (key : K) (voter : V) :
    Option (Box K V) :=
  let poll := box.pollOf key
  if voter ∈ poll.voters ∨ poll.closed = true then none
  else
    some
      { polls := box.polls.save key (poll.add quorum voter)
        closings :=
          if (poll.add quorum voter).closed then box.closings ++ [key]
          else box.closings }

theorem vote_eq_some : box.vote quorum key voter = some box' ↔
    voter ∉ (box.pollOf key).voters ∧ (box.pollOf key).closed = false ∧
      box' =
        { polls := box.polls.save key ((box.pollOf key).add quorum voter)
          closings :=
            if ((box.pollOf key).add quorum voter).closed then
              box.closings ++ [key]
            else box.closings } := by
  simp only [vote, Option.ite_none_left_eq_some, not_or, Bool.not_eq_true,
    Option.some.injEq, and_assoc, eq_comm (a := box')]

end

/-- No voter stands twice in a poll, and the closed polls are those that have
closed, once each. -/
structure Sound (box : Box K V) : Prop where
  distinct : ∀ key poll, box.polls key = some poll → poll.voters.Nodup
  once : box.closings.Nodup
  closed : ∀ key, key ∈ box.closings ↔ (box.pollOf key).closed = true

theorem sound_empty : (empty : Box K V).Sound where
  distinct _ _ h := nomatch h
  once := List.nodup_nil
  closed key := by simp [empty, pollOf, Poll.new]

/-- Every voter of a poll, old and new, has voted once. -/
theorem Sound.voters_nodup (h : box.Sound) (key : K) :
    (box.pollOf key).voters.Nodup := by
  unfold pollOf
  cases hpoll : box.polls key with
  | none => exact List.nodup_nil
  | some poll => exact h.distinct key poll hpoll

variable [DecidableEq K] [DecidableEq V]

theorem pollOf_vote (h : box.vote quorum key voter = some box') (other : K) :
    box'.pollOf other =
      if other = key then (box.pollOf key).add quorum voter
      else box.pollOf other := by
  obtain ⟨-, -, rfl⟩ := vote_eq_some.mp h
  unfold pollOf
  dsimp only
  rw [Map.save_apply]
  split
  · rfl
  · rfl

theorem Sound.vote (h : box.Sound)
    (hvote : box.vote quorum key voter = some box') : box'.Sound := by
  have hpolls := pollOf_vote hvote
  obtain ⟨hnew, hopen, rfl⟩ := vote_eq_some.mp hvote
  have hfresh : key ∉ box.closings := by
    rw [h.closed, hopen]
    exact Bool.false_ne_true
  refine ⟨fun other poll hpoll => ?_, ?_, fun other => ?_⟩
  · dsimp only at hpoll
    rw [Map.save_apply] at hpoll
    split at hpoll
    · obtain rfl := Option.some.inj hpoll
      exact List.nodup_append.mpr ⟨h.voters_nodup key, List.nodup_singleton _,
        fun first hfirst second hsecond heq =>
          hnew (List.mem_singleton.mp hsecond ▸ heq ▸ hfirst)⟩
    · exact h.distinct other poll hpoll
  · dsimp only
    split
    · exact List.nodup_append.mpr ⟨h.once, List.nodup_singleton _,
        fun first hfirst second hsecond heq =>
          hfresh (List.mem_singleton.mp hsecond ▸ heq ▸ hfirst)⟩
    · exact h.once
  · rw [hpolls]
    by_cases hother : other = key
    · subst hother
      rw [if_pos rfl]
      dsimp only
      split
      · rename_i hclosed
        simp [hclosed]
      · rename_i hclosed
        simp [hclosed, hfresh]
    · rw [if_neg hother, ← h.closed]
      dsimp only
      split
      · simp [hother]
      · rfl

end Box

end Poll
