/-
Requests that wait for answers.

A party with a status sends requests, each under an id of its own and of some
kind.  When a status allows one kind of request at most, and a request is only
sent while none waits, the waiting request and the status always agree.  The
rules below are the moves of such a party.
-/
import NeutronContracts.Lib.KeyValue

namespace Outstanding

universe u v w

variable {Id : Type u} {Kind : Type v} {Status : Type w}

/-- No request waits. -/
def Idle (waiting : Map Id Kind) : Prop := ∀ id, waiting id = none

/-- At most one request waits, of a kind that the status allows, and a status
that needs a waiting request has one. -/
structure Matched (may : Status → Kind → Prop) (must : Status → Prop)
    (waiting : Map Id Kind) (status : Status) : Prop where
  unique : ∀ id id' kind kind', waiting id = some kind →
    waiting id' = some kind' → id = id'
  may : ∀ id kind, waiting id = some kind → may status kind
  must : must status → ∃ id kind, waiting id = some kind

variable {may : Status → Kind → Prop} {must : Status → Prop}
  {waiting : Map Id Kind} {status : Status} {id : Id} {kind : Kind}

theorem matched_of_idle (hidle : Idle waiting) (hmust : ¬ must status) :
    Matched may must waiting status where
  unique id _ kind _ h := absurd h (by simp [hidle id])
  may id _ h := absurd h (by simp [hidle id])
  must h := absurd h hmust

namespace Matched

/-- In a status that allows no request none waits. -/
theorem idle (h : Matched may must waiting status)
    (hnone : ∀ kind, ¬ may status kind) : Idle waiting := by
  intro id
  cases hid : waiting id with
  | none => rfl
  | some kind => exact absurd (h.may id kind hid) (hnone kind)

/-- A status that always has a request waits for exactly the kind it
allows. -/
theorem exists_iff (h : Matched may must waiting status)
    (hmust : may status kind → must status)
    (hone : ∀ kind', may status kind → may status kind' → kind' = kind) :
    (∃ id, waiting id = some kind) ↔ may status kind := by
  constructor
  · rintro ⟨id, hid⟩
    exact h.may id kind hid
  · intro hmay
    obtain ⟨id, kind', hid⟩ := h.must (hmust hmay)
    exact ⟨id, hone kind' hmay (h.may id kind' hid) ▸ hid⟩

end Matched

variable [DecidableEq Id]

/-- A request is sent while none waits. -/
theorem matched_sent (hidle : Idle waiting) (hmay : may status kind) :
    Matched may must (waiting.save id kind) status := by
  have hsaved : ∀ other kind', waiting.save id kind other = some kind' →
      other = id ∧ kind' = kind := by
    intro other kind' hother
    rw [Map.save_apply] at hother
    split at hother
    case isTrue heq => exact ⟨heq, (Option.some.inj hother).symm⟩
    case isFalse => simp [hidle other] at hother
  refine ⟨fun first second k k' hfirst hsecond => ?_, fun other k h => ?_,
    fun _ => ⟨id, kind, Map.save_self⟩⟩
  · rw [(hsaved first k hfirst).1, (hsaved second k' hsecond).1]
  · rw [(hsaved other k h).2]
    exact hmay

/-- Once the waiting request is answered none waits. -/
theorem Matched.answered (h : Matched may must waiting status)
    (hid : waiting id = some kind) : Idle (waiting.remove id) := by
  intro other
  rw [Map.remove_apply]
  split
  · rfl
  · rename_i hne
    cases hother : waiting other with
    | none => rfl
    | some kind' => exact absurd (h.unique other id kind' kind hother hid) hne

/-- An answer to any request keeps the others matched, when none is needed. -/
theorem Matched.removed (h : Matched may must waiting status)
    (hmust : ¬ must status) : Matched may must (waiting.remove id) status := by
  have hold : ∀ other kind, waiting.remove id other = some kind →
      waiting other = some kind := by
    intro other kind hother
    rw [Map.remove_apply] at hother
    split at hother
    · cases hother
    · exact hother
  exact ⟨fun first second k k' hfirst hsecond =>
      h.unique first second k k' (hold first k hfirst) (hold second k' hsecond),
    fun other k hother => h.may other k (hold other k hother),
    fun hneeds => absurd hneeds hmust⟩

end Outstanding
