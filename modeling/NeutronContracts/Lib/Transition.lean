/-
Partial transition functions and their runs.

A system is a function `step : S → E → Option S`: an event is either refused
(`none`) or leads to the next state.  A run is a list of events all of which
are accepted.  The rules below say how a property of single steps becomes a
property of whole runs, also when the steps are only known to meet a side
condition, and how to carry an observer of the past along a run.
-/
import Mathlib.Data.List.Basic
import Mathlib.Logic.Relation
import Mathlib.Tactic.Common

namespace Transition

universe u v w

variable {S : Type u} {E : Type v} {H : Type w}

/-- The state after a list of events, when none of them is refused. -/
def exec (step : S → E → Option S) : S → List E → Option S
  | s, [] => some s
  | s, e :: es => (step s e).bind fun next => exec step next es

/-- Every step of the run that `es` makes from `s` satisfies `Q`. -/
def AllSteps (step : S → E → Option S) (Q : S → E → S → Prop) :
    S → List E → Prop
  | _, [] => True
  | s, e :: es => ∀ next, step s e = some next →
      Q s e next ∧ AllSteps step Q next es

variable {step : S → E → Option S}

@[simp] theorem exec_nil (s : S) : exec step s [] = some s := rfl

theorem exec_cons_eq_some {s last : S} {e : E} {es : List E} :
    exec step s (e :: es) = some last ↔
      ∃ next, step s e = some next ∧ exec step next es = some last := by
  simp only [exec, Option.bind_eq_some_iff]

theorem exec_append (s : S) (first second : List E) :
    exec step s (first ++ second) =
      (exec step s first).bind fun middle => exec step middle second := by
  induction first generalizing s with
  | nil => rfl
  | cons e es ih =>
      simp only [List.cons_append, exec, Option.bind_assoc]
      exact congrArg _ (funext ih)

theorem exec_append_eq_some {s last : S} {first second : List E} :
    exec step s (first ++ second) = some last ↔
      ∃ middle, exec step s first = some middle ∧
        exec step middle second = some last := by
  rw [exec_append, Option.bind_eq_some_iff]

/-- A run can be extended by one accepted event. -/
theorem exec_concat {s middle last : S} {es : List E} {e : E}
    (hrun : exec step s es = some middle) (hstep : step middle e = some last) :
    exec step s (es ++ [e]) = some last := by
  rw [exec_append, hrun]
  exact exec_cons_eq_some.mpr ⟨last, hstep, rfl⟩

/-- Some events lead from one state to the other. -/
def Leads (step : S → E → Option S) (s last : S) : Prop :=
  ∃ es, exec step s es = some last

theorem Leads.refl (s : S) : Leads step s s := ⟨[], rfl⟩

theorem Leads.trans {s middle last : S} (h : Leads step s middle)
    (h' : Leads step middle last) : Leads step s last := by
  obtain ⟨first, hfirst⟩ := h
  obtain ⟨second, hsecond⟩ := h'
  exact ⟨first ++ second, exec_append_eq_some.mpr ⟨middle, hfirst, hsecond⟩⟩

theorem Leads.of_reflTransGen {s last : S}
    (h : Relation.ReflTransGen (Leads step) s last) : Leads step s last := by
  induction h with
  | refl => exact .refl s
  | tail _ hlast ih => exact ih.trans hlast

namespace AllSteps

variable {Q R C P : S → E → S → Prop} {s : S} {es : List E}

/-- Whether a run has a property can be computed step by step. -/
instance decidable [∀ a e b, Decidable (Q a e b)] :
    (s : S) → (es : List E) → Decidable (AllSteps step Q s es)
  | _, [] => .isTrue trivial
  | s, e :: es =>
      match hnext : step s e with
      | none => .isTrue fun _ h => nomatch hnext.symm.trans h
      | some middle =>
          have := decidable middle es
          decidable_of_iff (Q s e middle ∧ AllSteps step Q middle es)
            ⟨fun h _ hn =>
              Option.some.inj (hnext.symm.trans hn) ▸ h,
              fun h => h middle hnext⟩

theorem and_iff :
    AllSteps step (fun a e b => Q a e b ∧ R a e b) s es ↔
      AllSteps step Q s es ∧ AllSteps step R s es := by
  induction es generalizing s with
  | nil => simp [AllSteps]
  | cons e es ih =>
      simp only [AllSteps, ih]
      constructor
      · intro h
        exact ⟨fun next hnext => ⟨(h next hnext).1.1, (h next hnext).2.1⟩,
          fun next hnext => ⟨(h next hnext).1.2, (h next hnext).2.2⟩⟩
      · rintro ⟨hq, hr⟩ next hnext
        exact ⟨⟨(hq next hnext).1, (hr next hnext).1⟩,
          ⟨(hq next hnext).2, (hr next hnext).2⟩⟩

theorem mono (himp : ∀ a e b, step a e = some b → Q a e b → R a e b)
    (h : AllSteps step Q s es) : AllSteps step R s es := by
  induction es generalizing s with
  | nil => trivial
  | cons e es ih =>
      intro next hnext
      obtain ⟨hq, hrest⟩ := h next hnext
      exact ⟨himp s e next hnext hq, ih hrest⟩

theorem of_forall (h : ∀ a e b, step a e = some b → Q a e b) :
    AllSteps step Q s es := by
  induction es generalizing s with
  | nil => trivial
  | cons e es ih => exact fun next hnext => ⟨h s e next hnext, ih⟩

theorem of_mem {Q : E → Prop} (h : ∀ e ∈ es, Q e) :
    AllSteps step (fun _ e _ => Q e) s es := by
  induction es generalizing s with
  | nil => trivial
  | cons e es ih =>
      rw [List.forall_mem_cons] at h
      exact fun _ _ => ⟨h.1, ih h.2⟩

/-- The invariant rule: if every step that meets the side condition keeps the
invariant and has the property, so does every run made of such steps. -/
theorem of_invariant (Inv : S → Prop)
    (hstep : ∀ a e b, Inv a → step a e = some b → C a e b → Inv b ∧ Q a e b)
    (hinit : Inv s) (hcond : AllSteps step C s es) :
    AllSteps step Q s es := by
  induction es generalizing s with
  | nil => trivial
  | cons e es ih =>
      intro next hnext
      obtain ⟨hc, hrest⟩ := hcond next hnext
      obtain ⟨hinv, hq⟩ := hstep s e next hinit hnext hc
      exact ⟨hq, ih hinv hrest⟩

/-- The invariant holds in the last state of a run whose steps all meet the
side condition. -/
theorem invariant_last (Inv : S → Prop)
    (hstep : ∀ a e b, Inv a → step a e = some b → C a e b → Inv b)
    (hinit : Inv s) (hcond : AllSteps step C s es) {last : S}
    (hrun : exec step s es = some last) : Inv last := by
  induction es generalizing s with
  | nil =>
      simp only [exec_nil, Option.some.injEq] at hrun
      exact hrun ▸ hinit
  | cons e es ih =>
      obtain ⟨next, hnext, hrest⟩ := exec_cons_eq_some.mp hrun
      obtain ⟨hc, hconds⟩ := hcond next hnext
      exact ih (hstep s e next hinit hnext hc) hconds hrest

/-- The exact rule: under an invariant that the condition maintains, a
property that is equivalent to the condition at every single step is
equivalent to it over the whole run. -/
theorem iff_of_invariant (Inv : S → Prop)
    (hiff : ∀ a e b, Inv a → step a e = some b → P a e b →
      (Q a e b ↔ C a e b))
    (hkeep : ∀ a e b, Inv a → step a e = some b → P a e b → C a e b →
      Inv b)
    (hinit : Inv s) (hhyp : AllSteps step P s es) :
    AllSteps step Q s es ↔ AllSteps step C s es := by
  induction es generalizing s with
  | nil => simp [AllSteps]
  | cons e es ih =>
      constructor
      · intro h next hnext
        obtain ⟨hh, hhs⟩ := hhyp next hnext
        have hc := (hiff s e next hinit hnext hh).mp (h next hnext).1
        exact ⟨hc, (ih (hkeep s e next hinit hnext hh hc) hhs).mp
          (h next hnext).2⟩
      · intro h next hnext
        obtain ⟨hh, hhs⟩ := hhyp next hnext
        obtain ⟨hc, hcs⟩ := h next hnext
        exact ⟨(hiff s e next hinit hnext hh).mpr hc,
          (ih (hkeep s e next hinit hnext hh hc) hhs).mpr hcs⟩

end AllSteps

/-- The invariant rule for runs without a side condition. -/
theorem exec_invariant (Inv : S → Prop)
    (hstep : ∀ a e b, Inv a → step a e = some b → Inv b)
    {s last : S} {es : List E} (hinit : Inv s)
    (hrun : exec step s es = some last) : Inv last := by
  induction es generalizing s with
  | nil =>
      simp only [exec_nil, Option.some.injEq] at hrun
      exact hrun ▸ hinit
  | cons e es ih =>
      obtain ⟨next, hnext, hrest⟩ := exec_cons_eq_some.mp hrun
      exact ih (hstep s e next hinit hnext) hrest

/-! ### Views -/

section

variable {view : S → S} {P : S → E → Prop} {s last : S} {es : List E}

/-- A run is seen as a run, when the view commutes with its steps. -/
theorem exec_view (Inv : S → Prop)
    (hview : ∀ a e, Inv a → P (view a) e →
      step (view a) e = (step a e).map view)
    (hstep : ∀ a e b, Inv a → P (view a) e → step a e = some b → Inv b)
    (hinit : Inv s) (hcond : AllSteps step (fun a e _ => P (view a) e) s es)
    (hrun : exec step s es = some last) :
    exec step (view s) es = some (view last) ∧
      AllSteps step (fun a e _ => P a e) (view s) es := by
  induction es generalizing s with
  | nil =>
      simp only [exec_nil, Option.some.injEq] at hrun
      exact ⟨by rw [exec_nil, hrun], trivial⟩
  | cons e es ih =>
      obtain ⟨next, hnext, hrest⟩ := exec_cons_eq_some.mp hrun
      obtain ⟨hp, hps⟩ := hcond next hnext
      obtain ⟨hlast, hall⟩ := ih (hstep s e next hinit hp hnext) hps hrest
      have hviewed : step (view s) e = some (view next) := by
        rw [hview s e hinit hp, hnext]
        rfl
      refine ⟨exec_cons_eq_some.mpr ⟨_, hviewed, hlast⟩, ?_⟩
      intro middle hmiddle
      obtain rfl := Option.some.inj (hviewed.symm.trans hmiddle)
      exact ⟨hp, hall⟩

/-- A run of what is seen of a state is a run of the state. -/
theorem exec_of_view (Inv : S → Prop)
    (hview : ∀ a e, Inv a → P (view a) e →
      step (view a) e = (step a e).map view)
    (hstep : ∀ a e b, Inv a → P (view a) e → step a e = some b → Inv b)
    (hinit : Inv s)
    (hcond : AllSteps step (fun a e _ => P a e) (view s) es)
    (hrun : exec step (view s) es = some last) :
    ∃ origin, exec step s es = some origin ∧ view origin = last ∧
      AllSteps step (fun a e _ => P (view a) e) s es := by
  induction es generalizing s with
  | nil =>
      simp only [exec_nil, Option.some.injEq] at hrun
      exact ⟨s, rfl, hrun, trivial⟩
  | cons e es ih =>
      obtain ⟨viewed, hviewed, hrest⟩ := exec_cons_eq_some.mp hrun
      obtain ⟨hp, hps⟩ := hcond viewed hviewed
      obtain ⟨next, hnext, rfl⟩ :=
        Option.map_eq_some_iff.mp ((hview s e hinit hp).symm.trans hviewed)
      obtain ⟨origin, horigin, hlast, hall⟩ :=
        ih (hstep s e next hinit hp hnext) hps hrest
      refine ⟨origin, exec_cons_eq_some.mpr ⟨next, hnext, horigin⟩, hlast, ?_⟩
      intro middle hmiddle
      obtain rfl := Option.some.inj (hnext.symm.trans hmiddle)
      exact ⟨hp, hall⟩

end

/-- The system that also records, in `H`, what an observer makes of every
step.  The observer never influences which events are accepted. -/
def track (step : S → E → Option S) (observe : H → S → E → S → H) :
    S × H → E → Option (S × H)
  | (s, h), e => (step s e).map fun next => (next, observe h s e next)

variable {observe : H → S → E → S → H}

theorem track_eq_some {s next : S} {h h' : H} {e : E} :
    track step observe (s, h) e = some (next, h') ↔
      step s e = some next ∧ h' = observe h s e next := by
  simp only [track, Option.map_eq_some_iff, Prod.mk.injEq]
  constructor
  · rintro ⟨_, hstep, rfl, rfl⟩
    exact ⟨hstep, rfl⟩
  · rintro ⟨hstep, rfl⟩
    exact ⟨next, hstep, rfl, rfl⟩

/-- Every run can be observed. -/
theorem exists_track_of_exec {s last : S} {es : List E}
    (hrun : exec step s es = some last) (h : H) :
    ∃ h', exec (track step observe) (s, h) es = some (last, h') := by
  induction es generalizing s h with
  | nil =>
      simp only [exec_nil, Option.some.injEq] at hrun
      exact ⟨h, by rw [exec_nil, hrun]⟩
  | cons e es ih =>
      obtain ⟨next, hstep, hrest⟩ := exec_cons_eq_some.mp hrun
      obtain ⟨h', hh'⟩ := ih hrest (observe h s e next)
      exact ⟨h', exec_cons_eq_some.mpr
        ⟨_, track_eq_some.mpr ⟨hstep, rfl⟩, hh'⟩⟩

/-- A condition on the steps of a run holds of the steps of the tracked run. -/
theorem AllSteps.tracked {Q : S → E → S → Prop} {s : S} {es : List E}
    (hall : AllSteps step Q s es) (h : H) :
    AllSteps (track step observe) (fun x e y => Q x.1 e y.1) (s, h) es := by
  induction es generalizing s h with
  | nil => trivial
  | cons e es ih =>
      rintro ⟨next, h'⟩ hnext
      obtain ⟨hq, hrest⟩ := hall next (track_eq_some.mp hnext).1
      exact ⟨hq, ih hrest h'⟩

/-- Events that the observer makes nothing of leave the record alone. -/
theorem exec_track_of_silent {s last : S} {h : H} {es : List E}
    (hsilent : ∀ e ∈ es, ∀ a b, observe h a e b = h)
    (hrun : exec step s es = some last) :
    exec (track step observe) (s, h) es = some (last, h) := by
  induction es generalizing s with
  | nil =>
      simp only [exec_nil, Option.some.injEq] at hrun
      rw [exec_nil, hrun]
  | cons e es ih =>
      rw [List.forall_mem_cons] at hsilent
      obtain ⟨next, hnext, hrest⟩ := exec_cons_eq_some.mp hrun
      exact exec_cons_eq_some.mpr ⟨(next, h),
        track_eq_some.mpr ⟨hnext, (hsilent.1 s next).symm⟩,
        ih hsilent.2 hrest⟩

end Transition
