/-
Fallible computations in `Except`: the guards and look-ups that sequential
code is made of, bounded arithmetic that fails instead of wrapping, and the
inversion rules that read a successful run back into the facts it checked.
-/
import Mathlib.Algebra.Order.Ring.Int
import Mathlib.Data.List.Basic
import Mathlib.Tactic.Common

namespace Fallible

universe u v

variable {ε : Type u} {α β : Type v}

/-- Stop with `e` when the condition holds. -/
def rejectIf (condition : Prop) [Decidable condition] (e : ε) :
    Except ε Unit :=
  if condition then .error e else .ok ()

/-- The value of an option, or `e` when there is none. -/
def orError (o : Option α) (e : ε) : Except ε α :=
  match o with
  | some a => .ok a
  | none => .error e

/-- A number that must stay below a limit. -/
def below (limit : Nat) (e : ε) (n : Nat) : Except ε Nat :=
  if n < limit then .ok n else .error e

/-- Addition below a limit. -/
def addBelow (limit : Nat) (e : ε) (a b : Nat) : Except ε Nat :=
  below limit e (a + b)

/-- Multiplication below a limit. -/
def mulBelow (limit : Nat) (e : ε) (a b : Nat) : Except ε Nat :=
  below limit e (a * b)

/-- Subtraction that fails instead of going negative. -/
def subExact (e : ε) (a b : Nat) : Except ε Nat :=
  if b ≤ a then .ok (a - b) else .error e

/-- Floor division that fails on a zero divisor. -/
def divExact (e : ε) (a b : Nat) : Except ε Nat :=
  if b = 0 then .error e else .ok (a / b)

/-- Sum a list below a limit, from the left. -/
def sumBelow (limit : Nat) (e : ε) : Nat → List Nat → Except ε Nat
  | total, [] => .ok total
  | total, n :: rest => do
      let total ← addBelow limit e total n
      sumBelow limit e total rest

@[simp] theorem bind_eq_ok {x : Except ε α} {f : α → Except ε β} {b : β} :
    (x >>= f) = .ok b ↔ ∃ a, x = .ok a ∧ f a = .ok b := by
  cases x with
  | ok a => simp [bind, Except.bind]
  | error e => simp [bind, Except.bind]

/-- A sequence succeeds when its first part does and then the rest. -/
theorem exists_bind_eq_ok {x : Except ε α} {f : α → Except ε β} :
    (∃ b, (x >>= f) = .ok b) ↔ ∃ a, x = .ok a ∧ ∃ b, f a = .ok b := by
  simp only [bind_eq_ok]
  exact ⟨fun ⟨b, a, ha, hb⟩ => ⟨a, ha, b, hb⟩,
    fun ⟨a, ha, b, hb⟩ => ⟨b, a, ha, hb⟩⟩

/-- Two sequences with the same first part give results that are related by
`v`, when their rests do. -/
theorem bind_eq_map {γ : Type v} {x : Except ε α} {f : α → Except ε γ}
    {g : α → Except ε β} {v : β → γ}
    (h : ∀ a, x = .ok a → f a = (g a).map v) :
    (x >>= f) = (x >>= g).map v := by
  cases x with
  | ok a => exact h a rfl
  | error e => rfl

@[simp] theorem pure_eq_ok {a b : α} :
    (pure a : Except ε α) = .ok b ↔ a = b := by
  simp [pure, Except.pure]

@[simp] theorem map_eq_ok {x : Except ε α} {f : α → β} {b : β} :
    f <$> x = .ok b ↔ ∃ a, x = .ok a ∧ f a = b := by
  cases x with
  | ok a => simp [Functor.map, Except.map]
  | error e => simp [Functor.map, Except.map]

@[simp] theorem mapError_eq_ok {ε' : Type u} {x : Except ε α} {f : ε → ε'}
    {a : α} : x.mapError f = .ok a ↔ x = .ok a := by
  cases x with
  | ok b => simp [Except.mapError]
  | error e => simp [Except.mapError]

theorem toOption_eq_some {x : Except ε α} {a : α} :
    x.toOption = some a ↔ x = .ok a := by
  cases x with
  | ok b => simp [Except.toOption]
  | error e => simp [Except.toOption]

@[simp] theorem rejectIf_eq_ok {condition : Prop} [Decidable condition]
    {e : ε} {u : Unit} : rejectIf condition e = .ok u ↔ ¬ condition := by
  by_cases h : condition <;> simp [rejectIf, h]

@[simp] theorem orError_eq_ok {o : Option α} {e : ε} {a : α} :
    orError o e = .ok a ↔ o = some a := by
  cases o <;> simp [orError]

@[simp] theorem below_eq_ok {limit n m : Nat} {e : ε} :
    below limit e n = .ok m ↔ n < limit ∧ n = m := by
  by_cases h : n < limit <;> simp [below, h]

@[simp] theorem addBelow_eq_ok {limit a b c : Nat} {e : ε} :
    addBelow limit e a b = .ok c ↔ a + b < limit ∧ a + b = c :=
  below_eq_ok

@[simp] theorem mulBelow_eq_ok {limit a b c : Nat} {e : ε} :
    mulBelow limit e a b = .ok c ↔ a * b < limit ∧ a * b = c :=
  below_eq_ok

@[simp] theorem subExact_eq_ok {a b c : Nat} {e : ε} :
    subExact e a b = .ok c ↔ b ≤ a ∧ a - b = c := by
  by_cases h : b ≤ a <;> simp [subExact, h]

@[simp] theorem divExact_eq_ok {a b c : Nat} {e : ε} :
    divExact e a b = .ok c ↔ b ≠ 0 ∧ a / b = c := by
  by_cases h : b = 0 <;> simp [divExact, h]

theorem sumBelow_eq_ok {limit total result : Nat} {e : ε} {ns : List Nat}
    (h : sumBelow limit e total ns = .ok result) :
    total + ns.sum = result := by
  induction ns generalizing total with
  | nil =>
      simp only [sumBelow, Except.ok.injEq] at h
      simpa using h
  | cons n rest ih =>
      simp only [sumBelow, bind_eq_ok, addBelow_eq_ok] at h
      obtain ⟨_, ⟨_, rfl⟩, h⟩ := h
      have := ih h
      simp only [List.sum_cons]
      omega

end Fallible
