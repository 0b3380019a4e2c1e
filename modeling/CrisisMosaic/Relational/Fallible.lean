import Mathlib.Tactic

/-!
# Fallible steps

A handler is a chain of lookups and checks, each of which may refuse the whole
transaction. The equations say when such a chain succeeds.
-/

namespace Relational
universe u v w
variable {ε : Type u} {α : Type v} {β : Type v}

def require (c : Prop) [Decidable c] (e : ε) : Except ε PUnit.{v+1} :=
  if c then .ok ⟨⟩ else .error e

def found (o : Option α) (e : ε) : Except ε α :=
  match o with
  | some a => .ok a
  | none => .error e

@[simp] theorem require_ok {c : Prop} [Decidable c] {e : ε} {u : PUnit.{v+1}} :
    require c e = .ok u ↔ c := by
  by_cases h : c <;> simp [require, h]

@[simp] theorem found_ok {o : Option α} {e : ε} {a : α} : found o e = .ok a ↔ o = some a := by
  cases o <;> simp [found]

@[simp] theorem bind_ok {x : Except ε α} {f : α → Except ε β} {b : β} :
    x >>= f = .ok b ↔ ∃ a, x = .ok a ∧ f a = .ok b := by
  cases x <;> simp [bind, Except.bind]

@[simp] theorem pure_ok {a b : α} : (pure a : Except ε α) = .ok b ↔ a = b := by
  simp [pure, Except.pure]

@[simp] theorem throw_ok {e : ε} {b : α} : (throw e : Except ε α) ≠ .ok b := by
  simp [throw, throwThe, MonadExceptOf.throw]

@[simp] theorem map_ok {x : Except ε α} {f : α → β} {b : β} :
    f <$> x = .ok b ↔ ∃ a, x = .ok a ∧ f a = b := by
  cases x <;> simp [Functor.map, Except.map]

theorem toOption_some {x : Except ε α} {a : α} : x.toOption = some a ↔ x = .ok a := by
  cases x <;> simp [Except.toOption]

theorem ok_of_any {x : Except ε α} {p : α → Bool} (h : x.toOption.any p = true) :
    ∃ a, x = .ok a ∧ p a = true := by
  cases x with
  | ok a => exact ⟨a, rfl, h⟩
  | error e => exact nomatch h

/-- The state a refused step leaves behind is the one it started from. -/
def commit {σ : Type v} (s : σ) : Except ε σ → σ
  | .ok t => t
  | .error _ => s

@[simp] theorem commit_ok {σ : Type v} (s t : σ) : commit s (.ok t : Except ε σ) = t := rfl

@[simp] theorem commit_error {σ : Type v} (s : σ) (e : ε) : commit s (.error e) = s := rfl

/-- A predicate that holds before a step and after every accepted one holds after the commit. -/
theorem commit_induction {σ : Type v} {s : σ} {x : Except ε σ} {P : σ → Prop} (hs : P s)
    (ht : ∀ t, x = .ok t → P t) : P (commit s x) := by
  cases x with
  | ok t => exact ht t rfl
  | error e => exact hs

end Relational
