import Mathlib.Tactic

/-!
# Runs of a deterministic system

`run` folds the step function over a list of inputs. `Along C` says that every
step of a run meets a condition on the state it starts from and its input;
invariants and two-state relations are lifted from steps to runs under it.
-/

namespace Relational
universe u v
variable {σ : Type u} {ι : Type v} (step : σ → ι → σ)

def run : σ → List ι → σ
  | s, [] => s
  | s, i :: is => run (step s i) is

def Along (C : σ → ι → Prop) : σ → List ι → Prop
  | _, [] => True
  | s, i :: is => C s i ∧ Along C (step s i) is

@[simp] theorem run_nil (s : σ) : run step s [] = s := rfl

@[simp] theorem run_cons (s : σ) (i : ι) (is : List ι) :
    run step s (i :: is) = run step (step s i) is := rfl

theorem run_append (s : σ) (is js : List ι) :
    run step s (is ++ js) = run step (run step s is) js := by
  induction is generalizing s with
  | nil => rfl
  | cons i is ih => exact ih _

theorem along_append {C : σ → ι → Prop} {s : σ} {is js : List ι} :
    Along step C s (is ++ js) ↔ Along step C s is ∧ Along step C (run step s is) js := by
  induction is generalizing s with
  | nil => simp [Along]
  | cons i is ih => simp only [List.cons_append, Along, ih, run_cons, and_assoc]

theorem along_and {C D : σ → ι → Prop} {s : σ} {is : List ι} :
    Along step (fun s i => C s i ∧ D s i) s is ↔ Along step C s is ∧ Along step D s is := by
  induction is generalizing s with
  | nil => simp [Along]
  | cons i is ih => simp only [Along, ih, and_and_and_comm]

theorem Along.mono {C D : σ → ι → Prop} {s : σ} {is : List ι} (hc : Along step C s is)
    (h : ∀ s i, C s i → D s i) : Along step D s is := by
  induction is generalizing s with
  | nil => trivial
  | cons i is ih => exact ⟨h s i hc.1, ih hc.2⟩

instance decidableAlong {C : σ → ι → Prop} [∀ s i, Decidable (C s i)] :
    ∀ (s : σ) (is : List ι), Decidable (Along step C s is)
  | _, [] => .isTrue trivial
  | s, i :: is =>
    have : Decidable (Along step C (step s i) is) := decidableAlong (step s i) is
    inferInstanceAs (Decidable (C s i ∧ Along step C (step s i) is))

theorem along_true (s : σ) (is : List ι) : Along step (fun _ _ => True) s is := by
  induction is generalizing s with
  | nil => trivial
  | cons i is ih => exact ⟨trivial, ih _⟩

theorem along_of_forall {C : σ → ι → Prop} {s : σ} {is : List ι} (h : ∀ i ∈ is, ∀ s, C s i) :
    Along step C s is := by
  induction is generalizing s with
  | nil => trivial
  | cons i is ih =>
    have hi : C s i := h i List.mem_cons_self s
    exact ⟨hi, ih fun j hj => h j (List.mem_cons_of_mem i hj)⟩

theorem run_invariant {C : σ → ι → Prop} {I : σ → Prop}
    (hstep : ∀ s i, I s → C s i → I (step s i)) :
    ∀ {s : σ} {is : List ι}, I s → Along step C s is → I (run step s is) := by
  intro s is hs hc
  induction is generalizing s with
  | nil => exact hs
  | cons i is ih => exact ih (hstep s i hs hc.1) hc.2

/-- Two conditions that agree wherever the invariant holds agree along a run, when the first
of them keeps the invariant. -/
theorem along_congr {C D : σ → ι → Prop} {I : σ → Prop} (hiff : ∀ s i, I s → (C s i ↔ D s i))
    (hstep : ∀ s i, I s → C s i → I (step s i)) :
    ∀ {s : σ} {is : List ι}, I s → (Along step C s is ↔ Along step D s is) := by
  intro s is hs
  induction is generalizing s with
  | nil => exact Iff.rfl
  | cons i is ih =>
    simp only [Along]
    rw [← hiff s i hs]
    exact and_congr_right fun hc => ih (hstep s i hs hc)

/-- A reflexive and transitive relation that every step respects holds between the
ends of a run; the invariant is available at each step. -/
theorem run_relation {C : σ → ι → Prop} {I : σ → Prop} {R : σ → σ → Prop}
    (hrefl : ∀ s, R s s) (htrans : ∀ {a b c}, R a b → R b c → R a c)
    (hinv : ∀ s i, I s → C s i → I (step s i)) (hstep : ∀ s i, I s → C s i → R s (step s i)) :
    ∀ {s : σ} {is : List ι}, I s → Along step C s is → R s (run step s is) := by
  intro s is hs hc
  induction is generalizing s with
  | nil => exact hrefl s
  | cons i is ih => exact htrans (hstep s i hs hc.1) (ih (hinv s i hs hc.1) hc.2)

end Relational
