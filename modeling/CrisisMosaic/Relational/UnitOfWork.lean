import Mathlib.Tactic

/-!
# Units of work

A handler works on a session: it queries, changes rows and flushes what it has changed. If it
raises, its session holds what it has done so far, and whether that is stored is up to the
code that catches the exception.
-/

namespace Relational
variable {σ : Type*}

inductive SessionOp (σ : Type*)
  | query
  | change (f : σ → σ)
  | flush

def SessionOp.apply : SessionOp σ → σ → σ
  | .change f, s => f s
  | _, s => s

def SessionOp.isChange : SessionOp σ → Bool
  | .change _ => true
  | _ => false

def perform (ops : List (SessionOp σ)) (s : σ) : σ := ops.foldl (fun s o => o.apply s) s

/-- An exception after some operations. When it is one of a flush, the transaction is rolled back. -/
structure Fault where
  after : ℕ
  rolledBack : Bool

/-- What is stored when the session of the failed handler is committed. -/
def commitFailed (ops : List (SessionOp σ)) (x : Fault) (s : σ) : σ :=
  if x.rolledBack then s else perform (ops.take x.after) s

@[simp] theorem perform_nil (s : σ) : perform [] s = s := rfl

@[simp] theorem perform_cons (o : SessionOp σ) (ops : List (SessionOp σ)) (s : σ) :
    perform (o :: ops) s = perform ops (o.apply s) := rfl

theorem perform_append (ops more : List (SessionOp σ)) (s : σ) :
    perform (ops ++ more) s = perform more (perform ops s) := List.foldl_append

theorem perform_unchanged {ops : List (SessionOp σ)} (h : ∀ o ∈ ops, o.isChange = false) (s : σ) :
    perform ops s = s := by
  induction ops with
  | nil => rfl
  | cons o ops ih =>
    have ho := h o List.mem_cons_self
    have hrest := ih fun o ho => h o (List.mem_cons_of_mem _ ho)
    cases o with
    | change f => exact Bool.noConfusion ho
    | query => exact hrest
    | flush => exact hrest

/-- What every change keeps is kept by all operations. -/
theorem perform_invariant {P : σ → Prop} {ops : List (SessionOp σ)}
    (h : ∀ f, .change f ∈ ops → ∀ s, P s → P (f s)) {s : σ} (hs : P s) : P (perform ops s) := by
  induction ops generalizing s with
  | nil => exact hs
  | cons o ops ih =>
    rw [perform_cons]
    refine ih (fun f hf => h f (List.mem_cons_of_mem _ hf)) ?_
    cases o with
    | change f => exact h f List.mem_cons_self s hs
    | query => exact hs
    | flush => exact hs

/-- The first change of the operations brings about what the later ones keep. -/
def Marks (P : σ → Prop) (s : σ) : List (SessionOp σ) → Prop
  | [] => True
  | .change f :: ops => P (f s) ∧ ∀ g, .change g ∈ ops → ∀ t, P t → P (g t)
  | _ :: ops => Marks P s ops

theorem Marks.perform_take {P : σ → Prop} {s : σ} {ops : List (SessionOp σ)} (h : Marks P s ops) (n : ℕ)
    (hn : ∃ o ∈ ops.take n, o.isChange = true) : P (perform (ops.take n) s) := by
  induction ops generalizing n with
  | nil =>
    obtain ⟨o, ho, -⟩ := hn
    rw [List.take_nil] at ho
    exact absurd ho List.not_mem_nil
  | cons o ops ih =>
    cases n with
    | zero =>
      obtain ⟨o, ho, -⟩ := hn
      exact absurd ho List.not_mem_nil
    | succ n =>
      rw [List.take_succ_cons] at hn ⊢
      cases o with
      | change f =>
        rw [perform_cons]
        exact perform_invariant (fun g hg => h.2 g (List.mem_of_mem_take hg)) h.1
      | query =>
        refine ih h n ?_
        simpa [SessionOp.isChange] using hn
      | flush =>
        refine ih h n ?_
        simpa [SessionOp.isChange] using hn

/-- After the queries the changes still mark. -/
theorem Marks.append {P : σ → Prop} {s : σ} {ops more : List (SessionOp σ)}
    (hops : ∀ o ∈ ops, o.isChange = false) (h : Marks P s more) : Marks P s (ops ++ more) := by
  induction ops with
  | nil => exact h
  | cons o ops ih =>
    have ho := hops o List.mem_cons_self
    have hrest := ih fun o ho => hops o (List.mem_cons_of_mem _ ho)
    cases o with
    | change f => exact Bool.noConfusion ho
    | query => exact hrest
    | flush => exact hrest

/-- Nothing of the failed execution is left to be stored. -/
def Fault.Spares (x : Fault) (ops : List (SessionOp σ)) : Prop :=
  x.rolledBack = true ∨ ∀ o ∈ ops.take x.after, o.isChange = false

theorem Fault.Spares.commitFailed_eq {x : Fault} {ops : List (SessionOp σ)} (h : x.Spares ops) (s : σ) :
    commitFailed ops x s = s := by
  unfold commitFailed
  by_cases hx : x.rolledBack = true
  · rw [if_pos hx]
  · rw [if_neg hx]
    exact perform_unchanged (h.resolve_left hx) s

theorem Marks.commitFailed {P : σ → Prop} {s : σ} {ops : List (SessionOp σ)} (h : Marks P s ops)
    {x : Fault} (hx : ¬ x.Spares ops) : P (commitFailed ops x s) := by
  rw [Fault.Spares, not_or] at hx
  obtain ⟨hopen, hchanged⟩ := hx
  rw [Relational.commitFailed, if_neg hopen]
  push Not at hchanged
  exact h.perform_take x.after (by simpa using hchanged)

end Relational
