import CrisisMosaic.Relational.Run
import Mathlib.Data.Set.Basic

/-!
# Revisions that guard an observation

A key's revision never decreases and what is observed under the key changes only
with it. Whoever finds the revision they read unchanged may rely on what they
read with it.
-/

namespace Relational
variable {σ κ α ι : Type*} (revision : σ → κ → Option ℕ) (seen : σ → κ → Set α)

def Guarded (s t : σ) : Prop :=
  ∀ k n, revision s k = some n →
    ∃ m, revision t k = some m ∧ n ≤ m ∧ (m = n → seen t k = seen s k)

variable {revision seen} {r s t : σ}

theorem Guarded.refl (s : σ) : Guarded revision seen s s :=
  fun _ n hn => ⟨n, hn, le_rfl, fun _ => rfl⟩

theorem Guarded.trans (h : Guarded revision seen r s) (k : Guarded revision seen s t) :
    Guarded revision seen r t := by
  intro key n hn
  obtain ⟨m, hm, hnm, hseen⟩ := h key n hn
  obtain ⟨l, hl, hml, hseen'⟩ := k key m hm
  exact ⟨l, hl, hnm.trans hml, fun hln => (hseen' (by omega)).trans (hseen (by omega))⟩

theorem Guarded.seen_eq (h : Guarded revision seen s t) {k : κ} {n : ℕ}
    (hs : revision s k = some n) (ht : revision t k = some n) : seen t k = seen s k := by
  obtain ⟨m, hm, -, hseen⟩ := h k n hs
  exact hseen (Option.some.inj (hm.symm.trans ht))

variable (revision seen) in
theorem Guarded.run {step : σ → ι → σ} {I : σ → Prop} (hinv : ∀ s i, I s → I (step s i))
    (hstep : ∀ s i, I s → Guarded revision seen s (step s i)) (hs : I s) (is : List ι) :
    Guarded revision seen s (run step s is) :=
  run_relation step (C := fun _ _ => True) .refl .trans (fun s i hs _ => hinv s i hs)
    (fun s i hs _ => hstep s i hs) hs (along_true step s is)

end Relational
