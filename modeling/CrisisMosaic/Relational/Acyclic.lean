import Mathlib.Tactic

/-!
# Adding an edge to an acyclic relation

A new edge closes a cycle only if its end already leads back to its start.
-/

namespace Relational
open Relation
variable {α : Type*} {r s : α → α → Prop} {m d : α}

def Acyclic (r : α → α → Prop) : Prop := ∀ a, ¬ TransGen r a a

theorem transGen_add_edge (hs : ∀ a b, s a b → (a = m ∧ b = d) ∨ r a b)
    (hd : ¬ ReflTransGen r d m) {a b : α} (h : TransGen s a b) :
    TransGen r a b ∨ (ReflTransGen r a m ∧ ReflTransGen r d b) := by
  induction h with
  | single hab =>
    rcases hs _ _ hab with ⟨rfl, rfl⟩ | hold
    · exact Or.inr ⟨.refl, .refl⟩
    · exact Or.inl (.single hold)
  | tail _ hbc ih =>
    rcases hs _ _ hbc with ⟨rfl, rfl⟩ | hold
    · rcases ih with hpath | ⟨-, hback⟩
      · exact Or.inr ⟨hpath.to_reflTransGen, .refl⟩
      · exact absurd hback hd
    · rcases ih with hpath | ⟨hstart, hpath⟩
      · exact Or.inl (hpath.tail hold)
      · exact Or.inr ⟨hstart, hpath.tail hold⟩

theorem Acyclic.add_edge (h : Acyclic r) (hs : ∀ a b, s a b → (a = m ∧ b = d) ∨ r a b)
    (hd : ¬ ReflTransGen r d m) : Acyclic s := by
  intro a hcycle
  rcases transGen_add_edge hs hd hcycle with hold | ⟨hstart, hend⟩
  · exact h a hold
  · exact hd (hend.trans hstart)

theorem Acyclic.mono (h : Acyclic r) (hs : ∀ a b, s a b → r a b) : Acyclic s :=
  fun a hcycle => h a (TransGen.mono hs a a hcycle)

end Relational
