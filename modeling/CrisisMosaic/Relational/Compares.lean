import CrisisMosaic.Relational.Fallible
import CrisisMosaic.Relational.Keeps

/-!
# Requests that quote a revision

A handler compares the revision its caller has seen with the present one. A caller who has seen
another one is refused for it, or for a reason that has nothing to do with what was quoted.
-/

namespace Relational
universe u v w
variable {ε : Type u} {α : Type v} {β : Type w} {C : ε → Prop} {k : ℕ}

/-- `F n` is the handler when `n` is quoted, `k` the present revision and `C` says which refusals
are for a revision that is not `k`. -/
def Compares (C : ε → Prop) (k : ℕ) (F : ℕ → Except ε α) : Prop :=
  ∀ n, n ≠ k → ∃ e, F n = .error e ∧ (C e ∨ ∀ m, F m = .error e)

namespace Compares

theorem of_require {P : ℕ → Prop} [∀ n, Decidable (P n)] {e : ℕ → ε} (hP : ∀ n, P n → n = k)
    (he : ∀ n, C (e n)) : Compares C k fun n => (require (P n) (e n) : Except ε PUnit.{v+1}) := by
  intro n hn
  refine ⟨e n, ?_, Or.inl (he n)⟩
  exact if_neg fun h => hn (hP n h)

/-- What comes before the comparison refuses every revision alike. -/
theorem bind {α β : Type v} {x : Except ε α} {F : α → ℕ → Except ε β}
    (h : ∀ a, x = .ok a → Compares C k (F a)) : Compares C k fun n => x >>= fun a => F a n := by
  intro n hn
  cases x with
  | error e => exact ⟨e, rfl, Or.inr fun _ => rfl⟩
  | ok a => exact h a rfl n hn

/-- The condition does not depend on what is quoted, whatever decides it. -/
theorem bind_require {α : Type v} {c : Prop} {d : ℕ → Decidable c} {e : ε} {F : PUnit → ℕ → Except ε α}
    (h : c → Compares C k (F ⟨⟩)) : Compares C k fun n => @require _ c (d n) e >>= fun a => F a n := by
  have hd : d = fun _ => d 0 := funext fun _ => Subsingleton.elim _ _
  rw [hd]
  refine .bind fun a ha => ?_
  exact h (@require_ok _ c (d 0) e a |>.mp ha)

/-- What comes after it does not matter. -/
theorem andThen {α β : Type v} {F : ℕ → Except ε α} (h : Compares C k F) (f : ℕ → α → Except ε β) :
    Compares C k fun n => F n >>= f n := by
  intro n hn
  obtain ⟨e, he, hall⟩ := h n hn
  refine ⟨e, ?_, hall.imp_right fun hall m => ?_⟩
  · dsimp only
    rw [he]
    rfl
  · dsimp only
    rw [hall m]
    rfl

theorem map {α β : Type v} {F : ℕ → Except ε α} (h : Compares C k F) (f : α → β) :
    Compares C k fun n => f <$> F n := by
  intro n hn
  obtain ⟨e, he, hall⟩ := h n hn
  refine ⟨e, ?_, hall.imp_right fun hall m => ?_⟩
  · dsimp only
    rw [he]
    rfl
  · dsimp only
    rw [hall m]
    rfl

/-- An accepted request has quoted the present revision. -/
theorem accepted {F : ℕ → Except ε α} (h : Compares C k F) {n : ℕ} {a : α} (ha : F n = .ok a) :
    n = k := by
  by_contra hn
  obtain ⟨e, he, -⟩ := h n hn
  exact nomatch ha.symm.trans he

end Compares

/-! ## What is read of a written table -/

namespace Table

section Writing
variable {α : Type*} {t : Table α} {p : α → Bool}

theorem elim_modify_lt {measure : α → ℕ} {i : ℕ} {a : α} {f : α → α} (ha : t.get i = some a)
    (hlt : measure a < measure (f a)) :
    (t.get i).elim 0 measure < ((t.modify i f).get i).elim 0 measure := by
  rw [get_modify_self, ha]
  exact hlt

theorem find_insert (t : Table α) (a : α) (p : α → Bool) :
    (t.insert a).find p = (t.find p).or (if p a then some (t.size, a) else none) := by
  unfold find first
  rw [select_insert, List.head?_append]
  cases hfirst : (t.select p).head? with
  | none =>
    cases hp : p a with
    | false => rfl
    | true => simp
  | some i =>
    obtain ⟨b, hb, -⟩ := first_some hfirst
    simp [get_insert_of_some a hb, hb]

theorem select_modify {i : ℕ} {f : α → α} (hf : ∀ a, t.get i = some a → p (f a) = p a) :
    (t.modify i f).select p = t.select p := by
  unfold select
  rw [size_modify]
  refine List.filter_congr fun j _ => ?_
  rw [get_modify]
  split_ifs with hj
  · subst hj
    cases ha : t.get i with
    | none => rfl
    | some a => exact hf a ha
  · rfl

/-- A rewritten row is found in the place of the old one. -/
theorem find_modify {i : ℕ} {f : α → α} (hf : ∀ a, t.get i = some a → p (f a) = p a) :
    (t.modify i f).find p = (t.find p).map fun x => (x.1, if i = x.1 then f x.2 else x.2) := by
  unfold find first
  rw [select_modify hf]
  cases (t.select p).head? with
  | none => rfl
  | some j =>
    rw [Option.bind_some, Option.bind_some, get_modify]
    split_ifs with hj
    · cases t.get j <;> simp [hj]
    · cases t.get j <;> simp [hj]

end Writing

end Table
end Relational
