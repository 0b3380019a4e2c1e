import CrisisMosaic.Relational.Fallible

/-!
# What comes of fallible steps

When a chain of fallible steps completes, which errors it can have, and what a loop of them has done.
-/

/-!
## Steps that come to a result

A chain completes when each of its steps does, with what the ones before it have returned.
-/

namespace Relational
universe u v w
variable {ε : Type u} {α : Type v} {β : Type v}

def Completes (x : Except ε α) : Prop := ∃ a, x = .ok a

@[simp] theorem completes_ok (a : α) : Completes (.ok a : Except ε α) := ⟨a, rfl⟩

@[simp] theorem completes_pure (a : α) : Completes (pure a : Except ε α) := ⟨a, rfl⟩

@[simp] theorem not_completes_error (e : ε) : ¬ Completes (.error e : Except ε α) := nofun

@[simp] theorem not_completes_throw (e : ε) : ¬ Completes (throw e : Except ε α) := nofun

theorem completes_found {o : Option α} {e : ε} : Completes (found o e) ↔ o.isSome = true := by
  cases o <;> simp [found]

theorem completes_bind {x : Except ε α} {f : α → Except ε β} :
    Completes (x >>= f) ↔ ∃ a, x = .ok a ∧ Completes (f a) := by
  cases x <;> simp [bind, Except.bind]

theorem completes_map {x : Except ε α} {f : α → β} : Completes (f <$> x) ↔ Completes x := by
  cases x <;> simp [Functor.map, Except.map]

theorem not_completes {x : Except ε α} : ¬ Completes x ↔ ∃ e, x = .error e := by
  cases x <;> simp

/-- A loop whose steps complete independently of what it has accumulated. -/
theorem completes_foldlM {f : β → α → Except ε β} {p : α → Prop}
    (h : ∀ b a, Completes (f b a) ↔ p a) (xs : List α) (b : β) :
    Completes (xs.foldlM f b) ↔ ∀ a ∈ xs, p a := by
  induction xs generalizing b with
  | nil => simp
  | cons x xs ih =>
    rw [List.foldlM_cons, completes_bind, List.forall_mem_cons, ← h b x]
    constructor
    · rintro ⟨b', hstep, hrest⟩
      exact ⟨⟨b', hstep⟩, (ih b').mp hrest⟩
    · rintro ⟨⟨b', hstep⟩, hrest⟩
      exact ⟨b', hstep, (ih b').mpr hrest⟩

/-- All values of a list convert exactly when each of them does. -/
theorem mapM_isSome {γ : Type w} {δ : Type w} {f : γ → Option δ} {xs : List γ} :
    (xs.mapM f).isSome = true ↔ ∀ x ∈ xs, (f x).isSome = true := by
  induction xs with
  | nil => simp
  | cons x xs ih =>
    rw [List.mapM_cons, List.forall_mem_cons, ← ih]
    cases f x <;> cases xs.mapM f <;> simp

end Relational

/-!
## How steps fail

Every error of a chain is an error of one of its steps.
-/

namespace Relational
universe u v
variable {ε : Type u} {α β : Type v}

def FailsWith (P : ε → Prop) (x : Except ε α) : Prop := ∀ e, x = .error e → P e

namespace FailsWith
variable {P : ε → Prop}

theorem of_ok {x : Except ε α} {a : α} (h : x = .ok a) : FailsWith P x := by
  intro e he
  rw [h] at he
  cases he

theorem pure (a : α) : FailsWith P (Pure.pure a : Except ε α) := of_ok rfl

theorem error {e : ε} (h : P e) : FailsWith P (.error e : Except ε α) := by
  intro e' he
  cases he
  exact h

theorem throw {e : ε} (h : P e) : FailsWith P (throw e : Except ε α) := error h

theorem require {c : Prop} [Decidable c] {e : ε} (h : P e) : FailsWith P (require c e) := by
  unfold Relational.require
  split_ifs
  · exact of_ok rfl
  · exact error h

theorem found {o : Option α} {e : ε} (h : P e) : FailsWith P (found o e) := by
  cases o with
  | none => exact error h
  | some a => exact of_ok rfl

theorem bind {x : Except ε α} {f : α → Except ε β} (hx : FailsWith P x)
    (hf : ∀ a, x = .ok a → FailsWith P (f a)) : FailsWith P (x >>= f) := by
  cases x with
  | error e => exact error (hx e rfl)
  | ok a => exact hf a rfl

/-- A check, then the rest. -/
theorem check {c : Prop} [Decidable c] {e : ε} {f : PUnit.{v+1} → Except ε β} (h : P e)
    (hf : c → FailsWith P (f ⟨⟩)) : FailsWith P (Relational.require c e >>= f) :=
  bind (require h) fun _ hc => hf (require_ok.mp hc)

/-- A lookup, then the rest. -/
theorem lookup {o : Option α} {e : ε} {f : α → Except ε β} (h : P e)
    (hf : ∀ a, o = some a → FailsWith P (f a)) : FailsWith P (Relational.found o e >>= f) :=
  bind (found h) fun a ha => hf a (found_ok.mp ha)

theorem map {x : Except ε α} {f : α → β} (hx : FailsWith P x) : FailsWith P (f <$> x) := by
  cases x with
  | error e => exact error (hx e rfl)
  | ok a => exact of_ok rfl

end FailsWith
end Relational

/-!
## Loops that settle their items

Each step of a loop settles one item and leaves the settled ones settled. A second run of the loop then
finds nothing to do.
-/

namespace Relational
variable {ε σ ι τ : Type*} {step : σ → ι → Except ε σ} {I : σ → Prop} (Settled : ι → σ → Prop)

theorem foldlM_settles {is : List ι}
    (hstep : ∀ i ∈ is, ∀ s, I s →
      ∃ t, step s i = .ok t ∧ I t ∧ Settled i t ∧ ∀ j, Settled j s → Settled j t) {s : σ} (hs : I s) :
    ∃ t, is.foldlM step s = .ok t ∧ I t ∧ (∀ i ∈ is, Settled i t) ∧ ∀ j, Settled j s → Settled j t := by
  induction is generalizing s with
  | nil => exact ⟨s, rfl, hs, fun _ h => absurd h List.not_mem_nil, fun _ h => h⟩
  | cons i is ih =>
    obtain ⟨u, hu, hIu, hset, hkeep⟩ := hstep i List.mem_cons_self s hs
    obtain ⟨t, ht, hIt, hall, hkeep'⟩ := ih (fun j hj => hstep j (List.mem_cons_of_mem _ hj)) hIu
    refine ⟨t, ?_, hIt, ?_, fun j hj => hkeep' j (hkeep j hj)⟩
    · rw [List.foldlM_cons, hu]
      exact ht
    · intro j hj
      rcases List.mem_cons.mp hj with rfl | hj
      · exact hkeep' _ hset
      · exact hall j hj

theorem foldlM_settled (hdone : ∀ s i, Settled i s → step s i = .ok s) {is : List ι} {s : σ}
    (h : ∀ i ∈ is, Settled i s) : is.foldlM step s = .ok s := by
  induction is with
  | nil => rfl
  | cons i is ih =>
    rw [List.foldlM_cons, hdone s i (h i List.mem_cons_self)]
    exact ih fun j hj => h j (List.mem_cons_of_mem _ hj)

/-- A part of the state goes its own way. -/
theorem foldlM_projected {f : σ → τ} {g : τ → ι → τ} (hstep : ∀ s i t, step s i = .ok t → f t = g (f s) i)
    {is : List ι} {s t : σ} (h : is.foldlM step s = .ok t) : f t = is.foldl g (f s) := by
  induction is generalizing s with
  | nil =>
    obtain rfl := Except.ok.inj h
    rfl
  | cons i is ih =>
    rw [List.foldlM_cons] at h
    obtain ⟨u, hu, hrest⟩ := bind_ok.mp h
    rw [ih hrest, hstep s i u hu]
    rfl

end Relational
