import Mathlib.Tactic

/-!
# Append-only keyed tables

A row's key is its position, so keys are unique and never reused, and a row
once inserted stays. Updates rewrite one row or sweep the table; a selection
returns keys in insertion order.
-/

namespace Relational

structure Table (α : Type*) where
  rows : List α
  deriving DecidableEq

namespace Table
variable {α : Type*}

def empty : Table α := ⟨[]⟩
def size (t : Table α) : ℕ := t.rows.length
def get (t : Table α) (i : ℕ) : Option α := t.rows[i]?
def insert (t : Table α) (a : α) : Table α := ⟨t.rows ++ [a]⟩
def modify (t : Table α) (i : ℕ) (f : α → α) : Table α := ⟨t.rows.modify i f⟩
def sweep (t : Table α) (f : α → α) : Table α := ⟨t.rows.map f⟩

/-- Every row is rewritten, knowing its key. -/
def rewrite (t : Table α) (f : ℕ → α → α) : Table α := ⟨t.rows.mapIdx f⟩

def select (t : Table α) (p : α → Bool) : List ℕ :=
  (List.range t.size).filter fun i => (t.get i).any p

def first (t : Table α) (p : α → Bool) : Option ℕ := (t.select p).head?

def find (t : Table α) (p : α → Bool) : Option (ℕ × α) :=
  (t.first p).bind fun i => (t.get i).map fun a => (i, a)

def All (t : Table α) (P : ℕ → α → Prop) : Prop := ∀ i a, t.get i = some a → P i a

@[simp] theorem get_empty (i : ℕ) : (empty : Table α).get i = none := rfl

@[simp] theorem size_insert (t : Table α) (a : α) : (t.insert a).size = t.size + 1 := by
  simp [insert, size]

@[simp] theorem size_modify (t : Table α) (i : ℕ) (f : α → α) : (t.modify i f).size = t.size := by
  simp [modify, size]

@[simp] theorem size_sweep (t : Table α) (f : α → α) : (t.sweep f).size = t.size := by
  simp [sweep, size]

theorem lt_size {t : Table α} {i : ℕ} {a : α} (h : t.get i = some a) : i < t.size := by
  obtain ⟨hi, -⟩ := List.getElem?_eq_some_iff.mp h
  exact hi

theorem get_of_lt {t : Table α} {i : ℕ} (h : i < t.size) : ∃ a, t.get i = some a :=
  ⟨t.rows[i], List.getElem?_eq_getElem h⟩

@[simp] theorem get_size (t : Table α) : t.get t.size = none := by
  simp [get, size]

theorem get_insert (t : Table α) (a : α) (i : ℕ) :
    (t.insert a).get i = if i = t.size then some a else t.get i := by
  have hs : t.size = t.rows.length := rfl
  simp only [insert, get]
  rcases Nat.lt_trichotomy i t.size with h | h | h
  · rw [if_neg h.ne, List.getElem?_append_left (hs ▸ h)]
  · simp [h, hs]
  · rw [if_neg h.ne', List.getElem?_eq_none (by simp; omega), List.getElem?_eq_none (by omega)]

@[simp] theorem get_insert_size (t : Table α) (a : α) : (t.insert a).get t.size = some a := by
  simp [get_insert]

theorem get_insert_of_some {t : Table α} {i : ℕ} {b : α} (a : α) (h : t.get i = some b) :
    (t.insert a).get i = some b := by
  rw [get_insert, if_neg (lt_size h).ne, h]

theorem get_insert_cases {t : Table α} {a b : α} {i : ℕ} (h : (t.insert a).get i = some b) :
    (i = t.size ∧ b = a) ∨ t.get i = some b := by
  rw [get_insert] at h
  split_ifs at h with hi
  · exact Or.inl ⟨hi, (Option.some.inj h).symm⟩
  · exact Or.inr h

theorem get_modify (t : Table α) (i : ℕ) (f : α → α) (j : ℕ) :
    (t.modify i f).get j = if i = j then (t.get j).map f else t.get j := by
  simp only [modify, get, List.getElem?_modify]
  split_ifs <;> simp

@[simp] theorem get_modify_self (t : Table α) (i : ℕ) (f : α → α) :
    (t.modify i f).get i = (t.get i).map f := by
  simp [get_modify]

theorem get_modify_of_ne (t : Table α) {i j : ℕ} (f : α → α) (h : i ≠ j) :
    (t.modify i f).get j = t.get j := by
  simp [get_modify, h]

theorem get_modify_cases {t : Table α} {i j : ℕ} {f : α → α} {b : α}
    (h : (t.modify i f).get j = some b) :
    (i = j ∧ ∃ a, t.get j = some a ∧ b = f a) ∨ (i ≠ j ∧ t.get j = some b) := by
  rw [get_modify] at h
  split_ifs at h with hij
  · obtain ⟨a, ha, rfl⟩ := Option.map_eq_some_iff.mp h
    exact Or.inl ⟨hij, a, ha, rfl⟩
  · exact Or.inr ⟨hij, h⟩

theorem modify_eq_self {t : Table α} {i : ℕ} {a : α} (h : t.get i = some a) :
    t.modify i (fun _ => a) = t := by
  have hrows : t.rows.modify i (fun _ => a) = t.rows := by
    apply List.ext_getElem?
    intro j
    rw [List.getElem?_modify]
    split_ifs with hj
    · subst hj
      have hi : t.rows[i]? = some a := h
      simp [hi]
    · simp
  rw [modify, hrows]

@[simp] theorem get_sweep (t : Table α) (f : α → α) (i : ℕ) :
    (t.sweep f).get i = (t.get i).map f := by
  simp [sweep, get]

@[simp] theorem get_rewrite (t : Table α) (f : ℕ → α → α) (i : ℕ) :
    (t.rewrite f).get i = (t.get i).map (f i) := by
  simp [rewrite, get]

@[simp] theorem size_rewrite (t : Table α) (f : ℕ → α → α) : (t.rewrite f).size = t.size := by
  simp [rewrite, size]

/-- Updating several rows, some of them possibly more than once. -/
theorem get_foldl_modify {f : α → α} (hf : ∀ a, f (f a) = f a) (ids : List ℕ) (t : Table α) (i : ℕ) :
    (ids.foldl (fun t i => t.modify i f) t).get i = if i ∈ ids then (t.get i).map f else t.get i := by
  induction ids generalizing t with
  | nil => simp
  | cons k ids ih =>
    rw [List.foldl_cons, ih, get_modify]
    by_cases hk : k = i
    · subst hk
      cases t.get k <;> simp [hf]
    · have hne : i ≠ k := Ne.symm hk
      simp [hk, hne]

theorem mem_select {t : Table α} {p : α → Bool} {i : ℕ} :
    i ∈ t.select p ↔ ∃ a, t.get i = some a ∧ p a = true := by
  simp only [select, List.mem_filter, List.mem_range, Option.any_eq_true]
  constructor
  · rintro ⟨-, a, ha, hp⟩
    exact ⟨a, ha, hp⟩
  · rintro ⟨a, ha, hp⟩
    exact ⟨lt_size ha, a, ha, hp⟩

theorem first_some {t : Table α} {p : α → Bool} {i : ℕ} (h : t.first p = some i) :
    ∃ a, t.get i = some a ∧ p a = true :=
  mem_select.mp (List.mem_of_head? h)

theorem first_none {t : Table α} {p : α → Bool} (h : t.first p = none) {i : ℕ} {a : α}
    (ha : t.get i = some a) : p a = false := by
  by_contra hp
  have hm : i ∈ t.select p := mem_select.mpr ⟨a, ha, by simpa using hp⟩
  rw [first, List.head?_eq_none_iff] at h
  simp [h] at hm

theorem find_some {t : Table α} {p : α → Bool} {i : ℕ} {a : α} (h : t.find p = some (i, a)) :
    t.get i = some a ∧ p a = true := by
  simp only [find, Option.bind_eq_some_iff, Option.map_eq_some_iff, Prod.mk.injEq] at h
  obtain ⟨j, hj, b, hb, rfl, rfl⟩ := h
  obtain ⟨c, hc, hp⟩ := first_some hj
  rw [hb] at hc
  exact ⟨hb, Option.some.inj hc ▸ hp⟩

theorem find_none {t : Table α} {p : α → Bool} (h : t.find p = none) {i : ℕ} {a : α}
    (ha : t.get i = some a) : p a = false := by
  cases hf : t.first p with
  | none => exact first_none hf ha
  | some j =>
    obtain ⟨b, hb, -⟩ := first_some hf
    simp [find, hf, hb] at h

/-- When at most one row satisfies `p`, that row is the one found. -/
theorem find_eq {t : Table α} {p : α → Bool} {i : ℕ} {a : α} (ha : t.get i = some a)
    (hp : p a = true) (huniq : ∀ j b, t.get j = some b → p b = true → j = i) :
    t.find p = some (i, a) := by
  cases hf : t.find p with
  | none => simp [find_none hf ha] at hp
  | some r =>
    obtain ⟨j, b⟩ := r
    obtain ⟨hb, hpb⟩ := find_some hf
    have hj := huniq j b hb hpb
    subst hj
    rw [ha] at hb
    rw [Option.some.inj hb]

instance decidableAll {P : ℕ → α → Prop} [∀ i a, Decidable (P i a)] (t : Table α) :
    Decidable (t.All P) :=
  decidable_of_iff (∀ i < t.size, ∀ a ∈ t.get i, P i a)
    ⟨fun h i a ha => h i (lt_size ha) a ha, fun h i _ a ha => h i a ha⟩

theorem All.insert {t : Table α} {P : ℕ → α → Prop} (h : t.All P) {a : α} (ha : P t.size a) :
    (t.insert a).All P := by
  intro i b hb
  rcases get_insert_cases hb with ⟨rfl, rfl⟩ | hb
  · exact ha
  · exact h i b hb

theorem All.modify {t : Table α} {P : ℕ → α → Prop} (h : t.All P) {i : ℕ} {f : α → α}
    (hf : ∀ a, t.get i = some a → P i a → P i (f a)) : (t.modify i f).All P := by
  intro j b hb
  rcases get_modify_cases hb with ⟨rfl, a, ha, rfl⟩ | ⟨-, hb⟩
  · exact hf a ha (h _ a ha)
  · exact h j b hb

theorem All.sweep {t : Table α} {P : ℕ → α → Prop} (h : t.All P) {f : α → α}
    (hf : ∀ i a, P i a → P i (f a)) : (t.sweep f).All P := by
  intro i b hb
  rw [get_sweep] at hb
  obtain ⟨a, ha, rfl⟩ := Option.map_eq_some_iff.mp hb
  exact hf i a (h i a ha)

/-- Every row of `u` comes from the row of `t` with its key, if `t` has one, by a step of `R`;
no row of `t` is lost. -/
structure Evolves (R : Option α → α → Prop) (t u : Table α) : Prop where
  rows : ∀ i b, u.get i = some b → R (t.get i) b
  size : t.size ≤ u.size

namespace Evolves
variable {R : Option α → α → Prop} {t u v : Table α}

theorem refl (h : ∀ a, R (some a) a) (t : Table α) : t.Evolves R t :=
  ⟨fun _ a ha => ha ▸ h a, le_rfl⟩

theorem get_some (h : t.Evolves R u) {i : ℕ} {a : α} (ha : t.get i = some a) :
    ∃ b, u.get i = some b ∧ R (some a) b := by
  obtain ⟨b, hb⟩ := get_of_lt ((lt_size ha).trans_le h.size)
  exact ⟨b, hb, ha ▸ h.rows i b hb⟩

theorem trans (hR : ∀ o a b, R o a → R (some a) b → R o b) (h : t.Evolves R u)
    (k : u.Evolves R v) : t.Evolves R v := by
  refine ⟨fun i b hb => ?_, h.size.trans k.size⟩
  have hk := k.rows i b hb
  cases hu : u.get i with
  | some a => exact hR _ a b (h.rows i a hu) (hu ▸ hk)
  | none =>
    have ht : t.get i = none := by
      by_contra hne
      obtain ⟨a, ha⟩ := Option.ne_none_iff_exists'.mp hne
      obtain ⟨c, hc, -⟩ := h.get_some ha
      simp [hu] at hc
    rw [ht]
    exact hu ▸ hk

theorem mono {S : Option α → α → Prop} (hS : ∀ o b, R o b → S o b) (h : t.Evolves R u) :
    t.Evolves S u :=
  ⟨fun i b hb => hS _ b (h.rows i b hb), h.size⟩

theorem insert (h : t.Evolves R u) {a : α} (ha : R none a) : t.Evolves R (u.insert a) := by
  refine ⟨fun i b hb => ?_, h.size.trans (by simp)⟩
  rcases get_insert_cases hb with ⟨rfl, rfl⟩ | hb
  · have ht : t.get u.size = none := List.getElem?_eq_none h.size
    rwa [ht]
  · exact h.rows i b hb

theorem modify (h : t.Evolves R u) {i : ℕ} {f : α → α}
    (hf : ∀ a, u.get i = some a → R (t.get i) a → R (t.get i) (f a)) :
    t.Evolves R (u.modify i f) := by
  refine ⟨fun j b hb => ?_, h.size.trans (by simp)⟩
  rcases get_modify_cases hb with ⟨rfl, a, ha, rfl⟩ | ⟨-, hb⟩
  · exact hf a ha (h.rows _ a ha)
  · exact h.rows j b hb

theorem sweep (h : t.Evolves R u) {f : α → α}
    (hf : ∀ i a, u.get i = some a → R (t.get i) a → R (t.get i) (f a)) :
    t.Evolves R (u.sweep f) := by
  refine ⟨fun i b hb => ?_, h.size.trans (by simp)⟩
  rw [get_sweep] at hb
  obtain ⟨a, ha, rfl⟩ := Option.map_eq_some_iff.mp hb
  exact hf i a ha (h.rows i a ha)

end Evolves

/-- No row is lost, and the measure of none decreases. -/
def Grows (measure : α → ℕ) (t u : Table α) : Prop :=
  ∀ i a, t.get i = some a → ∃ b, u.get i = some b ∧ measure a ≤ measure b

namespace Grows
variable {measure : α → ℕ} {t u v : Table α}

theorem refl (t : Table α) : t.Grows measure t := fun _ a ha => ⟨a, ha, le_rfl⟩

theorem trans (h : t.Grows measure u) (k : u.Grows measure v) : t.Grows measure v := by
  intro i a ha
  obtain ⟨b, hb, hab⟩ := h i a ha
  obtain ⟨c, hc, hbc⟩ := k i b hb
  exact ⟨c, hc, hab.trans hbc⟩

theorem insert (t : Table α) (a : α) : t.Grows measure (t.insert a) :=
  fun _ b hb => ⟨b, get_insert_of_some a hb, le_rfl⟩

theorem modify (t : Table α) {i : ℕ} {f : α → α}
    (hf : ∀ a, t.get i = some a → measure a ≤ measure (f a)) : t.Grows measure (t.modify i f) := by
  intro j a ha
  by_cases hj : i = j
  · subst hj
    exact ⟨f a, by simp [ha], hf a ha⟩
  · exact ⟨a, by rw [get_modify_of_ne _ _ hj, ha], le_rfl⟩

theorem elim_le (h : t.Grows measure u) (i : ℕ) :
    (t.get i).elim 0 measure ≤ (u.get i).elim 0 measure := by
  cases ha : t.get i with
  | none => exact Nat.zero_le _
  | some a =>
    obtain ⟨b, hb, hab⟩ := h i a ha
    rw [hb]
    exact hab

end Grows

/-- The tables have the same keys, and `R` relates the rows of each key. -/
def Related {β : Type*} (R : α → β → Prop) (t : Table α) (u : Table β) : Prop :=
  ∀ i, Option.Rel R (t.get i) (u.get i)

namespace Related
variable {β : Type*} {R : α → β → Prop} {t : Table α} {u : Table β}

theorem get_some (h : t.Related R u) {i : ℕ} {a : α} {b : β} (ha : t.get i = some a)
    (hb : u.get i = some b) : R a b := by
  have hi := h i
  rw [ha, hb] at hi
  cases hi with
  | some hab => exact hab

theorem mono {S : α → β → Prop} (h : t.Related R u) (hRS : ∀ a b, R a b → S a b) : t.Related S u := by
  intro i
  have hi := h i
  generalize t.get i = x, u.get i = y at hi ⊢
  cases hi with
  | none => exact .none
  | some hab => exact .some (hRS _ _ hab)

/-- The rows may say more of themselves than `R` does. -/
theorem mono_rows {S : α → β → Prop} (h : t.Related R u)
    (hRS : ∀ i a b, t.get i = some a → u.get i = some b → R a b → S a b) : t.Related S u := by
  intro i
  have hi := h i
  have hrow := hRS i
  generalize t.get i = x, u.get i = y at hi hrow ⊢
  cases hi with
  | none => exact .none
  | some hab => exact .some (hrow _ _ rfl rfl hab)

theorem size_eq (h : t.Related R u) : t.size = u.size := by
  apply le_antisymm
  · by_contra hlt
    obtain ⟨a, ha⟩ := get_of_lt (not_le.mp hlt)
    have hi := h u.size
    rw [ha, get_size] at hi
    cases hi
  · by_contra hlt
    obtain ⟨b, hb⟩ := get_of_lt (not_le.mp hlt)
    have hi := h t.size
    rw [hb, get_size] at hi
    cases hi

theorem right_of_some (h : t.Related R u) {i : ℕ} {a : α} (ha : t.get i = some a) :
    ∃ b, u.get i = some b ∧ R a b := by
  obtain ⟨b, hb⟩ := get_of_lt (h.size_eq ▸ lt_size ha)
  exact ⟨b, hb, h.get_some ha hb⟩

theorem left_of_some (h : t.Related R u) {i : ℕ} {b : β} (hb : u.get i = some b) :
    ∃ a, t.get i = some a ∧ R a b := by
  obtain ⟨a, ha⟩ := get_of_lt (h.size_eq ▸ lt_size hb)
  exact ⟨a, ha, h.get_some ha hb⟩

theorem select_eq (h : t.Related R u) {p : α → Bool} {q : β → Bool}
    (hpq : ∀ i a b, t.get i = some a → u.get i = some b → R a b → p a = q b) :
    t.select p = u.select q := by
  unfold select
  rw [h.size_eq]
  refine List.filter_congr fun i _ => ?_
  have hi := h i
  cases ha : t.get i with
  | none =>
    rw [ha] at hi
    cases hb : u.get i with
    | none => rfl
    | some b => rw [hb] at hi; cases hi
  | some a =>
    rw [ha] at hi
    cases hb : u.get i with
    | none => rw [hb] at hi; cases hi
    | some b => exact hpq i a b ha hb (h.get_some ha hb)

theorem insert (h : t.Related R u) {a : α} {b : β} (hab : R a b) :
    (t.insert a).Related R (u.insert b) := by
  intro i
  rw [get_insert, get_insert, h.size_eq]
  split_ifs
  · exact .some hab
  · exact h i

/-- The rows on the left are rewritten. -/
theorem rewriteLeft (h : t.Related R u) {f : ℕ → α → α} (hf : ∀ i a b, R a b → R (f i a) b) :
    (t.rewrite f).Related R u := by
  intro i
  have hi := h i
  rw [get_rewrite]
  generalize t.get i = x, u.get i = y at hi ⊢
  cases hi with
  | none => exact .none
  | some hab => exact .some (hf i _ _ hab)

theorem modifyLeft (h : t.Related R u) {i : ℕ} {f : α → α} (hf : ∀ a b, R a b → R (f a) b) :
    (t.modify i f).Related R u := by
  intro j
  have hj := h j
  rw [get_modify]
  generalize t.get j = x, u.get j = y at hj ⊢
  cases hj with
  | none => split_ifs <;> exact .none
  | some hab =>
    split_ifs
    · exact .some (hf _ _ hab)
    · exact .some hab

theorem forall₂_filterMap (h : t.Related R u) (ids : List ℕ) :
    List.Forall₂ R (ids.filterMap t.get) (ids.filterMap u.get) := by
  induction ids with
  | nil => exact .nil
  | cons i ids ih =>
    have hi := h i
    rw [List.filterMap_cons, List.filterMap_cons]
    generalize t.get i = x, u.get i = y at hi
    cases hi with
    | none => exact ih
    | some hab => exact .cons hab ih

section Endo
variable {R : α → α → Prop} {t u v : Table α}

theorem refl (hR : ∀ a, R a a) (t : Table α) : t.Related R t := by
  intro i
  cases t.get i with
  | none => exact .none
  | some a => exact .some (hR a)

theorem trans (hR : ∀ a b c, R a b → R b c → R a c) (h : t.Related R u) (k : u.Related R v) :
    t.Related R v := by
  intro i
  have hi := h i
  have ki := k i
  generalize t.get i = x, u.get i = y, v.get i = z at hi ki
  cases hi with
  | none => exact ki
  | some hab =>
    cases ki with
    | some hbc => exact .some (hR _ _ _ hab hbc)

theorem modify (hR : ∀ a, R a a) (t : Table α) {i : ℕ} {f : α → α}
    (hf : ∀ a, t.get i = some a → R a (f a)) : t.Related R (t.modify i f) := by
  intro j
  rw [get_modify]
  cases hj : t.get j with
  | none => split_ifs <;> exact .none
  | some a =>
    split_ifs with hij
    · exact .some (hf a (hij ▸ hj))
    · exact .some (hR a)

end Endo

end Related

end Table
end Relational
