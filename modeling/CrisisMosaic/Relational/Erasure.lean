import CrisisMosaic.Relational.Table

/-!
# Erasing the rows of an owner

The rows of some owners are overwritten, one owner after the other. Two tables that agree on the
rows of all other owners are mapped to equal tables as soon as their rows of one erased owner are
overwritten with equal rows.
-/

namespace Relational
variable {α κ : Type*} [DecidableEq κ]

def eraseOwned (owner : α → Option κ) (erase : α → α) (t : Table α) (k : κ) : Table α :=
  t.sweep fun a => if owner a = some k then erase a else a

/-- The rows of all the owners at once. -/
def eraseAll (owner : α → Option κ) (erase : α → α) (ks : List κ) (t : Table α) : Table α :=
  t.sweep fun a => if ∃ k ∈ ks, owner a = some k then erase a else a

/-- Rows that may differ in what is masked if they belong to `k`, and are the same otherwise. -/
def ApartFrom (owner : α → Option κ) (masked : α → α) (k : κ) (a b : α) : Prop :=
  masked a = masked b ∧ (owner a ≠ some k → a = b)

/-- A row is left if it is flagged. -/
def eraseUnless (flagged : α → Bool) (mark : α → α) (a : α) : α := if flagged a then a else mark a

section Tables
variable {owner : α → Option κ} {erase : α → α}

@[simp] theorem eraseAll_nil (t : Table α) : eraseAll owner erase [] t = t := by
  simp [eraseAll, Table.sweep]

theorem eraseAll_cons (howner : ∀ a, owner (erase a) = owner a) (hidem : ∀ a, erase (erase a) = erase a)
    (k : κ) (ks : List κ) (t : Table α) :
    eraseAll owner erase ks (eraseOwned owner erase t k) = eraseAll owner erase (k :: ks) t := by
  have hrow : ∀ a, (if ∃ l ∈ ks, owner (if owner a = some k then erase a else a) = some l then
      erase (if owner a = some k then erase a else a) else if owner a = some k then erase a else a) =
      if ∃ l ∈ k :: ks, owner a = some l then erase a else a := by
    intro a
    by_cases hk : owner a = some k
    · have hmem : ∃ l ∈ k :: ks, owner a = some l := ⟨k, List.mem_cons_self, hk⟩
      rw [if_pos hk, if_pos hmem, howner, hidem, ite_self]
    · have hmem : (∃ l ∈ k :: ks, owner a = some l) ↔ ∃ l ∈ ks, owner a = some l := by
        simp [hk]
      rw [if_neg hk]
      simp only [hmem]
  simp only [eraseAll, eraseOwned, Table.sweep, List.map_map]
  exact congrArg _ (List.map_congr_left fun a _ => hrow a)

theorem related_of_forall₂ {R : α → α → Prop} {t u : Table α} (h : List.Forall₂ R t.rows u.rows) :
    t.Related R u := by
  intro i
  change Option.Rel R t.rows[i]? u.rows[i]?
  generalize t.rows = x, u.rows = y at h ⊢
  induction h generalizing i with
  | nil => exact .none
  | cons hab _ ih =>
    cases i with
    | zero => exact .some hab
    | succ i => exact ih i

theorem sweep_eq_iff {t u : Table α} {f : α → α} {R : α → α → Prop} (h : t.Related R u) :
    t.sweep f = u.sweep f ↔ t.Related (fun a b => f a = f b) u := by
  constructor
  · intro hsame i
    have hi := congrArg (fun v : Table α => v.get i) hsame
    have hrel := h i
    simp only [Table.get_sweep] at hi
    generalize t.get i = x, u.get i = y at hi hrel ⊢
    cases hrel with
    | none => exact .none
    | some _ => exact .some (Option.some.inj hi)
  · intro hrows
    have hlist : t.rows.map f = u.rows.map f := by
      apply List.ext_getElem?
      intro i
      rw [List.getElem?_map, List.getElem?_map]
      have hi := hrows i
      change Option.Rel _ t.rows[i]? u.rows[i]? at hi
      generalize t.rows[i]? = x, u.rows[i]? = y at hi ⊢
      cases hi with
      | none => rfl
      | some hab => exact congrArg some hab
    rw [Table.sweep, hlist, Table.sweep]

/-- Relations that agree on related rows. -/
theorem related_congr {P R S : α → α → Prop} {t u : Table α} (h : t.Related P u)
    (hrow : ∀ a b, P a b → (R a b ↔ S a b)) : t.Related R u ↔ t.Related S u := by
  refine forall_congr' fun i => ?_
  have hi := h i
  generalize t.get i = x, u.get i = y at hi ⊢
  cases hi with
  | none => exact iff_of_true .none .none
  | some hab => exact Option.rel_some_some.trans ((hrow _ _ hab).trans Option.rel_some_some.symm)

/-- It is enough to know which rows of one owner are erased alike. -/
theorem eraseAll_eq_iff {masked : α → α} {ks : List κ} {k : κ} {t u : Table α} {C : α → α → Prop}
    (hk : k ∈ ks) (h : t.Related (ApartFrom owner masked k) u)
    (hmasked : ∀ a b, masked a = masked b → owner a = owner b)
    (herase : ∀ a b, masked a = masked b → (erase a = erase b ↔ C a b)) :
    eraseAll owner erase ks t = eraseAll owner erase ks u ↔
      t.Related (fun a b => owner a = some k → C a b) u := by
  rw [eraseAll, eraseAll, sweep_eq_iff h]
  refine related_congr h fun a b hab => ?_
  rw [← herase a b hab.1]
  by_cases howner : owner a = some k
  · have hb : owner b = some k := (hmasked a b hab.1).symm.trans howner
    rw [if_pos ⟨k, hk, howner⟩, if_pos ⟨k, hk, hb⟩]
    exact ⟨fun hsame _ => hsame, fun hsame => hsame howner⟩
  · rw [hab.2 howner]
    exact iff_of_true rfl fun _ => rfl

end Tables

/-! ## Rows that are erased already -/

/-- All rows of an owner have a property. -/
def OwnedAll (owner : α → Option κ) (P : α → Prop) (k : κ) (t : Table α) : Prop :=
  t.All fun _ a => owner a = some k → P a

section Owned
variable {owner : α → Option κ} {erase : α → α} {P : α → Prop} {t : Table α}

theorem ownedAll_eraseOwned_self (hdone : ∀ a, P (erase a)) (t : Table α) (k : κ) : OwnedAll owner P k (eraseOwned owner erase t k) := by
  intro i b hb hk
  rw [eraseOwned, Table.get_sweep] at hb
  obtain ⟨a, -, rfl⟩ := Option.map_eq_some_iff.mp hb
  by_cases ha : owner a = some k
  · rw [if_pos ha]
    exact hdone a
  · rw [if_neg ha] at hk
    exact absurd hk ha

/-- Rows of other owners may be erased in between. -/
theorem OwnedAll.eraseOwned {k : κ} (h : OwnedAll owner P k t) (hdone : ∀ a, P (erase a)) (l : κ) : OwnedAll owner P k (eraseOwned owner erase t l) := by
  intro i b hb hk
  rw [Relational.eraseOwned, Table.get_sweep] at hb
  obtain ⟨a, ha, rfl⟩ := Option.map_eq_some_iff.mp hb
  split_ifs at hk ⊢
  · exact hdone a
  · exact h i a ha hk

theorem rewrite_eq_self {f : ℕ → α → α} (h : t.All fun i a => f i a = a) : t.rewrite f = t := by
  apply congrArg Table.mk
  apply List.ext_getElem?
  intro i
  rw [List.getElem?_mapIdx]
  cases ha : t.rows[i]? with
  | none => rfl
  | some a => exact congrArg some (h i a ha)

theorem sweep_eq_self {f : α → α} (h : t.All fun _ a => f a = a) : t.sweep f = t := by
  apply congrArg Table.mk
  apply List.ext_getElem?
  intro i
  rw [List.getElem?_map]
  cases ha : t.rows[i]? with
  | none => rfl
  | some a => exact congrArg some (h i a ha)

theorem OwnedAll.eraseOwned_eq {k : κ} (h : OwnedAll owner P k t) (erase : α → α)
    (hkeep : ∀ a, P a → erase a = a) : Relational.eraseOwned owner erase t k = t := by
  apply sweep_eq_self
  intro i a ha
  split_ifs with hk
  · exact hkeep a (h i a ha hk)
  · rfl

/-- The rows of an owner that are not recognised as erased. -/
def unerased (owner : α → Option κ) (already : α → Bool) (t : Table α) (k : κ) : List ℕ :=
  t.select fun a => owner a = some k && !already a

theorem OwnedAll.unerased_eq_nil {k : κ} (h : OwnedAll owner P k t) {already : α → Bool}
    (hknown : ∀ a, P a → already a = true) : unerased owner already t k = [] := by
  rw [List.eq_nil_iff_forall_not_mem]
  intro i hi
  obtain ⟨a, ha, hp⟩ := Table.mem_select.mp hi
  rw [Bool.and_eq_true, decide_eq_true_eq, Bool.not_eq_true'] at hp
  rw [hknown a (h i a ha hp.1)] at hp
  exact nomatch hp.2

end Owned

section Flags
variable {flagged : α → Bool} {mark : α → α} {a b : α}

theorem eraseUnless_eraseUnless (hflag : ∀ a, flagged (mark a) = true) (a : α) :
    eraseUnless flagged mark (eraseUnless flagged mark a) = eraseUnless flagged mark a := by
  unfold eraseUnless
  cases ha : flagged a with
  | true => simp [ha]
  | false => simp [hflag]

/-- Two rows are erased alike if they are equal, or if those that are left carry the mark already. -/
theorem eraseUnless_eq_iff (hidem : ∀ a, mark (mark a) = mark a) :
    eraseUnless flagged mark a = eraseUnless flagged mark b ↔
      a = b ∨ ((flagged a = true → mark a = a) ∧ (flagged b = true → mark b = b) ∧ mark a = mark b) := by
  unfold eraseUnless
  cases ha : flagged a with
  | true =>
    cases hb : flagged b with
    | true =>
      simp only [if_true, true_imp_iff]
      constructor
      · exact Or.inl
      · rintro (heq | ⟨hma, hmb, hm⟩)
        · exact heq
        · rw [← hma, hm, hmb]
    | false =>
      simp only [if_true, Bool.false_eq_true, if_false, true_imp_iff, false_imp_iff, true_and]
      constructor
      · intro heq
        have hmark : mark a = mark b := by rw [heq, hidem]
        exact Or.inr ⟨hmark.trans heq.symm, hmark⟩
      · rintro (heq | ⟨hma, hm⟩)
        · rw [heq, hb] at ha
          exact Bool.noConfusion ha
        · rw [← hm, hma]
  | false =>
    cases hb : flagged b with
    | true =>
      simp only [if_true, Bool.false_eq_true, if_false, true_imp_iff, false_imp_iff, true_and]
      constructor
      · intro heq
        have hmark : mark a = mark b := by rw [← heq, hidem]
        exact Or.inr ⟨hmark.symm.trans heq, hmark⟩
      · rintro (heq | ⟨hmb, hm⟩)
        · rw [← heq, ha] at hb
          exact Bool.noConfusion hb
        · rw [hm, hmb]
    | false =>
      simp only [Bool.false_eq_true, if_false, false_imp_iff, true_and]
      exact ⟨Or.inr, fun h => h.elim (congrArg mark) id⟩

end Flags
end Relational
