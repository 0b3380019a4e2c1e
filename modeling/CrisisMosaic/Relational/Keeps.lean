import CrisisMosaic.Relational.Table

/-!
# What a table keeps of its rows, and how many rows a selection has

`Keeps f` says that no row is lost and that none changes what `f` reads of it.
The size of a selection grows only where a row begins to satisfy the predicate.
-/

namespace Relational.Table
variable {α β : Type*}

def Keeps (f : α → β) (t u : Table α) : Prop :=
  ∀ i a, t.get i = some a → ∃ b, u.get i = some b ∧ f b = f a

namespace Keeps
variable {f : α → β} {t u v : Table α}

theorem refl (f : α → β) (t : Table α) : t.Keeps f t := fun _ a ha => ⟨a, ha, rfl⟩

theorem mono {γ : Type*} {g : α → γ} (h : t.Keeps f u) (hg : ∀ a b, f b = f a → g b = g a) :
    t.Keeps g u := by
  intro i a ha
  obtain ⟨b, hb, hab⟩ := h i a ha
  exact ⟨b, hb, hg a b hab⟩

theorem trans (h : t.Keeps f u) (k : u.Keeps f v) : t.Keeps f v := by
  intro i a ha
  obtain ⟨b, hb, hab⟩ := h i a ha
  obtain ⟨c, hc, hbc⟩ := k i b hb
  exact ⟨c, hc, hbc.trans hab⟩

theorem insert (f : α → β) (t : Table α) (a : α) : t.Keeps f (t.insert a) :=
  fun _ b hb => ⟨b, get_insert_of_some a hb, rfl⟩

theorem modify (t : Table α) {i : ℕ} {g : α → α} (hg : ∀ a, f (g a) = f a) :
    t.Keeps f (t.modify i g) := by
  intro j a ha
  rw [get_modify, ha]
  split_ifs
  · exact ⟨g a, rfl, hg a⟩
  · exact ⟨a, rfl, rfl⟩

theorem sweep (t : Table α) {g : α → α} (hg : ∀ a, f (g a) = f a) : t.Keeps f (t.sweep g) :=
  fun i a ha => ⟨g a, by rw [get_sweep, ha, Option.map_some], hg a⟩

end Keeps

section Counting
variable {t u : Table α} {p q : α → Bool}

theorem nodup_select (t : Table α) (p : α → Bool) : (t.select p).Nodup :=
  List.nodup_range.filter _

/-- The selected rows with their keys. -/
def rowsWith (t : Table α) (p : α → Bool) : List (ℕ × α) :=
  (t.select p).filterMap fun i => (t.get i).map fun a => (i, a)

theorem mem_rowsWith {i : ℕ} {a : α} : (i, a) ∈ t.rowsWith p ↔ t.get i = some a ∧ p a = true := by
  simp only [rowsWith, List.mem_filterMap, mem_select, Option.map_eq_some_iff, Prod.mk.injEq]
  constructor
  · rintro ⟨j, ⟨b, hb, hp⟩, c, hc, rfl, rfl⟩
    obtain rfl := Option.some.inj (hb.symm.trans hc)
    exact ⟨hb, hp⟩
  · rintro ⟨hget, hp⟩
    exact ⟨i, ⟨a, hget, hp⟩, a, hget, rfl, rfl⟩

theorem nodup_rowsWith (t : Table α) (p : α → Bool) : (t.rowsWith p).Nodup := by
  apply List.Nodup.filterMap
  · intro i j row hi hj
    obtain ⟨a, -, rfl⟩ := Option.map_eq_some_iff.mp hi
    obtain ⟨b, -, hb⟩ := Option.map_eq_some_iff.mp hj
    exact (congrArg Prod.fst hb).symm
  · exact nodup_select t p

theorem rowsWith_inj {a b : ℕ × α} (ha : a ∈ t.rowsWith p) (hb : b ∈ t.rowsWith p) (h : a.1 = b.1) :
    a = b := by
  obtain ⟨i, x⟩ := a
  obtain ⟨j, y⟩ := b
  obtain rfl : i = j := h
  rw [Option.some.inj ((mem_rowsWith.mp ha).1.symm.trans (mem_rowsWith.mp hb).1)]

theorem select_insert (t : Table α) (a : α) (p : α → Bool) :
    (t.insert a).select p = t.select p ++ if p a then [t.size] else [] := by
  have hold : (List.range t.size).filter (fun i => ((t.insert a).get i).any p) = t.select p := by
    refine List.filter_congr fun i hi => ?_
    rw [get_insert, if_neg (List.mem_range.mp hi).ne]
  rw [select, size_insert, List.range_succ, List.filter_append, hold, List.filter_singleton,
    get_insert_size, Option.any_some]
  cases p a <;> rfl

theorem length_select_insert (t : Table α) (a : α) (p : α → Bool) :
    ((t.insert a).select p).length = (t.select p).length + if p a then 1 else 0 := by
  rw [select_insert]
  cases p a <;> simp

/-- No row begins to be selected. -/
theorem length_select_le (h : ∀ i b, u.get i = some b → q b = true →
    ∃ a, t.get i = some a ∧ p a = true) : (u.select q).length ≤ (t.select p).length := by
  refine ((nodup_select u q).subperm fun i hi => ?_).length_le
  obtain ⟨b, hb, hq⟩ := mem_select.mp hi
  exact mem_select.mpr (h i b hb hq)

theorem length_select_modify_le (t : Table α) {i : ℕ} {g : α → α}
    (hg : ∀ a, q (g a) = true → q a = true) :
    ((t.modify i g).select q).length ≤ (t.select q).length := by
  refine length_select_le fun j b hb hq => ?_
  rcases get_modify_cases hb with ⟨-, a, ha, rfl⟩ | ⟨-, hb⟩
  · exact ⟨a, ha, hg a hq⟩
  · exact ⟨b, hb, hq⟩

theorem length_select_sweep_le (t : Table α) {g : α → α} (hg : ∀ a, q (g a) = true → q a = true) :
    ((t.sweep g).select q).length ≤ (t.select q).length := by
  refine length_select_le fun j b hb hq => ?_
  rw [get_sweep] at hb
  obtain ⟨a, ha, rfl⟩ := Option.map_eq_some_iff.mp hb
  exact ⟨a, ha, hg a hq⟩

end Counting

section Rewriting
variable {p : α → Bool}

theorem modify_modify (t : Table α) (i : ℕ) (f g : α → α) :
    (t.modify i f).modify i g = t.modify i fun a => g (f a) := by
  simp only [modify, List.modify_modify_eq]
  rfl

theorem modify_congr {t : Table α} {i : ℕ} {f g : α → α} (h : ∀ a, t.get i = some a → f a = g a) :
    t.modify i f = t.modify i g := by
  have hrows : t.rows.modify i f = t.rows.modify i g := by
    apply List.ext_getElem?
    intro j
    rw [List.getElem?_modify, List.getElem?_modify]
    by_cases hj : i = j
    · subst hj
      simp only [if_true]
      exact Option.map_congr fun a ha => h a ha
    · simp only [if_neg hj]
  rw [modify, hrows, modify]

theorem modify_insert_size (t : Table α) (a : α) (f : α → α) :
    (t.insert a).modify t.size f = t.insert (f a) := by
  have hrows : (t.rows ++ [a]).modify t.rows.length f = t.rows ++ [f a] := by
    apply List.ext_getElem?
    intro j
    rw [List.getElem?_modify, List.getElem?_append, List.getElem?_append]
    by_cases hj : j < t.rows.length
    · simp [hj, hj.ne']
    · by_cases heq : t.rows.length = j
      · subst heq
        simp
      · have hlater : j - t.rows.length ≠ 0 := by omega
        simp [hj, heq, hlater]
  simp only [insert, modify, size, hrows]

/-- The first row of a kind, when it is inserted. -/
theorem first_insert {t : Table α} {a : α} (hnone : t.first p = none) (ha : p a = true) :
    (t.insert a).first p = some t.size := by
  rw [first, List.head?_eq_none_iff] at hnone
  rw [first, select_insert, hnone, if_pos ha]
  rfl

end Rewriting
end Relational.Table
