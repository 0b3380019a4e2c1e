import CrisisMosaic.Relational.Table

/-!
# Projections

A table with something taken out of each row, and a table of copies kept beside the rows it copies.
-/

/-! ## Tables with fewer columns -/

namespace Relational.Table
variable {α β : Type*} (f : α → β)

def map (t : Table α) : Table β := ⟨t.rows.map f⟩

variable {f} {t : Table α}

@[simp] theorem size_map : (t.map f).size = t.size := by
  simp [map, size]

@[simp] theorem get_map (i : ℕ) : (t.map f).get i = (t.get i).map f := by
  simp [map, get]

theorem select_map (p : β → Bool) : (t.map f).select p = t.select fun a => p (f a) := by
  unfold select
  rw [size_map]
  refine List.filter_congr fun i _ => ?_
  rw [get_map, Option.any_map]

theorem find_map (p : β → Bool) :
    (t.map f).find p = (t.find fun a => p (f a)).map fun x => (x.1, f x.2) := by
  unfold find first
  rw [select_map]
  cases (t.select fun a => p (f a)).head? with
  | none => rfl
  | some i =>
    rw [Option.bind_some, Option.bind_some, get_map]
    cases t.get i <;> rfl

end Relational.Table

/-!
## Copies

One copy is kept for a key. `Copies rows stale` says that no key has two copies and that a copy
agrees with its row, unless its key is stale: changing a row makes its key stale, copying the row
again makes it current.
-/

namespace Relational.Table
variable {κ φ β : Type*}

structure Copies (key : φ → κ) (copy : φ → β) (rows : κ → Option β) (stale : Set κ)
    (t : Table φ) : Prop where
  unique : ∀ i j a b, t.get i = some a → t.get j = some b → key a = key b → i = j
  current : t.All fun _ a => key a ∉ stale → rows (key a) = some (copy a)

namespace Copies
variable {key : φ → κ} {copy : φ → β} {rows rows' : κ → Option β} {stale stale' : Set κ}
  {t : Table φ}

theorem empty (rows : κ → Option β) (stale : Set κ) : Copies key copy rows stale .empty :=
  ⟨fun _ _ _ _ h => (nomatch h), fun _ _ h => nomatch h⟩

/-- A change of the rows makes the keys it changes stale. -/
theorem rows_changed (h : t.Copies key copy rows stale) (hs : stale ⊆ stale')
    (hr : ∀ k b, k ∉ stale' → rows k = some b → rows' k = some b) :
    t.Copies key copy rows' stale' where
  unique := h.unique
  current := fun i a ha hk => hr _ _ hk (h.current i a ha fun hstale => hk (hs hstale))

theorem mono (h : t.Copies key copy rows stale) (hs : stale ⊆ stale') :
    t.Copies key copy rows stale' :=
  h.rows_changed hs fun _ _ _ hb => hb

/-- A key without a copy is not stale. -/
theorem unlisted {k : κ} (h : t.Copies key copy rows stale) (hk : t.All fun _ a => key a ≠ k) :
    t.Copies key copy rows (stale \ {k}) where
  unique := h.unique
  current := by
    intro i a ha hstale
    apply h.current i a ha
    intro hmem
    exact hstale ⟨hmem, hk i a ha⟩

theorem rewrite {i : ℕ} {a : φ} {f : φ → φ} (h : t.Copies key copy rows stale)
    (ha : t.get i = some a) (hkey : key (f a) = key a)
    (hcopy : key a ∉ stale' → rows (key a) = some (copy (f a))) (hs : stale \ {key a} ⊆ stale') :
    (t.modify i f).Copies key copy rows stale' := by
  have hrow : ∀ j b, (t.modify i f).get j = some b → (i = j ∧ b = f a) ∨ (i ≠ j ∧ t.get j = some b) := by
    intro j b hb
    rcases get_modify_cases hb with ⟨rfl, c, hc, rfl⟩ | hold
    · obtain rfl := Option.some.inj (ha.symm.trans hc)
      exact Or.inl ⟨rfl, rfl⟩
    · exact Or.inr hold
  constructor
  · intro j l b c hb hc hbc
    rcases hrow j b hb with ⟨rfl, rfl⟩ | ⟨hj, hb⟩ <;> rcases hrow l c hc with ⟨rfl, rfl⟩ | ⟨hl, hc⟩
    · rfl
    · exact h.unique _ _ _ _ ha hc (hkey.symm.trans hbc)
    · exact h.unique _ _ _ _ hb ha (hbc.trans hkey)
    · exact h.unique _ _ _ _ hb hc hbc
  · intro j b hb hstale
    rcases hrow j b hb with ⟨rfl, rfl⟩ | ⟨hj, hb⟩
    · rw [hkey] at hstale ⊢
      exact hcopy hstale
    · apply h.current j b hb
      intro hmem
      exact hstale (hs ⟨hmem, fun hk => hj (h.unique _ _ _ _ ha hb (Eq.symm hk))⟩)

theorem add {a : φ} (h : t.Copies key copy rows stale) (hnew : t.All fun _ b => key b ≠ key a)
    (hcopy : key a ∉ stale' → rows (key a) = some (copy a)) (hs : stale \ {key a} ⊆ stale') :
    (t.insert a).Copies key copy rows stale' := by
  constructor
  · intro i j b c hb hc hbc
    rcases get_insert_cases hb with ⟨rfl, rfl⟩ | hold <;>
      rcases get_insert_cases hc with ⟨rfl, rfl⟩ | hold'
    · rfl
    · exact absurd hbc.symm (hnew j c hold')
    · exact absurd hbc (hnew i b hold)
    · exact h.unique _ _ _ _ hold hold' hbc
  · intro i b hb hstale
    rcases get_insert_cases hb with ⟨rfl, rfl⟩ | hold
    · exact hcopy hstale
    · apply h.current i b hold
      intro hmem
      exact hstale (hs ⟨hmem, hnew i b hold⟩)

end Copies
end Relational.Table
