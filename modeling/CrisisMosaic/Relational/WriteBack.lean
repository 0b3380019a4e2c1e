import CrisisMosaic.Relational.Table

/-!
# Columns a unit of work writes back

A unit of work loads a row, assigns to it and writes it back later. A column is
written only when its value is no longer the one that was loaded; otherwise what
others stored in the meantime stays.
-/

namespace Relational

section Columns
variable {α : Type*} [DecidableEq α]

def written (loaded value stored : α) : α := if value = loaded then stored else value

@[simp] theorem written_unchanged (loaded stored : α) : written loaded loaded stored = stored :=
  if_pos rfl

/-- Nobody wrote the column in the meantime. -/
@[simp] theorem written_loaded (loaded value : α) : written loaded value loaded = value := by
  unfold written
  split_ifs with h
  · exact h.symm
  · rfl

theorem written_of_ne {loaded value : α} (h : value ≠ loaded) (stored : α) :
    written loaded value stored = value := if_neg h

theorem written_eq_or (loaded value stored : α) :
    written loaded value stored = stored ∨ written loaded value stored = value := by
  unfold written
  split_ifs
  · exact Or.inl rfl
  · exact Or.inr rfl

end Columns

section Rows
variable {α : Type*} (merge : α → α → α → α)

/-- The rows a unit of work holds; `merge` writes the columns of one of them. -/
def Table.writeBack (loaded value stored : Table α) : Table α :=
  ⟨stored.rows.mapIdx fun i s =>
    match loaded.get i, value.get i with
    | some l, some v => merge l v s
    | _, _ => s⟩

theorem Table.get_writeBack {loaded value stored : Table α} {i : ℕ} {t : α}
    (h : (Table.writeBack merge loaded value stored).get i = some t) :
    ∃ s, stored.get i = some s ∧
      (t = s ∨ ∃ l v, loaded.get i = some l ∧ value.get i = some v ∧ t = merge l v s) := by
  simp only [writeBack, Table.get, List.getElem?_mapIdx, Option.map_eq_some_iff] at h
  obtain ⟨s, hs, rfl⟩ := h
  refine ⟨s, hs, ?_⟩
  split
  · rename_i l v hl hv
    exact Or.inr ⟨l, v, hl, hv, rfl⟩
  · exact Or.inl rfl

@[simp] theorem Table.size_writeBack (loaded value stored : Table α) :
    (Table.writeBack merge loaded value stored).size = stored.size := List.length_mapIdx

end Rows
end Relational
