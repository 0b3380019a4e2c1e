import CrisisMosaic.Relational.Table

/-!
# Unique keys

A key is unique in a table if no two rows have it. A row can be added or overwritten as long as no
other row has the key it gets.
-/

namespace Relational.Table
variable {α κ : Type*} {t : Table α} {key : α → κ}

def UniqueOn (t : Table α) (key : α → κ) : Prop := (t.rows.map key).Nodup

instance [DecidableEq κ] : Decidable (t.UniqueOn key) := inferInstanceAs (Decidable (List.Nodup _))

theorem uniqueOn_iff : t.UniqueOn key ↔
    ∀ i j a b, t.get i = some a → t.get j = some b → key a = key b → i = j := by
  rw [UniqueOn, List.nodup_iff_injective_getElem]
  constructor
  · intro hinj i j a b ha hb hkey
    obtain ⟨hi, rfl⟩ := List.getElem?_eq_some_iff.mp ha
    obtain ⟨hj, rfl⟩ := List.getElem?_eq_some_iff.mp hb
    have hi' : i < (t.rows.map key).length := by rwa [List.length_map]
    have hj' : j < (t.rows.map key).length := by rwa [List.length_map]
    have hsame := @hinj ⟨i, hi'⟩ ⟨j, hj'⟩ (by simpa using hkey)
    exact congrArg Fin.val hsame
  · intro hrows i j hkey
    have hi : (i : ℕ) < t.rows.length := by simpa using i.isLt
    have hj : (j : ℕ) < t.rows.length := by simpa using j.isLt
    exact Fin.ext (hrows i j t.rows[i] t.rows[j] (List.getElem?_eq_getElem hi)
      (List.getElem?_eq_getElem hj) (by simpa using hkey))

theorem UniqueOn.eq (h : t.UniqueOn key) {i j : ℕ} {a b : α} (ha : t.get i = some a)
    (hb : t.get j = some b) (hkey : key a = key b) : i = j := uniqueOn_iff.mp h i j a b ha hb hkey

theorem UniqueOn.insert (h : t.UniqueOn key) {a : α} (hnew : ∀ i b, t.get i = some b → key b ≠ key a) :
    (t.insert a).UniqueOn key := by
  rw [UniqueOn, Table.insert, List.map_append, List.nodup_append]
  refine ⟨h, List.nodup_singleton _, ?_⟩
  intro x hx y hy
  obtain ⟨b, hb, rfl⟩ := List.mem_map.mp hx
  obtain ⟨i, hi⟩ := List.mem_iff_getElem?.mp hb
  rw [List.mem_singleton.mp hy]
  exact hnew i b hi

theorem UniqueOn.modify_iff (h : t.UniqueOn key) {i : ℕ} {a : α} (ha : t.get i = some a) (f : α → α) :
    (t.modify i f).UniqueOn key ↔ ∀ j b, j ≠ i → t.get j = some b → key b ≠ key (f a) := by
  have hself : (t.modify i f).get i = some (f a) := by rw [get_modify_self, ha, Option.map_some]
  constructor
  · intro hnew j b hj hb hkey
    have hother : (t.modify i f).get j = some b := by rwa [get_modify_of_ne t f hj.symm]
    exact hj (hnew.eq hother hself hkey)
  · intro hnew
    rw [uniqueOn_iff]
    intro j k b c hb hc hkey
    by_cases hj : j = i
    · by_cases hk : k = i
      · exact hj.trans hk.symm
      · rw [hj, hself] at hb
        rw [get_modify_of_ne t f (Ne.symm hk)] at hc
        obtain rfl := Option.some.inj hb
        exact absurd hkey.symm (hnew k c hk hc)
    · rw [get_modify_of_ne t f (Ne.symm hj)] at hb
      by_cases hk : k = i
      · rw [hk, hself] at hc
        obtain rfl := Option.some.inj hc
        exact absurd hkey (hnew j b hj hb)
      · rw [get_modify_of_ne t f (Ne.symm hk)] at hc
        exact h.eq hb hc hkey

end Relational.Table
