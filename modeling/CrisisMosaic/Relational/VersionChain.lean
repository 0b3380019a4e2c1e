import CrisisMosaic.Relational.Table

/-!
# Version chains

A table of versions, each naming the record it belongs to, its revision and its
predecessor. `Chain t i head count` says the versions of record `i` are numbered
`1..count`, linked in that order, and only the last one, `head`, is open.
Closing the head and inserting the next version keeps every chain.
-/

namespace Relational

structure Versioning (ν : Type*) where
  owner : ν → ℕ
  revision : ν → ℕ
  previous : ν → Option ℕ
  isOpen : ν → Prop

/-- An update that only closes a version. -/
structure Versioning.Closing {ν : Type*} (m : Versioning ν) (close : ν → ν) : Prop where
  owner : ∀ v, m.owner (close v) = m.owner v
  revision : ∀ v, m.revision (close v) = m.revision v
  previous : ∀ v, m.previous (close v) = m.previous v
  closed : ∀ v, ¬ m.isOpen (close v)

def closeHead {ν : Type*} (close : ν → ν) (t : Table ν) : Option ℕ → Table ν
  | some k => t.modify k close
  | none => t

def appendVersion {ν : Type*} (close : ν → ν) (t : Table ν) (head : Option ℕ) (v : ν) : Table ν :=
  (closeHead close t head).insert v

section Rows
variable {ν : Type*} {close : ν → ν} {t : Table ν} {head : Option ℕ}

@[simp] theorem size_closeHead (close : ν → ν) (t : Table ν) (head : Option ℕ) :
    (closeHead close t head).size = t.size := by
  cases head <;> simp [closeHead]

/-- A row of an appended table is the new version or an old row, closed if it was the head. -/
theorem get_appendVersion {v w : ν} {k : ℕ} (h : (appendVersion close t head v).get k = some w) :
    (k = t.size ∧ w = v) ∨
      ∃ u, t.get k = some u ∧ (head = some k ∧ w = close u ∨ head ≠ some k ∧ w = u) := by
  rcases Table.get_insert_cases h with ⟨hk, hw⟩ | hw
  · exact Or.inl ⟨by simpa using hk, hw⟩
  · right
    cases head with
    | none => exact ⟨w, hw, Or.inr ⟨by simp, rfl⟩⟩
    | some j =>
      rcases Table.get_modify_cases hw with ⟨rfl, u, hu, rfl⟩ | ⟨hj, hw⟩
      · exact ⟨u, hu, Or.inl ⟨rfl, rfl⟩⟩
      · exact ⟨w, hw, Or.inr ⟨by simpa using hj, rfl⟩⟩

theorem get_appendVersion_old {k : ℕ} {u : ν} (v : ν) (h : t.get k = some u) :
    (appendVersion close t head v).get k = some (if head = some k then close u else u) := by
  refine Table.get_insert_of_some v ?_
  cases head with
  | none => simpa [closeHead] using h
  | some j =>
    simp only [closeHead, Table.get_modify, h, Option.some.injEq]
    split_ifs <;> rfl

@[simp] theorem get_appendVersion_new (close : ν → ν) (t : Table ν) (head : Option ℕ) (v : ν) :
    (appendVersion close t head v).get t.size = some v := by
  have h := Table.get_insert_size (closeHead close t head) v
  rwa [size_closeHead] at h

end Rows

namespace Versioning
variable {ν : Type*} (m : Versioning ν)

structure Chain (t : Table ν) (i : ℕ) (head : Option ℕ) (count : ℕ) : Prop where
  bounds : ∀ {k v}, t.get k = some v → m.owner v = i → 1 ≤ m.revision v ∧ m.revision v ≤ count
  numbered : ∀ {n}, 1 ≤ n → n ≤ count →
    ∃ k v, t.get k = some v ∧ m.owner v = i ∧ m.revision v = n
  unique : ∀ {k l v w}, t.get k = some v → t.get l = some w → m.owner v = i → m.owner w = i →
    m.revision v = m.revision w → k = l
  head_none : count = 0 → head = none
  head_some : 0 < count →
    ∃ k v, head = some k ∧ t.get k = some v ∧ m.owner v = i ∧ m.revision v = count
  first : ∀ {k v}, t.get k = some v → m.owner v = i → m.revision v = 1 → m.previous v = none
  linked : ∀ {k v l w}, t.get k = some v → t.get l = some w → m.owner v = i → m.owner w = i →
    m.revision w = m.revision v + 1 → m.previous w = some k
  opened : ∀ {k v}, t.get k = some v → m.owner v = i → (m.isOpen v ↔ m.revision v = count)

variable {m} {close : ν → ν} {t : Table ν} {i : ℕ} {head : Option ℕ} {count : ℕ} {v : ν}

theorem Closing.same (hm : m.Closing close) {u w : ν} {c : Prop}
    (h : c ∧ w = close u ∨ ¬ c ∧ w = u) :
    m.owner w = m.owner u ∧ m.revision w = m.revision u ∧ m.previous w = m.previous u := by
  rcases h with ⟨-, rfl⟩ | ⟨-, rfl⟩
  · exact ⟨hm.owner u, hm.revision u, hm.previous u⟩
  · exact ⟨rfl, rfl, rfl⟩

theorem Chain.append_other {head' : Option ℕ} {j : ℕ} (hm : m.Closing close)
    (h : m.Chain t i head count) (hv : m.owner v ≠ i)
    (hhead : ∀ k u, head' = some k → t.get k = some u → m.owner u = j) (hij : j ≠ i) :
    m.Chain (appendVersion close t head' v) i head count := by
  have old : ∀ {k w}, (appendVersion close t head' v).get k = some w → m.owner w = i →
      t.get k = some w := by
    intro k w hw ho
    rcases get_appendVersion hw with ⟨-, rfl⟩ | ⟨u, hu, ⟨hk, rfl⟩ | ⟨-, rfl⟩⟩
    · exact absurd ho hv
    · rw [hm.owner] at ho
      exact absurd (ho ▸ hhead k u hk hu) hij.symm
    · exact hu
  have new : ∀ {k w}, t.get k = some w → m.owner w = i →
      (appendVersion close t head' v).get k = some w := by
    intro k w hw ho
    rw [get_appendVersion_old v hw, if_neg]
    exact fun hk => hij (ho ▸ (hhead k w hk hw).symm)
  exact {
    bounds := fun hk ho => h.bounds (old hk ho) ho
    numbered := fun h1 h2 =>
      let ⟨k, w, hw, ho, hr⟩ := h.numbered h1 h2
      ⟨k, w, new hw ho, ho, hr⟩
    unique := fun hk hl ho ho' => h.unique (old hk ho) (old hl ho') ho ho'
    head_none := h.head_none
    head_some := fun hc =>
      let ⟨k, w, hh, hw, ho, hr⟩ := h.head_some hc
      ⟨k, w, hh, new hw ho, ho, hr⟩
    first := fun hk ho => h.first (old hk ho) ho
    linked := fun hk hl ho ho' => h.linked (old hk ho) (old hl ho') ho ho'
    opened := fun hk ho => h.opened (old hk ho) ho }

theorem Chain.append_self (hm : m.Closing close) (h : m.Chain t i head count) (howner : m.owner v = i)
    (hrev : m.revision v = count + 1) (hprev : m.previous v = head) (hopen : m.isOpen v) :
    m.Chain (appendVersion close t head v) i (some t.size) (count + 1) where
  bounds := by
    intro k w hw ho
    rcases get_appendVersion hw with ⟨-, rfl⟩ | ⟨u, hu, hc⟩
    · omega
    · obtain ⟨h₁, h₂, -⟩ := hm.same hc
      have := h.bounds hu (h₁ ▸ ho)
      omega
  numbered := by
    intro n h1 hn
    rcases Nat.lt_or_ge count n with hlt | hle
    · exact ⟨t.size, v, get_appendVersion_new close t head v, howner, by omega⟩
    · obtain ⟨k, u, hu, ho, hr⟩ := h.numbered h1 hle
      refine ⟨k, _, get_appendVersion_old v hu, ?_, ?_⟩
      · split_ifs
        · rw [hm.owner, ho]
        · exact ho
      · split_ifs
        · rw [hm.revision, hr]
        · exact hr
  unique := by
    intro k l x y hx hy ho ho' hr
    rcases get_appendVersion hx with ⟨rfl, rfl⟩ | ⟨u, hu, hc⟩ <;>
      rcases get_appendVersion hy with ⟨rfl, rfl⟩ | ⟨w, hw, hd⟩
    · rfl
    · obtain ⟨d₁, d₂, -⟩ := hm.same hd
      have := h.bounds hw (d₁ ▸ ho')
      omega
    · obtain ⟨c₁, c₂, -⟩ := hm.same hc
      have := h.bounds hu (c₁ ▸ ho)
      omega
    · obtain ⟨c₁, c₂, -⟩ := hm.same hc
      obtain ⟨d₁, d₂, -⟩ := hm.same hd
      exact h.unique hu hw (c₁ ▸ ho) (d₁ ▸ ho') (by omega)
  head_none := by omega
  head_some := fun _ => ⟨t.size, v, rfl, get_appendVersion_new close t head v, howner, hrev⟩
  first := by
    intro k w hw ho hr
    rcases get_appendVersion hw with ⟨-, rfl⟩ | ⟨u, hu, hc⟩
    · rw [hprev, h.head_none (by omega)]
    · obtain ⟨c₁, c₂, c₃⟩ := hm.same hc
      rw [c₃]
      exact h.first hu (c₁ ▸ ho) (by omega)
  linked := by
    intro k x l y hx hy ho ho' hr
    rcases get_appendVersion hx with ⟨rfl, rfl⟩ | ⟨u, hu, hc⟩ <;>
      rcases get_appendVersion hy with ⟨rfl, rfl⟩ | ⟨w, hw, hd⟩
    · omega
    · obtain ⟨d₁, d₂, -⟩ := hm.same hd
      have := h.bounds hw (d₁ ▸ ho')
      omega
    · obtain ⟨c₁, c₂, -⟩ := hm.same hc
      have hb := h.bounds hu (c₁ ▸ ho)
      obtain ⟨j, z, hj, hz, hzo, hzr⟩ := h.head_some (by omega)
      rw [hprev, hj, h.unique hz hu hzo (c₁ ▸ ho) (by omega)]
    · obtain ⟨c₁, c₂, -⟩ := hm.same hc
      obtain ⟨d₁, d₂, d₃⟩ := hm.same hd
      rw [d₃]
      exact h.linked hu hw (c₁ ▸ ho) (d₁ ▸ ho') (by omega)
  opened := by
    intro k w hw ho
    rcases get_appendVersion hw with ⟨-, rfl⟩ | ⟨u, hu, ⟨hk, rfl⟩ | ⟨hk, rfl⟩⟩
    · exact ⟨fun _ => hrev, fun _ => hopen⟩
    · rw [hm.owner] at ho
      have hb := h.bounds hu ho
      refine ⟨fun hc => absurd hc (hm.closed u), fun hc => ?_⟩
      rw [hm.revision] at hc
      omega
    · have hb := h.bounds hu ho
      rw [h.opened hu ho]
      refine ⟨fun hc => absurd ?_ hk, fun hc => by omega⟩
      obtain ⟨j, z, hj, hz, hzo, hzr⟩ := h.head_some (by omega)
      rw [hj, h.unique hz hu hzo ho (by omega)]

theorem Chain.empty (h : ∀ k v, t.get k = some v → m.owner v ≠ i) :
    m.Chain t i none 0 where
  bounds := fun hk ho => absurd ho (h _ _ hk)
  numbered := by omega
  unique := fun hk _ ho => absurd ho (h _ _ hk)
  head_none := fun _ => rfl
  head_some := by omega
  first := fun hk ho => absurd ho (h _ _ hk)
  linked := fun hk _ ho => absurd ho (h _ _ hk)
  opened := fun hk ho => absurd ho (h _ _ hk)

end Versioning
end Relational
