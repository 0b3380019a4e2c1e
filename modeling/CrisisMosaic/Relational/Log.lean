import Mathlib.Tactic

/-!
# Logs that are consumed from the front

A log is a list in the order of its keys. What is consumed, or deleted, is a prefix of
it as soon as nothing is consumed before what precedes it.
-/

namespace Relational
variable {α : Type*}

/-- What is deleted is a prefix. -/
theorem filter_not_isSuffix {p : α → Bool} {l : List α}
    (h : l.Pairwise fun a b => p b = true → p a = true) : (l.filter fun a => !p a) <:+ l := by
  induction l with
  | nil => exact List.suffix_rfl
  | cons a l ih =>
    obtain ⟨ha, hl⟩ := List.pairwise_cons.mp h
    by_cases hp : p a = true
    · rw [List.filter_cons_of_neg (by simp [hp])]
      exact (ih hl).trans (List.suffix_cons a l)
    · have hall : ∀ b ∈ a :: l, (!p b) = true := by
        intro b hb
        rcases List.mem_cons.mp hb with rfl | hb
        · simpa using hp
        · simpa using fun hpb => hp (ha b hb hpb)
      rw [List.filter_eq_self.mpr hall]

/-- When no two items have the property, the items with it are one. -/
theorem eq_of_pairwise_excludes {P : α → Prop} {l : List α} {a b : α}
    (h : l.Pairwise fun x y => P x → ¬ P y) (ha : a ∈ l) (hb : b ∈ l) (hPa : P a) (hPb : P b) :
    a = b := by
  induction l with
  | nil => exact nomatch ha
  | cons x l ih =>
    obtain ⟨hx, hl⟩ := List.pairwise_cons.mp h
    rcases List.mem_cons.mp ha with rfl | hal
    · rcases List.mem_cons.mp hb with rfl | hbl
      · rfl
      · exact absurd hPb (hx b hbl hPa)
    · rcases List.mem_cons.mp hb with rfl | hbl
      · exact absurd hPa (hx a hal hPb)
      · exact ih hl hal hbl

section Keys
variable {key : α → ℕ} {l m : List α} {a b : α}

/-- A suffix of the log has everything from one of its keys on. -/
theorem mem_of_suffix (h : l.Pairwise fun a b => key a < key b) (hm : m <:+ l) (ha : a ∈ m)
    (hb : b ∈ l) (hab : key a ≤ key b) : b ∈ m := by
  obtain ⟨gone, rfl⟩ := hm
  rcases List.mem_append.mp hb with hgone | hkept
  · have hlt := (List.pairwise_append.mp h).2.2 b hgone a ha
    omega
  · exact hkept

theorem key_injective (h : l.Pairwise fun a b => key a < key b) (ha : a ∈ l) (hb : b ∈ l)
    (hab : key a = key b) : a = b := by
  have hnodup : (l.map key).Nodup := List.pairwise_map.mpr (h.imp fun hlt => hlt.ne)
  exact List.inj_on_of_nodup_map hnodup ha hb hab

/-- What holds of any two items in the order of the log holds by the order of their keys. -/
theorem related_of_key_lt {R : α → α → Prop} (h : l.Pairwise fun a b => key a < key b)
    (hR : l.Pairwise R) (ha : a ∈ l) (hb : b ∈ l) (hab : key a < key b) : R a b := by
  induction l with
  | nil => exact nomatch ha
  | cons x l ih =>
    obtain ⟨hx, hl⟩ := List.pairwise_cons.mp h
    obtain ⟨hxR, hlR⟩ := List.pairwise_cons.mp hR
    rcases List.mem_cons.mp ha with rfl | hal
    · rcases List.mem_cons.mp hb with rfl | hbl
      · exact absurd hab (lt_irrefl _)
      · exact hxR b hbl
    · rcases List.mem_cons.mp hb with rfl | hbl
      · exact absurd hab (hx a hal).asymm
      · exact ih hl hlR hal hbl

end Keys
end Relational
