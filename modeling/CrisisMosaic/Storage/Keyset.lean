import Mathlib.Tactic

/-!
# Paging by key

Rows are listed from the highest key down. A page holds the first rows below a
boundary, and the next boundary is the key of the last row of the page, so the
pages of a traversal cut the keys into consecutive intervals.
-/

namespace Keyset
variable {α κ : Type*} [LinearOrder κ] (key : α → κ)

def descending (rows : List α) : List α := rows.insertionSort fun a b => key b ≤ key a

structure Page (α : Type*) where
  items : List α
  more : Bool

/-- One row more than the page holds is read. -/
def page (limit : ℕ) (rows : List α) : Page α :=
  let taken := (descending key rows).take (limit + 1)
  ⟨taken.take limit, decide (limit < taken.length)⟩

theorem perm_descending (rows : List α) : (descending key rows).Perm rows :=
  List.perm_insertionSort _ rows

theorem pairwise_descending (rows : List α) :
    (descending key rows).Pairwise fun a b => key b ≤ key a := by
  have : Std.Total fun a b : α => key b ≤ key a := ⟨fun a b => le_total (key b) (key a)⟩
  have : IsTrans α fun a b : α => key b ≤ key a := ⟨fun a b c hab hbc => hbc.trans hab⟩
  exact List.pairwise_insertionSort _ rows

variable {key}

/-- Only the order of the keys counts. -/
theorem descending_congr {ι : Type*} [LinearOrder ι] {other : α → ι}
    (h : ∀ a b, key a ≤ key b ↔ other a ≤ other b) (rows : List α) :
    descending key rows = descending other rows := by
  unfold descending
  congr!
  exact h _ _

theorem page_items (limit : ℕ) (rows : List α) :
    (page key limit rows).items = (descending key rows).take limit := by
  simp [page, List.take_take]

theorem page_more (limit : ℕ) (rows : List α) :
    (page key limit rows).more = decide (limit < rows.length) := by
  have hlength : (descending key rows).length = rows.length := (perm_descending key rows).length_eq
  simp only [page, List.length_take, hlength, decide_eq_decide]
  omega

theorem mem_of_mem_page {limit : ℕ} {rows : List α} {x : α} (h : x ∈ (page key limit rows).items) :
    x ∈ rows := by
  rw [page_items] at h
  exact (perm_descending key rows).mem_iff.mp (List.mem_of_mem_take h)

/-- The last page holds all the rows. -/
theorem page_perm {limit : ℕ} {rows : List α} (h : (page key limit rows).more = false) :
    (page key limit rows).items.Perm rows := by
  rw [page_more, decide_eq_false_iff_not, not_lt] at h
  rw [page_items, List.take_of_length_le]
  · exact perm_descending key rows
  · rw [(perm_descending key rows).length_eq]
    exact h

variable (key) in
theorem page_nodup (limit : ℕ) {rows : List α} (h : rows.Nodup) : (page key limit rows).items.Nodup := by
  rw [page_items]
  exact ((perm_descending key rows).nodup_iff.mpr h).sublist (List.take_sublist _ _)

theorem page_ne_nil {limit : ℕ} {rows : List α} (hlimit : 1 ≤ limit)
    (hmore : (page key limit rows).more = true) : (page key limit rows).items ≠ [] := by
  rw [page_more, decide_eq_true_eq] at hmore
  have hlength : (descending key rows).length = rows.length := (perm_descending key rows).length_eq
  rw [page_items, ← List.length_pos_iff, List.length_take]
  omega

/-- A page that others follow holds the rows from its last row up. -/
theorem page_last {limit : ℕ} {rows : List α} (hlimit : 1 ≤ limit)
    (hdistinct : ∀ a ∈ rows, ∀ b ∈ rows, key a = key b → a = b)
    (hmore : (page key limit rows).more = true) :
    ∃ last, (page key limit rows).items.getLast? = some last ∧ last ∈ rows ∧
      ∀ x ∈ rows, x ∈ (page key limit rows).items ↔ key last ≤ key x := by
  have hne := page_ne_nil hlimit hmore
  have hmem := mem_of_mem_page (List.getLast_mem hne)
  refine ⟨_, List.getLast?_eq_some_getLast hne, hmem, fun x hx => ?_⟩
  have hpair := pairwise_descending key rows
  rw [← List.take_append_drop limit (descending key rows), List.pairwise_append, ← page_items] at hpair
  obtain ⟨htaken, -, hrest⟩ := hpair
  constructor
  · intro hin
    rw [← List.dropLast_append_getLast hne, List.pairwise_append] at htaken
    rw [← List.dropLast_append_getLast hne, List.mem_append, List.mem_singleton] at hin
    rcases hin with hin | hin
    · exact htaken.2.2 x hin _ (List.mem_singleton_self _)
    · exact hin ▸ le_rfl
  · intro hle
    have hx := (perm_descending key rows).mem_iff.mpr hx
    rw [← List.take_append_drop limit (descending key rows), List.mem_append, ← page_items] at hx
    rcases hx with hin | hin
    · exact hin
    · have heq : key x = key ((page key limit rows).items.getLast hne) :=
        le_antisymm (hrest _ (List.getLast_mem hne) _ hin) hle
      have hxrows := (perm_descending key rows).mem_iff.mp (List.mem_of_mem_drop hin)
      rw [hdistinct _ hxrows _ hmem heq]
      exact List.getLast_mem hne

/-! ## Keys without ties -/

variable (key) in
/-- Two rows of one list have different keys. -/
structure Distinct (rows : List α) : Prop where
  nodup : rows.Nodup
  inj : ∀ a ∈ rows, ∀ b ∈ rows, key a = key b → a = b

omit [LinearOrder κ] in
theorem Distinct.filter {rows : List α} (h : Distinct key rows) (p : α → Bool) :
    Distinct key (rows.filter p) :=
  ⟨h.nodup.filter p, fun a ha b hb => h.inj a (List.mem_filter.mp ha).1 b (List.mem_filter.mp hb).1⟩

theorem Distinct.strictly_descending {rows : List α} (h : Distinct key rows) :
    (descending key rows).Pairwise fun a b => key b < key a := by
  have hnodup : (descending key rows).Nodup := (perm_descending key rows).nodup_iff.mpr h.nodup
  refine ((pairwise_descending key rows).and hnodup).imp_of_mem fun {a b} ha hb hab => ?_
  refine lt_of_le_of_ne hab.1 fun heq => hab.2 ?_
  exact (h.inj b ((perm_descending key rows).mem_iff.mp hb) a ((perm_descending key rows).mem_iff.mp ha)
    heq).symm

/-- Filtering the ordered rows is ordering the filtered rows. -/
theorem Distinct.filter_descending {rows : List α} (h : Distinct key rows) (p : α → Bool) :
    (descending key rows).filter p = descending key (rows.filter p) := by
  refine List.Perm.eq_of_pairwise (fun a b _ _ hab hba => ?_)
    (h.strictly_descending.filter p) (h.filter p).strictly_descending
    (((perm_descending key rows).filter p).trans (perm_descending key _).symm)
  exact absurd (hab.trans hba) (lt_irrefl _)

/-! ## Traversals -/

structure Traversal (α κ : Type*) where
  boundary : Option κ
  returned : List α
  finished : Bool

namespace Traversal

def start : Traversal α κ := ⟨none, [], false⟩

variable (key) in
/-- The rows that are left below the boundary. -/
def remaining (t : Traversal α κ) (rows : List α) : List α :=
  rows.filter fun x => t.boundary.all (key x < ·)

variable (key) in
def fetch (limit : ℕ) (t : Traversal α κ) (rows : List α) : Traversal α κ :=
  let p := page key limit (t.remaining key rows)
  ⟨p.items.getLast?.map key, t.returned ++ p.items, !p.more⟩

variable (key) in
/-- A row with this key has been passed. -/
def Passed (t : Traversal α κ) (k : κ) : Prop := t.finished = true ∨ ∃ b ∈ t.boundary, b ≤ k

variable (key) in
/-- The row, the only one with the property, was returned once if it was passed, and not at all
otherwise. -/
def ReturnsOnce (p : α → Bool) (x : α) (t : Traversal α κ) : Prop :=
  (t.Passed (key x) → t.returned.filter p = [x]) ∧ (¬ t.Passed (key x) → t.returned.filter p = [])

theorem start_returnsOnce (p : α → Bool) (x : α) : (start : Traversal α κ).ReturnsOnce key p x := by
  have hnot : ¬ (start : Traversal α κ).Passed (key x) := by
    rintro (h | ⟨b, hb, -⟩)
    · cases h
    · cases hb
  exact ⟨fun h => absurd h hnot, fun _ => rfl⟩

theorem filter_of_unique {p : α → Bool} {x : α} {rows : List α} (hnodup : rows.Nodup)
    (hx : p x = true) (honly : ∀ y ∈ rows, p y = true → y = x) :
    (x ∈ rows → rows.filter p = [x]) ∧ (x ∉ rows → rows.filter p = []) := by
  constructor
  · intro hmem
    apply List.perm_singleton.mp
    apply (List.perm_ext_iff_of_nodup (hnodup.filter p) (List.nodup_singleton x)).mpr
    intro y
    rw [List.mem_filter, List.mem_singleton]
    exact ⟨fun h => honly y h.1 h.2, fun h => h ▸ ⟨hmem, hx⟩⟩
  · intro hmem
    rw [List.filter_eq_nil_iff]
    intro y hy hp
    exact hmem (honly y hy hp ▸ hy)

theorem mem_remaining {t : Traversal α κ} {rows : List α} {x : α} (hopen : t.finished = false) :
    x ∈ t.remaining key rows ↔ x ∈ rows ∧ ¬ t.Passed (key x) := by
  rw [remaining, List.mem_filter, Passed, hopen]
  cases t.boundary with
  | none => simp
  | some b => simp

/-- A fetch passes what was passed before and the rows of its page. -/
theorem passed_fetch {limit : ℕ} {x : α} {rows : List α} {t : Traversal α κ} (hlimit : 1 ≤ limit)
    (hdistinct : ∀ a ∈ rows, ∀ b ∈ rows, key a = key b → a = b) (hmem : x ∈ rows)
    (hopen : t.finished = false) :
    (t.fetch key limit rows).Passed (key x) ↔
      t.Passed (key x) ∨ x ∈ (page key limit (t.remaining key rows)).items := by
  have hleft : ∀ y ∈ t.remaining key rows, y ∈ rows := fun y hy => (List.mem_filter.mp hy).1
  cases hmore : (page key limit (t.remaining key rows)).more with
  | false =>
    have hdone : (t.fetch key limit rows).Passed (key x) := Or.inl (by simp [fetch, hmore])
    have hin : ¬ t.Passed (key x) → x ∈ (page key limit (t.remaining key rows)).items :=
      fun hnot => (page_perm hmore).mem_iff.mpr ((mem_remaining hopen).mpr ⟨hmem, hnot⟩)
    simp only [hdone, true_iff]
    exact or_iff_not_imp_left.mpr hin
  | true =>
    obtain ⟨last, hlast, hlastmem, hiff⟩ := page_last hlimit
      (fun a ha b hb => hdistinct a (hleft a ha) b (hleft b hb)) hmore
    have hnext : (t.fetch key limit rows).Passed (key x) ↔ key last ≤ key x := by
      simp [Passed, fetch, hmore, hlast]
    rw [hnext]
    by_cases hpassed : t.Passed (key x)
    · -- the boundary only goes down
      have hlow : key last ≤ key x := by
        by_contra hlt
        apply ((mem_remaining hopen).mp hlastmem).2
        rcases hpassed with hdone | ⟨b, hb, hle⟩
        · exact Or.inl hdone
        · exact Or.inr ⟨b, hb, hle.trans (not_le.mp hlt).le⟩
      simp [hpassed, hlow]
    · have hx := (mem_remaining hopen).mpr ⟨hmem, hpassed⟩
      rw [hiff x hx]
      simp [hpassed]

/-- A page returns the row exactly when it passes it. -/
theorem ReturnsOnce.fetch {limit : ℕ} {p : α → Bool} {x : α} {rows : List α} {t : Traversal α κ}
    (hlimit : 1 ≤ limit) (hnodup : rows.Nodup)
    (hdistinct : ∀ a ∈ rows, ∀ b ∈ rows, key a = key b → a = b) (hmem : x ∈ rows)
    (hx : p x = true) (honly : ∀ y ∈ rows, p y = true → y = x) (hopen : t.finished = false)
    (h : t.ReturnsOnce key p x) : (t.fetch key limit rows).ReturnsOnce key p x := by
  have hleft : ∀ y ∈ t.remaining key rows, y ∈ rows := fun y hy => (List.mem_filter.mp hy).1
  have hpage : (page key limit (t.remaining key rows)).items.Nodup := page_nodup key limit (hnodup.filter _)
  obtain ⟨hone, hnone⟩ := filter_of_unique hpage hx fun y hy => honly y (hleft y (mem_of_mem_page hy))
  have hiff := passed_fetch hlimit hdistinct hmem hopen
  have happend : (t.fetch key limit rows).returned.filter p =
      t.returned.filter p ++ (page key limit (t.remaining key rows)).items.filter p :=
    List.filter_append _ _
  unfold ReturnsOnce
  rw [hiff, happend]
  by_cases hpassed : t.Passed (key x)
  · have hnot : x ∉ (page key limit (t.remaining key rows)).items :=
      fun hin => ((mem_remaining hopen).mp (mem_of_mem_page hin)).2 hpassed
    rw [h.1 hpassed, hnone hnot]
    simp [hpassed]
  · rw [h.2 hpassed]
    by_cases hin : x ∈ (page key limit (t.remaining key rows)).items
    · rw [hone hin]
      simp [hin]
    · rw [hnone hin]
      simp [hpassed, hin]

/-! ## Order -/

variable (key) in
/-- The rows so far are in order, and all above the boundary of the next page. -/
structure Descends (t : Traversal α κ) : Prop where
  pairwise : t.returned.Pairwise fun a b => key b < key a
  above : t.finished = false → ∀ b ∈ t.boundary, ∀ x ∈ t.returned, b ≤ key x
  fresh : t.boundary = none → t.finished = false → t.returned = []

theorem start_descends : (start : Traversal α κ).Descends key :=
  ⟨List.Pairwise.nil, fun _ _ h => (nomatch h), fun _ _ => rfl⟩

theorem Descends.fetch {limit : ℕ} {rows : List α} {t : Traversal α κ} (hlimit : 1 ≤ limit)
    (hrows : Distinct key rows) (hopen : t.finished = false) (h : t.Descends key) :
    (t.fetch key limit rows).Descends key := by
  obtain ⟨left, hleft⟩ : ∃ left, left = t.remaining key rows := ⟨_, rfl⟩
  have hdistinct : Distinct key left := hleft ▸ hrows.filter _
  have hbelow : ∀ x ∈ left, ∀ b ∈ t.boundary, key x < b := by
    intro x hx b hb
    rw [hleft, remaining, List.mem_filter, hb, Option.all_some, decide_eq_true_eq] at hx
    exact hx.2
  unfold Traversal.fetch
  rw [← hleft]
  refine ⟨?_, ?_, ?_⟩
  · dsimp only
    rw [List.pairwise_append]
    refine ⟨h.pairwise, ?_, ?_⟩
    · rw [page_items]
      exact hdistinct.strictly_descending.sublist (List.take_sublist _ _)
    · intro a ha b hb
      have hb := mem_of_mem_page hb
      cases hboundary : t.boundary with
      | none =>
        rw [h.fresh hboundary hopen] at ha
        cases ha
      | some k => exact (hbelow b hb k hboundary).trans_le (h.above hopen k hboundary a ha)
  · dsimp only
    intro hmore k hk x hx
    rw [Bool.not_eq_false'] at hmore
    obtain ⟨last, hlast, hmem, hiff⟩ := page_last hlimit hdistinct.inj hmore
    rw [hlast, Option.map_some, Option.mem_def, Option.some.injEq] at hk
    rw [← hk]
    rw [List.mem_append] at hx
    rcases hx with hx | hx
    · cases hboundary : t.boundary with
      | none =>
        rw [h.fresh hboundary hopen] at hx
        cases hx
      | some b => exact ((hbelow last hmem b hboundary).trans_le (h.above hopen b hboundary x hx)).le
    · exact (hiff x (mem_of_mem_page hx)).mp hx
  · dsimp only
    intro hnone hmore
    rw [Bool.not_eq_false'] at hmore
    have hne := page_ne_nil hlimit hmore
    rw [List.getLast?_eq_some_getLast hne] at hnone
    cases hnone

variable (key) in
theorem remaining_fetch_lt {limit : ℕ} {rows : List α} {t : Traversal α κ} (hlimit : 1 ≤ limit)
    (hrows : Distinct key rows) (hmore : (t.fetch key limit rows).finished = false) :
    ((t.fetch key limit rows).remaining key rows).length < (t.remaining key rows).length := by
  obtain ⟨left, hleft⟩ : ∃ left, left = t.remaining key rows := ⟨_, rfl⟩
  have hdistinct : Distinct key left := hleft ▸ hrows.filter _
  unfold Traversal.fetch at hmore ⊢
  rw [← hleft] at hmore ⊢
  dsimp only at hmore
  rw [Bool.not_eq_false'] at hmore
  obtain ⟨last, hlast, hmem, -⟩ := page_last hlimit hdistinct.inj hmore
  have hbelow : ∀ b ∈ t.boundary, key last < b := by
    intro b hb
    rw [hleft, remaining, List.mem_filter, hb, Option.all_some, decide_eq_true_eq] at hmem
    exact hmem.2
  have hnext : rows.filter (fun x => decide (key x < key last)) =
      left.filter fun x => decide (key x < key last) := by
    rw [hleft, remaining, List.filter_filter]
    apply List.filter_congr
    intro x _
    cases hboundary : t.boundary with
    | none => simp
    | some b =>
      rw [Option.all_some, Bool.eq_iff_iff, Bool.and_eq_true, decide_eq_true_eq, decide_eq_true_eq]
      exact ⟨fun h => ⟨h, h.trans (hbelow b hboundary)⟩, fun h => h.1⟩
  dsimp only [remaining]
  rw [hlast, Option.map_some]
  simp only [Option.all_some]
  rw [hnext, List.length_filter_lt_length_iff_exists]
  exact ⟨last, hmem, by simp⟩

end Traversal
end Keyset
