import Mathlib.Tactic

/-!
# Half-open ranges that cover an initial segment

A range is a pair of its start and its stop. `gapsFrom` walks sorted ranges with
a cursor; it finds no gap exactly when every position is covered. Ranges whose
sizes add up to the length of the segment cover it exactly when no two overlap.
-/

namespace Ranges

abbrev Range := ℕ × ℕ

namespace Range

def Contains (r : Range) (b : ℕ) : Prop := r.1 ≤ b ∧ b < r.2

instance (r : Range) (b : ℕ) : Decidable (r.Contains b) := inferInstanceAs (Decidable (_ ∧ _))

def size (r : Range) : ℕ := r.2 - r.1

/-- The range is not empty and lies below `limit`. -/
def Within (limit : ℕ) (r : Range) : Prop := r.1 < r.2 ∧ r.2 ≤ limit

def Apart (r s : Range) : Prop := r.2 ≤ s.1 ∨ s.2 ≤ r.1

instance (r s : Range) : Decidable (r.Apart s) := inferInstanceAs (Decidable (_ ∨ _))

/-- The order in which pairs are sorted. -/
def le (r s : Range) : Prop := r.1 < s.1 ∨ (r.1 = s.1 ∧ r.2 ≤ s.2)

instance : DecidableRel le := fun _ _ => inferInstanceAs (Decidable (_ ∨ _))

theorem le.start {r s : Range} (h : r.le s) : r.1 ≤ s.1 := by
  rcases h with h | h <;> omega

theorem not_apart {limit : ℕ} {r s : Range} (hr : r.Within limit) (hs : s.Within limit) :
    ¬ r.Apart s ↔ ∃ b, r.Contains b ∧ s.Contains b := by
  constructor
  · intro h
    simp only [Apart, not_or, not_le] at h
    have := hr.1
    have := hs.1
    exact ⟨max r.1 s.1, ⟨le_max_left _ _, by omega⟩, ⟨le_max_right _ _, by omega⟩⟩
  · rintro ⟨b, ⟨hrb, hbr⟩, ⟨hsb, hbs⟩⟩
    simp only [Apart, not_or, not_le]
    omega

instance : Std.Total Range.le := ⟨fun r s => by unfold le; omega⟩

instance : IsTrans Range le := ⟨fun r s t h k => by unfold le at *; omega⟩

instance : Std.Antisymm Range.le :=
  ⟨fun r s h k => by unfold le at *; exact Prod.ext (by omega) (by omega)⟩

end Range

def Covered (rs : List Range) (b : ℕ) : Prop := ∃ r ∈ rs, Range.Contains r b

/-- The stretches below `limit` that the sorted ranges leave open, as offset and size. -/
def gapsFrom (limit : ℕ) : ℕ → List Range → List (ℕ × ℕ)
  | cursor, [] => if cursor < limit then [(cursor, limit - cursor)] else []
  | cursor, r :: rs =>
    (if cursor < r.1 then [(cursor, r.1 - cursor)] else []) ++ gapsFrom limit (max cursor r.2) rs

section Gaps
variable {limit : ℕ} {rs : List Range}

theorem gapsFrom_cons (limit cursor : ℕ) (r : Range) (rs : List Range) (g : ℕ × ℕ) :
    g ∈ gapsFrom limit cursor (r :: rs) ↔
      (cursor < r.1 ∧ g = (cursor, r.1 - cursor)) ∨ g ∈ gapsFrom limit (max cursor r.2) rs := by
  rw [gapsFrom, List.mem_append]
  split_ifs with h <;> simp [h]

theorem mem_gapsFrom (hrs : ∀ r ∈ rs, r.Within limit) {cursor : ℕ} {g : ℕ × ℕ}
    (hg : g ∈ gapsFrom limit cursor rs) : cursor ≤ g.1 ∧ 0 < g.2 ∧ g.1 + g.2 ≤ limit := by
  induction rs generalizing cursor with
  | nil =>
    rw [gapsFrom] at hg
    split_ifs at hg with hlt
    · obtain rfl := List.mem_singleton.mp hg
      dsimp only
      omega
    · exact absurd hg List.not_mem_nil
  | cons r rs ih =>
    have hr := hrs r List.mem_cons_self
    rcases (gapsFrom_cons limit cursor r rs g).mp hg with ⟨hlt, rfl⟩ | hg
    · have := hr.1
      have := hr.2
      dsimp only
      omega
    · obtain ⟨hstart, hsize, hstop⟩ := ih (fun s hs => hrs s (List.mem_cons_of_mem _ hs)) hg
      exact ⟨(le_max_left _ _).trans hstart, hsize, hstop⟩

/-- Between two gaps lies at least one covered position. -/
theorem pairwise_gapsFrom (hrs : ∀ r ∈ rs, r.Within limit) (cursor : ℕ) :
    (gapsFrom limit cursor rs).Pairwise fun g h => g.1 + g.2 < h.1 := by
  induction rs generalizing cursor with
  | nil =>
    rw [gapsFrom]
    split_ifs
    · exact List.pairwise_singleton _ _
    · exact List.Pairwise.nil
  | cons r rs ih =>
    have hr := hrs r List.mem_cons_self
    have hrest : ∀ s ∈ rs, s.Within limit := fun s hs => hrs s (List.mem_cons_of_mem _ hs)
    rw [gapsFrom]
    split_ifs with hlt
    · refine List.pairwise_cons.mpr ⟨fun h hh => ?_, ih hrest _⟩
      have hstart := (mem_gapsFrom hrest hh).1
      have hnonempty := hr.1
      have hmax := (le_max_right cursor r.2).trans hstart
      dsimp only
      omega
    · exact ih hrest _

/-- The gaps are the positions from the cursor on that no range covers. -/
theorem gapsFrom_contains (hrs : ∀ r ∈ rs, r.Within limit) (hsorted : rs.Pairwise Range.le)
    (cursor b : ℕ) :
    (∃ g ∈ gapsFrom limit cursor rs, Range.Contains (g.1, g.1 + g.2) b) ↔
      cursor ≤ b ∧ b < limit ∧ ¬ Covered rs b := by
  induction rs generalizing cursor with
  | nil =>
    simp only [gapsFrom, Covered, List.not_mem_nil, false_and, exists_false, not_false_eq_true,
      and_true, Range.Contains]
    split_ifs with hlt
    · simp only [List.mem_singleton, exists_eq_left]
      omega
    · simp only [List.not_mem_nil, false_and, exists_false, false_iff]
      omega
  | cons r rs ih =>
    obtain ⟨hr, hrest⟩ := List.pairwise_cons.mp hsorted
    have hwithin := hrs r List.mem_cons_self
    have hnonempty := hwithin.1
    have hbelow := hwithin.2
    have hstep := ih (fun s hs => hrs s (List.mem_cons_of_mem _ hs)) hrest (max cursor r.2)
    -- a range that starts before the first one would come before it
    have hfirst : ∀ b < r.1, ¬ Covered rs b := by
      rintro b hb ⟨s, hs, hsb⟩
      have := (hr s hs).start
      have := hsb.1
      omega
    have hcovered : Covered (r :: rs) b ↔ r.Contains b ∨ Covered rs b := by
      simp only [Covered, List.mem_cons, exists_eq_or_imp]
    simp only [gapsFrom_cons, or_and_right, exists_or]
    rw [hstep, hcovered]
    have hhere : (∃ g : ℕ × ℕ, (cursor < r.1 ∧ g = (cursor, r.1 - cursor)) ∧
        Range.Contains (g.1, g.1 + g.2) b) ↔ cursor ≤ b ∧ b < r.1 := by
      constructor
      · rintro ⟨g, ⟨hlt, rfl⟩, hstart, hstop⟩
        dsimp only at hstart hstop
        omega
      · intro hb
        refine ⟨_, ⟨hb.1.trans_lt hb.2, rfl⟩, hb.1, ?_⟩
        dsimp only
        omega
    rw [hhere]
    have hmax : max cursor r.2 ≤ b ↔ cursor ≤ b ∧ r.2 ≤ b := max_le_iff
    constructor
    · rintro (hb | ⟨hb, hlimit, hopen⟩)
      · refine ⟨hb.1, by omega, ?_⟩
        rintro (hin | hin)
        · exact absurd hin.1 (by omega)
        · exact hfirst b hb.2 hin
      · refine ⟨(hmax.mp hb).1, hlimit, ?_⟩
        rintro (hin | hin)
        · exact absurd hin.2 (not_lt.mpr (hmax.mp hb).2)
        · exact hopen hin
    · rintro ⟨hb, hlimit, hopen⟩
      by_cases hstart : b < r.1
      · exact Or.inl ⟨hb, hstart⟩
      · right
        have hstop : r.2 ≤ b := by
          by_contra hlt
          exact hopen (Or.inl ⟨not_lt.mp hstart, not_le.mp hlt⟩)
        exact ⟨hmax.mpr ⟨hb, hstop⟩, hlimit, fun hin => hopen (Or.inr hin)⟩

theorem gapsFrom_eq_nil (hrs : ∀ r ∈ rs, r.Within limit) (hsorted : rs.Pairwise Range.le)
    (cursor : ℕ) :
    gapsFrom limit cursor rs = [] ↔ ∀ b, cursor ≤ b → b < limit → Covered rs b := by
  have hgaps := gapsFrom_contains hrs hsorted cursor
  constructor
  · intro hnil b hb hlimit
    by_contra hopen
    obtain ⟨g, hg, -⟩ := (hgaps b).mpr ⟨hb, hlimit, hopen⟩
    rw [hnil] at hg
    exact absurd hg List.not_mem_nil
  · intro hcovered
    apply List.eq_nil_iff_forall_not_mem.mpr
    intro g hg
    obtain ⟨hstart, hsize, hstop⟩ := mem_gapsFrom hrs hg
    have hopen := (hgaps g.1).mp ⟨g, hg, le_rfl, Nat.lt_add_of_pos_right hsize⟩
    exact hopen.2.2 (hcovered g.1 hstart hopen.2.1)

end Gaps

def count (rs : List Range) (b : ℕ) : ℕ := rs.countP fun r => Range.Contains r b

theorem count_cons (r : Range) (rs : List Range) (b : ℕ) :
    count (r :: rs) b = count rs b + if r.Contains b then 1 else 0 := by
  simp [count, List.countP_cons]

theorem covered_iff_count {rs : List Range} {b : ℕ} : Covered rs b ↔ 0 < count rs b := by
  simp [Covered, count, List.countP_pos_iff]

theorem sum_contains {limit : ℕ} {r : Range} (hr : r.Within limit) :
    ∑ b ∈ Finset.range limit, (if r.Contains b then 1 else 0) = r.size := by
  have hfilter : (Finset.range limit).filter r.Contains = Finset.Ico r.1 r.2 := by
    have := hr.2
    ext b
    simp only [Finset.mem_filter, Finset.mem_range, Finset.mem_Ico, Range.Contains]
    omega
  rw [Finset.sum_boole, hfilter, Nat.cast_id, Nat.card_Ico, Range.size]

/-- Counting the covered positions by position and by range. -/
theorem sum_count {limit : ℕ} {rs : List Range} (hrs : ∀ r ∈ rs, r.Within limit) :
    ∑ b ∈ Finset.range limit, count rs b = (rs.map Range.size).sum := by
  induction rs with
  | nil => simp [count]
  | cons r rs ih =>
    simp only [count_cons, Finset.sum_add_distrib, List.map_cons, List.sum_cons]
    rw [ih fun s hs => hrs s (List.mem_cons_of_mem _ hs), sum_contains (hrs r List.mem_cons_self),
      add_comm]

theorem pairwise_apart_iff {limit : ℕ} {rs : List Range} (hrs : ∀ r ∈ rs, r.Within limit) :
    rs.Pairwise Range.Apart ↔ ∀ b, count rs b ≤ 1 := by
  induction rs with
  | nil => simp [count]
  | cons r rs ih =>
    have hr := hrs r List.mem_cons_self
    have hrest : ∀ s ∈ rs, s.Within limit := fun s hs => hrs s (List.mem_cons_of_mem _ hs)
    rw [List.pairwise_cons, ih hrest]
    constructor
    · rintro ⟨hapart, hcount⟩ b
      rw [count_cons]
      split_ifs with hb
      · have hzero : ¬ 0 < count rs b := by
          rw [← covered_iff_count]
          rintro ⟨s, hs, hsb⟩
          exact (Range.not_apart hr (hrest s hs)).mpr ⟨b, hb, hsb⟩ (hapart s hs)
        omega
      · exact hcount b
    · intro hcount
      constructor
      · intro s hs
        by_contra hmeet
        obtain ⟨b, hb, hsb⟩ := (Range.not_apart hr (hrest s hs)).mp hmeet
        have hpos : 0 < count rs b := covered_iff_count.mp ⟨s, hs, hsb⟩
        have := hcount b
        rw [count_cons, if_pos hb] at this
        omega
      · intro b
        have := hcount b
        rw [count_cons] at this
        omega

theorem count_eq_zero {limit : ℕ} {rs : List Range} (hrs : ∀ r ∈ rs, r.Within limit) {b : ℕ}
    (hb : limit ≤ b) : count rs b = 0 := by
  by_contra hne
  obtain ⟨r, hr, hrb⟩ := covered_iff_count.mpr (Nat.pos_of_ne_zero hne)
  have := (hrs r hr).2
  have := hrb.2
  omega

/-- Ranges of total size `limit` below `limit` cover it exactly when no two of them overlap. -/
theorem covered_iff_apart {limit : ℕ} {rs : List Range} (hrs : ∀ r ∈ rs, r.Within limit)
    (hsum : (rs.map Range.size).sum = limit) :
    (∀ b < limit, Covered rs b) ↔ rs.Pairwise Range.Apart := by
  have htotal : ∑ b ∈ Finset.range limit, count rs b = ∑ _b ∈ Finset.range limit, 1 := by
    rw [sum_count hrs, hsum, Finset.sum_const, Finset.card_range, smul_eq_mul, mul_one]
  simp only [pairwise_apart_iff hrs, covered_iff_count]
  constructor
  · intro hpos b
    by_cases hb : b < limit
    · by_contra hgt
      have hlt := Finset.sum_lt_sum (s := Finset.range limit) (f := fun _ => 1) (g := count rs)
        (fun i hi => hpos i (Finset.mem_range.mp hi)) ⟨b, Finset.mem_range.mpr hb, by omega⟩
      omega
    · have := count_eq_zero hrs (not_lt.mp hb)
      omega
  · intro hle b hb
    by_contra hzero
    have hlt := Finset.sum_lt_sum (s := Finset.range limit) (f := count rs) (g := fun _ => 1)
      (fun i _ => hle i) ⟨b, Finset.mem_range.mpr hb, by omega⟩
    omega

end Ranges
