import CrisisMosaic.MapView

/-!
# Rounded cells

`round3` sends a coordinate to the nearest thousandth and a tie to the even one,
so the cells of even thousandths are closed and the others are open. A bound
leaves every cell on one side exactly when it is the end of a closed cell.
-/

namespace CrisisMosaic

section HalfEven
variable {q : ℚ} {n : ℤ}

theorem roundHalfEven_near (q : ℚ) :
    |q - roundHalfEven q| < 1 / 2 ∨ |q - roundHalfEven q| = 1 / 2 ∧ Even (roundHalfEven q) := by
  have hlow : (⌊q⌋ : ℚ) ≤ q := Int.floor_le q
  have hhigh : q < ⌊q⌋ + 1 := Int.lt_floor_add_one q
  unfold roundHalfEven
  split_ifs with hbelow habove heven
  · left
    rw [abs_of_nonneg (by linarith)]
    exact hbelow
  · left
    push_cast
    rw [abs_of_nonpos (by linarith)]
    linarith
  · refine Or.inr ⟨?_, Int.even_iff.mpr heven⟩
    rw [abs_of_nonneg (by linarith)]
    linarith
  · refine Or.inr ⟨?_, Int.even_iff.mpr (by omega)⟩
    push_cast
    rw [abs_of_nonpos (by linarith)]
    linarith

/-- The two integers nearest to a tie are neighbours, and one of them is odd. -/
theorem roundHalfEven_eq_iff :
    roundHalfEven q = n ↔ |q - n| < 1 / 2 ∨ |q - n| = 1 / 2 ∧ Even n := by
  refine ⟨fun h => h ▸ roundHalfEven_near q, fun hn => ?_⟩
  have hm := roundHalfEven_near q
  generalize roundHalfEven q = m at hm
  have habs : ∀ k : ℤ, |q - k| < 1 / 2 ∨ |q - k| = 1 / 2 ∧ Even k → |q - k| ≤ 1 / 2 :=
    fun k hk => hk.elim le_of_lt fun h => h.1.le
  have hnm := abs_le.mp (habs n hn)
  have hmm := abs_le.mp (habs m hm)
  have hlow : ((m - n : ℤ) : ℚ) ≤ 1 := by push_cast; linarith
  have hhigh : (-1 : ℚ) ≤ ((m - n : ℤ) : ℚ) := by push_cast; linarith
  have hclose : -1 ≤ m - n ∧ m - n ≤ 1 := ⟨by exact_mod_cast hhigh, by exact_mod_cast hlow⟩
  by_contra hne
  have hstep : m = n + 1 ∨ n = m + 1 := by omega
  have htie : |q - n| = 1 / 2 ∧ |q - m| = 1 / 2 := by
    rcases hstep with rfl | rfl <;> push_cast at hnm hmm ⊢
    · have hq : q = n + 1 / 2 := by linarith
      rw [hq]
      norm_num
    · have hq : q = m + 1 / 2 := by linarith
      rw [hq]
      norm_num
  have hen : Even n := (hn.resolve_left htie.1.ge.not_gt).2
  have hem : Even m := (hm.resolve_left htie.2.ge.not_gt).2
  rw [Int.even_iff] at hen hem
  omega

theorem roundHalfEven_neg (q : ℚ) : roundHalfEven (-q) = -roundHalfEven q := by
  rw [roundHalfEven_eq_iff, even_neg]
  push_cast
  rw [show -q - -(roundHalfEven q : ℚ) = -(q - roundHalfEven q) by ring, abs_neg]
  exact roundHalfEven_near q

theorem le_roundHalfEven_iff (hn : Even n) : n ≤ roundHalfEven q ↔ n - 1 / 2 ≤ q := by
  have hnear := roundHalfEven_near q
  have habs := abs_le.mp (hnear.elim le_of_lt fun h => h.1.le)
  constructor
  · intro h
    have : (n : ℚ) ≤ roundHalfEven q := by exact_mod_cast h
    linarith
  · intro h
    by_contra hlt
    have hle : roundHalfEven q ≤ n - 1 := by omega
    have hleq : (roundHalfEven q : ℚ) ≤ n - 1 := by exact_mod_cast hle
    rcases hnear with hnear | ⟨-, heven⟩
    · have := (abs_lt.mp hnear).2
      linarith
    · have heq : (roundHalfEven q : ℚ) = n - 1 := by linarith
      have heq : roundHalfEven q = n - 1 := by exact_mod_cast heq
      rw [Int.even_iff] at heven hn
      omega

end HalfEven

section Thousandths
variable {x y bound lo hi : ℚ}

theorem round3_eq_iff : round3 x = round3 y ↔ roundHalfEven (x * 1000) = roundHalfEven (y * 1000) := by
  simp [round3, div_left_inj']

theorem round3_neg (x : ℚ) : round3 (-x) = -round3 x := by
  simp [round3, neg_mul, roundHalfEven_neg, neg_div]

/-- No cell of coordinates from `bound` on has some of them below `lo` and some not. -/
def AlignedMin (bound lo : ℚ) : Prop := lo ≤ bound ∨ ∃ n : ℤ, Even n ∧ lo * 1000 = n - 1 / 2

/-- No cell of coordinates up to `bound` has some of them above `hi` and some not. -/
def AlignedMax (bound hi : ℚ) : Prop := bound ≤ hi ∨ ∃ n : ℤ, Even n ∧ hi * 1000 = n + 1 / 2

theorem alignedMax_iff : AlignedMax bound hi ↔ AlignedMin (-bound) (-hi) := by
  refine or_congr neg_le_neg_iff.symm ⟨?_, ?_⟩
  · rintro ⟨n, hn, h⟩
    exact ⟨-n, hn.neg, by push_cast; linarith⟩
  · rintro ⟨n, hn, h⟩
    exact ⟨-n, hn.neg, by push_cast; linarith⟩

theorem AlignedMin.same (h : AlignedMin bound lo) (hx : bound ≤ x) (hy : bound ≤ y)
    (hxy : round3 x = round3 y) : lo ≤ x ↔ lo ≤ y := by
  rcases h with h | ⟨n, hn, h⟩
  · exact iff_of_true (h.trans hx) (h.trans hy)
  · have hside : ∀ z : ℚ, lo ≤ z ↔ n ≤ roundHalfEven (z * 1000) := by
      intro z
      rw [le_roundHalfEven_iff hn, ← h]
      constructor <;> intro hz <;> linarith
    rw [hside, hside, round3_eq_iff.mp hxy]

theorem AlignedMax.same (h : AlignedMax bound hi) (hx : x ≤ bound) (hy : y ≤ bound)
    (hxy : round3 x = round3 y) : x ≤ hi ↔ y ≤ hi := by
  have hneg := (alignedMax_iff.mp h).same (neg_le_neg hx) (neg_le_neg hy)
    (by rw [round3_neg, round3_neg, hxy])
  rwa [neg_le_neg_iff, neg_le_neg_iff] at hneg

/-- A bound inside a cell has a smaller coordinate of the cell beside it. -/
theorem exists_below (h : ¬AlignedMin bound lo) : ∃ x, bound ≤ x ∧ x < lo ∧ round3 x = round3 lo := by
  simp only [AlignedMin, not_or, not_le, not_exists, not_and] at h
  obtain ⟨hbound, hedge⟩ := h
  obtain ⟨n, hn⟩ : ∃ n, n = roundHalfEven (lo * 1000) := ⟨_, rfl⟩
  have hnear := roundHalfEven_near (lo * 1000)
  rw [← hn] at hnear
  have habs := abs_le.mp (hnear.elim le_of_lt fun h => h.1.le)
  have hinside : n - 1 / 2 < lo * 1000 := by
    rcases hnear with hnear | ⟨-, heven⟩
    · have := (abs_lt.mp hnear).1
      linarith
    · exact lt_of_le_of_ne (by linarith) fun he => hedge n heven he.symm
  refine ⟨max ((n - 1 / 2 + lo * 1000) / 2000) bound, le_max_right _ _, ?_, ?_⟩
  · exact max_lt (by linarith) hbound
  · have hlow : n - 1 / 2 < max ((n - 1 / 2 + lo * 1000) / 2000) bound * 1000 := by
      have := le_max_left ((n - 1 / 2 + lo * 1000) / 2000) bound
      linarith
    have hhigh : max ((n - 1 / 2 + lo * 1000) / 2000) bound < lo := max_lt (by linarith) hbound
    rw [round3_eq_iff, ← hn, roundHalfEven_eq_iff]
    exact Or.inl (abs_lt.mpr ⟨by linarith, by linarith⟩)

theorem exists_above (h : ¬AlignedMax bound hi) : ∃ x, x ≤ bound ∧ hi < x ∧ round3 x = round3 hi := by
  obtain ⟨x, hx, hlt, hr⟩ := exists_below (fun hm => h (alignedMax_iff.mpr hm))
  refine ⟨-x, by linarith, by linarith, ?_⟩
  rw [round3_neg, hr, round3_neg, neg_neg]

end Thousandths
end CrisisMosaic
