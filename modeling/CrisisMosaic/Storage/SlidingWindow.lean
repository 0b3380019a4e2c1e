import Mathlib.Tactic

/-!
# Sliding windows

The times at which something was admitted, oldest first, of which those that have left the window are
dropped. As long as one is admitted only while fewer than `limit` are left, no window of that length
has more than `limit` of them.
-/

namespace Storage.SlidingWindow

/-- In a sorted list, what is not dropped at the front is all that is greater. -/
theorem dropWhile_eq_filter {α : Type*} [LinearOrder α] {l : List α} (h : l.Pairwise (· ≤ ·)) (c : α) :
    l.dropWhile (· ≤ c) = l.filter (c < ·) := by
  induction l with
  | nil => rfl
  | cons a l ih =>
    rw [List.pairwise_cons] at h
    by_cases ha : a ≤ c
    · simp [ha, ih h.2]
    · have hall : (a :: l).filter (c < ·) = a :: l := by
        rw [List.filter_eq_self]
        intro x hx
        have hca := not_le.mp ha
        rcases List.mem_cons.mp hx with rfl | hx
        · exact decide_eq_true hca
        · exact decide_eq_true (hca.trans_le (h.1 x hx))
      rw [hall]
      simp [ha]

variable {τ : Type*} [AddCommGroup τ] [LinearOrder τ] [IsOrderedAddMonoid τ]

/-- What is left of the entries at a time. -/
def expire (window now : τ) (entries : List τ) : List τ := entries.dropWhile (· ≤ now - window)

/-- The times in the window that ends with `t`, which is open where it begins. -/
def within (window t : τ) (log : List τ) : List τ := log.filter fun x => t - window < x ∧ x ≤ t

/-- `entries` is what is left of all the times in `log`. -/
structure Tracks (window : τ) (limit : ℕ) (now : τ) (entries log : List τ) : Prop where
  sorted : log.Pairwise (· ≤ ·)
  past : ∀ x ∈ log, x ≤ now
  kept : ∃ cutoff ≤ now - window, entries = log.filter (cutoff < ·)
  bounded : ∀ t, (within window t log).length ≤ limit

namespace Tracks
variable {window now later : τ} {limit : ℕ} {entries log : List τ}

omit [IsOrderedAddMonoid τ] in
theorem empty (window : τ) (limit : ℕ) (now : τ) : Tracks window limit now [] [] :=
  ⟨.nil, fun _ h => absurd h List.not_mem_nil, ⟨now - window, le_rfl, rfl⟩, fun _ => Nat.zero_le _⟩

theorem expire_eq (h : Tracks window limit now entries log) (hle : now ≤ later) :
    expire window later entries = log.filter (later - window < ·) := by
  obtain ⟨cutoff, hcutoff, rfl⟩ := h.kept
  have hlater : cutoff ≤ later - window := hcutoff.trans (sub_le_sub_right hle window)
  rw [expire, dropWhile_eq_filter (h.sorted.sublist List.filter_sublist), List.filter_filter]
  apply List.filter_congr
  intro x _
  rw [← Bool.decide_and, decide_eq_decide]
  exact and_iff_left_of_imp hlater.trans_lt

theorem wait (h : Tracks window limit now entries log) (hle : now ≤ later) :
    Tracks window limit later entries log := by
  obtain ⟨cutoff, hcutoff, hentries⟩ := h.kept
  exact ⟨h.sorted, fun x hx => (h.past x hx).trans hle,
    ⟨cutoff, hcutoff.trans (sub_le_sub_right hle window), hentries⟩, h.bounded⟩

/-- Time passes, and what has left the window is dropped. -/
theorem expire (h : Tracks window limit now entries log) (hle : now ≤ later) :
    Tracks window limit later (expire window later entries) log :=
  ⟨h.sorted, fun x hx => (h.past x hx).trans hle, ⟨later - window, le_rfl, h.expire_eq hle⟩, h.bounded⟩

omit [IsOrderedAddMonoid τ] in
theorem sublist_within (h : Tracks window limit now entries log) (t : τ) (hle : now ≤ t) :
    within window t log = log.filter (t - window < ·) := by
  apply List.filter_congr
  intro x hx
  rw [decide_eq_decide]
  exact and_iff_left ((h.past x hx).trans hle)

/-- What is left never exceeds the limit. -/
theorem length_expire_le (h : Tracks window limit now entries log) (hle : now ≤ later) :
    (SlidingWindow.expire window later entries).length ≤ limit := by
  rw [h.expire_eq hle, ← h.sublist_within later hle]
  exact h.bounded later

/-- There is room again when the oldest of those that are left has left the window. -/
theorem length_lt_of_left {entries' : List τ} {t : τ} (h : Tracks window limit now entries log)
    (h' : Tracks window limit t entries' log) (ht : now ≤ t) (hle : t ≤ later) {oldest : τ}
    (holdest : oldest ∈ SlidingWindow.expire window now entries) (hleft : oldest ≤ later - window) :
    (SlidingWindow.expire window later entries').length < limit := by
  refine lt_of_lt_of_le ?_ (h.length_expire_le le_rfl)
  rw [h.expire_eq le_rfl] at holdest ⊢
  rw [h'.expire_eq hle]
  have hsub : (log.filter (later - window < ·)).Sublist (log.filter (now - window < ·)) := by
    apply List.monotone_filter_right
    intro x hx
    rw [decide_eq_true_eq] at hx ⊢
    exact (sub_le_sub_right (ht.trans hle) window).trans_lt hx
  by_contra hnot
  rw [← hsub.eq_of_length_le (not_lt.mp hnot), List.mem_filter, decide_eq_true_eq] at holdest
  exact absurd hleft (not_le.mpr holdest.2)

/-- A window that is open where it ends has no more than the limit either. -/
theorem bounded_open (h : Tracks window limit now entries log) (a : τ) :
    (log.filter fun x => a ≤ x ∧ x < a + window).length ≤ limit := by
  obtain ⟨l, hl⟩ : ∃ l, l = log.filter fun x => a ≤ x ∧ x < a + window := ⟨_, rfl⟩
  rw [← hl]
  rcases List.eq_nil_or_concat l with hnil | ⟨init, last, hlast⟩
  · rw [hnil]
    exact Nat.zero_le _
  · have hmem : ∀ x ∈ l, x ∈ log ∧ a ≤ x ∧ x < a + window := by
      intro x hx
      rw [hl, List.mem_filter, decide_eq_true_eq] at hx
      exact hx
    have hsorted : l.Pairwise (· ≤ ·) := by
      rw [hl]
      exact h.sorted.sublist List.filter_sublist
    have hmax : ∀ x ∈ l, x ≤ last := by
      intro x hx
      rw [hlast, List.concat_eq_append, List.pairwise_append] at hsorted
      rw [hlast, List.concat_eq_append, List.mem_append] at hx
      rcases hx with hx | hx
      · exact hsorted.2.2 x hx last (List.mem_singleton_self last)
      · exact (List.mem_singleton.mp hx).le
    have hin : last ∈ l := by
      rw [hlast, List.concat_eq_append]
      exact List.mem_append_right _ (List.mem_singleton_self last)
    have hwithin : l.filter (fun x => last - window < x ∧ x ≤ last) = l := by
      rw [List.filter_eq_self]
      intro x hx
      refine decide_eq_true ⟨?_, hmax x hx⟩
      exact sub_lt_iff_lt_add.mpr ((hmem last hin).2.2.trans_le (add_le_add_left (hmem x hx).2.1 window))
    have hle : (within window last l).length ≤ (within window last log).length := by
      rw [hl, within, within]
      exact (List.filter_sublist.filter _).length_le
    rw [within, hwithin] at hle
    exact hle.trans (h.bounded last)

/-- One more is admitted while fewer than `limit` are left. -/
theorem admitted (h : Tracks window limit now entries log) (hle : now ≤ later) (hwindow : 0 < window)
    (hroom : (SlidingWindow.expire window later entries).length < limit) :
    Tracks window limit later (SlidingWindow.expire window later entries ++ [later]) (log ++ [later]) := by
  have hpast : ∀ x ∈ log, x ≤ later := fun x hx => (h.past x hx).trans hle
  rw [h.expire_eq hle] at hroom ⊢
  refine ⟨?_, ?_, ?_, ?_⟩
  · rw [List.pairwise_append]
    refine ⟨h.sorted, List.pairwise_singleton _ _, ?_⟩
    intro x hx y hy
    rw [List.mem_singleton.mp hy]
    exact hpast x hx
  · intro x hx
    rcases List.mem_append.mp hx with hx | hx
    · exact hpast x hx
    · exact (List.mem_singleton.mp hx).le
  · refine ⟨later - window, le_rfl, ?_⟩
    have hlast : later - window < later := sub_lt_self later hwindow
    rw [List.filter_append]
    simp [hlast]
  · intro t
    rw [within, List.filter_append, List.length_append]
    by_cases hin : t - window < later ∧ later ≤ t
    · have hle' : (within window t log).length ≤ (log.filter (later - window < ·)).length := by
        apply List.Sublist.length_le
        apply List.monotone_filter_right
        intro x hx
        simp only [decide_eq_true_eq] at hx ⊢
        exact (sub_le_sub_right hin.2 window).trans_lt hx.1
      have hone : ([later].filter fun x => t - window < x ∧ x ≤ t).length = 1 := by simp [hin]
      rw [hone]
      exact Nat.succ_le_of_lt (hle'.trans_lt hroom)
    · have hnone : ([later].filter fun x => t - window < x ∧ x ≤ t).length = 0 := by simp [hin]
      rw [hnone]
      exact h.bounded t

end Tracks
end Storage.SlidingWindow
