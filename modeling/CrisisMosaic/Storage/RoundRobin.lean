import Mathlib.Tactic

/-!
# Rows that take turns under a budget

Turn after turn, each row offers its next item. An item that does not fit in what is left
of the budget is passed over, smaller ones after it may still be taken. Positions count
from one.
-/

namespace RoundRobin
variable {β : Type*}

/-! ## Turns -/

def schedule (rows : List ℕ) (queue : ℕ → List β) (turns : ℕ) : List (ℕ × β) :=
  (List.range turns).flatMap fun k => rows.filterMap fun i => (queue i)[k]?.map (Prod.mk i)

def ofRow (i : ℕ) (l : List (ℕ × β)) : List β := (l.filter fun x => x.1 = i).map Prod.snd

@[simp] theorem ofRow_nil (i : ℕ) : ofRow i ([] : List (ℕ × β)) = [] := rfl

theorem ofRow_append (i : ℕ) (l m : List (ℕ × β)) : ofRow i (l ++ m) = ofRow i l ++ ofRow i m := by
  rw [ofRow, List.filter_append, List.map_append]
  rfl

theorem ofRow_singleton (i : ℕ) (x : ℕ × β) : ofRow i [x] = if x.1 = i then [x.2] else [] := by
  by_cases h : x.1 = i <;> simp [ofRow, h]

theorem ofRow_sublist {l m : List (ℕ × β)} (h : l.Sublist m) (i : ℕ) :
    (ofRow i l).Sublist (ofRow i m) :=
  (h.filter _).map _

theorem ofRow_flatMap {α : Type*} (i : ℕ) (l : List α) (f : α → List (ℕ × β)) :
    ofRow i (l.flatMap f) = l.flatMap fun a => ofRow i (f a) := by
  rw [ofRow, List.filter_flatMap, List.map_flatMap]
  rfl

theorem ofRow_eq_nil {i : ℕ} {l : List (ℕ × β)} (h : ∀ x ∈ l, x.1 ≠ i) : ofRow i l = [] := by
  rw [ofRow, List.map_eq_nil_iff, List.filter_eq_nil_iff]
  exact fun x hx hi => h x hx (of_decide_eq_true hi)

theorem mem_turn {rows : List ℕ} {item : ℕ → Option β} {x : ℕ × β}
    (h : x ∈ rows.filterMap fun i => (item i).map (Prod.mk i)) : x.1 ∈ rows := by
  obtain ⟨i, hi, hx⟩ := List.mem_filterMap.mp h
  obtain ⟨b, -, rfl⟩ := Option.map_eq_some_iff.mp hx
  exact hi

/-- One turn has the item of the row and nothing else of it. -/
theorem ofRow_turn {rows : List ℕ} (hrows : rows.Nodup) {i : ℕ} (hi : i ∈ rows)
    (item : ℕ → Option β) :
    ofRow i (rows.filterMap fun i => (item i).map (Prod.mk i)) = (item i).toList := by
  induction rows with
  | nil => exact absurd hi List.not_mem_nil
  | cons j rows ih =>
    obtain ⟨hj, hrows⟩ := List.nodup_cons.mp hrows
    have hsplit : (j :: rows).filterMap (fun i => (item i).map (Prod.mk i)) =
        ((item j).map (Prod.mk j)).toList ++ rows.filterMap fun i => (item i).map (Prod.mk i) := by
      cases h : item j <;> simp [h]
    rw [hsplit, ofRow_append]
    by_cases hij : j = i
    · subst hij
      rw [ofRow_eq_nil fun x hx (hxj : x.1 = j) => hj (hxj ▸ mem_turn hx),
        List.append_nil]
      cases item j with
      | none => rfl
      | some b => exact (ofRow_singleton j (j, b)).trans (if_pos rfl)
    · rw [ih hrows ((List.mem_cons.mp hi).resolve_left (Ne.symm hij))]
      cases item j with
      | none => rfl
      | some b =>
        have hnil : ofRow i [(j, b)] = [] := (ofRow_singleton i (j, b)).trans (if_neg hij)
        exact congrArg (· ++ (item i).toList) hnil

theorem flatMap_getElem? (l : List β) (n : ℕ) :
    ((List.range n).flatMap fun k => l[k]?.toList) = l.take n := by
  induction n with
  | zero => rfl
  | succ n ih =>
    rw [List.range_succ, List.flatMap_append, ih, List.take_add_one]
    simp

/-- With enough turns, the schedule has all items of a row in their order. -/
theorem ofRow_schedule {rows : List ℕ} (hrows : rows.Nodup) {i : ℕ} (hi : i ∈ rows)
    (queue : ℕ → List β) {turns : ℕ} (h : (queue i).length ≤ turns) :
    ofRow i (schedule rows queue turns) = queue i := by
  rw [schedule, ofRow_flatMap]
  calc (List.range turns).flatMap
        (fun k => ofRow i (rows.filterMap fun i => (queue i)[k]?.map (Prod.mk i)))
      = (List.range turns).flatMap fun k => (queue i)[k]?.toList := by
        congr 1
        funext k
        exact ofRow_turn hrows hi fun i => (queue i)[k]?
    _ = (queue i).take turns := flatMap_getElem? _ _
    _ = queue i := List.take_of_length_le h

theorem ofRow_schedule_of_notMem {rows : List ℕ} {i : ℕ} (hi : i ∉ rows) (queue : ℕ → List β)
    (turns : ℕ) : ofRow i (schedule rows queue turns) = [] := by
  refine ofRow_eq_nil fun x hx hxi => hi ?_
  obtain ⟨k, -, hx⟩ := List.mem_flatMap.mp hx
  exact hxi ▸ mem_turn hx

/-- Two nested loops over turns and rows run through the schedule. -/
theorem foldl_schedule {σ : Type*} (rows : List ℕ) (queue : ℕ → List β) (turns : ℕ)
    (f : σ → ℕ × β → σ) (s : σ) :
    (List.range turns).foldl (fun s k => rows.foldl (fun s i =>
      match (queue i)[k]? with
      | some b => f s (i, b)
      | none => s) s) s = (schedule rows queue turns).foldl f s := by
  rw [schedule, List.foldl_flatMap]
  congr 1
  funext s k
  rw [List.foldl_filterMap]
  congr 1
  funext s i
  cases (queue i)[k]? <;> rfl

/-! ## The budget -/

section Budget
variable (size : β → ℕ) (budget : ℕ)

def total (l : List (ℕ × β)) : ℕ := (l.map fun x => size x.2).sum

def take (taken : List (ℕ × β)) (x : ℕ × β) : List (ℕ × β) :=
  if total size taken + size x.2 ≤ budget then taken ++ [x] else taken

def taken (l : List (ℕ × β)) : List (ℕ × β) := l.foldl (take size budget) []

variable {size} {budget}

theorem total_append (l m : List (ℕ × β)) : total size (l ++ m) = total size l + total size m := by
  simp [total]

theorem taken_append_singleton (l : List (ℕ × β)) (x : ℕ × β) :
    taken size budget (l ++ [x]) = take size budget (taken size budget l) x := by
  rw [taken, List.foldl_append]
  rfl

theorem total_taken_le (l : List (ℕ × β)) : total size (taken size budget l) ≤ budget := by
  induction l using List.reverseRecOn with
  | nil => exact Nat.zero_le _
  | append_singleton l x ih =>
    rw [taken_append_singleton, take]
    split_ifs with h
    · rw [total_append]
      simpa [total] using h
    · exact ih

theorem taken_sublist (l : List (ℕ × β)) : (taken size budget l).Sublist l := by
  induction l using List.reverseRecOn with
  | nil => exact List.Sublist.refl _
  | append_singleton l x ih =>
    rw [taken_append_singleton, take]
    split_ifs with h
    · exact ih.append (List.Sublist.refl _)
    · exact ih.trans (List.sublist_append_left l [x])

end Budget

/-! ## Positions -/

def positions (i : ℕ) (l : List (ℕ × β)) : List ℕ :=
  ((l.zipIdx 1).filter fun p => p.1.1 = i).map Prod.snd

@[simp] theorem positions_nil (i : ℕ) : positions i ([] : List (ℕ × β)) = [] := rfl

theorem positions_append_singleton (i : ℕ) (l : List (ℕ × β)) (x : ℕ × β) :
    positions i (l ++ [x]) = if x.1 = i then positions i l ++ [l.length + 1] else positions i l := by
  rw [positions, List.zipIdx_append, List.filter_append, List.map_append]
  by_cases h : x.1 = i
  · rw [if_pos h]
    simp [positions, h, Nat.add_comm]
  · rw [if_neg h]
    simp [positions, h]

theorem mem_positions {i k : ℕ} {l : List (ℕ × β)} :
    k ∈ positions i l ↔ 1 ≤ k ∧ ∃ b, l[k - 1]? = some (i, b) := by
  simp only [positions, List.mem_map, List.mem_filter, List.mem_zipIdx_iff_le_and_getElem?_sub,
    decide_eq_true_eq, Prod.exists]
  constructor
  · rintro ⟨j, b, n, ⟨⟨hn, hget⟩, rfl⟩, rfl⟩
    exact ⟨hn, b, hget⟩
  · rintro ⟨hk, b, hget⟩
    exact ⟨i, b, k, ⟨⟨hk, hget⟩, rfl⟩, rfl⟩

theorem length_positions (i : ℕ) (l : List (ℕ × β)) :
    (positions i l).length = (ofRow i l).length := by
  induction l using List.reverseRecOn with
  | nil => rfl
  | append_singleton l x ih =>
    rw [positions_append_singleton, ofRow_append, ofRow_singleton]
    by_cases h : x.1 = i <;> simp [h, ih]

theorem positions_increasing (i : ℕ) (l : List (ℕ × β)) : (positions i l).Pairwise (· < ·) := by
  induction l using List.reverseRecOn with
  | nil => exact List.Pairwise.nil
  | append_singleton l x ih =>
    rw [positions_append_singleton]
    split_ifs with h
    · refine List.pairwise_append.mpr ⟨ih, List.pairwise_singleton _ _, fun a ha b hb => ?_⟩
      obtain ⟨h1, c, hget⟩ := mem_positions.mp ha
      have hlt := (List.getElem?_eq_some_iff.mp hget).1
      rw [List.mem_singleton.mp hb]
      omega
    · exact ih

theorem positions_disjoint {i j : ℕ} (hij : i ≠ j) {l : List (ℕ × β)} {k : ℕ}
    (hi : k ∈ positions i l) : k ∉ positions j l := by
  intro hj
  obtain ⟨-, b, hb⟩ := mem_positions.mp hi
  obtain ⟨-, c, hc⟩ := mem_positions.mp hj
  have heq := Option.some.inj (hb.symm.trans hc)
  exact hij (Prod.mk.inj heq).1

theorem exists_positions_iff {l : List (ℕ × β)} {k : ℕ} :
    (∃ i, k ∈ positions i l) ↔ 1 ≤ k ∧ k ≤ l.length := by
  simp only [mem_positions]
  constructor
  · rintro ⟨i, hk, b, hget⟩
    have hlt := (List.getElem?_eq_some_iff.mp hget).1
    omega
  · rintro ⟨hk, hle⟩
    have hlt : k - 1 < l.length := by omega
    exact ⟨l[k - 1].1, hk, l[k - 1].2, List.getElem?_eq_getElem hlt⟩

/-- At the positions of a row are its items, in their order. -/
theorem map_positions (i : ℕ) (l : List (ℕ × β)) :
    (positions i l).map (fun k => (l.map Prod.snd)[k - 1]?) = (ofRow i l).map some := by
  induction l using List.reverseRecOn with
  | nil => rfl
  | append_singleton l x ih =>
    have hold : (positions i l).map (fun k => ((l ++ [x]).map Prod.snd)[k - 1]?) =
        (positions i l).map (fun k => (l.map Prod.snd)[k - 1]?) := by
      refine List.map_congr_left fun k hk => ?_
      obtain ⟨h1, b, hget⟩ := mem_positions.mp hk
      have hlt := (List.getElem?_eq_some_iff.mp hget).1
      rw [List.map_append, List.getElem?_append_left (by rwa [List.length_map])]
    rw [positions_append_singleton, ofRow_append, ofRow_singleton]
    by_cases h : x.1 = i
    · rw [if_pos h, if_pos h, List.map_append, hold, ih]
      simp
    · rw [if_neg h, if_neg h, hold, ih, List.append_nil]

end RoundRobin
