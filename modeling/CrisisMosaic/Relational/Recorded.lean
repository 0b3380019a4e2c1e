import CrisisMosaic.Relational.Run

/-!
# Recorded runs

A run that also keeps what its steps record, the latest first. Recording does not
disturb the run, so an invariant may speak of the state and of the records.
-/

namespace Relational
variable {σ ι κ : Type*} (step : σ → ι → σ) (log : σ → ι → List κ)

def record (s : σ × List κ) (i : ι) : σ × List κ := (step s.1 i, log s.1 i ++ s.2)

/-- What the steps of a run record. -/
def records (s : σ) (is : List ι) : List κ := (run (record step log) (s, []) is).2

theorem run_record (s : σ × List κ) (is : List ι) :
    (run (record step log) s is).1 = run step s.1 is := by
  induction is generalizing s with
  | nil => rfl
  | cons i is ih => exact ih _

theorem along_record {C : σ → ι → Prop} {s : σ × List κ} {is : List ι}
    (h : Along step C s.1 is) : Along (record step log) (fun s i => C s.1 i) s is := by
  induction is generalizing s with
  | nil => trivial
  | cons i is ih => exact ⟨h.1, ih h.2⟩

/-- An invariant of the state and of what was recorded on the way. -/
theorem records_invariant {C : σ → ι → Prop} {I : σ → List κ → Prop}
    (hstep : ∀ s l i, I s l → C s i → I (step s i) (log s i ++ l)) {s : σ} {is : List ι}
    (hs : I s []) (hc : Along step C s is) : I (run step s is) (records step log s is) := by
  have h : I (run (record step log) (s, []) is).1 (run (record step log) (s, []) is).2 :=
    run_invariant (record step log) (C := fun s i => C s.1 i) (I := fun s => I s.1 s.2)
      (fun s i hs hc => hstep s.1 s.2 i hs hc) hs (along_record step log hc)
  rw [run_record] at h
  exact h

section Last
variable [DecidableEq κ]

/-- `b` is recorded after the last time `a` is. -/
def LastRecorded (a b : κ) (l : List κ) : Prop := l.find? (fun c => c = a || c = b) = some b

variable {a b c : κ} {l : List κ}

theorem lastRecorded_cons (hab : a ≠ b) :
    LastRecorded a b (c :: l) ↔ c = b ∨ c ≠ a ∧ c ≠ b ∧ LastRecorded a b l := by
  unfold LastRecorded
  by_cases hb : c = b
  · simp [hb]
  · by_cases ha : c = a
    · simp [ha, hab]
    · simp [ha, hb]

theorem lastRecorded_total (ha : a ∈ l) : LastRecorded a b l ∨ LastRecorded b a l := by
  unfold LastRecorded
  induction l with
  | nil => exact nomatch ha
  | cons c l ih =>
    by_cases hb : c = b
    · exact Or.inl (by simp [hb])
    · by_cases hca : c = a
      · exact Or.inr (by simp [hca])
      · have hmem : a ∈ l := (List.mem_cons.mp ha).resolve_left (Ne.symm hca)
        simpa [hb, hca] using ih hmem

end Last
end Relational

/-!
## What the records of a run make

Part of a state changes by what is recorded only. It is then what the records make of it, in their
order, and each record was made in the sight of what the earlier ones had made.
-/

namespace Relational
variable {σ ι κ τ : Type*} (apply : τ → κ → τ) (sees : τ → κ → Prop)

/-- The latest record is the first of the list. -/
def replay (x : τ) : List κ → τ
  | [] => x
  | r :: earlier => apply (replay x earlier) r

/-- Each record sees what the earlier ones have made. -/
def SeesReplay (x : τ) : List κ → Prop
  | [] => True
  | r :: earlier => sees (replay apply x earlier) r ∧ SeesReplay x earlier

variable {apply sees} {x : τ}

theorem replay_append (later earlier : List κ) :
    replay apply x (later ++ earlier) = replay apply (replay apply x earlier) later := by
  induction later with
  | nil => rfl
  | cons r later ih => exact congrArg (apply · r) ih

theorem seesReplay_append {later earlier : List κ} : SeesReplay apply sees x (later ++ earlier) ↔
    SeesReplay apply sees (replay apply x earlier) later ∧ SeesReplay apply sees x earlier := by
  induction later with
  | nil => simp [SeesReplay]
  | cons r later ih =>
    rw [List.cons_append, SeesReplay, ih, SeesReplay, replay_append, and_assoc]

theorem seesReplay_iff {l : List κ} : SeesReplay apply sees x l ↔
    ∀ later r earlier, l = later ++ r :: earlier → sees (replay apply x earlier) r := by
  constructor
  · rintro h later r earlier rfl
    exact (seesReplay_append.mp h).2.1
  · intro h
    induction l with
    | nil => trivial
    | cons r l ih =>
      exact ⟨h [] r l rfl, ih fun later s earlier hl => h (r :: later) s earlier (congrArg (r :: ·) hl)⟩

/-- A step changes the part by what it records. -/
def Records (apply : τ → κ → τ) (sees : τ → κ → Prop) (part part' : τ) (l : List κ) : Prop :=
  part' = replay apply part l ∧ SeesReplay apply sees part l

theorem Records.refl (part : τ) : Records apply sees part part [] := ⟨rfl, trivial⟩

theorem Records.single {part : τ} {r : κ} (h : sees part r) :
    Records apply sees part (apply part r) [r] := ⟨rfl, h, trivial⟩

/-- The part is what the records of the run make of it. -/
theorem records_replayed (step : σ → ι → σ) (log : σ → ι → List κ) (part : σ → τ) {C : σ → ι → Prop}
    {I : σ → Prop} (hI : ∀ s i, I s → C s i → I (step s i))
    (hstep : ∀ s i, I s → C s i → Records apply sees (part s) (part (step s i)) (log s i))
    {s : σ} {is : List ι} (hs : I s) (hc : Along step C s is) :
    Records apply sees (part s) (part (run step s is)) (records step log s is) := by
  have h : I (run step s is) ∧
      Records apply sees (part s) (part (run step s is)) (records step log s is) := by
    refine records_invariant step log (C := C)
      (I := fun t l => I t ∧ Records apply sees (part s) (part t) l) ?_ ⟨hs, .refl _⟩ hc
    rintro t l i ⟨ht, hpart, hsees⟩ hi
    obtain ⟨hnext, hnew⟩ := hstep t i ht hi
    rw [hpart] at hnext hnew
    exact ⟨hI t i ht hi, hnext.trans (replay_append _ _).symm, seesReplay_append.mpr ⟨hnew, hsees⟩⟩
  exact h.2

end Relational
