import CrisisMosaic.ReportStages
import CrisisMosaic.Settlement

/-!
# How observed reports settle cases

The exact course of processing and deactivating a report: its fragment is written,
its old evidence is taken out, a contradiction is detected on that store, and the
cases that lost evidence or were detected are reconciled.
-/

namespace CrisisMosaic
open Relational

/-- The fragment is written and, if it was rewritten, its old evidence is out. -/
structure Begun (db : Db) (u : FragmentUpsert) (s : Store) : Prop where
  cases : s.cases = db.cases
  fragments : s.fragments = u.fragments
  evidence : s.evidence = u.gone.elim db.evidence (invalidateFragmentEvidence db.evidence)

/-- The stored case loses current evidence when the fragment is rewritten or withdrawn. -/
def LosesEvidence (db : Db) (gone : Option Id) (c : Id) : Prop :=
  ∃ k, gone = some k ∧ CitesNow db.evidence c k ∧ (db.cases.get c).isSome = true

theorem mem_lostEvidence {db : Db} {gone : Option Id} {c : Id} :
    c ∈ (lostEvidence db.toStore gone).map (·.conflictId) ↔ LosesEvidence db gone c := by
  cases gone with
  | none => simp [lostEvidence, LosesEvidence]
  | some k =>
    have hlost : lostEvidence db.toStore (some k) = withdrawals db.cases db.evidence k := rfl
    rw [hlost, List.mem_map]
    constructor
    · rintro ⟨w, hw, rfl⟩
      obtain ⟨x, hx, -, hne, hids⟩ := mem_withdrawals.mp hw
      obtain ⟨i, hi⟩ := List.exists_mem_of_ne_nil _ hne
      rw [hids, List.mem_filter, Table.mem_select] at hi
      obtain ⟨⟨e, he, hf⟩, hc⟩ := hi
      obtain ⟨hk, hs, hcur⟩ := isFragmentEvidence_iff.mp hf
      have hc : e.conflictId = w.conflictId := by simpa [he] using hc
      exact ⟨k, rfl, ⟨i, e, he, ConflictEvidence.cites_iff.mpr ⟨hc, hk, hs⟩, hcur⟩, by rw [hx]; rfl⟩
    · rintro ⟨l, hl, ⟨i, e, he, hc, hcur⟩, hsome⟩
      obtain rfl : k = l := Option.some.inj hl
      obtain ⟨x, hx⟩ := Option.isSome_iff_exists.mp hsome
      obtain ⟨hc, hk, hs⟩ := ConflictEvidence.cites_iff.mp hc
      obtain ⟨w, hw, hwc, -⟩ := withdrawn_listed he (isFragmentEvidence_iff.mpr ⟨hk, hs, hcur⟩) hc hx
      exact ⟨w, hw, hwc⟩

/-- What processing a report left of cases, fragments and evidence. -/
inductive ObservationCourse (env : Env) (now : Time) (db : Db) (u : FragmentUpsert) (t : Store) :
    Option Detection → Prop
  | unchanged : u.changed = false → Begun db u t → ObservationCourse env now db u t none
  | undisputed {s : Store} {ids : List Id} : u.changed = true → Begun db u s →
      detectedCall env u.fragments u.id u.fragment = none →
      (∀ c, c ∈ ids ↔ LosesEvidence db u.gone c) → Reconciled env ids s t →
      ObservationCourse env now db u t none
  | disputed {s m : Store} {ids : List Id} {d : Detection} {call : ConflictCall} {sources : Sources} :
      u.changed = true → Begun db u s → detectedCall env u.fragments u.id u.fragment = some call →
      Called env now sources s m call d.conflictId →
      (∀ c, c ∈ ids ↔ LosesEvidence db u.gone c ∨ c = d.conflictId) → Reconciled env ids m t →
      ObservationCourse env now db u t (some d)

section Course
variable {env : Env} {now : Time} {db db' : Db} {reportId : Id} {report : Report}

theorem Reconciled.after {ids : List Id} {s m t : Store} (h : Reconciled env ids m t)
    (q : s.Untouched m) : Reconciled env ids s t where
  evidence := h.evidence.trans q.evidence
  others := fun c hc => (h.others c hc).trans (congrArg (·.get c) q.cases)
  settled := by
    intro c hc x hx
    obtain ⟨y, hy, hs⟩ := h.settled c hc x (by rw [q.cases, hx])
    exact ⟨y, hy, q.evidence ▸ hs⟩
  fragments := q.fragments ▸ h.fragments

theorem Reconciled.before {ids : List Id} {s t u : Store} (h : Reconciled env ids s t)
    (q : t.Untouched u) : Reconciled env ids s u where
  evidence := q.evidence.trans h.evidence
  others := fun c hc => (congrArg (·.get c) q.cases).trans (h.others c hc)
  settled := by
    intro c hc x hx
    obtain ⟨y, hy, hs⟩ := h.settled c hc x hx
    exact ⟨y, by rw [q.cases, hy], hs⟩
  fragments := q.fragments ▸ h.fragments

theorem processReportObservation_course {detection : Option Detection}
    (h : processReportObservation env now db reportId report = .ok (db', detection)) :
    ObservationCourse env now db (upsertReportFragment env now db.fragments reportId report)
      db'.toStore detection := by
  rw [processReportObservation_eq] at h
  dsimp only at h
  generalize upsertReportFragment env now db.fragments reportId report = u at *
  have hq := beforeDetection_quiet env now db report.incidentId u
  generalize beforeDetection env now db report.incidentId u = db₁ at *
  have hbegun : Begun db u db₁.toStore := ⟨hq.cases, hq.fragments, hq.evidence⟩
  cases hchanged : u.changed with
  | false =>
    simp only [hchanged, Bool.not_false, if_true, pure_ok, Prod.mk.injEq] at h
    obtain ⟨rfl, rfl⟩ := h
    exact .unchanged hchanged hbegun
  | true =>
    simp only [hchanged, Bool.not_true, Bool.false_eq_true, if_false, bind_ok, pure_ok,
      Prod.mk.injEq] at h
    obtain ⟨det, hdet, rfl, rfl⟩ := h
    have hlast := withSpotBoard_quiet { db₁ with
      toStore := settleObservation env now db₁.toStore report.incidentId u.id u.created
        (lostEvidence db.toStore u.gone) det } (resolveAutomaticBlindSpots_draws env now
          report.incidentId u.id u.fragment det.isSome _).quiet
    have hpublish := fun s => publishFragment_quiet env now s report.incidentId u.id
      (if u.created then "fragment.created" else "fragment.updated")
    cases det with
    | none =>
      have hcall : detectedCall env u.fragments u.id u.fragment = none := by
        unfold detectStructuredFragmentConflict at hdet
        rw [hbegun.fragments] at hdet
        split at hdet
        · next hc => exact hc
        · exact absurd hdet (by simp)
      refine .undisputed hchanged hbegun hcall (fun c => mem_lostEvidence) (Reconciled.before ?_ hlast.untouched)
      exact (reconcileConflicts_exact now report.incidentId _ _ _).after (hpublish _).untouched
    | some d =>
      obtain ⟨call, hcall, hd⟩ := detect_ok hdet
      rw [hbegun.fragments] at hcall
      have hids : ∀ c, c ∈ (lostEvidence db.toStore u.gone).map (·.conflictId) ++ [d.conflictId] ↔
          LosesEvidence db u.gone c ∨ c = d.conflictId := fun c => by
        rw [List.mem_append, mem_lostEvidence, List.mem_singleton]
      refine .disputed hchanged hbegun hcall (findOrOpen_exact (callFindOrOpen_ok hd).2.2) hids
        (Reconciled.before ?_ hlast.untouched)
      exact (reconcileConflicts_exact now report.incidentId _ _ _).after
        ((hpublish _).trans
          (publishDetected_quiet env now _ report.incidentId d.conflictId d.opened _)).untouched

/-- What deactivating a report left of cases, fragments and evidence, when it had the fragment
`found`. -/
inductive DeactivationCourse (env : Env) (now : Time) (db : Db) (t : Store) :
    Option (Id × InformationFragment) → Prop
  | absent : db.toStore.Untouched t → DeactivationCourse env now db t none
  | withdrawn {k : Id} {f : InformationFragment} {s : Store} {ids : List Id} :
      db.fragments.get k = some f → s.cases = db.cases →
      s.fragments = db.fragments.modify k (fun _ => withdrawFragment now f) →
      s.evidence = invalidateFragmentEvidence db.evidence k →
      (∀ c, c ∈ ids ↔ LosesEvidence db (some k) c) → Reconciled env ids s t →
      DeactivationCourse env now db t (some (k, f))

theorem deactivateReportObservation_course (db : Db) (reportId : Id) (report : Report)
    (reason : String) : DeactivationCourse env now db
      (deactivateReportObservation env now db reportId report reason).toStore
      (db.fragments.find (isReportFragment report.incidentId reportId)) := by
  unfold deactivateReportObservation
  dsimp only
  cases hfind : db.fragments.find (isReportFragment report.incidentId reportId) with
  | none => exact .absent ⟨rfl, rfl, rfl⟩
  | some r =>
    obtain ⟨k, f⟩ := r
    have hq := deactivateSpots_quiet env now (withdrawnStore env now db k f) report.incidentId k
      (withdrawFragment now f) reason
    exact .withdrawn (Table.find_some hfind).1 hq.cases hq.fragments hq.evidence
      (fun c => mem_lostEvidence)
      ((reconcileConflicts_exact now report.incidentId (lostEvidence db.toStore (some k)) _ _).before
        (Store.emit_quiet _ now report.incidentId _).untouched)

section Around
variable {m : Db} {t v : Store} {u : FragmentUpsert} {detection : Option Detection}
  {found : Option (Id × InformationFragment)}

theorem LosesEvidence.after (q : db.toStore.Untouched m.toStore) {gone : Option Id} {c : Id} :
    LosesEvidence m gone c ↔ LosesEvidence db gone c := by
  have hcases : m.cases = db.cases := q.cases
  have hevidence : m.evidence = db.evidence := q.evidence
  rw [LosesEvidence, hcases, hevidence, LosesEvidence]

theorem Begun.after {s : Store} (h : Begun m u s) (q : db.toStore.Untouched m.toStore) :
    Begun db u s where
  cases := h.cases.trans q.cases
  fragments := h.fragments
  evidence := by
    have hevidence : m.evidence = db.evidence := q.evidence
    rw [h.evidence, hevidence]

theorem ObservationCourse.after (h : ObservationCourse env now m u t detection)
    (q : db.toStore.Untouched m.toStore) : ObservationCourse env now db u t detection := by
  cases h with
  | unchanged hc hb => exact .unchanged hc (hb.after q)
  | undisputed hc hb hcall hids hr =>
    exact .undisputed hc (hb.after q) hcall (fun c => (hids c).trans (LosesEvidence.after q)) hr
  | disputed hc hb hcall hd hids hr =>
    exact .disputed hc (hb.after q) hcall hd
      (fun c => (hids c).trans (or_congr_left (LosesEvidence.after q))) hr

theorem ObservationCourse.before (h : ObservationCourse env now db u t detection)
    (q : t.Untouched v) : ObservationCourse env now db u v detection := by
  cases h with
  | unchanged hc hb =>
    exact .unchanged hc ⟨q.cases.trans hb.cases, q.fragments.trans hb.fragments,
      q.evidence.trans hb.evidence⟩
  | undisputed hc hb hcall hids hr => exact .undisputed hc hb hcall hids (hr.before q)
  | disputed hc hb hcall hd hids hr => exact .disputed hc hb hcall hd hids (hr.before q)

theorem DeactivationCourse.after (h : DeactivationCourse env now m t found)
    (q : db.toStore.Untouched m.toStore) : DeactivationCourse env now db t found := by
  have hfragments : m.fragments = db.fragments := q.fragments
  have hevidence : m.evidence = db.evidence := q.evidence
  cases h with
  | absent k => exact .absent (q.trans k)
  | withdrawn hf hc hfr he hids hr =>
    rw [hfragments] at hf hfr
    rw [hevidence] at he
    exact .withdrawn hf (hc.trans q.cases) hfr he
      (fun c => (hids c).trans (LosesEvidence.after q)) hr

theorem DeactivationCourse.before (h : DeactivationCourse env now db t found)
    (q : t.Untouched v) : DeactivationCourse env now db v found := by
  cases h with
  | absent k => exact .absent (k.trans q)
  | withdrawn hf hc hfr he hids hr => exact .withdrawn hf hc hfr he hids (hr.before q)

end Around

end Course
section Operations
variable {env : Env} {db : Db} {op : Op} {o : Outcome}

/-- What an accepted report operation left of cases, fragments and evidence. -/
inductive ReportCourse (env : Env) (db : Db) (op : Op) (o : Outcome) : Prop
  | observed {u : FragmentUpsert} : op.upsert env db = some u →
      ObservationCourse env op.now db u o.db.toStore o.detection → ReportCourse env db op o
  | deactivated : op.deactivates = true →
      DeactivationCourse env op.now db o.db.toStore (op.dropped env db) → o.detection = none →
      ReportCourse env db op o
  | untouched : op.observes db = false → db.toStore.Untouched o.db.toStore → o.detection = none →
      ReportCourse env db op o

/-- The stages of a report operation determine its course. -/
theorem ReportStages.course (h : ReportStages env db op o) : ReportCourse env db op o := by
  cases h with
  | @observed id r m t hr hobserves hs _ hp hsame =>
    have hcourse := ((processReportObservation_course hp).after hs.store).before hsame.store
    have hfragments : m.fragments = db.fragments := hs.store.fragments
    rw [hfragments] at hcourse
    refine .observed ?_ hcourse
    rw [Op.upsert, if_pos hobserves, hr, Option.map_some]
  | @deactivated id r m reason hr hdeactivates hs _ hsame hnone =>
    have hcourse := ((deactivateReportObservation_course m id r reason).after hs.store).before hsame.store
    have hfragments : m.fragments = db.fragments := hs.store.fragments
    rw [hfragments] at hcourse
    refine .deactivated hdeactivates ?_ hnone
    rw [Op.dropped, if_pos hdeactivates, hr, Option.bind_some]
    exact hcourse
  | edited hobserves _ hs _ _ hsame hnone =>
    exact .untouched hobserves (hs.store.trans hsame.store) hnone
  | detected hcall hr hnone =>
    exact .untouched (by simp [Op.observes, hcall]) (runBlindSpotJob_untouched hr) hnone
  | untouched hobserves _ hsame hnone => exact .untouched hobserves hsame.store hnone

theorem handle_course (h : handle env db op = .ok o) (hop : op.call.isReportOperation = true) :
    ReportCourse env db op o := (handle_stages h hop).course

end Operations
end CrisisMosaic
