import CrisisMosaic.RouteSteps

/-!
# What analyses do

A requested analysis, its answer and its failure write the status of a case and
nothing else a decision depends on. Only a request writes it whatever it was.
-/

namespace CrisisMosaic
open Relational Store

/-- Only the status of the case `id` and the projection change, apart from the feed. -/
structure Restated (b t : Store) (id : Id) (status : CaseStatus) : Prop where
  features : FactSilent b.features t.features
  cases : t.cases = b.cases.modify id fun x => { x with status := status }
  fragments : t.fragments = b.fragments
  evidence : t.evidence = b.evidence
  facts : t.facts = b.facts

theorem Restated.case {b t : Store} {id : Id} {status : CaseStatus} (h : Restated b t id status)
    {c : Id} {x : ConflictCase} (hx : b.cases.get c = some x) :
    t.cases.get c = some (if id = c then { x with status := status } else x) := by
  rw [h.cases, Table.get_modify, hx]
  split_ifs <;> rfl

/-- The case an analysis was requested for. -/
def AiAnalysis.target (a : AiAnalysis) : Option Id :=
  (a.inputSnapshot.get "conflict_id").bind Json.asRef

theorem AiAnalysis.case?_some {a : AiAnalysis} {cases : Table ConflictCase} {id : Id}
    {x : ConflictCase} (h : a.case? cases = some (id, x)) :
    a.target = some id ∧ cases.get id = some x := by
  simp only [AiAnalysis.case?, Option.bind_eq_some_iff, Option.map_eq_some_iff, Prod.mk.injEq] at h
  obtain ⟨c, hc, y, hy, rfl, rfl⟩ := h
  exact ⟨by simpa [AiAnalysis.target, Option.bind_eq_some_iff] using hc, hy⟩

/-- A worker's step: the answer is about the present case, or a case it was waited for is let go. -/
inductive AnalysisStep (b t : Store) : Prop
  | quiet : b.Quiet t → AnalysisStep b t
  | answered {i : Id} {a : AiAnalysis} {id : Id} {x : ConflictCase} :
      b.feed.analyses.get i = some a → a.analysisType = .conflictAnalysis → a.target = some id →
      b.cases.get id = some x → x.revision = a.inputVersion → Restated b t id .analysisReady →
      b.feed.AnalysesKept t.feed → AnalysisStep b t
  | released {id : Id} {x : ConflictCase} : b.cases.get id = some x → x.status = .analyzing →
      Restated b t id .opened → b.feed.AnalysesKept t.feed → AnalysisStep b t

section Worker
variable {env : Env} {now : Time} {s t : Store} {id : Id} {a : AiAnalysis}

theorem Restated.quiet {b : Store} {status : CaseStatus} (h : Restated b s id status)
    (k : s.Quiet t) : Restated b t id status :=
  ⟨h.features.trans k.features, k.cases.trans h.cases, k.fragments.trans h.fragments,
    k.evidence.trans h.evidence, k.facts.trans h.facts⟩

theorem restated_after {b : Store} {status : CaseStatus} (k : b.Quiet s) (h : Restated s t id status) :
    Restated b t id status :=
  ⟨k.features.trans h.features, k.cases ▸ h.cases, h.fragments.trans k.fragments,
    h.evidence.trans k.evidence, h.facts.trans k.facts⟩

/-- Rewriting an analysis keeps what it was requested for. -/
theorem writeAnalysis_quiet (s : Store) {id : Id} {a b : AiAnalysis}
    (ha : s.feed.analyses.get id = some a) (ht : b.analysisType = a.analysisType)
    (hs : b.inputSnapshot = a.inputSnapshot) (hv : b.inputVersion = a.inputVersion) :
    s.Quiet (s.writeAnalysis id b) where
  features := .refl _
  analyses := by
    intro i y hy hty
    rcases Table.get_modify_cases hy with ⟨rfl, z, hz, rfl⟩ | ⟨-, hy⟩
    · obtain rfl : a = z := Option.some.inj (ha.symm.trans hz)
      exact ⟨a, ha, ht ▸ hty, hs.symm, hv.symm⟩
    · exact ⟨y, hy, hty, rfl, rfl⟩
  fragments := rfl
  cases := rfl
  evidence := rfl
  facts := rfl

theorem getAnalysis_ok {feed : Feed} (h : getAnalysis feed id = .ok a) :
    feed.analyses.get id = some a ∧ a.analysisType = .conflictAnalysis := by
  simp only [getAnalysis, bind_ok, found_ok, require_ok, pure_ok] at h
  obtain ⟨b, hb, -, ht, rfl⟩ := h
  exact ⟨hb, ht⟩

theorem retarget_restated (env : Env) (now : Time) (s : Store) (id : Id) (x : ConflictCase)
    (status : CaseStatus) :
    Restated s (retarget env now s (some (id, x)) status) id status ∧
      s.feed.AnalysesKept (retarget env now s (some (id, x)) status).feed :=
  ⟨⟨upsertConflictMapFeature_factSilent env now _ _ _ _ _, rfl, rfl, rfl, rfl⟩, .refl _⟩

/-- Releasing a case after the analysis was written. -/
theorem releaseCase_step (env : Env) (now : Time) {b : Store} (k : b.Quiet s) (a : AiAnalysis)
    (incidentId : Id) (e : Event) :
    AnalysisStep b ((releaseCase env now s (a.case? b.cases)).emit now incidentId e) := by
  unfold releaseCase
  by_cases hwait : (a.case? b.cases).any (fun t => t.2.status = .analyzing) = true
  · rw [if_pos hwait]
    obtain ⟨⟨id, x⟩, hx, hstatus⟩ := (Option.any_eq_true _ _).mp hwait
    rw [hx]
    obtain ⟨hr, hkept⟩ := retarget_restated env now s id x .opened
    have hemit := emit_quiet (retarget env now s (some (id, x)) .opened) now incidentId e
    exact .released (AiAnalysis.case?_some hx).2 (by simpa using hstatus)
      ((restated_after k hr).quiet hemit) ((k.analyses.trans hkept).trans hemit.analyses)
  · rw [if_neg hwait]
    exact .quiet (k.trans (emit_quiet s now incidentId e))

theorem completeAnalysis_spec {output : Dict} {confidence : ℚ} {seenStale : Bool}
    (h : completeAnalysis env now s id output confidence seenStale = .ok t) : AnalysisStep s t := by
  simp only [completeAnalysis, bind_ok, pure_ok] at h
  obtain ⟨a, ha, -, -, rfl⟩ := h
  obtain ⟨hget, htype⟩ := getAnalysis_ok ha
  have hwrite := writeAnalysis_quiet s (b := completedAnalysis now a output confidence seenStale
    (isOutdated a (a.case? s.cases))) hget rfl rfl rfl
  by_cases hstale : (seenStale || isOutdated a (a.case? s.cases)) = true
  · rw [if_pos hstale]
    exact releaseCase_step env now hwrite a _ _
  · rw [if_neg hstale]
    simp only [Bool.or_eq_true, not_or, isOutdated, Bool.not_eq_true', Bool.not_eq_false] at hstale
    obtain ⟨⟨c, x⟩, hx, hrev⟩ := (Option.any_eq_true _ _).mp hstale.2
    obtain ⟨htarget, hcase⟩ := AiAnalysis.case?_some hx
    rw [hx] at hwrite ⊢
    obtain ⟨hr, hkept⟩ := retarget_restated env now (s.writeAnalysis id (completedAnalysis now a output
      confidence seenStale (isOutdated a (some (c, x))))) c x .analysisReady
    have hemit := fun e => emit_quiet (retarget env now (s.writeAnalysis id (completedAnalysis now a
      output confidence seenStale (isOutdated a (some (c, x))))) (some (c, x)) .analysisReady) now
      a.incidentId e
    exact .answered hget htype htarget hcase (by simpa using hrev)
      ((restated_after hwrite hr).quiet (hemit _)) ((hwrite.analyses.trans hkept).trans (hemit _).analyses)

theorem failAnalysis_spec {error : ApiError} (h : failAnalysis env now s id error = .ok t) :
    AnalysisStep s t := by
  simp only [failAnalysis, bind_ok] at h
  obtain ⟨a, ha, h⟩ := h
  obtain ⟨hget, -⟩ := getAnalysis_ok ha
  have hwrite := writeAnalysis_quiet s hget (b := { a with
    status := .failed
    errorCode := some error.code
    errorMessage := some error.message
    completedAt := some now }) rfl rfl rfl
  split_ifs at h
  · rw [pure_ok] at h
    exact h ▸ .quiet hwrite
  · rw [pure_ok] at h
    exact h ▸ releaseCase_step env now hwrite a _ _

theorem startAnalysis_spec (h : startAnalysis s id = .ok t) : s.Quiet t := by
  simp only [startAnalysis, bind_ok, pure_ok] at h
  obtain ⟨a, ha, rfl⟩ := h
  exact writeAnalysis_quiet s (getAnalysis_ok ha).1 rfl rfl rfl

theorem retryAnalysis_spec {db db' : Db} {actor : Actor} {header : Option Ref}
    (h : retryAnalysis env now db actor header id = .ok db') :
    db.toStore.Quiet db'.toStore ∧ db'.reports = db.reports := by
  simp only [retryAnalysis, bind_ok, pure_ok] at h
  obtain ⟨a, ha, -, -, -, -, -, -, -, -, rfl⟩ := h
  exact ⟨writeAnalysis_quiet db.toStore (getAnalysis_ok ha).1 rfl rfl rfl, rfl⟩

end Worker

section Request
variable {env : Env} {now : Time}

/-- A requested analysis: the case waits for it or has it already. -/
structure RequestStep (b t : Store) (id : Id) (x : ConflictCase) : Prop where
  case : b.cases.get id = some x
  status : ∃ status, (status = .analysisReady ∨ status = .analyzing) ∧ Restated b t id status
  analyses : ∀ i y, t.feed.analyses.get i = some y → y.analysisType = .conflictAnalysis →
    (∃ z, b.feed.analyses.get i = some z ∧ z.analysisType = .conflictAnalysis ∧
      z.inputSnapshot = y.inputSnapshot ∧ z.inputVersion = y.inputVersion) ∨
    y.target = some id ∧ y.inputVersion = x.revision

theorem enqueueConflictAnalysis_cases {attachments : Table Attachment} {s t : Store}
    {jobs jobs' : Table BackgroundJob} {id : Id} {x : ConflictCase} {actor : Actor} {revision : ℕ}
    {requested : List Id} {analysisId : Id} {ready : Bool}
    (h : enqueueConflictAnalysis env now attachments s jobs id x actor revision requested
      = .ok (t, jobs', analysisId, ready)) :
    t = setCaseStatus s id .analysisReady ∨ ∃ context hash allowed,
      t = (setCaseStatus s id .analyzing).addAnalysis (queuedAnalysis env now id x actor context hash allowed) := by
  simp only [enqueueConflictAnalysis, bind_ok, Prod.exists] at h
  obtain ⟨-, -, -, -, context, allowed, -, h⟩ := h
  split at h
  · simp only [pure_ok, Prod.mk.injEq] at h
    exact Or.inl h.1.symm
  · simp only [pure_ok, Prod.mk.injEq] at h
    exact Or.inr ⟨_, _, _, h.1.symm⟩

theorem requestAnalysis_spec {db db' : Db} {actor : Actor} {header incident : Option Ref}
    {conflictId : Ref} {revision : ℕ} {requested : List Id}
    (h : requestAnalysis env now db actor header conflictId incident revision requested = .ok db') :
    ∃ id x, getCase db.cases conflictId = .ok (id, x) ∧ RequestStep db.toStore db'.toStore id x ∧
      db'.reports = db.reports := by
  simp only [requestAnalysis, bind_ok, pure_ok, Prod.exists] at h
  obtain ⟨-, -, id, x, hx, -, -, -, -, s, jobs, analysisId, ready, hs, -, -, rfl⟩ := h
  have hcase : getCase db.cases conflictId = .ok (id, x) := by
    cases hc : getCase db.cases conflictId with
    | ok r => simpa [hc, Except.mapError] using hx
    | error e => simp [hc, Except.mapError] at hx
  refine ⟨id, x, hcase, ?_, rfl⟩
  have hend := fun y e => (projectCase_quiet env now s id y).trans (emit_quiet _ now x.incidentId e)
  have hset : ∀ status, Restated db.toStore (setCaseStatus db.toStore id status) id status :=
    fun _ => ⟨.refl _, rfl, rfl, rfl, rfl⟩
  have hadd : ∀ status a, Restated db.toStore ((setCaseStatus db.toStore id status).addAnalysis a) id
      status := fun _ _ => ⟨.refl _, rfl, rfl, rfl, rfl⟩
  rcases enqueueConflictAnalysis_cases hs with rfl | ⟨context, hash, allowed, rfl⟩
  · exact
      { case := getCase_some hcase
        status := ⟨.analysisReady, Or.inl rfl, (hset _).quiet (hend _ _)⟩
        analyses := fun i y hy ht => Or.inl ((hend _ _).analyses i y hy ht) }
  · exact
      { case := getCase_some hcase
        status := ⟨.analyzing, Or.inr rfl, (hadd _ _).quiet (hend _ _)⟩
        analyses := by
          intro i y hy ht
          obtain ⟨z, hz, hzt, hzs, hzv⟩ := (hend _ _).analyses i y hy ht
          rcases Table.get_insert_cases hz with ⟨-, rfl⟩ | hz
          · right
            constructor
            · rw [AiAnalysis.target, ← hzs]
              rfl
            · exact hzv.symm
          · exact Or.inl ⟨z, hz, hzt, hzs, hzv⟩ }

end Request
end CrisisMosaic
