import CrisisMosaic.AnalysisResults

/-!
# Fresh briefs are of the present data revision

A brief that is answered and not stale was made from the data revision its incident
has, as long as no worker that loaded a stale brief answers it, outdated, after it was
queued again: the worker then leaves the brief unmarked, because the row it loaded
says that it is stale.
-/

namespace CrisisMosaic
open Relational

/-- An outdated brief that the worker loaded as stale is still stored so when it is answered. -/
def KeepsBriefs (s : AnalysisState) : AnalysisTurn → Prop
  | .complete _ _ _ => ∀ job id l, s.worker = .running job id l → l.analysisType = .commandBrief →
    ∀ i, s.feed.incidents.get l.incidentId = some i → i.dataRevision ≠ l.inputVersion →
    ∀ a, s.feed.analyses.get id = some a → l.isStale = true → a.isStale = true
  | _ => True

section Steps
variable {env : Env} {settings : AnalysisSettings} {s t : AnalysisState} {x : AnalysisTurn}

/-- The row of one analysis is written, and it is not a fresh brief of another revision. -/
theorem briefsCurrent_write {id : Id} {f : AiAnalysis → AiAnalysis} (hs : s.feed.BriefsCurrent)
    (hf : ∀ a, s.feed.analyses.get id = some a → (f a).isFreshBrief = true →
      ∀ i, s.feed.incidents.get (f a).incidentId = some i → (f a).inputVersion = i.dataRevision) :
    (s.writeAnalysis id f).feed.BriefsCurrent := by
  intro k b hb hfresh i hi
  rcases Table.get_modify_cases hb with ⟨rfl, a, ha, rfl⟩ | ⟨-, hold⟩
  · exact hf a ha hfresh i hi
  · exact hs k b hold hfresh i hi

theorem briefsCurrent_enqueue (env : Env) {a : AiAnalysis} (hs : s.feed.BriefsCurrent)
    (ha : a.status = .queued) : (s.enqueue env a).feed.BriefsCurrent := by
  intro k b hb hfresh i hi
  rcases Table.get_insert_cases hb with ⟨-, rfl⟩ | hold
  · simp [AiAnalysis.isFreshBrief, ha] at hfresh
  · exact hs k b hold hfresh i hi

theorem briefsCurrent_emit (hs : s.feed.BriefsCurrent) (loaded : Table Incident) (incidentId : Id)
    (e : Event) : (s.emit loaded incidentId e).feed.BriefsCurrent :=
  Feed.transact_briefsCurrent hs _ _ _

theorem briefsCurrent_markStale (hs : s.feed.BriefsCurrent) (staled : List (Id × Id × String)) :
    (s.markStale staled).feed.BriefsCurrent := by
  have hincidents : (s.markStale staled).feed.incidents = s.feed.incidents := by
    unfold AnalysisState.markStale
    dsimp only
    generalize s.feed = feed
    induction staled generalizing feed with
    | nil => rfl
    | cons x staled ih => exact ih _
  intro k b hb hfresh i hi
  obtain ⟨a, ha, hab⟩ := (markStale_stales s staled).left_of_some hb
  have hafresh : a.isFreshBrief = true := by
    simp only [AiAnalysis.isFreshBrief, Bool.and_eq_true, decide_eq_true_eq, Bool.not_eq_true'] at hfresh ⊢
    have htype : b.analysisType = a.analysisType := congrArg Prod.fst hab.request
    refine ⟨⟨htype ▸ hfresh.1.1, hab.status ▸ hfresh.1.2⟩, ?_⟩
    by_contra hstale
    rw [hab.2 (by simpa using hstale)] at hfresh
    cases hfresh.2
  rw [hincidents] at hi
  have hrequest := Prod.mk.inj (congrArg Prod.snd hab.request)
  have hincident : b.incidentId = a.incidentId := hrequest.1
  have hversion : b.inputVersion = a.inputVersion := hrequest.2
  rw [hversion]
  exact hs k a ha hafresh i (hincident ▸ hi)

/-- A mark is written only by a session that did not load one. -/
theorem written_or : ∀ loaded noticed stored : Bool,
    written loaded (loaded || noticed) stored = if loaded then stored else stored || noticed := by
  decide

theorem isStale_answered (now : Time) (l a : AiAnalysis) (output : Dict) (confidence : ℚ)
    (reason : Option String) : (l.save (l.answered now output confidence reason) a).isStale =
      if l.isStale then a.isStale else a.isStale || reason.isSome :=
  written_or l.isStale reason.isSome a.isStale

theorem isFreshBrief_answered {now : Time} {l a : AiAnalysis} {output : Dict} {confidence : ℚ}
    {reason : Option String} (hl : l.status = .running) :
    (l.save (l.answered now output confidence reason) a).isFreshBrief = true ↔
      a.analysisType = .commandBrief ∧
        (l.save (l.answered now output confidence reason) a).isStale = false := by
  have hstatus : (l.save (l.answered now output confidence reason) a).status = .succeeded :=
    written_of_ne (hl ▸ nofun) a.status
  simp only [AiAnalysis.isFreshBrief, Bool.and_eq_true, decide_eq_true_eq, Bool.not_eq_true']
  exact ⟨fun h => ⟨h.1.1, h.2⟩, fun h => ⟨⟨h.1, hstatus⟩, h.2⟩⟩

/-- An answer to a brief leaves the fresh briefs current when the brief is of the present
revision, or when it is stored as stale although the worker loaded it so. -/
theorem briefsCurrent_complete_iff {job id : Id} {l : AiAnalysis} {output : Dict} {confidence : ℚ}
    {target : Option (Id × ConflictCase)} (hs : s.feed.BriefsCurrent)
    (hworker : s.worker = .running job id l) (hholds : s.worker.Holds s.feed.analyses) :
    (completeAsync s job id l output confidence target).feed.BriefsCurrent ↔
      (l.analysisType = .commandBrief →
        ∀ i, s.feed.incidents.get l.incidentId = some i → i.dataRevision ≠ l.inputVersion →
        ∀ a, s.feed.analyses.get id = some a → l.isStale = true → a.isStale = true) := by
  rw [hworker] at hholds
  obtain ⟨a, ha, hrequest, -, hrunning⟩ := hholds
  have htype : a.analysisType = l.analysisType := congrArg Prod.fst hrequest
  have hincident : a.incidentId = l.incidentId := (Prod.mk.inj (congrArg Prod.snd hrequest)).1
  have hversion : a.inputVersion = l.inputVersion := (Prod.mk.inj (congrArg Prod.snd hrequest)).2
  unfold completeAsync
  cases hi : s.feed.incidents.get l.incidentId with
  | none => exact iff_of_true hs fun _ i h => nomatch h
  | some i =>
    dsimp only
    generalize hreason : staleReason l i target = reason
    obtain ⟨b, hb⟩ : ∃ b, b = l.save (l.answered s.now output confidence reason) a := ⟨_, rfl⟩
    have hrow : (s.writeAnalysis id
        (l.save (l.answered s.now output confidence reason))).feed.analyses.get id = some b :=
      (Table.get_modify_self _ _ _).trans (by rw [ha, hb, Option.map_some])
    constructor
    · intro hcurrent hbrief j hj houtdated a' ha' hstale
      obtain rfl := Option.some.inj hj
      obtain rfl := Option.some.inj (ha.symm.trans ha')
      by_contra hkept
      -- the row is fresh after the answer, and the event changes neither it nor the revision
      have hevent : (answeredEvent id (l.answered s.now output confidence reason)
          target).resourceType = .aiAnalysis := by
        simp [answeredEvent, AiAnalysis.answered, hbrief, briefEvent]
      have hfresh : b.isFreshBrief = true := by
        rw [hb, isFreshBrief_answered hrunning, isStale_answered, if_pos hstale]
        exact ⟨htype.trans hbrief, by simpa using hkept⟩
      obtain ⟨k, hk, hrevision⟩ := Feed.transact_aiAnalysis_revision
        (s.writeAnalysis id (l.save (l.answered s.now output confidence reason))).feed s.now
        l.incidentId hevent hi
      have hstored := (congrArg (Table.get · id) (Feed.transact_aiAnalysis_analyses
        (s.writeAnalysis id (l.save (l.answered s.now output confidence reason))).feed s.now
        s.feed.incidents l.incidentId hevent)).trans hrow
      have hpresent := hcurrent id b hstored hfresh k (by rw [hb]; exact hincident ▸ hk)
      rw [hb] at hpresent
      exact houtdated (hrevision.symm.trans (hpresent.symm.trans hversion))
    · intro hcond
      refine Feed.transact_briefsCurrent (briefsCurrent_write hs ?_) _ _ _
      intro a' ha' hfresh j hj
      obtain rfl := Option.some.inj (ha.symm.trans ha')
      obtain rfl : i = j := Option.some.inj ((hincident ▸ hi).symm.trans hj)
      obtain ⟨hbrief, hunmarked⟩ := (isFreshBrief_answered hrunning).mp hfresh
      refine hversion.trans ?_
      by_contra hne
      have hsome : reason.isSome = true := by
        rw [← hreason]
        simp [staleReason, htype ▸ hbrief, Ne.symm hne]
      rw [isStale_answered, hsome, Bool.or_true] at hunmarked
      split_ifs at hunmarked with hstale
      exact Bool.false_ne_true
        (hunmarked.symm.trans (hcond (htype ▸ hbrief) i rfl (Ne.symm hne) a ha hstale))

theorem briefsCurrent_fail (hs : s.feed.BriefsCurrent) (job id : Id) (error : ApiError)
    (target : Option (Id × ConflictCase)) :
    (failAsync s job id error target).feed.BriefsCurrent := by
  have hwrite : (s.writeAnalysis id fun a => a.failed s.now error).feed.BriefsCurrent := by
    refine briefsCurrent_write hs fun a _ hfresh => ?_
    simp [AiAnalysis.isFreshBrief, AiAnalysis.failed] at hfresh
  unfold failAsync
  dsimp only
  split
  · exact hs
  · split
    · exact hwrite
    · exact briefsCurrent_emit hwrite _ _ _

/-- **A step leaves the fresh briefs current** exactly when it meets the condition. -/
theorem analysisStep_briefsCurrent_iff (hs : s.feed.BriefsCurrent)
    (hholds : s.worker.Holds s.feed.analyses) :
    (analysisStep env settings s x).feed.BriefsCurrent ↔ KeepsBriefs s x := by
  cases x with
  | complete output confidence target =>
    simp only [analysisStep]
    cases hworker : s.worker with
    | running job id l =>
      rw [briefsCurrent_complete_iff hs hworker hholds]
      constructor
      · intro h job' id' l' hrunning
        obtain ⟨rfl, rfl, rfl⟩ := AnalysisWorker.running.inj (hworker.symm.trans hrunning)
        exact h
      · exact fun h => h job id l hworker
    | _ => exact iff_of_true hs fun _ _ _ hrunning => by cases hworker.symm.trans hrunning
  | tick elapsed => exact iff_of_true hs trivial
  | commit loaded staled events =>
    exact iff_of_true (Feed.transact_briefsCurrent (briefsCurrent_markStale hs staled) _ _ _) trivial
  | requestBrief actor header incidentId snapshot =>
    refine iff_of_true ?_ trivial
    simp only [analysisStep]
    cases ht : enqueueCommandBrief env settings s actor header incidentId snapshot with
    | error e => exact hs
    | ok t =>
      obtain ⟨incident, -, rfl⟩ := enqueueCommandBrief_ok ht
      exact briefsCurrent_enqueue env hs rfl
  | requestAnalysis actor id y context allowed loaded =>
    refine iff_of_true ?_ trivial
    simp only [analysisStep, enqueueCaseAnalysis]
    split
    · exact briefsCurrent_emit hs _ _ _
    · exact briefsCurrent_emit (briefsCurrent_enqueue env hs rfl) _ _ _
  | retry actor header id =>
    refine iff_of_true ?_ trivial
    simp only [analysisStep]
    cases ht : retryQueued env s actor header id with
    | error e => exact hs
    | ok t =>
      obtain ⟨a, -, -, rfl⟩ := retryQueued_ok ht
      refine briefsCurrent_write hs fun a _ hfresh => ?_
      simp [AiAnalysis.isFreshBrief, AiAnalysis.requeued] at hfresh
  | claim =>
    refine iff_of_true ?_ trivial
    simp only [analysisStep]
    split <;> exact hs
  | load =>
    refine iff_of_true ?_ trivial
    simp only [analysisStep]
    split <;> exact hs
  | start =>
    refine iff_of_true ?_ trivial
    simp only [analysisStep]
    split
    · rename_i job id l hworker
      rw [hworker] at hholds
      obtain ⟨a, ha, -, hstatus⟩ := hholds
      refine briefsCurrent_write hs fun a' ha' hfresh => ?_
      obtain rfl := Option.some.inj (ha.symm.trans ha')
      simp [AiAnalysis.isFreshBrief, AiAnalysis.status_started hstatus] at hfresh
    · exact hs
  | fail error target =>
    refine iff_of_true ?_ trivial
    simp only [analysisStep]
    split
    · exact briefsCurrent_fail hs _ _ _ _
    · exact hs
  | abort error =>
    refine iff_of_true ?_ trivial
    simp only [analysisStep]
    split <;> exact hs
  | finish =>
    refine iff_of_true ?_ trivial
    simp only [analysisStep]
    split <;> exact hs
  | restart => exact iff_of_true hs trivial

end Steps

/-- **Fresh briefs are of the present data revision** along a run, exactly when every step of
the run meets the condition. -/
theorem fresh_briefs_are_current_iff (env : Env) (settings : AnalysisSettings) (now : Time)
    (incidents : Table Incident) (steps : List AnalysisTurn) :
    Along (analysisStep env settings)
        (fun s x => (analysisStep env settings s x).feed.BriefsCurrent) (.initial now incidents) steps ↔
      Along (analysisStep env settings) KeepsBriefs (.initial now incidents) steps :=
  along_congr (analysisStep env settings)
    (I := fun s => s.feed.BriefsCurrent ∧ s.worker.Holds s.feed.analyses)
    (fun _ _ hs => analysisStep_briefsCurrent_iff hs.1 hs.2)
    (fun _ _ hs h => ⟨h, analysisStep_holds hs.2⟩)
    ⟨fun _ _ h => (nomatch h), trivial⟩

namespace Sample

def reportEvent : Event :=
  { eventType := "report.created"
    resourceType := .report
    resourceId := some 0
    resourceRevision := some 1
    payload := [] }

/-- The brief is answered, a report changes the data, and the job that is left fails on the
brief; an operator then retries it while its next attempt has loaded it, stale. -/
def unmarkedBrief : List AnalysisTurn :=
  answeredBrief ++
  [.commit ⟨[{ incident with eventSequence := 2 }]⟩ [] [(0, reportEvent)], .tick 1000000] ++
  execution ++
  [.fail modelTimeout none, .finish, .tick 5000000, .claim, .load, .retry admin none 0, .start,
    .complete [] 1 none]

end Sample

/-- The outdated answer to the brief is not marked. -/
theorem outdated_brief_is_not_marked :
    ¬ (Sample.analyses Sample.unmarkedBrief).feed.BriefsCurrent := by
  intro h
  obtain ⟨a, ha, hfresh⟩ := (Option.any_eq_true _ _).mp (show
    ((Sample.analyses Sample.unmarkedBrief).feed.analyses.get 0).any
      (fun a => a.isFreshBrief && a.incidentId = 0 && a.inputVersion = 0) = true by decide +kernel)
  obtain ⟨i, hi, hrevision⟩ := (Option.any_eq_true _ _).mp (show
    ((Sample.analyses Sample.unmarkedBrief).feed.incidents.get 0).any
      (fun i => i.dataRevision = 1) = true by decide +kernel)
  simp only [Bool.and_eq_true, decide_eq_true_eq] at hfresh hrevision
  have hcurrent := h 0 a ha hfresh.1.1 i (hfresh.1.2 ▸ hi)
  omega

end CrisisMosaic
