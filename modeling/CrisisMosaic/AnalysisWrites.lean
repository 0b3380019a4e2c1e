import CrisisMosaic.AnalysisJobs

/-!
# What a step makes of an analysis

`Rewrites` lists what a step does to the row of an analysis, and `Rewritten` says that it
does nothing else to any row, but for marking it stale. The worker executes an analysis
as it has stored it: nobody else gives a running analysis another status.
-/

namespace CrisisMosaic
open Relational

def AnalysisTurn.executes : AnalysisTurn → Bool
  | .start | .complete .. | .fail .. => true
  | _ => false

/-- What a step makes of an analysis, before anything is marked stale. -/
inductive Rewrites (s : AnalysisState) : AnalysisTurn → Id → AiAnalysis → AiAnalysis → Prop
  | kept {x : AnalysisTurn} {k : Id} {a : AiAnalysis} : Rewrites s x k a a
  | started {job k : Id} {l a : AiAnalysis} : s.worker = .loaded job k l →
      Rewrites s .start k a (l.save l.started a)
  | answered {job k : Id} {l a : AiAnalysis} {output : Dict} {confidence : ℚ}
      {target : Option (Id × ConflictCase)} {incident : Incident} : s.worker = .running job k l →
      s.feed.incidents.get l.incidentId = some incident →
      Rewrites s (.complete output confidence target) k a
        (l.save (l.answered s.now output confidence (staleReason l incident target)) a)
  | failed {job k : Id} {l a : AiAnalysis} {error : ApiError} {target : Option (Id × ConflictCase)} :
      s.worker = .running job k l → Rewrites s (.fail error target) k a (a.failed s.now error)
  | requeued {actor : Actor} {header : Option Ref} {k : Id} {a : AiAnalysis} : a.status = .failed →
      Rewrites s (.retry actor header k) k a a.requeued

/-- The rows of `s` as the step leaves them; a row that is new is queued. -/
structure Rewritten (s : AnalysisState) (x : AnalysisTurn) (analyses : Table AiAnalysis) : Prop where
  rows : ∀ k a, s.feed.analyses.get k = some a →
    ∃ c b, Rewrites s x k a c ∧ c.Stales b ∧ analyses.get k = some b
  added : ∀ k b, analyses.get k = some b → s.feed.analyses.get k = none → b.status = .queued

section Rows
variable {env : Env} {settings : AnalysisSettings} {s t : AnalysisState} {x : AnalysisTurn}

theorem Rewritten.same : Rewritten s x s.feed.analyses := by
  refine ⟨fun k a ha => ⟨a, a, .kept, .refl a, ha⟩, fun k b hb hnone => ?_⟩
  exact absurd (hb.symm.trans hnone) (Option.some_ne_none b)

theorem Rewritten.stales {before after : Table AiAnalysis} (h : Rewritten s x before)
    (hafter : before.Related AiAnalysis.Stales after) : Rewritten s x after := by
  constructor
  · intro k a ha
    obtain ⟨c, b, hc, hcb, hb⟩ := h.rows k a ha
    obtain ⟨d, hd, hbd⟩ := hafter.right_of_some hb
    exact ⟨c, d, hc, hcb.trans hbd, hd⟩
  · intro k d hd hnone
    obtain ⟨b, hb, hbd⟩ := hafter.left_of_some hd
    rw [hbd.1]
    exact h.added k b hb hnone

theorem Rewritten.emit (h : Rewritten s x t.feed.analyses) (loaded : Table Incident)
    (incidentId : Id) (e : Event) :
    Rewritten s x (t.emit loaded incidentId e).feed.analyses :=
  h.stales (Feed.transact_stales t.feed t.now loaded [(incidentId, e)])

theorem Rewritten.writeAnalysis {id : Id} {f : AiAnalysis → AiAnalysis}
    (hf : ∀ a, s.feed.analyses.get id = some a → Rewrites s x id a (f a)) :
    Rewritten s x (s.writeAnalysis id f).feed.analyses := by
  constructor
  · intro k a ha
    by_cases hk : id = k
    · subst hk
      refine ⟨f a, f a, hf a ha, .refl _, ?_⟩
      simp [AnalysisState.writeAnalysis, ha]
    · refine ⟨a, a, .kept, .refl a, ?_⟩
      exact (Table.get_modify_of_ne _ f hk).trans ha
  · intro k b hb hnone
    have hrow := Table.get_modify_cases hb
    rcases hrow with ⟨-, a, ha, -⟩ | ⟨-, ha⟩
    · exact absurd (ha.symm.trans hnone) (Option.some_ne_none a)
    · exact absurd (ha.symm.trans hnone) (Option.some_ne_none b)

theorem Rewritten.enqueue (env : Env) {a : AiAnalysis} (ha : a.status = .queued) :
    Rewritten s x (s.enqueue env a).feed.analyses := by
  refine ⟨fun k b hb => ⟨b, b, .kept, .refl b, Table.get_insert_of_some a hb⟩, ?_⟩
  intro k b hb hnone
  rcases Table.get_insert_cases hb with ⟨-, rfl⟩ | hold
  · exact ha
  · exact absurd (hold.symm.trans hnone) (Option.some_ne_none b)

theorem markStale_stales (s : AnalysisState) (staled : List (Id × Id × String)) :
    s.feed.analyses.Related AiAnalysis.Stales (s.markStale staled).feed.analyses := by
  unfold AnalysisState.markStale
  dsimp only
  generalize s.feed = feed
  induction staled generalizing feed with
  | nil => exact Table.Related.refl .refl _
  | cons x staled ih =>
    exact (Feed.markAnalysesStale_stales feed _ _ _ _).trans (fun _ _ _ => .trans) (ih _)

theorem enqueueCommandBrief_ok {actor : Actor} {header : Option Ref} {incidentId : Id}
    {snapshot : Dict} (h : enqueueCommandBrief env settings s actor header incidentId snapshot = .ok t) :
    ∃ incident, s.feed.incidents.get incidentId = some incident ∧
      t = s.enqueue env (queuedBrief env settings s incidentId incident actor snapshot) := by
  simp only [enqueueCommandBrief, bind_ok, require_ok, found_ok, pure_ok] at h
  obtain ⟨-, -, -, -, incident, hincident, -, -, rfl⟩ := h
  exact ⟨incident, hincident, rfl⟩

theorem retryQueued_ok {actor : Actor} {header : Option Ref} {id : Id}
    (h : retryQueued env s actor header id = .ok t) :
    ∃ a, s.feed.analyses.get id = some a ∧ a.status = .failed ∧
      t = (s.writeAnalysis id .requeued).addJob env id := by
  simp only [retryQueued, bind_ok, require_ok, found_ok, pure_ok] at h
  obtain ⟨a, ha, -, -, -, -, -, -, -, hfailed, -, -, rfl⟩ := h
  exact ⟨a, ha, hfailed, rfl⟩

theorem enqueueCaseAnalysis_rewritten (env : Env) (s : AnalysisState) (actor : Actor) (id : Id)
    (y : ConflictCase) (context : Dict) (allowed : List Id) (loaded : Table Incident) :
    Rewritten s x (enqueueCaseAnalysis env s actor id y context allowed loaded).feed.analyses := by
  unfold enqueueCaseAnalysis
  dsimp only
  split
  · exact .emit (.same) _ _ _
  · exact .emit (.enqueue env rfl) _ _ _

/-- **What a step makes of the analyses.** -/
theorem analysisStep_rewritten (env : Env) (settings : AnalysisSettings) (s : AnalysisState)
    (x : AnalysisTurn) :
    Rewritten s x (analysisStep env settings s x).feed.analyses := by
  cases x with
  | tick elapsed => exact .same
  | commit loaded staled events =>
    have hmarked : Rewritten s (.commit loaded staled events)
        (s.markStale staled).feed.analyses := Rewritten.same.stales (markStale_stales s staled)
    exact hmarked.stales (Feed.transact_stales _ _ _ _)
  | requestBrief actor header incidentId snapshot =>
    refine commit_induction (P := fun t : AnalysisState => Rewritten s _ t.feed.analyses) .same ?_
    intro t ht
    obtain ⟨incident, -, rfl⟩ := enqueueCommandBrief_ok ht
    exact .enqueue env rfl
  | requestAnalysis actor id y context allowed loaded =>
    exact enqueueCaseAnalysis_rewritten env s actor id y context allowed loaded
  | retry actor header id =>
    refine commit_induction (P := fun t : AnalysisState => Rewritten s _ t.feed.analyses) .same ?_
    intro t ht
    obtain ⟨a, ha, hfailed, rfl⟩ := retryQueued_ok ht
    refine .writeAnalysis fun b hb => .requeued ?_
    exact Option.some.inj (hb.symm.trans ha) ▸ hfailed
  | claim =>
    unfold analysisStep
    dsimp only
    split <;> exact .same
  | load =>
    unfold analysisStep
    dsimp only
    split <;> exact .same
  | start =>
    unfold analysisStep
    dsimp only
    split
    · rename_i job id l hworker
      apply Rewritten.writeAnalysis
      exact fun a _ => .started hworker
    · exact .same
  | complete output confidence target =>
    unfold analysisStep
    dsimp only
    split
    · rename_i job id l hworker
      unfold completeAsync
      split
      · exact .same
      · rename_i incident hincident
        apply Rewritten.emit
        apply Rewritten.writeAnalysis
        exact fun a _ => .answered hworker hincident
    · exact .same
  | fail error target =>
    unfold analysisStep
    dsimp only
    split
    · rename_i job id l hworker
      have hfailed : Rewritten s (.fail error target)
          (s.writeAnalysis id fun a => a.failed s.now error).feed.analyses :=
        .writeAnalysis fun a _ => .failed hworker
      unfold failAsync
      dsimp only
      split
      · exact .same
      · split
        · exact hfailed
        · exact .emit hfailed _ _ _
    · exact .same
  | abort error =>
    unfold analysisStep
    dsimp only
    split <;> exact .same
  | finish =>
    unfold analysisStep
    dsimp only
    split <;> exact .same
  | restart => exact .same

theorem analysisStep_size_le (env : Env) (settings : AnalysisSettings) (s : AnalysisState)
    (x : AnalysisTurn) : s.feed.analyses.size ≤ (analysisStep env settings s x).feed.analyses.size := by
  by_contra hlt
  obtain ⟨a, ha⟩ := Table.get_of_lt (not_le.mp hlt)
  obtain ⟨c, b, -, -, hb⟩ := (analysisStep_rewritten env settings s x).rows _ a ha
  exact absurd (Table.lt_size hb) (lt_irrefl _)

end Rows

/-- The columns of an analysis that nobody writes. -/
def AiAnalysis.request (a : AiAnalysis) : AnalysisType × Id × ℕ :=
  (a.analysisType, a.incidentId, a.inputVersion)

/-- What the worker holds is what is stored, but that a failed analysis may have been queued
again between its loading and its start. -/
def AnalysisWorker.Holds (analyses : Table AiAnalysis) : AnalysisWorker → Prop
  | .loaded _ id l => ∃ a, analyses.get id = some a ∧ a.request = l.request ∧
      (a.status = l.status ∨ (l.status = .failed ∧ a.status = .queued))
  | .running _ id l => ∃ a, analyses.get id = some a ∧ a.request = l.request ∧
      a.status = .running ∧ l.status = .running
  | _ => True

section Worker
variable {env : Env} {settings : AnalysisSettings} {s t : AnalysisState} {x : AnalysisTurn} {k : Id}
  {a b c : AiAnalysis}

theorem AiAnalysis.Stales.status (h : a.Stales b) : b.status = a.status := by rw [h.1]

theorem AiAnalysis.Stales.output (h : a.Stales b) : b.output = a.output := by rw [h.1]

theorem AiAnalysis.Stales.request (h : a.Stales b) : b.request = a.request := by
  rw [h.1]
  rfl

theorem Rewrites.request (h : Rewrites s x k a c) : c.request = a.request := by
  cases h <;> rfl

/-- Steps that execute nothing leave the status, or queue a failed analysis. -/
theorem Rewrites.status_of_other (h : Rewrites s x k a c) (hx : x.executes = false) :
    c.status = a.status ∨ (a.status = .failed ∧ c.status = .queued) := by
  cases h with
  | kept => exact Or.inl rfl
  | started => exact nomatch hx
  | answered => exact nomatch hx
  | failed => exact nomatch hx
  | requeued hfailed => exact Or.inr ⟨hfailed, rfl⟩

/-- A started analysis is running, also when it was loaded before it was queued again. -/
theorem AiAnalysis.status_started {l a : AiAnalysis}
    (h : a.status = l.status ∨ (l.status = .failed ∧ a.status = .queued)) :
    (l.save l.started a).status = .running := by
  by_cases hrunning : AnalysisStatus.running = l.status
  · have ha : a.status = l.status := h.resolve_right fun hfailed =>
      AnalysisStatus.noConfusion (hfailed.1.symm.trans hrunning.symm)
    simp [save, started, written, hrunning, ha]
  · exact written_of_ne hrunning a.status

/-- Other sessions leave what the worker holds as it is. -/
theorem Rewritten.holds {analyses : Table AiAnalysis} (h : Rewritten s x analyses)
    (hx : x.executes = false) (hs : s.worker.Holds s.feed.analyses) : s.worker.Holds analyses := by
  cases hworker : s.worker with
  | loaded job id l =>
    rw [hworker] at hs
    obtain ⟨a, ha, hrequest, hstatus⟩ := hs
    obtain ⟨c, b, hac, hcb, hb⟩ := h.rows id a ha
    refine ⟨b, hb, hcb.request.trans (hac.request.trans hrequest), ?_⟩
    rw [hcb.status]
    rcases hac.status_of_other hx with hsame | ⟨hfailed, hqueued⟩
    · rwa [hsame]
    · refine Or.inr ⟨?_, hqueued⟩
      exact (hstatus.resolve_right fun hq => nomatch hq.2.symm.trans hfailed).symm.trans hfailed
  | running job id l =>
    rw [hworker] at hs
    obtain ⟨a, ha, hrequest, hrunning, hl⟩ := hs
    obtain ⟨c, b, hac, hcb, hb⟩ := h.rows id a ha
    refine ⟨b, hb, hcb.request.trans (hac.request.trans hrequest), ?_, hl⟩
    rw [hcb.status]
    rcases hac.status_of_other hx with hsame | ⟨hfailed, -⟩
    · exact hsame.trans hrunning
    · exact nomatch hfailed.symm.trans hrunning
  | idle => trivial
  | claimed job => trivial
  | finishing job error => trivial

theorem loadAnalysis_holds (s : AnalysisState) (job : Id) :
    (loadAnalysis s job).Holds s.feed.analyses := by
  unfold loadAnalysis
  split
  · trivial
  · split
    · trivial
    · split
      · trivial
      · rename_i a ha
        exact ⟨a, ha, rfl, Or.inl rfl⟩

/-- **What the worker holds is stored**, at every step. -/
theorem analysisStep_holds (hs : s.worker.Holds s.feed.analyses) :
    (analysisStep env settings s x).worker.Holds (analysisStep env settings s x).feed.analyses := by
  have hrows := analysisStep_rewritten env settings s x
  have hother : (analysisStep env settings s x).worker = s.worker → x.executes = false →
      (analysisStep env settings s x).worker.Holds (analysisStep env settings s x).feed.analyses := by
    intro hworker hx
    rw [hworker]
    exact hrows.holds hx hs
  cases x with
  | tick elapsed => exact hs
  | commit loaded staled events =>
    refine hother ?_ rfl
    simp only [analysisStep, AnalysisState.markStale]
  | requestBrief actor header incidentId snapshot =>
    refine hother ?_ rfl
    simp only [analysisStep]
    cases ht : enqueueCommandBrief env settings s actor header incidentId snapshot with
    | error e => rfl
    | ok t =>
      obtain ⟨incident, -, rfl⟩ := enqueueCommandBrief_ok ht
      rfl
  | requestAnalysis actor id y context allowed loaded =>
    refine hother ?_ rfl
    simp only [analysisStep, enqueueCaseAnalysis]
    split <;> rfl
  | retry actor header id =>
    refine hother ?_ rfl
    simp only [analysisStep]
    cases ht : retryQueued env s actor header id with
    | error e => rfl
    | ok t =>
      obtain ⟨a, -, -, rfl⟩ := retryQueued_ok ht
      rfl
  | claim =>
    simp only [analysisStep]
    split
    · trivial
    · exact hs
  | load =>
    simp only [analysisStep]
    split
    · exact loadAnalysis_holds s _
    · exact hs
  | start =>
    simp only [analysisStep]
    split
    · rename_i job id l hworker
      rw [hworker] at hs
      obtain ⟨a, ha, hrequest, hstatus⟩ := hs
      refine ⟨l.save l.started a, ?_, hrequest, AiAnalysis.status_started hstatus, rfl⟩
      simp [AnalysisState.writeAnalysis, ha]
    · exact hs
  | complete output confidence target =>
    simp only [analysisStep]
    split
    · unfold completeAsync
      split
      · exact hs
      · trivial
    · exact hs
  | fail error target =>
    simp only [analysisStep]
    split
    · unfold failAsync
      dsimp only
      split
      · trivial
      · split <;> trivial
    · exact hs
  | abort error =>
    simp only [analysisStep]
    split
    · trivial
    · trivial
    · exact hs
  | finish =>
    simp only [analysisStep]
    split
    · trivial
    · exact hs
  | restart => trivial

end Worker
end CrisisMosaic
