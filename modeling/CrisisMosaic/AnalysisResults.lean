import CrisisMosaic.AnalysisWrites
import CrisisMosaic.Reachable

/-!
# One live job for an analysis, and answers that stay

An analysis has one live job at most, and its answer is not taken back or replaced, as
long as no failed analysis is retried that still has a live job and no execution starts
an analysis that has been answered.
-/

namespace CrisisMosaic
open Relational

def SingleJobs (jobs : Table (Job Id)) : Prop :=
  ∀ i j a b, jobs.get i = some a → jobs.get j = some b → a.isLive = true → b.isLive = true →
    a.payload = b.payload → i = j

/-- An answered analysis stays answered, with the same output. -/
def AnswersKept (before after : Table AiAnalysis) : Prop :=
  ∀ k a, before.get k = some a → a.status = .succeeded →
    ∃ b, after.get k = some b ∧ b.status = .succeeded ∧ b.output = a.output

/-- An analysis that an operator retries has no live job, and no answered analysis is started. -/
structure MeetsAnalysis (env : Env) (s : AnalysisState) (x : AnalysisTurn) : Prop where
  retried : ∀ actor header id, x = .retry actor header id →
    (∃ t, retryQueued env s actor header id = .ok t) →
    ∀ i j, s.jobs.get i = some j → j.payload = id → j.isLive = false
  started : ∀ job id l, x = .start → s.worker = .loaded job id l →
    ∀ a, s.feed.analyses.get id = some a → a.status ≠ .succeeded

/-- What a step makes of the jobs. -/
inductive Schedules (env : Env) (s : AnalysisState) (x : AnalysisTurn) (t : AnalysisState) : Prop
  | kept : t.jobs = s.jobs → Schedules env s x t
  | advanced {i : Id} {f : Job Id → Job Id} : t.jobs = s.jobs.modify i f →
      (∀ j, (f j).payload = j.payload) →
      (∀ j, s.jobs.get i = some j → (f j).isLive = true → j.isLive = true) → Schedules env s x t
  | queued {attempts : ℕ} : t.jobs = s.jobs.insert (.enqueued s.now attempts s.feed.analyses.size) →
      s.feed.analyses.size < t.feed.analyses.size → Schedules env s x t
  | retried {actor : Actor} {header : Option Ref} {id : Id} {attempts : ℕ} :
      x = .retry actor header id → (∃ t, retryQueued env s actor header id = .ok t) →
      t.jobs = s.jobs.insert (.enqueued s.now attempts id) → id < s.feed.analyses.size →
      Schedules env s x t

section Jobs
variable {env : Env} {settings : AnalysisSettings} {s t : AnalysisState} {x : AnalysisTurn}

theorem enqueueCaseAnalysis_schedules (env : Env) (s : AnalysisState) (actor : Actor) (id : Id)
    (y : ConflictCase) (context : Dict) (allowed : List Id) (loaded : Table Incident) :
    Schedules env s x (enqueueCaseAnalysis env s actor id y context allowed loaded) := by
  unfold enqueueCaseAnalysis
  dsimp only
  split
  · exact .kept rfl
  · refine .queued rfl ?_
    obtain ⟨a, ha⟩ : ∃ a, a = queuedAnalysis env s.now id y actor context
        (env.canonicalSha256 (.obj context)) allowed := ⟨_, rfl⟩
    rw [← ha]
    have hsize := (Feed.transact_stales (s.enqueue env a).feed s.now loaded
      [(y.incidentId, caseEvent "conflict.analysis_requested" id y.revision
        [("analysis_id", .ref s.feed.analyses.size), ("status", .str "queued")])]).size_eq
    rw [AnalysisState.emit]
    exact (Nat.lt_succ_self _).trans_eq ((Table.size_insert _ a).symm.trans hsize)

theorem analysisStep_schedules (env : Env) (settings : AnalysisSettings) (s : AnalysisState)
    (x : AnalysisTurn) : Schedules env s x (analysisStep env settings s x) := by
  cases x with
  | tick elapsed => exact .kept rfl
  | commit loaded staled events => exact .kept rfl
  | requestBrief actor header incidentId snapshot =>
    simp only [analysisStep]
    cases ht : enqueueCommandBrief env settings s actor header incidentId snapshot with
    | error e => exact .kept rfl
    | ok t =>
      obtain ⟨incident, -, rfl⟩ := enqueueCommandBrief_ok ht
      exact .queued rfl (by simp [AnalysisState.enqueue])
  | requestAnalysis actor id y context allowed loaded =>
    exact enqueueCaseAnalysis_schedules env s actor id y context allowed loaded
  | retry actor header id =>
    simp only [analysisStep]
    cases ht : retryQueued env s actor header id with
    | error e => exact .kept rfl
    | ok t =>
      obtain ⟨a, ha, -, rfl⟩ := retryQueued_ok ht
      exact .retried rfl ⟨_, ht⟩ rfl (Table.lt_size ha)
  | claim =>
    simp only [analysisStep]
    split
    · rename_i job jobs hworker hclaim
      obtain ⟨⟨j, hj, hdue⟩, rfl⟩ := claimJob_some hclaim
      refine .advanced rfl (fun j => Job.payload_claimed _ _ j) fun j' hj' _ => ?_
      obtain rfl := Option.some.inj (hj.symm.trans hj')
      exact Job.isLive_of_isDue hdue
    · exact .kept rfl
  | load =>
    simp only [analysisStep]
    split <;> exact .kept rfl
  | start =>
    simp only [analysisStep]
    split <;> exact .kept rfl
  | complete output confidence target =>
    simp only [analysisStep]
    split
    · unfold completeAsync
      split <;> exact .kept rfl
    · exact .kept rfl
  | fail error target =>
    simp only [analysisStep]
    split
    · unfold failAsync
      dsimp only
      split
      · exact .kept rfl
      · split <;> exact .kept rfl
    · exact .kept rfl
  | abort error =>
    simp only [analysisStep]
    split <;> exact .kept rfl
  | finish =>
    simp only [analysisStep]
    split
    · refine .advanced rfl (fun j => ?_) fun j _ hlive => Job.isLive_of_finished hlive
      split
      · exact Job.payload_finished _ _ j
      · rfl
    · exact .kept rfl
  | restart => exact .kept rfl

/-- Every job is about a stored analysis. -/
def AnalysisState.JobsKnown (s : AnalysisState) : Prop :=
  s.jobs.All fun _ j => j.payload < s.feed.analyses.size

theorem Schedules.jobsKnown (h : Schedules env s x t) (hs : s.JobsKnown)
    (hsize : s.feed.analyses.size ≤ t.feed.analyses.size) : t.JobsKnown := by
  have hlater : s.jobs.All fun _ j => j.payload < t.feed.analyses.size :=
    fun i j hj => (hs i j hj).trans_le hsize
  unfold AnalysisState.JobsKnown
  cases h with
  | kept hjobs => rwa [hjobs]
  | advanced hjobs hpayload =>
    rw [hjobs]
    refine hlater.modify fun j _ hlt => ?_
    rwa [hpayload]
  | queued hjobs hlt =>
    rw [hjobs]
    exact hlater.insert hlt
  | retried hx haccepted hjobs hlt =>
    rw [hjobs]
    exact hlater.insert (hlt.trans_le hsize)

theorem SingleJobs.modify {jobs : Table (Job Id)} {i : Id} {f : Job Id → Job Id}
    (h : SingleJobs jobs) (hpayload : ∀ j, (f j).payload = j.payload)
    (hlive : ∀ j, jobs.get i = some j → (f j).isLive = true → j.isLive = true) :
    SingleJobs (jobs.modify i f) := by
  have hback : ∀ k b, (jobs.modify i f).get k = some b → b.isLive = true →
      ∃ a, jobs.get k = some a ∧ a.isLive = true ∧ a.payload = b.payload := by
    intro k b hb hb'
    rcases Table.get_modify_cases hb with ⟨rfl, a, ha, rfl⟩ | ⟨-, ha⟩
    · exact ⟨a, ha, hlive a ha hb', (hpayload a).symm⟩
    · exact ⟨b, ha, hb', rfl⟩
  intro k l a b ha hb hal hbl hab
  obtain ⟨a', ha', hal', hpa⟩ := hback k a ha hal
  obtain ⟨b', hb', hbl', hpb⟩ := hback l b hb hbl
  exact h k l a' b' ha' hb' hal' hbl' (hpa.trans (hab.trans hpb.symm))

/-- A job more for an analysis: it must not have a live one. -/
theorem singleJobs_insert_iff {jobs : Table (Job Id)} {now : Time} {attempts : ℕ} {id : Id}
    (h : SingleJobs jobs) : SingleJobs (jobs.insert (.enqueued now attempts id)) ↔
      ∀ i j, jobs.get i = some j → j.payload = id → j.isLive = false := by
  constructor
  · intro hsingle i j hj hpayload
    by_contra hlive
    have hi := hsingle i jobs.size j (.enqueued now attempts id) (Table.get_insert_of_some _ hj)
      (Table.get_insert_size _ _) (by simpa using hlive) rfl hpayload
    exact absurd (Table.lt_size hj) (hi ▸ lt_irrefl _)
  · intro hnone i j a b ha hb hal hbl hab
    rcases Table.get_insert_cases ha with ⟨rfl, rfl⟩ | ha
    · rcases Table.get_insert_cases hb with ⟨rfl, rfl⟩ | hb
      · rfl
      · exact absurd hbl (by simp [hnone j b hb hab.symm])
    · rcases Table.get_insert_cases hb with ⟨rfl, rfl⟩ | hb
      · exact absurd hal (by simp [hnone i a ha hab])
      · exact h i j a b ha hb hal hbl hab


theorem Schedules.singleJobs (h : Schedules env s x t) (hs : SingleJobs s.jobs)
    (hknown : s.JobsKnown) (hx : MeetsAnalysis env s x) : SingleJobs t.jobs := by
  cases h with
  | kept hjobs => rwa [hjobs]
  | advanced hjobs hpayload hlive =>
    rw [hjobs]
    exact hs.modify hpayload hlive
  | queued hjobs =>
    rw [hjobs, singleJobs_insert_iff hs]
    intro i j hj hpayload
    exact absurd (hknown i j hj) (hpayload ▸ lt_irrefl _)
  | retried hretry haccepted hjobs =>
    rw [hjobs, singleJobs_insert_iff hs]
    exact hx.retried _ _ _ hretry haccepted

end Jobs

section Answers
variable {env : Env} {settings : AnalysisSettings} {s t : AnalysisState} {x : AnalysisTurn} {k : Id}
  {a c : AiAnalysis}

/-- Only a start touches an analysis that has been answered. -/
theorem Rewrites.answered_kept (h : Rewrites s x k a c) (hs : s.worker.Holds s.feed.analyses)
    (hx : MeetsAnalysis env s x) (ha : s.feed.analyses.get k = some a) (hanswered : a.status = .succeeded) :
    c = a := by
  have hrunning : ∀ {job l}, s.worker = .running job k l → a.status = .running := by
    intro job l hworker
    rw [hworker] at hs
    obtain ⟨a', ha', -, hstatus, -⟩ := hs
    exact Option.some.inj (ha'.symm.trans ha) ▸ hstatus
  cases h with
  | kept => rfl
  | started hworker => exact absurd hanswered (hx.started _ _ _ rfl hworker a ha)
  | answered hworker => exact nomatch (hrunning hworker).symm.trans hanswered
  | failed hworker => exact nomatch (hrunning hworker).symm.trans hanswered
  | requeued hfailed => exact nomatch hfailed.symm.trans hanswered

theorem Rewritten.answersKept {analyses : Table AiAnalysis} (h : Rewritten s x analyses)
    (hs : s.worker.Holds s.feed.analyses) (hx : MeetsAnalysis env s x) :
    AnswersKept s.feed.analyses analyses := by
  intro k a ha hanswered
  obtain ⟨c, b, hac, hcb, hb⟩ := h.rows k a ha
  obtain rfl := hac.answered_kept hs hx ha hanswered
  exact ⟨b, hb, hcb.status.trans hanswered, hcb.output⟩

theorem analysisStep_meets (hs : s.worker.Holds s.feed.analyses) (hjobs : SingleJobs s.jobs)
    (hknown : s.JobsKnown) :
    (SingleJobs (analysisStep env settings s x).jobs ∧
      AnswersKept s.feed.analyses (analysisStep env settings s x).feed.analyses) ↔
    MeetsAnalysis env s x := by
  constructor
  · rintro ⟨hsingle, hkept⟩
    constructor
    · rintro actor header id rfl ⟨t, ht⟩
      obtain ⟨a, -, -, rfl⟩ := retryQueued_ok ht
      simp only [analysisStep, ht, commit_ok] at hsingle
      exact (singleJobs_insert_iff hjobs).mp hsingle
    · rintro job id l rfl hworker a ha hanswered
      obtain ⟨b, hb, hb', -⟩ := hkept id a ha hanswered
      rw [hworker] at hs
      obtain ⟨a', ha', -, hstatus⟩ := hs
      obtain rfl := Option.some.inj (ha.symm.trans ha')
      simp only [analysisStep, hworker, AnalysisState.writeAnalysis, Table.get_modify_self, ha,
        Option.map_some, Option.some.injEq] at hb
      have hrunning := AiAnalysis.status_started hstatus
      rw [hb, hb'] at hrunning
      cases hrunning
  · intro hx
    exact ⟨(analysisStep_schedules env settings s x).singleJobs hjobs hknown hx,
      (analysisStep_rewritten env settings s x).answersKept hs hx⟩

end Answers

/-- **An analysis has one live job at most and keeps its answer** along a run, exactly when
every step of the run meets the condition. -/
theorem analyses_answered_once_iff (env : Env) (settings : AnalysisSettings) (now : Time)
    (incidents : Table Incident) (steps : List AnalysisTurn) :
    Along (analysisStep env settings)
        (fun s x => SingleJobs (analysisStep env settings s x).jobs ∧
          AnswersKept s.feed.analyses (analysisStep env settings s x).feed.analyses)
        (.initial now incidents) steps ↔
      Along (analysisStep env settings) (MeetsAnalysis env) (.initial now incidents) steps :=
  along_congr (analysisStep env settings)
    (I := fun s => s.worker.Holds s.feed.analyses ∧ SingleJobs s.jobs ∧ s.JobsKnown)
    (fun _ _ hs => analysisStep_meets hs.1 hs.2.1 hs.2.2)
    (fun s x hs h => ⟨analysisStep_holds hs.1, h.1,
      (analysisStep_schedules env settings s x).jobsKnown hs.2.2
        (analysisStep_size_le env settings s x)⟩)
    ⟨trivial, fun _ _ _ _ h => (nomatch h), fun _ _ h => nomatch h⟩

namespace Sample

abbrev analyses (steps : List AnalysisTurn) : AnalysisState :=
  analysisRun env ⟨"fake", 60⟩ 0 ⟨[incident]⟩ steps

def execution : List AnalysisTurn := [.claim, .load, .start]

def modelTimeout : ApiError := ⟨503, "AI_TIMEOUT", "", []⟩

/-- The first attempt at a brief fails, and an operator retries the brief before the second. -/
def retriedBrief : List AnalysisTurn :=
  [.requestBrief admin none 0 []] ++ execution ++ [.fail modelTimeout none, .finish, .retry admin none 0]

/-- The operator's job answers the brief. -/
def answeredBrief : List AnalysisTurn :=
  retriedBrief ++ execution ++ [.complete [] 1 none, .finish]

def briefIs (status : AnalysisStatus) (s : AnalysisState) : Bool :=
  (s.feed.analyses.get 0).any fun a => a.status = status

end Sample

/-- A brief has two live jobs, and the second takes its answer back. -/
theorem retried_brief_is_answered_twice :
    ¬ SingleJobs (Sample.analyses Sample.retriedBrief).jobs ∧
    Sample.briefIs .succeeded (Sample.analyses Sample.answeredBrief) = true ∧
    Sample.briefIs .running
      (Sample.analyses (Sample.answeredBrief ++ [.tick 1000000] ++ Sample.execution)) = true := by
  refine ⟨fun h => ?_, by decide +kernel, by decide +kernel⟩
  exact absurd (h 0 1 _ _ rfl rfl rfl rfl rfl) Nat.zero_ne_one

end CrisisMosaic
