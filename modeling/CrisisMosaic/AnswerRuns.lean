import CrisisMosaic.AnsweredContracts
import CrisisMosaic.Reachable

/-!
# Runs of answering workers

Answers are stored by the worker alone, for an analysis whose request it has loaded and nobody writes.
-/

namespace CrisisMosaic
open Relational

/-! ## Workers -/

def attemptsOf (jobs : Table (Job Id)) (job : Id) : ℕ := (jobs.get job).elim 0 (·.attempts)

theorem attemptsOf_insert (jobs : Table (Job Id)) (now : Time) (maxAttempts : ℕ) (analysis job : Id) :
    attemptsOf (jobs.insert (.enqueued now maxAttempts analysis)) job = attemptsOf jobs job := by
  unfold attemptsOf
  rw [Table.get_insert]
  split_ifs with h
  · rw [h, Table.get_size]
    rfl
  · rfl

theorem attemptsOf_modify {jobs : Table (Job Id)} {i : Id} {f : Job Id → Job Id}
    (hf : ∀ j, (f j).attempts = j.attempts)
    (job : Id) : attemptsOf (jobs.modify i f) job = attemptsOf jobs job := by
  unfold attemptsOf
  rw [Table.get_modify]
  split_ifs
  · cases jobs.get job with
    | none => rfl
    | some j => exact hf j
  · rfl

theorem attempts_finished (now : Time) (error : Option String) (j : Job Id) :
    (if j.status = .running then j.finished now error else j).attempts = j.attempts := by
  split_ifs
  · cases error with
    | none => rfl
    | some e =>
      unfold Job.finished
      dsimp only
      split_ifs <;> rfl
  · rfl

/-- The worker executes no job. -/
def AnalysisWorker.Free : AnalysisWorker → Prop
  | .idle | .finishing _ _ => True
  | _ => False

/-- What a step makes of the worker, and of the attempts of the jobs. -/
inductive WorkerMoves (s t : AnalysisState) : Prop
  | kept : t.worker = s.worker → attemptsOf t.jobs = attemptsOf s.jobs → WorkerMoves s t
  | freed : t.worker.Free → attemptsOf t.jobs = attemptsOf s.jobs → WorkerMoves s t
  | claimed {job : Id} {j : Job Id} : s.worker.Free → t.worker = .claimed job → s.jobs.get job = some j →
      attemptsOf t.jobs = Function.update (attemptsOf s.jobs) job (j.attempts + 1) → WorkerMoves s t
  | loaded {job : Id} : s.worker = .claimed job → t.worker = loadAnalysis s job →
      attemptsOf t.jobs = attemptsOf s.jobs → WorkerMoves s t
  | started {job id : Id} {l : AiAnalysis} : s.worker = .loaded job id l → t.worker = .running job id l.started →
      attemptsOf t.jobs = attemptsOf s.jobs → WorkerMoves s t

section Moves
variable {env : Env} {settings : AnalysisSettings} {s : AnalysisState}

theorem completeAsync_moves (job id : Id) (a : AiAnalysis) (output : Dict) (confidence : ℚ)
    (target : Option (Id × ConflictCase)) : WorkerMoves s (completeAsync s job id a output confidence target) := by
  unfold completeAsync
  split
  · exact .kept rfl rfl
  · exact .freed trivial rfl

theorem failAsync_moves (job id : Id) (error : ApiError) (target : Option (Id × ConflictCase)) :
    (failAsync s job id error target).worker.Free ∧ (failAsync s job id error target).jobs = s.jobs := by
  unfold failAsync
  dsimp only
  split
  · exact ⟨trivial, rfl⟩
  · split <;> exact ⟨trivial, rfl⟩

theorem analysisStep_moves (env : Env) (settings : AnalysisSettings) (s : AnalysisState) (x : AnalysisTurn) :
    WorkerMoves s (analysisStep env settings s x) := by
  cases x with
  | tick elapsed => exact .kept rfl rfl
  | commit loaded staled events => exact .kept rfl rfl
  | requestBrief actor header incidentId snapshot =>
    simp only [analysisStep]
    cases ht : enqueueCommandBrief env settings s actor header incidentId snapshot with
    | error e => exact .kept rfl rfl
    | ok t =>
      obtain ⟨incident, -, rfl⟩ := enqueueCommandBrief_ok ht
      exact .kept rfl (funext (attemptsOf_insert _ _ _ _))
  | requestAnalysis actor id y context allowed loaded =>
    simp only [analysisStep, enqueueCaseAnalysis]
    split
    · exact .kept rfl rfl
    · exact .kept rfl (funext (attemptsOf_insert _ _ _ _))
  | retry actor header id =>
    simp only [analysisStep]
    cases ht : retryQueued env s actor header id with
    | error e => exact .kept rfl rfl
    | ok t =>
      obtain ⟨a, -, -, rfl⟩ := retryQueued_ok ht
      exact .kept rfl (funext (attemptsOf_insert _ _ _ _))
  | claim =>
    simp only [analysisStep]
    split
    · rename_i job jobs hworker hclaim
      obtain ⟨⟨j, hj, -⟩, rfl⟩ := claimJob_some hclaim
      refine .claimed (by rw [hworker]; trivial) rfl hj (funext fun k => ?_)
      dsimp only
      unfold attemptsOf
      rw [Table.get_modify, Function.update_apply]
      by_cases hk : k = job
      · subst hk
        rw [if_pos rfl, if_pos rfl, hj]
        rfl
      · rw [if_neg (Ne.symm hk), if_neg hk]
    · exact .kept rfl rfl
  | load =>
    simp only [analysisStep]
    split
    · rename_i job hworker
      exact .loaded hworker rfl rfl
    · exact .kept rfl rfl
  | start =>
    simp only [analysisStep]
    split
    · rename_i job id l hworker
      exact .started hworker rfl rfl
    · exact .kept rfl rfl
  | complete output confidence target =>
    simp only [analysisStep]
    split
    · exact completeAsync_moves _ _ _ _ _ _
    · exact .kept rfl rfl
  | fail error target =>
    simp only [analysisStep]
    split
    · rename_i job id a hworker
      obtain ⟨hfree, hjobs⟩ := failAsync_moves (s := s) job id error target
      exact .freed hfree (congrArg attemptsOf hjobs)
    · exact .kept rfl rfl
  | abort error =>
    simp only [analysisStep]
    split
    · exact .freed trivial rfl
    · exact .freed trivial rfl
    · exact .kept rfl rfl
  | finish =>
    simp only [analysisStep]
    split
    · rename_i job error hworker
      exact .freed trivial (funext (attemptsOf_modify fun j => attempts_finished _ _ j))
    · exact .kept rfl rfl
  | restart => exact .freed trivial rfl

end Moves
/-! ## Stored answers -/

/-- What an analysis was requested with, which nobody writes. -/
def AiAnalysis.asked (a : AiAnalysis) : AnalysisType × Dict × Option Dict :=
  (a.analysisType, a.inputSnapshot, a.contextPackage)

/-- The analysis that the worker holds was requested with what is stored of it. -/
def AnalysisWorker.Quotes (analyses : Table AiAnalysis) : AnalysisWorker → Prop
  | .loaded _ id l | .running _ id l => ∃ a, analyses.get id = some a ∧ a.asked = l.asked
  | _ => True

section Stored
variable {env : Env} {settings : AnalysisSettings} {s : AnalysisState} {x : AnalysisTurn} {k : Id}
  {a b c : AiAnalysis}

theorem AiAnalysis.Stales.asked (h : a.Stales b) : b.asked = a.asked := by
  rw [h.1]
  rfl

theorem Rewrites.asked (h : Rewrites s x k a c) : c.asked = a.asked := by
  cases h <;> rfl

theorem AiAnalysis.Obeys.congr {env : AnswerEnv} {d : Dict} (h : a.Obeys env d) (hasked : a.asked = b.asked) :
    b.Obeys env d := by
  obtain ⟨htype, hrest⟩ := Prod.mk.inj hasked
  obtain ⟨hsnapshot, hpackage⟩ := Prod.mk.inj hrest
  have hcontext : a.context = b.context := by
    unfold AiAnalysis.context
    rw [hsnapshot, hpackage]
  unfold AiAnalysis.Obeys at h ⊢
  rwa [htype, hsnapshot, hcontext] at h

theorem loadAnalysis_quotes (s : AnalysisState) (job : Id) : (loadAnalysis s job).Quotes s.feed.analyses := by
  unfold loadAnalysis
  split
  · trivial
  · split
    · trivial
    · split
      · trivial
      · rename_i a ha
        exact ⟨a, ha, rfl⟩

theorem AnalysisWorker.Quotes.rewritten {analyses : Table AiAnalysis} {worker : AnalysisWorker}
    (h : worker.Quotes s.feed.analyses) (hrows : Rewritten s x analyses) : worker.Quotes analyses := by
  have hrow : ∀ (id : Id) (l : AiAnalysis), (∃ a, s.feed.analyses.get id = some a ∧ a.asked = l.asked) →
      ∃ a, analyses.get id = some a ∧ a.asked = l.asked := by
    rintro id l ⟨a, ha, hasked⟩
    obtain ⟨c, b, hc, hcb, hb⟩ := hrows.rows id a ha
    exact ⟨b, hb, hcb.asked.trans (hc.asked.trans hasked)⟩
  cases worker with
  | loaded job id l => exact hrow id l h
  | running job id l => exact hrow id l h
  | idle | claimed | finishing => trivial

theorem analysisStep_quotes (h : s.worker.Quotes s.feed.analyses) :
    (analysisStep env settings s x).worker.Quotes (analysisStep env settings s x).feed.analyses := by
  have hrows := analysisStep_rewritten env settings s x
  rcases analysisStep_moves env settings s x with hkept | hfree | ⟨-, hclaimed⟩ | ⟨-, hloaded⟩ |
    @⟨job, id, l, hbefore, hstarted, -⟩
  · rw [hkept]
    exact h.rewritten hrows
  · revert hfree
    cases (analysisStep env settings s x).worker with
    | idle | finishing | claimed => exact fun _ => trivial
    | loaded | running => exact False.elim
  · rw [hclaimed]
    trivial
  · rw [hloaded]
    exact (loadAnalysis_quotes s _).rewritten hrows
  · rw [hbefore] at h
    rw [hstarted]
    have hrunning : (AnalysisWorker.running job id l.started).Quotes s.feed.analyses := h
    exact hrunning.rewritten hrows

def AnalysisTurn.requests : AnalysisTurn → Bool
  | .requestBrief .. | .requestAnalysis .. => true
  | _ => false

theorem emit_size (s : AnalysisState) (loaded : Table Incident) (incident : Id) (e : Event) :
    (s.emit loaded incident e).feed.analyses.size = s.feed.analyses.size :=
  (Feed.transact_stales s.feed s.now loaded [(incident, e)]).size_eq.symm

theorem writeAnalysis_size (s : AnalysisState) (id : Id) (f : AiAnalysis → AiAnalysis) :
    (s.writeAnalysis id f).feed.analyses.size = s.feed.analyses.size :=
  Table.size_modify _ _ _

theorem analysisStep_size (hx : x.requests = false) :
    (analysisStep env settings s x).feed.analyses.size = s.feed.analyses.size := by
  cases x with
  | requestBrief | requestAnalysis => cases hx
  | tick | restart => rfl
  | commit loaded staled events =>
    exact (Feed.transact_stales (s.markStale staled).feed s.now loaded events).size_eq.symm.trans
      (markStale_stales s staled).size_eq.symm
  | retry actor header id =>
    simp only [analysisStep]
    cases ht : retryQueued env s actor header id with
    | error e => rfl
    | ok t =>
      obtain ⟨a, -, -, rfl⟩ := retryQueued_ok ht
      exact writeAnalysis_size s id _
  | claim | load | abort | finish =>
    simp only [analysisStep]
    split <;> rfl
  | start =>
    simp only [analysisStep]
    split
    · exact writeAnalysis_size s _ _
    · rfl
  | complete output confidence target =>
    simp only [analysisStep]
    split
    · unfold completeAsync
      split
      · rfl
      · exact (emit_size _ _ _ _).trans (writeAnalysis_size _ _ _)
    · rfl
  | fail error target =>
    simp only [analysisStep]
    split
    · unfold failAsync
      dsimp only
      split
      · rfl
      · split
        · exact writeAnalysis_size _ _ _
        · exact (emit_size _ _ _ _).trans (writeAnalysis_size _ _ _)
    · rfl

/-- A new analysis has no answer. -/
theorem analysisStep_added (hb : (analysisStep env settings s x).feed.analyses.get k = some b)
    (hnone : s.feed.analyses.get k = none) : b.output = none := by
  have hother : x.requests = false → b.output = none := by
    intro hx
    have hsize : k < s.feed.analyses.size := by
      rw [← analysisStep_size hx]
      exact Table.lt_size hb
    obtain ⟨a, ha⟩ := Table.get_of_lt hsize
    exact absurd (ha.symm.trans hnone) (by simp)
  cases x with
  | requestBrief actor header incidentId snapshot =>
    simp only [analysisStep] at hb
    cases ht : enqueueCommandBrief env settings s actor header incidentId snapshot with
    | error e =>
      rw [ht] at hb
      exact absurd (hb.symm.trans hnone) (by simp)
    | ok t =>
      obtain ⟨incident, -, rfl⟩ := enqueueCommandBrief_ok ht
      rw [ht] at hb
      rcases Table.get_insert_cases hb with ⟨-, rfl⟩ | hold
      · rfl
      · exact absurd (hold.symm.trans hnone) (by simp)
  | requestAnalysis actor id y context allowed loaded =>
    simp only [analysisStep, enqueueCaseAnalysis] at hb
    split at hb
    · obtain ⟨a, ha, -⟩ := (Feed.transact_stales _ _ _ _).left_of_some hb
      exact absurd (ha.symm.trans hnone) (by simp)
    · obtain ⟨a, ha, hstales⟩ := (Feed.transact_stales _ _ _ _).left_of_some hb
      rw [hstales.output]
      rcases Table.get_insert_cases ha with ⟨-, rfl⟩ | hold
      · rfl
      · exact absurd (hold.symm.trans hnone) (by simp)
  | tick | claim | load | start | complete | fail | abort | finish | restart | commit | retry => exact hother rfl

/-- The worker quotes what is stored, and what is stored obeys. -/
structure HoldsAnswers (env : AnswerEnv) (s : AnalysisState) : Prop where
  quotes : s.worker.Quotes s.feed.analyses
  obeys : ∀ k a d, s.feed.analyses.get k = some a → a.output = some d → a.Obeys env d

end Stored

section Runs
variable {env : AnswerEnv} {s : AnalysisState} {x : AnswerTurn} {d : Dict} {c : ℚ}
  {target : Option (Id × ConflictCase)}

theorem answeredTurn_complete {l : AiAnalysis} {answer : Invocation (Dict × ℚ)}
    {target' : Option (Id × ConflictCase)} (h : answeredTurn s l answer target' = .complete d c target) :
    answer = .ok (d, c) := by
  unfold answeredTurn at h
  cases answer with
  | error e => cases h
  | ok p =>
    obtain ⟨output, confidence⟩ := p
    dsimp only at h
    split_ifs at h
    cases h
    rfl

/-- An execution ends with an answer of the provider only. -/
theorem base_complete (h : x.base env s = .complete d c target) :
    ∃ (job id : Id) (l : AiAnalysis) (images : Invocation Unit) (first repair : ProviderReply),
      s.worker = .running job id l ∧ (env.answer l images first repair).1 = .ok (d, c) := by
  cases x with
  | turn y => cases y <;> cases h
  | answer images first repair target' =>
    unfold AnswerTurn.base at h
    dsimp only at h
    split at h
    · rename_i job id l hworker
      exact ⟨job, id, l, images, first, repair, hworker, answeredTurn_complete h⟩
    · cases h
  | lost images first repair made error =>
    unfold AnswerTurn.base at h
    dsimp only at h
    split at h <;> cases h

/-- **What a step stores obeys.** -/
theorem HoldsAnswers.step (h : HoldsAnswers env s) : HoldsAnswers env (answerStep env s x) := by
  refine ⟨analysisStep_quotes h.quotes, fun k b d hb hd => ?_⟩
  cases hold : s.feed.analyses.get k with
  | none => exact absurd (hd.symm.trans (analysisStep_added hb hold)) (Option.some_ne_none d)
  | some a =>
    obtain ⟨r, b', hrewrites, hstales, hb'⟩ :=
      (analysisStep_rewritten env.toEnv env.analysis s (x.base env s)).rows k a hold
    obtain rfl := Option.some.inj (hb'.symm.trans hb)
    have hasked : a.asked = b'.asked := (hstales.asked.trans hrewrites.asked).symm
    rw [hstales.output] at hd
    have hkept : a.output = some d → b'.Obeys env d := fun ha => (h.obeys k a d hold ha).congr hasked
    generalize hx : x.base env s = y at hrewrites
    cases hrewrites with
    | kept | failed => exact hkept hd
    | started => exact hkept ((written_unchanged _ _).symm.trans hd)
    | requeued => cases hd
    | @answered job k l a output confidence target incident hworker hincident =>
      obtain ⟨job', id, l', images, first, repair, hworker', hanswer⟩ := base_complete hx
      obtain ⟨rfl, rfl, rfl⟩ := AnalysisWorker.running.inj (hworker.symm.trans hworker')
      rcases written_eq_or l.output (some output) a.output with hstored | hvalue
      · exact hkept (hstored.symm.trans hd)
      · -- the provider has answered what was asked
        obtain rfl := Option.some.inj (hvalue.symm.trans hd)
        have hquotes := h.quotes
        rw [hworker] at hquotes
        obtain ⟨a', ha', hl⟩ := hquotes
        obtain rfl := Option.some.inj (ha'.symm.trans hold)
        exact (answer_obeys hanswer).congr (hl.symm.trans hasked)

theorem answerRun_holds (env : AnswerEnv) (now : Time) (incidents : Table Incident) (steps : List AnswerTurn) :
    HoldsAnswers env (answerRun env now incidents steps) := by
  refine run_invariant (answerStep env) (C := fun _ _ => True) ?_ ?_ (along_true _ _ _)
  · exact fun s x hs _ => hs.step
  · exact ⟨trivial, fun k a d ha => by cases ha⟩

end Runs

/-- **Stored answers obey.** In every run, whatever the provider sends back, an answer that an analysis has refers to
what the analysis was requested about and keeps to its contract. -/
theorem stored_answers_obey (env : AnswerEnv) (now : Time) (incidents : Table Incident) (steps : List AnswerTurn)
    {k : Id} {a : AiAnalysis} {d : Dict} (ha : (answerRun env now incidents steps).feed.analyses.get k = some a)
    (hd : a.output = some d) : a.Obeys env d :=
  (answerRun_holds env now incidents steps).obeys k a d ha hd

namespace Sample

def briefJson : String :=
  "\x7b\"headline\": \"当前信息不足\", \"summary\": \"尚无上报\", \"recommendations\": [], \"confidence\": 0.4\x7d"

theorem noAdvice_bounds : (1 ≤ "当前信息不足".length ∧ "当前信息不足".length ≤ 100) ∧
    (1 ≤ "尚无上报".length ∧ "尚无上报".length ≤ 1000) ∧ ([] : List BriefRecommendation).length ≤ 10 ∧
    (0 ≤ (2 / 5 : ℚ) ∧ (2 / 5 : ℚ) ≤ 1) := by
  decide +kernel

def noAdvice : CommandBriefOutput :=
  { headline := ⟨"当前信息不足", noAdvice_bounds.1⟩
    summary := ⟨"尚无上报", noAdvice_bounds.2.1⟩
    recommendations := ⟨[], noAdvice_bounds.2.2.1⟩
    confidence := ⟨2 / 5, noAdvice_bounds.2.2.2⟩ }

def answerEnv : AnswerEnv :=
  { env with
    analysis := ⟨"fake", 60⟩
    conflictModel := ⟨fun _ _ => none⟩
    briefModel := ⟨fun _ s => if s = briefJson then some noAdvice else none⟩ }

def reply (content : String) : ProviderReply :=
  .body (.obj [("choices", .arr [.obj [("message", .obj [("content", .str content)])]])])

/-- The provider is asked again, and answers between fences then. -/
def repairedBrief : List AnswerTurn :=
  [.turn (.requestBrief admin none 0 []), .turn .claim, .turn .load, .turn .start,
    .answer (.ok ()) (reply "很抱歉") (reply ("```json " ++ briefJson ++ " ```")) none]

end Sample

theorem repaired_brief_obeys : ∃ a d,
    (answerRun Sample.answerEnv 0 ⟨[Sample.incident]⟩ Sample.repairedBrief).feed.analyses.get 0 = some a ∧
      a.output = some d ∧ a.Obeys Sample.answerEnv d := by
  have hanswered : (((answerRun Sample.answerEnv 0 ⟨[Sample.incident]⟩ Sample.repairedBrief).feed.analyses.get 0).bind
      (·.output)).isSome = true := by decide +kernel
  obtain ⟨d, hd⟩ := Option.isSome_iff_exists.mp hanswered
  obtain ⟨a, ha, houtput⟩ := Option.bind_eq_some_iff.mp hd
  exact ⟨a, d, ha, houtput, stored_answers_obey _ _ _ _ ha houtput⟩

/-! ## Requests -/

section Requests
variable {env : AnswerEnv} {s : AnalysisState} {x : AnswerTurn}

/-- What is left to the execution of a job. -/
def AnalysisWorker.credit (job : Id) : AnalysisWorker → ℕ
  | .claimed j | .loaded j _ _ | .running j _ _ => if j = job then 2 else 0
  | _ => 0

theorem AnalysisWorker.Free.credit {worker : AnalysisWorker} (h : worker.Free) (job : Id) :
    worker.credit job = 0 := by
  cases worker with
  | idle | finishing => rfl
  | claimed | loaded | running => exact h.elim

theorem loadAnalysis_credit (s : AnalysisState) (job k : Id) :
    (loadAnalysis s job).credit k ≤ (AnalysisWorker.claimed job).credit k := by
  unfold loadAnalysis
  split
  · exact Nat.zero_le _
  · split
    · exact Nat.zero_le _
    · split
      · exact Nat.zero_le _
      · exact le_rfl

/-- A claim is an attempt of the job, and nothing else gives credit. -/
theorem WorkerMoves.credit {s t : AnalysisState} (h : WorkerMoves s t) (job : Id) :
    t.worker.credit job + 2 * attemptsOf s.jobs job ≤ s.worker.credit job + 2 * attemptsOf t.jobs job := by
  rcases h with ⟨hworker, hattempts⟩ | ⟨hfree, hattempts⟩ | @⟨k, j, hfree, hclaimed, hj, hattempts⟩ |
    ⟨hclaimed, hloaded, hattempts⟩ | ⟨hloaded, hstarted, hattempts⟩
  · rw [hworker, hattempts]
  · rw [hfree.credit, hattempts]
    omega
  · rw [hfree.credit, hclaimed, hattempts, Function.update_apply]
    have hcount : attemptsOf s.jobs k = j.attempts := by
      unfold attemptsOf
      rw [hj]
      rfl
    by_cases hk : job = k
    · subst hk
      rw [if_pos rfl, hcount]
      simp only [AnalysisWorker.credit, if_true]
      omega
    · rw [if_neg hk]
      simp [AnalysisWorker.credit, Ne.symm hk]
  · rw [hclaimed, hloaded, hattempts]
    exact Nat.add_le_add_right (loadAnalysis_credit s _ job) _
  · rw [hloaded, hstarted, hattempts]
    exact le_rfl

theorem WorkerMoves.attempts_le {s t : AnalysisState} (h : WorkerMoves s t) (job : Id) :
    attemptsOf s.jobs job ≤ attemptsOf t.jobs job := by
  rcases h with ⟨-, hattempts⟩ | ⟨-, hattempts⟩ | @⟨k, j, -, -, hj, hattempts⟩ | ⟨-, -, hattempts⟩ |
    ⟨-, -, hattempts⟩
  · rw [hattempts]
  · rw [hattempts]
  · rw [hattempts, Function.update_apply]
    split_ifs with hk
    · unfold attemptsOf
      rw [hk, hj]
      exact Nat.le_succ _
    · exact le_rfl
  · rw [hattempts]
  · rw [hattempts]

/-- An execution ends with the answer, whatever it is. -/
theorem answeredTurn_free {env : Env} {settings : AnalysisSettings} {job id : Id} {l : AiAnalysis}
    (hworker : s.worker = .running job id l) (answer : Invocation (Dict × ℚ)) (target : Option (Id × ConflictCase)) :
    (analysisStep env settings s (answeredTurn s l answer target)).worker.Free := by
  have hfail : ∀ error, (analysisStep env settings s (.fail error target)).worker.Free := by
    intro error
    simp only [analysisStep, hworker]
    exact (failAsync_moves job id error target).1
  unfold answeredTurn
  cases answer with
  | error e => exact hfail _
  | ok p =>
    obtain ⟨output, confidence⟩ := p
    dsimp only
    cases hincident : s.feed.incidents.get l.incidentId with
    | none => exact hfail _
    | some incident =>
      simp only [Option.isSome_some, if_true, analysisStep, hworker, completeAsync, hincident]
      trivial

def requestsFor (job : Id) (calls : List (Id × ProviderCall)) : ℕ := calls.countP fun c => c.1 = job

/-- The requests of an execution are paid for with its credit. -/
theorem workerCalls_credit (env : AnswerEnv) (s : AnalysisState) (images : Invocation Unit)
    (first repair : ProviderReply) (job : Id) :
    requestsFor job (workerCalls env s images first repair) ≤ s.worker.credit job := by
  unfold workerCalls requestsFor
  cases s.worker with
  | idle | claimed | loaded | finishing => exact Nat.zero_le _
  | running k id l =>
    have hlength : (env.answer l images first repair).2.length ≤ 2 := answer_length
    dsimp only
    rw [List.countP_map]
    by_cases hk : k = job
    · simpa [AnalysisWorker.credit, Function.comp_def, hk] using hlength
    · simp [Function.comp_def, hk]

theorem providerCalls_le (env : AnswerEnv) (s : AnalysisState) (x : AnswerTurn) (job : Id) :
    requestsFor job (providerCalls env s x) ≤ s.worker.credit job := by
  cases x with
  | turn y => exact Nat.zero_le _
  | answer images first repair target => exact workerCalls_credit env s images first repair job
  | lost images first repair made error =>
    exact ((List.take_sublist made _).countP_le).trans (workerCalls_credit env s images first repair job)

/-- The worker that has made requests is free. -/
theorem free_of_providerCalls (hcalls : providerCalls env s x ≠ []) : (answerStep env s x).worker.Free := by
  have hrunning : ∀ (images : Invocation Unit) (first repair : ProviderReply),
      workerCalls env s images first repair ≠ [] → ∃ job id l, s.worker = .running job id l := by
    intro images first repair h
    unfold workerCalls at h
    split at h
    · rename_i job id l hworker
      exact ⟨job, id, l, hworker⟩
    · exact absurd rfl h
  cases x with
  | turn y => exact absurd rfl hcalls
  | answer images first repair target =>
    obtain ⟨job, id, l, hworker⟩ := hrunning images first repair hcalls
    unfold answerStep AnswerTurn.base
    rw [hworker]
    exact answeredTurn_free hworker _ _
  | lost images first repair made error =>
    have hall : workerCalls env s images first repair ≠ [] := by
      intro hnone
      refine hcalls ?_
      unfold providerCalls
      dsimp only
      rw [hnone, List.take_nil]
    obtain ⟨job, id, l, hworker⟩ := hrunning images first repair hall
    unfold answerStep AnswerTurn.base
    rw [hworker]
    cases error with
    | none => trivial
    | some e =>
      simp only [analysisStep, hworker]
      trivial

/-- **Requests are paid for with credit.** -/
theorem providerCalls_credit (env : AnswerEnv) (s : AnalysisState) (x : AnswerTurn) (job : Id) :
    requestsFor job (providerCalls env s x) + (answerStep env s x).worker.credit job + 2 * attemptsOf s.jobs job ≤
      s.worker.credit job + 2 * attemptsOf (answerStep env s x).jobs job := by
  have hmoves : WorkerMoves s (answerStep env s x) :=
    analysisStep_moves env.toEnv env.analysis s (x.base env s)
  by_cases hcalls : providerCalls env s x = []
  · rw [hcalls]
    change 0 + _ + _ ≤ _
    rw [Nat.zero_add]
    exact hmoves.credit job
  · have hle := providerCalls_le env s x job
    have hattempts : attemptsOf s.jobs job ≤ attemptsOf (answerStep env s x).jobs job := hmoves.attempts_le job
    rw [(free_of_providerCalls hcalls).credit]
    omega

theorem requests_step {calls : List (Id × ProviderCall)} {job : Id}
    (h : requestsFor job calls + s.worker.credit job ≤ 2 * attemptsOf s.jobs job) :
    requestsFor job (providerCalls env s x ++ calls) + (answerStep env s x).worker.credit job ≤
      2 * attemptsOf (answerStep env s x).jobs job := by
  have hcredit := providerCalls_credit env s x job
  have happend : requestsFor job (providerCalls env s x ++ calls) =
      requestsFor job (providerCalls env s x) + requestsFor job calls := List.countP_append
  omega

end Requests

/-- **Requests are paid for by attempts.** In every run, what the provider has been asked for a job is at most twice
the number of times that the job was claimed. -/
theorem requests_are_paid_for (env : AnswerEnv) (now : Time) (incidents : Table Incident) (steps : List AnswerTurn)
    (job : Id) :
    requestsFor job (records (answerStep env) (providerCalls env) (.initial now incidents) steps) ≤
      2 * attemptsOf (answerRun env now incidents steps).jobs job := by
  have hpaid := records_invariant (answerStep env) (providerCalls env) (C := fun _ _ => True)
    (I := fun s calls => requestsFor job calls + s.worker.credit job ≤ 2 * attemptsOf s.jobs job)
    (fun s calls x hs _ => requests_step hs) le_rfl (along_true _ (.initial now incidents) steps)
  exact (Nat.le_add_right _ _).trans hpaid

end CrisisMosaic
