import CrisisMosaic.AiQueue
import CrisisMosaic.Briefs
import CrisisMosaic.Jobs
import CrisisMosaic.JsonEquality
import CrisisMosaic.Relational.Run

/-!
# Analyses and the jobs that make them

Command briefs and conflict analyses are queued with a job each. The worker claims a
job, loads the analysis, starts it, and stores the answer or the failure, each in a
transaction of its own; other transactions commit in between. What the worker writes
are the columns it changed since it loaded the row. The cases are not part of the
state: a step that reads one is given the row it finds.
-/

namespace CrisisMosaic
open Relational

def commandBriefPromptVersion : String := "cm-command-brief-v1.0.0"

structure AnalysisSettings where
  aiBriefModel : String
  jobLeaseSeconds : ℤ

namespace AiAnalysis
section Rows
variable (now : Time)

/-- The columns the worker writes, for a session that held `loaded`. -/
def save (loaded value stored : AiAnalysis) : AiAnalysis :=
  { stored with
    status := written loaded.status value.status stored.status
    output := written loaded.output value.output stored.output
    confidence := written loaded.confidence value.confidence stored.confidence
    errorCode := written loaded.errorCode value.errorCode stored.errorCode
    errorMessage := written loaded.errorMessage value.errorMessage stored.errorMessage
    isStale := written loaded.isStale value.isStale stored.isStale
    staleAt := written loaded.staleAt value.staleAt stored.staleAt
    staleReason := written loaded.staleReason value.staleReason stored.staleReason
    completedAt := written loaded.completedAt value.completedAt stored.completedAt }

def started (a : AiAnalysis) : AiAnalysis :=
  { a with status := .running, errorCode := none, errorMessage := none }

/-- `_complete_async_analysis`: an answer about something that has moved since is stale. -/
def answered (a : AiAnalysis) (output : Dict) (confidence : ℚ) (staleReason : Option String) :
    AiAnalysis :=
  { a with
    output := some output
    confidence := some confidence
    status := .succeeded
    isStale := a.isStale || staleReason.isSome
    staleAt := if staleReason.isSome then some now else a.staleAt
    staleReason := if staleReason.isSome then staleReason else a.staleReason
    completedAt := some now }

def failed (a : AiAnalysis) (error : ApiError) : AiAnalysis :=
  { a with
    status := .failed
    errorCode := some error.code
    errorMessage := some error.message
    completedAt := some now }

def requeued (a : AiAnalysis) : AiAnalysis :=
  { a with
    status := .queued
    isStale := false
    staleAt := none
    staleReason := none
    errorCode := none
    errorMessage := none
    completedAt := none
    output := none
    confidence := none }

end Rows
end AiAnalysis

inductive AnalysisWorker
  | idle
  | claimed (job : Id)
  | loaded (job analysis : Id) (a : AiAnalysis)
  | running (job analysis : Id) (a : AiAnalysis)
  | finishing (job : Id) (error : Option ApiError)

structure AnalysisState where
  now : Time
  feed : Feed
  jobs : Table (Job Id)
  worker : AnalysisWorker

namespace AnalysisState

def initial (now : Time) (incidents : Table Incident) : AnalysisState :=
  ⟨now, ⟨incidents, .empty, .empty, none, none⟩, .empty, .idle⟩

def emit (s : AnalysisState) (loaded : Table Incident) (incidentId : Id) (e : Event) : AnalysisState :=
  { s with feed := s.feed.transact s.now loaded [(incidentId, e)] }

def writeAnalysis (s : AnalysisState) (id : Id) (f : AiAnalysis → AiAnalysis) : AnalysisState :=
  { s with feed := { s.feed with analyses := s.feed.analyses.modify id f } }

def addJob (s : AnalysisState) (env : Env) (analysis : Id) : AnalysisState :=
  { s with jobs := s.jobs.insert (.enqueued s.now env.settings.jobMaxAttempts analysis) }

/-- The analysis with its job. -/
def enqueue (s : AnalysisState) (env : Env) (a : AiAnalysis) : AnalysisState :=
  { s with
    feed := { s.feed with analyses := s.feed.analyses.insert a }
    jobs := s.jobs.insert (.enqueued s.now env.settings.jobMaxAttempts s.feed.analyses.size) }

end AnalysisState

section Requests
variable (env : Env) (settings : AnalysisSettings) (s : AnalysisState)

def queuedBrief (incidentId : Id) (incident : Incident) (actor : Actor) (snapshot : Dict) :
    AiAnalysis :=
  { incidentId := incidentId
    analysisType := .commandBrief
    status := .queued
    inputSnapshot := snapshot
    contextPackage := some snapshot
    contextSha256 := some (env.canonicalSha256 (.obj snapshot))
    output := none
    confidence := none
    modelProvider := env.settings.aiProvider
    modelName := settings.aiBriefModel
    promptVersion := commandBriefPromptVersion
    errorCode := none
    errorMessage := none
    createdByType := actor.subjectType
    createdById := actor.subjectId
    inputVersion := incident.dataRevision
    isStale := false
    staleAt := none
    staleReason := none
    createdAt := s.now
    completedAt := none }

/-- The incident is read again under the lock. -/
def enqueueCommandBrief (actor : Actor) (header : Option Ref) (incidentId : Id) (snapshot : Dict) :
    Result AnalysisState := do
  require actor.isOperator (forbidden "OPERATOR_REQUIRED" "仅指挥人员可生成态势简报")
  ensureIncidentAccess actor (.id incidentId) header
  let incident ← found (s.feed.incidents.get incidentId) ⟨404, "INCIDENT_NOT_FOUND", "事件不存在", []⟩
  require env.settings.aiConfigured (unavailable env.settings)
  pure (s.enqueue env (queuedBrief env settings s incidentId incident actor snapshot))

/-- A request for an analysis of the case `x` that passed its checks, with the context built for
it: a fresh answer to the same context is used again. -/
def enqueueCaseAnalysis (actor : Actor) (id : Id) (x : ConflictCase) (context : Dict)
    (allowed : List Id) (loaded : Table Incident) : AnalysisState :=
  let hash := env.canonicalSha256 (.obj context)
  match (newestFirst s.feed.analyses (·.createdAt)
      (s.feed.analyses.select (sameContext env hash))).head? with
  | some existing => s.emit loaded x.incidentId (caseEvent "conflict.analysis_ready" id x.revision
      [("analysis_id", .ref existing), ("status", .str "succeeded")])
  | none => (s.enqueue env (queuedAnalysis env s.now id x actor context hash allowed)).emit loaded
      x.incidentId (caseEvent "conflict.analysis_requested" id x.revision
        [("analysis_id", .ref s.feed.analyses.size), ("status", .str "queued")])

def retryQueued (actor : Actor) (header : Option Ref) (id : Id) : Result AnalysisState := do
  let a ← found (s.feed.analyses.get id) ⟨404, "ANALYSIS_NOT_FOUND", "AI 分析不存在", []⟩
  ensureIncidentAccess actor (.id a.incidentId) header
  require (actor.isOperator = true ∨ a.createdById = actor.subjectId)
    (forbidden "ANALYSIS_ACCESS_DENIED" "无权重试该 AI 分析")
  require env.settings.aiConfigured (unavailable env.settings)
  require (a.status = .failed) (conflictError "ANALYSIS_NOT_RETRYABLE" "仅失败的分析可以重试" [])
  require (a.analysisType = .conflictAnalysis ∨ a.analysisType = .commandBrief)
    (conflictError "ANALYSIS_NOT_RETRYABLE"
      "同步上报整理不能通过异步分析队列重试，请重新提交整理请求" [])
  pure ((s.writeAnalysis id .requeued).addJob env id)

end Requests

section Worker
variable (s : AnalysisState)

/-- `_execute_job` before the analysis: a job that is not running is skipped. -/
def loadAnalysis (job : Id) : AnalysisWorker :=
  match s.jobs.get job with
  | none => .idle
  | some j =>
    if j.status ≠ .running then .idle
    else
      match s.feed.analyses.get j.payload with
      | none => .finishing job (some ⟨404, "ANALYSIS_NOT_FOUND", "AI 分析不存在", []⟩)
      | some a => .loaded job j.payload a

def briefEvent (eventType : String) (id : Id) (a : AiAnalysis) (payload : Dict) : Event :=
  { eventType := eventType
    resourceType := .aiAnalysis
    resourceId := some id
    resourceRevision := some a.inputVersion
    payload := payload }

/-- Why an answer is stale: what it is about has another revision than it was requested for. -/
def staleReason (a : AiAnalysis) (incident : Incident) (target : Option (Id × ConflictCase)) :
    Option String :=
  match a.analysisType with
  | .conflictAnalysis =>
    if isOutdated a target then some "conflict_revision_changed_during_analysis" else none
  | _ =>
    if incident.dataRevision ≠ a.inputVersion then
      some "incident_data_revision_changed_during_analysis"
    else none

def answeredEvent (id : Id) (a : AiAnalysis) (target : Option (Id × ConflictCase)) : Event :=
  match a.analysisType with
  | .conflictAnalysis => analysisEvent "conflict.analysis_ready" a target
      [("analysis_id", .ref id), ("is_stale", .bool a.isStale),
        ("confidence", .num (a.confidence.getD 0))]
  | _ => briefEvent (if a.isStale then "command_brief.stale" else "command_brief.ready") id a
      [("analysis_id", .ref id), ("is_stale", .bool a.isStale)]

def failureEvent (id : Id) (a : AiAnalysis) (target : Option (Id × ConflictCase)) (error : ApiError) :
    Event :=
  match a.analysisType with
  | .conflictAnalysis => analysisEvent "conflict.analysis_failed" a target
      [("analysis_id", .ref id), ("error_code", .str error.code)]
  | _ => briefEvent "command_brief.failed" id a
      [("analysis_id", .ref id), ("error_code", .str error.code)]

/-- The answer to the analysis the session holds as `a`. Without its incident the transaction is
rolled back. -/
def completeAsync (job id : Id) (a : AiAnalysis) (output : Dict) (confidence : ℚ)
    (target : Option (Id × ConflictCase)) : AnalysisState :=
  match s.feed.incidents.get a.incidentId with
  | none => s
  | some incident =>
    let b := a.answered s.now output confidence (staleReason a incident target)
    { (s.writeAnalysis id (a.save b)).emit s.feed.incidents a.incidentId (answeredEvent id b target) with
      worker := .finishing job none }

/-- The session is rolled back and reads the row again. -/
def failAsync (job id : Id) (error : ApiError) (target : Option (Id × ConflictCase)) : AnalysisState :=
  match s.feed.analyses.get id with
  | none => { s with worker := .finishing job (some error) }
  | some a =>
    let t := s.writeAnalysis id fun a => a.failed s.now error
    match s.feed.incidents.get a.incidentId with
    | none => { t with worker := .finishing job (some error) }
    | some _ => { t.emit s.feed.incidents a.incidentId
        (failureEvent id (a.failed s.now error) target error) with
      worker := .finishing job (some error) }

end Worker

inductive AnalysisTurn
  | tick (elapsed : ℕ)
  /-- Another transaction: conflict analyses are marked stale, events are emitted. -/
  | commit (loaded : Table Incident) (staled : List (Id × Id × String)) (events : List (Id × Event))
  | requestBrief (actor : Actor) (header : Option Ref) (incident : Id) (snapshot : Dict)
  | requestAnalysis (actor : Actor) (case : Id) (x : ConflictCase) (context : Dict)
      (allowed : List Id) (loaded : Table Incident)
  | retry (actor : Actor) (header : Option Ref) (analysis : Id)
  | claim
  | load
  | start
  | complete (output : Dict) (confidence : ℚ) (target : Option (Id × ConflictCase))
  | fail (error : ApiError) (target : Option (Id × ConflictCase))
  /-- An exception that is not recorded, as of a commit that fails. -/
  | abort (error : ApiError)
  | finish
  | restart

def AnalysisState.markStale (s : AnalysisState) (staled : List (Id × Id × String)) : AnalysisState :=
  { s with
    feed := staled.foldl (fun feed x => feed.markAnalysesStale s.now x.1 x.2.1 x.2.2) s.feed }

section System
variable (env : Env) (settings : AnalysisSettings)

def analysisStep (s : AnalysisState) : AnalysisTurn → AnalysisState
  | .tick elapsed => { s with now := s.now + elapsed }
  | .commit loaded staled events =>
    { s.markStale staled with feed := (s.markStale staled).feed.transact s.now loaded events }
  | .requestBrief actor header incidentId snapshot =>
    commit s (enqueueCommandBrief env settings s actor header incidentId snapshot)
  | .requestAnalysis actor id x context allowed loaded =>
    enqueueCaseAnalysis env s actor id x context allowed loaded
  | .retry actor header id => commit s (retryQueued env s actor header id)
  | .claim =>
    match s.worker, claimJob s.now settings.jobLeaseSeconds s.jobs with
    | .idle, some (job, jobs) => { s with jobs := jobs, worker := .claimed job }
    | _, _ => s
  | .load =>
    match s.worker with
    | .claimed job => { s with worker := loadAnalysis s job }
    | _ => s
  | .start =>
    match s.worker with
    | .loaded job id a => { s.writeAnalysis id (a.save a.started) with worker := .running job id a.started }
    | _ => s
  | .complete output confidence target =>
    match s.worker with
    | .running job id a => completeAsync s job id a output confidence target
    | _ => s
  | .fail error target =>
    match s.worker with
    | .running job id _ => failAsync s job id error target
    | _ => s
  | .abort error =>
    match s.worker with
    | .loaded job _ _ | .running job _ _ => { s with worker := .finishing job (some error) }
    | _ => s
  | .finish =>
    match s.worker with
    | .finishing job error =>
      { s with
        jobs := finishJob s.now (error.map ("ApiError: " ++ ·.message)) s.jobs job
        worker := .idle }
    | _ => s
  | .restart => { s with worker := .idle }

abbrev analysisRun (now : Time) (incidents : Table Incident) (steps : List AnalysisTurn) :
    AnalysisState := run (analysisStep env settings) (.initial now incidents) steps

end System
end CrisisMosaic
