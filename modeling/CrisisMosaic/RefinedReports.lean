import CrisisMosaic.Refinements

/-!
# Reports submitted with a refinement

The requests of `refine_report` and the operations of the service in one run. What an operation
learns of the refinement it is made with is what `validate_report_refinement` answers in the
state the operation finds.
-/

namespace CrisisMosaic
open Relational

/-- The settings of the refinement service. -/
structure RefinementEnv extends Env where
  mediaMaxAttachmentCount : ℕ
  aiReportModel : String

structure RefinedState where
  db : Db
  uploads : Table Upload
  refinements : Table AiAnalysis
  /-- The request an analysis was made for, until it is answered. -/
  pending : Table (Option (Actor × ReportRefinementRequest))

namespace RefinedState

def tables (s : RefinedState) : RefinementTables := ⟨s.db.attachments, s.uploads, s.refinements⟩

def initial (db : Db) (uploads : Table Upload) : RefinedState := ⟨db, uploads, .empty, .empty⟩

end RefinedState

/-! ## `refine_report` -/

section Refining
variable (env : RefinementEnv) (now : Time) (s : RefinedState)

/-- The report a refinement is asked for is there as the request knows it. -/
def boundReport (actor : Actor) (request : ReportRefinementRequest) : Result (Option Id) :=
  match request.report with
  | none => pure none
  | some (id, revision) => do
    require ((s.db.reports.get id).any fun r => r.incidentId = request.incidentId &&
        r.reporterDeviceId = actor.subjectId && r.deletedAt.isNone && r.revision = revision)
      (unprocessable "AI_REPORT_CONTEXT_INVALID" "AI 上报整理请求中的报告上下文不存在或已过期")
    pure (some id)

/-- `build_report_refinement_context` -/
def buildReportRefinementContext (actor : Actor) (request : ReportRefinementRequest)
    (details : Id → Dict) : Result Dict := do
  let bound ← boundReport s actor request
  if request.attachmentIds = [] then
    pure (reportInputPayload request (if request.report.isSome then some [] else none))
  else do
    loadOwnAttachments s.db.attachments request.incidentId actor bound request.attachmentIds
    pure (reportInputPayload request (some (request.attachmentIds.map
      (reportAttachmentContext s.db.attachments s.uploads details))))

def runningRefinement (actor : Actor) (request : ReportRefinementRequest) (payload : Dict) :
    AiAnalysis :=
  { incidentId := request.incidentId
    analysisType := .reportRefinement
    status := .running
    inputSnapshot := payload
    contextPackage := some payload
    contextSha256 := some (env.canonicalSha256 (.obj payload))
    output := none
    confidence := none
    modelProvider := env.settings.aiProvider
    modelName := env.aiReportModel
    promptVersion := "cm-report-refinement-v1.2.0"
    errorCode := none
    errorMessage := none
    createdByType := actor.subjectType
    createdById := actor.subjectId
    inputVersion := (request.report.map (·.2)).getD 0
    isStale := false
    staleAt := none
    staleReason := none
    createdAt := now
    completedAt := none }

/-- The endpoint up to the call of the model. -/
def requestRefinement (actor : Actor) (header : Option Ref) (request : ReportRefinementRequest)
    (details : Id → Dict) : Result AiAnalysis := do
  require (request.attachmentIds.length ≤ env.mediaMaxAttachmentCount)
    (unprocessable "VALIDATION_ERROR"
      "attachment_ids must not exceed the configured media attachment count")
  ensureIncidentAccess actor (.id request.incidentId) header
  require actor.isResident (forbidden "RESIDENT_REQUIRED" "仅居民可请求上报整理建议")
  require (s.db.feed.incidents.get request.incidentId).isSome
    ⟨404, "INCIDENT_NOT_FOUND", "事件不存在", []⟩
  require env.settings.aiConfigured (unavailable env.settings)
  let payload ← buildReportRefinementContext s actor request details
  pure (runningRefinement env now actor request payload)

def refinementEvent (actor : Actor) (id : Id) (eventType : String) (payload : Dict) : Event :=
  { eventType := eventType
    resourceType := .aiAnalysis
    resourceId := some id
    resourceRevision := some 0
    payload := payload
    visibility := .owner
    ownerDeviceId := some actor.subjectId }

def succeededRefinement (output : ReportRefinementOutput) (a : AiAnalysis) : AiAnalysis :=
  { a with
    status := .succeeded
    output := some output.dump
    confidence := some output.confidence
    completedAt := some now }

def failedRefinement (error : ApiError) (a : AiAnalysis) : AiAnalysis :=
  { a with
    status := .failed
    errorCode := some error.code
    errorMessage := some error.message
    completedAt := some now }

/-- The model answers, or fails; an answer that breaks the contract is a failure too. -/
def answerRefinement (id : Id) (answer : Result ReportRefinementOutput) : RefinedState :=
  match s.refinements.get id, s.pending.get id with
  | some a, some (some (actor, request)) =>
    let outcome := do
      let output ← answer
      validateReportRefinementContract env.text request output
      pure output
    let (row, eventType, payload) : AiAnalysis × String × Dict :=
      match outcome with
      | .ok output => (succeededRefinement now output a, "ai.report_refinement.ready",
          [("analysis_id", .ref id), ("status", .str "succeeded")])
      | .error e => (failedRefinement now e a, "ai.report_refinement.failed",
          [("analysis_id", .ref id), ("error_code", .str e.code)])
    { s with
      db := s.db.begin.emit now a.incidentId (refinementEvent actor id eventType payload)
      refinements := s.refinements.modify id fun _ => row
      pending := s.pending.modify id fun _ => none }
  | _, _ => s

end Refining

/-! ## The operations -/

section Resolving
variable (env : Env) (s : RefinedState) (op : Op)

def refinedPriority (analysisId : Option Id) (check : Id → Result AiAnalysis) :
    Result (Option Priority) :=
  match analysisId with
  | none => pure none
  | some id => do
    let analysis ← check id
    pure (aiPriorityFromRefinement (some analysis))

def createRefinement (incident : Ref) (payload : ReportCreate) : Result (Option Priority) := do
  let (incidentId, _) ← getIncident s.db.feed.incidents incident
  refinedPriority payload.aiRefinementId fun id => checkedRefinement env s.tables op.actor id incidentId
    payload.category payload.contentOriginal payload.location.text payload.attachmentIds {}

/-- The ids of the attachments of a report, in order. -/
def boundAttachmentIds (attachments : Table Attachment) (id : Id) : List Id :=
  attachments.select fun a => a.reportId = some id

def patchRefinement (id : Id) (payload : ReportPatch) : Result (Option Priority) := do
  let report ← openReport s.db op.actor op.header id payload.revision
  let report ← payload.applyTo env op.now s.db.contacts.size report
  let (attachments, report) ← payload.rebind s.db.attachments id report
  let reuse := report.aiRefinementId.isSome && payload.aiRefinementId.isNone && !payload.detachesRefinement
  refinedPriority report.aiRefinementId fun analysisId =>
    checkedRefinement env { s.tables with attachments := attachments } op.actor analysisId
      report.incidentId report.category report.contentOriginal report.place.locationText
      (boundAttachmentIds attachments id)
      { reportId := some id
        reportRevision := some payload.revision
        boundReportId := if reuse then some id else none
        useStoredReportContext := reuse }

def priorityRefinement (id revision : ℕ) : Result (Option Priority) := do
  let report ← openReport s.db op.actor op.header id revision
  refinedPriority report.aiRefinementId fun analysisId =>
    checkedRefinement env s.tables op.actor analysisId report.incidentId report.category
      report.contentOriginal report.place.locationText (boundAttachmentIds s.db.attachments id)
      { boundReportId := some id, useStoredReportContext := true }

/-- The operation with what its validation finds. -/
def RefinedState.resolve : Op :=
  { op with
    call :=
      match op.call with
      | .postReport incident payload _ contact =>
          .postReport incident payload (createRefinement env s op incident payload) contact
      | .patchReport report payload _ =>
          .patchReport report payload (patchRefinement env s op report payload)
      | .patchReportPriority report revision priority _ =>
          .patchReportPriority report revision priority (priorityRefinement env s op report revision)
      | call => call }

end Resolving

inductive RefinedStep
  | op (op : Op)
  | refine (now : Time) (actor : Actor) (header : Option Ref) (request : ReportRefinementRequest)
      (details : Id → Dict)
  | answer (now : Time) (analysis : Id) (answer : Result ReportRefinementOutput)
  /-- The upload service rewrites its rows. -/
  | uploads (uploads : Table Upload)

def refinedStep (env : RefinementEnv) (s : RefinedState) : RefinedStep → RefinedState
  | .op op => { s with db := step env.toEnv s.db (s.resolve env.toEnv op) }
  | .refine now actor header request details =>
    match requestRefinement env now s actor header request details with
    | .ok a =>
      { s with
        refinements := s.refinements.insert a
        pending := s.pending.insert (some (actor, request)) }
    | .error _ => s
  | .answer now id answer => answerRefinement env now s id answer
  | .uploads uploads => { s with uploads := uploads }

abbrev refinedRun (env : RefinementEnv) (s : RefinedState) (steps : List RefinedStep) : RefinedState :=
  run (refinedStep env) s steps

end CrisisMosaic
