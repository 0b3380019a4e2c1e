import CrisisMosaic.ConflictRoutes

/-!
# Conflict analyses

A requested analysis is stored with the revision of the case it is made for and
queued. The worker starts it, asks the model and stores the answer or the
failure; a failed analysis can be queued again.
-/

namespace CrisisMosaic
open Relational

def conflictPromptVersion : String := "cm-conflict-analysis-v1.1.0"

def unavailable (settings : Settings) : ApiError :=
  ⟨503, "AI_SERVICE_UNAVAILABLE", "AI 服务未配置；核心上报与人工处理功能仍可使用",
    [("provider", .str settings.aiProvider),
      ("hint", .str "请在 .env 中设置 AI_API_KEY，或在测试环境使用 AI_PROVIDER=fake")]⟩

section Context
variable (env : Env)

def imageItem (a : Option Attachment) : Json :=
  .obj [("status", .str (if a.any fun a => truthy a.sanitizedPath then "ready" else "unreadable")),
    ("sha256", optStr (a.bind (·.sha256))), ("perceptual_hash", optStr (a.bind (·.perceptualHash))),
    ("vision_status", .str (a.elim "missing" (·.visionStatus))),
    ("vision_summary", optStr (a.bind fun a => safeVisionSummary a.visionSummary)),
    ("width", .opt .nat (a.bind (·.width))), ("height", .opt .nat (a.bind (·.height)))]

def evidenceItem (attachments : Table Attachment) (id : Id) (e : ConflictEvidence) : Dict :=
  [("id", .ref id), ("kind", .str e.kind.text), ("source_id", .ref e.sourceId),
    ("source_revision", .nat e.sourceRevision), ("source_cluster_id", optStr e.sourceClusterId),
    ("snapshot", .obj e.snapshot), ("snapshot_sha256", .str e.snapshotSha256),
    ("added_at", .time e.addedAt)] ++
  if e.kind = .attachment then [("image", imageItem (attachments.get e.sourceId))] else []

/-- `_evidence_timeline_value` -/
def timelineValue (e : ConflictEvidence) : String :=
  let nested := ((e.snapshot.get "location").bind Json.asDict).getD []
  let values := [e.snapshot.get "observed_at", nested.get "observed_at",
    e.snapshot.get "captured_at", e.snapshot.get "updated_at", e.snapshot.get "created_at",
    e.snapshot.get "received_at", some (.time e.addedAt)]
  match values.findSome? fun v => v.filter fun j => !(j matches .null) && !Json.isStr "" j with
  | some v => env.str v
  | none => ""

def timelined (rows : List (Id × ConflictEvidence)) : List (Id × ConflictEvidence) :=
  rows.insertionSort fun a b =>
    timelineValue env a.2 < timelineValue env b.2 ∨
      timelineValue env a.2 = timelineValue env b.2 ∧ a.1 ≤ b.1

def buildConflictContext (attachments : Table Attachment) (s : Store) (id : Id) (x : ConflictCase)
    (requested : List Id) : Result (Dict × List Id) := do
  let allowed := currentEvidence s.evidence id
  let rows := allowed.filterMap fun i => (s.evidence.get i).map fun e => (i, e)
  let unknown := requested.dedup.filter fun i =>
    !allowed.contains i && !(rows.map (·.2.sourceId)).contains i
  require (unknown = [])
    ⟨422, "EVIDENCE_NOT_FOUND", "请求包含不属于当前冲突的证据",
      [("unknown_evidence_ids", .arr (unknown.map .ref))]⟩
  require (rows ≠ []) (unprocessable "AI_CONTEXT_EMPTY" "冲突没有当前有效证据")
  let items := (timelined env rows).map fun r => Json.obj (evidenceItem attachments r.1 r.2 ++
    [("timeline_at", .str (timelineValue env r.2))])
  pure
    ([("conflict", .obj [("id", .ref id), ("revision", .nat x.revision), ("title", .str x.title),
        ("fact_key", .str x.factKey), ("topic", .str x.topic),
        ("location_text", .str x.place.locationText), ("status", .str x.status.text)]),
      ("evidence", .arr items),
      ("data_as_of", optTime ((rows.map (·.2.addedAt)).max?)),
      ("rules", .obj [("all_current_evidence_included", .bool true),
        ("duplicate_clusters_are_single_sources", .bool true),
        ("human_decision_required", .bool true)])], allowed)

end Context

section Enqueue
variable (env : Env) (now : Time)

def setCaseStatus (s : Store) (id : Id) (status : CaseStatus) : Store :=
  s.updateCase id fun x => { x with status := status }

def sameContext (hash : String) (a : AiAnalysis) : Bool :=
  a.analysisType = .conflictAnalysis && a.status = .succeeded && !a.isStale &&
    a.contextSha256 = some hash && a.modelName = env.settings.aiVisionModel &&
    a.promptVersion = conflictPromptVersion

def queuedAnalysis (id : Id) (x : ConflictCase) (actor : Actor) (context : Dict) (hash : String)
    (allowed : List Id) : AiAnalysis :=
  { incidentId := x.incidentId
    analysisType := .conflictAnalysis
    status := .queued
    inputSnapshot := [("conflict_id", .ref id), ("conflict_revision", .nat x.revision),
      ("allowed_evidence_ids", .arr (allowed.map .ref))]
    contextPackage := some context
    contextSha256 := some hash
    output := none
    confidence := none
    modelProvider := env.settings.aiProvider
    modelName := env.settings.aiVisionModel
    promptVersion := conflictPromptVersion
    errorCode := none
    errorMessage := none
    createdByType := actor.subjectType
    createdById := actor.subjectId
    inputVersion := x.revision
    isStale := false
    staleAt := none
    staleReason := none
    createdAt := now
    completedAt := none }

def analysisJob (analysisId : Id) : BackgroundJob :=
  { jobType := .aiAnalysis
    status := .queued
    payload := [("analysis_id", .ref analysisId)]
    attempts := 0
    maxAttempts := env.settings.jobMaxAttempts
    runAfter := now
    leaseExpiresAt := none
    lastError := none
    updatedAt := now }

def Store.addAnalysis (s : Store) (a : AiAnalysis) : Store :=
  { s with feed := { s.feed with analyses := s.feed.analyses.insert a } }

/-- The analysis that answers the request, and the job for a new one. -/
def enqueueConflictAnalysis (attachments : Table Attachment) (s : Store)
    (jobs : Table BackgroundJob) (id : Id) (x : ConflictCase) (actor : Actor) (revision : ℕ)
    (requested : List Id) : Result (Store × Table BackgroundJob × Id × Bool) := do
  require env.settings.aiConfigured (unavailable env.settings)
  require (x.revision = revision)
    (conflictError "REVISION_CONFLICT" "冲突版本已变化"
      [("expected", .nat revision), ("current", .nat x.revision)])
  let (context, allowed) ← buildConflictContext env attachments s id x requested
  let hash := env.canonicalSha256 (.obj context)
  match (newestFirst s.feed.analyses (·.createdAt)
      (s.feed.analyses.select (sameContext env hash))).head? with
  | some existing => pure (setCaseStatus s id .analysisReady, jobs, existing, true)
  | none =>
      let s := setCaseStatus s id .analyzing
      let analysisId := s.feed.analyses.size
      pure (s.addAnalysis (queuedAnalysis env now id x actor context hash allowed),
        jobs.insert (analysisJob env now analysisId), analysisId, false)

/-- The incident a request names is the case's own. -/
def namesIncident (incidents : Table Incident) (id : Id) : Ref → Bool
  | .id i => i = id
  | .name s => (incidents.find fun x => x.aliasName = some s).any (·.1 = id)

def requestAnalysis (db : Db) (actor : Actor) (header : Option Ref) (conflictId : Ref)
    (incident : Option Ref) (revision : ℕ) (requested : List Id) : Result Db := do
  require actor.isOperator (forbidden "OPERATOR_REQUIRED" "仅指挥人员可请求冲突研判")
  let (id, x) ← (getCase db.cases conflictId).mapError fun _ =>
    ⟨404, "CONFLICT_NOT_FOUND", "冲突不存在", []⟩
  ensureIncidentAccess actor (.id x.incidentId) header
  require (incident.all (namesIncident db.feed.incidents x.incidentId))
    (incidentContextMismatch "请求事件与冲突不一致")
  let (s, jobs, analysisId, ready) ←
    enqueueConflictAnalysis env now db.attachments db.toStore db.jobs id x actor revision requested
  let _ ← found (s.feed.incidents.get x.incidentId) ⟨404, "INCIDENT_NOT_FOUND", "事件不存在", []⟩
  let y := { x with status := if ready then .analysisReady else .analyzing }
  let s := (s.projectCase env now id y).emit now y.incidentId
    (caseEvent (if ready then "conflict.analysis_ready" else "conflict.analysis_requested") id
      y.revision [("analysis_id", .ref analysisId),
        ("status", .str (if ready then "succeeded" else "queued"))])
  pure { db with toStore := s, jobs := jobs }

end Enqueue

section Worker
variable (env : Env) (now : Time)

def getAnalysis (feed : Feed) (id : Id) : Result AiAnalysis := do
  let a ← found (feed.analyses.get id) ⟨404, "ANALYSIS_NOT_FOUND", "AI 分析不存在", []⟩
  require (a.analysisType = .conflictAnalysis)
    (unprocessable "ANALYSIS_TYPE_UNSUPPORTED" "不支持的 AI 分析类型")
  pure a

def Store.writeAnalysis (s : Store) (id : Id) (a : AiAnalysis) : Store :=
  { s with feed := { s.feed with analyses := s.feed.analyses.modify id fun _ => a } }

def startAnalysis (s : Store) (id : Id) : Result Store := do
  let a ← getAnalysis s.feed id
  pure (s.writeAnalysis id { a with status := .running, errorCode := none, errorMessage := none })

/-- The case an analysis is about. -/
def AiAnalysis.case? (a : AiAnalysis) (cases : Table ConflictCase) : Option (Id × ConflictCase) :=
  ((a.inputSnapshot.get "conflict_id").bind Json.asRef).bind fun id =>
    (cases.get id).map fun x => (id, x)

def isOutdated (a : AiAnalysis) (target : Option (Id × ConflictCase)) : Bool :=
  !(target.any fun t => t.2.revision = a.inputVersion)

/-- The row as the worker writes it. An outdated answer is marked stale only when the worker,
which read the row when it started, did not see it stale: the attribute is then a change. -/
def completedAnalysis (a : AiAnalysis) (output : Dict) (confidence : ℚ) (seenStale outdated : Bool) :
    AiAnalysis :=
  { a with
    output := some output
    confidence := some confidence
    status := .succeeded
    isStale := a.isStale || (outdated && !seenStale)
    staleAt := if outdated then some now else a.staleAt
    staleReason := if outdated then some "conflict_revision_changed_during_analysis" else a.staleReason
    completedAt := some now }

def analysisEvent (eventType : String) (a : AiAnalysis) (target : Option (Id × ConflictCase))
    (payload : Dict) : Event :=
  { eventType := eventType
    resourceType := .conflict
    resourceId := target.map (·.1)
    resourceRevision := some (target.elim a.inputVersion (·.2.revision))
    payload := payload }

def retarget (s : Store) (target : Option (Id × ConflictCase)) (status : CaseStatus) : Store :=
  match target with
  | some (id, x) => (setCaseStatus s id status).projectCase env now id { x with status := status }
  | none => s

/-- An analysis that is not about the present case leaves it open again. -/
def releaseCase (s : Store) (target : Option (Id × ConflictCase)) : Store :=
  if target.any fun t => t.2.status = .analyzing then retarget env now s target .opened else s

def completeAnalysis (s : Store) (id : Id) (output : Dict) (confidence : ℚ) (seenStale : Bool) :
    Result Store := do
  let a ← getAnalysis s.feed id
  let target := a.case? s.cases
  let outdated := isOutdated a target
  let _ ← found (s.feed.incidents.get a.incidentId) ⟨404, "INCIDENT_NOT_FOUND", "事件不存在", []⟩
  let s := s.writeAnalysis id (completedAnalysis now a output confidence seenStale outdated)
  let stale := seenStale || outdated
  let s := if stale then releaseCase env now s target else retarget env now s target .analysisReady
  pure (s.emit now a.incidentId (analysisEvent "conflict.analysis_ready" a target
    [("analysis_id", .ref id), ("is_stale", .bool stale), ("confidence", .num confidence)]))

def failAnalysis (s : Store) (id : Id) (error : ApiError) : Result Store := do
  let a ← getAnalysis s.feed id
  let target := a.case? s.cases
  let b := { a with
    status := .failed
    errorCode := some error.code
    errorMessage := some error.message
    completedAt := some now }
  let s := s.writeAnalysis id b
  if (s.feed.incidents.get a.incidentId).isNone then pure s
  else
    pure ((releaseCase env now s target).emit now a.incidentId
      (analysisEvent "conflict.analysis_failed" a target
        [("analysis_id", .ref id), ("error_code", .str error.code)]))

def retryAnalysis (db : Db) (actor : Actor) (header : Option Ref) (id : Id) : Result Db := do
  let a ← getAnalysis db.feed id
  ensureIncidentAccess actor (.id a.incidentId) header
  require (actor.isOperator = true ∨ a.createdById = actor.subjectId)
    (forbidden "ANALYSIS_ACCESS_DENIED" "无权重试该 AI 分析")
  require env.settings.aiConfigured (unavailable env.settings)
  require (a.status = .failed) (conflictError "ANALYSIS_NOT_RETRYABLE" "仅失败的分析可以重试" [])
  let s := db.toStore.writeAnalysis id
    { a with
      status := .queued
      isStale := false
      staleAt := none
      staleReason := none
      errorCode := none
      errorMessage := none
      completedAt := none
      output := none
      confidence := none }
  pure { db with toStore := s, jobs := db.jobs.insert (analysisJob env now id) }

end Worker
end CrisisMosaic
