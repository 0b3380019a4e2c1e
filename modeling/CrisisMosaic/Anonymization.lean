import CrisisMosaic.Relational.Erasure
import CrisisMosaic.Retention

/-!
# What a pass overwrites

The rows of an expired incident in the tables of reports, answers, fragments, evidence,
analyses and map features, as `_anonymize_incident` overwrites them. Rows with an `updated_at`
column get the time of the flush there when they change.
-/

namespace CrisisMosaic
open Relational

deriving instance DecidableEq for DirectedAnswer

structure DirectedAnswerRevision where
  answerId : Id
  revision : ℕ
  snapshot : Dict
  createdAt : Time

/-- A row of `information_fragments`, whose status may also be `expired`. -/
structure FragmentRow where
  incidentId : Id
  sourceType : SourceType
  sourceRefId : Option Id
  sourceClusterId : Option String
  topic : String
  claimKey : Option String
  claimValue : Option String
  label : String
  description : String
  place : Place
  shape : String
  status : String
  confidence : ℚ
  observedAt : Option Time
  receivedAt : Time
  revision : ℕ
  createdAt : Time
  updatedAt : Time
  deriving DecidableEq

/-- A row of `map_features`, whose status may also be `expired`. -/
structure FeatureRow where
  incidentId : Id
  kind : FeatureKind
  sourceRef : Id
  title : String
  status : String
  severity : Priority
  position : Option NormalizedCoordinates
  revision : ℕ
  isDeleted : Bool
  publicData : Dict
  privateData : Dict
  createdAt : Time
  updatedAt : Time
  deriving DecidableEq

def AnalysisType.text : AnalysisType → String
  | .reportRefinement => "report_refinement"
  | .conflictAnalysis => "conflict_analysis"
  | .commandBrief => "command_brief"

def retentionExpired : String × Json := ("retention_expired", .bool true)

/-- `snapshot.get("retention_expired") is True` -/
def isRetentionExpired (snapshot : Dict) : Bool := snapshot.get "retention_expired" = some (.bool true)

section Rows
variable (env : Env) (now : Time)

def anonymizeAnswer (a : DirectedAnswer) : DirectedAnswer :=
  { a with
    optionId := retentionMarker
    semanticValue := retentionMarker
    answerText := retentionMarker
    observedLatitude := none
    observedLongitude := none
    observedCoordinateSystem := none }

def anonymizeFragment (f : FragmentRow) : FragmentRow :=
  { f with
    sourceRefId := none
    sourceClusterId := none
    claimKey := none
    claimValue := none
    label := retentionMarker
    description := retentionMarker
    place := ⟨retentionMarker, none, none, none⟩
    status := "expired"
    confidence := 0
    observedAt := none }

def anonymizeFeature (f : FeatureRow) : FeatureRow :=
  { f with
    title := retentionMarker
    status := "expired"
    position := none
    isDeleted := true
    publicData := []
    privateData := [] }

def FeatureRow.isProjected (f : FeatureRow) : Bool := f.kind = .report || f.kind = .fragment

def markRevision (r : ReportRevision) : ReportRevision :=
  { r with
    snapshot := [retentionExpired, ("report_id", .ref r.reportId), ("revision", .nat r.revision)] }

def markAnswerRevision (r : DirectedAnswerRevision) : DirectedAnswerRevision :=
  { r with
    snapshot := [retentionExpired, ("answer_id", .ref r.answerId), ("revision", .nat r.revision)] }

def markEvidence (e : ConflictEvidence) : ConflictEvidence :=
  let snapshot := [retentionExpired, ("kind", .str e.kind.text), ("source_id", .ref e.sourceId),
    ("source_revision", .nat e.sourceRevision)]
  { e with
    snapshot := snapshot
    snapshotSha256 := env.canonicalSha256 (.obj snapshot)
    sourceClusterId := none }

def markAnalysis (a : AiAnalysis) : AiAnalysis :=
  { a with
    inputSnapshot := [retentionExpired, ("analysis_type", .str a.analysisType.text),
      ("input_version", .nat a.inputVersion)]
    contextPackage := a.contextPackage.map fun _ => [retentionExpired]
    contextSha256 :=
      if a.contextPackage.isSome then some (env.canonicalSha256 (.obj [retentionExpired]))
      else a.contextSha256
    output := a.output.map fun _ => [retentionExpired]
    isStale := true
    staleAt := some (a.staleAt.getD now)
    staleReason := some "retention_expired" }

end Rows

/-- The tables that the pass works on. -/
structure ResidentDb where
  incidents : Table Incident
  closedAt : Table (Option Time)
  questions : Table DirectedQuestion
  cases : Table ConflictCase
  reports : Table Report
  revisions : Table ReportRevision
  answers : Table DirectedAnswer
  answerRevisions : Table DirectedAnswerRevision
  fragments : Table FragmentRow
  evidence : Table ConflictEvidence
  analyses : Table AiAnalysis
  features : Table FeatureRow

/-- The incidents of the rows that others refer to. -/
structure Owners where
  report : Id → Option Id
  question : Id → Option Id
  answer : Id → Option Id
  conflict : Id → Option Id

def ResidentDb.owners (db : ResidentDb) : Owners where
  report := fun i => (db.reports.get i).map (·.incidentId)
  question := fun i => (db.questions.get i).map (·.incidentId)
  answer := fun i => (db.answers.get i).bind fun a => (db.questions.get a.questionId).map (·.incidentId)
  conflict := fun i => (db.cases.get i).map (·.incidentId)

section Pass
variable (env : Env) (now stamped : Time)

def eraseReport (r : Report) : Report :=
  flushed (fun r => { r with updatedAt := stamped }) r (anonymizeReport now r)

def eraseRevision : ReportRevision → ReportRevision :=
  eraseUnless (fun r => isRetentionExpired r.snapshot) markRevision

def eraseAnswer (a : DirectedAnswer) : DirectedAnswer :=
  flushed (fun a => { a with updatedAt := stamped }) a (anonymizeAnswer a)

def eraseAnswerRevision : DirectedAnswerRevision → DirectedAnswerRevision :=
  eraseUnless (fun r => isRetentionExpired r.snapshot) markAnswerRevision

def eraseFragment (f : FragmentRow) : FragmentRow :=
  flushed (fun f => { f with updatedAt := stamped }) f (anonymizeFragment f)

def eraseEvidence : ConflictEvidence → ConflictEvidence :=
  eraseUnless (fun e => isRetentionExpired e.snapshot) (markEvidence env)

def eraseAnalysis : AiAnalysis → AiAnalysis :=
  eraseUnless (fun a => isRetentionExpired a.inputSnapshot) (markAnalysis env now)

/-- The projections of conflicts, blind spots and facts are left. -/
def eraseFeature (f : FeatureRow) : FeatureRow :=
  if f.isProjected then flushed (fun f => { f with updatedAt := stamped }) f (anonymizeFeature f) else f

/-- `_anonymize_incident` -/
def anonymizeIncident (db : ResidentDb) (incidentId : Id) : ResidentDb :=
  let o := db.owners
  { db with
    reports := anonymizeReports now stamped db.reports incidentId
    revisions := eraseOwned (fun r => o.report r.reportId) eraseRevision db.revisions incidentId
    answers := eraseOwned (fun a => o.question a.questionId) (eraseAnswer stamped) db.answers incidentId
    answerRevisions := eraseOwned (fun r => o.answer r.answerId) eraseAnswerRevision db.answerRevisions
      incidentId
    fragments := eraseOwned (fun f => some f.incidentId) (eraseFragment stamped) db.fragments incidentId
    evidence := eraseOwned (fun e => o.conflict e.conflictId) (eraseEvidence env) db.evidence incidentId
    analyses := eraseOwned (fun a => some a.incidentId) (eraseAnalysis env now) db.analyses incidentId
    features := eraseOwned (fun f => some f.incidentId) (eraseFeature stamped) db.features incidentId }

def ResidentDb.expired (db : ResidentDb) (cutoff : Time) : List Id :=
  expiredIncidents db.incidents db.closedAt cutoff

/-- One pass of `cleanup_retention_once` over these tables. -/
def anonymizeExpired (cutoff : Time) (db : ResidentDb) : ResidentDb :=
  (db.expired cutoff).foldl (anonymizeIncident env now stamped) db

end Pass
end CrisisMosaic
