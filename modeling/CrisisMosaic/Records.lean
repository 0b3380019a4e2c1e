import CrisisMosaic.Coordinates
import CrisisMosaic.Relational.Table
import CrisisMosaic.Text

/-!
# Rows and tables

The rows of `models.py` with the columns the modelled code reads. Each table is
append-only apart from updates of its rows: the modelled handlers delete nothing.
-/

namespace CrisisMosaic
open Relational (Table)

inductive Role
  | resident | operator | admin
  deriving DecidableEq

inductive SubjectType
  | account | device
  deriving DecidableEq

structure Actor where
  subjectType : SubjectType
  subjectId : Id
  role : Role
  incidentIds : List Id

def Actor.isResident (a : Actor) : Bool := a.role = .resident
def Actor.isOperator (a : Actor) : Bool := a.role = .operator || a.role = .admin

structure Settings where
  conflictRadiusM : ℚ
  conflictWindowHours : ℤ
  directedMinValidAnswers : ℕ
  blindSpotReportGraceMinutes : ℕ
  jobMaxAttempts : ℕ
  mapMaxPoints : ℕ
  mapMaxBboxAreaDegrees : ℚ
  mapDefaultLatitude : ℚ
  mapDefaultLongitude : ℚ
  locationFutureToleranceMinutes : ℤ
  installationIdPepper : String
  aiConfigured : Bool
  aiProvider : String
  aiVisionModel : String

/-- The configuration and the library functions the handlers call. -/
structure Env where
  settings : Settings
  text : TextLib
  math : MathLib
  str : Json → String
  sha256 : String → String
  canonicalSha256 : Json → String
  hmac : String → Id → String

inductive IncidentStatus
  | preparing | active | closed
  deriving DecidableEq

def IncidentStatus.text : IncidentStatus → String
  | .preparing => "preparing" | .active => "active" | .closed => "closed"

structure Incident where
  aliasName : Option String
  status : IncidentStatus
  centerLatitude : Option ℚ
  centerLongitude : Option ℚ
  mapCoordinateSystem : CoordinateSystem
  mapDefaultZoom : ℚ
  featureFlags : Dict
  eventSequence : ℕ
  dataRevision : ℕ
  mapRevision : ℕ

inductive Priority
  | low | medium | high
  deriving DecidableEq

def Priority.text : Priority → String
  | .low => "low" | .medium => "medium" | .high => "high"

inductive PrioritySource
  | urgentFlag | manual | ai | categoryDefault
  deriving DecidableEq

inductive Category
  | rescue | medical | water | food | shelter | road
  deriving DecidableEq

def Category.text : Category → String
  | .rescue => "rescue" | .medical => "medical" | .water => "water"
  | .food => "food" | .shelter => "shelter" | .road => "road"

inductive ReportStatus
  | new | acknowledged | inProgress | resolved | invalid
  deriving DecidableEq

def ReportStatus.text : ReportStatus → String
  | .new => "new" | .acknowledged => "acknowledged" | .inProgress => "in_progress"
  | .resolved => "resolved" | .invalid => "invalid"

structure Report where
  incidentId : Id
  reporterDeviceId : Id
  reporterContactId : Option Id
  category : Category
  contentOriginal : String
  contentDisplay : String
  place : Place
  normalized : Option NormalizedCoordinates
  locationAccuracyM : Option ℚ
  locationSource : String
  locationProvider : Option String
  locationObservedAt : Option Time
  isUrgent : Bool
  priority : Priority
  prioritySource : PrioritySource
  manualPriority : Option Priority
  status : ReportStatus
  isDirectedAnswer : Bool
  aiRefinementId : Option Id
  attachmentCount : ℕ
  revision : ℕ
  deletedAt : Option Time
  createdAt : Time
  updatedAt : Time

structure ReporterContact where
  incidentId : Id
  residentDeviceId : Id

/-- What a report was after a change, and who made it. -/
structure ReportRevision where
  reportId : Id
  revision : ℕ
  snapshot : Dict
  changedByType : SubjectType
  changedById : Id
  createdAt : Time

inductive MetadataStatus
  | pending | ready | rejected | expired
  deriving DecidableEq

inductive MalwareStatus
  | pending | clean | fakeClean | failed | expired
  deriving DecidableEq

def MalwareStatus.text : MalwareStatus → String
  | .pending => "pending" | .clean => "clean" | .fakeClean => "fake_clean"
  | .failed => "failed" | .expired => "expired"

/-- Neither deleted nor marked invalid. -/
def Report.isLive (r : Report) : Bool := r.deletedAt.isNone && r.status ≠ .invalid

structure Attachment where
  incidentId : Id
  reportId : Option Id
  directedAnswerId : Option Id
  uploaderDeviceId : Id
  metadataStatus : MetadataStatus
  malwareScanStatus : MalwareStatus
  mimeType : Option String
  sha256 : Option String
  perceptualHash : Option String
  sourceClusterId : Option String
  visionStatus : String
  visionSummary : Option String
  sanitizedPath : Option String
  width : Option ℕ
  height : Option ℕ
  createdAt : Time

def Attachment.isReady (a : Attachment) : Bool :=
  a.metadataStatus = .ready && (a.malwareScanStatus = .clean || a.malwareScanStatus = .fakeClean)

structure AnonymousDevice where
  regionCode : Option String

inductive SourceType
  | residentReport | operator | directedAnswer
  deriving DecidableEq

def SourceType.text : SourceType → String
  | .residentReport => "resident_report" | .operator => "operator"
  | .directedAnswer => "directed_answer"

inductive FragmentStatus
  | normal | conflict | resolved | withdrawn
  deriving DecidableEq

def FragmentStatus.text : FragmentStatus → String
  | .normal => "normal" | .conflict => "conflict"
  | .resolved => "resolved" | .withdrawn => "withdrawn"

structure InformationFragment where
  incidentId : Id
  sourceType : SourceType
  sourceRefId : Option Id
  sourceClusterId : Option String
  topic : String
  claimKey : Option String
  claimValue : Option String
  label : String
  description : String
  place : Place
  status : FragmentStatus
  confidence : ℚ
  observedAt : Option Time
  receivedAt : Time
  revision : ℕ
  createdAt : Time
  updatedAt : Time
  deriving DecidableEq

def InformationFragment.time (f : InformationFragment) : Time := f.observedAt.getD f.receivedAt

inductive CaseStatus
  | opened | analyzing | analysisReady | resolved | reopened | closed
  deriving DecidableEq

def CaseStatus.text : CaseStatus → String
  | .opened => "open" | .analyzing => "analyzing" | .analysisReady => "analysis_ready"
  | .resolved => "resolved" | .reopened => "reopened" | .closed => "closed"

structure ConflictCase where
  incidentId : Id
  aliasName : Option String
  factKey : String
  title : String
  topic : String
  place : Place
  status : CaseStatus
  severity : Priority
  detectedAt : Time
  resolvedAt : Option Time
  resolution : Option Dict
  resolvedBy : Option Id
  revision : ℕ
  createdAt : Time

inductive EvidenceKind
  | fragment | report | attachment | answer
  deriving DecidableEq

def EvidenceKind.text : EvidenceKind → String
  | .fragment => "fragment" | .report => "report"
  | .attachment => "attachment" | .answer => "answer"

structure ConflictEvidence where
  conflictId : Id
  kind : EvidenceKind
  sourceId : Id
  sourceRevision : ℕ
  sourceClusterId : Option String
  snapshot : Dict
  snapshotSha256 : String
  isCurrent : Bool
  addedAt : Time

inductive Disposition
  | accepted | rejected | uncertain
  deriving DecidableEq

structure EvidenceDisposition where
  evidenceId : Id
  disposition : Disposition
  note : Option String

structure ConflictDecision where
  conflictId : Id
  conflictRevision : ℕ
  analysisId : Option Id
  evidenceDecisions : List EvidenceDisposition
  conclusion : String
  note : Option String
  decidedBy : Id

inductive FactStatus
  | current | underReview | superseded | revoked
  deriving DecidableEq

def FactStatus.text : FactStatus → String
  | .current => "current" | .underReview => "under_review"
  | .superseded => "superseded" | .revoked => "revoked"

structure FactRecord where
  incidentId : Id
  factKey : String
  topic : String
  place : Place
  currentVersionId : Option Id
  currentRevision : ℕ
  status : FactStatus
  isPublic : Bool
  createdAt : Time
  updatedAt : Time

structure FactVersion where
  factRecordId : Id
  previousVersionId : Option Id
  revision : ℕ
  status : FactStatus
  statement : String
  confidence : Option ℚ
  sourceConflictId : Option Id
  sourceAnalysisId : Option Id
  contextSnapshot : Option Dict
  acceptedEvidenceIds : List Id
  decisionSnapshot : Dict
  validFrom : Time
  validTo : Option Time
  decidedBy : Option Id

inductive FeatureKind
  | report | fragment | conflict | blindSpot | fact
  deriving DecidableEq

def FeatureKind.text : FeatureKind → String
  | .report => "report" | .fragment => "fragment" | .conflict => "conflict"
  | .blindSpot => "blind_spot" | .fact => "fact"

inductive BlindSpotStatus
  | opened | reopened | resolved
  deriving DecidableEq

def BlindSpotStatus.text : BlindSpotStatus → String
  | .opened => "open" | .reopened => "reopened" | .resolved => "resolved"

/-- The status column of a map feature copies the status of the row it projects. -/
inductive FeatureStatus
  | report (s : ReportStatus)
  | fragment (s : FragmentStatus)
  | conflict (s : CaseStatus)
  | blindSpot (s : BlindSpotStatus)
  | fact (s : FactStatus)
  deriving DecidableEq

def FeatureStatus.text : FeatureStatus → String
  | .report s => s.text | .fragment s => s.text | .conflict s => s.text
  | .blindSpot s => s.text | .fact s => s.text

structure MapFeature where
  incidentId : Id
  kind : FeatureKind
  sourceRef : Id
  title : String
  status : FeatureStatus
  severity : Priority
  position : Option NormalizedCoordinates
  revision : ℕ
  isDeleted : Bool
  publicData : Dict
  privateData : Dict
  updatedAt : Time

structure BlindSpot where
  incidentId : Id
  claimKey : String
  title : String
  place : Place
  scopeType : String
  scopeData : Option Dict
  severity : Priority
  routeImpactCount : ℕ
  minValidAnswers : ℕ
  status : BlindSpotStatus
  resolutionValue : Option String
  revision : ℕ
  createdAt : Time
  updatedAt : Time

structure QuestionOption where
  id : String
  label : String
  semanticValue : Option String

inductive QuestionStatus
  | draft | published | closed
  deriving DecidableEq

def QuestionStatus.text : QuestionStatus → String
  | .draft => "draft" | .published => "published" | .closed => "closed"

structure DirectedQuestion where
  incidentId : Id
  blindSpotId : Id
  title : String
  locationText : String
  targetGeometry : Option Dict
  routeImpactCount : ℕ
  options : List QuestionOption
  status : QuestionStatus
  expiresAt : Option Time
  createdBy : Id
  revision : ℕ
  createdAt : Time
  updatedAt : Time

structure DirectedAnswer where
  questionId : Id
  deviceId : Id
  optionId : String
  semanticValue : String
  answerText : String
  observedLatitude : Option Latitude
  observedLongitude : Option Longitude
  observedCoordinateSystem : Option CoordinateSystem
  revision : ℕ
  createdAt : Time
  updatedAt : Time

inductive JobType
  | blindSpotDetect | aiAnalysis
  deriving DecidableEq

inductive JobStatus
  | queued | retry | running | canceled | succeeded | failed
  deriving DecidableEq

structure BackgroundJob where
  jobType : JobType
  status : JobStatus
  payload : Dict
  attempts : ℕ
  maxAttempts : ℕ
  runAfter : Time
  leaseExpiresAt : Option Time
  lastError : Option String
  updatedAt : Time

inductive AnalysisType
  | reportRefinement | conflictAnalysis | commandBrief
  deriving DecidableEq

inductive AnalysisStatus
  | queued | running | succeeded | failed
  deriving DecidableEq

def AnalysisStatus.text : AnalysisStatus → String
  | .queued => "queued" | .running => "running"
  | .succeeded => "succeeded" | .failed => "failed"

structure AiAnalysis where
  incidentId : Id
  analysisType : AnalysisType
  status : AnalysisStatus
  inputSnapshot : Dict
  contextPackage : Option Dict
  contextSha256 : Option String
  output : Option Dict
  confidence : Option ℚ
  modelProvider : String
  modelName : String
  promptVersion : String
  errorCode : Option String
  errorMessage : Option String
  createdByType : SubjectType
  createdById : Id
  inputVersion : ℕ
  isStale : Bool
  staleAt : Option Time
  staleReason : Option String
  createdAt : Time
  completedAt : Option Time

inductive Visibility
  | «public» | owner | operators
  deriving DecidableEq

inductive ResourceType
  | incident | report | attachment | blindSpot | question | directedAnswer | fragment
  | conflict | fact | aiAnalysis | mapView
  deriving DecidableEq

structure OutboxEvent where
  incidentId : Id
  sequence : ℕ
  eventType : String
  visibility : Visibility
  resourceType : ResourceType
  resourceId : Option Id
  resourceRevision : Option ℕ
  ownerDeviceId : Option Id
  payload : Dict
  occurredAt : Time

/-- What `emit_event` touches: the incident counters, the outbox, the AI analyses, and the
two markers a session keeps for the transaction it is in. -/
structure Feed where
  incidents : Table Incident
  outbox : Table OutboxEvent
  analyses : Table AiAnalysis
  dataMarker : Option Id
  mapMarker : Option Id

structure Surface where
  features : Table MapFeature
  feed : Feed

structure Facts where
  records : Table FactRecord
  versions : Table FactVersion

/-- The tables a conflict case is worked on with. -/
structure Store extends Surface where
  fragments : Table InformationFragment
  cases : Table ConflictCase
  evidence : Table ConflictEvidence
  decisions : Table ConflictDecision
  facts : Facts

structure Db extends Store where
  reports : Table Report
  contacts : Table ReporterContact
  revisions : Table ReportRevision
  attachments : Table Attachment
  devices : Table AnonymousDevice
  blindSpots : Table BlindSpot
  questions : Table DirectedQuestion
  answers : Table DirectedAnswer
  jobs : Table BackgroundJob

/-- A new deployment: no row but the incidents, devices and uploaded attachments. -/
def Db.initial (incidents : Table Incident) (devices : Table AnonymousDevice)
    (attachments : Table Attachment) : Db where
  features := .empty
  feed := ⟨incidents, .empty, .empty, none, none⟩
  fragments := .empty
  cases := .empty
  evidence := .empty
  decisions := .empty
  facts := ⟨.empty, .empty⟩
  reports := .empty
  contacts := .empty
  revisions := .empty
  attachments := attachments
  devices := devices
  blindSpots := .empty
  questions := .empty
  answers := .empty
  jobs := .empty

end CrisisMosaic
