import CrisisMosaic.Idempotency
import CrisisMosaic.System

/-!
# Submitting a report

A report is created under an idempotency key in one transaction: the record is reserved,
the report is created and the response is stored, or nothing is. Requests of any actors,
the other operations of the service, the idempotency layer of the other routes and the
retention passes take turns at the write lock; a crash loses a transaction that has not
committed and the answer of one that has.
-/

namespace CrisisMosaic
open Relational

def SubjectType.text : SubjectType → String
  | .account => "account"
  | .device => "device"

/-- `model_dump` of the location. -/
def ReportLocation.dump (l : ReportLocation) : Dict :=
  [("text", .str l.text), ("latitude", .opt .num l.latitude), ("longitude", .opt .num l.longitude),
    ("accuracy_m", .opt .num l.accuracyM), ("source", .str l.source), ("provider", optStr l.provider),
    ("coordinate_system", .opt (fun c : CoordinateSystem => .str c.text) l.coordinateSystem),
    ("observed_at", optTime l.observedAt)]

def reportKey (actor : Actor) (incidentId : Id) (idempotencyKey : String) : RequestKey :=
  { actorKey := actor.subjectType.text ++ ":" ++ toString actor.subjectId
    route := "POST:/incidents/" ++ toString incidentId ++ "/reports"
    idempotencyKey := idempotencyKey }

/-- `reporter` is the part of the payload that only the contact service reads. -/
structure ReportRequest where
  actor : Actor
  header : Option Ref
  incident : Ref
  idempotencyKey : String
  requestId : String
  payload : ReportCreate
  reporter : Dict
  refinement : Result (Option Priority)
  contact : Result Unit

namespace ReportRequest
variable (r : ReportRequest)

/-- `model_dump` of the payload. -/
def body : Dict :=
  [("category", .str r.payload.category.text), ("reporter", .obj r.reporter),
    ("content_original", .str r.payload.contentOriginal),
    ("content_display", optStr r.payload.contentDisplay),
    ("location", .obj r.payload.location.dump), ("is_urgent", .bool r.payload.isUrgent),
    ("ai_refinement_id", optRef r.payload.aiRefinementId),
    ("attachment_ids", .arr (r.payload.attachmentIds.map .ref))]

def recordKey (incidentId : Id) : RequestKey := reportKey r.actor incidentId r.idempotencyKey

end ReportRequest

/-- `success` -/
def success (data : Dict) (requestId : String) : Dict :=
  [("data", .obj data), ("meta", .obj [("request_id", .str requestId)])]

/-- What a request is answered with, and the report it has created, if any. -/
structure Submission where
  key : RequestKey
  reportId : Option Id
  response : Dict

/-- `requestHash` is the SHA-256 of the canonical text of a body. -/
structure SubmissionSettings extends IdempotencySettings where
  requestHash : Dict → String

section Submit
variable (env : Env) (settings : SubmissionSettings) (now : Time) (db : Db)
  (records : IdempotencyRecords) (r : ReportRequest)

/-- `post_report` -/
def submitReport : Result (Db × IdempotencyRecords × Submission) := do
  let (incidentId, incident) ← getIncident db.feed.incidents r.incident
  assertIncidentAccess r.actor incidentId incident r.header
  let key := r.recordKey incidentId
  let (records, reservation) ← records.reserveOrReplay settings.toIdempotencySettings now key
    (settings.requestHash r.body)
  match reservation with
  | .replay _ body => pure (db, records, ⟨key, none, body⟩)
  | .reserved recordId => do
    let (db, id, report) ← createReport env now db incidentId r.actor r.payload r.refinement r.contact
    let db := db.emitReport now id report "report.created" (reportData db.attachments id report)
    let (db, _) ← processReportObservation env now db id report
    let response := success (reportData db.attachments id report) r.requestId
    pure (db, records.finishReservation recordId 201 response, ⟨key, some id, response⟩)

/-- A submission replays a record, or does what `postReport` does and stores its response. -/
inductive Submits : Db → IdempotencyRecords → Submission → Prop
  | replayed {key : RequestKey} {status : ℕ} {body : Dict} :
      IdempotencyRecords.Reserving settings.toIdempotencySettings now records key
        (settings.requestHash r.body) records (.replay status body) →
      Submits db records ⟨key, none, body⟩
  | created {key : RequestKey} {recordId id : Id} {db' : Db} {reserved : IdempotencyRecords}
      {detection : Option Detection} {response : Dict} :
      IdempotencyRecords.Reserves settings.toIdempotencySettings now records key
        (settings.requestHash r.body) reserved recordId →
      postReport env now db r.actor r.header r.incident r.payload r.refinement r.contact =
        .ok (db', detection) →
      Submits db' (reserved.finishReservation recordId 201 response) ⟨key, some id, response⟩

end Submit

/-- When a report was created under a key, and until when its record is valid. -/
structure ReportCreation where
  reportId : Id
  body : Dict
  response : Dict
  createdAt : Time
  expiresAt : Time

structure ReportAnswer where
  body : Dict
  response : Dict
  time : Time

/-- `creations` and `answers` are the history of each key, the last ones first. -/
structure SubmissionState where
  now : Time
  db : Db
  records : IdempotencyRecords
  creations : RequestKey → List ReportCreation
  answers : RequestKey → List ReportAnswer

def SubmissionState.initial (now : Time) (db : Db) : SubmissionState :=
  ⟨now, db, Table.empty, fun _ => [], fun _ => []⟩

/-- What becomes of a request: the process may crash before the commit or after it. -/
inductive RequestFate
  | answered
  | lostBeforeCommit
  | lostAfterCommit
deriving DecidableEq

inductive SubmissionStep
  | tick (elapsed : ℕ)
  | post (request : ReportRequest) (fate : RequestFate)
  /-- Any other operation of the service. -/
  | operate (op : Op)
  /-- The idempotency layer of the other routes. -/
  | reserve (key : RequestKey) (fingerprint : String) (started : Time)
  | finish (recordId : Id) (statusCode : ℕ) (body : Dict)
  | release (recordId : Id)
  | retain (started : Time)

/-- The middleware and the websocket put their paths under the version of the interface. -/
def RequestKey.isReportRoute (key : RequestKey) : Bool :=
  "POST:/incidents/".toList.isPrefixOf key.route.toList

def Op.isPostReport (op : Op) : Bool :=
  match op.call with
  | .postReport .. => true
  | _ => false

theorem reportKey_isReportRoute (actor : Actor) (incidentId : Id) (idempotencyKey : String) :
    (reportKey actor incidentId idempotencyKey).isReportRoute = true := by
  simp [RequestKey.isReportRoute, reportKey, String.toList_append]

section Run
variable (env : Env) (settings : SubmissionSettings) (s : SubmissionState)

/-- The record is that of another route. -/
def SubmissionState.isOther (recordId : Id) : Bool :=
  (s.records.record recordId).all fun r => !r.key.isReportRoute

def SubmissionState.accept (r : ReportRequest) (answered : Bool) (db : Db)
    (records : IdempotencyRecords) (submission : Submission) : SubmissionState :=
  let key := submission.key
  { s with
    db := db
    records := records
    creations :=
      match submission.reportId with
      | some id => Function.update s.creations key
          (⟨id, r.body, submission.response, s.now, s.now + hours settings.idempotencyHours⟩ ::
            s.creations key)
      | none => s.creations
    answers :=
      if answered then Function.update s.answers key
        (⟨r.body, submission.response, s.now⟩ :: s.answers key)
      else s.answers }

def submissionStep : SubmissionStep → SubmissionState
  | .tick elapsed => { s with now := s.now + elapsed }
  | .post r fate =>
    if fate = .lostBeforeCommit then s
    else
      match submitReport env settings s.now s.db.begin s.records r with
      | .ok (db, records, submission) =>
        s.accept settings r (fate = .answered) db records submission
      | .error _ => s
  | .operate op => if op.isPostReport then s else { s with db := step env s.db { op with now := s.now } }
  | .reserve key fingerprint started =>
    if started ≤ s.now ∧ !key.isReportRoute then
      { s with records := commit s.records (Prod.fst <$>
          s.records.reserveOrReplay settings.toIdempotencySettings started key fingerprint) }
    else s
  | .finish recordId statusCode body =>
    if s.isOther recordId then
      { s with records := s.records.finishReservation recordId statusCode body }
    else s
  | .release recordId =>
    if s.isOther recordId then { s with records := s.records.releaseReservation recordId } else s
  | .retain started =>
    if started ≤ s.now then { s with records := s.records.deleteExpired started } else s

def submissionRun (now : Time) (db : Db) (steps : List SubmissionStep) : SubmissionState :=
  run (submissionStep env settings) (.initial now db) steps

end Run

section Spec
variable {env : Env} {settings : SubmissionSettings} {now : Time} {db db' : Db}
  {records records' : IdempotencyRecords} {r : ReportRequest} {submission : Submission}

theorem submitReport_spec
    (h : submitReport env settings now db records r = .ok (db', records', submission)) :
    Submits env settings now db records r db' records' submission ∧
      submission.key.idempotencyKey ≠ "" ∧ submission.key.idempotencyKey.length ≤ 200 := by
  unfold submitReport at h
  simp only [bind_ok, Prod.exists] at h
  obtain ⟨incidentId, incident, hincident, _, haccess, reserved, reservation, hreserve, h⟩ := h
  have hspec := IdempotencyRecords.reserveOrReplay_spec hreserve
  have hvalidKey := IdempotencyRecords.reserveOrReplay_key hreserve
  cases hspec with
  | @replayed i existing body hr hkey hvalid hhash hbody =>
    cases h
    exact ⟨.replayed (.replayed hr hkey hvalid hhash hbody), hvalidKey⟩
  | @reserved _ recordId hreserves =>
    simp only [bind_ok, Prod.exists] at h
    obtain ⟨db₁, id, report, hcreate, db₂, detection, hprocess, h⟩ := h
    have hpost : postReport env now db r.actor r.header r.incident r.payload r.refinement r.contact =
        .ok (db₂, detection) := by
      simp only [postReport, bind_ok, Prod.exists]
      exact ⟨incidentId, incident, hincident, (), haccess, db₁, id, report, hcreate, hprocess⟩
    cases h
    exact ⟨.created hreserves hpost, hvalidKey⟩

end Spec
end CrisisMosaic
