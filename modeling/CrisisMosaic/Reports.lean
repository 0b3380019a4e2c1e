import CrisisMosaic.Access
import CrisisMosaic.ReportObservations

/-!
# Report routes

Creation, resident edits, deletion and the operator's status and priority
changes. A stored report is observed again only when a handler says so.
-/

namespace CrisisMosaic
open Relational

def effectivePriority (isUrgent : Bool) (manual ai : Option Priority) : Priority × PrioritySource :=
  if isUrgent then (.high, .urgentFlag)
  else
    match manual, ai with
    | some p, _ => (p, .manual)
    | none, some p => (p, .ai)
    | none, none => (.low, .categoryDefault)

structure ReportLocation where
  text : String
  latitude : Option ℚ
  longitude : Option ℚ
  accuracyM : Option ℚ
  source : String
  provider : Option String
  coordinateSystem : Option CoordinateSystem
  observedAt : Option Time
  paired : latitude.isSome = longitude.isSome
  systemGiven : latitude.isSome → coordinateSystem.isSome

section Location
variable (env : Env) (now : Time)

def applyLocation (location : ReportLocation) (report : Report) : Result Report := do
  require (location.observedAt.all fun t =>
      t ≤ now + minutes env.settings.locationFutureToleranceMinutes)
    (unprocessable "LOCATION_OBSERVED_AT_IN_FUTURE" "位置观察时间不能晚于服务器时间容差")
  let report := { report with
    locationAccuracyM := location.accuracyM
    locationSource := location.source
    locationProvider := location.provider
    locationObservedAt := location.observedAt }
  match location.latitude, location.longitude, location.coordinateSystem with
  | some lat, some lon, some sys => do
      let (lat, lon) ← validateCoordinates lat lon
      pure { report with
        place := ⟨location.text, some lat, some lon, some sys⟩
        normalized := some (normalize env.math lat lon sys) }
  | _, _, _ => pure { report with place := ⟨location.text, none, none, none⟩, normalized := none }

/-- `validate_report_refinement`: without a refinement there is nothing to check; the outcome
for a given one is an input, the priority the refinement asks for. -/
def validateReportRefinement (aiRefinementId : Option Id) (outcome : Result (Option Priority)) :
    Result (Option Priority) :=
  if aiRefinementId.isSome then outcome else pure none

end Location

def PrioritySource.text : PrioritySource → String
  | .urgentFlag => "urgent_flag" | .manual => "manual"
  | .ai => "ai" | .categoryDefault => "category_default"

def Point.data (p : Option Point) : Json :=
  .obj [("latitude", .opt (fun p : Point => .num p.latitude) p),
    ("longitude", .opt (fun p : Point => .num p.longitude) p)]

/-- The part of `serialize_report` that does not come from the contact or the upload service. -/
def reportData (attachments : Table Attachment) (id : Id) (r : Report) : Dict :=
  [("id", .ref id), ("incident_id", .ref r.incidentId), ("category", .str r.category.text),
    ("content_original", .str r.contentOriginal), ("content_display", .str r.contentDisplay),
    ("location_text", .str r.place.locationText),
    ("location", .obj
      [("latitude", .opt (fun q : Latitude => .num q) r.place.latitude),
        ("longitude", .opt (fun q : Longitude => .num q) r.place.longitude),
        ("accuracy_m", .opt .num r.locationAccuracyM), ("source", .str r.locationSource),
        ("provider", optStr r.locationProvider),
        ("coordinate_system", .opt (fun s : CoordinateSystem => .str s.text) r.place.coordinateSystem),
        ("observed_at", optTime r.locationObservedAt),
        ("wgs84", Point.data (r.normalized.map (·.wgs84))),
        ("gcj02", Point.data (r.normalized.map (·.gcj02))),
        ("algorithm_version", .opt (fun _ => .str "gcj02-v1") r.normalized)]),
    ("is_urgent", .bool r.isUrgent), ("priority", .str r.priority.text),
    ("priority_source", .str r.prioritySource.text),
    ("status", .str r.status.text), ("is_directed_answer", .bool r.isDirectedAnswer),
    ("ai_refinement_id", optRef r.aiRefinementId), ("attachment_count", .nat r.attachmentCount),
    ("revision", .nat r.revision), ("created_at", .time r.createdAt),
    ("updated_at", .time r.updatedAt),
    ("attachment_ids", .arr ((attachmentsByReport attachments id).map .ref))]

/-- `report_snapshot` -/
def reportSnapshot (id : Id) (r : Report) : Dict :=
  [("id", .ref id), ("incident_id", .ref r.incidentId),
    ("reporter_device_id", .ref r.reporterDeviceId),
    ("reporter_contact_id", optRef r.reporterContactId), ("category", .str r.category.text),
    ("content_original", .str r.contentOriginal), ("content_display", .str r.contentDisplay),
    ("location_text", .str r.place.locationText),
    ("location", .obj
      [("latitude", .opt (fun q : Latitude => .num q) r.place.latitude),
        ("longitude", .opt (fun q : Longitude => .num q) r.place.longitude),
        ("accuracy_m", .opt .num r.locationAccuracyM), ("source", .str r.locationSource),
        ("provider", optStr r.locationProvider),
        ("coordinate_system", .opt (fun s : CoordinateSystem => .str s.text) r.place.coordinateSystem),
        ("observed_at", optTime r.locationObservedAt),
        ("wgs84", Point.data (r.normalized.map (·.wgs84))),
        ("gcj02", Point.data (r.normalized.map (·.gcj02))),
        ("algorithm_version", .opt (fun _ => .str "gcj02-v1") r.normalized)]),
    ("is_urgent", .bool r.isUrgent), ("priority", .str r.priority.text),
    ("priority_source", .str r.prioritySource.text),
    ("manual_priority", .opt (fun p : Priority => .str p.text) r.manualPriority),
    ("status", .str r.status.text), ("is_directed_answer", .bool r.isDirectedAnswer),
    ("ai_refinement_id", optRef r.aiRefinementId), ("attachment_count", .nat r.attachmentCount),
    ("revision", .nat r.revision), ("created_at", .time r.createdAt),
    ("updated_at", .time r.updatedAt)]

section MapFeature
variable (now : Time)

def reportFeature (id : Id) (r : Report) : MapFeature :=
  { incidentId := r.incidentId
    kind := .report
    sourceRef := id
    title := r.place.locationText
    status := .report r.status
    severity := r.priority
    position := r.normalized
    revision := r.revision
    isDeleted := r.normalized.isNone || r.deletedAt.isSome
    publicData := [("category", .str r.category.text), ("is_urgent", .bool r.isUrgent),
      ("priority", .str r.priority.text), ("location_text", .str r.place.locationText)]
    privateData := [("owner_device_id", .ref r.reporterDeviceId)]
    updatedAt := now }

def upsertReportMapFeature (features : Table MapFeature) (id : Id) (r : Report) : Table MapFeature :=
  if (features.first (MapFeature.isFor r.incidentId .report id)).isNone && r.normalized.isNone then
    features
  else upsertFeature features (reportFeature now id r)

theorem upsertReportMapFeature_factSilent (features : Table MapFeature) (id : Id) (r : Report) :
    FactSilent features (upsertReportMapFeature now features id r) := by
  unfold upsertReportMapFeature
  split_ifs
  · exact .refl features
  · exact upsertFeature_factSilent features (by simp [reportFeature]) rfl

end MapFeature

section Access

def assertReportAccess (actor : Actor) (report : Report) (write : Bool) : Result Unit := do
  require (report.incidentId ∈ actor.incidentIds)
    (forbidden "INCIDENT_ACCESS_DENIED" "incident access denied")
  require (¬ (actor.isResident = true ∧ report.reporterDeviceId ≠ actor.subjectId))
    (forbidden "REPORT_OWNERSHIP_REQUIRED"
      "residents may only access reports created by this device")
  require (¬ (write = true ∧ actor.subjectType = .account ∧ actor.isOperator = false))
    (forbidden "FORBIDDEN" "this account cannot modify reports")

def getReport (reports : Table Report) (id : Id) : Result Report := do
  let report ← found (reports.get id) (notFound "report")
  require (report.deletedAt = none) (notFound "report")
  pure report

/-- The incident of the report is open to the actor and the request was made for this revision. -/
def checkRequest (db : Db) (actor : Actor) (header : Option Ref) (report : Report)
    (revision : ℕ) : Result Unit := do
  let incident ← found (db.feed.incidents.get report.incidentId)
    ⟨404, "NOT_FOUND", "incident not found", []⟩
  assertIncidentAccess actor report.incidentId incident header
  require (report.revision = revision)
    (conflictError "REVISION_CONFLICT" "report was updated by another request"
      [("expected_revision", .nat revision), ("current_revision", .nat report.revision)])

def openReport (db : Db) (actor : Actor) (header : Option Ref) (id revision : ℕ) :
    Result Report := do
  let report ← getReport db.reports id
  assertReportAccess actor report true
  checkRequest db actor header report revision
  pure report

end Access

section Handlers
variable (env : Env) (now : Time)

def Db.storeReport (db : Db) (id : Id) (report : Report) : Db :=
  { db with reports := db.reports.modify id fun _ => report }

def reportRevision (now : Time) (actor : Actor) (id : Id) (report : Report) (snapshot : Dict) :
    ReportRevision :=
  { reportId := id
    revision := report.revision
    snapshot := snapshot
    changedByType := actor.subjectType
    changedById := actor.subjectId
    createdAt := now }

/-- The row a handler adds for what it made of the report. -/
def Db.recordRevision (db : Db) (now : Time) (actor : Actor) (id : Id) (report : Report)
    (tombstone : Dict) : Db :=
  { db with
    revisions := db.revisions.insert
      (reportRevision now actor id report (reportSnapshot id report ++ tombstone)) }

def Db.projectReport (db : Db) (now : Time) (id : Id) (report : Report) : Db :=
  { db with features := upsertReportMapFeature now db.features id report }

def Db.emitReport (db : Db) (now : Time) (id : Id) (report : Report) (eventType : String)
    (payload : Dict) : Db :=
  db.emit now report.incidentId
    { eventType := eventType
      resourceType := .report
      resourceId := some id
      resourceRevision := some report.revision
      payload := payload
      visibility := .owner
      ownerDeviceId := some report.reporterDeviceId }

structure ReportCreate where
  category : Category
  contentOriginal : String
  contentDisplay : Option String
  location : ReportLocation
  isUrgent : Bool
  aiRefinementId : Option Id
  attachmentIds : List Id
  distinct : attachmentIds.Nodup

def newReport (incidentId contactId : Id) (actor : Actor) (payload : ReportCreate)
    (ai : Option Priority) : Report :=
  let effective := effectivePriority payload.isUrgent none ai
  { incidentId := incidentId
    reporterDeviceId := actor.subjectId
    reporterContactId := some contactId
    category := payload.category
    contentOriginal := payload.contentOriginal
    contentDisplay := payload.contentDisplay.getD payload.contentOriginal
    place := ⟨payload.location.text, none, none, none⟩
    normalized := none
    locationAccuracyM := none
    locationSource := "manual"
    locationProvider := none
    locationObservedAt := none
    isUrgent := payload.isUrgent
    priority := effective.1
    prioritySource := effective.2
    manualPriority := none
    status := .new
    isDirectedAnswer := false
    aiRefinementId := payload.aiRefinementId
    attachmentCount := 0
    revision := 1
    deletedAt := none
    createdAt := now
    updatedAt := now }

/-- The contact is created by a service of its own, which may refuse it. -/
def createReport (db : Db) (incidentId : Id) (actor : Actor) (payload : ReportCreate)
    (refinement : Result (Option Priority)) (contact : Result Unit) : Result (Db × Id × Report) := do
  require actor.isResident
    (forbidden "RESIDENT_REQUIRED" "only anonymous residents create reports")
  let ai ← validateReportRefinement payload.aiRefinementId refinement
  contact
  let report ← applyLocation env now payload.location
    (newReport now incidentId db.contacts.size actor payload ai)
  let id := db.reports.size
  let (attachments, report) ← bindAttachments db.attachments id report payload.attachmentIds
  let db := { db with
    reports := db.reports.insert report
    contacts := db.contacts.insert ⟨incidentId, actor.subjectId⟩
    attachments := attachments }
  let db := db.recordRevision now actor id report []
  pure (db.projectReport now id report, id, report)

def postReport (db : Db) (actor : Actor) (header : Option Ref) (incidentId : Ref)
    (payload : ReportCreate) (refinement : Result (Option Priority)) (contact : Result Unit) :
    Result (Db × Option Detection) := do
  let (incidentId, incident) ← getIncident db.feed.incidents incidentId
  assertIncidentAccess actor incidentId incident header
  let (db, id, report) ← createReport env now db incidentId actor payload refinement contact
  let db := db.emitReport now id report "report.created" (reportData db.attachments id report)
  processReportObservation env now db id report

/-- A field of a PATCH body: absent, null or a value. -/
abbrev Field (α : Type) := Option (Option α)

structure ReportPatch where
  revision : ℕ
  reporter : Field (Result Unit)
  category : Field Category
  contentOriginal : Field String
  contentDisplay : Field String
  location : Field ReportLocation
  isUrgent : Field Bool
  aiRefinementId : Field Id
  attachmentIds : Field {ids : List Id // ids.Nodup}

namespace ReportPatch
variable (p : ReportPatch)

def isEmpty : Bool :=
  p.reporter.isNone && p.category.isNone && p.contentOriginal.isNone && p.contentDisplay.isNone &&
    p.location.isNone && p.isUrgent.isNone && p.aiRefinementId.isNone && p.attachmentIds.isNone

/-- The non-nullable fields that were sent as null. -/
def nulls : List String :=
  let check {α : Type} (name : String) (f : Field α) : List String :=
    match f with
    | some none => [name]
    | _ => []
  check "category" p.category ++ check "content_original" p.contentOriginal ++
    check "content_display" p.contentDisplay ++ check "location" p.location ++
    check "is_urgent" p.isUrgent

/-- A sent category, text or location makes the handler observe the report again. -/
def observes : Bool :=
  p.category.isSome || p.contentOriginal.isSome || p.contentDisplay.isSome || p.location.isSome

/-- A sent field the stored refinement was made for invalidates it. -/
def detachesRefinement : Bool :=
  p.category.isSome || p.contentOriginal.isSome || p.location.isSome || p.attachmentIds.isSome

def refinementId (stored : Option Id) : Option Id :=
  match p.aiRefinementId with
  | some id => id
  | none => if p.detachesRefinement then none else stored

/-- The contact after the edit, given the key a new one gets. -/
def contactId (next : Id) (stored : Option Id) : Option Id :=
  match p.reporter with
  | some (some _) => some next
  | _ => stored

/-- A changed contact is a new row. -/
def recontact (contacts : Table ReporterContact) (report : Report) : Table ReporterContact :=
  match p.reporter with
  | some (some _) => contacts.insert ⟨report.incidentId, report.reporterDeviceId⟩
  | _ => contacts

def applyTo (nextContact : Id) (report : Report) : Result Report := do
  let report := { report with
    category := p.category.join.getD report.category
    contentOriginal := p.contentOriginal.join.getD report.contentOriginal
    contentDisplay := p.contentDisplay.join.getD report.contentDisplay }
  let report ← match p.location.join with
    | some location => applyLocation env now location report
    | none => pure report
  pure { report with
    isUrgent := p.isUrgent.join.getD report.isUrgent
    aiRefinementId := p.refinementId report.aiRefinementId
    reporterContactId := p.contactId nextContact report.reporterContactId }

def checkReporter : Result Unit :=
  match p.reporter with
  | none => pure ()
  | some none => throw (unprocessable "REPORTER_CONTACT_REQUIRED" "上报人联系方式不得清空")
  | some (some outcome) => outcome

def rebind (attachments : Table Attachment) (id : Id) (report : Report) :
    Result (Table Attachment × Report) :=
  match p.attachmentIds with
  | none => pure (attachments, report)
  | some none => throw (unprocessable "FIELD_NOT_NULLABLE" "attachment_ids cannot be null")
  | some (some ids) => replaceAttachments attachments id report ids

end ReportPatch

def Report.touch (r : Report) (now : Time) : Report :=
  { r with revision := r.revision + 1, updatedAt := now }

def Report.prioritise (r : Report) (manual ai : Option Priority) : Report :=
  let effective := effectivePriority r.isUrgent manual ai
  { r with priority := effective.1, prioritySource := effective.2 }

def patchReport (db : Db) (actor : Actor) (header : Option Ref) (id : Id) (payload : ReportPatch)
    (refinement : Result (Option Priority)) : Result (Db × Option Detection) := do
  require actor.isResident
    (forbidden "RESIDENT_REQUIRED" "居民上报正文和原始位置只能由创建该上报的设备修改")
  let report ← openReport db actor header id payload.revision
  require (payload.isEmpty = false) (unprocessable "NO_CHANGES" "at least one field must be supplied")
  require (payload.nulls = [])
    (unprocessable "FIELD_NOT_NULLABLE" (payload.nulls.headD "" ++ " cannot be null"))
  let report ← payload.applyTo env now db.contacts.size report
  payload.checkReporter
  let (attachments, report) ← payload.rebind db.attachments id report
  let ai ← validateReportRefinement report.aiRefinementId refinement
  let report := (report.prioritise report.manualPriority ai).touch now
  let db := { db with attachments := attachments, contacts := payload.recontact db.contacts report }
  let db := (db.storeReport id report).recordRevision now actor id report []
  let db := db.projectReport now id report
  let db := db.emitReport now id report "report.updated" (reportData db.attachments id report)
  if payload.observes then processReportObservation env now db id report else pure (db, none)

def deleteReport (db : Db) (actor : Actor) (header : Option Ref) (id revision : ℕ) : Result Db := do
  require actor.isResident
    (forbidden "RESIDENT_REQUIRED" "only residents may delete their own reports")
  let report ← getReport db.reports id
  assertReportAccess actor report true
  require (report.isDirectedAnswer = false) ⟨404, "NOT_FOUND", "report not found", []⟩
  checkRequest db actor header report revision
  let report := { report with deletedAt := some now }.touch now
  let db := deactivateReportObservation env now (db.storeReport id report) id report
    "source_report_deleted"
  let db := db.recordRevision now actor id report [("deleted_at", .time now)]
  pure ((db.projectReport now id report).emitReport now id report "report.deleted"
    [("report_id", .ref id), ("revision", .nat report.revision), ("deleted_at", .time now)])

/-- `_ALLOWED_STATUS_TRANSITIONS` -/
def ReportStatus.allowed : ReportStatus → List ReportStatus
  | .new => [.acknowledged, .invalid]
  | .acknowledged => [.inProgress, .invalid]
  | .inProgress => [.resolved, .invalid]
  | .resolved => []
  | .invalid => [.acknowledged]

def adminRequired : ApiError := forbidden "ADMIN_REQUIRED" "only an admin may restore an invalid report"

def patchReportStatus (db : Db) (actor : Actor) (header : Option Ref) (id revision : ℕ)
    (status : ReportStatus) : Result (Db × Option Detection) := do
  require actor.isOperator (forbidden "FORBIDDEN" "operator or admin role required")
  let before ← openReport db actor header id revision
  require (status ≠ before.status) (unprocessable "NO_CHANGES" "status is already set")
  require (¬ (before.status = .invalid ∧ status = .acknowledged ∧ actor.role ≠ .admin)) adminRequired
  require (status ∈ before.status.allowed)
    (conflictError "INVALID_STATUS_TRANSITION"
      ("cannot transition from " ++ before.status.text ++ " to " ++ status.text) [])
  let report := { before with status := status }.touch now
  let db := db.storeReport id report
  let (db, detection) ←
    if status = .invalid then
      pure (deactivateReportObservation env now db id report "source_report_invalid", none)
    else if before.status = .invalid then processReportObservation env now db id report
    else pure (db, none)
  let db := db.recordRevision now actor id report []
  let db := db.projectReport now id report
  pure (db.emitReport now id report "report.status_changed" (reportData db.attachments id report),
    detection)

def patchReportPriority (db : Db) (actor : Actor) (header : Option Ref) (id revision : ℕ)
    (priority : Option Priority) (refinement : Result (Option Priority)) : Result Db := do
  require actor.isOperator (forbidden "FORBIDDEN" "operator or admin role required")
  let report ← openReport db actor header id revision
  require (¬ (report.isUrgent = true ∧ priority ≠ none ∧ priority ≠ some .high))
    (unprocessable "URGENT_PRIORITY_CANNOT_BE_DOWNGRADED"
      "urgent reports must remain high priority")
  let ai ← validateReportRefinement report.aiRefinementId refinement
  let report := ({ report with manualPriority := priority }.prioritise priority ai).touch now
  let db := (db.storeReport id report).recordRevision now actor id report []
  let db := db.projectReport now id report
  pure (db.emitReport now id report "report.priority_updated" (reportData db.attachments id report))

end Handlers
end CrisisMosaic
