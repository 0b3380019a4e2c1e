import CrisisMosaic.BlindSpots
import CrisisMosaic.Reconcile

/-!
# Report observations

A report is observed through one fragment. Processing a report refreshes the
fragment, takes its old version out of every conflict and looks for new ones;
deactivating it withdraws the fragment.
-/

namespace CrisisMosaic
open Relational

namespace Db

def sources (db : Db) : Sources := ⟨db.reports, db.attachments, db.questions, db.answers⟩

def spotBoard (db : Db) : SpotBoard := { toSurface := db.toSurface, spots := db.blindSpots }

def withSpotBoard (db : Db) (b : SpotBoard) : Db :=
  { db with features := b.features, feed := b.feed, blindSpots := b.spots }

def emit (db : Db) (now : Time) (incidentId : Id) (e : Event) : Db :=
  { db with feed := db.feed.emitEvent now incidentId e }

end Db

def fragmentData (id : Id) (f : InformationFragment) : Dict :=
  Dict.merge (fragmentSnapshot id f)
    [("incident_id", .ref f.incidentId), ("status", .str f.status.text),
      ("received_at", .time f.receivedAt), ("created_at", .time f.createdAt),
      ("updated_at", .time f.updatedAt)]

def categoryLabel : Category → String
  | .rescue => "救援" | .medical => "医疗" | .water => "饮水"
  | .food => "食物" | .shelter => "安置" | .road => "道路"

section Upsert
variable (env : Env) (now : Time)

/-- The row with the report's values, keeping its status, revision and creation time. -/
def observe (reportId : Id) (report : Report) (f : InformationFragment) : InformationFragment :=
  let claim := extractStructuredClaim env report
  { f with
    incidentId := report.incidentId
    sourceType := .residentReport
    sourceRefId := some reportId
    sourceClusterId := some (String.ofList
      ((env.hmac env.settings.installationIdPepper report.reporterDeviceId).toList.take 36))
    topic := claim.elim report.category.text (·.topic)
    claimKey := claim.map (·.key)
    claimValue := claim.map (·.value)
    label := String.ofList
      ((categoryLabel report.category ++ " · " ++ report.place.locationText).toList.take 120)
    description := report.contentDisplay
    place := report.place
    confidence := if claim.any fun c => c.value ≠ "unknown" then 0.7 else 0.3
    observedAt := some (report.locationObservedAt.getD report.updatedAt)
    receivedAt := report.updatedAt }

def newFragment : InformationFragment :=
  { incidentId := 0
    sourceType := .residentReport
    sourceRefId := none
    sourceClusterId := none
    topic := ""
    claimKey := none
    claimValue := none
    label := ""
    description := ""
    place := ⟨"", none, none, none⟩
    status := .normal
    confidence := 0.5
    observedAt := none
    receivedAt := now
    revision := 1
    createdAt := now
    updatedAt := now }

def isReportFragment (incidentId reportId : Id) (f : InformationFragment) : Bool :=
  f.incidentId = incidentId && f.sourceType = .residentReport && f.sourceRefId = some reportId

theorem isReportFragment_iff {incidentId reportId : Id} {f : InformationFragment} :
    isReportFragment incidentId reportId f = true ↔
      f.incidentId = incidentId ∧ f.sourceType = .residentReport ∧ f.sourceRefId = some reportId := by
  simp [isReportFragment, and_assoc]

/-- A change of one of these makes the fragment news again. -/
def claimMoved (f g : InformationFragment) : Bool :=
  f.claimKey ≠ g.claimKey || f.claimValue ≠ g.claimValue || f.place ≠ g.place ||
    f.observedAt ≠ g.observedAt

def refresh (reportId : Id) (report : Report) (f : InformationFragment) : InformationFragment :=
  let g := observe env reportId report f
  { g with
    status := if f.status = .withdrawn || claimMoved f g then .normal else f.status
    revision := f.revision + 1
    updatedAt := now }

structure FragmentUpsert where
  fragments : Table InformationFragment
  id : Id
  fragment : InformationFragment
  created : Bool
  changed : Bool

def upsertReportFragment (fragments : Table InformationFragment) (reportId : Id)
    (report : Report) : FragmentUpsert :=
  match fragments.find (isReportFragment report.incidentId reportId) with
  | none =>
      let f := observe env reportId report (newFragment now)
      ⟨fragments.insert f, fragments.size, f, true, true⟩
  | some (id, f) =>
      if f.status ≠ .withdrawn ∧ observe env reportId report f = f then
        ⟨fragments, id, f, false, false⟩
      else
        let g := refresh env now reportId report f
        ⟨fragments.modify id fun _ => g, id, g, false, true⟩

end Upsert

section Jobs
variable (env : Env) (now : Time)

def isDetectionOf (fragmentId : Id) (job : BackgroundJob) : Bool :=
  job.jobType = .blindSpotDetect && (job.payload.get "fragment_id").any (Json.isRef fragmentId)

def isDetectionAt (fragmentId revision : ℕ) (job : BackgroundJob) : Bool :=
  isDetectionOf fragmentId job && (job.payload.get "fragment_revision").any (Json.isNat revision)

def detectionJob (incidentId fragmentId : Id) (f : InformationFragment) (grace : ℕ) :
    BackgroundJob :=
  let dueAt := f.receivedAt + minutes grace
  { jobType := .blindSpotDetect
    status := .queued
    payload := [("incident_id", .ref incidentId), ("fragment_id", .ref fragmentId),
      ("fragment_revision", .nat f.revision), ("grace_minutes", .nat grace),
      ("due_at", .time dueAt)]
    attempts := 0
    maxAttempts := env.settings.jobMaxAttempts
    runAfter := dueAt
    leaseExpiresAt := none
    lastError := none
    updatedAt := now }

def ensureBlindSpotJob (feed : Feed) (jobs : Table BackgroundJob) (incidentId fragmentId : Id)
    (f : InformationFragment) : Table BackgroundJob :=
  match feed.incidents.get incidentId with
  | some incident =>
      if f.claimValue ≠ some "unknown" || (jobs.first (isDetectionAt fragmentId f.revision)).isSome
      then jobs
      else jobs.insert (detectionJob env now incidentId fragmentId f (graceMinutes env incident f))
  | none => jobs

def cancelBlindSpotJobs (jobs : Table BackgroundJob) (fragmentId : Id) (keep : Option ℕ) :
    Table BackgroundJob :=
  jobs.sweep fun job =>
    if isDetectionOf fragmentId job &&
        (job.status = .queued || job.status = .retry || job.status = .running) &&
        !(keep.any fun revision => isDetectionAt fragmentId revision job) then
      { job with
        status := .canceled
        leaseExpiresAt := none
        lastError := some "canceled because the source report observation changed"
        updatedAt := now }
    else job

end Jobs

section Process
variable (env : Env) (now : Time)

/-- The blind-spot side of processing: detect at once, later, or not at all. -/
def scheduleBlindSpot (db : Db) (incidentId fragmentId : Id) (f : InformationFragment) : Db :=
  if f.claimValue = some "unknown" then
    let db := { db with jobs := cancelBlindSpotJobs now db.jobs fragmentId (some f.revision) }
    if isExplicitlyUncertain env f then
      db.withSpotBoard (runReportBlindSpotDetection env now db.reports db.fragments db.spotBoard
        incidentId fragmentId f.revision (some f.receivedAt) (some 0))
    else
      { db with jobs := ensureBlindSpotJob env now db.feed db.jobs incidentId fragmentId f }
  else { db with jobs := cancelBlindSpotJobs now db.jobs fragmentId none }

def deactivateSpots (db : Db) (incidentId fragmentId : Id) (f : InformationFragment)
    (reason : String) : Db :=
  db.withSpotBoard (deactivateAutomaticBlindSpots env now incidentId db.reports db.fragments
    fragmentId f reason db.spotBoard)

/-- Refresh the projection of every fragment a case currently cites. -/
def projectCited (s : Store) (conflictId : Id) : Table MapFeature :=
  (s.fragments.select fun _ => true).foldl (fun features id =>
    match s.fragments.get id with
    | some f =>
        if (s.evidence.first fun e => e.cites conflictId .fragment id && e.isCurrent).isSome then
          upsertFragmentMapFeature env now features id f
        else features
    | none => features) s.features

def publishFragment (s : Store) (incidentId fragmentId : Id) (eventType : String) : Store :=
  match s.fragments.get fragmentId with
  | none => s
  | some f =>
      let s := { s with features := upsertFragmentMapFeature env now s.features fragmentId f }
      s.emit now incidentId
        { eventType := eventType
          resourceType := .fragment
          resourceId := some fragmentId
          resourceRevision := some f.revision
          payload := fragmentData fragmentId f }

/-- Project the detected case and announce it, unless its evidence was just withdrawn. -/
def publishDetected (s : Store) (incidentId conflictId : Id) (opened announced : Bool) : Store :=
  match s.cases.get conflictId with
  | none => s
  | some x =>
      let s := { s with
        features := upsertConflictMapFeature env now s.features s.fragments s.evidence conflictId x }
      let s := { s with features := projectCited env now s conflictId }
      if announced then
        s.emit now incidentId
          { eventType := if opened then "conflict.opened" else "conflict.updated"
            resourceType := .conflict
            resourceId := some conflictId
            resourceRevision := some x.revision
            payload := [("conflict_id", .ref conflictId), ("fact_key", .str x.factKey),
              ("source", .str "resident_reports")] }
      else s

/-- From the detection to the reconciliation. -/
def settleObservation (s : Store) (incidentId fragmentId : Id) (created : Bool)
    (withdrawn : List Withdrawal) (detection : Option Detection) : Store :=
  let s := (detection.map (·.after)).getD s
  let s := publishFragment env now s incidentId fragmentId
    (if created then "fragment.created" else "fragment.updated")
  let affected := withdrawn.map (·.conflictId)
  match detection with
  | some d =>
      let s := publishDetected env now s incidentId d.conflictId d.opened
        (d.opened || !affected.contains d.conflictId)
      reconcileConflicts env now incidentId withdrawn s (affected ++ [d.conflictId])
  | none => reconcileConflicts env now incidentId withdrawn s affected

def processReportObservation (db : Db) (reportId : Id) (report : Report) :
    Result (Db × Option Detection) := do
  let incidentId := report.incidentId
  let u := upsertReportFragment env now db.fragments reportId report
  let db := { db with fragments := u.fragments }
  let stale := u.changed && !u.created
  let withdrawn := if stale then withdrawals db.cases db.evidence u.id else []
  let db := if stale then
    deactivateSpots env now
      { db with evidence := invalidateFragmentEvidence db.evidence u.id }
      incidentId u.id u.fragment "source_report_updated"
    else db
  let db := scheduleBlindSpot env now db incidentId u.id u.fragment
  if !u.changed then pure (db, none)
  else do
    let detection ← detectStructuredFragmentConflict env now db.sources db.toStore u.id u.fragment
    let s := settleObservation env now db.toStore incidentId u.id u.created withdrawn detection
    let db := { db with toStore := s }
    pure (db.withSpotBoard (resolveAutomaticBlindSpots env now incidentId u.id u.fragment
      detection.isSome db.spotBoard), detection)

def withdrawFragment (f : InformationFragment) : InformationFragment :=
  if f.status = .withdrawn then f
  else { f with status := .withdrawn, revision := f.revision + 1, updatedAt := now }

def deactivateReportObservation (db : Db) (reportId : Id) (report : Report) (reason : String) : Db :=
  let incidentId := report.incidentId
  match db.fragments.find (isReportFragment incidentId reportId) with
  | none => db
  | some (id, f) =>
      let withdrawn := withdrawals db.cases db.evidence id
      let g := withdrawFragment now f
      let db := { db with
        evidence := invalidateFragmentEvidence db.evidence id
        jobs := cancelBlindSpotJobs now db.jobs id none
        fragments := db.fragments.modify id fun _ => g
        features := upsertFragmentMapFeature env now db.features id g }
      let db := deactivateSpots env now db incidentId id g reason
      let s := reconcileConflicts env now incidentId withdrawn db.toStore
        (withdrawn.map (·.conflictId))
      let db := { db with toStore := s }
      db.emit now incidentId
        { eventType := "fragment.withdrawn"
          resourceType := .fragment
          resourceId := some id
          resourceRevision := some g.revision
          payload := [("fragment_id", .ref id), ("reason", .str reason)] }

end Process
end CrisisMosaic
