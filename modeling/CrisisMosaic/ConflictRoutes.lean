import CrisisMosaic.Access
import CrisisMosaic.Conflicts

/-!
# Conflict and fact routes

An operator opens a case, appends evidence to it, decides it and reopens it.
Every change of a case is made for the revision the operator saw. A resident
reads a fact only while it is public and current.
-/

namespace CrisisMosaic
open Relational

def getCase (cases : Table ConflictCase) : Ref → Result (Id × ConflictCase)
  | .id i => found ((cases.get i).map fun x => (i, x)) (notFound "conflict")
  | .name s => found (cases.find fun x => x.aliasName = some s) (notFound "conflict")

def checkCaseRevision (x : ConflictCase) (revision : ℕ) : Result Unit :=
  require (x.revision = revision)
    (conflictError "REVISION_CONFLICT" "conflict revision does not match"
      [("expected_revision", .nat revision), ("current_revision", .nat x.revision)])

structure ConflictCreate where
  aliasName : Option String
  factKey : String
  title : String
  topic : String
  locationText : String
  latitude : Option Latitude
  longitude : Option Longitude
  coordinateSystem : Option CoordinateSystem
  severity : Priority
  evidence : List EvidenceReference
  paired : latitude.isSome = longitude.isSome
  systemGiven : latitude.isSome → coordinateSystem.isSome
  enough : 2 ≤ evidence.length

section Routes
variable (env : Env) (now : Time)

def manualCase (incidentId : Id) (payload : ConflictCreate) : ConflictCase :=
  { incidentId := incidentId
    aliasName := payload.aliasName
    factKey := payload.factKey
    title := payload.title
    topic := payload.topic
    place := ⟨payload.locationText, payload.latitude, payload.longitude, payload.coordinateSystem⟩
    status := .opened
    severity := payload.severity
    detectedAt := now
    resolvedAt := none
    resolution := none
    resolvedBy := none
    revision := 1
    createdAt := now }

def caseEvent (eventType : String) (id : Id) (revision : ℕ) (payload : Dict) : Event :=
  { eventType := eventType
    resourceType := .conflict
    resourceId := some id
    resourceRevision := some revision
    payload := payload }

def Store.projectCase (s : Store) (id : Id) (x : ConflictCase) : Store :=
  { s with features := upsertConflictMapFeature env now s.features s.fragments s.evidence id x }

/-- The alias column is unique; a second case under one alias fails to insert. -/
def createConflict (sources : Sources) (s : Store) (actor : Actor) (header : Option Ref)
    (incidentId : Ref) (payload : ConflictCreate) : Result Store := do
  requireOperator actor
  ensureIncidentAccess actor incidentId header
  let (incidentId, _) ← getIncident s.feed.incidents incidentId
  require (payload.aliasName.all fun a => (s.cases.first fun x => x.aliasName = some a).isNone)
    internalError
  let x := manualCase now incidentId payload
  let id := s.cases.size
  let (evidence, added) ←
    addEvidence env now sources s.fragments id incidentId payload.evidence s.evidence
  let s := { s with cases := s.cases.insert x, evidence := evidence }
  pure ((s.projectCase env now id x).emit now incidentId (caseEvent "conflict.opened" id x.revision
    [("conflict_id", .ref id), ("fact_key", .str x.factKey),
      ("evidence_count", .nat added.length)]))

def appendConflictEvidence (sources : Sources) (s : Store) (actor : Actor) (header : Option Ref)
    (conflictId : Ref) (revision : ℕ) (references : List EvidenceReference) : Result Store := do
  requireOperator actor
  let (id, x) ← getCase s.cases conflictId
  ensureIncidentAccess actor (.id x.incidentId) header
  checkCaseRevision x revision
  let (incidentId, _) ← getIncident s.feed.incidents (.id x.incidentId)
  let (s, added) ← appendEvidence env now sources s id x references "evidence_added"
  let x := bumpRevision x
  pure ((s.projectCase env now id x).emit now incidentId (caseEvent "conflict.updated" id x.revision
    [("conflict_id", .ref id), ("evidence_ids", .arr (added.map .ref))]))

def reopenedFactEvent (factId : Id) (revision : ℕ) (reason : String) : Event :=
  { eventType := "fact_record.under_review"
    resourceType := .fact
    resourceId := some factId
    resourceRevision := some revision
    payload := [("status", .str "under_review"), ("reason", .str reason)] }

/-- The writes of an operator's reopening, once it is allowed. -/
def reopenCase (s : Store) (id : Id) (x : ConflictCase) (reason : String) : Store :=
  let y := reopen x
  let s := s.updateCase id reopen
  let (board, fact) := s.board.markFactUnderReview now id y "conflict_reopened"
  let s := s.withBoard board
  let s := { s with
    feed := s.feed.markAnalysesStale now id y.incidentId "conflict_reopened" }
  let s := (s.projectCase env now id y).emit now y.incidentId
    (caseEvent "conflict.opened" id y.revision
      [("conflict_id", .ref id), ("reopened", .bool true), ("reason", .str reason),
        ("fact_record_id", optRef fact)])
  match fact.bind fun f => (s.facts.records.get f).map fun r => (f, r) with
  | some (f, r) => s.emit now y.incidentId (reopenedFactEvent f r.currentRevision reason)
  | none => s

def reopenConflict (s : Store) (actor : Actor) (header : Option Ref) (conflictId : Ref)
    (revision : ℕ) (reason : String) : Result Store := do
  requireOperator actor
  let (id, x) ← getCase s.cases conflictId
  ensureIncidentAccess actor (.id x.incidentId) header
  checkCaseRevision x revision
  require (x.status = .resolved)
    (conflictError "CONFLICT_NOT_RESOLVED" "only a resolved conflict can be reopened" [])
  let _ ← getIncident s.feed.incidents (.id x.incidentId)
  pure (reopenCase env now s id x reason)

def submitConflictDecision (s : Store) (actor : Actor) (header : Option Ref) (conflictId : Ref)
    (payload : DecisionRequest) : Result Store := do
  requireOperator actor
  let (id, x) ← getCase s.cases conflictId
  ensureIncidentAccess actor (.id x.incidentId) header
  decideConflict now env actor s id payload

end Routes

section Facts

def factPosition (m : MathLib) (r : FactRecord) (system : CoordinateSystem) : Option Point :=
  (r.place.position m).map (·.at system)

def evidenceBrief (id : Id) (e : ConflictEvidence) : Json :=
  let entry (key : String) : Option Json := (e.snapshot.get key).filter fun v =>
    !(v matches .null) && !Json.isStr "" v
  let text := ["description", "answer_text", "content", "label", "claim_value"].findSome? entry
  let summary := (text.bind Json.asStr).map fun s => String.ofList (s.toList.take 240)
  .obj [("evidence_id", .ref id), ("kind", .str e.kind.text), ("source_id", .ref e.sourceId),
    ("source_revision", .nat e.sourceRevision),
    ("claim_key", (e.snapshot.get "claim_key").getD .null),
    ("claim_value", (e.snapshot.get "claim_value").getD .null), ("summary", optStr summary),
    ("observed_at", ((entry "observed_at").or (e.snapshot.get "received_at")).getD .null),
    ("is_current", .bool e.isCurrent)]

def evidenceSummary (evidence : Table ConflictEvidence) (ids : List Id) (references : Bool) : Dict :=
  let rows := ids.filterMap fun i => (evidence.get i).map fun e => (i, e)
  let kinds := rows.map (·.2.kind.text)
  [("count", .nat ids.length), ("resolved_count", .nat rows.length),
    ("by_kind", .obj (kinds.dedup.map fun k => (k, .nat (kinds.count k))))] ++
  if references then [("references", .arr (rows.map fun r => evidenceBrief r.1 r.2))] else []

def analysisReference (feed : Feed) (id : Id) : Option Json :=
  (feed.analyses.get id).map fun a => .obj
    [("id", .ref id), ("status", .str a.status.text), ("is_stale", .bool a.isStale),
      ("input_version", .nat a.inputVersion), ("completed_at", optTime a.completedAt)]

def factData (m : MathLib) (s : Store) (id : Id) (r : FactRecord) (system : CoordinateSystem)
    (internal : Bool) : Dict :=
  let current := s.facts.currentVersion r
  let position := factPosition m r system
  let accepted := current.elim [] (·.acceptedEvidenceIds)
  let latitude : Json := .opt (fun p : Point => .num p.latitude) position
  let longitude : Json := .opt (fun p : Point => .num p.longitude) position
  [("id", .ref id), ("incident_id", .ref r.incidentId), ("fact_key", .str r.factKey),
    ("topic", .str r.topic), ("location_text", .str r.place.locationText),
    ("latitude", latitude), ("longitude", longitude),
    ("coordinate_system", .opt (fun _ => .str system.text) position),
    ("position", .opt (fun _ => .obj [("latitude", latitude), ("longitude", longitude),
      ("coordinate_system", .str system.text)]) position),
    ("status", .str r.status.text), ("is_public", .bool r.isPublic),
    ("revision", .nat r.currentRevision),
    ("statement", .opt (fun v : FactVersion => .str v.statement) current),
    ("confidence", .opt .num (current.bind (·.confidence))),
    ("evidence_summary", .obj (evidenceSummary s.evidence accepted internal)),
    ("valid_from", optTime (current.map (·.validFrom))), ("created_at", .time r.createdAt),
    ("updated_at", .time r.updatedAt)] ++
  if internal then
    [("source_conflict_id", optRef (current.bind (·.sourceConflictId))),
      ("source_analysis_id", optRef (current.bind (·.sourceAnalysisId))),
      ("ai_analysis_reference",
        ((current.bind (·.sourceAnalysisId)).bind (analysisReference s.feed)).getD .null),
      ("accepted_evidence_ids", .arr (accepted.map .ref))]
  else []

/-- What the fact endpoints let a resident read. -/
def FactRecord.isOpen (r : FactRecord) : Bool := r.isPublic && r.status = .current

def getFactRecord (m : MathLib) (s : Store) (actor : Actor) (header : Option Ref) (id : Id)
    (system : CoordinateSystem) : Result Dict := do
  let r ← found (s.facts.records.get id) (notFound "fact record")
  ensureIncidentAccess actor (.id r.incidentId) header
  require (actor.isResident = true → r.isOpen = true)
    (forbidden "FACT_NOT_PUBLIC" "fact record is not public")
  pure (factData m s id r system !actor.isResident)

end Facts
end CrisisMosaic
