import CrisisMosaic.Access
import CrisisMosaic.ReportObservations

/-!
# Blind spots, questions and answers

Operators ask residents about a blind spot. An answer is observed through a
fragment of its own: agreeing answers resolve the blind spot, disagreeing ones
open a conflict.
-/

namespace CrisisMosaic.Questions
open Relational

structure LocationInput where
  latitude : Option Latitude
  longitude : Option Longitude
  coordinateSystem : Option CoordinateSystem
  paired : latitude.isSome = longitude.isSome
  systemGiven : latitude.isSome → coordinateSystem.isSome

def LocationInput.place (l : LocationInput) (locationText : String) : Place :=
  ⟨locationText, l.latitude, l.longitude, l.coordinateSystem⟩

def questionData (id : Id) (q : DirectedQuestion) : Dict :=
  [("id", .ref id), ("incident_id", .ref q.incidentId), ("blind_spot_id", .ref q.blindSpotId),
    ("title", .str q.title), ("location_text", .str q.locationText),
    ("target_geometry", .opt .obj q.targetGeometry),
    ("route_impact_count", .nat q.routeImpactCount), ("answer_type", .str "single_choice"),
    ("options", .arr (q.options.map fun o => .obj [("id", .str o.id), ("label", .str o.label),
      ("semantic_value", optStr o.semanticValue)])),
    ("status", .str q.status.text), ("expires_at", optTime q.expiresAt),
    ("revision", .nat q.revision), ("created_at", .time q.createdAt),
    ("updated_at", .time q.updatedAt)]

def answerData (id : Id) (a : DirectedAnswer) (attachmentIds : List Id) : Dict :=
  [("id", .ref id), ("question_id", .ref a.questionId), ("option_id", .str a.optionId),
    ("semantic_value", .str a.semanticValue), ("answer_text", .str a.answerText),
    ("observed_latitude", .opt (fun q : Latitude => .num q) a.observedLatitude),
    ("observed_longitude", .opt (fun q : Longitude => .num q) a.observedLongitude),
    ("observed_coordinate_system",
      .opt (fun s : CoordinateSystem => .str s.text) a.observedCoordinateSystem),
    ("attachment_ids", .arr (attachmentIds.map .ref)), ("revision", .nat a.revision),
    ("created_at", .time a.createdAt), ("updated_at", .time a.updatedAt)]

/-- The clusters of resident reports stay inside the service. -/
def fragmentData (id : Id) (f : InformationFragment) : Dict :=
  [("id", .ref id), ("incident_id", .ref f.incidentId), ("source_type", .str f.sourceType.text),
    ("source_ref_id", optRef f.sourceRefId),
    ("source_cluster_id",
      if f.sourceType = .residentReport then .null else optStr f.sourceClusterId),
    ("topic", .str f.topic), ("claim_key", optStr f.claimKey),
    ("claim_value", optStr f.claimValue), ("label", .str f.label),
    ("description", .str f.description)] ++ f.place.entries ++
  [("shape", .str "circle"), ("status", .str f.status.text), ("confidence", .num f.confidence),
    ("observed_at", optTime f.observedAt), ("received_at", .time f.receivedAt),
    ("revision", .nat f.revision), ("created_at", .time f.createdAt),
    ("updated_at", .time f.updatedAt)]

section Target

def number : Json → Option ℚ
  | .num q => some q
  | _ => none

def isTruthy : Json → Bool
  | .null => false
  | .bool b => b
  | .num q => q ≠ 0
  | .str s => !s.isEmpty
  | .arr items => !items.isEmpty
  | .obj d => !d.isEmpty
  | .ref _ | .time _ => true

def isPresent : Json → Bool
  | .null => false
  | _ => true

/-- `region_code in value`; a value that cannot be searched holds no region. -/
def holdsRegion (regionCode : Option String) : Json → Bool
  | .arr codes => codes.any fun c => regionCode.elim (!isPresent c) (Json.isStr · c)
  | .str s => regionCode.any fun r => decide (r.toList <:+: s.toList)
  | .obj d => regionCode.any fun r => d.any fun entry => entry.1 = r
  | _ => false

def regionAllows (geometry : Dict) (regionCode : Option String) : Bool :=
  ((geometry.get "region_codes").filter isTruthy).all (holdsRegion regionCode)

end Target

section Operators
variable (env : Env) (now : Time)

structure BlindSpotCreate extends LocationInput where
  claimKey : String
  title : String
  locationText : String
  scopeType : String
  scopeData : Option Dict
  severity : Priority
  routeImpactCount : ℕ
  minValidAnswers : Option ℕ

def createdSpot (incidentId : Id) (payload : BlindSpotCreate) : BlindSpot :=
  { incidentId := incidentId
    claimKey := payload.claimKey
    title := payload.title
    place := payload.place payload.locationText
    scopeType := payload.scopeType
    scopeData := payload.scopeData
    severity := payload.severity
    routeImpactCount := payload.routeImpactCount
    minValidAnswers := payload.minValidAnswers.getD env.settings.directedMinValidAnswers
    status := .opened
    resolutionValue := none
    revision := 1
    createdAt := now
    updatedAt := now }

def createBlindSpot (db : Db) (actor : Actor) (header : Option Ref) (incidentId : Ref)
    (payload : BlindSpotCreate) : Result Db := do
  requireOperator actor
  ensureIncidentAccess actor incidentId header
  let (incidentId, _) ← getIncident db.feed.incidents incidentId
  let spot := createdSpot env now incidentId payload
  let id := db.blindSpots.size
  let db := db.withSpotBoard (db.spotBoard.add env now spot)
  pure (db.emit now incidentId
    { eventType := "blind_spot.created"
      resourceType := .blindSpot
      resourceId := some id
      resourceRevision := some spot.revision
      payload := blindSpotData id spot })

def listBlindSpots (db : Db) (actor : Actor) (header : Option Ref) (incidentId : Ref)
    (status : Option String) : Result (List Dict) := do
  ensureIncidentAccess actor incidentId header
  let ids := newestFirst db.blindSpots (·.createdAt) (db.blindSpots.select fun b =>
    .id b.incidentId = incidentId && (!truthy status || status = some b.status.text))
  pure (ids.filterMap fun id => (db.blindSpots.get id).map (blindSpotData id))

structure DirectedQuestionCreate where
  blindSpotId : Id
  title : String
  locationText : String
  targetGeometry : Option Dict
  routeImpactCount : ℕ
  options : List QuestionOption
  expiresAt : Option Time
  enough : 2 ≤ options.length
  distinct : (options.map (·.id)).Nodup

def draftQuestion (incidentId : Id) (actor : Actor) (payload : DirectedQuestionCreate) :
    DirectedQuestion :=
  { incidentId := incidentId
    blindSpotId := payload.blindSpotId
    title := payload.title
    locationText := payload.locationText
    targetGeometry := payload.targetGeometry
    routeImpactCount := payload.routeImpactCount
    options := payload.options
    status := .draft
    expiresAt := payload.expiresAt
    createdBy := actor.subjectId
    revision := 1
    createdAt := now
    updatedAt := now }

def createQuestion (db : Db) (actor : Actor) (header : Option Ref) (incidentId : Ref)
    (payload : DirectedQuestionCreate) : Result Db := do
  requireOperator actor
  ensureIncidentAccess actor incidentId header
  require (payload.expiresAt.all fun t => now < t)
    (unprocessable "INVALID_EXPIRY" "expires_at must be in the future")
  let (incidentId, _) ← getIncident db.feed.incidents incidentId
  let blind ← found (db.blindSpots.get payload.blindSpotId) (notFound "blind spot")
  require (blind.incidentId = incidentId) (notFound "blind spot")
  pure { db with questions := db.questions.insert (draftQuestion now incidentId actor payload) }

/-- Publishing or closing a question. -/
def changeQuestionStatus (db : Db) (actor : Actor) (header : Option Ref) (id revision : ℕ)
    (target : QuestionStatus) : Result Db := do
  requireOperator actor
  let q ← found (db.questions.get id) (notFound "question")
  ensureIncidentAccess actor (.id q.incidentId) header
  require (q.revision = revision)
    (conflictError "REVISION_CONFLICT" "question revision does not match"
      [("expected_revision", .nat revision), ("current_revision", .nat q.revision)])
  require (target = .published → q.expiresAt.all fun t => now < t)
    (unprocessable "QUESTION_EXPIRED" "expired question cannot be published")
  let _ ← getIncident db.feed.incidents (.id q.incidentId)
  let q := { q with status := target, revision := q.revision + 1, updatedAt := now }
  let db := { db with questions := db.questions.modify id fun _ => q }
  pure (db.emit now q.incidentId
    { eventType := "question." ++ target.text
      resourceType := .question
      resourceId := some id
      resourceRevision := some q.revision
      payload := questionData id q
      visibility := .public })

def publishQuestion (db : Db) (actor : Actor) (header : Option Ref) (id revision : ℕ) : Result Db :=
  changeQuestionStatus now db actor header id revision .published

def closeQuestion (db : Db) (actor : Actor) (header : Option Ref) (id revision : ℕ) : Result Db :=
  changeQuestionStatus now db actor header id revision .closed

structure FragmentCreate extends LocationInput where
  topic : String
  claimKey : Option String
  claimValue : Option String
  label : String
  description : String
  locationText : String
  confidence : ℚ
  observedAt : Option Time

def operatorFragment (incidentId : Id) (actor : Actor) (payload : FragmentCreate) :
    InformationFragment :=
  { incidentId := incidentId
    sourceType := .operator
    sourceRefId := some actor.subjectId
    sourceClusterId := none
    topic := payload.topic
    claimKey := payload.claimKey
    claimValue := payload.claimValue
    label := payload.label
    description := payload.description
    place := payload.place payload.locationText
    status := .normal
    confidence := payload.confidence
    observedAt := payload.observedAt
    receivedAt := now
    revision := 1
    createdAt := now
    updatedAt := now }

def conflictEvent (eventType : String) (id : Id) (x : ConflictCase) : Event :=
  { eventType := eventType
    resourceType := .conflict
    resourceId := some id
    resourceRevision := some x.revision
    payload := [("conflict_id", .ref id), ("fact_key", .str x.factKey)] }

def fragmentEvent (eventType : String) (id : Id) (f : InformationFragment) : Event :=
  { eventType := eventType
    resourceType := .fragment
    resourceId := some id
    resourceRevision := some f.revision
    payload := fragmentData id f }

/-- Announce and project the case a fragment was found to contradict. -/
def publishConflict (s : Store) (incidentId : Id) (d : Detection) : Store :=
  match s.cases.get d.conflictId with
  | some x =>
      let s := s.emit now incidentId
        (conflictEvent (if d.opened then "conflict.opened" else "conflict.updated") d.conflictId x)
      { s with
        features := upsertConflictMapFeature env now s.features s.fragments s.evidence d.conflictId x }
  | none => s

def publishOperatorFragment (s : Store) (incidentId id : Id) : Store :=
  match s.fragments.get id with
  | some f =>
      let s := { s with features := upsertFragmentMapFeature env now s.features id f }
      s.emit now incidentId (fragmentEvent "fragment.created" id f)
  | none => s

def createFragment (db : Db) (actor : Actor) (header : Option Ref) (incidentId : Ref)
    (payload : FragmentCreate) : Result (Db × Option Detection) := do
  requireOperator actor
  ensureIncidentAccess actor incidentId header
  let (incidentId, _) ← getIncident db.feed.incidents incidentId
  let f := operatorFragment now incidentId actor payload
  let id := db.fragments.size
  let s := { db.toStore with fragments := db.fragments.insert f }
  let detection ← detectStructuredFragmentConflict env now db.sources s id f
  let s := match detection with
    | some d => publishConflict env now d.after incidentId d
    | none => s
  pure ({ db with toStore := publishOperatorFragment env now s incidentId id }, detection)

end Operators
end CrisisMosaic.Questions
