import CrisisMosaic.Targets

/-!
# Answering a directed question

`put_my_answer`: the answer replaces the device's earlier one, its fragment
follows it, and the answers to the question are counted again.
-/

namespace CrisisMosaic.Questions
open Relational

structure DirectedAnswerPut extends LocationInput where
  optionId : String
  revision : ℕ
  answerText : Option String
  attachmentIds : List Id
  distinct : attachmentIds.Nodup

/-- An answer the device may give: the question, its blind spot and what the option says. -/
structure Admitted where
  question : DirectedQuestion
  blind : BlindSpot
  semanticValue : String
  answerText : String

/-- `text or fallback` -/
def orText (text : Option String) (fallback : String) : String :=
  (text.filter fun s => !s.isEmpty).getD fallback

section Answer
variable (env : Env) (now : Time)

def admitAnswer (db : Db) (actor : Actor) (header : Option Ref) (questionId : Id)
    (payload : DirectedAnswerPut) : Result Admitted := do
  require actor.isResident (forbidden "RESIDENT_REQUIRED" "only resident devices can answer")
  let q ← found (db.questions.get questionId) (notFound "question")
  ensureIncidentAccess actor (.id q.incidentId) header
  require (q.status = .published) (conflictError "QUESTION_NOT_ACTIVE" "question is not active" [])
  require (q.expiresAt.all fun t => now < t)
    (conflictError "QUESTION_EXPIRED" "question has expired" [])
  let device ← found (db.devices.get actor.subjectId)
    ⟨401, "INVALID_ACCESS_TOKEN", "匿名设备不存在", []⟩
  let inside ← targetMatches env q payload.latitude payload.longitude payload.coordinateSystem
    device.regionCode
  require inside (forbidden "QUESTION_TARGET_MISMATCH" "设备位置不在问题目标范围内")
  let option ← found (q.options.find? fun o => o.id = payload.optionId)
    (unprocessable "INVALID_QUESTION_OPTION" "option is not defined")
  let value := orText option.semanticValue option.id
  let _ ← getIncident db.feed.incidents (.id q.incidentId)
  let blind ← found (db.blindSpots.get q.blindSpotId) (notFound "blind spot")
  pure ⟨q, blind, value, orText payload.answerText (orText (some option.label) value)⟩

def isAnswerOf (questionId deviceId : Id) (a : DirectedAnswer) : Bool :=
  a.questionId = questionId && a.deviceId = deviceId

def writeAnswer (payload : DirectedAnswerPut) (admitted : Admitted) (a : DirectedAnswer) :
    DirectedAnswer :=
  { a with
    optionId := payload.optionId
    semanticValue := admitted.semanticValue
    answerText := admitted.answerText
    observedLatitude := payload.latitude
    observedLongitude := payload.longitude
    observedCoordinateSystem := payload.coordinateSystem
    updatedAt := now }

def firstAnswer (questionId deviceId : Id) : DirectedAnswer :=
  { questionId := questionId
    deviceId := deviceId
    optionId := ""
    semanticValue := ""
    answerText := ""
    observedLatitude := none
    observedLongitude := none
    observedCoordinateSystem := none
    revision := 1
    createdAt := now
    updatedAt := now }

structure StoredAnswer where
  answers : Table DirectedAnswer
  id : Id
  answer : DirectedAnswer
  created : Bool

def storeAnswer (answers : Table DirectedAnswer) (questionId deviceId : Id)
    (payload : DirectedAnswerPut) (admitted : Admitted) : Result StoredAnswer :=
  match answers.find (isAnswerOf questionId deviceId) with
  | none => do
      require (payload.revision = 0)
        (conflictError "REVISION_CONFLICT" "answer does not exist" [("current_revision", .nat 0)])
      let a := writeAnswer now payload admitted (firstAnswer now questionId deviceId)
      pure ⟨answers.insert a, answers.size, a, true⟩
  | some (id, a) => do
      require (a.revision = payload.revision)
        (conflictError "REVISION_CONFLICT" "answer revision does not match"
          [("current_revision", .nat a.revision)])
      let b := writeAnswer now payload admitted { a with revision := a.revision + 1 }
      pure ⟨answers.modify id fun _ => b, id, b, false⟩

def isAnswerFragment (answerId : Id) (f : InformationFragment) : Bool :=
  f.sourceType = .directedAnswer && f.sourceRefId = some answerId

/-- The given coordinates, or those the row had. -/
def LocationInput.over (l : LocationInput) (p : Place) : Place :=
  { p with
    latitude := l.latitude.or p.latitude
    longitude := l.longitude.or p.longitude
    coordinateSystem := l.coordinateSystem.or p.coordinateSystem }

def answerDescription (admitted : Admitted) : String :=
  admitted.question.title ++ ": " ++ admitted.answerText

def firstAnswerFragment (answerId : Id) (payload : DirectedAnswerPut) (admitted : Admitted) :
    InformationFragment :=
  { incidentId := admitted.question.incidentId
    sourceType := .directedAnswer
    sourceRefId := some answerId
    sourceClusterId := none
    topic := admitted.blind.claimKey
    claimKey := some admitted.blind.claimKey
    claimValue := some admitted.semanticValue
    label := admitted.answerText
    description := answerDescription admitted
    place := { payload.over admitted.blind.place with
      locationText := admitted.question.locationText }
    status := .normal
    confidence := 0.6
    observedAt := some now
    receivedAt := now
    revision := 1
    createdAt := now
    updatedAt := now }

def reviseAnswerFragment (payload : DirectedAnswerPut) (admitted : Admitted)
    (f : InformationFragment) : InformationFragment :=
  { f with
    claimValue := some admitted.semanticValue
    label := admitted.answerText
    description := answerDescription admitted
    place := payload.over f.place
    revision := f.revision + 1
    updatedAt := now }

def upsertAnswerFragment (fragments : Table InformationFragment) (answerId : Id)
    (payload : DirectedAnswerPut) (admitted : Admitted) : Table InformationFragment × Id :=
  match fragments.first (isAnswerFragment answerId) with
  | none => (fragments.insert (firstAnswerFragment now answerId payload admitted), fragments.size)
  | some id => (fragments.modify id (reviseAnswerFragment now payload admitted), id)

/-- The newest case that ever cited the fragment. -/
def citingCase (s : Store) (incidentId fragmentId : Id) : Option Id :=
  (newestFirst s.cases (·.createdAt) ((s.cases.select fun x => x.incidentId = incidentId).filter
    fun c => (s.evidence.first fun e => e.cites c .fragment fragmentId).isSome)).head?

/-- An agreeing answer that was changed is evidence of that case at its new revision. -/
def citeAnswer (sources : Sources) (s : Store) (incidentId fragmentId : Id) :
    Result (Store × Option Id) :=
  match citingCase s incidentId fragmentId with
  | none => pure (s, none)
  | some id => do
      let x ← found (s.cases.get id) (notFound "conflict")
      let (s, _) ← appendEvidence env now sources s id x
        [⟨.fragment, fragmentId, (s.fragments.get fragmentId).map (·.revision)⟩]
        "directed_answer_updated"
      pure (s.emit now incidentId (conflictEvent "conflict.updated" id (bumpRevision x)), some id)

/-- What the counted answers mean for the blind spot and its cases. -/
structure Verdict where
  db : Db
  blind : BlindSpot
  changed : Bool
  conflictId : Option Id
  detection : Option Detection

def BlindSpot.settle (b : BlindSpot) (status : BlindSpotStatus) (value : Option String) : BlindSpot :=
  { b with
    status := status
    resolutionValue := value
    revision := b.revision + 1
    updatedAt := now }

def disagreementCall (db : Db) (questionId incidentId : Id) (blind : BlindSpot) : ConflictCall :=
  let answers := db.answers.select fun a => a.questionId = questionId && a.semanticValue ≠ "unknown"
  { incidentId := incidentId
    factKey := blind.claimKey
    title := blind.title ++ " information conflict"
    topic := blind.claimKey
    place := blind.place
    fragments := db.fragments.select fun f => f.sourceType = .directedAnswer &&
      f.sourceRefId.any fun a => answers.contains a }

def announceOpened (s : Store) (incidentId : Id) (d : Detection) : Store :=
  if d.opened then
    match s.cases.get d.conflictId with
    | some x => s.emit now incidentId (conflictEvent "conflict.opened" d.conflictId x)
    | none => s
  else s

def disagree (db : Db) (questionId : Id) (admitted : Admitted) : Result Verdict := do
  let incidentId := admitted.question.incidentId
  let blind := admitted.blind
  let d ← callFindOrOpen env now db.sources db.toStore
    (disagreementCall db questionId incidentId blind)
  let reopened := blind.status = .resolved
  pure
    { db := { db with toStore := announceOpened now d.after incidentId d }
      blind := if reopened then BlindSpot.settle now blind .opened none else blind
      changed := reopened
      conflictId := some d.conflictId
      detection := some d }

def resolveFragment (db : Db) (fragmentId : Id) : Db :=
  { db with fragments := db.fragments.modify fragmentId fun f =>
    { f with status := .resolved, updatedAt := now } }

def reopenQuestion (db : Db) (questionId : Id) : Db :=
  { db with questions := db.questions.modify questionId fun q =>
    { q with status := .published, revision := q.revision + 1, updatedAt := now } }

def agree (db : Db) (questionId fragmentId : Id) (admitted : Admitted)
    (consensus : Option String) (count : ℕ) (conflictId : Option Id) : Verdict :=
  let blind := admitted.blind
  if consensus.isSome ∧ blind.minValidAnswers ≤ count then
    let changed := !(blind.status = .resolved && blind.resolutionValue = consensus)
    { db := resolveFragment now db fragmentId
      blind := if changed then BlindSpot.settle now blind .resolved consensus else blind
      changed := changed
      conflictId := conflictId
      detection := none }
  else if blind.status = .resolved then
    { db := reopenQuestion now db questionId
      blind := BlindSpot.settle now blind .opened none
      changed := true
      conflictId := conflictId
      detection := none }
  else ⟨db, blind, false, conflictId, none⟩

def judgeAnswer (db : Db) (questionId fragmentId : Id) (admitted : Admitted) (created : Bool) :
    Result Verdict := do
  let (consensus, count, values) := validAnswerConsensus env.text db.answers questionId
  if 1 < values.length then disagree env now db questionId admitted
  else do
    let (s, conflictId) ←
      if created then pure (db.toStore, none)
      else citeAnswer env now db.sources db.toStore admitted.question.incidentId fragmentId
    pure (agree now { db with toStore := s } questionId fragmentId admitted consensus count conflictId)

def answerEvent (questionId answerId fragmentId deviceId : Id) (answer : DirectedAnswer)
    (created : Bool) : Event :=
  { eventType := if created then "directed_answer.created" else "directed_answer.updated"
    resourceType := .directedAnswer
    resourceId := some answerId
    resourceRevision := some answer.revision
    payload := [("question_id", .ref questionId), ("answer_id", .ref answerId),
      ("fragment_id", .ref fragmentId)]
    visibility := .owner
    ownerDeviceId := some deviceId }

def blindSpotEvent (id : Id) (blind : BlindSpot) : Event :=
  { eventType := if blind.status = .resolved then "blind_spot.resolved" else "blind_spot.reopened"
    resourceType := .blindSpot
    resourceId := some id
    resourceRevision := some blind.revision
    payload := blindSpotData id blind
    visibility := .public }

/-- Save the blind spot and project everything the answer touched. -/
def projectVerdict (v : Verdict) (spotId fragmentId : Id) (f : InformationFragment) : Db :=
  let db := { v.db with
    blindSpots := v.db.blindSpots.modify spotId fun _ => v.blind
    features := upsertBlindSpotMapFeature env now
      (upsertFragmentMapFeature env now v.db.features fragmentId f) spotId v.blind }
  match v.conflictId.bind fun id => (db.cases.get id).map fun x => (id, x) with
  | some (id, x) => { db with
      features := upsertConflictMapFeature env now db.features db.fragments db.evidence id x }
  | none => db

/-- What the handler commits and what it answers. -/
structure AnswerOutcome where
  db : Db
  response : Dict
  detection : Option Detection

def answerResponse (stored : StoredAnswer) (attachmentIds : List Id) (fragmentId : Id)
    (f : InformationFragment) (spotId : Id) (v : Verdict) : Dict :=
  [("answer", .obj (answerData stored.id stored.answer attachmentIds)),
    ("fragment", .obj (fragmentData fragmentId f)),
    ("blind_spot", .obj (blindSpotData spotId v.blind)),
    ("conflict_id", optRef v.conflictId)]

def announceAnswer (db : Db) (questionId deviceId : Id) (stored : StoredAnswer) (fragmentId : Id)
    (f : InformationFragment) (admitted : Admitted) (v : Verdict) : Db :=
  let incidentId := admitted.question.incidentId
  let db := db.emit now incidentId
    (answerEvent questionId stored.id fragmentId deviceId stored.answer stored.created)
  let db := db.emit now incidentId
    (fragmentEvent (if stored.created then "fragment.created" else "fragment.updated") fragmentId f)
  if v.changed then
    db.emit now incidentId (blindSpotEvent admitted.question.blindSpotId v.blind)
  else db

def putMyAnswer (db : Db) (actor : Actor) (header : Option Ref) (questionId : Id)
    (payload : DirectedAnswerPut) : Result AnswerOutcome := do
  let admitted ← admitAnswer env now db actor header questionId payload
  let stored ← storeAnswer now db.answers questionId actor.subjectId payload admitted
  let attachments ← replaceAnswerAttachments db.attachments stored.id admitted.question.incidentId
    actor.subjectId payload.attachmentIds
  let (fragments, fragmentId) := upsertAnswerFragment now db.fragments stored.id payload admitted
  let db := { db with answers := stored.answers, attachments := attachments, fragments := fragments }
  let v ← judgeAnswer env now db questionId fragmentId admitted stored.created
  let f ← found (v.db.fragments.get fragmentId) (notFound "evidence source")
  let spotId := admitted.question.blindSpotId
  let db := projectVerdict env now v spotId fragmentId f
  pure
    { db := announceAnswer now db questionId actor.subjectId stored fragmentId f admitted v
      response := answerResponse stored payload.attachmentIds fragmentId f spotId v
      detection := v.detection }

end Answer
end CrisisMosaic.Questions
