import CrisisMosaic.Evidence
import CrisisMosaic.Facts

/-!
# Conflict cases

`find_or_open_structured_conflict`, `detect_structured_fragment_conflict` and
`decide_conflict` over the tables of a store.
-/

namespace CrisisMosaic
open Relational

namespace Store

def board (s : Store) : FactBoard := ⟨s.facts, s.features⟩

def withBoard (s : Store) (b : FactBoard) : Store :=
  { s with facts := b.facts, features := b.features }

def emit (s : Store) (now : Time) (incidentId : Id) (e : Event) : Store :=
  { s with feed := s.feed.emitEvent now incidentId e }

def updateCase (s : Store) (id : Id) (f : ConflictCase → ConflictCase) : Store :=
  { s with cases := s.cases.modify id f }

end Store

namespace AiAnalysis

def concerns (conflictId : Id) (a : AiAnalysis) : Bool :=
  a.analysisType = .conflictAnalysis &&
    (a.inputSnapshot.get "conflict_id").any (Json.isRef conflictId)

end AiAnalysis

def Feed.markAnalysesStale (feed : Feed) (now : Time) (conflictId incidentId : Id)
    (reason : String) : Feed :=
  { feed with
    analyses := feed.analyses.sweep fun a =>
      if a.concerns conflictId && a.incidentId = incidentId && !a.isStale then
        { a with isStale := true, staleAt := some now, staleReason := some reason }
      else a }

theorem Feed.markAnalysesStale_analysesKept (feed : Feed) (now : Time) (conflictId incidentId : Id)
    (reason : String) :
    feed.AnalysesKept (feed.markAnalysesStale now conflictId incidentId reason) := by
  intro i y hy ht
  simp only [markAnalysesStale, Table.get_sweep] at hy
  obtain ⟨x, hx, rfl⟩ := Option.map_eq_some_iff.mp hy
  refine ⟨x, hx, ?_⟩
  split_ifs at ht ⊢ <;> exact ⟨ht, rfl, rfl⟩

section Matching
variable (env : Env) (now : Time)

/-- Within `conflict_radius_m` of each other, or the same address. -/
def likelySamePlace (candidate current : Place) : Bool :=
  match current.position env.math, candidate.position env.math with
  | some here, some there =>
      decide (haversineM env.math here.wgs84 there.wgs84 ≤ env.settings.conflictRadiusM) ||
        addressesLikelySame env.text candidate.locationText current.locationText
  | _, _ => addressesLikelySame env.text candidate.locationText current.locationText

/-- The arguments of `find_or_open_structured_conflict`. -/
structure ConflictCall where
  incidentId : Id
  factKey : String
  title : String
  topic : String
  place : Place
  fragments : List Id

variable (s : Store) (call : ConflictCall)

def candidateFactKeys : List String :=
  call.factKey :: call.fragments.filterMap fun id => (s.fragments.get id).bind (·.claimKey)

def newestFirst {α : Type} (t : Table α) (created : α → Time) (ids : List Id) : List Id :=
  ids.insertionSort fun i j =>
    (t.get j).elim 0 created ≤ (t.get i).elim 0 created

theorem mem_newestFirst {α : Type} {t : Table α} {created : α → Time} {ids : List Id} {id : Id} :
    id ∈ newestFirst t created ids ↔ id ∈ ids :=
  (List.perm_insertionSort _ ids).mem_iff

def candidateCases : List Id :=
  newestFirst s.cases (·.createdAt) (s.cases.select fun x =>
    x.incidentId = call.incidentId && (candidateFactKeys s call).contains x.factKey)

def acceptsCandidate (x : ConflictCase) : Bool :=
  likelySamePlace env x.place call.place &&
    decide (now - x.detectedAt ≤ hours env.settings.conflictWindowHours)

def findCandidate : Option Id :=
  (candidateCases s call).find? fun id => (s.cases.get id).any (acceptsCandidate env now call)

end Matching

section FindOrOpen
variable (env : Env) (now : Time)

def freshCase (call : ConflictCall) : ConflictCase :=
  { incidentId := call.incidentId
    aliasName := none
    factKey := call.factKey
    title := call.title
    topic := call.topic
    place := call.place
    status := .opened
    severity := .high
    detectedAt := now
    resolvedAt := none
    resolution := none
    resolvedBy := none
    revision := 1
    createdAt := now }

def reopen (x : ConflictCase) : ConflictCase :=
  { x with
    status := .reopened
    resolvedAt := none
    resolvedBy := none
    resolution := none
    revision := x.revision + 1 }

def bumpRevision (x : ConflictCase) : ConflictCase := { x with revision := x.revision + 1 }

def reopenStructured (s : Store) (id : Id) (x : ConflictCase) : Store :=
  let s := s.updateCase id reopen
  let s := { s with
    feed := s.feed.markAnalysesStale now id x.incidentId "conflict_reopened_with_new_evidence" }
  s.withBoard (s.board.markFactUnderReview now id (reopen x) "conflict_reopened").1

/-- The case the contradiction goes to, and whether it was opened for it. -/
def openCase (s : Store) (call : ConflictCall) : Store × Id × Bool × Bool :=
  match findCandidate env now s call with
  | none => ({ s with cases := s.cases.insert (freshCase now call) }, s.cases.size, true, false)
  | some id =>
      match s.cases.get id with
      | some x =>
          if x.status = .resolved then (reopenStructured now s id x, id, true, true)
          else (s, id, false, true)
      | none => (s, id, false, true)

def fragmentReferences (fragments : Table InformationFragment) (ids : List Id) :
    List EvidenceReference :=
  ids.map fun id => ⟨.fragment, id, (fragments.get id).map (·.revision)⟩

/-- Some fragment's present version is not among the case's evidence. -/
def hasNewSnapshot (s : Store) (conflictId : Id) (ids : List Id) : Bool :=
  ids.any fun id => (s.evidence.first fun e => e.cites conflictId .fragment id &&
    some e.sourceRevision = (s.fragments.get id).map (·.revision)).isNone

def setFragmentStatus (fragments : Table InformationFragment) (status : FragmentStatus)
    (ids : List Id) : Table InformationFragment :=
  ids.foldl (fun fragments id => fragments.modify id fun f =>
    { f with status := status, updatedAt := now }) fragments

def extendCase (s : Store) (id incidentId : Id) (reason : String) : Store :=
  let s := s.updateCase id bumpRevision
  { s with feed := s.feed.markAnalysesStale now id incidentId reason }

/-- Evidence appended to a case outside the detection. -/
def appendEvidence (sources : Sources) (s : Store) (id : Id) (x : ConflictCase)
    (references : List EvidenceReference) (reason : String) : Result (Store × List Id) := do
  let (evidence, added) ← addEvidence env now sources s.fragments id x.incidentId references s.evidence
  pure (extendCase now { s with evidence := evidence } id x.incidentId reason, added)

def findOrOpenStructuredConflict (sources : Sources) (s : Store) (call : ConflictCall) :
    Result (Store × Id × Bool) := do
  let (s, id, opened, existed) := openCase env now s call
  let isNew := hasNewSnapshot s id call.fragments
  let (evidence, _) ← addEvidence env now sources s.fragments id call.incidentId
    (fragmentReferences s.fragments call.fragments) s.evidence
  let s := { s with evidence := evidence }
  let s := if existed && isNew && !opened then
    extendCase now s id call.incidentId "evidence_updated" else s
  let s := { s with fragments := setFragmentStatus now s.fragments .conflict call.fragments }
  pure (s, id, opened)

end FindOrOpen

section Detect
variable (env : Env) (now : Time)

def fragmentsShareSource (first second : InformationFragment) : Bool :=
  if truthy first.sourceClusterId && truthy second.sourceClusterId then
    first.sourceClusterId = second.sourceClusterId
  else
    first.sourceType = second.sourceType && first.sourceRefId.isSome &&
      first.sourceRefId = second.sourceRefId

def isKnown (value : Option String) : Bool :=
  truthy value && !(value.any (isUnknown env.text))

/-- A claim that can be compared: a key, a known value and somewhere to compare it. -/
def isComparable (f : InformationFragment) : Bool :=
  truthy f.claimKey && isKnown env f.claimValue &&
    ((f.place.position env.math).isSome || !(normalizeAddress env.text f.place.locationText).isEmpty)

def contradicts (f candidate : InformationFragment) : Bool :=
  candidate.incidentId = f.incidentId && candidate.topic = f.topic &&
    candidate.claimValue.isSome && candidate.claimValue ≠ f.claimValue &&
    (candidate.status = .normal || candidate.status = .conflict) &&
    !fragmentsShareSource f candidate && isKnown env candidate.claimValue &&
    decide (|f.time - candidate.time| ≤ hours env.settings.conflictWindowHours) &&
    likelySamePlace env candidate.place f.place

def matchingFragments (fragments : Table InformationFragment) (id : Id)
    (f : InformationFragment) : List Id :=
  (fragments.select (contradicts env f)).filter (· ≠ id)

def detectionCall (id : Id) (f : InformationFragment) (matching : List Id) : ConflictCall :=
  { incidentId := f.incidentId
    factKey := f.claimKey.getD ""
    title := f.label ++ " 信息冲突"
    topic := f.topic
    place := f.place
    fragments := matching ++ [id] }

/-- The call the detection makes, when the fragment contradicts another one. -/
def detectedCall (fragments : Table InformationFragment) (id : Id) (f : InformationFragment) :
    Option ConflictCall :=
  let matching := matchingFragments env fragments id f
  if isComparable env f && !matching.isEmpty then some (detectionCall id f matching) else none

/-- One call of `find_or_open_structured_conflict`: its arguments, the store it was made on,
and what it returned. -/
structure Detection where
  call : ConflictCall
  before : Store
  after : Store
  conflictId : Id
  opened : Bool

def callFindOrOpen (sources : Sources) (s : Store) (call : ConflictCall) : Result Detection := do
  let (t, id, opened) ← findOrOpenStructuredConflict env now sources s call
  pure ⟨call, s, t, id, opened⟩

def detectStructuredFragmentConflict (sources : Sources) (s : Store) (id : Id)
    (f : InformationFragment) : Result (Option Detection) :=
  match detectedCall env s.fragments id f with
  | none => pure none
  | some call => some <$> callFindOrOpen env now sources s call

end Detect

/-- `values.most_common(1)`: the most frequent value, the first met on a tie. -/
def mostCommon (values : List String) : Option (String × ℕ) :=
  values.foldl (fun best v =>
    if best.elim 0 (·.2) < values.count v then some (v, values.count v) else best) none

def validAnswerConsensus (text : TextLib) (answers : Table DirectedAnswer) (questionId : Id) :
    Option String × ℕ × List String :=
  let values := (answers.rows.filter fun a =>
    a.questionId = questionId && !isUnknown text a.semanticValue).map (·.semanticValue)
  match mostCommon values with
  | none => (none, 0, [])
  | some (value, count) => (some value, count, values.dedup)

/-- `ConflictDecisionRequest`; its schema admits these two fact states only. -/
structure DecisionRequest where
  revision : ℕ
  decision : String
  evidenceDecisions : List EvidenceDisposition
  conclusion : String
  note : Option String
  analysisId : Option Id
  expectedFactRevision : ℕ
  confidence : Option ℚ
  factStatus : {s : FactStatus // s = .current ∨ s = .underReview}
  isPublic : Bool
  distinct : (evidenceDecisions.map (·.evidenceId)).Nodup
  someAccepted : ∃ d ∈ evidenceDecisions, d.disposition = .accepted

def DecisionRequest.acceptedIds (p : DecisionRequest) : List Id :=
  (p.evidenceDecisions.filter fun d => d.disposition = .accepted).map (·.evidenceId)

def DecisionRequest.submittedIds (p : DecisionRequest) : List Id :=
  p.evidenceDecisions.map (·.evidenceId)

def EvidenceDisposition.data (d : EvidenceDisposition) : Json :=
  .obj [("evidence_id", .ref d.evidenceId),
    ("disposition", .str (match d.disposition with
      | .accepted => "accepted" | .rejected => "rejected" | .uncertain => "uncertain")),
    ("note", optStr d.note)]

def DecisionRequest.data (p : DecisionRequest) : Dict :=
  [("revision", .nat p.revision), ("decision", .str p.decision),
    ("evidence_decisions", .arr (p.evidenceDecisions.map (·.data))),
    ("conclusion", .str p.conclusion), ("note", optStr p.note),
    ("analysis_id", optRef p.analysisId), ("expected_fact_revision", .nat p.expectedFactRevision),
    ("confidence", .opt .num p.confidence), ("fact_status", .str p.factStatus.1.text),
    ("is_public", .bool p.isPublic)]

def currentEvidence (evidence : Table ConflictEvidence) (conflictId : Id) : List Id :=
  evidence.select fun e => e.conflictId = conflictId && e.isCurrent

theorem mem_currentEvidence {evidence : Table ConflictEvidence} {conflictId i : Id} :
    i ∈ currentEvidence evidence conflictId ↔
      ∃ e, evidence.get i = some e ∧ e.conflictId = conflictId ∧ e.isCurrent = true := by
  simp [currentEvidence, Table.mem_select]

section Decide
variable (now : Time)

def usableAnalysis (analyses : Table AiAnalysis) (id : Id) (x : ConflictCase) :
    Option Id → Result (Option (Id × AiAnalysis))
  | none => pure none
  | some analysisId => do
      let invalid := unprocessable "INVALID_AI_ANALYSIS" "AI analysis is not usable"
      let a ← found (analyses.get analysisId) invalid
      require (a.incidentId = x.incidentId ∧ a.status = .succeeded ∧ a.concerns id = true) invalid
      require (a.isStale = false ∧ a.inputVersion = x.revision)
        (conflictError "AI_ANALYSIS_STALE" "AI analysis is stale" [])
      pure (some (analysisId, a))

def decidedFact (x : ConflictCase) (payload : DecisionRequest) : FactRecord :=
  { incidentId := x.incidentId
    factKey := x.factKey
    topic := x.topic
    place := x.place
    currentVersionId := none
    currentRevision := 0
    status := payload.factStatus.1
    isPublic := payload.isPublic
    createdAt := now
    updatedAt := now }

/-- The fact of the case with its record, inserted if the case has none. -/
def factForDecision (facts : Facts) (x : ConflictCase) (payload : DecisionRequest) :
    Result (Facts × Id × FactRecord × Bool) :=
  match facts.lookup x.incidentId x.factKey with
  | none => do
      require (payload.expectedFactRevision = 0)
        (conflictError "FACT_REVISION_CONFLICT" "fact record does not exist"
          [("current_revision", .nat 0)])
      let record := decidedFact now x payload
      pure ({ facts with records := facts.records.insert record }, facts.records.size, record, true)
  | some (id, record) => do
      require (record.currentRevision = payload.expectedFactRevision)
        (conflictError "FACT_REVISION_CONFLICT" "fact revision does not match"
          [("current_revision", .nat record.currentRevision)])
      pure (facts, id, record, false)

def decisionDraft (id : Id) (payload : DecisionRequest) (analysis : Option (Id × AiAnalysis))
    (actor : Actor) : VersionDraft :=
  { status := payload.factStatus.1
    isPublic := payload.isPublic
    statement := payload.conclusion
    confidence := payload.confidence
    sourceConflictId := id
    sourceAnalysisId := analysis.map (·.1)
    contextSnapshot := analysis.bind (·.2.contextPackage)
    acceptedEvidenceIds := payload.acceptedIds
    decisionSnapshot := payload.data
    decidedBy := some actor.subjectId }

def resolveCase (x : ConflictCase) (by_ : Option Id) (resolution : Dict) (bump : Bool) :
    ConflictCase :=
  { x with
    status := .resolved
    resolvedAt := some now
    resolvedBy := by_
    resolution := some resolution
    revision := if bump then x.revision + 1 else x.revision }

def dispositionOf (payload : DecisionRequest) (evidenceId : Id) : Option Disposition :=
  (payload.evidenceDecisions.find? fun d => d.evidenceId = evidenceId).map (·.disposition)

/-- The fragment of a disposed row of evidence, with its projection. -/
def disposeFragment (env : Env) (payload : DecisionRequest) (evidence : Table ConflictEvidence)
    (s : Store) (evidenceId : Id) : Store :=
  match evidence.get evidenceId with
  | some e =>
      if e.kind = .fragment then
        match s.fragments.get e.sourceId with
        | some f =>
            let f := { f with
              status := if dispositionOf payload evidenceId = some .accepted then .resolved else .normal
              revision := f.revision + 1
              updatedAt := now }
            { s with
              fragments := s.fragments.modify e.sourceId fun _ => f
              features := upsertFragmentMapFeature env now s.features e.sourceId f }
        | none => s
      else s
  | none => s

def factFeatureData (factId : Id) (factKey statement : String) (revision conflictId : ℕ) : Dict :=
  [("fact_record_id", .ref factId), ("fact_key", .str factKey), ("statement", .str statement),
    ("fact_revision", .nat revision), ("source_conflict_id", .ref conflictId)]

def decidedFeature (env : Env) (x : ConflictCase) (factId : Id) (revision : ℕ)
    (payload : DecisionRequest) (data : Dict) : MapFeature :=
  { incidentId := x.incidentId
    kind := .fact
    sourceRef := factId
    title := x.title
    status := .fact payload.factStatus.1
    severity := x.severity
    position := x.place.position env.math
    revision := revision
    isDeleted := false
    publicData := if payload.isPublic then data else []
    privateData := data
    updatedAt := now }

def publishFactFeature (features : Table MapFeature) (f : MapFeature) : Table MapFeature :=
  match features.first (MapFeature.isFor f.incidentId .fact f.sourceRef) with
  | some i => features.modify i fun old => { f with severity := old.severity }
  | none => features.insert f

def decisionVisibility (payload : DecisionRequest) : Visibility :=
  if payload.isPublic then .public else .operators

def decideConflict (env : Env) (actor : Actor) (s : Store) (id : Id) (payload : DecisionRequest) :
    Result Store := do
  let x ← found (s.cases.get id) (notFound "conflict")
  require (x.revision = payload.revision)
    (conflictError "REVISION_CONFLICT" "conflict revision does not match"
      [("current_revision", .nat x.revision)])
  require (x.status ≠ .resolved)
    (conflictError "CONFLICT_ALREADY_RESOLVED" "conflict is already resolved" [])
  let evidenceIds := currentEvidence s.evidence id
  let missing := evidenceIds.filter fun e => !payload.submittedIds.contains e
  let unknown := payload.submittedIds.filter fun e => !evidenceIds.contains e
  require (missing = [] ∧ unknown = [])
    ⟨422, "INCOMPLETE_EVIDENCE_DISPOSITION",
      "every current evidence item must be explicitly disposed",
      [("missing_evidence_ids", .arr (missing.map .ref)),
        ("unknown_evidence_ids", .arr (unknown.map .ref))]⟩
  let analysis ← usableAnalysis s.feed.analyses id x payload.analysisId
  let decisionId := s.decisions.size
  let decisions := s.decisions.insert
    ⟨id, x.revision, analysis.map (·.1), payload.evidenceDecisions, payload.conclusion,
      payload.note, actor.subjectId⟩
  let (facts, factId, record, created) ← factForDecision now s.facts x payload
  let facts := facts.appendVersion now factId record (decisionDraft id payload analysis actor)
  let revision := record.currentRevision + 1
  let y := resolveCase now x (some actor.subjectId)
    [("decision_id", .ref decisionId), ("conclusion", .str payload.conclusion),
      ("accepted_evidence_ids", .arr (payload.acceptedIds.map .ref)),
      ("analysis_id", optRef (analysis.map (·.1)))] true
  let s := { s with
    decisions := decisions
    facts := facts
    cases := s.cases.modify id fun _ => y
    features := upsertConflictMapFeature env now s.features s.fragments s.evidence id y }
  let s := evidenceIds.foldl (disposeFragment now env payload s.evidence) s
  let data := factFeatureData factId x.factKey payload.conclusion revision id
  let s := { s with
    features := publishFactFeature s.features (decidedFeature now env x factId revision payload data) }
  let s := s.emit now x.incidentId
    { eventType := "conflict.resolved"
      resourceType := .conflict
      resourceId := some id
      resourceRevision := some y.revision
      payload := [("conflict_id", .ref id), ("fact_record_id", .ref factId),
        ("fact_record_revision", .nat revision)]
      visibility := decisionVisibility payload }
  pure (s.emit now x.incidentId
    { eventType := if created then "fact_record.created" else "fact_record.updated"
      resourceType := .fact
      resourceId := some factId
      resourceRevision := some revision
      payload := data
      visibility := decisionVisibility payload })

end Decide
end CrisisMosaic
