import CrisisMosaic.AiQueue
import CrisisMosaic.Answers
import CrisisMosaic.Relational.Run
import CrisisMosaic.Reports

/-!
# The service

Every request and every worker job is one transaction under the write lock: it
commits what its handler returns or leaves the store as it was. A run is a list
of such operations from a new deployment.
-/

namespace CrisisMosaic
open Relational

/-- The blind-spot job of a worker, which may have read the job before it was canceled. -/
def runBlindSpotJob (env : Env) (now : Time) (db : Db) (jobId : Id) : Result Db := do
  let job ← found (db.jobs.get jobId) (notFound "job")
  require (job.jobType = .blindSpotDetect) (notFound "job")
  let dueAt := match job.payload.get "due_at" with
    | some (.time t) => t
    | _ => job.runAfter
  if now < dueAt then
    pure { db with jobs := db.jobs.modify jobId fun j =>
      { j with
        status := .queued
        attempts := j.attempts - 1
        runAfter := dueAt
        leaseExpiresAt := none
        lastError := some "deferred until the fixed blind-spot due time"
        updatedAt := now } }
  else
    match (job.payload.get "incident_id").bind Json.asRef,
        (job.payload.get "fragment_id").bind Json.asRef,
        (job.payload.get "fragment_revision").bind Questions.number with
    | some incidentId, some fragmentId, some revision =>
        pure (db.withSpotBoard (runReportBlindSpotDetection env now db.reports db.fragments
          db.spotBoard incidentId fragmentId revision.num.toNat (some dueAt)
          (((job.payload.get "grace_minutes").bind Questions.number).map (·.num.toNat))))
    | _, _, _ => throw internalError

inductive Call
  | postReport (incident : Ref) (payload : ReportCreate) (refinement : Result (Option Priority))
      (contact : Result Unit)
  | patchReport (report : Id) (payload : ReportPatch) (refinement : Result (Option Priority))
  | deleteReport (report revision : ℕ)
  | patchReportStatus (report revision : ℕ) (status : ReportStatus)
  | patchReportPriority (report revision : ℕ) (priority : Option Priority)
      (refinement : Result (Option Priority))
  | createBlindSpot (incident : Ref) (payload : Questions.BlindSpotCreate)
  | createQuestion (incident : Ref) (payload : Questions.DirectedQuestionCreate)
  | publishQuestion (question revision : ℕ)
  | closeQuestion (question revision : ℕ)
  | putMyAnswer (question : Id) (payload : Questions.DirectedAnswerPut)
  | createFragment (incident : Ref) (payload : Questions.FragmentCreate)
  | createConflict (incident : Ref) (payload : ConflictCreate)
  | appendConflictEvidence (conflict : Ref) (revision : ℕ) (references : List EvidenceReference)
  | reopenConflict (conflict : Ref) (revision : ℕ) (reason : String)
  | submitConflictDecision (conflict : Ref) (payload : DecisionRequest)
  | requestAnalysis (conflict : Ref) (incident : Option Ref) (revision : ℕ) (requested : List Id)
  | startAnalysis (analysis : Id)
  | completeAnalysis (analysis : Id) (output : Dict) (confidence : ℚ) (seenStale : Bool)
  | failAnalysis (analysis : Id) (error : ApiError)
  | retryAnalysis (analysis : Id)
  | runBlindSpotJob (job : Id)
  /-- The upload service rewrites the attachments. -/
  | uploads (attachments : Table Attachment)

structure Op where
  now : Time
  actor : Actor
  header : Option Ref
  call : Call

/-- What a transaction commits, and the conflict detection it made on the way, if any. -/
structure Outcome where
  db : Db
  detection : Option Detection := none

def Outcome.ofDb (db : Db) : Outcome := { db := db }
def Outcome.ofStore (db : Db) (s : Store) : Outcome := { db := { db with toStore := s } }
def Outcome.ofPair (r : Db × Option Detection) : Outcome := ⟨r.1, r.2⟩

def handle (env : Env) (db : Db) (op : Op) : Result Outcome :=
  let now := op.now
  let actor := op.actor
  let header := op.header
  match op.call with
  | .postReport incident payload refinement contact =>
      Outcome.ofPair <$> postReport env now db actor header incident payload refinement contact
  | .patchReport report payload refinement =>
      Outcome.ofPair <$> patchReport env now db actor header report payload refinement
  | .deleteReport report revision =>
      Outcome.ofDb <$> deleteReport env now db actor header report revision
  | .patchReportStatus report revision status =>
      Outcome.ofPair <$> patchReportStatus env now db actor header report revision status
  | .patchReportPriority report revision priority refinement =>
      Outcome.ofDb <$> patchReportPriority now db actor header report revision priority refinement
  | .createBlindSpot incident payload =>
      Outcome.ofDb <$> Questions.createBlindSpot env now db actor header incident payload
  | .createQuestion incident payload =>
      Outcome.ofDb <$> Questions.createQuestion now db actor header incident payload
  | .publishQuestion question revision =>
      Outcome.ofDb <$> Questions.publishQuestion now db actor header question revision
  | .closeQuestion question revision =>
      Outcome.ofDb <$> Questions.closeQuestion now db actor header question revision
  | .putMyAnswer question payload =>
      (fun r => ⟨r.db, r.detection⟩) <$>
        Questions.putMyAnswer env now db actor header question payload
  | .createFragment incident payload =>
      Outcome.ofPair <$> Questions.createFragment env now db actor header incident payload
  | .createConflict incident payload =>
      Outcome.ofStore db <$>
        createConflict env now db.sources db.toStore actor header incident payload
  | .appendConflictEvidence conflict revision references =>
      Outcome.ofStore db <$>
        appendConflictEvidence env now db.sources db.toStore actor header conflict revision references
  | .reopenConflict conflict revision reason =>
      Outcome.ofStore db <$> reopenConflict env now db.toStore actor header conflict revision reason
  | .submitConflictDecision conflict payload =>
      Outcome.ofStore db <$> submitConflictDecision env now db.toStore actor header conflict payload
  | .requestAnalysis conflict incident revision requested =>
      Outcome.ofDb <$> requestAnalysis env now db actor header conflict incident revision requested
  | .startAnalysis analysis => Outcome.ofStore db <$> startAnalysis db.toStore analysis
  | .completeAnalysis analysis output confidence seenStale =>
      Outcome.ofStore db <$> completeAnalysis env now db.toStore analysis output confidence seenStale
  | .failAnalysis analysis error =>
      Outcome.ofStore db <$> failAnalysis env now db.toStore analysis error
  | .retryAnalysis analysis => Outcome.ofDb <$> retryAnalysis env now db actor header analysis
  | .runBlindSpotJob job => Outcome.ofDb <$> runBlindSpotJob env now db job
  | .uploads attachments => pure (Outcome.ofDb { db with attachments := attachments })

/-- A transaction starts without the markers of the one before. -/
def Db.begin (db : Db) : Db := { db with feed := db.feed.begin }

def transact (env : Env) (db : Db) (op : Op) : Result Outcome := handle env db.begin op

def step (env : Env) (db : Db) (op : Op) : Db :=
  commit db ((·.db) <$> transact env db op)

/-- An operation that is accepted gives the next state. -/
theorem step_of_ok {env : Env} {db : Db} {op : Op} {o : Outcome} (h : transact env db op = .ok o) :
    step env db op = o.db := by
  simp [step, h, Functor.map, Except.map]

theorem step_cases {env : Env} {db : Db} {op : Op} {P : Db → Prop} (h : P db)
    (hok : ∀ o, transact env db op = .ok o → P o.db) : P (step env db op) := by
  refine commit_induction h fun t ht => ?_
  obtain ⟨o, ho, rfl⟩ := map_ok.mp ht
  exact hok o ho

abbrev runFrom (env : Env) : Db → List Op → Db := Relational.run (step env)

end CrisisMosaic
