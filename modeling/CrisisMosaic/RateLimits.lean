import CrisisMosaic.Jobs
import CrisisMosaic.Reachable
import CrisisMosaic.Storage.SlidingWindow
import CrisisMosaic.Submissions

/-!
# Rate limits

Requests that create reports are counted under a key which is made from the headers before the
incident is looked up.
-/

namespace CrisisMosaic
open Relational Storage

structure RateLimitSettings where
  rateLimitEnabled : Bool
  rateLimitReportCreatesPerMinute : ℕ

/-- `_RateLimiter`: the times of each key, on the monotonic clock. -/
structure RateLimiter where
  entries : String → List Time

/-- The seconds after which a refused request may be tried again. -/
def RateLimiter.check (now : Time) (key : String) (limit : ℕ) (l : RateLimiter) : Option ℤ × RateLimiter :=
  let entries := SlidingWindow.expire (seconds 60) now (l.entries key)
  if limit ≤ entries.length then
    (some (max 1 ((seconds 60 - (now - entries.headD now)) / 1000000)),
      ⟨Function.update l.entries key entries⟩)
  else (none, ⟨Function.update l.entries key (entries ++ [now])⟩)

def Ref.text : Ref → String
  | .id i => toString i
  | .name s => s

/-- The key of a report creation. -/
def reportCreateKey (actor : SubjectType × Id) (header : Option Ref) : String :=
  "report_create:" ++ actor.1.text ++ ":" ++ toString actor.2 ++ ":" ++ header.elim "none" Ref.text

namespace ReportRequest
variable (r : ReportRequest)

def subject : SubjectType × Id := (r.actor.subjectType, r.actor.subjectId)

/-- `_rate_limit_rule` -/
def rateLimitRule (settings : RateLimitSettings) : Option (String × ℕ) :=
  if settings.rateLimitEnabled then
    some (reportCreateKey r.subject r.header, settings.rateLimitReportCreatesPerMinute)
  else none

end ReportRequest

/-- A report that was created, with what its request said. -/
structure LimitedCreation where
  time : Time
  subject : SubjectType × Id
  incidentId : Id
  header : Option Ref

/-- `created` has the last creation first. -/
structure LimitedService where
  clock : Time
  limiter : RateLimiter
  db : Db
  records : IdempotencyRecords
  created : List LimitedCreation

structure LimitedEnv extends Env where
  submission : SubmissionSettings
  limits : RateLimitSettings

namespace LimitedService
variable (env : LimitedEnv) (now : Time) (s : LimitedService) (r : ReportRequest)

def initial (clock : Time) (db : Db) : LimitedService := ⟨clock, ⟨fun _ => []⟩, db, .empty, []⟩

/-- The request behind the limiter; an answer that is replayed creates nothing. -/
def serve : LimitedService :=
  match getIncident s.db.feed.incidents r.incident,
      submitReport env.toEnv env.submission now s.db.begin s.records r with
  | .ok (incidentId, _), .ok (db, records, submission) =>
    { s with
      db := db
      records := records
      created :=
        if submission.reportId.isSome then ⟨s.clock, r.subject, incidentId, r.header⟩ :: s.created
        else s.created }
  | _, _ => s

/-- `request_context` of the middleware. -/
def request : LimitedService :=
  match r.rateLimitRule env.limits with
  | none => s.serve env now r
  | some (key, limit) =>
    match s.limiter.check s.clock key limit with
    | (some _, limiter) => { s with limiter := limiter }
    | (none, limiter) => serve env now { s with limiter := limiter } r

end LimitedService

/-- Between two requests anything may happen to the data. -/
inductive LimitedStep
  | wait (elapsed : ℕ)
  | request (now : Time) (r : ReportRequest)
  | others (db : Db) (records : IdempotencyRecords)

def limitedStep (env : LimitedEnv) (s : LimitedService) : LimitedStep → LimitedService
  | .wait elapsed => { s with clock := s.clock + elapsed }
  | .request now r => s.request env now r
  | .others db records => { s with db := db, records := records }

end CrisisMosaic
