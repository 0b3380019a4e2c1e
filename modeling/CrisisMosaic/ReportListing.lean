import CrisisMosaic.Storage.Keyset
import CrisisMosaic.System

/-!
# Listing reports

A page is read on its own: it ends with the cursor of its last row, and the next page starts
below the row that cursor names.
-/

namespace CrisisMosaic
open Relational Keyset

deriving instance DecidableEq for Report

/-- The row the page ended with: its time and its identifier. -/
structure Cursor where
  updatedAt : Time
  id : Id
  deriving DecidableEq

structure ReportQuery where
  priority : Option Priority
  category : Option Category
  status : Option ReportStatus
  urgent : Option Bool
  updatedAfter : Option Time
  limit : ℕ
  limit_bounds : 1 ≤ limit ∧ limit ≤ 100

def Priority.rank : Priority → ℕ
  | .high => 3
  | .medium => 2
  | .low => 1

def Report.urgentRank (r : Report) : ℕ := if r.isUrgent then 1 else 0

/-- The filters of the listing. -/
def Report.isListed (incidentId : Id) (actor : Actor) (q : ReportQuery) (r : Report) : Bool :=
  r.incidentId = incidentId && r.deletedAt.isNone && !r.isDirectedAnswer &&
    (!actor.isResident || r.reporterDeviceId = actor.subjectId) &&
    q.priority.all (r.priority = ·) && q.category.all (r.category = ·) &&
    q.status.all (r.status = ·) && q.urgent.all (r.isUrgent = ·) &&
    q.updatedAfter.all (· < r.updatedAt)

def listedRows (reports : Table Report) (incidentId : Id) (actor : Actor) (q : ReportQuery) :
    List (Id × Report) :=
  (reports.select (·.isListed incidentId actor q)).filterMap fun i => (reports.get i).map fun r => (i, r)

structure ReportPage where
  items : List (Id × Report)
  total : ℕ
  hasMore : Bool
  deriving DecidableEq

def encodeCursor (row : Id × Report) : Cursor := ⟨row.2.updatedAt, row.1⟩

def ReportPage.nextCursor (p : ReportPage) : Option Cursor :=
  if p.hasMore then p.items.getLast?.map encodeCursor else none

section Listing
-- the UUIDs of the rows, as numbers
variable (uuid : Id ↪ ℕ)

def applyCursor : Option Cursor → Id × Report → Bool
  | none, _ => true
  | some c, (i, r) => r.updatedAt < c.updatedAt || (r.updatedAt = c.updatedAt && uuid i < uuid c.id)

def invalidCursor : ApiError := unprocessable "INVALID_CURSOR" "cursor is invalid"

/-- The priority and the urgency of the boundary are those its report has now. -/
def applyOperatorCursor (reports : Table Report) (incidentId : Id) :
    Option Cursor → Result (Id × Report → Bool)
  | none => pure fun _ => true
  | some c => do
      let report ← found ((reports.get c.id).filter (·.incidentId = incidentId)) invalidCursor
      let cursorPriority := report.priority.rank
      let cursorUrgent := report.urgentRank
      pure fun (i, r) =>
        r.priority.rank < cursorPriority ||
        (r.priority.rank = cursorPriority && r.urgentRank < cursorUrgent) ||
        (r.priority.rank = cursorPriority && r.urgentRank = cursorUrgent &&
          (r.updatedAt < c.updatedAt || (r.updatedAt = c.updatedAt && uuid i < uuid c.id)))

abbrev ResidentKey := Time ×ₗ ℕ
abbrev OperatorKey := ℕ ×ₗ ℕ ×ₗ Time ×ₗ ℕ

def residentKey (row : Id × Report) : ResidentKey := toLex (row.2.updatedAt, uuid row.1)

def operatorKey (row : Id × Report) : OperatorKey :=
  toLex (row.2.priority.rank, toLex (row.2.urgentRank, residentKey uuid row))

def listReports (db : Db) (actor : Actor) (header : Option Ref) (incident : Ref) (q : ReportQuery)
    (cursor : Option Cursor) : Result ReportPage := do
  let (incidentId, row) ← getIncident db.feed.incidents incident
  assertIncidentAccess actor incidentId row header
  let rows := listedRows db.reports incidentId actor q
  let ordered ← if actor.isResident then
      pure (descending (residentKey uuid) (rows.filter (applyCursor uuid cursor)))
    else do
      let below ← applyOperatorCursor uuid db.reports incidentId cursor
      pure (descending (operatorKey uuid) (rows.filter below))
  let reports := ordered.take (q.limit + 1)
  pure ⟨reports.take q.limit, rows.length, decide (q.limit < reports.length)⟩

/-! ## Following the cursors -/

/-- The pages an operator has read so far, while the service goes on. -/
structure ListingState where
  db : Db
  pages : List ReportPage

namespace ListingState

def cursor (s : ListingState) : Option Cursor := s.pages.getLast?.bind (·.nextCursor)

/-- The last page has no successor. -/
def finished (s : ListingState) : Bool := s.pages.getLast?.any (·.nextCursor.isNone)

def returned (s : ListingState) : List (Id × Report) := s.pages.flatMap (·.items)

def lastRow (s : ListingState) : Option (Id × Report) := s.pages.getLast?.bind (·.items.getLast?)

end ListingState

inductive ListingStep
  | op (op : Op)
  | fetch

def ListingStep.isFetch : ListingStep → Bool
  | .fetch => true
  | .op _ => false

def listingStep (env : Env) (actor : Actor) (header : Option Ref) (incident : Ref) (q : ReportQuery)
    (s : ListingState) : ListingStep → ListingState
  | .op op => { s with db := step env s.db op }
  | .fetch =>
      if s.finished then s
      else match listReports uuid s.db actor header incident q s.cursor with
        | .ok p => { s with pages := s.pages ++ [p] }
        | .error _ => s

end Listing
end CrisisMosaic
