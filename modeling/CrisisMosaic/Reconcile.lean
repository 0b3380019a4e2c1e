import CrisisMosaic.Conflicts

/-!
# Withdrawn evidence

`_invalidate_fragment_evidence` takes the evidence of a changed or withdrawn
fragment out of its cases; `_reconcile_conflicts` then revises those cases,
reviews facts that accepted it and resolves cases nothing contradicts any more.
-/

namespace CrisisMosaic
open Relational

/-- The withdrawn evidence of each affected case. -/
structure Withdrawal where
  conflictId : Id
  evidenceIds : List Id
  /-- The revision of the case when the evidence was taken out. -/
  revision : ℕ

def isFragmentEvidence (fragmentId : Id) (e : ConflictEvidence) : Bool :=
  e.kind = .fragment && e.sourceId = fragmentId && e.isCurrent

def invalidateFragmentEvidence (evidence : Table ConflictEvidence) (fragmentId : Id) :
    Table ConflictEvidence :=
  evidence.sweep fun e =>
    if isFragmentEvidence fragmentId e then { e with isCurrent := false } else e

def withdrawals (cases : Table ConflictCase) (evidence : Table ConflictEvidence)
    (fragmentId : Id) : List Withdrawal :=
  let ids := evidence.select (isFragmentEvidence fragmentId)
  (cases.select fun _ => true).filterMap fun c =>
    let mine := ids.filter fun i => (evidence.get i).any fun e => e.conflictId = c
    if mine.isEmpty then none
    else some ⟨c, mine, (cases.get c).elim 0 (·.revision)⟩

/-- `_evidence_source_identity`, as a pair of texts and identifiers. -/
def evidenceSourceIdentity (e : ConflictEvidence) : String × String ⊕ String × Id :=
  if truthy e.sourceClusterId then .inl ("cluster", e.sourceClusterId.getD "")
  else
    match (e.snapshot.get "source_type").bind Json.asStr,
        (e.snapshot.get "source_ref_id").bind Json.asRef with
    | some sourceType, some sourceRefId => .inr (sourceType, sourceRefId)
    | _, _ => .inr (e.kind.text, e.sourceId)

def comparableClaim (env : Env) (e : ConflictEvidence) : Option String :=
  if e.kind = .fragment then
    ((e.snapshot.get "claim_value").bind Json.asStr).filter fun v =>
      casefold env.text v ≠ "unknown".toList
  else none

def hasCrossSourceContradiction (env : Env) (evidence : List ConflictEvidence) : Bool :=
  let comparable := evidence.filterMap fun e => (comparableClaim env e).map fun v => (e, v)
  comparable.any fun first => comparable.any fun second =>
    evidenceSourceIdentity first.1 ≠ evidenceSourceIdentity second.1 && first.2 ≠ second.2

section Reconcile
variable (env : Env) (now : Time) (incidentId : Id)

/-- The fact that accepted some of the withdrawn evidence, if it is not under review yet. -/
def acceptingFact (s : Store) (x : ConflictCase) (withdrawn : List Id) : Option (Id × FactRecord) :=
  (s.facts.lookup x.incidentId x.factKey).filter fun r =>
    r.2.status ≠ .underReview &&
      (s.facts.currentVersion r.2).any fun v => v.acceptedEvidenceIds.any (withdrawn.contains ·)

def reviseWithdrawn (s : Store) (id : Id) (x : ConflictCase) (withdrawn : List Id) : Store :=
  let s := { s with
    feed := s.feed.markAnalysesStale now id x.incidentId "evidence_withdrawn" }
  s.emit now incidentId
    { eventType := "conflict.updated"
      resourceType := .conflict
      resourceId := some id
      resourceRevision := some x.revision
      payload := [("conflict_id", .ref id), ("reason", .str "evidence_withdrawn"),
        ("withdrawn_evidence_ids", .arr (withdrawn.map .ref))] }

def reviewAcceptingFact (s : Store) (id : Id) (x : ConflictCase) (withdrawn : List Id) : Store :=
  match acceptingFact s x withdrawn with
  | none => s
  | some (factId, record) =>
      let s := s.withBoard (s.board.markFactUnderReview now id x "accepted_evidence_withdrawn").1
      s.emit now incidentId
        { eventType := "fact_record.updated"
          resourceType := .fact
          resourceId := some factId
          resourceRevision := some (record.currentRevision + 1)
          payload := [("fact_record_id", .ref factId), ("status", .str "under_review"),
            ("reason", .str "accepted_evidence_withdrawn")] }

/-- The first half of a turn: the case loses evidence. -/
def withdrawFromCase (s : Store) (id : Id) (x : ConflictCase) (w : Withdrawal) : Store :=
  let y := if x.revision = w.revision then bumpRevision x else x
  let s := { s with cases := s.cases.modify id fun _ => y }
  let s := reviseWithdrawn now incidentId s id y w.evidenceIds
  reviewAcceptingFact now incidentId s id y w.evidenceIds

def settleFragment (s : Store) (fragmentId : Id) : Store :=
  match s.fragments.get fragmentId with
  | some f =>
      let active := (s.evidence.first fun e => isFragmentEvidence fragmentId e &&
        (s.cases.get e.conflictId).any fun x => x.status ≠ .resolved && x.status ≠ .closed).isSome
      if !active && f.status = .conflict then
        let g := { f with status := .normal, revision := f.revision + 1, updatedAt := now }
        { s with
          fragments := s.fragments.modify fragmentId fun _ => g
          features := upsertFragmentMapFeature env now s.features fragmentId g }
      else s
  | none => s

def caseFragments (s : Store) (id : Id) : List Id :=
  s.fragments.select (fun _ => true) |>.filter fun f =>
    (s.evidence.first fun e => e.cites id .fragment f).isSome

def autoResolved (x : ConflictCase) (bump : Bool) : ConflictCase :=
  resolveCase now x none
    [("reason", .str "insufficient_current_conflicting_sources"), ("automatic", .bool true)] bump

/-- The resolved row is stored and taken off the map. -/
def closeCase (s : Store) (id : Id) (x : ConflictCase) (bump : Bool) : Store :=
  let y := autoResolved now x bump
  { s with
    cases := s.cases.modify id fun _ => y
    feed := if bump then
      s.feed.markAnalysesStale now id x.incidentId "current_conflicting_evidence_withdrawn"
      else s.feed
    features := hideConflictMapFeature now s.features id y }

def autoResolve (s : Store) (id : Id) (x : ConflictCase) (bump : Bool) : Store :=
  let s := closeCase now s id x bump
  let s := (caseFragments s id).foldl (settleFragment env now) s
  s.emit now incidentId
    { eventType := "conflict.resolved"
      resourceType := .conflict
      resourceId := some id
      resourceRevision := some (autoResolved now x bump).revision
      payload := [("conflict_id", .ref id),
        ("reason", .str "insufficient_current_conflicting_sources")] }

/-- The second half of a turn: is the case still about something? -/
def settleCase (s : Store) (id : Id) (x : ConflictCase) (bump : Bool) : Store :=
  let current := (currentEvidence s.evidence id).filterMap s.evidence.get
  if (current.any fun e => e.kind ≠ .fragment) || hasCrossSourceContradiction env current then
    { s with features := upsertConflictMapFeature env now s.features s.fragments s.evidence id x }
  else if x.status = .resolved || x.status = .closed then
    { s with features := hideConflictMapFeature now s.features id x }
  else autoResolve env now incidentId s id x bump

def reconcileCase (withdrawn : List Withdrawal) (s : Store) (id : Id) : Store :=
  let w := withdrawn.find? fun w => w.conflictId = id
  let s := match w, s.cases.get id with
    | some w, some x => withdrawFromCase now incidentId s id x w
    | _, _ => s
  match s.cases.get id with
  | some x => settleCase env now incidentId s id x w.isNone
  | none => s

def reconcileConflicts (withdrawn : List Withdrawal) (s : Store) (cases : List Id) : Store :=
  cases.eraseDups.foldl (reconcileCase env now incidentId withdrawn) s

end Reconcile
end CrisisMosaic
