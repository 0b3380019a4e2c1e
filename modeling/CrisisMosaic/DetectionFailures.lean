import CrisisMosaic.Jobs
import CrisisMosaic.Relational.Keeps
import CrisisMosaic.Relational.UnitOfWork
import CrisisMosaic.StandingCases

/-!
# Detections that raise

The worker executes a detection in one session. When it raises, the worker commits this
session before it finishes the job in another one, so that what was changed before the
exception is stored, unless a failed flush has rolled it back.
-/

namespace CrisisMosaic
open Relational

/-- A row of `audit_logs` that the system writes. -/
structure AuditLog where
  incidentId : Id
  action : String
  resourceType : ResourceType
  resourceId : Id
  after : Dict
  createdAt : Time

structure AuditedDb where
  db : Db
  audits : List AuditLog

namespace AuditedDb

def onSpots (f : Table BlindSpot → Table BlindSpot) (s : AuditedDb) : AuditedDb :=
  { s with db := { s.db with blindSpots := f s.db.blindSpots } }

def onFeatures (f : Table MapFeature → Table MapFeature) (s : AuditedDb) : AuditedDb :=
  { s with db := { s.db with features := f s.db.features } }

def onFeed (f : Feed → Feed) (s : AuditedDb) : AuditedDb :=
  { s with db := { s.db with feed := f s.db.feed } }

def onJobs (f : Table BackgroundJob → Table BackgroundJob) (s : AuditedDb) : AuditedDb :=
  { s with db := { s.db with jobs := f s.db.jobs } }

def recordAudit (a : AuditLog) (s : AuditedDb) : AuditedDb := { s with audits := s.audits ++ [a] }

end AuditedDb

abbrev DetectionOp := SessionOp AuditedDb

section Detection
variable (env : Env) (now : Time)

/-- The row of a new feature before its columns are set. -/
def newFeature (id : Id) (spot : BlindSpot) : MapFeature :=
  { incidentId := spot.incidentId
    kind := .blindSpot
    sourceRef := id
    title := spot.title
    status := .blindSpot spot.status
    severity := spot.severity
    position := none
    revision := 1
    isDeleted := false
    publicData := []
    privateData := []
    updatedAt := now }

/-- `upsert_blind_spot_map_feature` -/
def upsertOps (features : Table MapFeature) (id : Id) (spot : BlindSpot) : List DetectionOp :=
  [.query] ++
  (match features.first (MapFeature.isFor spot.incidentId .blindSpot id) with
  | some _ => []
  | none => [.change (AuditedDb.onFeatures fun t => t.insert (newFeature now id spot))]) ++
  [.change (AuditedDb.onFeatures fun t => upsertBlindSpotMapFeature env now t id spot)]

def spotEvent (id : Id) (spot : BlindSpot) (eventType : String) : Event :=
  { eventType := eventType
    resourceType := .blindSpot
    resourceId := some id
    resourceRevision := some spot.revision
    payload := blindSpotData id spot }

/-- `emit_event`: the counters and the row of the event, the briefs, the map. -/
def emitOps (feed : Feed) (incidentId : Id) (e : Event) : List DetectionOp :=
  [.change (AuditedDb.onFeed fun feed => ((feed.append now incidentId e).touchData incidentId
      e.resourceType).touchMap incidentId e.resourceType),
    .query,
    .change (AuditedDb.onFeed fun feed =>
      feed.staleBriefs now incidentId ("incident_changed:" ++ e.eventType))] ++
  if feed.mapBumps incidentId e.resourceType then
    [.change (AuditedDb.onFeed fun feed => feed.announceMap now incidentId)]
  else []

def announceOps (s : AuditedDb) (incidentId id : Id) (spot : BlindSpot) (eventType : String) :
    List DetectionOp :=
  upsertOps env now s.db.features id spot ++
  [.change (AuditedDb.recordAudit ⟨incidentId, eventType, .blindSpot, id, blindSpotData id spot, now⟩)] ++
  emitOps now s.db.feed incidentId (spotEvent id spot eventType)

/-- The assignments to the columns of a spot that is opened again. -/
def reopenChanges (id : Id) (scope : Dict) : List DetectionOp :=
  [.change (AuditedDb.onSpots fun t => t.modify id fun b => { b with status := .reopened, updatedAt := now }),
    .change (AuditedDb.onSpots fun t => t.modify id fun b => { b with resolutionValue := none }),
    .change (AuditedDb.onSpots fun t => t.modify id fun b => { b with scopeData := some scope }),
    .change (AuditedDb.onSpots fun t => t.modify id fun b => { b with revision := b.revision + 1 })]

def reopenedSpot (spot : BlindSpot) (scope : Dict) : BlindSpot :=
  { spot with
    status := .reopened
    resolutionValue := none
    scopeData := some scope
    revision := spot.revision + 1
    updatedAt := now }

def reopenOps (s : AuditedDb) (incidentId id fragmentId : Id) (spot : BlindSpot) (grace : ℕ)
    (dueAt : Time) : List DetectionOp :=
  let scope := Dict.merge spot.scope
    [("origin_fragment_id", .ref fragmentId), ("grace_minutes", .nat grace), ("due_at", .time dueAt)]
  reopenChanges now id scope ++
  announceOps env now s incidentId id (reopenedSpot now spot scope) "blind_spot.reopened"

def createOps (s : AuditedDb) (incidentId : Id) (spot : BlindSpot) : List DetectionOp :=
  [.change (AuditedDb.onSpots fun t => t.insert spot), .flush] ++
  announceOps env now s incidentId s.db.blindSpots.size spot "blind_spot.created"

/-- What is checked before the report is read. -/
def asksForReport (feed : Feed) (incidentId revision : ℕ) (f : InformationFragment) : Bool :=
  (feed.incidents.get incidentId).any (fun i => i.status = .active) && f.incidentId = incidentId &&
    f.sourceType = .residentReport && f.revision = revision && truthy f.claimKey &&
    f.claimValue = some "unknown" && (f.status = .normal || f.status = .conflict)

/-- The fragments that may answer the claim; the loop stops at the first one that does. -/
def answerOps (db : Db) (fragmentId : Id) (f : InformationFragment) : List DetectionOp :=
  let answers := (db.fragments.select fun c => c.incidentId = f.incidentId && c.claimKey = f.claimKey &&
    isConcrete c.claimValue && c.status ≠ .withdrawn && decide (f.receivedAt ≤ c.receivedAt)).filter
      (· ≠ fragmentId)
  let passed := answers.takeWhile fun c => !(db.fragments.get c).any fun c =>
    reportFragmentIsActive db.reports c && sameLocation env f.place c.place
  let visited := (answers.take (passed.length + 1)).filter fun c =>
    (db.fragments.get c).any fun c => c.sourceType = .residentReport
  [.query] ++ visited.map fun _ => .query

/-- `run_report_blind_spot_detection` -/
def detectionOps (s : AuditedDb) (incidentId fragmentId revision : ℕ) (dueAt : Option Time)
    (grace : Option ℕ) : List DetectionOp :=
  [.query, .query] ++
  match s.db.fragments.get fragmentId with
  | none => []
  | some f =>
    (if asksForReport s.db.feed incidentId revision f then [.query] else []) ++
    match gapReport s.db.spotBoard s.db.reports incidentId revision f with
    | none => []
    | some (incident, report) =>
      let grace := grace.getD (graceMinutes env incident f)
      let dueAt := dueAt.getD (f.receivedAt + minutes grace)
      if now < dueAt then []
      else if gapIsAnswered env s.db.reports s.db.fragments fragmentId f then
        answerOps env s.db fragmentId f
      else
        answerOps env s.db fragmentId f ++ [.query] ++
        match s.db.blindSpots.find fun spot => spot.incidentId = incidentId &&
            some spot.claimKey = f.claimKey && sameLocation env f.place spot.place with
        | some (id, spot) =>
          if !isResidentReportGap spot.scopeData || spot.isOpen then []
          else reopenOps env now s incidentId id fragmentId spot grace dueAt
        | none =>
          createOps env now s incidentId (openSpot env now incidentId fragmentId f report grace dueAt)

/-- The fixed due time in the payload of the job. -/
def detectionDue (job : BackgroundJob) : Time :=
  match job.payload.get "due_at" with
  | some (.time t) => t
  | _ => job.runAfter

/-- The branch of `_execute_job` for a detection. -/
def jobOps (s : AuditedDb) (jobId : Id) : List DetectionOp :=
  match s.db.jobs.get jobId with
  | none => []
  | some job =>
    if job.jobType = .blindSpotDetect then
      let dueAt := detectionDue job
      if now < dueAt then
        [.change (AuditedDb.onJobs fun jobs => jobs.modify jobId fun j =>
          { j with
            status := .queued
            attempts := j.attempts - 1
            runAfter := dueAt
            leaseExpiresAt := none
            lastError := some "deferred until the fixed blind-spot due time"
            updatedAt := now })]
      else
        match (job.payload.get "incident_id").bind Json.asRef,
            (job.payload.get "fragment_id").bind Json.asRef,
            (job.payload.get "fragment_revision").bind Questions.number with
        | some incidentId, some fragmentId, some revision =>
          detectionOps env now s incidentId fragmentId revision.num.toNat (some dueAt)
            (((job.payload.get "grace_minutes").bind Questions.number).map (·.num.toNat))
        | _, _, _ => []
    else []

/-- `_finish_job` with an error -/
def finishFailed (error : String) (j : BackgroundJob) : BackgroundJob :=
  if j.status ≠ .running then j
  else if j.attempts ≥ j.maxAttempts then
    { j with status := .failed, leaseExpiresAt := none, lastError := some error, updatedAt := now }
  else
    { j with
      status := .retry
      leaseExpiresAt := none
      lastError := some error
      runAfter := now + seconds (Job.delays.getD (min (j.attempts - 1) (Job.delays.length - 1)) 0)
      updatedAt := now }

/-- The error path of `_execute_job`: it commits the session of the execution, then it finishes the
job. -/
def failDetection (s : AuditedDb) (jobId : Id) (x : Fault) (error : String) : AuditedDb :=
  (commitFailed (jobOps env now s jobId) x s).onJobs fun jobs => jobs.modify jobId (finishFailed now error)

end Detection

/-- The job is put off, and nothing else is touched. -/
def Db.IsDeferred (now : Time) (db : Db) (jobId : Id) : Prop :=
  ∃ job, db.jobs.get jobId = some job ∧ job.jobType = .blindSpotDetect ∧ now < detectionDue job

/-- Only the row of the job may differ. -/
structure AuditedDb.SameBut (jobId : Id) (s t : AuditedDb) : Prop where
  rest : t = s.onJobs fun _ => t.db.jobs
  jobs : ∀ i, i ≠ jobId → t.db.jobs.get i = s.db.jobs.get i

section Full
variable (env : Env) (now : Time) (s : AuditedDb)

theorem upsertFeature_insert {features : Table MapFeature} {a f : MapFeature}
    (hnone : features.first (MapFeature.isFor f.incidentId f.kind f.sourceRef) = none)
    (ha : a.isFor f.incidentId f.kind f.sourceRef = true) :
    upsertFeature (features.insert a) f = upsertFeature features f := by
  rw [upsertFeature, upsertFeature, Table.first_insert hnone ha, hnone]
  exact Table.modify_insert_size features a fun _ => f

theorem perform_upsertOps (id : Id) (spot : BlindSpot) :
    perform (upsertOps env now s.db.features id spot) s =
      s.onFeatures fun t => upsertBlindSpotMapFeature env now t id spot := by
  unfold upsertOps
  cases hfirst : s.db.features.first (MapFeature.isFor spot.incidentId .blindSpot id) with
  | some i => rfl
  | none =>
    have hinserted : upsertBlindSpotMapFeature env now (s.db.features.insert (newFeature now id spot))
        id spot = upsertBlindSpotMapFeature env now s.db.features id spot := by
      apply upsertFeature_insert
      · exact hfirst
      · exact MapFeature.isFor_iff.mpr ⟨rfl, rfl, rfl⟩
    simp only [List.cons_append, List.nil_append, perform_cons, perform_nil, SessionOp.apply,
      AuditedDb.onFeatures, hinserted]

theorem perform_emitOps (incidentId : Id) (e : Event) (he : e.resourceType.dataAffecting = true) :
    perform (emitOps now s.db.feed incidentId e) s = s.onFeed fun feed => feed.emitEvent now incidentId e := by
  unfold emitOps
  simp only [AuditedDb.onFeed, Feed.emitEvent, if_pos he]
  split_ifs <;> rfl

theorem perform_announceOps {t : AuditedDb} (hfeatures : t.db.features = s.db.features)
    (hfeed : t.db.feed = s.db.feed) (incidentId id : Id) (spot : BlindSpot) (eventType : String) :
    perform (announceOps env now s incidentId id spot eventType) t =
      ((t.onFeatures fun f => upsertBlindSpotMapFeature env now f id spot).recordAudit
        ⟨incidentId, eventType, .blindSpot, id, blindSpotData id spot, now⟩).onFeed fun feed =>
          feed.emitEvent now incidentId (spotEvent id spot eventType) := by
  unfold announceOps
  rw [perform_append, perform_append, ← hfeatures, perform_upsertOps, perform_cons, perform_nil, ← hfeed]
  exact perform_emitOps now _ incidentId _ rfl

theorem perform_queries {ops : List DetectionOp} (h : ∀ o ∈ ops, o.isChange = false)
    (more : List DetectionOp) : perform (ops ++ more) s = perform more s := by
  rw [perform_append, perform_unchanged h]

theorem answerOps_queries (db : Db) (fragmentId : Id) (f : InformationFragment) :
    ∀ o ∈ answerOps env db fragmentId f, o.isChange = false := by
  intro o ho
  rcases List.mem_append.mp ho with hquery | hvisited
  · rw [List.mem_singleton.mp hquery]
    rfl
  · obtain ⟨_, -, rfl⟩ := List.mem_map.mp hvisited
    rfl

/-- What a detection writes after its queries. -/
inductive DetectionWrites : List DetectionOp → SpotBoard → Prop
  | nothing : DetectionWrites [] s.db.spotBoard
  | reopened {id : Id} {spot : BlindSpot} (incidentId fragmentId : Id) (grace : ℕ) (dueAt : Time) :
      s.db.blindSpots.get id = some spot → spot.isOpen = false →
      DetectionWrites (reopenOps env now s incidentId id fragmentId spot grace dueAt)
        ((reopenSpot env now s.db.spotBoard id fragmentId spot grace dueAt).announce now incidentId id
          "blind_spot.reopened" (blindSpotData id))
  | created (incidentId : Id) (spot : BlindSpot) :
      DetectionWrites (createOps env now s incidentId spot)
        ((s.db.spotBoard.add env now spot).announce now incidentId s.db.blindSpots.size
          "blind_spot.created" (blindSpotData s.db.blindSpots.size))

theorem detectionOps_writes (incidentId fragmentId revision : ℕ) (dueAt : Option Time) (grace : Option ℕ) :
    ∃ reads writes, detectionOps env now s incidentId fragmentId revision dueAt grace = reads ++ writes ∧
      (∀ o ∈ reads, o.isChange = false) ∧
      DetectionWrites env now s writes (runReportBlindSpotDetection env now s.db.reports s.db.fragments
        s.db.spotBoard incidentId fragmentId revision dueAt grace) := by
  have htwo : ∀ o ∈ ([.query, .query] : List DetectionOp), o.isChange = false := by
    simp [SessionOp.isChange]
  have hjoin : ∀ {a b : List DetectionOp}, (∀ o ∈ a, o.isChange = false) →
      (∀ o ∈ b, o.isChange = false) → ∀ o ∈ a ++ b, o.isChange = false := fun ha hb o ho =>
    (List.mem_append.mp ho).elim (ha o) (hb o)
  unfold detectionOps runReportBlindSpotDetection
  cases hf : s.db.fragments.get fragmentId with
  | none => exact ⟨[.query, .query], [], rfl, htwo, .nothing⟩
  | some f =>
    obtain ⟨report, hreport⟩ : ∃ report : List DetectionOp, report =
        if asksForReport s.db.feed incidentId revision f then [.query] else [] := ⟨_, rfl⟩
    have hquery : ∀ o ∈ report, o.isChange = false := by
      rw [hreport]
      split_ifs <;> simp [SessionOp.isChange]
    dsimp only
    rw [← hreport, ← List.append_assoc]
    have hreads := hjoin htwo hquery
    cases hgap : gapReport s.db.spotBoard s.db.reports incidentId revision f with
    | none => exact ⟨_, [], rfl, hreads, .nothing⟩
    | some gap =>
      dsimp only
      by_cases hdue : now < dueAt.getD (f.receivedAt + minutes (grace.getD (graceMinutes env gap.1 f)))
      · simp only [hdue, if_true, decide_true, Bool.true_or]
        exact ⟨_, [], rfl, hreads, .nothing⟩
      · have hanswers := answerOps_queries env s.db fragmentId f
        cases hanswered : gapIsAnswered env s.db.reports s.db.fragments fragmentId f with
        | true =>
          simp only [hdue, if_false, if_true, decide_false, Bool.or_true]
          exact ⟨_, [], (List.append_nil _).symm, hjoin hreads hanswers, .nothing⟩
        | false =>
          have hall := hjoin hreads (hjoin hanswers (b := [.query]) (by simp [SessionOp.isChange]))
          simp only [hdue, if_false, decide_false, Bool.or_false, Bool.false_eq_true]
          rw [← List.append_assoc, show s.db.spotBoard.spots = s.db.blindSpots from rfl]
          cases hfind : s.db.blindSpots.find fun spot => spot.incidentId = incidentId &&
              some spot.claimKey = f.claimKey && sameLocation env f.place spot.place with
          | none => exact ⟨_, _, rfl, hall, .created incidentId _⟩
          | some found =>
            obtain ⟨id, spot⟩ := found
            dsimp only
            split_ifs with hkept
            · exact ⟨_, [], rfl, hall, .nothing⟩
            · rw [Bool.or_eq_true, not_or] at hkept
              refine ⟨_, _, rfl, hall, .reopened incidentId fragmentId _ _ (Table.find_some hfind).1 ?_⟩
              simpa using hkept.2

variable {env now s}

theorem perform_reopenChanges {id : Id} {spot : BlindSpot} (hspot : s.db.blindSpots.get id = some spot)
    (scope : Dict) : perform (reopenChanges now id scope) s =
      s.onSpots fun t => t.modify id fun _ => reopenedSpot now spot scope := by
  simp only [reopenChanges, perform_cons, perform_nil, SessionOp.apply, AuditedDb.onSpots,
    Table.modify_modify]
  have hsame : ∀ b, s.db.blindSpots.get id = some b →
      reopenedSpot now b scope = reopenedSpot now spot scope := by
    intro b hb
    rw [hspot] at hb
    rw [Option.some.inj hb]
  rw [← Table.modify_congr hsame]
  rfl

theorem perform_reopenOps {id : Id} {spot : BlindSpot} (hspot : s.db.blindSpots.get id = some spot)
    (incidentId fragmentId : Id) (grace : ℕ) (dueAt : Time) :
    (perform (reopenOps env now s incidentId id fragmentId spot grace dueAt) s).db =
      s.db.withSpotBoard ((reopenSpot env now s.db.spotBoard id fragmentId spot grace dueAt).announce now
        incidentId id "blind_spot.reopened" (blindSpotData id)) := by
  obtain ⟨scope, hscope⟩ : ∃ scope, scope = Dict.merge spot.scope
    [("origin_fragment_id", .ref fragmentId), ("grace_minutes", .nat grace), ("due_at", .time dueAt)] :=
    ⟨_, rfl⟩
  have hsaved : reopenSpot env now s.db.spotBoard id fragmentId spot grace dueAt =
      { s.db.spotBoard with
        spots := s.db.blindSpots.modify id fun _ => reopenedSpot now spot scope
        features := upsertBlindSpotMapFeature env now s.db.features id (reopenedSpot now spot scope) } := by
    rw [hscope]
    rfl
  have hget : (s.db.blindSpots.modify id fun _ => reopenedSpot now spot scope).get id =
      some (reopenedSpot now spot scope) := by
    rw [Table.get_modify_self, hspot, Option.map_some]
  unfold reopenOps
  dsimp only
  rw [perform_append, perform_reopenChanges hspot, ← hscope,
    perform_announceOps env now s (t := s.onSpots _) rfl rfl, hsaved, SpotBoard.announce]
  dsimp only
  rw [hget]
  rfl

theorem perform_createOps (incidentId : Id) (spot : BlindSpot) :
    (perform (createOps env now s incidentId spot) s).db =
      s.db.withSpotBoard ((s.db.spotBoard.add env now spot).announce now incidentId
        s.db.blindSpots.size "blind_spot.created" (blindSpotData s.db.blindSpots.size)) := by
  have hget : (s.db.spotBoard.add env now spot).spots.get s.db.blindSpots.size = some spot :=
    Table.get_insert_size _ _
  unfold createOps
  rw [perform_append]
  change (perform _ (s.onSpots fun t => t.insert spot)).db = _
  rw [perform_announceOps env now s (t := s.onSpots _) rfl rfl, SpotBoard.announce, hget]
  rfl

theorem DetectionWrites.perform {ops : List DetectionOp} {b : SpotBoard}
    (h : DetectionWrites env now s ops b) : (perform ops s).db = s.db.withSpotBoard b := by
  cases h with
  | nothing => rfl
  | reopened incidentId fragmentId grace dueAt hspot hopen => exact perform_reopenOps hspot _ _ _ _
  | created incidentId spot => exact perform_createOps incidentId spot

/-- An execution that does not raise is the one of `runBlindSpotJob`. -/
theorem perform_jobOps {jobId : Id} {db : Db} (h : runBlindSpotJob env now s.db jobId = .ok db) :
    (perform (jobOps env now s jobId) s).db = db := by
  simp only [runBlindSpotJob, bind_ok] at h
  obtain ⟨job, hjob, _, htype, h⟩ := h
  unfold jobOps
  rw [found_ok.mp hjob]
  dsimp only
  rw [if_pos (require_ok.mp htype)]
  change (if now < detectionDue job then _ else _) = _ at h
  split_ifs at h ⊢ with hdue
  · exact pure_ok.mp h
  · generalize (job.payload.get "incident_id").bind Json.asRef = incidentRef at h ⊢
    generalize (job.payload.get "fragment_id").bind Json.asRef = fragmentRef at h ⊢
    generalize (job.payload.get "fragment_revision").bind Questions.number = number at h ⊢
    cases incidentRef with
    | none => exact absurd h throw_ok
    | some incidentId =>
      cases fragmentRef with
      | none => exact absurd h throw_ok
      | some fragmentId =>
        cases number with
        | none => exact absurd h throw_ok
        | some revision =>
          dsimp only
          obtain ⟨reads, writes, hops, hreads, hwrites⟩ := detectionOps_writes env now s incidentId
            fragmentId revision.num.toNat (some (detectionDue job))
            (((job.payload.get "grace_minutes").bind Questions.number).map (·.num.toNat))
          rw [hops, perform_queries s hreads, hwrites.perform]
          exact pure_ok.mp h

/-- The feature, the audit row and the events leave the spots. -/
theorem announceOps_spots (incidentId id : Id) (spot : BlindSpot) (eventType : String) :
    ∀ f, .change f ∈ announceOps env now s incidentId id spot eventType →
      ∀ t, (f t).db.blindSpots = t.db.blindSpots := by
  intro f hf
  rcases List.mem_append.mp hf with hf | hemit
  · rcases List.mem_append.mp hf with hupsert | haudit
    · rcases List.mem_append.mp hupsert with hnew | hset
      · rcases List.mem_append.mp hnew with hquery | hinsert
        · exact nomatch List.mem_singleton.mp hquery
        · cases hfirst : s.db.features.first (MapFeature.isFor spot.incidentId .blindSpot id) with
          | some i =>
            rw [hfirst] at hinsert
            exact absurd hinsert List.not_mem_nil
          | none =>
            rw [hfirst] at hinsert
            obtain rfl := SessionOp.change.inj (List.mem_singleton.mp hinsert)
            exact fun t => rfl
      · obtain rfl := SessionOp.change.inj (List.mem_singleton.mp hset)
        exact fun t => rfl
    · obtain rfl := SessionOp.change.inj (List.mem_singleton.mp haudit)
      exact fun t => rfl
  · rcases List.mem_append.mp hemit with hevent | hmap
    · simp only [List.mem_cons, SessionOp.change.injEq, reduceCtorEq, List.not_mem_nil, or_false,
        false_or] at hevent
      rcases hevent with rfl | rfl
      · exact fun t => rfl
      · exact fun t => rfl
    · split_ifs at hmap
      · obtain rfl := SessionOp.change.inj (List.mem_singleton.mp hmap)
        exact fun t => rfl
      · exact absurd hmap List.not_mem_nil

/-- The first write of a detection shows in the spots to the end. -/
theorem DetectionWrites.marks {ops : List DetectionOp} {b : SpotBoard}
    (h : DetectionWrites env now s ops b) :
    ∃ P : Table BlindSpot → Prop, ¬ P s.db.blindSpots ∧ Marks (fun t => P t.db.blindSpots) s ops := by
  cases h with
  | nothing => exact ⟨fun _ => False, id, trivial⟩
  | @reopened id spot incidentId fragmentId grace dueAt hspot hclosed =>
    refine ⟨fun t => (t.get id).map (·.status) = some .reopened, ?_, ?_, ?_⟩
    · dsimp only
      rw [hspot, Option.map_some, Option.some.injEq]
      intro hstatus
      simp [BlindSpot.isOpen, hstatus] at hclosed
    · simp only [AuditedDb.onSpots, Table.get_modify_self, hspot, Option.map_some]
    · intro f hf t ht
      rcases List.mem_append.mp hf with hset | hannounce
      · simp only [List.mem_cons, SessionOp.change.injEq, List.not_mem_nil, or_false] at hset
        rcases hset with rfl | rfl | rfl
        all_goals
          simp only [AuditedDb.onSpots, Table.get_modify_self, Option.map_map]
          exact ht
      · rw [announceOps_spots _ _ _ _ f hannounce]
        exact ht
  | created incidentId spot =>
    refine ⟨fun t => s.db.blindSpots.size < t.size, lt_irrefl _, ?_, ?_⟩
    · simp only [AuditedDb.onSpots, Table.size_insert]
      omega
    · intro f hf t ht
      rcases List.mem_append.mp hf with hflush | hannounce
      · exact nomatch List.mem_singleton.mp hflush
      · rw [announceOps_spots _ _ _ _ f hannounce]
        exact ht

end Full

section Failing
variable {env : Env} {now : Time} {s : AuditedDb} {jobId : Id}

theorem AuditedDb.sameBut_onJobs (s : AuditedDb) (jobId : Id) (f : BackgroundJob → BackgroundJob) :
    s.SameBut jobId (s.onJobs fun jobs => jobs.modify jobId f) where
  rest := rfl
  jobs := fun _ hi => Table.get_modify_of_ne _ _ (Ne.symm hi)

/-- Putting the job off changes its row, whatever is left of the session. -/
theorem sameBut_of_deferred (h : s.db.IsDeferred now jobId) (x : Fault) (error : String) :
    s.SameBut jobId (failDetection env now s jobId x error) := by
  obtain ⟨job, hjob, htype, hdue⟩ := h
  unfold failDetection commitFailed jobOps
  rw [hjob]
  simp only [htype, hdue, if_true]
  split_ifs
  · exact s.sameBut_onJobs jobId _
  · cases x.after with
    | zero => exact s.sameBut_onJobs jobId _
    | succ n =>
      rw [List.take_succ_cons, List.take_nil]
      simp only [perform_cons, perform_nil, SessionOp.apply, AuditedDb.onJobs, Table.modify_modify]
      exact s.sameBut_onJobs jobId _

theorem jobOps_marks (env : Env) (h : ¬ s.db.IsDeferred now jobId) :
    ∃ P : Table BlindSpot → Prop, ¬ P s.db.blindSpots ∧
      Marks (fun t => P t.db.blindSpots) s (jobOps env now s jobId) := by
  have hnothing : ∃ P : Table BlindSpot → Prop, ¬ P s.db.blindSpots ∧
      Marks (fun t => P t.db.blindSpots) s [] := ⟨fun _ => False, id, trivial⟩
  unfold jobOps
  cases hjob : s.db.jobs.get jobId with
  | none => exact hnothing
  | some job =>
    dsimp only
    split_ifs with htype hdue
    · exact absurd ⟨job, hjob, htype, hdue⟩ h
    · split
      · rename_i incidentId fragmentId revision _ _ _
        obtain ⟨reads, writes, hops, hreads, hwrites⟩ := detectionOps_writes env now s incidentId fragmentId
          revision.num.toNat (some (detectionDue job))
          (((job.payload.get "grace_minutes").bind Questions.number).map (·.num.toNat))
        obtain ⟨P, hbefore, hmarks⟩ := hwrites.marks
        rw [hops]
        exact ⟨P, hbefore, hmarks.append hreads⟩
      · exact hnothing
    · exact hnothing

end Failing

/-- After a detection that raises, only the row of its job has changed, if and only if the session was
rolled back by a failed flush, or nothing was changed before, or the job was not yet due. -/
theorem failed_detection_changes_only_its_job_iff (env : Env) (now : Time) (s : AuditedDb) (jobId : Id)
    (x : Fault) (error : String) :
    s.SameBut jobId (failDetection env now s jobId x error) ↔
      x.Spares (jobOps env now s jobId) ∨ s.db.IsDeferred now jobId := by
  by_cases hdeferred : s.db.IsDeferred now jobId
  · exact iff_of_true (sameBut_of_deferred hdeferred x error) (Or.inr hdeferred)
  rw [or_iff_left hdeferred]
  constructor
  · intro hsame
    by_contra hspares
    obtain ⟨P, hbefore, hmarks⟩ := jobOps_marks env hdeferred
    have hafter : P (failDetection env now s jobId x error).db.blindSpots := hmarks.commitFailed hspares
    rw [hsame.rest] at hafter
    exact hbefore hafter
  · intro hspares
    unfold failDetection
    rw [hspares.commitFailed_eq]
    exact s.sameBut_onJobs jobId _

namespace Sample

/-- A report about a landslide says nothing about the road; its detection is running. -/
def openRoad : AuditedDb :=
  let db := reached [⟨0, resident, none, .postReport (.id 0) (roadReport "landslide") (.ok none) (.ok ())⟩]
  ⟨{ db with
    feed := db.feed.begin
    jobs := db.jobs.modify 0 fun j => { j with status := .running, attempts := 1 } }, []⟩

end Sample

open Sample in
/-- The query for the feature of the new spot fails, and the spot stays. -/
theorem failed_query_leaves_a_spot :
    ¬ openRoad.SameBut 0 (failDetection Sample.env 600000000 openRoad 0 ⟨7, false⟩
      "OperationalError: disk I/O error") := by
  intro h
  have hspots := congrArg (fun s : AuditedDb => s.db.blindSpots.size) h.rest
  exact absurd hspots (by decide +kernel)

end CrisisMosaic
