import CrisisMosaic.DetectionFailures
import CrisisMosaic.DetectionRuns
import CrisisMosaic.SpotCourses

/-!
# Requests, the worker of detections and the reports it watches

The worker claims a due job, loads its row without the lock, detects under the lock
and finishes the job in a transaction of its own. Requests come between any two of
these, and the worker may crash at any point.
-/

namespace CrisisMosaic
open Relational

namespace BackgroundJob

def isLive (j : BackgroundJob) : Bool := j.status = .queued || j.status = .retry || j.status = .running

def isDue (now : Time) (j : BackgroundJob) : Bool :=
  ((j.status = .queued || j.status = .retry) && j.runAfter ≤ now) ||
    (j.status = .running && j.leaseExpiresAt.any (· ≤ now))

def claimed (now : Time) (leaseSeconds : ℤ) (j : BackgroundJob) : BackgroundJob :=
  { j with
    status := .running
    attempts := j.attempts + 1
    leaseExpiresAt := some (now + seconds leaseSeconds)
    updatedAt := now }

def succeeded (now : Time) (j : BackgroundJob) : BackgroundJob :=
  { j with
    status := .succeeded
    leaseExpiresAt := none
    lastError := none
    updatedAt := now }

end BackgroundJob

section Looks
variable (now : Time)

/-- The fragment with its revision, when the guards let a detection look into its gap. -/
def looksInto (b : SpotBoard) (reports : Table Report) (fragments : Table InformationFragment)
    (incidentId fragmentId revision : ℕ) (dueAt : Time) : List (Id × ℕ) :=
  if ((fragments.get fragmentId).any fun f => (gapReport b reports incidentId revision f).isSome) &&
      dueAt ≤ now then [(fragmentId, revision)] else []

def BackgroundJob.looks (db : Db) (job : BackgroundJob) : List (Id × ℕ) :=
  match (job.payload.get "incident_id").bind Json.asRef,
      (job.payload.get "fragment_id").bind Json.asRef,
      (job.payload.get "fragment_revision").bind Questions.number with
  | some incidentId, some fragmentId, some revision =>
      looksInto now db.spotBoard db.reports db.fragments incidentId fragmentId revision.num.toNat
        (detectionDue job)
  | _, _, _ => []

/-- The observation of an explicitly uncertain report detects at once. -/
def Op.looks (env : Env) (db : Db) (op : Op) : List (Id × ℕ) :=
  match op.storedReport env db, op.upsert env db with
  | some (id, r), some u =>
      if u.fragment.claimValue = some "unknown" ∧ isExplicitlyUncertain env u.fragment = true then
        looksInto op.now db.spotBoard (storeRow db.reports id r) u.fragments r.incidentId u.id
          u.fragment.revision u.fragment.receivedAt
      else []
  | _, _ => []

end Looks

/-- How far the execution of a job is. -/
inductive JobStage
  | claimed (job : Id)
  | loaded (job : Id)
  | worked (job : Id)

/-- `looked` has every fragment a detection has looked into the gap of, with the revision of then. -/
structure Watch where
  db : Db
  executions : Table (Option JobStage)
  looked : List (Id × ℕ)

inductive WatchStep
  | request (op : Op)
  | claim (now : Time)
  | load (execution : Id)
  | work (execution : Id) (now : Time)
  | finish (execution : Id) (now : Time)
  | crash (execution : Id)

namespace Watch
variable (env : Env) (s : Watch)

def stage (e : Id) : Option JobStage := (s.executions.get e).join

def progress (e : Id) (x : Option JobStage) : Watch :=
  { s with executions := s.executions.modify e fun _ => x }

def withJobs (jobs : Table BackgroundJob) : Watch := { s with db := { s.db with jobs := jobs } }

def request (op : Op) : Watch :=
  match transact env s.db op with
  | .ok o => { s with db := o.db, looked := op.looks env s.db ++ s.looked }
  | .error _ => s

/-- `_claim_job` -/
def claim (leaseSeconds : ℤ) (now : Time) : Watch :=
  match (oldestFirst s.db.jobs (·.runAfter) (s.db.jobs.select (·.isDue now))).head? with
  | some i =>
      { s.withJobs (s.db.jobs.modify i (·.claimed now leaseSeconds)) with
        executions := s.executions.insert (some (.claimed i)) }
  | none => s

def load (e : Id) : Watch :=
  match s.stage e with
  | some (.claimed i) =>
      s.progress e (((s.db.jobs.get i).filter fun j => j.status = .running).map fun _ => .loaded i)
  | _ => s

/-- The execution of the job. A detection before its due time puts the job off, which ends the
execution; the other jobs are not about blind spots; no execution raises. -/
def work (e : Id) (now : Time) : Watch :=
  match s.stage e with
  | some (.loaded i) =>
      match s.db.jobs.get i with
      | some job =>
          if job.jobType = .blindSpotDetect then
            match runBlindSpotJob env now s.db.begin i with
            | .ok db =>
                if now < detectionDue job then { s.progress e none with db := db }
                else
                  { s.progress e (some (.worked i)) with
                    db := db
                    looked := job.looks now s.db ++ s.looked }
            | .error _ => s
          else s.progress e (some (.worked i))
      | none => s
  | _ => s

/-- `_finish_job` without an error -/
def finish (e : Id) (now : Time) : Watch :=
  match s.stage e with
  | some (.worked i) =>
      (s.withJobs (s.db.jobs.modify i fun j => if j.status = .running then j.succeeded now else j)).progress
        e none
  | _ => s

end Watch

def watchStep (env : Env) (leaseSeconds : ℤ) (s : Watch) : WatchStep → Watch
  | .request op => s.request env op
  | .claim now => s.claim leaseSeconds now
  | .load e => s.load e
  | .work e now => s.work env e now
  | .finish e now => s.finish e now
  | .crash e => s.progress e none

def Watch.initial (incidents : Table Incident) (devices : Table AnonymousDevice)
    (attachments : Table Attachment) : Watch :=
  ⟨Db.initial incidents devices attachments, .empty, []⟩

/-- Operations on reports, the creation of cases, decisions, and uploads. -/
def Call.isWatched : Call → Bool
  | .postReport .. | .patchReport .. | .deleteReport .. | .patchReportStatus ..
  | .patchReportPriority .. | .uploads .. | .createConflict .. | .submitConflictDecision .. => true
  | _ => false

def WatchStep.isWatched : WatchStep → Bool
  | .request op => op.call.isWatched
  | _ => true

end CrisisMosaic

/-!
## Unknown reports and their detections

A detection job names the revision of its fragment. What rewrites a fragment queues
the detection of the new revision; a decision counts the revision too and queues
none.
-/

namespace CrisisMosaic
open Relational

namespace InformationFragment

/-- The fragment of an active report of an active incident, whose claim nothing is known about. -/
structure IsGap (incidents : Table Incident) (reports : Table Report) (f : InformationFragment) : Prop where
  incident : (incidents.get f.incidentId).any (·.status = .active) = true
  resident : f.sourceType = .residentReport
  active : reportFragmentIsActive reports f = true
  unknown : f.claimValue = some "unknown"

/-- The fragment is of the report `id`, and is in no conflict and not resolved while its claim is
unknown. -/
structure IsAbout (id : Id) (r : Report) (f : InformationFragment) : Prop where
  sourceType : f.sourceType = .residentReport
  sourceRef : f.sourceRefId = some id
  incident : f.incidentId = r.incidentId
  claim : f.HasClaim
  unsettled : f.claimValue = some "unknown" → f.status = .normal ∨ f.status = .withdrawn

/-- The content is the same, and all of the row if its claim is unknown. -/
def Moved (f g : InformationFragment) : Prop :=
  f.SameContent g ∧ f.revision ≤ g.revision ∧ (f.claimValue = some "unknown" → g = f)

variable {f g h : InformationFragment} {id : Id} {r : Report}

theorem Moved.refl (f : InformationFragment) : f.Moved f := ⟨.refl f, le_rfl, fun _ => rfl⟩

theorem Moved.trans (a : f.Moved g) (b : g.Moved h) : f.Moved h := by
  refine ⟨a.1.trans b.1, a.2.1.trans b.2.1, fun hf => ?_⟩
  obtain rfl := a.2.2 hf
  exact b.2.2 hf

theorem SameContent.claimValue (a : f.SameContent g) : g.claimValue = f.claimValue := by
  rw [SameContent] at a
  rw [a]

theorem Freed.moved (a : f.Freed g) (hf : f.claimValue = some "unknown" → f.status ≠ .conflict) :
    f.Moved g := by
  rcases a with rfl | ⟨hconflict, hnormal, hrevision, hc⟩
  · exact .refl g
  · exact ⟨hc, by omega, fun hunknown => absurd hconflict (hf hunknown)⟩

theorem Drawn.moved (a : f.Drawn g) (hf : f.claimValue ≠ some "unknown") : f.Moved g :=
  ⟨a.1, a.2.1.ge, fun hunknown => absurd hunknown hf⟩

theorem IsAbout.of_report {r' : Report} (a : f.IsAbout id r) (hinc : r'.incidentId = r.incidentId) :
    f.IsAbout id r' :=
  { a with incident := a.incident.trans hinc.symm }

theorem IsAbout.withdraw (a : f.IsAbout id r) (now : Time) : (withdrawFragment now f).IsAbout id r := by
  unfold withdrawFragment
  split_ifs
  · exact a
  · exact { a with unsettled := fun _ => Or.inr rfl }

theorem IsAbout.move (a : f.IsAbout id r) (b : f.Moved g) : g.IsAbout id r := by
  by_cases hunknown : f.claimValue = some "unknown"
  · exact b.2.2 hunknown ▸ a
  · have hvalue := b.1.claimValue
    have hc := b.1
    rw [SameContent] at hc
    refine ⟨?_, ?_, ?_, ?_, fun hg => absurd (hvalue.symm.trans hg) hunknown⟩ <;> rw [hc]
    · exact a.sourceType
    · exact a.sourceRef
    · exact a.incident
    · exact a.claim

theorem IsAbout.not_conflict (a : f.IsAbout id r) (hunknown : f.claimValue = some "unknown") :
    f.status ≠ .conflict := by
  rcases a.unsettled hunknown with hs | hs <;> simp [hs]

end InformationFragment

open InformationFragment

theorem observe_isAbout (env : Env) (id : Id) (r : Report) {f : InformationFragment}
    (hstatus : f.status = .normal) : (observe env id r f).IsAbout id r where
  sourceType := rfl
  sourceRef := rfl
  incident := rfl
  claim := (observe_isOf env id r (by simp [hstatus])).claim
  unsettled := fun _ => Or.inl hstatus

theorem refresh_isAbout (env : Env) (now : Time) {id : Id} {r r' : Report} {f : InformationFragment}
    (h : f.IsAbout id r') : (refresh env now id r f).IsAbout id r where
  sourceType := rfl
  sourceRef := rfl
  incident := rfl
  claim := (observe_isOf env id r (f := { f with status := .normal }) (by simp)).claim
  unsettled := by
    intro hunknown
    unfold refresh at hunknown ⊢
    dsimp only at hunknown ⊢
    split_ifs with hmoved
    · exact Or.inl rfl
    · -- the claim was unknown before
      simp only [claimMoved, Bool.or_eq_true, decide_eq_true_eq, not_or, not_not] at hmoved
      exact h.unsettled (hmoved.2.1.1.2.trans hunknown)

/-- Every fragment is the only one of a stored report. -/
structure Attributed (reports : Table Report) (fragments : Table InformationFragment) : Prop where
  reported : ∀ k f, fragments.get k = some f → ∃ id r, reports.get id = some r ∧ f.IsAbout id r
  unique : ∀ k l f g, fragments.get k = some f → fragments.get l = some g →
    f.sourceRefId = g.sourceRefId → k = l

namespace Attributed
variable {env : Env} {now : Time} {db m : Db} {reports : Table Report}
  {fragments fragments' : Table InformationFragment} {id : Id} {r : Report}

theorem move (h : Attributed reports fragments) (hf : fragments.Related Moved fragments') :
    Attributed reports fragments' where
  reported := by
    intro k g hg
    obtain ⟨f, hf₀, hfg⟩ := hf.left_of_some hg
    obtain ⟨id, r, hr, habout⟩ := h.reported k f hf₀
    exact ⟨id, r, hr, habout.move hfg⟩
  unique := by
    intro k l g g' hg hg' href
    obtain ⟨f, hf₀, hfg⟩ := hf.left_of_some hg
    obtain ⟨f', hf', hfg'⟩ := hf.left_of_some hg'
    refine h.unique k l f f' hf₀ hf' ?_
    rw [hfg.1, hfg'.1] at href
    exact href

/-- A fragment that refers to the report is the one its observation finds. -/
theorem of_ref (h : Attributed db.reports fragments) (hs : Stores db id r m) {k : Id}
    {f : InformationFragment} (hf : fragments.get k = some f) (href : f.sourceRefId = some id) :
    isReportFragment r.incidentId id f = true ∧ f.IsAbout id r := by
  obtain ⟨i, r₀, hr₀, habout⟩ := h.reported k f hf
  obtain rfl : i = id := Option.some.inj (habout.sourceRef.symm.trans href)
  obtain ⟨r', hr', hinc, -⟩ := hs.kept hr₀
  obtain rfl := Option.some.inj (hs.get_self.symm.trans hr')
  exact ⟨isReportFragment_iff.mpr ⟨habout.incident.trans hinc.symm, habout.sourceType, href⟩,
    habout.of_report hinc⟩

/-- The report is stored, and only its own fragment is rewritten. -/
theorem store (h : Attributed db.reports fragments) (hs : Stores db id r m)
    (hold : ∀ k f, fragments'.get k = some f → f.sourceRefId ≠ some id → fragments.get k = some f)
    (hown : ∀ k f, fragments'.get k = some f → f.sourceRefId = some id → f.IsAbout id r)
    (hunique : ∀ k l f g, fragments'.get k = some f → fragments'.get l = some g →
      f.sourceRefId = some id → g.sourceRefId = some id → k = l) :
    Attributed m.reports fragments' where
  reported := by
    intro k f hf
    by_cases href : f.sourceRefId = some id
    · exact ⟨id, r, hs.get_self, hown k f hf href⟩
    · obtain ⟨i, s, hi, habout⟩ := h.reported k f (hold k f hf href)
      have hne : i ≠ id := fun he => href (he ▸ habout.sourceRef)
      exact ⟨i, s, (hs.get_of_ne hne).trans hi, habout⟩
  unique := by
    intro k l f g hf hg href
    by_cases hid : f.sourceRefId = some id
    · exact hunique k l f g hf hg hid (href ▸ hid)
    · exact h.unique k l f g (hold k f hf hid) (hold l g hg (href ▸ hid)) href

theorem keep (h : Attributed db.reports fragments) (hs : Stores db id r m) : Attributed m.reports fragments :=
  h.store hs (fun _ _ hf _ => hf) (fun _ _ hf href => (h.of_ref hs hf href).2)
    fun k l f g hf hg href href' => h.unique k l f g hf hg (href.trans href'.symm)

/-- The report is stored, and the row of its fragment, if it has one, is rewritten in place. -/
theorem rewrite (h : Attributed db.reports fragments) (hs : Stores db id r m) {k : Id}
    {f g : InformationFragment} (hf : fragments.get k = some f) (href : f.sourceRefId = some id)
    (hg : g.IsAbout id r) : Attributed m.reports (fragments.modify k fun _ => g) := by
  have hkey : ∀ j e, (fragments.modify k fun _ => g).get j = some e → e.sourceRefId = some id → j = k := by
    intro j e he hid
    rcases Table.get_modify_cases he with ⟨rfl, -⟩ | ⟨-, he⟩
    · rfl
    · exact h.unique j k e f he hf (hid.trans href.symm)
  refine h.store hs (fun j e he hid => ?_) (fun j e he hid => ?_) fun i j e e' he he' hid hid' =>
    (hkey i e he hid).trans (hkey j e' he' hid').symm
  · rcases Table.get_modify_cases he with ⟨-, -, -, rfl⟩ | ⟨-, he⟩
    · exact absurd hg.sourceRef hid
    · exact he
  · obtain rfl := hkey j e he hid
    rw [Table.get_modify_self, hf, Option.map_some, Option.some.injEq] at he
    exact he ▸ hg

theorem observed (h : Attributed db.reports fragments) (hs : Stores db id r m) :
    Attributed m.reports (upsertReportFragment env now fragments id r).fragments := by
  rcases upsertReportFragment_cases env now fragments id r with
    ⟨g, rfl, hu, hno⟩ | ⟨k, f, hf, hp, ⟨hu, -⟩ | ⟨g, rfl, hu⟩⟩
  · have hfresh : ∀ k f, fragments.get k = some f → f.sourceRefId ≠ some id := by
      intro k f hf href
      have hp := (h.of_ref hs hf href).1
      rw [hno k f hf] at hp
      exact nomatch hp
    have hkey : ∀ k f, (fragments.insert (observe env id r (newFragment now))).get k = some f →
        f.sourceRefId = some id → k = fragments.size ∧ f = observe env id r (newFragment now) := by
      intro k f hf href
      rcases Table.get_insert_cases hf with hnew | hf
      · exact hnew
      · exact absurd href (hfresh k f hf)
    rw [hu]
    refine h.store hs (fun k f hf hne => ?_) (fun k f hf href => ?_) fun k l f g hf hg href href' =>
      (hkey k f hf href).1.trans (hkey l g hg href').1.symm
    · rcases Table.get_insert_cases hf with ⟨-, rfl⟩ | hf
      · exact absurd rfl hne
      · exact hf
    · obtain ⟨-, rfl⟩ := hkey k f hf href
      exact observe_isAbout env id r rfl
  · rw [hu]
    exact h.keep hs
  · rw [hu]
    have href := (isReportFragment_iff.mp hp).2.2
    exact h.rewrite hs hf href (refresh_isAbout env now (h.of_ref hs hf href).2)

theorem withdrawn (h : Attributed db.reports fragments) (hs : Stores db id r m) {k : Id}
    {f : InformationFragment} (hf : fragments.get k = some f)
    (hp : isReportFragment r.incidentId id f = true) :
    Attributed m.reports (fragments.modify k fun _ => withdrawFragment now f) := by
  have href := (isReportFragment_iff.mp hp).2.2
  exact h.rewrite hs hf href ((h.of_ref hs hf href).2.withdraw now)

end Attributed
end CrisisMosaic
