import CrisisMosaic.IncidentStatuses
import CrisisMosaic.Judging
import CrisisMosaic.WatchedReports

/-!
# The detections an operation leaves behind

What an operation makes of fragments and of the jobs of their detections. A conflict
is never about an unknown claim, so that only a decision can count the revision of
such a fragment without writing it anew.
-/

namespace CrisisMosaic
open Relational InformationFragment

section Courses
variable {env : Env} {now : Time} {db m : Db} {reports : Table Report} {s t : Store} {u : FragmentUpsert}
  {fragments fragments' : Table InformationFragment}

theorem isKnown_unknown (htext : env.text.PlainLowercase) : isKnown env (some "unknown") = false := by
  rw [isKnown, Option.any_some, isUnknown_lowercase htext (by decide)]
  decide

/-- What detection puts into a conflict has a known claim. -/
theorem detectedCall_known (htext : env.text.PlainLowercase) {k l : Id} {f g : InformationFragment}
    {call : ConflictCall} (h : detectedCall env fragments k f = some call) (hf : fragments.get k = some f)
    (hl : l ∈ call.fragments) (hg : fragments.get l = some g) : g.claimValue ≠ some "unknown" := by
  unfold detectedCall at h
  dsimp only at h
  split_ifs at h with hc
  obtain rfl := Option.some.inj h
  simp only [isComparable, Bool.and_eq_true] at hc
  intro hunknown
  rcases List.mem_append.mp hl with hmatch | hself
  · obtain ⟨hselect, -⟩ := List.mem_filter.mp hmatch
    obtain ⟨g', hg', hcontra⟩ := Table.mem_select.mp hselect
    obtain rfl := Option.some.inj (hg.symm.trans hg')
    simp [contradicts, hunknown, isKnown_unknown htext] at hcontra
  · obtain rfl := List.mem_singleton.mp hself
    obtain rfl := Option.some.inj (hf.symm.trans hg)
    rw [hunknown, isKnown_unknown htext] at hc
    simp at hc

theorem Attributed.freed (h : Attributed reports fragments) (hf : FragmentsFreed fragments fragments') :
    fragments.Related Moved fragments' := by
  refine hf.mono_rows fun k f g hf _ hfg => hfg.moved fun hunknown => ?_
  obtain ⟨id, r, -, habout⟩ := h.reported k f hf
  exact habout.not_conflict hunknown

theorem Called.moved {sources : Sources} {call : ConflictCall} {d : Id}
    (h : Called env now sources s t call d)
    (hknown : ∀ l ∈ call.fragments, ∀ g, s.fragments.get l = some g → g.claimValue ≠ some "unknown") :
    s.fragments.Related Moved t.fragments := by
  refine h.fragments.mono_rows fun k f g hf hg hfg => ?_
  by_cases hk : k ∈ call.fragments
  · exact hfg.moved (hknown k hk f hf)
  · obtain rfl := Option.some.inj ((h.undrawn k hk).symm.trans hg |>.symm.trans hf |>.symm)
    exact .refl _

theorem ObservationCourse.moved {detection : Option Detection}
    (h : ObservationCourse env now db u t detection) (htext : env.text.PlainLowercase)
    (hu : Attributed reports u.fragments) (hself : u.fragments.get u.id = some u.fragment) :
    u.fragments.Related Moved t.fragments := by
  cases h with
  | unchanged _ hb =>
    rw [hb.fragments]
    exact .refl .refl _
  | undisputed _ hb _ _ hr => exact hu.freed (hb.fragments ▸ hr.fragments)
  | disputed _ hb hcall hd _ hr =>
    have hdrawn := hd.moved fun l hl g hg => detectedCall_known htext hcall hself hl (hb.fragments ▸ hg)
    rw [hb.fragments] at hdrawn
    exact hdrawn.trans (fun _ _ _ => .trans) ((hu.move hdrawn).freed hr.fragments)

theorem DeactivationCourse.moved {k : Id} {f : InformationFragment}
    (h : DeactivationCourse env now db t (some (k, f)))
    (hu : Attributed reports (db.fragments.modify k fun _ => withdrawFragment now f)) :
    (db.fragments.modify k fun _ => withdrawFragment now f).Related Moved t.fragments := by
  cases h with
  | withdrawn _ _ hfr _ _ hr => exact hu.freed (hfr ▸ hr.fragments)

end Courses

section Decisions
variable {evidence : Table ConflictEvidence}

/-- None of the evidence is a fragment with an unknown claim. -/
def SparesUnknown (evidence : Table ConflictEvidence) (fragments : Table InformationFragment)
    (ids : List Id) : Prop :=
  ∀ i ∈ ids, ∀ e, evidence.get i = some e → e.kind = .fragment →
    ∀ f, fragments.get e.sourceId = some f → f.claimValue ≠ some "unknown"

theorem SparesUnknown.move {fragments fragments' : Table InformationFragment} {ids : List Id}
    (h : SparesUnknown evidence fragments ids) (hf : fragments.Related Moved fragments') :
    SparesUnknown evidence fragments' ids := by
  intro i hi e he hkind g hg
  obtain ⟨f, hf₀, hfg⟩ := hf.left_of_some hg
  rw [hfg.1.claimValue]
  exact h i hi e he hkind f hf₀

theorem disposeFragment_moved (env : Env) (now : Time) (payload : DecisionRequest) {i : Id} {s : Store}
    (h : SparesUnknown evidence s.fragments [i]) :
    s.fragments.Related Moved (disposeFragment now env payload evidence s i).fragments := by
  unfold disposeFragment
  cases he : evidence.get i with
  | none => exact .refl .refl _
  | some e =>
    dsimp only
    by_cases hkind : e.kind = .fragment
    · rw [if_pos hkind]
      cases hf : s.fragments.get e.sourceId with
      | none => exact .refl .refl _
      | some f =>
        refine .modify .refl _ fun g hg => ?_
        obtain rfl := Option.some.inj (hf.symm.trans hg)
        exact ⟨rfl, Nat.le_succ _, fun hunknown =>
          absurd hunknown (h i List.mem_cons_self e he hkind f hf)⟩
    · rw [if_neg hkind]
      exact .refl .refl _

theorem disposeFragments_moved (env : Env) (now : Time) (payload : DecisionRequest) {ids : List Id} :
    ∀ {s : Store}, SparesUnknown evidence s.fragments ids →
    s.fragments.Related Moved (ids.foldl (disposeFragment now env payload evidence) s).fragments := by
  induction ids with
  | nil => exact fun _ => .refl .refl _
  | cons i ids ih =>
    intro s h
    have hfirst : SparesUnknown evidence s.fragments [i] := fun j hj =>
      h j (List.mem_singleton.mp hj ▸ List.mem_cons_self)
    have hone := disposeFragment_moved env now payload hfirst
    have hrest : SparesUnknown evidence s.fragments ids := fun j hj => h j (List.mem_cons_of_mem _ hj)
    exact hone.trans (fun _ _ _ => .trans) (ih (hrest.move hone))

theorem decideConflict_moved {env : Env} {now : Time} {actor : Actor} {s t : Store} {id : Id}
    {payload : DecisionRequest} (h : decideConflict now env actor s id payload = .ok t)
    (hspares : SparesUnknown s.evidence s.fragments payload.submittedIds) :
    s.fragments.Related Moved t.fragments ∧ s.feed.SameStatuses t.feed := by
  simp only [decideConflict, bind_ok, found_ok, require_ok, pure_ok, Prod.exists] at h
  obtain ⟨x, -, -, -, -, -, -, ⟨hmissing, -⟩, analysis, -, ready, factId, record, created, -, rfl⟩ := h
  have hcurrent : SparesUnknown s.evidence s.fragments (currentEvidence s.evidence id) := by
    intro i hi
    simp only [List.filter_eq_nil_iff, Bool.not_eq_true, Bool.not_eq_false',
      List.contains_iff_mem] at hmissing
    exact hspares i (by simpa using hmissing i hi)
  have hmoved : ∀ u : Store, u.fragments = s.fragments → s.fragments.Related Moved
      ((currentEvidence s.evidence id).foldl (disposeFragment now env payload s.evidence) u).fragments := by
    intro u hu
    have hdisposed := disposeFragments_moved env now payload (s := u) (hu.symm ▸ hcurrent)
    rwa [hu] at hdisposed
  refine ⟨hmoved _ rfl, ?_⟩
  refine Feed.SameStatuses.emit (Feed.SameStatuses.emit ?_ now _ _) now _ _
  dsimp only
  rw [disposeFragments_feed]
  exact .refl s.feed

end Decisions

section Jobs
variable {env : Env} {now : Time} {feed : Feed} {jobs : Table BackgroundJob} {j : BackgroundJob}
  {f : InformationFragment} {incidentId k l revision : ℕ} {keep : Option ℕ}

/-- What `_ensure_blind_spot_job` puts into the payload. -/
def detectionPayload (incidentId k revision grace : ℕ) (dueAt : Time) : Dict :=
  [("incident_id", .ref incidentId), ("fragment_id", .ref k), ("fragment_revision", .nat revision),
    ("grace_minutes", .nat grace), ("due_at", .time dueAt)]

/-- The job detects the gap of a stored fragment, at a revision the fragment has or had. -/
def BackgroundJob.IsDetection (fragments : Table InformationFragment) (j : BackgroundJob) : Prop :=
  ∃ k f revision grace dueAt, fragments.get k = some f ∧ revision ≤ f.revision ∧
    j.jobType = .blindSpotDetect ∧ j.payload = detectionPayload f.incidentId k revision grace dueAt

/-- A live job detects the gap of the fragment at the revision. -/
def AwaitsDetection (jobs : Table BackgroundJob) (k revision : ℕ) : Prop :=
  ∃ i j, jobs.get i = some j ∧ isDetectionAt k revision j = true ∧ j.isLive = true

/-- A job keeps its type and its payload; `P` holds of a new one. -/
def JobKept (P : BackgroundJob → Prop) : Option BackgroundJob → BackgroundJob → Prop
  | some a, b => b.jobType = a.jobType ∧ b.payload = a.payload
  | none, b => P b

theorem isDetectionAt_iff : isDetectionAt k revision j = true ↔ j.jobType = .blindSpotDetect ∧
    j.payload.get "fragment_id" = some (.ref k) ∧ j.payload.get "fragment_revision" = some (.nat revision) := by
  have href : ∀ v : Json, v.isRef k = true ↔ v = .ref k := by
    intro v
    cases v <;> simp [Json.isRef]
  have hnat : ∀ v : Json, v.isNat revision = true ↔ v = .nat revision := by
    intro v
    cases v <;> simp [Json.isNat, Json.nat]
  simp [isDetectionAt, isDetectionOf, Option.any_eq_true, href, hnat, and_assoc]

theorem isDetectionAt_congr {a b : BackgroundJob} (ht : b.jobType = a.jobType) (hp : b.payload = a.payload) :
    isDetectionAt k revision b = isDetectionAt k revision a := by
  rw [Bool.eq_iff_iff, isDetectionAt_iff, isDetectionAt_iff, ht, hp]

theorem isDetectionAt_payload {grace : ℕ} {dueAt : Time} (ht : j.jobType = .blindSpotDetect)
    (hp : j.payload = detectionPayload incidentId l revision grace dueAt) {r : ℕ} :
    isDetectionAt k r j = true ↔ k = l ∧ r = revision := by
  have hid : j.payload.get "fragment_id" = some (.ref l) := by
    rw [hp]
    rfl
  have hrevision : j.payload.get "fragment_revision" = some (.nat revision) := by
    rw [hp]
    rfl
  rw [isDetectionAt_iff, hid, hrevision]
  simp [ht, Json.nat, eq_comm]

/-- A job is of one fragment only. -/
theorem isDetectionOf_of_ne (h : isDetectionAt k revision j = true) (hkl : k ≠ l) :
    isDetectionOf l j = false := by
  obtain ⟨-, hid, -⟩ := isDetectionAt_iff.mp h
  simp [isDetectionOf, hid, Json.isRef, hkl]

theorem cancel_keeps (jobs : Table BackgroundJob) (now : Time) (l : Id) (keep : Option ℕ)
    (P : BackgroundJob → Prop) : jobs.Evolves (JobKept P) (cancelBlindSpotJobs now jobs l keep) := by
  refine Table.Evolves.sweep (.refl (fun _ => ⟨rfl, rfl⟩) jobs) fun i a ha _ => ?_
  rw [ha]
  split_ifs <;> exact ⟨rfl, rfl⟩

theorem AwaitsDetection.cancel (h : AwaitsDetection jobs k revision) (now : Time) (l : Id)
    (keep : Option ℕ) (hkeep : k = l → keep = some revision) :
    AwaitsDetection (cancelBlindSpotJobs now jobs l keep) k revision := by
  obtain ⟨i, j, hj, hat, hlive⟩ := h
  refine ⟨i, j, ?_, hat, hlive⟩
  rw [cancelBlindSpotJobs, Table.get_sweep, hj, Option.map_some, Option.some.injEq, if_neg]
  by_cases hkl : k = l
  · rw [hkeep hkl, ← hkl]
    simp [hat]
  · rw [isDetectionOf_of_ne hat hkl]
    simp

theorem AwaitsDetection.ensure (h : AwaitsDetection jobs k revision) (env : Env) (now : Time) (feed : Feed)
    (incidentId l : Id) (f : InformationFragment) :
    AwaitsDetection (ensureBlindSpotJob env now feed jobs incidentId l f) k revision := by
  obtain ⟨i, j, hj, hat, hlive⟩ := h
  unfold ensureBlindSpotJob
  split
  · split_ifs
    · exact ⟨i, j, hj, hat, hlive⟩
    · exact ⟨i, j, Table.get_insert_of_some _ hj, hat, hlive⟩
  · exact ⟨i, j, hj, hat, hlive⟩

/-- A new revision of an unknown fragment has its job. -/
theorem ensure_awaits (hincident : (feed.incidents.get incidentId).isSome = true)
    (hunknown : f.claimValue = some "unknown")
    (hnone : ∀ i j, jobs.get i = some j → isDetectionAt k f.revision j = false) :
    AwaitsDetection (ensureBlindSpotJob env now feed jobs incidentId k f) k f.revision := by
  obtain ⟨incident, hget⟩ := Option.isSome_iff_exists.mp hincident
  have hfirst : jobs.first (isDetectionAt k f.revision) = none := by
    cases hf : jobs.first (isDetectionAt k f.revision) with
    | none => rfl
    | some i =>
      obtain ⟨j, hj, hat⟩ := Table.first_some hf
      exact absurd hat (by simp [hnone i j hj])
  unfold ensureBlindSpotJob
  rw [hget]
  dsimp only
  rw [if_neg (by simp [hunknown, hfirst])]
  exact ⟨jobs.size, _, Table.get_insert_size _ _, isDetectionAt_iff.mpr ⟨rfl, rfl, rfl⟩, rfl⟩

/-- The jobs `process_report_observation` leaves. -/
def scheduledJobs (env : Env) (now : Time) (feed : Feed) (jobs : Table BackgroundJob)
    (incidentId k : Id) (f : InformationFragment) : Table BackgroundJob :=
  if f.claimValue = some "unknown" then
    let jobs := cancelBlindSpotJobs now jobs k (some f.revision)
    if isExplicitlyUncertain env f then jobs else ensureBlindSpotJob env now feed jobs incidentId k f
  else cancelBlindSpotJobs now jobs k none

theorem scheduleBlindSpot_jobs (env : Env) (now : Time) (db : Db) (incidentId k : Id)
    (f : InformationFragment) : (scheduleBlindSpot env now db incidentId k f).jobs =
      scheduledJobs env now db.feed db.jobs incidentId k f := by
  unfold scheduleBlindSpot scheduledJobs
  dsimp only
  split_ifs <;> rfl

theorem scheduledJobs_keeps (env : Env) (now : Time) (feed : Feed) (jobs : Table BackgroundJob)
    {fragments : Table InformationFragment} (hf : fragments.get k = some f) (hinc : f.incidentId = incidentId) :
    jobs.Evolves (JobKept (BackgroundJob.IsDetection fragments))
      (scheduledJobs env now feed jobs incidentId k f) := by
  subst hinc
  have hcancel := fun keep => cancel_keeps jobs now k keep (BackgroundJob.IsDetection fragments)
  unfold scheduledJobs
  dsimp only
  split_ifs
  · exact hcancel _
  · unfold ensureBlindSpotJob
    cases feed.incidents.get f.incidentId with
    | none => exact hcancel _
    | some incident =>
      dsimp only
      split_ifs
      · exact hcancel _
      · exact (hcancel _).insert ⟨k, f, f.revision, _, _, hf, le_rfl, rfl, rfl⟩
  · exact hcancel _

theorem AwaitsDetection.schedule (h : AwaitsDetection jobs k revision) (env : Env) (now : Time) (feed : Feed)
    (incidentId : Id) {l : Id} (f : InformationFragment)
    (hown : k = l → f.claimValue = some "unknown" ∧ f.revision = revision) :
    AwaitsDetection (scheduledJobs env now feed jobs incidentId l f) k revision := by
  unfold scheduledJobs
  dsimp only
  split_ifs with hunknown
  · exact h.cancel now l _ fun hkl => congrArg some (hown hkl).2
  · exact (h.cancel now l _ fun hkl => congrArg some (hown hkl).2).ensure env now feed incidentId l f
  · exact h.cancel now l _ fun hkl => absurd (hown hkl).1 hunknown

end Jobs

section Routes
variable {env : Env} {now : Time} {db db' : Db}

theorem beforeDetection_jobs (env : Env) (now : Time) (db : Db) (incidentId : Id) (u : FragmentUpsert) :
    ∃ feed : Feed, db.feed.SameStatuses feed ∧ (beforeDetection env now db incidentId u).jobs =
      scheduledJobs env now feed db.jobs incidentId u.id u.fragment := by
  unfold beforeDetection
  dsimp only
  rw [scheduleBlindSpot_jobs]
  split_ifs
  · refine ⟨_, ?_, rfl⟩
    have hgone : db.feed.SameStatuses ({ db with
        fragments := u.fragments
        evidence := invalidateFragmentEvidence db.evidence u.id } : Db).feed := .refl db.feed
    exact hgone.deactivateSpots env now incidentId _ _ _
  · exact ⟨db.feed, .refl db.feed, rfl⟩

theorem processReportObservation_jobs {id : Id} {r : Report} {detection : Option Detection}
    (h : processReportObservation env now db id r = .ok (db', detection)) :
    ∃ feed : Feed, db.feed.SameStatuses feed ∧
      db'.jobs = scheduledJobs env now feed db.jobs r.incidentId
        (upsertReportFragment env now db.fragments id r).id
        (upsertReportFragment env now db.fragments id r).fragment := by
  rw [processReportObservation_eq] at h
  dsimp only at h
  generalize upsertReportFragment env now db.fragments id r = u at *
  obtain ⟨feed, hfeed, hjobs⟩ := beforeDetection_jobs env now db r.incidentId u
  refine ⟨feed, hfeed, ?_⟩
  cases hchanged : u.changed with
  | false =>
    simp only [hchanged, Bool.not_false, if_true, pure_ok, Prod.mk.injEq] at h
    exact h.1 ▸ hjobs
  | true =>
    simp only [hchanged, Bool.not_true, Bool.false_eq_true, if_false, bind_ok, pure_ok,
      Prod.mk.injEq] at h
    obtain ⟨-, -, rfl, -⟩ := h
    exact hjobs

theorem deactivateReportObservation_jobs (id : Id) (r : Report) (reason : String) :
    (deactivateReportObservation env now db id r reason).jobs =
      match db.fragments.find (isReportFragment r.incidentId id) with
      | some (k, _) => cancelBlindSpotJobs now db.jobs k none
      | none => db.jobs := by
  unfold deactivateReportObservation
  dsimp only
  cases db.fragments.find (isReportFragment r.incidentId id) <;> rfl

theorem applyLocation_updatedAt {location : ReportLocation} {r r' : Report}
    (h : applyLocation env now location r = .ok r') : r'.updatedAt = r.updatedAt := by
  simp only [applyLocation, bind_ok] at h
  obtain ⟨-, -, h⟩ := h
  split at h
  · simp only [bind_ok, pure_ok, Prod.exists] at h
    obtain ⟨_, _, -, rfl⟩ := h
    rfl
  · rw [pure_ok] at h
    exact h ▸ rfl

theorem createdReport_updatedAt {incidentId : Id} {actor : Actor} {payload : ReportCreate}
    {refinement : Result (Option Priority)} {r : Report}
    (h : createdReport env now db incidentId actor payload refinement = .ok r) : r.updatedAt = now := by
  simp only [createdReport, bind_ok, pure_ok, Prod.exists] at h
  obtain ⟨ai, -, a, ha, attachments, b, hb, rfl⟩ := h
  simp only [bindAttachments, bind_ok, pure_ok, Prod.mk.injEq] at hb
  obtain ⟨-, -, -, rfl⟩ := hb
  exact applyLocation_updatedAt ha

/-- The report an observation is about has been written just now. -/
theorem Op.storedReport_updatedAt {op : Op} {id : Id} {r : Report}
    (h : op.storedReport env db = some (id, r)) (hobserves : op.observes db = true) :
    r.updatedAt = op.now := by
  obtain ⟨now, actor, header, call⟩ := op
  cases call with
  | postReport incident payload refinement contact =>
    simp only [Op.storedReport, Option.bind_eq_bind, Option.bind_eq_some_iff, Prod.exists,
      Option.pure_def, Option.some.injEq, Prod.mk.injEq] at h
    obtain ⟨incidentId, -, -, report, hcreated, -, rfl⟩ := h
    exact createdReport_updatedAt (toOption_some.mp hcreated)
  | patchReport id payload refinement =>
    obtain ⟨r', hr', hpair⟩ := Option.map_eq_some_iff.mp h
    obtain ⟨-, rfl⟩ := Prod.mk.inj hpair
    have hpatched := toOption_some.mp hr'
    simp only [patchedReport, bind_ok, pure_ok, Prod.exists] at hpatched
    obtain ⟨a, -, b, -, attachments, c, -, ai, -, rfl⟩ := hpatched
    rfl
  | patchReportStatus id revision status =>
    obtain ⟨r', -, hpair⟩ := Option.map_eq_some_iff.mp h
    obtain ⟨-, rfl⟩ := Prod.mk.inj hpair
    rfl
  | _ => cases hobserves

end Routes
end CrisisMosaic
