import CrisisMosaic.DetectionGaps

/-!
# No detection is lost

A gap has a live job for the revision of its fragment until a detection has looked into it. Only
a decision about the fragment takes the revision away from the job.
-/

namespace CrisisMosaic
open Relational InformationFragment

namespace Watch

/-- A gap has a live job at the revision of its fragment, or a detection has run at that revision. -/
def LosesNone (s : Watch) : Prop :=
  ∀ k f, s.db.fragments.get k = some f → f.IsGap s.db.feed.incidents s.db.reports →
    AwaitsDetection s.db.jobs k f.revision ∨ (k, f.revision) ∈ s.looked

/-- A detection has looked into the gap of the job, if its fragment is one at its revision. -/
def Settled (s : Watch) (j : BackgroundJob) : Prop :=
  ∀ k f, s.db.fragments.get k = some f → f.IsGap s.db.feed.incidents s.db.reports →
    isDetectionAt k f.revision j = true → (k, f.revision) ∈ s.looked

structure Watched (s : Watch) : Prop where
  attributed : Attributed s.db.reports s.db.fragments
  detections : ∀ i j, s.db.jobs.get i = some j → j.IsDetection s.db.fragments
  kept : s.LosesNone
  worked : ∀ e i, s.stage e = some (.worked i) → ∃ j, s.db.jobs.get i = some j ∧ s.Settled j

end Watch

/-- An accepted request is no decision about a gap, and revives no fragment as it was. -/
def WatchStep.Spares (env : Env) (s : Watch) : WatchStep → Prop
  | .request op => ∀ o, transact env s.db op = .ok o → op.SparesGaps s.db ∧ op.ResumesLater s.db
  | _ => True

section Steps
variable {env : Env} {leaseSeconds : ℤ} {s t : Watch} {i e : Id} {now : Time}

theorem Watch.Watched.request (h : s.Watched) {op : Op} {o : Outcome} (hk : KeepsAwaiting env s.db op o) :
    Watch.Watched { s with db := o.db, looked := op.looks env s.db ++ s.looked } where
  attributed := hk.attributed
  detections := by
    intro i j hj
    have hstep := hk.jobs.rows i j hj
    cases hi : s.db.jobs.get i with
    | none => rwa [hi] at hstep
    | some a =>
      rw [hi] at hstep
      obtain ⟨k, f, revision, grace, dueAt, hf, hle, htype, hpayload⟩ := (h.detections i a hi).grow hk.grown
      exact ⟨k, f, revision, grace, dueAt, hf, hle, hstep.1.trans htype, hstep.2.trans hpayload⟩
  kept := by
    intro k g hg hgap
    rcases hk.gaps k g hg hgap with ⟨hf, hbefore, hawaits⟩ | ⟨-, hnew⟩
    · exact (h.kept k g hf hbefore).imp hawaits (List.mem_append_right _)
    · exact hnew.imp_right (List.mem_append_left _)
  worked := by
    intro e i hstage
    obtain ⟨a, ha, hsettled⟩ := h.worked e i hstage
    obtain ⟨j, hj, hstep⟩ := hk.jobs.get_some ha
    refine ⟨j, hj, fun k g hg hgap hat => ?_⟩
    rw [isDetectionAt_congr hstep.1 hstep.2] at hat
    rcases hk.gaps k g hg hgap with ⟨hf, hbefore, -⟩ | ⟨hcounted, -⟩
    · exact List.mem_append_right _ (hsettled k g hf hbefore hat)
    · -- the job is older than the revision of the fragment
      obtain ⟨l, f, revision, grace, dueAt, hf, hle, htype, hpayload⟩ := h.detections i a ha
      obtain ⟨rfl, hrevision⟩ := (isDetectionAt_payload htype hpayload).mp hat
      have hlt := hcounted f hf
      omega

/-- The worker leaves fragments and reports alone. -/
structure Watch.Works (s t : Watch) : Prop where
  reports : t.db.reports = s.db.reports
  fragments : t.db.fragments = s.db.fragments
  incidents : s.db.feed.SameStatuses t.db.feed
  looked : ∀ x ∈ s.looked, x ∈ t.looked
  jobs : s.db.jobs.Related (fun a b => b.jobType = a.jobType ∧ b.payload = a.payload) t.db.jobs

theorem Watch.Works.gap (h : s.Works t) {f : InformationFragment}
    (hgap : f.IsGap t.db.feed.incidents t.db.reports) : f.IsGap s.db.feed.incidents s.db.reports :=
  ⟨(h.incidents.active f.incidentId).symm.trans hgap.incident, hgap.resident, h.reports ▸ hgap.active,
    hgap.unknown⟩

/-- A job that is no longer live has been settled, and so has one that is worked off. -/
theorem Watch.Watched.work (h : s.Watched) (hw : s.Works t)
    (hlive : ∀ i a b, s.db.jobs.get i = some a → t.db.jobs.get i = some b → a.isLive = true →
      b.isLive = true ∨ t.Settled b)
    (hworked : ∀ e i, t.stage e = some (.worked i) → s.stage e = some (.worked i) ∨
      ∃ b, t.db.jobs.get i = some b ∧ t.Settled b) : t.Watched where
  attributed := hw.reports ▸ hw.fragments ▸ h.attributed
  detections := by
    intro i b hb
    obtain ⟨a, ha, htype, hpayload⟩ := hw.jobs.left_of_some hb
    obtain ⟨k, f, revision, grace, dueAt, hf, hle, htype', hpayload'⟩ := h.detections i a ha
    exact ⟨k, f, revision, grace, dueAt, hw.fragments ▸ hf, hle, htype.trans htype', hpayload.trans hpayload'⟩
  kept := by
    intro k f hf hgap
    rw [hw.fragments] at hf
    rcases h.kept k f hf (hw.gap hgap) with ⟨i, a, ha, hat, halive⟩ | hlooked
    · obtain ⟨b, hb, htype, hpayload⟩ := hw.jobs.right_of_some ha
      rw [← isDetectionAt_congr htype hpayload] at hat
      rcases hlive i a b ha hb halive with hblive | hsettled
      · exact Or.inl ⟨i, b, hb, hat, hblive⟩
      · exact Or.inr (hsettled k f (hw.fragments ▸ hf) hgap hat)
    · exact Or.inr (hw.looked _ hlooked)
  worked := by
    intro e i hstage
    rcases hworked e i hstage with hbefore | hnow
    · obtain ⟨a, ha, hsettled⟩ := h.worked e i hbefore
      obtain ⟨b, hb, htype, hpayload⟩ := hw.jobs.right_of_some ha
      refine ⟨b, hb, fun k f hf hgap hat => hw.looked _ (hsettled k f (hw.fragments ▸ hf) (hw.gap hgap) ?_)⟩
      rwa [← isDetectionAt_congr htype hpayload]
    · exact hnow

theorem Watch.stage_progress {x : Option JobStage} {stage : JobStage} {e' : Id}
    (h : (s.progress e x).stage e' = some stage) : s.stage e' = some stage ∨ x = some stage := by
  unfold Watch.stage Watch.progress at h
  dsimp only at h
  obtain ⟨y, hy, rfl⟩ : ∃ y, (s.executions.modify e fun _ => x).get e' = some y ∧ y = some stage := by
    simpa [Option.join_eq_some_iff] using h
  rcases Table.get_modify_cases hy with ⟨-, -, -, hx⟩ | ⟨-, hy⟩
  · exact Or.inr hx.symm
  · exact Or.inl (by simp [Watch.stage, hy])

/-- What a rewritten job is of stays the same. -/
theorem modify_job (jobs : Table BackgroundJob) (i : Id) {f : BackgroundJob → BackgroundJob}
    (hf : ∀ j, (f j).jobType = j.jobType ∧ (f j).payload = j.payload) :
    jobs.Related (fun a b => b.jobType = a.jobType ∧ b.payload = a.payload) (jobs.modify i f) :=
  Table.Related.modify (R := fun a b : BackgroundJob => b.jobType = a.jobType ∧ b.payload = a.payload)
    (fun _ => ⟨rfl, rfl⟩) jobs fun j _ => hf j

theorem Watch.Watched.claim (h : s.Watched) (leaseSeconds : ℤ) (now : Time) :
    (s.claim leaseSeconds now).Watched := by
  unfold Watch.claim
  split
  · next i _ =>
    refine h.work ⟨rfl, rfl, .refl s.db.feed, fun _ hx => hx, modify_job _ _ fun _ => ⟨rfl, rfl⟩⟩ ?_ ?_
    · intro k a b ha hb hlive
      rcases Table.get_modify_cases hb with ⟨-, c, -, rfl⟩ | ⟨-, hb⟩
      · exact Or.inl rfl
      · obtain rfl := Option.some.inj (ha.symm.trans hb)
        exact Or.inl hlive
    · intro e i' hstage
      unfold Watch.stage at hstage
      obtain ⟨y, hy, hstaged⟩ : ∃ y, (s.executions.insert (some (.claimed i))).get e = some y ∧
          y = some (.worked i') := by simpa [Option.join_eq_some_iff] using hstage
      rcases Table.get_insert_cases hy with ⟨-, rfl⟩ | hy
      · exact nomatch hstaged
      · exact Or.inl (by simp [Watch.stage, hy, hstaged])
  · exact h

/-- Nothing but the stage of an execution changes, and not to the last one. -/
theorem Watch.Watched.progress (h : s.Watched) (e : Id) {x : Option JobStage}
    (hx : ∀ i, x ≠ some (.worked i)) : (s.progress e x).Watched := by
  refine h.work ⟨rfl, rfl, .refl s.db.feed, fun _ hx => hx, .refl (fun _ => ⟨rfl, rfl⟩) _⟩ ?_ ?_
  · intro k a b ha hb hlive
    obtain rfl := Option.some.inj (ha.symm.trans hb)
    exact Or.inl hlive
  · exact fun e' i hstage => (Watch.stage_progress hstage).imp_right fun hsome => absurd hsome (hx i)

theorem Watch.Watched.load (h : s.Watched) (e : Id) : (s.load e).Watched := by
  unfold Watch.load
  split
  · refine h.progress e fun i hsome => ?_
    obtain ⟨-, -, hstage⟩ := Option.map_eq_some_iff.mp hsome
    exact nomatch hstage
  · exact h

theorem Watch.Watched.finish (h : s.Watched) (e : Id) (now : Time) : (s.finish e now).Watched := by
  unfold Watch.finish
  split
  · next i hstage =>
    obtain ⟨j, hj, hsettled⟩ := h.worked e i hstage
    refine h.work ⟨rfl, rfl, .refl s.db.feed, fun _ hx => hx, modify_job _ _ fun j => ?_⟩ ?_ ?_
    · split_ifs <;> exact ⟨rfl, rfl⟩
    · intro k a b ha hb hlive
      rcases Table.get_modify_cases hb with ⟨rfl, c, hc, rfl⟩ | ⟨-, hb⟩
      · obtain rfl := Option.some.inj (hj.symm.trans hc)
        refine Or.inr fun k f hf hgap hat => hsettled k f hf hgap ?_
        rw [← hat]
        split_ifs <;> exact (isDetectionAt_congr rfl rfl).symm
      · obtain rfl := Option.some.inj (ha.symm.trans hb)
        exact Or.inl hlive
    · intro e' i' hstage'
      exact Or.inl ((Watch.stage_progress hstage').resolve_right nofun)
  · exact h

/-- The worker reads of a detection job what was put into it. -/
theorem looks_of_gap {db : Db} {j : BackgroundJob} {k : Id} {f : InformationFragment}
    (hattr : Attributed db.reports db.fragments) (hj : j.IsDetection db.fragments)
    (hf : db.fragments.get k = some f) (hgap : f.IsGap db.feed.incidents db.reports)
    (hat : isDetectionAt k f.revision j = true) (hdue : detectionDue j ≤ now) :
    (k, f.revision) ∈ j.looks now db := by
  obtain ⟨l, g, revision, grace, dueAt, hg, -, htype, hpayload⟩ := hj
  obtain ⟨rfl, rfl⟩ := (isDetectionAt_payload htype hpayload).mp hat
  obtain rfl := Option.some.inj (hf.symm.trans hg)
  obtain ⟨id, r, -, habout⟩ := hattr.reported k f hf
  have hincident : (j.payload.get "incident_id").bind Json.asRef = some f.incidentId := by
    rw [hpayload]
    rfl
  have hfragment : (j.payload.get "fragment_id").bind Json.asRef = some k := by
    rw [hpayload]
    rfl
  have hrevision : (j.payload.get "fragment_revision").bind Questions.number = some (f.revision : ℚ) := by
    rw [hpayload]
    rfl
  unfold BackgroundJob.looks
  rw [hincident, hfragment, hrevision]
  exact looksInto_gap (b := db.spotBoard) hgap habout hf hdue

/-- A detection that is not due is put off; otherwise the jobs are left alone. -/
theorem runBlindSpotJob_jobs {db db' : Db} {job : BackgroundJob}
    (h : runBlindSpotJob env now db i = .ok db') (hjob : db.jobs.get i = some job) :
    (now < detectionDue job ∧ ∃ putOff : BackgroundJob → BackgroundJob,
      (∀ j, (putOff j).jobType = j.jobType ∧ (putOff j).payload = j.payload ∧ (putOff j).isLive = true) ∧
      db'.jobs = db.jobs.modify i putOff) ∨
    detectionDue job ≤ now ∧ db'.jobs = db.jobs := by
  simp only [runBlindSpotJob, bind_ok, found_ok] at h
  obtain ⟨j, hj, -, -, h⟩ := h
  obtain rfl := Option.some.inj (hjob.symm.trans hj)
  split_ifs at h with hdue
  · rw [← pure_ok.mp h]
    refine Or.inl ⟨hdue, _, ?_, rfl⟩
    exact fun _ => ⟨rfl, rfl, rfl⟩
  · refine Or.inr ⟨not_lt.mp hdue, ?_⟩
    split at h
    · rw [← pure_ok.mp h]
      rfl
    · exact absurd h throw_ok

theorem Watch.Watched.detected (h : s.Watched) {job : BackgroundJob} {db : Db}
    (hjob : s.db.jobs.get i = some job) (hreports : db.reports = s.db.reports)
    (hfragments : db.fragments = s.db.fragments) (hfeed : s.db.feed.SameStatuses db.feed)
    (hjobs : (now < detectionDue job ∧ ∃ putOff : BackgroundJob → BackgroundJob,
      (∀ j, (putOff j).jobType = j.jobType ∧ (putOff j).payload = j.payload ∧ (putOff j).isLive = true) ∧
      db.jobs = s.db.jobs.modify i putOff) ∨ detectionDue job ≤ now ∧ db.jobs = s.db.jobs) :
    Watch.Watched (if now < detectionDue job then { s.progress e none with db := db }
      else
        { s.progress e (some (.worked i)) with
          db := db
          looked := job.looks now s.db ++ s.looked }) := by
  rcases hjobs with ⟨hdue, putOff, hput, hjobs⟩ | ⟨hdue, hjobs⟩
  · rw [if_pos hdue]
    refine h.work ⟨hreports, hfragments, hfeed, fun _ hx => hx, ?_⟩ (fun k a b ha hb hlive => ?_)
      fun e' i' hstage => ?_
    · exact hjobs ▸ modify_job s.db.jobs i fun j => ⟨(hput j).1, (hput j).2.1⟩
    · replace hb : db.jobs.get k = some b := hb
      rw [hjobs] at hb
      rcases Table.get_modify_cases hb with ⟨-, c, -, rfl⟩ | ⟨-, hb⟩
      · exact Or.inl (hput c).2.2
      · obtain rfl := Option.some.inj (ha.symm.trans hb)
        exact Or.inl hlive
    · replace hstage : (s.progress e none).stage e' = some (.worked i') := hstage
      exact Or.inl ((Watch.stage_progress hstage).resolve_right nofun)
  · rw [if_neg (not_lt.mpr hdue)]
    refine h.work ⟨hreports, hfragments, hfeed, fun _ hx => List.mem_append_right _ hx, ?_⟩
      (fun k a b ha hb hlive => ?_) fun e' i' hstage => ?_
    · change s.db.jobs.Related _ db.jobs
      rw [hjobs]
      exact .refl (fun _ => ⟨rfl, rfl⟩) s.db.jobs
    · replace hb : db.jobs.get k = some b := hb
      rw [hjobs] at hb
      obtain rfl := Option.some.inj (ha.symm.trans hb)
      exact Or.inl hlive
    · replace hstage : (s.progress e (some (.worked i))).stage e' = some (.worked i') := hstage
      refine (Watch.stage_progress hstage).imp_right fun hnow => ?_
      obtain rfl : i = i' := by simpa using hnow
      have hstored : db.jobs.get i = some job := hjobs ▸ hjob
      refine ⟨job, hstored, fun k f hf hgap hat => ?_⟩
      replace hf : db.fragments.get k = some f := hf
      rw [hfragments] at hf
      have hbefore : f.IsGap s.db.feed.incidents s.db.reports :=
        ⟨(hfeed.active f.incidentId).symm.trans hgap.incident, hgap.resident, hreports ▸ hgap.active, hgap.unknown⟩
      exact List.mem_append_left _ (looks_of_gap h.attributed (h.detections i job hjob) hf hbefore hat hdue)

theorem Watch.Watched.worked_off (h : s.Watched) (e : Id) (now : Time) : (s.work env e now).Watched := by
  unfold Watch.work
  split
  · next i _ =>
    cases hjob : s.db.jobs.get i with
    | none => exact h
    | some job =>
      dsimp only
      by_cases htype : job.jobType = .blindSpotDetect
      · rw [if_pos htype]
        cases hrun : runBlindSpotJob env now s.db.begin i with
        | error _ => exact h
        | ok db =>
          have hreports := runBlindSpotJob_reports hrun
          have hfragments := (runBlindSpotJob_untouched hrun).fragments
          have hfeed := runBlindSpotJob_sameStatuses hrun
          have hjobs := runBlindSpotJob_jobs hrun hjob
          exact h.detected hjob hreports hfragments hfeed hjobs
      · rw [if_neg htype]
        refine h.work ⟨rfl, rfl, .refl s.db.feed, fun _ hx => hx, .refl (fun _ => ⟨rfl, rfl⟩) _⟩ ?_ ?_
        · intro k a b ha hb hlive
          obtain rfl := Option.some.inj (ha.symm.trans hb)
          exact Or.inl hlive
        · intro e' i' hstage
          refine (Watch.stage_progress hstage).imp_right fun hnow => ?_
          obtain rfl : i = i' := by simpa using hnow
          exact ⟨job, hjob, fun k f _ _ hat => absurd (isDetectionAt_iff.mp hat).1 htype⟩
  · exact h

/-- A step keeps the gaps watched. -/
theorem watchStep_watched (htext : env.text.PlainLowercase) (h : s.Watched) {x : WatchStep}
    (hwatched : x.isWatched = true) (hspares : x.Spares env s) : (watchStep env leaseSeconds s x).Watched := by
  cases x with
  | request op =>
    change (s.request env op).Watched
    unfold Watch.request
    cases ho : transact env s.db op with
    | error e => exact h
    | ok o =>
      obtain ⟨hgaps, hlater⟩ := hspares o ho
      exact h.request (transact_keeps htext h.attributed h.detections hwatched hgaps hlater ho)
  | claim now => exact h.claim leaseSeconds now
  | load e => exact h.load e
  | work e now => exact h.worked_off e now
  | finish e now => exact h.finish e now
  | crash e => exact h.progress e fun _ => nofun

theorem Watch.Watched.initial (incidents : Table Incident) (devices : Table AnonymousDevice)
    (attachments : Table Attachment) : (Watch.initial incidents devices attachments).Watched where
  attributed := ⟨fun _ _ hf => (nomatch hf), fun _ _ _ _ hf => (nomatch hf)⟩
  detections := fun _ _ hj => nomatch hj
  kept := fun _ _ hf => nomatch hf
  worked := fun _ _ hstage => nomatch hstage

end Steps

/-- Reports, cases, decisions and workers in any order: as long as no decision is about a gap, every
gap has a live job at the revision of its fragment, or a detection has run at that revision. -/
theorem no_detection_is_lost {env : Env} (htext : env.text.PlainLowercase) (leaseSeconds : ℤ)
    (incidents : Table Incident) (devices : Table AnonymousDevice) (attachments : Table Attachment)
    {steps : List WatchStep} (hwatched : ∀ x ∈ steps, x.isWatched = true)
    (hspares : Along (watchStep env leaseSeconds) (fun s x => x.Spares env s)
      (.initial incidents devices attachments) steps) :
    (run (watchStep env leaseSeconds) (.initial incidents devices attachments) steps).LosesNone := by
  have hsteps : Along (watchStep env leaseSeconds) (fun s x => x.isWatched = true ∧ x.Spares env s)
      (.initial incidents devices attachments) steps :=
    along_and _ |>.mpr ⟨along_of_forall _ fun x hx _ => hwatched x hx, hspares⟩
  exact (run_invariant (watchStep env leaseSeconds) (I := Watch.Watched)
    (fun s x hs hx => watchStep_watched htext hs hx.1 hx.2) (.initial incidents devices attachments) hsteps).kept

/-- A gap that no job of its revision is about, and no detection has looked into. -/
theorem Watch.not_losesNone {s : Watch} {k revision : ℕ}
    (hgap : (s.db.fragments.get k).any (fun f => f.revision = revision && f.claimValue = some "unknown" &&
      f.sourceType = .residentReport && reportFragmentIsActive s.db.reports f &&
      (s.db.feed.incidents.get f.incidentId).any (·.status = .active)) = true)
    (hjobs : s.db.jobs.rows.all (fun j => !isDetectionAt k revision j) = true)
    (hlooked : (k, revision) ∉ s.looked) : ¬ s.LosesNone := by
  intro hnone
  obtain ⟨f, hf, hfacts⟩ := (Option.any_eq_true _ _).mp hgap
  simp only [Bool.and_eq_true, decide_eq_true_eq] at hfacts
  obtain ⟨⟨⟨⟨rfl, hunknown⟩, hresident⟩, hactive⟩, hincident⟩ := hfacts
  rcases hnone k f hf ⟨hincident, hresident, hactive, hunknown⟩ with ⟨i, j, hj, hat, -⟩ | hin
  · have hother := List.all_eq_true.mp hjobs j (List.mem_of_getElem? hj)
    simp [hat] at hother
  · exact hlooked hin

namespace Sample

abbrev watch (steps : List WatchStep) : Watch :=
  run (watchStep env 60) (.initial ⟨[incident]⟩ ⟨[⟨none⟩, ⟨none⟩]⟩ .empty) steps

def lookedReport : Op := ⟨0, resident, none, .postReport (.id 0) (roadReport "landslide") (.ok none) (.ok ())⟩

/-- The report says nothing about the road, and a worker looks into it when it is due. -/
def lookedRoad : List WatchStep :=
  [.request lookedReport,
    .claim (minutes 10), .load 0, .work 0 (minutes 10), .finish 0 (minutes 10)]

/-- An operator decides a case about the report before its detection is due. -/
def decidedRoad : List WatchStep :=
  [.request ⟨0, neighbour, none, .postReport (.id 0) (roadReport "road closed") (.ok none) (.ok ())⟩,
    .request ⟨1, resident, none, .postReport (.id 0) (roadReport "landslide") (.ok none) (.ok ())⟩,
    .request ⟨2, admin, none, .createConflict (.id 0) conflict⟩,
    .request ⟨3, admin, none, .submitConflictDecision (.id 0) (decision ⟨.current, current_allowed⟩)⟩]

end Sample

open Sample in
theorem lookedRoad_loses_none : (Sample.watch lookedRoad).LosesNone := by
  have hwatched : ∀ x ∈ lookedRoad, x.isWatched = true := by decide
  have hspares : ∀ x ∈ lookedRoad, ∀ s, x.Spares env s := by
    intro x hx s
    cases x with
    | request op =>
      obtain rfl : op = lookedReport := by simpa [lookedRoad] using hx
      exact fun _ _ => ⟨nofun, nofun⟩
    | claim | load | work | finish | crash => trivial
  exact no_detection_is_lost text_plainLowercase 60 ⟨[incident]⟩ ⟨[⟨none⟩, ⟨none⟩]⟩ .empty
    hwatched (along_of_forall _ hspares)

open Sample in
/-- The decision counts the revision of the fragment, and no job has that revision. -/
theorem decidedRoad_loses_detection : ¬ (Sample.watch decidedRoad).LosesNone := by
  have hgap : ((Sample.watch decidedRoad).db.fragments.get 1).any (fun f => f.revision = 2 &&
      f.claimValue = some "unknown" && f.sourceType = .residentReport &&
      reportFragmentIsActive (Sample.watch decidedRoad).db.reports f &&
      ((Sample.watch decidedRoad).db.feed.incidents.get f.incidentId).any (·.status = .active)) = true := by
    decide +kernel
  have hjobs : (Sample.watch decidedRoad).db.jobs.rows.all (fun j => !isDetectionAt 1 2 j) = true := by
    decide +kernel
  have hlooked : (Sample.watch decidedRoad).looked = [] := by rfl
  generalize Sample.watch decidedRoad = s at hgap hjobs hlooked ⊢
  exact Watch.not_losesNone hgap hjobs (by simp [hlooked])

end CrisisMosaic
