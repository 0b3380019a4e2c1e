import CrisisMosaic.KeptCovers

/-!
# No gap is hidden

Once no detection is pending, every unknown report is answered or has an open blind spot, as long as
no request takes the last cover from a gap that a detection has looked into. A detection that finds
an answer leaves nothing behind that would bring it back when the answer is withdrawn.
-/

namespace CrisisMosaic
open Relational InformationFragment

/-- Requests are about reports. -/
def WatchStep.isReporting : WatchStep → Bool
  | .request op => op.call.isReportOperation && op.call.isWatched
  | _ => true

/-- An accepted request revives no fragment as it was, and leaves a cover to each gap a detection has
looked into, unless it writes the fragment anew. -/
def WatchStep.LeavesCovers (env : Env) (s : Watch) : WatchStep → Prop
  | .request op => ∀ o, transact env s.db op = .ok o → op.ResumesLater s.db ∧
      ∀ k f, s.db.fragments.get k = some f → f.IsGap s.db.feed.incidents s.db.reports →
        (k, f.revision) ∈ s.looked → (∀ w, op.rewrites env s.db.begin = some w → w.id ≠ k) →
        op.LeavesCover env s.db.begin f
  | _ => True

namespace Watch
variable (env : Env)

/-- No detection is pending, in its grace period or after it. -/
def IsSettled (s : Watch) : Prop :=
  ∀ i j, s.db.jobs.get i = some j → j.jobType = .blindSpotDetect → j.isLive = false

/-- Every gap is answered or has an open blind spot. -/
def HidesNone (s : Watch) : Prop :=
  ∀ k f, s.db.fragments.get k = some f → f.IsGap s.db.feed.incidents s.db.reports →
    f.Covered env s.db.reports s.db.fragments s.db.blindSpots

structure Covers (s : Watch) : Prop where
  watched : s.Watched
  resident : Resident env s.db.reports s.db.fragments
  automatic : AllAutomatic s.db.blindSpots
  seen : ∀ k revision, (k, revision) ∈ s.looked →
    ∃ f, s.db.fragments.get k = some f ∧ revision ≤ f.revision
  covered : ∀ k f, s.db.fragments.get k = some f → f.IsGap s.db.feed.incidents s.db.reports →
    (k, f.revision) ∈ s.looked → f.Covered env s.db.reports s.db.fragments s.db.blindSpots

theorem initial_covers (incidents : Table Incident) (devices : Table AnonymousDevice)
    (attachments : Table Attachment) : (Watch.initial incidents devices attachments).Covers env where
  watched := .initial incidents devices attachments
  resident := (initial_standsOnReports env incidents devices attachments).resident
  automatic := fun _ _ hb => by cases hb
  seen := fun _ _ h => by cases h
  covered := fun _ _ hf => by cases hf

end Watch

section Steps
variable {env : Env} {leaseSeconds : ℤ} {s t : Watch} {i e k revision : ℕ} {now : Time}

theorem Watch.Covers.hidesNone (h : s.Covers env) (hsettled : s.IsSettled) : s.HidesNone env := by
  intro k f hf hgap
  rcases h.watched.kept k f hf hgap with ⟨i, j, hj, hat, hlive⟩ | hlooked
  · have hdead := hsettled i j hj (isDetectionAt_iff.mp hat).1
    exact absurd (hdead.symm.trans hlive) (by decide)
  · exact h.covered k f hf hgap hlooked

theorem Watch.Covers.request (h : s.Covers env) {op : Op} {o : Outcome} (ho : transact env s.db op = .ok o)
    (hop : op.call.isReportOperation = true) (hk : KeepsAwaiting env s.db op o)
    (ht : Watch.Watched { s with db := o.db, looked := op.looks env s.db ++ s.looked })
    (hcovers : ∀ k f, s.db.fragments.get k = some f → f.IsGap s.db.feed.incidents s.db.reports →
      (k, f.revision) ∈ s.looked → (∀ w, op.rewrites env s.db.begin = some w → w.id ≠ k) →
      op.LeavesCover env s.db.begin f) :
    Watch.Covers env { s with db := o.db, looked := op.looks env s.db ++ s.looked } := by
  have hstages : ReportStages env s.db.begin op o := handle_stages ho hop
  have hauto : AllAutomatic s.db.begin.blindSpots := h.automatic
  have hresident : Resident env s.db.begin.reports s.db.begin.fragments := h.resident
  have hlooked : ∀ {k revision}, (k, revision) ∈ op.looks env s.db → ∃ g, o.db.fragments.get k = some g ∧
      revision ≤ g.revision ∧ g.Covered env o.db.reports o.db.fragments o.db.blindSpots := fun hlooks =>
    hstages.looked_covered hauto hlooks
  refine ⟨ht, hstages.resident hresident, hstages.spots.automatic hresident hauto, ?_, ?_⟩
  · intro k revision hmem
    rcases List.mem_append.mp hmem with hnew | hold
    · obtain ⟨g, hg, hle, -⟩ := hlooked hnew
      exact ⟨g, hg, hle⟩
    · obtain ⟨f, hf, hle⟩ := h.seen k revision hold
      obtain ⟨g, hg, -, hgrown⟩ := hk.grown k f hf
      exact ⟨g, hg, hle.trans hgrown⟩
  · intro k g hg hgap hmem
    rcases List.mem_append.mp hmem with hnew | hold
    · obtain ⟨g', hg', -, hcovered⟩ := hlooked hnew
      obtain rfl := Option.some.inj (hg.symm.trans hg')
      exact hcovered
    · rcases hk.gaps k g hg hgap with ⟨hf, hbefore, -⟩ | ⟨hcounted, -⟩
      · refine (hcovers k g hf hbefore hold fun w hw hwk => ?_).covered hstages hresident
        subst hwk
        exact (active_iff.mp hgap.active).1 (hstages.rewritten_counts hw hf hg)
      · obtain ⟨f, hf, hle⟩ := h.seen k g.revision hold
        exact absurd (hcounted f hf) (not_lt.mpr hle)

/-- The worker closes no spot, and what it looks into is covered. -/
theorem Watch.Covers.work (h : s.Covers env) (ht : t.Watched) (hreports : t.db.reports = s.db.reports)
    (hfragments : t.db.fragments = s.db.fragments) (hfeed : s.db.feed.SameStatuses t.db.feed)
    (hauto : AllAutomatic t.db.blindSpots)
    (hspots : ∀ f : InformationFragment, f.HasOpenSpot env s.db.blindSpots →
      f.HasOpenSpot env t.db.blindSpots)
    (hlooked : ∀ k revision, (k, revision) ∈ t.looked → (k, revision) ∈ s.looked ∨
      ∃ f, s.db.fragments.get k = some f ∧ f.revision = revision ∧
        f.Covered env s.db.reports s.db.fragments t.db.blindSpots) : t.Covers env where
  watched := ht
  resident := hreports ▸ hfragments ▸ h.resident
  automatic := hauto
  seen := by
    intro k revision hmem
    rw [hfragments]
    rcases hlooked k revision hmem with hold | ⟨f, hf, hat, -⟩
    · exact h.seen k revision hold
    · exact ⟨f, hf, hat.ge⟩
  covered := by
    intro k f hf hgap hmem
    rw [hfragments] at hf ⊢
    rw [hreports] at hgap ⊢
    rcases hlooked k f.revision hmem with hold | ⟨g, hg, -, hcovered⟩
    · have hbefore : f.IsGap s.db.feed.incidents s.db.reports :=
        ⟨(hfeed.active f.incidentId).symm.trans hgap.incident, hgap.resident, hgap.active, hgap.unknown⟩
      exact (h.covered k f hf hbefore hold).imp_right (hspots f)
    · obtain rfl := Option.some.inj (hf.symm.trans hg)
      exact hcovered

theorem runBlindSpotJob_keepsOpen {db db' : Db} (h : runBlindSpotJob env now db i = .ok db')
    (hauto : AllAutomatic db.blindSpots) : AllAutomatic db'.blindSpots ∧
      ∀ f : InformationFragment, f.HasOpenSpot env db.blindSpots → f.HasOpenSpot env db'.blindSpots := by
  rcases runBlindSpotJob_spots h with hsame | ⟨incidentId, k, revision, dueAt, -, hd⟩
  · rw [hsame]
    exact ⟨hauto, fun _ hf => hf⟩
  · exact ⟨hd.automatic hauto, fun _ hf => hf.detected hd⟩

/-- What a detection job looks into is covered afterwards. -/
theorem runBlindSpotJob_covers {db db' : Db} {job : BackgroundJob} (h : runBlindSpotJob env now db i = .ok db')
    (hjob : db.jobs.get i = some job) (hauto : AllAutomatic db.blindSpots)
    (hlooks : (k, revision) ∈ job.looks now db) : ∃ f, db.fragments.get k = some f ∧
      f.revision = revision ∧ f.Covered env db.reports db.fragments db'.blindSpots := by
  unfold BackgroundJob.looks at hlooks
  split at hlooks
  · next incidentId l number hincident hfragment hrevision =>
    obtain ⟨heq, hdue, f, hgap⟩ := mem_looksInto hlooks
    obtain ⟨rfl, rfl⟩ := Prod.mk.inj heq
    simp only [runBlindSpotJob, bind_ok, found_ok] at h
    obtain ⟨j, hj, -, -, h⟩ := h
    obtain rfl := Option.some.inj (hjob.symm.trans hj)
    change (if now < detectionDue job then _ else _) = _ at h
    rw [if_neg (not_lt.mpr hdue), hincident, hfragment, hrevision] at h
    rw [← pure_ok.mp h]
    exact ⟨f, hgap.stored, hgap.revision, (withSpotBoard_detects db incidentId k _ _ _).covers hauto hgap hdue⟩
  · exact absurd hlooks List.not_mem_nil

theorem Watch.Covers.detected (h : s.Covers env) {job : BackgroundJob} {db : Db}
    (hjob : s.db.jobs.get i = some job) (hrun : runBlindSpotJob env now s.db.begin i = .ok db)
    {execution : Option JobStage} (looked : List (Id × ℕ))
    (hlooked : ∀ x ∈ looked, x ∈ s.looked ∨ x ∈ job.looks now s.db)
    (ht : Watch.Watched { s.progress e execution with db := db, looked := looked }) :
    Watch.Covers env { s.progress e execution with db := db, looked := looked } := by
  have hreports := runBlindSpotJob_reports hrun
  have hfragments := (runBlindSpotJob_untouched hrun).fragments
  have hfeed := runBlindSpotJob_sameStatuses hrun
  have hkept := runBlindSpotJob_keepsOpen hrun
  refine h.work ht hreports hfragments hfeed (hkept h.automatic).1 (hkept h.automatic).2
    fun k revision hmem => (hlooked _ hmem).imp_right fun hlooks => ?_
  have hcovered := runBlindSpotJob_covers hrun hjob h.automatic hlooks
  exact hcovered

theorem Watch.Covers.worked_off (h : s.Covers env) (ht : (s.work env e now).Watched) :
    (s.work env e now).Covers env := by
  unfold Watch.work at ht ⊢
  split at ht
  · next i hstage =>
    cases hjob : s.db.jobs.get i with
    | none => exact h
    | some job =>
      rw [hjob] at ht
      dsimp only at ht ⊢
      by_cases htype : job.jobType = .blindSpotDetect
      · rw [if_pos htype] at ht ⊢
        cases hrun : runBlindSpotJob env now s.db.begin i with
        | error _ => exact h
        | ok db =>
          rw [hrun] at ht
          dsimp only at ht ⊢
          by_cases hdue : now < detectionDue job
          · rw [if_pos hdue] at ht ⊢
            exact h.detected hjob hrun s.looked (fun x hx => Or.inl hx) ht
          · rw [if_neg hdue] at ht ⊢
            exact h.detected hjob hrun _ (fun x hx => (List.mem_append.mp hx).symm) ht
      · rw [if_neg htype] at ht ⊢
        exact h.work ht rfl rfl (.refl s.db.feed) h.automatic (fun _ hf => hf) fun _ _ => Or.inl
  · exact h

/-- A step leaves a cover to every gap a detection has looked into. -/
theorem watchStep_covers (htext : env.text.PlainLowercase) (h : s.Covers env) {x : WatchStep}
    (hreporting : x.isReporting = true) (hcovers : x.LeavesCovers env s) :
    (watchStep env leaseSeconds s x).Covers env := by
  have hidle : ∀ {t : Watch}, t.Watched → t.db.reports = s.db.reports → t.db.fragments = s.db.fragments →
      t.db.feed = s.db.feed → t.db.blindSpots = s.db.blindSpots → t.looked = s.looked → t.Covers env := by
    intro t ht hreports hfragments hfeed hspots hlooked
    refine h.work ht hreports hfragments (hfeed ▸ .refl s.db.feed) (hspots ▸ h.automatic) ?_ ?_
    · exact fun f hf => hspots ▸ hf
    · exact fun k revision hmem => Or.inl (hlooked ▸ hmem)
  cases x with
  | request op =>
    obtain ⟨hop, hwatched⟩ := (Bool.and_eq_true _ _).mp hreporting
    change (s.request env op).Covers env
    unfold Watch.request
    cases ho : transact env s.db op with
    | error _ => exact h
    | ok o =>
      obtain ⟨hlater, hleaves⟩ := hcovers o ho
      have hspares : op.SparesGaps s.db := by
        intro conflict payload hcall
        rw [hcall] at hop
        cases hop
      have hk := transact_keeps htext h.watched.attributed h.watched.detections hwatched hspares hlater ho
      exact h.request ho hop hk (h.watched.request hk) hleaves
  | claim now =>
    have ht : (s.claim leaseSeconds now).Watched := h.watched.claim leaseSeconds now
    change (s.claim leaseSeconds now).Covers env
    unfold Watch.claim at ht ⊢
    split at ht
    · exact hidle ht rfl rfl rfl rfl rfl
    · exact h
  | load e =>
    have ht : (s.load e).Watched := h.watched.load e
    change (s.load e).Covers env
    unfold Watch.load at ht ⊢
    split at ht
    · exact hidle ht rfl rfl rfl rfl rfl
    · exact h
  | work e now => exact h.worked_off (h.watched.worked_off e now)
  | finish e now =>
    have ht : (s.finish e now).Watched := h.watched.finish e now
    change (s.finish e now).Covers env
    unfold Watch.finish at ht ⊢
    split at ht
    · exact hidle ht rfl rfl rfl rfl rfl
    · exact h
  | crash e => exact hidle (h.watched.progress e fun _ h => by cases h) rfl rfl rfl rfl rfl

end Steps

/-- A gap without a concrete claim to answer it and without an open spot. -/
theorem Watch.not_hidesNone {env : Env} {s : Watch} {k : ℕ}
    (hgap : (s.db.fragments.get k).any (fun f => f.claimValue = some "unknown" &&
      f.sourceType = .residentReport && reportFragmentIsActive s.db.reports f &&
      (s.db.feed.incidents.get f.incidentId).any (·.status = .active)) = true)
    (hanswers : s.db.fragments.rows.all (fun g => !isConcrete g.claimValue ||
      !reportFragmentIsActive s.db.reports g) = true)
    (hspots : s.db.blindSpots.rows.all (fun b => !b.isOpen) = true) : ¬ s.HidesNone env := by
  intro hnone
  obtain ⟨f, hf, hfacts⟩ := (Option.any_eq_true _ _).mp hgap
  simp only [Bool.and_eq_true, decide_eq_true_eq] at hfacts
  obtain ⟨⟨⟨hunknown, hresident⟩, hactive⟩, hincident⟩ := hfacts
  rcases hnone k f hf ⟨hincident, hresident, hactive, hunknown⟩ with ⟨l, g, hg, hanswered⟩ | ⟨i, b, hb, -, hopen⟩
  · have hother := List.all_eq_true.mp hanswers g (List.mem_of_getElem? hg)
    simp [hanswered.concrete, hanswered.active] at hother
  · have hclosed := List.all_eq_true.mp hspots b (List.mem_of_getElem? hb)
    simp [hopen] at hclosed

theorem Watch.isSettled_of_all {s : Watch}
    (h : s.db.jobs.rows.all (fun j => !(j.jobType = .blindSpotDetect) || !j.isLive) = true) :
    s.IsSettled := by
  intro i j hj htype
  have hdead := List.all_eq_true.mp h j (List.mem_of_getElem? hj)
  simpa [htype] using hdead

namespace Sample

/-- A neighbour tells what the report leaves unknown, a worker finds the answer when the detection
is due, and the neighbour takes it back. -/
def hiddenRoad : List WatchStep :=
  [.request lookedReport,
    .request ⟨1, neighbour, none, .postReport (.id 0) (roadReport "road closed") (.ok none) (.ok ())⟩,
    .claim (minutes 10), .load 0, .work 0 (minutes 10), .finish 0 (minutes 10),
    .request ⟨minutes 11, neighbour, none, .deleteReport 1 1⟩]

end Sample

open Sample in
/-- The detection has found the answer and left no spot, and none is made when it is withdrawn. -/
theorem hiddenRoad_hides_gap :
    (Sample.watch hiddenRoad).IsSettled ∧ ¬ (Sample.watch hiddenRoad).HidesNone env := by
  have hgap : ((Sample.watch hiddenRoad).db.fragments.get 0).any (fun f => f.claimValue = some "unknown" &&
      f.sourceType = .residentReport &&
      reportFragmentIsActive (Sample.watch hiddenRoad).db.reports f &&
      ((Sample.watch hiddenRoad).db.feed.incidents.get f.incidentId).any (·.status = .active)) = true := by
    decide +kernel
  have hanswers : (Sample.watch hiddenRoad).db.fragments.rows.all (fun g => !isConcrete g.claimValue ||
      !reportFragmentIsActive (Sample.watch hiddenRoad).db.reports g) = true := by decide +kernel
  have hspots : (Sample.watch hiddenRoad).db.blindSpots.rows.all (fun b => !b.isOpen) = true := by
    decide +kernel
  have hjobs : (Sample.watch hiddenRoad).db.jobs.rows.all
      (fun j => !(j.jobType = .blindSpotDetect) || !j.isLive) = true := by decide +kernel
  generalize Sample.watch hiddenRoad = s at hgap hanswers hspots hjobs ⊢
  exact ⟨Watch.isSettled_of_all hjobs, Watch.not_hidesNone hgap hanswers hspots⟩

end CrisisMosaic
