import CrisisMosaic.AwaitedDetections

/-!
# Gaps under operations

A gap that an operation leaves was there before and keeps its job, or its fragment is
written anew and has a job of its own, or a detection has looked into it at once.
-/

namespace CrisisMosaic
open Relational InformationFragment

namespace Op

/-- An invalid report is not made valid at the very instant its fragment was received. -/
def ResumesLater (db : Db) (op : Op) : Prop :=
  ∀ id revision status, op.call = .patchReportStatus id revision status →
    (db.reports.get id).any (·.status = .invalid) = true →
    ∀ k f, db.fragments.get k = some f → f.sourceRefId = some id → f.receivedAt ≠ op.now

/-- What a decision disposes of is no fragment with an unknown claim. -/
def SparesGaps (db : Db) (op : Op) : Prop :=
  ∀ conflict payload, op.call = .submitConflictDecision conflict payload →
    SparesUnknown db.evidence db.fragments payload.submittedIds

end Op

/-- The rows are kept under their incidents, and their revisions are not counted back. -/
def Grown (fragments fragments' : Table InformationFragment) : Prop :=
  ∀ k f, fragments.get k = some f → ∃ g, fragments'.get k = some g ∧
    g.incidentId = f.incidentId ∧ f.revision ≤ g.revision

/-- What an accepted operation leaves of the gaps and of the jobs. -/
structure KeepsAwaiting (env : Env) (db : Db) (op : Op) (o : Outcome) : Prop where
  incidents : db.feed.SameStatuses o.db.feed
  attributed : Attributed o.db.reports o.db.fragments
  jobs : db.jobs.Evolves (JobKept (BackgroundJob.IsDetection o.db.fragments)) o.db.jobs
  grown : Grown db.fragments o.db.fragments
  gaps : ∀ k g, o.db.fragments.get k = some g → g.IsGap o.db.feed.incidents o.db.reports →
    (db.fragments.get k = some g ∧ g.IsGap db.feed.incidents db.reports ∧
      (AwaitsDetection db.jobs k g.revision → AwaitsDetection o.db.jobs k g.revision)) ∨
    (∀ f, db.fragments.get k = some f → f.revision < g.revision) ∧
      (AwaitsDetection o.db.jobs k g.revision ∨ (k, g.revision) ∈ op.looks env db)

section Rows
variable {env : Env} {now : Time} {db m : Db} {id k : Id} {r : Report} {feed : Feed}
  {f g : InformationFragment} {fragments fragments' : Table InformationFragment}

theorem Grown.trans {fragments'' : Table InformationFragment} (h : Grown fragments fragments')
    (h' : Grown fragments' fragments'') : Grown fragments fragments'' := by
  intro k f hf
  obtain ⟨g, hg, hinc, hle⟩ := h k f hf
  obtain ⟨e, he, hinc', hle'⟩ := h' k g hg
  exact ⟨e, he, hinc'.trans hinc, hle.trans hle'⟩

theorem Grown.moved (h : fragments.Related Moved fragments') : Grown fragments fragments' := by
  intro k f hf
  obtain ⟨g, hg, hcontent, hle, -⟩ := h.right_of_some hf
  refine ⟨g, hg, ?_, hle⟩
  rw [SameContent] at hcontent
  rw [hcontent]

theorem Grown.modify (hf : fragments.get k = some f) (hinc : g.incidentId = f.incidentId)
    (hle : f.revision ≤ g.revision) : Grown fragments (fragments.modify k fun _ => g) := by
  intro l e he
  by_cases hkl : k = l
  · obtain rfl := hkl
    obtain rfl := Option.some.inj (hf.symm.trans he)
    exact ⟨g, by simp [hf], hinc, hle⟩
  · exact ⟨e, (Table.get_modify_of_ne _ _ hkl).trans he, rfl, le_rfl⟩

theorem BackgroundJob.IsDetection.grow {j : BackgroundJob} (h : j.IsDetection fragments)
    (hgrown : Grown fragments fragments') : j.IsDetection fragments' := by
  obtain ⟨k, f, revision, grace, dueAt, hf, hle, htype, hpayload⟩ := h
  obtain ⟨g, hg, hinc, hrevision⟩ := hgrown k f hf
  exact ⟨k, g, revision, grace, dueAt, hg, hle.trans hrevision, htype, hinc ▸ hpayload⟩

theorem upsert_grown (env : Env) (now : Time) (fragments : Table InformationFragment) (id : Id)
    (r : Report) : Grown fragments (upsertReportFragment env now fragments id r).fragments := by
  rcases upsertReportFragment_cases env now fragments id r with
    ⟨g, -, hu, -⟩ | ⟨k, f, hf, hp, ⟨hu, -⟩ | ⟨g, rfl, hu⟩⟩ <;> rw [hu]
  · exact fun k f hf => ⟨f, Table.get_insert_of_some _ hf, rfl, le_rfl⟩
  · exact fun k f hf => ⟨f, hf, rfl, le_rfl⟩
  · exact Grown.modify hf (isReportFragment_iff.mp hp).1.symm (Nat.le_succ _)

/-- What an observation writes is received when the report was updated, and counts more than what
it writes over. -/
theorem upsert_written (env : Env) (now : Time) (fragments : Table InformationFragment) (id : Id)
    (r : Report) :
    let u := upsertReportFragment env now fragments id r
    u.fragment.receivedAt = r.updatedAt ∧
      (u.changed = true → ∀ f, fragments.get u.id = some f → f.revision < u.fragment.revision) := by
  dsimp only
  rcases upsertReportFragment_cases env now fragments id r with
    ⟨g, rfl, hu, -⟩ | ⟨k, f, hf, -, ⟨hu, -, hsame⟩ | ⟨g, rfl, hu⟩⟩ <;> rw [hu]
  · exact ⟨rfl, fun _ f hf => by simp at hf⟩
  · refine ⟨?_, fun h => (nomatch h)⟩
    exact (congrArg InformationFragment.receivedAt hsame).symm
  · refine ⟨rfl, fun _ e he => ?_⟩
    obtain rfl := Option.some.inj (hf.symm.trans he)
    exact Nat.lt_succ_self _

theorem Attributed.written (h : Attributed db.reports fragments) (hs : Stores db id r m) :
    (upsertReportFragment env now fragments id r).fragment.IsAbout id r := by
  rcases upsertReportFragment_cases env now fragments id r with
    ⟨g, rfl, hu, -⟩ | ⟨k, f, hf, hp, ⟨hu, -⟩ | ⟨g, rfl, hu⟩⟩ <;> rw [hu]
  · exact observe_isAbout env id r rfl
  · exact (h.of_ref hs hf (isReportFragment_iff.mp hp).2.2).2
  · exact refresh_isAbout env now (h.of_ref hs hf (isReportFragment_iff.mp hp).2.2).2

/-- A gap after a report is stored was one before, unless it is the report that counts again. -/
theorem InformationFragment.IsGap.before (h : g.IsGap feed.incidents m.reports)
    (hattr : Attributed db.reports db.fragments) (hs : Stores db id r m) (hg : db.fragments.get k = some g)
    (hfeed : db.feed.SameStatuses feed) (hown : g.sourceRefId = some id → r.isLive = true →
      ∀ r₀, db.reports.get id = some r₀ → r₀.isLive = true) : g.IsGap db.feed.incidents db.reports where
  incident := (hfeed.active g.incidentId).symm.trans h.incident
  resident := h.resident
  unknown := h.unknown
  active := by
    obtain ⟨i, r', hr', habout⟩ := hattr.reported k g hg
    obtain ⟨hstatus, hreport⟩ := active_iff.mp h.active
    obtain ⟨i', q, href, hq, hlive⟩ := hreport h.resident
    obtain rfl : i' = i := Option.some.inj (href.symm.trans habout.sourceRef)
    refine active_iff.mpr ⟨hstatus, fun _ => ⟨i', r', href, hr', ?_⟩⟩
    by_cases hi : i' = id
    · subst hi
      obtain rfl := Option.some.inj (hs.get_self.symm.trans hq)
      exact hown href hlive r' hr'
    · obtain rfl := Option.some.inj (hr'.symm.trans ((hs.get_of_ne hi).symm.trans hq))
      exact hlive

end Rows

section Operations
variable {env : Env} {db m t : Db} {op : Op} {o : Outcome} {id : Id} {r : Report}

theorem KeepsAwaiting.quiet (hfeed : db.feed.SameStatuses o.db.feed)
    (hattr : Attributed o.db.reports o.db.fragments) (hjobs : o.db.jobs = db.jobs)
    (hmoved : db.fragments.Related Moved o.db.fragments)
    (hgaps : ∀ k g, db.fragments.get k = some g → g.IsGap o.db.feed.incidents o.db.reports →
      g.IsGap db.feed.incidents db.reports) : KeepsAwaiting env db op o where
  incidents := hfeed
  attributed := hattr
  jobs := by
    rw [hjobs]
    exact .refl (fun _ => ⟨rfl, rfl⟩) db.jobs
  grown := .moved hmoved
  gaps := by
    intro k g hg hgap
    obtain ⟨f, hf, hfg⟩ := hmoved.left_of_some hg
    obtain rfl : g = f := hfg.2.2 (hfg.1.claimValue.symm.trans hgap.unknown)
    exact Or.inl ⟨hf, hgaps k g hf hgap, fun h => hjobs ▸ h⟩

/-- A detection that the guards let through looks into the gap. -/
theorem looksInto_gap {now dueAt : Time} {b : SpotBoard} {reports : Table Report}
    {fragments : Table InformationFragment} {k : Id} {g : InformationFragment}
    (hgap : g.IsGap b.feed.incidents reports) (habout : g.IsAbout id r) (hg : fragments.get k = some g)
    (hdue : dueAt ≤ now) : (k, g.revision) ∈ looksInto now b reports fragments g.incidentId k g.revision dueAt := by
  obtain ⟨hstatus, hreport⟩ := active_iff.mp hgap.active
  obtain ⟨i, q, href, hq, hlive⟩ := hreport hgap.resident
  obtain ⟨incident, hincident, hactive⟩ := (Option.any_eq_true _ _).mp hgap.incident
  have hnormal : g.status = .normal := (habout.unsettled hgap.unknown).resolve_right hstatus
  have hkey : truthy g.claimKey = true := by
    rcases habout.claim with ⟨-, hnone⟩ | ⟨-, -, -, hkey⟩
    · exact nomatch hgap.unknown.symm.trans hnone
    · exact hkey
  have hreport : (gapReport b reports g.incidentId g.revision g).isSome = true := by
    unfold gapReport
    rw [hincident, href, Option.bind_some, hq]
    dsimp only
    rw [if_pos]
    · rfl
    · simp [of_decide_eq_true hactive, hgap.resident, hkey, hgap.unknown, hnormal, hlive]
  unfold looksInto
  rw [if_pos]
  · exact List.mem_singleton_self _
  · simp [hg, hreport, hdue]

/-- A report that did not count before counts again only by a change of its status. -/
theorem Op.status_of_resumes (h : op.storedReport env db = some (id, r)) (hobserves : op.observes db = true)
    {r₀ : Report} (hr₀ : db.reports.get id = some r₀) (hlive₀ : r₀.isLive = false) (hlive : r.isLive = true) :
    ∃ revision status, op.call = .patchReportStatus id revision status ∧ r₀.status = .invalid := by
  obtain ⟨now, actor, header, call⟩ := op
  cases call with
  | postReport incident payload refinement contact =>
    simp only [Op.storedReport, Option.bind_eq_bind, Option.bind_eq_some_iff, Prod.exists,
      Option.pure_def, Option.some.injEq, Prod.mk.injEq] at h
    obtain ⟨-, -, -, -, -, rfl, -⟩ := h
    cases (Table.get_size db.reports).symm.trans hr₀
  | patchReport report payload refinement =>
    obtain ⟨r', hr', hpair⟩ := Option.map_eq_some_iff.mp h
    obtain ⟨rfl, rfl⟩ := Prod.mk.inj hpair
    have hpatched := toOption_some.mp hr'
    simp only [patchedReport, bind_ok, pure_ok, Prod.exists] at hpatched
    obtain ⟨a, ha, b, hb, attachments, c, hc, ai, -, rfl⟩ := hpatched
    obtain rfl := Option.some.inj ((openReport_some ha).1.symm.trans hr₀)
    have hlife : c.isLive = a.isLive := ((applyTo_sameLife hb).trans (rebind_sameLife hc)).isLive
    exact absurd (hlive.symm.trans (hlife.trans hlive₀)) (by decide)
  | patchReportStatus report revision status =>
    obtain ⟨r', hr', hpair⟩ := Option.map_eq_some_iff.mp h
    obtain ⟨rfl, -⟩ := Prod.mk.inj hpair
    obtain rfl := Option.some.inj (hr'.symm.trans hr₀)
    simp only [Op.observes, hr', Option.any_some, Bool.and_eq_true, decide_eq_true_eq] at hobserves
    exact ⟨revision, status, rfl, hobserves.2⟩
  | _ => cases hobserves

theorem Op.looks_observed (hr : op.storedReport env db = some (id, r)) (hobserves : op.observes db = true) :
    let u := upsertReportFragment env op.now db.fragments id r
    op.looks env db =
      if u.fragment.claimValue = some "unknown" ∧ isExplicitlyUncertain env u.fragment = true then
        looksInto op.now db.spotBoard (storeRow db.reports id r) u.fragments r.incidentId u.id
          u.fragment.revision u.fragment.receivedAt
      else [] := by
  have hu : op.upsert env db = some (upsertReportFragment env op.now db.fragments id r) := by
    simp [Op.upsert, hobserves, hr]
  unfold Op.looks
  rw [hr, hu]

theorem observed_keeps (htext : env.text.PlainLowercase) (hattr : Attributed db.reports db.fragments)
    (hdetections : ∀ i j, db.jobs.get i = some j → j.IsDetection db.fragments) (hlater : op.ResumesLater db)
    (hfeed : db.feed.SameStatuses o.db.feed) (hr : op.storedReport env db = some (id, r))
    (hobserves : op.observes db = true) (hs : Stores db id r m)
    (hp : processReportObservation env op.now m id r = .ok (t, o.detection)) (hsame : t.SameRecords o.db) :
    KeepsAwaiting env db op o := by
  obtain ⟨hself, -⟩ := upsert_spec env op.now db.fragments id r
  obtain ⟨hothers, hkept, -⟩ := @gone_or_fresh env op.now db.fragments id r
  obtain ⟨hreceived, hcounted⟩ := upsert_written env op.now db.fragments id r
  have hgrown := upsert_grown env op.now db.fragments id r
  have hnew : Attributed m.reports (upsertReportFragment env op.now db.fragments id r).fragments :=
    hattr.observed hs
  have habout : (upsertReportFragment env op.now db.fragments id r).fragment.IsAbout id r :=
    hattr.written hs
  have hlooks := Op.looks_observed hr hobserves
  have hcourse := (processReportObservation_course hp).before hsame.store
  obtain ⟨feed, hstatuses, hjobs⟩ := processReportObservation_jobs hp
  have hfragments : m.fragments = db.fragments := hs.store.fragments
  rw [hfragments] at hcourse hjobs
  rw [← hsame.jobs, hs.jobs] at hjobs
  have hreports : o.db.reports = m.reports := hsame.reports.trans (processReportObservation_reports hp)
  have hnow : r.updatedAt = op.now := Op.storedReport_updatedAt hr hobserves
  dsimp only at hothers hkept hreceived hcounted hlooks
  obtain ⟨u, hu⟩ : ∃ u, u = upsertReportFragment env op.now db.fragments id r := ⟨_, rfl⟩
  rw [← hu] at hself hothers hkept hreceived hcounted hgrown hnew habout hlooks hcourse hjobs
  have hmoved := hcourse.moved htext hnew hself
  have hgrows := hgrown.trans (.moved hmoved)
  have hjobs' : db.jobs.Evolves (JobKept (BackgroundJob.IsDetection u.fragments)) o.db.jobs :=
    hjobs ▸ scheduledJobs_keeps env op.now feed db.jobs hself habout.incident
  refine ⟨hfeed, hreports ▸ hnew.move hmoved, hjobs'.mono ?_, hgrows, fun k g hg hgap => ?_⟩
  · intro a b hab
    cases a with
    | some a => exact hab
    | none => exact BackgroundJob.IsDetection.grow hab (.moved hmoved)
  obtain ⟨f, hf, hfg⟩ := hmoved.left_of_some hg
  obtain rfl : g = f := hfg.2.2 (hfg.1.claimValue.symm.trans hgap.unknown)
  rw [hreports] at hgap
  by_cases hk : k = u.id
  · subst hk
    obtain rfl : g = u.fragment := Option.some.inj (hf.symm.trans hself)
    cases hchanged : u.changed with
    | false =>
      -- the row is as it was, and so is the report
      rw [hkept hchanged] at hself
      refine Or.inl ⟨hself, hgap.before hattr hs hself hfeed fun _ hlive r₀ hr₀ => ?_, fun h => ?_⟩
      · by_contra hdead
        obtain ⟨revision, status, hcall, hinvalid⟩ :=
          Op.status_of_resumes hr hobserves hr₀ ((Bool.not_eq_true _).mp hdead) hlive
        exact hlater id revision status hcall (by simp [hr₀, hinvalid]) u.id u.fragment hself
          habout.sourceRef (hreceived.trans hnow)
      · rw [hjobs]
        exact h.schedule env op.now feed r.incidentId u.fragment fun _ => ⟨hgap.unknown, rfl⟩
    | true =>
      refine Or.inr ⟨hcounted hchanged, ?_⟩
      by_cases huncertain : isExplicitlyUncertain env u.fragment = true
      · refine Or.inr ?_
        rw [hlooks, if_pos ⟨hgap.unknown, huncertain⟩, ← hs.reports_eq, ← habout.incident]
        exact looksInto_gap (b := db.spotBoard) ⟨(hfeed.active _).symm.trans hgap.incident, hgap.resident,
          hgap.active, hgap.unknown⟩ habout hself (hreceived.trans hnow).le
      · refine Or.inl ?_
        rw [hjobs, scheduledJobs, if_pos hgap.unknown]
        dsimp only
        rw [if_neg huncertain]
        refine ensure_awaits ?_ hgap.unknown fun i j hj => ?_
        · have hactive := ((hs.incidents.trans hstatuses).active r.incidentId).trans
            ((hfeed.active r.incidentId).symm.trans (habout.incident ▸ hgap.incident))
          obtain ⟨incident, hincident, -⟩ := (Option.any_eq_true _ _).mp hactive
          rw [hincident]
          rfl
        · -- the jobs there are carry earlier revisions
          have hstep := (cancel_keeps db.jobs op.now u.id (some u.fragment.revision) fun _ => False).rows i j hj
          cases hi : db.jobs.get i with
          | none =>
            rw [hi] at hstep
            exact hstep.elim
          | some a =>
            rw [hi] at hstep
            rw [isDetectionAt_congr hstep.1 hstep.2, ← Bool.not_eq_true]
            intro hat
            obtain ⟨l, f, revision, grace, dueAt, hl, hle, htype, hpayload⟩ := hdetections i a hi
            obtain ⟨rfl, rfl⟩ := (isDetectionAt_payload htype hpayload).mp hat
            exact absurd (hcounted hchanged f hl) (not_lt.mpr hle)
  · -- the gap of another report
    have hold : db.fragments.get k = some g := hothers k g hk hf
    have hother : g.sourceRefId ≠ some id := fun href =>
      hk (hnew.unique k u.id g u.fragment hf hself (href.trans habout.sourceRef.symm))
    refine Or.inl ⟨hold, hgap.before hattr hs hold hfeed fun href => absurd href hother, fun h => ?_⟩
    rw [hjobs]
    exact h.schedule env op.now feed r.incidentId u.fragment fun he => absurd he hk

theorem deactivated_keeps {reason : String} (hattr : Attributed db.reports db.fragments)
    (hfeed : db.feed.SameStatuses o.db.feed) (hs : Stores db id r m) (hlive : r.isLive = false)
    (hsame : (deactivateReportObservation env op.now m id r reason).SameRecords o.db) :
    KeepsAwaiting env db op o := by
  have hreports : o.db.reports = m.reports :=
    hsame.reports.trans (@deactivateReportObservation_reports env op.now m id r reason)
  have hcourse := ((deactivateReportObservation_course m id r reason).after hs.store).before hsame.store
  have hjobs := hsame.jobs.trans (@deactivateReportObservation_jobs env op.now m id r reason)
  have hfragments : m.fragments = db.fragments := hs.store.fragments
  rw [hfragments] at hcourse hjobs
  rw [hs.jobs] at hjobs
  have hbefore : ∀ k g, db.fragments.get k = some g → g.IsGap o.db.feed.incidents o.db.reports →
      g.IsGap db.feed.incidents db.reports := fun k g hg hgap => by
    rw [hreports] at hgap
    exact hgap.before hattr hs hg hfeed fun _ hl => absurd (hlive.symm.trans hl) (by decide)
  cases hfind : db.fragments.find (isReportFragment r.incidentId id) with
  | none =>
    rw [hfind] at hcourse hjobs
    cases hcourse with
    | absent q =>
      have hkept : o.db.fragments = db.fragments := q.fragments
      refine .quiet hfeed (hreports ▸ hkept ▸ hattr.keep hs) hjobs ?_ hbefore
      exact hkept ▸ .refl .refl _
  | some p =>
    obtain ⟨k, f⟩ := p
    obtain ⟨hf, hp⟩ := Table.find_some hfind
    rw [hfind] at hcourse hjobs
    have hnew : Attributed m.reports
        (db.fragments.modify k fun _ => withdrawFragment op.now f) := hattr.withdrawn hs hf hp
    have hmoved := hcourse.moved hnew
    have hwithdrawn : (withdrawFragment op.now f).incidentId = f.incidentId ∧
        f.revision ≤ (withdrawFragment op.now f).revision ∧
        (withdrawFragment op.now f).status = .withdrawn := by
      unfold withdrawFragment
      split_ifs with hstatus
      · exact ⟨rfl, le_rfl, hstatus⟩
      · exact ⟨rfl, Nat.le_succ _, rfl⟩
    have hgrown : Grown db.fragments o.db.fragments :=
      (Grown.modify hf hwithdrawn.1 hwithdrawn.2.1).trans (.moved hmoved)
    refine ⟨hfeed, hreports ▸ hnew.move hmoved, hjobs ▸ cancel_keeps db.jobs op.now k none _, hgrown,
      fun l g hg hgap => ?_⟩
    obtain ⟨e, he, heg⟩ := hmoved.left_of_some hg
    obtain rfl : g = e := heg.2.2 (heg.1.claimValue.symm.trans hgap.unknown)
    rcases Table.get_modify_cases he with ⟨-, -, -, rfl⟩ | ⟨hkl, he⟩
    · exact absurd hwithdrawn.2.2 (active_iff.mp hgap.active).1
    · refine Or.inl ⟨he, hbefore l g he hgap, fun h => ?_⟩
      rw [hjobs]
      exact h.cancel op.now k none fun hlk => absurd hlk.symm hkl

theorem ReportStages.keepsAwaiting (h : ReportStages env db op o) (htext : env.text.PlainLowercase)
    (hattr : Attributed db.reports db.fragments)
    (hdetections : ∀ i j, db.jobs.get i = some j → j.IsDetection db.fragments)
    (hlater : op.ResumesLater db) (hjob : ∀ i, op.call ≠ .runBlindSpotJob i) : KeepsAwaiting env db op o := by
  have hfeed := h.sameStatuses
  cases h with
  | observed hr hobserves hs _ hp hsame =>
    exact observed_keeps htext hattr hdetections hlater hfeed hr hobserves hs hp hsame
  | deactivated _ _ hs hlive hsame _ => exact deactivated_keeps hattr hfeed hs hlive hsame
  | @edited id r r₀ m _ _ hs hget hlive hsame _ =>
    have hkept : o.db.fragments = db.fragments := hsame.store.fragments.trans hs.store.fragments
    refine .quiet hfeed (hsame.reports ▸ hkept ▸ hattr.keep hs) (hsame.jobs.trans hs.jobs)
      (hkept ▸ .refl .refl _) fun k g hg hgap => ?_
    rw [hsame.reports] at hgap
    refine hgap.before hattr hs hg hfeed fun _ hl r₁ hr₁ => ?_
    obtain rfl := Option.some.inj (hget.symm.trans hr₁)
    exact hlive.symm.trans hl
  | detected hcall => exact absurd hcall (hjob _)
  | untouched _ _ hsame _ =>
    have hkept : o.db.fragments = db.fragments := hsame.store.fragments
    refine .quiet hfeed (hsame.reports ▸ hkept ▸ hattr) hsame.jobs (hkept ▸ .refl .refl _)
      fun k g _ hgap => ?_
    rw [hsame.reports] at hgap
    exact ⟨(hfeed.active g.incidentId).symm.trans hgap.incident, hgap.resident, hgap.active, hgap.unknown⟩

/-- An accepted operation of the watched ones takes no gap away from its job. -/
theorem transact_keeps (htext : env.text.PlainLowercase) (hattr : Attributed db.reports db.fragments)
    (hdetections : ∀ i j, db.jobs.get i = some j → j.IsDetection db.fragments)
    (hwatched : op.call.isWatched = true) (hspares : op.SparesGaps db) (hlater : op.ResumesLater db)
    (h : transact env db op = .ok o) : KeepsAwaiting env db op o := by
  suffices hbegun : KeepsAwaiting env db.begin op o from
    ⟨hbegun.incidents, hbegun.attributed, hbegun.jobs, hbegun.grown, hbegun.gaps⟩
  by_cases hreport : op.call.isReportOperation = true
  · refine (handle_stages h hreport).keepsAwaiting htext hattr hdetections hlater fun i hi => ?_
    rw [hi] at hwatched
    cases hwatched
  obtain ⟨now, actor, header, call⟩ := op
  have hquiet : ∀ {t : Store}, db.begin.feed.SameStatuses t.feed →
      db.fragments.Related Moved t.fragments → KeepsAwaiting env db.begin ⟨now, actor, header, call⟩
        (.ofStore db.begin t) := by
    intro t hfeed hmoved
    exact .quiet hfeed (hattr.move hmoved) rfl hmoved fun k g _ hgap =>
      ⟨(hfeed.active g.incidentId).symm.trans hgap.incident, hgap.resident, hgap.active, hgap.unknown⟩
  cases call with
  | createConflict incident payload =>
    obtain ⟨t, ht, rfl⟩ := map_ok.mp h
    refine hquiet ((Feed.SameStatuses.refl _).createConflict ht) ?_
    simp only [createConflict, bind_ok, pure_ok, Prod.exists] at ht
    obtain ⟨-, -, -, -, i, -, -, -, -, evidence, added, -, rfl⟩ := ht
    exact .refl .refl _
  | submitConflictDecision conflict payload =>
    obtain ⟨t, ht, rfl⟩ := map_ok.mp h
    simp only [submitConflictDecision, bind_ok, Prod.exists] at ht
    obtain ⟨-, -, id, x, -, -, -, hdecided⟩ := ht
    obtain ⟨hmoved, hfeed⟩ := decideConflict_moved hdecided (hspares conflict payload rfl)
    exact hquiet hfeed hmoved
  | postReport => exact absurd rfl hreport
  | patchReport => exact absurd rfl hreport
  | deleteReport => exact absurd rfl hreport
  | patchReportStatus => exact absurd rfl hreport
  | patchReportPriority => exact absurd rfl hreport
  | uploads => exact absurd rfl hreport
  | _ => cases hwatched

end Operations
end CrisisMosaic
