import CrisisMosaic.ResidentFragments
import CrisisMosaic.SpotTurns

/-!
# Blind spots under report operations

An operation on a report gives each blind spot its turn, looks for a gap if the
report is explicitly uncertain, and answers the spots a concrete claim resolves.
-/

namespace CrisisMosaic
open Relational

/-- The table with the report written under its identifier. -/
def storeRow (reports : Table Report) (id : Id) (r : Report) : Table Report :=
  if id = reports.size then reports.insert r else reports.modify id fun _ => r

theorem Stores.reports_eq {db m : Db} {id : Id} {r : Report} (h : Stores db id r m) :
    m.reports = storeRow db.reports id r := by
  unfold storeRow
  rcases h.reports with ⟨rfl, -, hm⟩ | ⟨r₀, hr₀, -, -, hm⟩
  · rw [if_pos rfl, hm]
  · rw [if_neg (Table.lt_size hr₀).ne, hm]

/-- A fragment that is rewritten or withdrawn, with the tables as they are written. -/
structure Rewriting where
  id : Id
  fragment : InformationFragment
  reports : Table Report
  fragments : Table InformationFragment

section Operations
variable (env : Env)

namespace Op

/-- The fragment an accepted operation rewrites or withdraws. -/
def rewrites (db : Db) (op : Op) : Option Rewriting :=
  (op.storedReport env db).bind fun (id, r) =>
    let reports := storeRow db.reports id r
    if op.observes db then
      let u := upsertReportFragment env op.now db.fragments id r
      u.gone.map fun k => ⟨k, u.fragment, reports, u.fragments⟩
    else if op.deactivates then
      (db.fragments.find (isReportFragment r.incidentId id)).map fun (k, f) =>
        let g := withdrawFragment op.now f
        ⟨k, g, reports, db.fragments.modify k fun _ => g⟩
    else none

end Op

/-- The blind spots after an observed report, in the order the source writes them. -/
inductive ObservedSpots (now : Time) (incidents : Table Incident) (reports : Table Report)
    (incidentId : Id) (u : FragmentUpsert) (conflicted : Bool) (a d : Table BlindSpot) : Prop
  | mk (b c : Table BlindSpot) :
      (if u.gone = some u.id then a.Related (Turned env incidentId reports u.fragments u.id u.fragment
        "source_report_updated") b else b = a) →
      (if u.fragment.claimValue = some "unknown" ∧ isExplicitlyUncertain env u.fragment = true then
        Detected env now incidents reports u.fragments incidentId u.id u.fragment.revision
          (some u.fragment.receivedAt) b c else c = b) →
      (if u.changed then c.Related (Answered env incidentId u.id u.fragment conflicted) d else d = c) →
      ObservedSpots now incidents reports incidentId u conflicted a d

variable {env} {now : Time} {db db' : Db}

theorem gone_eq (u : FragmentUpsert) : u.gone = some u.id ∨ u.gone = none := by
  unfold FragmentUpsert.gone
  split_ifs
  · exact Or.inl rfl
  · exact Or.inr rfl

theorem deactivateSpots_spots (db : Db) (incidentId k : Id) (f : InformationFragment) (reason : String) :
    db.blindSpots.Related (Turned env incidentId db.reports db.fragments k f reason)
      (deactivateSpots env now db incidentId k f reason).blindSpots :=
  deactivateAutomaticBlindSpots_turns db.spotBoard

theorem withSpotBoard_spots (db : Db) (incidentId k : Id) (f : InformationFragment) (conflicted : Bool) :
    db.blindSpots.Related (Answered env incidentId k f conflicted)
      (db.withSpotBoard (resolveAutomaticBlindSpots env now incidentId k f conflicted db.spotBoard)).blindSpots :=
  resolveAutomaticBlindSpots_answers db.spotBoard

theorem withSpotBoard_detects (db : Db) (incidentId k revision : ℕ) (dueAt : Option Time)
    (grace : Option ℕ) :
    Detected env now db.feed.incidents db.reports db.fragments incidentId k revision dueAt db.blindSpots
      (db.withSpotBoard (runReportBlindSpotDetection env now db.reports db.fragments db.spotBoard incidentId
        k revision dueAt grace)).blindSpots :=
  runReportBlindSpotDetection_detects db.spotBoard dueAt grace

theorem processReportObservation_spots {id : Id} {r : Report} {detection : Option Detection}
    (h : processReportObservation env now db id r = .ok (db', detection)) :
    ∃ feed : Feed, db.feed.SameStatuses feed ∧ ObservedSpots env now feed.incidents db.reports r.incidentId
      (upsertReportFragment env now db.fragments id r) detection.isSome db.blindSpots db'.blindSpots := by
  rw [processReportObservation_eq] at h
  dsimp only at h
  generalize hu : upsertReportFragment env now db.fragments id r = u at *
  -- the turns and the immediate detection
  obtain ⟨feed, b, hfeed, hb, hc⟩ : ∃ (feed : Feed) (b : Table BlindSpot), db.feed.SameStatuses feed ∧
      (if u.gone = some u.id then db.blindSpots.Related (Turned env r.incidentId db.reports u.fragments
        u.id u.fragment "source_report_updated") b else b = db.blindSpots) ∧
      (if u.fragment.claimValue = some "unknown" ∧ isExplicitlyUncertain env u.fragment = true then
        Detected env now feed.incidents db.reports u.fragments r.incidentId u.id u.fragment.revision
          (some u.fragment.receivedAt) b (beforeDetection env now db r.incidentId u).blindSpots
        else (beforeDetection env now db r.incidentId u).blindSpots = b) := by
    unfold beforeDetection
    dsimp only
    obtain ⟨m, hm⟩ : ∃ m, m = if (u.changed && !u.created) = true then
        deactivateSpots env now { db with
          fragments := u.fragments
          evidence := invalidateFragmentEvidence db.evidence u.id } r.incidentId u.id u.fragment
          "source_report_updated"
        else { db with fragments := u.fragments } := ⟨_, rfl⟩
    rw [← hm]
    have hreports : m.reports = db.reports := by
      rw [hm]
      split_ifs <;> rfl
    have hfragments : m.fragments = u.fragments := by
      rw [hm]
      split_ifs <;> rfl
    refine ⟨m.feed, m.blindSpots, ?_, ?_, ?_⟩
    · rw [hm]
      split_ifs
      · exact (deactivateAutomaticBlindSpots_draws env now r.incidentId db.reports u.fragments u.id u.fragment
          "source_report_updated" db.spotBoard).sameStatuses
      · exact .refl db.feed
    · unfold FragmentUpsert.gone
      by_cases hstale : (u.changed && !u.created) = true
      · rw [if_pos hstale, if_pos rfl, hm, if_pos hstale]
        exact deactivateSpots_spots { db with
          fragments := u.fragments
          evidence := invalidateFragmentEvidence db.evidence u.id } _ _ _ _
      · rw [if_neg hstale, if_neg (by simp), hm, if_neg hstale]
    · unfold scheduleBlindSpot
      dsimp only
      by_cases hunknown : u.fragment.claimValue = some "unknown"
      · rw [if_pos hunknown]
        by_cases huncertain : isExplicitlyUncertain env u.fragment = true
        · rw [if_pos huncertain, if_pos ⟨hunknown, huncertain⟩, ← hreports, ← hfragments]
          exact runReportBlindSpotDetection_detects (Db.spotBoard _) _ _
        · rw [if_neg huncertain, if_neg fun h => huncertain h.2]
      · rw [if_neg hunknown, if_neg fun h => hunknown h.1]
  refine ⟨feed, hfeed, .mk b _ hb hc ?_⟩
  cases hchanged : u.changed with
  | false =>
    simp only [hchanged, Bool.not_false, if_true, pure_ok, Prod.mk.injEq] at h
    obtain ⟨rfl, -⟩ := h
    simp
  | true =>
    simp only [hchanged, Bool.not_true, Bool.false_eq_true, if_false, bind_ok, pure_ok,
      Prod.mk.injEq] at h
    obtain ⟨d, -, rfl, rfl⟩ := h
    rw [if_pos rfl]
    exact withSpotBoard_spots { beforeDetection env now db r.incidentId u with
      toStore := settleObservation env now (beforeDetection env now db r.incidentId u).toStore r.incidentId
        u.id u.created (lostEvidence db.toStore u.gone) d } _ _ _ _

theorem deactivateReportObservation_spots (id : Id) (r : Report) (reason : String) :
    match db.fragments.find (isReportFragment r.incidentId id) with
    | none => (deactivateReportObservation env now db id r reason).blindSpots = db.blindSpots
    | some (k, f) => db.blindSpots.Related (Turned env r.incidentId db.reports
        (db.fragments.modify k fun _ => withdrawFragment now f) k (withdrawFragment now f) reason)
        (deactivateReportObservation env now db id r reason).blindSpots := by
  unfold deactivateReportObservation
  dsimp only
  cases db.fragments.find (isReportFragment r.incidentId id) with
  | none => rfl
  | some p => exact deactivateSpots_spots (withdrawnStore env now db p.1 p.2) _ p.1 _ reason

/-- What the worker reads of a detection job. -/
structure JobReads (jobs : Table BackgroundJob) (job incidentId k revision : ℕ) (dueAt : Time) : Prop where
  stored : ∃ j, jobs.get job = some j ∧ j.jobType = .blindSpotDetect ∧
    (j.payload.get "incident_id").bind Json.asRef = some incidentId ∧
    (j.payload.get "fragment_id").bind Json.asRef = some k ∧
    ((j.payload.get "fragment_revision").bind Questions.number).map (·.num.toNat) = some revision ∧
    dueAt = (match j.payload.get "due_at" with
      | some (.time t) => t
      | _ => j.runAfter)

variable {op : Op} {o : Outcome}

/-- What an accepted report operation leaves of reports, fragments and blind spots. -/
inductive SpotStages (env : Env) (db : Db) (op : Op) (o : Outcome) : Prop
  | observed {id : Id} {r : Report} {m : Db} {feed : Feed} :
      op.storedReport env db = some (id, r) → op.observes db = true → Stores db id r m →
      (∀ r₀, db.reports.get id = some r₀ → r₀.isLive = true → r.isLive = true) →
      o.db.reports = m.reports → db.feed.SameStatuses feed →
      (upsertReportFragment env op.now db.fragments id r).fragments.Related
        InformationFragment.Reclassified o.db.fragments →
      ObservedSpots env op.now feed.incidents m.reports r.incidentId
        (upsertReportFragment env op.now db.fragments id r) o.detection.isSome db.blindSpots o.db.blindSpots →
      SpotStages env db op o
  | withdrawn {id k : Id} {r : Report} {f : InformationFragment} {m : Db} {reason : String} :
      op.storedReport env db = some (id, r) → op.observes db = false → op.deactivates = true →
      Stores db id r m → r.isLive = false → o.db.reports = m.reports →
      db.fragments.find (isReportFragment r.incidentId id) = some (k, f) →
      (db.fragments.modify k fun _ => withdrawFragment op.now f).Related
        InformationFragment.Reclassified o.db.fragments →
      db.blindSpots.Related (Turned env r.incidentId m.reports
        (db.fragments.modify k fun _ => withdrawFragment op.now f) k (withdrawFragment op.now f) reason)
        o.db.blindSpots → SpotStages env db op o
  | stored {id : Id} {r : Report} {m : Db} : op.rewrites env db = none → Stores db id r m →
      ((∀ k f, db.fragments.get k = some f → isReportFragment r.incidentId id f = false) ∨
        ∃ r₀, db.reports.get id = some r₀ ∧ r.isLive = r₀.isLive) →
      o.db.reports = m.reports → o.db.fragments = db.fragments → o.db.blindSpots = db.blindSpots →
      SpotStages env db op o
  | detected {job incidentId k revision : ℕ} {dueAt : Time} : op.call = .runBlindSpotJob job →
      JobReads db.jobs job incidentId k revision dueAt →
      o.db.reports = db.reports → o.db.fragments = db.fragments →
      Detected env op.now db.feed.incidents db.reports db.fragments incidentId k revision (some dueAt)
        db.blindSpots o.db.blindSpots → SpotStages env db op o
  | untouched : op.rewrites env db = none → o.db.reports = db.reports → o.db.fragments = db.fragments →
      o.db.blindSpots = db.blindSpots → SpotStages env db op o

theorem Op.rewrites_of_idle (h₁ : op.observes db = false) (h₂ : op.deactivates = false) :
    op.rewrites env db = none := by
  unfold Op.rewrites
  cases op.storedReport env db with
  | none => rfl
  | some p => simp [h₁, h₂]

theorem runBlindSpotJob_spots {job : Id} (h : runBlindSpotJob env now db job = .ok db') :
    db'.blindSpots = db.blindSpots ∨ ∃ incidentId k revision dueAt,
      JobReads db.jobs job incidentId k revision dueAt ∧
      Detected env now db.feed.incidents db.reports db.fragments incidentId k revision (some dueAt)
        db.blindSpots db'.blindSpots := by
  simp only [runBlindSpotJob, bind_ok, found_ok, require_ok] at h
  obtain ⟨j, hj, -, htype, h⟩ := h
  split_ifs at h
  · rw [← pure_ok.mp h]
    exact Or.inl rfl
  · split at h
    · next incidentId k revision h₁ h₂ h₃ =>
      rw [← pure_ok.mp h]
      refine Or.inr ⟨incidentId, k, revision.num.toNat, _, ⟨j, hj, htype, h₁, h₂, ?_, rfl⟩, ?_⟩
      · rw [h₃]
        rfl
      · exact withSpotBoard_detects db incidentId k _ _ _
    · exact absurd h throw_ok

theorem ReportStages.spots (h : ReportStages env db op o) : SpotStages env db op o := by
  cases h with
  | @observed id r m t hr hobserves hs hlive hp hsame =>
    obtain ⟨feed, hfeed, hspots⟩ := processReportObservation_spots hp
    obtain ⟨hu, hstatus, -⟩ := upsert_spec env op.now db.fragments id r
    have hcourse := (processReportObservation_course hp).before hsame.store
    have hfragments : m.fragments = db.fragments := hs.store.fragments
    rw [hfragments] at hcourse hspots
    rw [hs.blindSpots, ← hsame.blindSpots] at hspots
    exact .observed hr hobserves hs hlive (hsame.reports.trans (processReportObservation_reports hp))
      (hs.incidents.trans hfeed) (hcourse.reclassified hu hstatus) hspots
  | @deactivated id r m reason hr hdeactivates hs hlive hsame _ =>
    have hcourse := ((deactivateReportObservation_course m id r reason).after hs.store).before hsame.store
    have hspots := @deactivateReportObservation_spots env op.now m id r reason
    have hfragments : m.fragments = db.fragments := hs.store.fragments
    have hreports := hsame.reports.trans (@deactivateReportObservation_reports env op.now m id r reason)
    have hobserves : op.observes db = false := Op.not_observes_of_deactivates hdeactivates
    rw [hfragments] at hcourse hspots
    rw [hs.blindSpots, ← hsame.blindSpots] at hspots
    cases hfind : db.fragments.find (isReportFragment r.incidentId id) with
    | none =>
      rw [hfind] at hcourse hspots
      have hnone : op.rewrites env db = none := by
        simp [Op.rewrites, hr, hobserves, hdeactivates, hfind]
      cases hcourse with
      | absent q => exact .stored hnone hs (Or.inl fun k f hf => Table.find_none hfind hf) hreports q.fragments hspots
    | some p =>
      obtain ⟨k, f⟩ := p
      rw [hfind] at hcourse hspots
      cases hcourse with
      | withdrawn _ _ hfr _ _ hrec =>
        exact .withdrawn hr hobserves hdeactivates hs hlive hreports hfind (hfr ▸ hrec.reclassified) hspots
  | @edited id r r₀ m hobserves hdeactivates hs hget hlive hsame _ =>
    exact .stored (Op.rewrites_of_idle hobserves hdeactivates) hs (Or.inr ⟨r₀, hget, hlive⟩) hsame.reports
      (hsame.store.fragments.trans hs.store.fragments) (hsame.blindSpots.trans hs.blindSpots)
  | @detected job hcall hrun _ =>
    have hreports := runBlindSpotJob_reports hrun
    have hfragments : o.db.fragments = db.fragments := (runBlindSpotJob_untouched hrun).fragments
    rcases runBlindSpotJob_spots hrun with hsame | ⟨incidentId, k, revision, dueAt, hreads, hdetected⟩
    · refine .untouched (Op.rewrites_of_idle ?_ ?_) hreports hfragments hsame
      · simp [Op.observes, hcall]
      · simp [Op.deactivates, hcall]
    · exact .detected hcall hreads hreports hfragments hdetected
  | untouched hobserves hdeactivates hsame _ =>
    exact .untouched (Op.rewrites_of_idle hobserves hdeactivates) hsame.reports hsame.store.fragments
      hsame.blindSpots

section Carried

/-- The rows of `fragments` but for the one that is rewritten are kept, and count no less. -/
structure Carried (reports reports' : Table Report) (fragments fragments' : Table InformationFragment)
    (gone : Option Id) : Prop where
  rows : ∀ j f, fragments.get j = some f → ∃ g, fragments'.get j = some g ∧
    g.incidentId = f.incidentId ∧ (gone ≠ some j → g = f ∧
      (reportFragmentIsActive reports f = true → reportFragmentIsActive reports' f = true))

theorem active_iff {reports : Table Report} {f : InformationFragment} :
    reportFragmentIsActive reports f = true ↔ f.status ≠ .withdrawn ∧ (f.sourceType = .residentReport →
      ∃ i r, f.sourceRefId = some i ∧ reports.get i = some r ∧ r.isLive = true) := by
  simp only [reportFragmentIsActive, Bool.and_eq_true, Bool.or_eq_true, decide_eq_true_eq,
    Option.any_eq_true, Option.bind_eq_some_iff]
  refine and_congr_right fun _ => ⟨fun h htype => ?_, fun h => ?_⟩
  · obtain ⟨r, ⟨i, hi, hr⟩, hlive⟩ := h.resolve_left fun hne => hne htype
    exact ⟨i, r, hi, hr, hlive⟩
  · by_cases htype : f.sourceType = .residentReport
    · obtain ⟨i, r, hi, hr, hlive⟩ := h htype
      exact Or.inr ⟨r, ⟨i, hi, hr⟩, hlive⟩
    · exact Or.inl htype

/-- Reclassifying a fragment does not change whether it counts. -/
theorem InformationFragment.Reclassified.active_eq {f g : InformationFragment} (h : f.Reclassified g)
    (reports : Table Report) : reportFragmentIsActive reports g = reportFragmentIsActive reports f := by
  have hsame := h.1
  rw [InformationFragment.SameContent] at hsame
  rw [Bool.eq_iff_iff, active_iff, active_iff, Ne, h.withdrawn_iff, hsame]

variable {id : Id} {r : Report} {m : Db}

theorem Stores.active (hs : Stores db id r m)
    (hlive : ∀ r₀, db.reports.get id = some r₀ → r₀.isLive = true → r.isLive = true)
    {f : InformationFragment} (h : reportFragmentIsActive db.reports f = true) :
    reportFragmentIsActive m.reports f = true := by
  rw [active_iff] at h ⊢
  refine ⟨h.1, fun htype => ?_⟩
  obtain ⟨i, r', hi, hr', hl⟩ := h.2 htype
  by_cases hid : i = id
  · subst hid
    exact ⟨i, r, hi, hs.get_self, hlive r' hr' hl⟩
  · exact ⟨i, r', hi, (hs.get_of_ne hid).trans hr', hl⟩

/-- Only the fragment of the report notices what becomes of it. -/
theorem Stores.active_of_ne (hs : Stores db id r m) {f : InformationFragment}
    (hne : f.sourceRefId ≠ some id) :
    reportFragmentIsActive m.reports f = reportFragmentIsActive db.reports f := by
  rw [Bool.eq_iff_iff, active_iff, active_iff]
  refine and_congr_right fun _ => forall_congr' fun _ => exists_congr fun i => exists_congr fun q =>
    and_congr_right fun hi => ?_
  rw [hs.get_of_ne fun hid => hne (hid ▸ hi)]

theorem Carried.refl (reports : Table Report) (fragments : Table InformationFragment) (gone : Option Id) :
    Carried reports reports fragments fragments gone :=
  ⟨fun _ f hf => ⟨f, hf, rfl, fun _ => ⟨rfl, id⟩⟩⟩

/-- The fragment an upsert leaves is the report's. -/
theorem upsert_isReportFragment (now : Time) (fragments : Table InformationFragment) (id : Id)
    (r : Report) :
    isReportFragment r.incidentId id (upsertReportFragment env now fragments id r).fragment = true := by
  rcases upsertReportFragment_cases env now fragments id r with
    ⟨g, rfl, hu, -⟩ | ⟨k, f, -, hp, ⟨hu, -⟩ | ⟨g, rfl, hu⟩⟩ <;> rw [hu]
  · exact isReportFragment_iff.mpr ⟨rfl, rfl, rfl⟩
  · exact hp
  · exact refresh_source env now id r f

theorem Stores.carried_observed (hs : Stores db id r m)
    (hlive : ∀ r₀, db.reports.get id = some r₀ → r₀.isLive = true → r.isLive = true) :
    let u := upsertReportFragment env now db.fragments id r
    Carried db.reports m.reports db.fragments u.fragments u.gone := by
  dsimp only
  rcases upsertReportFragment_cases env now db.fragments id r with
    ⟨g, -, hu, -⟩ | ⟨k, f, hf, hp, ⟨hu, -⟩ | ⟨g, hg, hu⟩⟩ <;> rw [hu]
  · exact ⟨fun j f hf => ⟨f, Table.get_insert_of_some g hf, rfl, fun _ => ⟨rfl, hs.active hlive⟩⟩⟩
  · exact ⟨fun j f hf => ⟨f, hf, rfl, fun _ => ⟨rfl, hs.active hlive⟩⟩⟩
  · refine ⟨fun j e he => ?_⟩
    by_cases hj : j = k
    · subst hj
      obtain rfl := Option.some.inj (hf.symm.trans he)
      refine ⟨g, by simp [he], ?_, fun hne => absurd rfl hne⟩
      rw [hg, (isReportFragment_iff.mp hp).1]
      rfl
    · exact ⟨e, (Table.get_modify_of_ne _ _ (Ne.symm hj)).trans he, rfl, fun _ => ⟨rfl, hs.active hlive⟩⟩

theorem withdrawFragment_incident (f : InformationFragment) :
    (withdrawFragment now f).incidentId = f.incidentId := (withdrawFragment_follows now f).incident

theorem Stores.carried_withdrawn (hs : Stores db id r m) (hr : Resident env db.reports db.fragments)
    {k : Id} {f : InformationFragment} (hf : db.fragments.get k = some f)
    (hp : isReportFragment r.incidentId id f = true) :
    Carried db.reports m.reports db.fragments
      (db.fragments.modify k fun _ => withdrawFragment now f) (some k) := by
  refine ⟨fun j e he => ?_⟩
  by_cases hj : j = k
  · subst hj
    obtain rfl := Option.some.inj (hf.symm.trans he)
    exact ⟨_, by simp [he]; rfl, withdrawFragment_incident f, fun hne => absurd rfl hne⟩
  · have hne : e.sourceRefId ≠ some id := fun href =>
      hj (hr.unique j k e f he hf (href.trans (isReportFragment_iff.mp hp).2.2.symm))
    refine ⟨e, (Table.get_modify_of_ne _ _ (Ne.symm hj)).trans he, rfl, fun _ => ⟨rfl, fun h => ?_⟩⟩
    rw [hs.active_of_ne hne]
    exact h

theorem Stores.carried_stored (hs : Stores db id r m) (hr : Resident env db.reports db.fragments)
    (hlive : (∀ k f, db.fragments.get k = some f → isReportFragment r.incidentId id f = false) ∨
      ∃ r₀, db.reports.get id = some r₀ ∧ r.isLive = r₀.isLive) :
    Carried db.reports m.reports db.fragments db.fragments none := by
  refine ⟨fun j f hf => ⟨f, hf, rfl, fun _ => ⟨rfl, fun h => ?_⟩⟩⟩
  rcases hlive with hnone | ⟨r₀, hr₀, hsame⟩
  · have hne : f.sourceRefId ≠ some id := fun href => by
      have hp := (hr.of_ref hs hf href).1
      rw [hnone j f hf] at hp
      exact nomatch hp
    rw [hs.active_of_ne hne]
    exact h
  · refine hs.active (fun r' hr' hl => ?_) h
    obtain rfl := Option.some.inj (hr₀.symm.trans hr')
    rw [hsame, hl]

end Carried

theorem Op.rewrites_observed {id : Id} {r : Report} (hr : op.storedReport env db = some (id, r))
    (hobserves : op.observes db = true) :
    op.rewrites env db = (upsertReportFragment env op.now db.fragments id r).gone.map fun k =>
      ⟨k, (upsertReportFragment env op.now db.fragments id r).fragment, storeRow db.reports id r,
        (upsertReportFragment env op.now db.fragments id r).fragments⟩ := by
  simp [Op.rewrites, hr, hobserves]

theorem Op.rewrites_withdrawn {id k : Id} {r : Report} {f : InformationFragment}
    (hr : op.storedReport env db = some (id, r)) (hobserves : op.observes db = false)
    (hdeactivates : op.deactivates = true)
    (hfind : db.fragments.find (isReportFragment r.incidentId id) = some (k, f)) :
    op.rewrites env db = some ⟨k, withdrawFragment op.now f, storeRow db.reports id r,
      db.fragments.modify k fun _ => withdrawFragment op.now f⟩ := by
  simp [Op.rewrites, hr, hobserves, hdeactivates, hfind]

/-- The detection that follows the turns of an explicitly uncertain observation. -/
def DetectedNext (env : Env) (db : Db) (op : Op) (w : Rewriting) (b c : Table BlindSpot) : Prop :=
  if op.observes db = true ∧ w.fragment.claimValue = some "unknown" ∧
      isExplicitlyUncertain env w.fragment = true then
    ∃ feed : Feed, db.feed.SameStatuses feed ∧
      Detected env op.now feed.incidents w.reports w.fragments w.fragment.incidentId w.id
        w.fragment.revision (some w.fragment.receivedAt) b c
  else c = b

/-- What keeps a relation between reports, fragments and blind spots through an operation. -/
structure SpotRules (env : Env) (db : Db) (op : Op) (o : Outcome)
    (I : Table Report → Table InformationFragment → Table BlindSpot → Prop) : Prop where
  reclassified : ∀ {reports fragments fragments' spots}, I reports fragments spots →
    fragments.Related InformationFragment.Reclassified fragments' → I reports fragments' spots
  carried : ∀ {reports' fragments'}, op.rewrites env db = none → Carried db.reports reports' db.fragments fragments' none →
    I reports' fragments' db.blindSpots
  turned : ∀ {w : Rewriting} {reason spots spots'}, op.rewrites env db = some w →
    Carried db.reports w.reports db.fragments w.fragments (some w.id) →
    w.fragments.get w.id = some w.fragment →
    db.blindSpots.Related
      (Turned env w.fragment.incidentId w.reports w.fragments w.id w.fragment reason) spots →
    DetectedNext env db op w spots spots' → I w.reports w.fragments spots'
  detected : ∀ {incidents : Table Incident} {reports fragments} {incidentId k revision : ℕ} {dueAt}
    {spots spots'}, I reports fragments spots →
    (∀ id r, op.storedReport env db = some (id, r) →
      (upsertReportFragment env op.now db.fragments id r).fragment.claimValue = some "unknown") →
    Detected env op.now incidents reports fragments incidentId k revision dueAt spots spots' →
    I reports fragments spots'
  answered : ∀ {id r} {spots spots'}, op.storedReport env db = some (id, r) → op.observes db = true →
    (storeRow db.reports id r).get id = some r →
    let u := upsertReportFragment env op.now db.fragments id r
    u.changed = true → I (storeRow db.reports id r) u.fragments spots →
    spots.Related (Answered env u.fragment.incidentId u.id u.fragment o.detection.isSome) spots' →
    I (storeRow db.reports id r) u.fragments spots'

theorem SpotStages.keeps {I : Table Report → Table InformationFragment → Table BlindSpot → Prop}
    (h : SpotStages env db op o) (hr : Resident env db.reports db.fragments)
    (hrules : SpotRules env db op o I) : I o.db.reports o.db.fragments o.db.blindSpots := by
  have hrefl : op.rewrites env db = none → I db.reports db.fragments db.blindSpots := fun h =>
    hrules.carried h (.refl _ _ none)
  cases h with
  | @observed id r m feed hstored hobserves hs hlive hreports hfeed hfragments hspots =>
    obtain ⟨hk, -⟩ := upsert_spec env op.now db.fragments id r
    have hinc := (isReportFragment_iff.mp (@upsert_isReportFragment env op.now db.fragments id r)).1
    have hc := @Stores.carried_observed env op.now db id r m hs hlive
    have hrewrites := Op.rewrites_observed hstored hobserves
    have hself : (storeRow db.reports id r).get id = some r := hs.reports_eq ▸ hs.get_self
    have hans := fun spots spots' => @SpotRules.answered _ _ _ _ _ hrules id r spots spots' hstored hobserves hself
    dsimp only at hc hans
    rw [hreports, hs.reports_eq]
    rw [hs.reports_eq] at hc hspots
    obtain ⟨u, hu⟩ : ∃ u, u = upsertReportFragment env op.now db.fragments id r := ⟨_, rfl⟩
    rw [← hu] at hk hinc hc hrewrites hans hspots hfragments
    refine hrules.reclassified ?_ hfragments
    cases hspots with
    | mk b c hturned hdetected hanswered =>
      rw [← hinc] at hturned hdetected hanswered
      have hcrow : I (storeRow db.reports id r) u.fragments c := by
        rcases gone_eq u with hgone | hgone
        · rw [if_pos hgone] at hturned
          rw [hgone] at hc hrewrites
          refine hrules.turned hrewrites hc hk hturned ?_
          unfold DetectedNext
          split_ifs at hdetected with hunknown
          · rw [if_pos ⟨hobserves, hunknown⟩]
            exact ⟨feed, hfeed, hdetected⟩
          · rw [if_neg fun h => hunknown h.2]
            exact hdetected
        · rw [if_neg (by simp [hgone])] at hturned
          rw [hgone] at hc hrewrites
          have hb := hrules.carried hrewrites hc
          rw [← hturned] at hb
          split_ifs at hdetected with hunknown
          · refine hrules.detected hb (fun id' r' hr' => ?_) hdetected
            obtain ⟨rfl, rfl⟩ := Prod.mk.inj (Option.some.inj (hstored.symm.trans hr'))
            exact hu ▸ hunknown.1
          · exact hdetected ▸ hb
      split_ifs at hanswered with hchanged
      · exact hans c _ hchanged hcrow hanswered
      · exact hanswered ▸ hcrow
  | @withdrawn id k r f m reason hstored hobserves hdeactivates hs hdead hreports hfind hfragments hspots =>
    obtain ⟨hf, hp⟩ := Table.find_some hfind
    have hinc : (withdrawFragment op.now f).incidentId = r.incidentId :=
      (withdrawFragment_incident f).trans (isReportFragment_iff.mp hp).1
    have hc := @Stores.carried_withdrawn env op.now db id r m hs hr k f hf hp
    have hrewrites := Op.rewrites_withdrawn hstored hobserves hdeactivates hfind
    rw [hs.reports_eq] at hc hspots
    rw [hreports, hs.reports_eq]
    rw [← hinc] at hspots
    refine hrules.reclassified (hrules.turned hrewrites hc (by simp [hf]) hspots ?_) hfragments
    unfold DetectedNext
    rw [if_neg (by simp [hobserves])]
  | @stored id r m hnone hs hlive hreports hfragments hspots =>
    rw [hreports, hfragments, hspots]
    exact hrules.carried hnone (hs.carried_stored hr hlive)
  | detected hcall _ hreports hfragments hd =>
    have hnone : op.rewrites env db = none := by
      refine Op.rewrites_of_idle ?_ ?_
      · simp [Op.observes, hcall]
      · simp [Op.deactivates, hcall]
    rw [hreports, hfragments]
    exact hrules.detected (hrefl hnone) (fun id r hr => by simp [Op.storedReport, hcall] at hr) hd
  | untouched hnone hreports hfragments hspots =>
    rw [hreports, hfragments, hspots]
    exact hrefl hnone

end Operations
end CrisisMosaic
