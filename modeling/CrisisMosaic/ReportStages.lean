import CrisisMosaic.ReportSteps
import CrisisMosaic.System

/-!
# The stages of a report operation

A report operation stores its report and then observes it, takes it out of
account or leaves it. Its other writes are to the feed, the projections and the
attachments, which neither observation nor detection reads.
-/

namespace CrisisMosaic
open Relational

/-- The step is about neither cases nor fragments nor evidence. -/
structure Store.Untouched (s t : Store) : Prop where
  cases : t.cases = s.cases
  fragments : t.fragments = s.fragments
  evidence : t.evidence = s.evidence

theorem Store.Quiet.untouched {s t : Store} (q : s.Quiet t) : s.Untouched t :=
  ⟨q.cases, q.fragments, q.evidence⟩

theorem Store.Untouched.trans {s t u : Store} (h : s.Untouched t) (k : t.Untouched u) :
    s.Untouched u :=
  ⟨k.cases.trans h.cases, k.fragments.trans h.fragments, k.evidence.trans h.evidence⟩

/-- The records that observation and detection work on are the same. -/
structure Db.SameRecords (a b : Db) : Prop where
  store : a.toStore.Untouched b.toStore
  reports : b.reports = a.reports
  blindSpots : b.blindSpots = a.blindSpots
  jobs : b.jobs = a.jobs
  incidents : a.feed.SameStatuses b.feed

theorem Db.SameRecords.refl (a : Db) : a.SameRecords a :=
  ⟨⟨rfl, rfl, rfl⟩, rfl, rfl, rfl, .refl a.feed⟩

/-- The report `r` is written under `id`, as a new row or over one of the same reporter. -/
structure Stores (db : Db) (id : Id) (r : Report) (m : Db) : Prop where
  store : db.toStore.Untouched m.toStore
  blindSpots : m.blindSpots = db.blindSpots
  jobs : m.jobs = db.jobs
  incidents : db.feed.SameStatuses m.feed
  reports : (id = db.reports.size ∧ r.isLive = true ∧ m.reports = db.reports.insert r) ∨
    ∃ r₀, db.reports.get id = some r₀ ∧ r.incidentId = r₀.incidentId ∧
      r.reporterDeviceId = r₀.reporterDeviceId ∧ m.reports = db.reports.modify id fun _ => r

namespace Stores
variable {db m : Db} {id : Id} {r : Report}

theorem get_self (h : Stores db id r m) : m.reports.get id = some r := by
  rcases h.reports with ⟨rfl, -, hm⟩ | ⟨r₀, hr₀, -, -, hm⟩
  · rw [hm, Table.get_insert_size]
  · simp [hm, hr₀]

theorem get_of_ne (h : Stores db id r m) {i : Id} (hi : i ≠ id) :
    m.reports.get i = db.reports.get i := by
  rcases h.reports with ⟨rfl, -, hm⟩ | ⟨r₀, -, -, -, hm⟩
  · rw [hm, Table.get_insert, if_neg hi]
  · rw [hm, Table.get_modify_of_ne _ _ hi.symm]

/-- A report that was stored before keeps its incident and its reporter. -/
theorem kept (h : Stores db id r m) {i : Id} {s : Report} (hs : db.reports.get i = some s) :
    ∃ s', m.reports.get i = some s' ∧ s'.incidentId = s.incidentId ∧
      s'.reporterDeviceId = s.reporterDeviceId := by
  by_cases hi : i = id
  · subst hi
    rcases h.reports with ⟨rfl, -⟩ | ⟨r₀, hr₀, hinc, hrep, -⟩
    · rw [Table.get_size] at hs
      exact nomatch hs
    · obtain rfl := Option.some.inj (hs.symm.trans hr₀)
      exact ⟨r, h.get_self, hinc, hrep⟩
  · exact ⟨s, (h.get_of_ne hi).trans hs, rfl, rfl⟩

theorem then_same {t : Db} (h : Stores db id r m) (k : m.SameRecords t) : Stores db id r t where
  store := h.store.trans k.store
  blindSpots := k.blindSpots.trans h.blindSpots
  jobs := k.jobs.trans h.jobs
  incidents := h.incidents.trans k.incidents
  reports := k.reports ▸ h.reports

end Stores

section Operations
variable (env : Env)

/-- The row `create_report` stores. -/
def createdReport (now : Time) (db : Db) (incidentId : Id) (actor : Actor) (payload : ReportCreate)
    (refinement : Result (Option Priority)) : Result Report := do
  let ai ← validateReportRefinement payload.aiRefinementId refinement
  let report ← applyLocation env now payload.location
    (newReport now incidentId db.contacts.size actor payload ai)
  let (_, report) ← bindAttachments db.attachments db.reports.size report payload.attachmentIds
  pure report

/-- The row `patch_report` stores. -/
def patchedReport (now : Time) (db : Db) (actor : Actor) (header : Option Ref) (id : Id)
    (payload : ReportPatch) (refinement : Result (Option Priority)) : Result Report := do
  let report ← openReport db actor header id payload.revision
  let report ← payload.applyTo env now db.contacts.size report
  let (_, report) ← payload.rebind db.attachments id report
  let ai ← validateReportRefinement report.aiRefinementId refinement
  pure ((report.prioritise report.manualPriority ai).touch now)

namespace Op

/-- The report an accepted operation observes or deactivates, as it stores it. -/
def storedReport (db : Db) (op : Op) : Option (Id × Report) :=
  match op.call with
  | .postReport incident payload refinement _ => do
      let (incidentId, _) ← (getIncident db.feed.incidents incident).toOption
      let report ← (createdReport env op.now db incidentId op.actor payload refinement).toOption
      pure (db.reports.size, report)
  | .patchReport id payload refinement =>
      (patchedReport env op.now db op.actor op.header id payload refinement).toOption.map (id, ·)
  | .deleteReport id _ =>
      (db.reports.get id).map fun r => (id, { r with deletedAt := some op.now }.touch op.now)
  | .patchReportStatus id _ status =>
      (db.reports.get id).map fun r => (id, { r with status := status }.touch op.now)
  | _ => none

/-- The operation processes the observation of the report it stores. -/
def observes (db : Db) (op : Op) : Bool :=
  match op.call with
  | .postReport .. => true
  | .patchReport _ payload _ => payload.observes
  | .patchReportStatus id _ status =>
      status ≠ .invalid && (db.reports.get id).any fun r => r.status = .invalid
  | _ => false

/-- The operation takes the report it stores out of account. -/
def deactivates (op : Op) : Bool :=
  match op.call with
  | .deleteReport .. => true
  | .patchReportStatus _ _ status => status = .invalid
  | _ => false

/-- The fragment of the observed report, as the observation writes it. -/
def upsert (db : Db) (op : Op) : Option FragmentUpsert :=
  if op.observes db then
    (op.storedReport env db).map fun r => upsertReportFragment env op.now db.fragments r.1 r.2
  else none

/-- The fragment of the deactivated report. -/
def dropped (db : Db) (op : Op) : Option (Id × InformationFragment) :=
  if op.deactivates then
    (op.storedReport env db).bind fun r => db.fragments.find (isReportFragment r.2.incidentId r.1)
  else none

end Op

theorem Op.not_observes_of_deactivates {db : Db} {op : Op} (h : op.deactivates = true) :
    op.observes db = false := by
  unfold Op.deactivates at h
  unfold Op.observes
  cases hcall : op.call <;> simp_all

/-- Beginning a transaction changes nothing these read. -/
theorem Op.upsert_begin (db : Db) (op : Op) : op.upsert env db.begin = op.upsert env db := rfl

theorem Op.dropped_begin (db : Db) (op : Op) : op.dropped env db.begin = op.dropped env db := rfl

/-- How an accepted report operation went. -/
inductive ReportStages (db : Db) (op : Op) (o : Outcome) : Prop
  | observed {id : Id} {r : Report} {m t : Db} : op.storedReport env db = some (id, r) →
      op.observes db = true → Stores db id r m →
      (∀ r₀, db.reports.get id = some r₀ → r₀.isLive = true → r.isLive = true) →
      processReportObservation env op.now m id r = .ok (t, o.detection) → t.SameRecords o.db →
      ReportStages db op o
  | deactivated {id : Id} {r : Report} {m : Db} {reason : String} :
      op.storedReport env db = some (id, r) → op.deactivates = true → Stores db id r m →
      r.isLive = false →
      (deactivateReportObservation env op.now m id r reason).SameRecords o.db → o.detection = none →
      ReportStages db op o
  | edited {id : Id} {r r₀ : Report} {m : Db} : op.observes db = false → op.deactivates = false →
      Stores db id r m → db.reports.get id = some r₀ → r.isLive = r₀.isLive → m.SameRecords o.db →
      o.detection = none → ReportStages db op o
  | detected {job : Id} : op.call = .runBlindSpotJob job →
      runBlindSpotJob env op.now db job = .ok o.db → o.detection = none → ReportStages db op o
  | untouched : op.observes db = false → op.deactivates = false → db.SameRecords o.db →
      o.detection = none → ReportStages db op o

section Routes
variable {env : Env} {now : Time} {db db' : Db} {actor : Actor} {header : Option Ref}
  {detection : Option Detection}

theorem announceReport_same (m : Db) (now : Time) (actor : Actor) (id : Id) (r : Report)
    (tombstone : Dict) (eventType : String) (payload : Dict) :
    m.SameRecords (((m.recordRevision now actor id r tombstone).projectReport now id r).emitReport now
      id r eventType payload) :=
  ⟨⟨rfl, rfl, rfl⟩, rfl, rfl, rfl, m.feed.emitEvent_sameStatuses now _ _⟩

theorem storeReport_stores {id : Id} {r r₀ : Report} (hget : db.reports.get id = some r₀)
    (hinc : r.incidentId = r₀.incidentId) (hrep : r.reporterDeviceId = r₀.reporterDeviceId)
    (attachments : Table Attachment) (contacts : Table ReporterContact) :
    Stores db id r (Db.storeReport { db with attachments := attachments, contacts := contacts } id r) :=
  ⟨⟨rfl, rfl, rfl⟩, rfl, rfl, .refl db.feed, Or.inr ⟨r₀, hget, hinc, hrep, rfl⟩⟩

theorem createdReport_of_ok {incidentId id : Id} {payload : ReportCreate}
    {refinement : Result (Option Priority)} {contact : Result Unit} {r : Report}
    (h : createReport env now db incidentId actor payload refinement contact = .ok (db', id, r)) :
    createdReport env now db incidentId actor payload refinement = .ok r := by
  simp only [createReport, bind_ok, pure_ok, Prod.exists, Prod.mk.injEq] at h
  obtain ⟨-, -, ai, hai, -, -, a, ha, attachments, b, hb, -, -, rfl⟩ := h
  simp [createdReport, hai, ha, hb, bind, Except.bind, pure, Except.pure]

theorem postReport_stages {incidentId : Ref} {payload : ReportCreate}
    {refinement : Result (Option Priority)} {contact : Result Unit}
    (h : postReport env now db actor header incidentId payload refinement contact
      = .ok (db', detection)) :
    ReportStages env db ⟨now, actor, header, .postReport incidentId payload refinement contact⟩
      ⟨db', detection⟩ := by
  simp only [postReport, bind_ok, Prod.exists] at h
  obtain ⟨i, incident, hi, -, -, m, id, r, hm, h⟩ := h
  have hcreated := createdReport_of_ok hm
  have hspec := createReport_spec hm
  have hstores : Stores db id r (m.emitReport now id r "report.created" (reportData m.attachments id r)) := by
    simp only [createReport, bind_ok, pure_ok, Prod.exists, Prod.mk.injEq] at hm
    obtain ⟨-, -, ai, -, -, -, a, -, attachments, b, -, rfl, rfl, rfl⟩ := hm
    exact ⟨⟨rfl, rfl, rfl⟩, rfl, rfl, db.feed.emitEvent_sameStatuses now _ _, Or.inl ⟨rfl, hspec.2.2.1, rfl⟩⟩
  have hfresh : ∀ r₀, db.reports.get id = some r₀ → r₀.isLive = true → r.isLive = true :=
    fun _ _ _ => hspec.2.2.1
  refine .observed ?_ rfl hstores hfresh h (.refl _)
  simp [Op.storedReport, hi, hcreated, hspec.1, Except.toOption]

theorem patchedReport_of_ok {id : Id} {payload : ReportPatch} {refinement : Result (Option Priority)}
    {report r b : Report} {attachments : Table Attachment} {ai : Option Priority}
    (hr : openReport db actor header id payload.revision = .ok report)
    (ha : payload.applyTo env now db.contacts.size report = .ok r)
    (hb : payload.rebind db.attachments id r = .ok (attachments, b))
    (hai : validateReportRefinement b.aiRefinementId refinement = .ok ai) :
    patchedReport env now db actor header id payload refinement
      = .ok ((b.prioritise b.manualPriority ai).touch now) := by
  simp [patchedReport, hr, ha, hb, hai, bind, Except.bind, pure, Except.pure]

theorem patchReport_stages {id : Id} {payload : ReportPatch} {refinement : Result (Option Priority)}
    (h : patchReport env now db actor header id payload refinement = .ok (db', detection)) :
    ReportStages env db ⟨now, actor, header, .patchReport id payload refinement⟩ ⟨db', detection⟩ := by
  simp only [patchReport, bind_ok, Prod.exists] at h
  obtain ⟨-, -, r, hr, -, -, -, -, a, ha, -, -, attachments, b, hb, ai, hai, h⟩ := h
  obtain ⟨hget, -⟩ := openReport_some hr
  have hlife := (applyTo_sameLife ha).trans (rebind_sameLife hb)
  have hpatched := patchedReport_of_ok hr ha hb hai
  obtain ⟨c, hc⟩ : ∃ c, c = (b.prioritise b.manualPriority ai).touch now := ⟨_, rfl⟩
  rw [← hc] at h hpatched
  have hstores := storeReport_stores hget (r := c) (hc ▸ hlife.incident) (hc ▸ hlife.reporter) attachments
    (payload.recontact db.contacts c)
  have hannounce := fun data => announceReport_same (Db.storeReport { db with
    attachments := attachments
    contacts := payload.recontact db.contacts c } id c) now actor id c [] "report.updated" data
  split_ifs at h with hobserves
  · have hkept : ∀ r₀, db.reports.get id = some r₀ → r₀.isLive = true → c.isLive = true := by
      intro r₀ hr₀ hl
      obtain rfl := Option.some.inj (hget.symm.trans hr₀)
      have hsame : c.isLive = r.isLive := hc ▸ hlife.isLive
      rw [hsame, hl]
    refine .observed ?_ hobserves (hstores.then_same (hannounce _)) hkept h (.refl _)
    simp [Op.storedReport, hpatched, Except.toOption]
  · rw [pure_ok, Prod.mk.injEq] at h
    obtain ⟨rfl, rfl⟩ := h
    exact .edited (by simpa [Op.observes] using hobserves) rfl hstores hget (hc ▸ hlife.isLive)
      (hannounce _) rfl

theorem deleteReport_stages {id revision : ℕ}
    (h : deleteReport env now db actor header id revision = .ok db') :
    ReportStages env db ⟨now, actor, header, .deleteReport id revision⟩ ⟨db', none⟩ := by
  simp only [deleteReport, getReport, bind_ok, found_ok, pure_ok] at h
  obtain ⟨-, -, r, ⟨r', hget, -, -, rfl⟩, -, -, -, -, -, -, rfl⟩ := h
  obtain ⟨c, hc⟩ : ∃ c, c = { r' with deletedAt := some now }.touch now := ⟨_, rfl⟩
  have hstored : Op.storedReport env db ⟨now, actor, header, .deleteReport id revision⟩ = some (id, c) := by
    simp [Op.storedReport, hget, hc]
  rw [← hc]
  exact .deactivated hstored rfl (storeReport_stores hget (by rw [hc]; rfl) (by rw [hc]; rfl) db.attachments
    db.contacts)
    (by simp [hc, Report.touch, Report.isLive]) (announceReport_same _ now actor id c _ "report.deleted" _) rfl

theorem patchReportStatus_stages {id revision : ℕ} {status : ReportStatus}
    (h : patchReportStatus env now db actor header id revision status = .ok (db', detection)) :
    ReportStages env db ⟨now, actor, header, .patchReportStatus id revision status⟩
      ⟨db', detection⟩ := by
  simp only [patchReportStatus, bind_ok, require_ok] at h
  obtain ⟨-, -, r, hr, -, -, -, -, -, -, h⟩ := h
  obtain ⟨hget, hdel⟩ := openReport_some hr
  obtain ⟨c, hc⟩ : ∃ c, c = { r with status := status }.touch now := ⟨_, rfl⟩
  have hlive : c.isLive = decide (status ≠ .invalid) := by
    simp [hc, Report.touch, Report.isLive, hdel]
  have hstored : Op.storedReport env db ⟨now, actor, header, .patchReportStatus id revision status⟩ =
      some (id, c) := by simp [Op.storedReport, hget, hc]
  have hstores := storeReport_stores hget (r := c) (by rw [hc]; rfl) (by rw [hc]; rfl) db.attachments
    db.contacts
  have hannounce := fun (m : Db) payload => announceReport_same m now actor id c []
    "report.status_changed" payload
  rw [← hc] at h
  by_cases hinvalid : status = .invalid
  · rw [if_pos hinvalid] at h
    simp only [pure_bind, pure_ok, Prod.mk.injEq] at h
    obtain ⟨rfl, rfl⟩ := h
    exact .deactivated hstored (by simp [Op.deactivates, hinvalid]) hstores (by simp [hlive, hinvalid])
      (hannounce _ _) rfl
  · rw [if_neg hinvalid] at h
    by_cases hbefore : r.status = .invalid
    · simp only [if_pos hbefore, bind_ok, Prod.exists, pure_ok, Prod.mk.injEq] at h
      obtain ⟨m, d, hm, rfl, rfl⟩ := h
      have hkept : ∀ r₀, db.reports.get id = some r₀ → r₀.isLive = true → c.isLive = true := fun _ _ _ => by
        simp [hlive, hinvalid]
      exact .observed hstored (by simp [Op.observes, hget, hbefore, hinvalid]) hstores hkept hm
        (hannounce m _)
    · simp only [if_neg hbefore, pure_bind, pure_ok, Prod.mk.injEq] at h
      obtain ⟨rfl, rfl⟩ := h
      have hsame : c.isLive = r.isLive := by
        rw [hlive]
        simp [hinvalid, Report.isLive, hbefore, hdel]
      exact .edited (by simp [Op.observes, hget, hbefore]) (by simp [Op.deactivates, hinvalid]) hstores hget
        hsame (hannounce _ _) rfl

theorem patchReportPriority_stages {id revision : ℕ} {priority : Option Priority}
    {refinement : Result (Option Priority)}
    (h : patchReportPriority now db actor header id revision priority refinement = .ok db') :
    ReportStages env db ⟨now, actor, header, .patchReportPriority id revision priority refinement⟩
      ⟨db', none⟩ := by
  simp only [patchReportPriority, bind_ok, pure_ok] at h
  obtain ⟨-, -, r, hr, -, -, ai, -, rfl⟩ := h
  obtain ⟨hget, -⟩ := openReport_some hr
  obtain ⟨c, hc⟩ : ∃ c, c = ({ r with manualPriority := priority }.prioritise priority ai).touch now :=
    ⟨_, rfl⟩
  rw [← hc]
  have hstores := storeReport_stores hget (r := c) (by rw [hc]; rfl) (by rw [hc]; rfl) db.attachments
    db.contacts
  exact .edited rfl rfl hstores hget (by rw [hc]; rfl)
    (announceReport_same _ now actor id c [] "report.priority_updated" _) rfl

theorem runBlindSpotJob_untouched {jobId : Id} (h : runBlindSpotJob env now db jobId = .ok db') :
    db.toStore.Untouched db'.toStore := by
  simp only [runBlindSpotJob, bind_ok] at h
  obtain ⟨job, -, -, -, h⟩ := h
  split_ifs at h
  · obtain rfl := pure_ok.mp h
    exact ⟨rfl, rfl, rfl⟩
  · split at h
    · obtain rfl := pure_ok.mp h
      exact ⟨rfl, rfl, rfl⟩
    · exact absurd h throw_ok

end Routes

/-- Reports, the detection jobs they start, and uploads. -/
def Call.isReportOperation : Call → Bool
  | .postReport .. | .patchReport .. | .deleteReport .. | .patchReportStatus ..
  | .patchReportPriority .. | .runBlindSpotJob .. | .uploads .. => true
  | _ => false

/-- Every accepted report operation goes through one of the courses. -/
theorem handle_stages {env : Env} {db : Db} {op : Op} {o : Outcome} (h : handle env db op = .ok o)
    (hop : op.call.isReportOperation = true) : ReportStages env db op o := by
  obtain ⟨now, actor, header, call⟩ := op
  cases call with
  | postReport incident payload refinement contact =>
    obtain ⟨r, hr, rfl⟩ := map_ok.mp h
    exact postReport_stages hr
  | patchReport report payload refinement =>
    obtain ⟨r, hr, rfl⟩ := map_ok.mp h
    exact patchReport_stages hr
  | deleteReport report revision =>
    obtain ⟨r, hr, rfl⟩ := map_ok.mp h
    exact deleteReport_stages hr
  | patchReportStatus report revision status =>
    obtain ⟨r, hr, rfl⟩ := map_ok.mp h
    exact patchReportStatus_stages hr
  | patchReportPriority report revision priority refinement =>
    obtain ⟨r, hr, rfl⟩ := map_ok.mp h
    exact patchReportPriority_stages hr
  | runBlindSpotJob job =>
    obtain ⟨r, hr, rfl⟩ := map_ok.mp h
    exact .detected rfl hr rfl
  | uploads attachments =>
    rw [handle, pure_ok] at h
    subst h
    exact .untouched rfl rfl ⟨⟨rfl, rfl, rfl⟩, rfl, rfl, rfl, .refl db.feed⟩ rfl
  | _ => exact nomatch hop

end Operations
end CrisisMosaic
