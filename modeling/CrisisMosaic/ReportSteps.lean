import CrisisMosaic.Reports
import CrisisMosaic.RouteSteps

/-!
# What the report routes do

A route stores one report. It may then observe it, or withdraw its fragment; the
other fragments stay calm.
-/

namespace CrisisMosaic
open Relational Store

/-- An edit that neither deletes nor restores a report, before its revision is counted. -/
structure Report.SameLife (r r' : Report) : Prop where
  incident : r'.incidentId = r.incidentId
  reporter : r'.reporterDeviceId = r.reporterDeviceId
  status : r'.status = r.status
  deletedAt : r'.deletedAt = r.deletedAt
  revision : r'.revision = r.revision

theorem Report.SameLife.refl (r : Report) : r.SameLife r := ⟨rfl, rfl, rfl, rfl, rfl⟩

theorem Report.SameLife.trans {a b c : Report} (h : a.SameLife b) (k : b.SameLife c) :
    a.SameLife c :=
  ⟨k.incident.trans h.incident, k.reporter.trans h.reporter, k.status.trans h.status,
    k.deletedAt.trans h.deletedAt, k.revision.trans h.revision⟩

theorem Report.SameLife.isLive {r r' : Report} (h : r.SameLife r') : r'.isLive = r.isLive := by
  simp [Report.isLive, h.status, h.deletedAt]

/-- What an accepted operation did to the reports and to the fragments they are observed
through. -/
inductive ReportsStep (db db' : Db) (patched : Id → Prop) : Prop
  | kept : db'.reports = db.reports → CalmFragments db.fragments db'.fragments →
      ReportsStep db db' patched
  | edited {id : Id} {r r' : Report} : db.reports.get id = some r → r'.incidentId = r.incidentId →
      r'.isLive = r.isLive → db'.reports = db.reports.modify id (fun _ => r') →
      CalmFragments db.fragments db'.fragments → ReportsStep db db' patched
  | posted {r : Report} {k : Id} : r.isLive = true → db'.reports = db.reports.insert r →
      Observes db.reports.size r.incidentId k db.fragments db'.fragments → ReportsStep db db' patched
  | observed {id k : Id} {r r' : Report} : db.reports.get id = some r →
      r'.incidentId = r.incidentId → (r'.isLive = true ∨ patched id ∧ r'.isLive = r.isLive) →
      db'.reports = db.reports.modify id (fun _ => r') →
      Observes id r'.incidentId k db.fragments db'.fragments → ReportsStep db db' patched
  | dropped {id : Id} {r r' : Report} : db.reports.get id = some r →
      r'.incidentId = r.incidentId → r'.isLive = false →
      db'.reports = db.reports.modify id (fun _ => r') →
      Withdraws id r'.incidentId db.fragments db'.fragments → ReportsStep db db' patched

section Checks
variable {env : Env} {now : Time} {db : Db} {actor : Actor} {header : Option Ref}

theorem applyLocation_sameLife {location : ReportLocation} {r r' : Report}
    (h : applyLocation env now location r = .ok r') : r.SameLife r' := by
  simp only [applyLocation, bind_ok] at h
  obtain ⟨-, -, h⟩ := h
  split at h
  · simp only [bind_ok, pure_ok, Prod.exists] at h
    obtain ⟨_, _, -, rfl⟩ := h
    exact ⟨rfl, rfl, rfl, rfl, rfl⟩
  · rw [pure_ok] at h
    exact h ▸ ⟨rfl, rfl, rfl, rfl, rfl⟩

theorem bindAttachments_sameLife {attachments attachments' : Table Attachment} {id : Id}
    {r r' : Report} {ids : List Id}
    (h : bindAttachments attachments id r ids = .ok (attachments', r')) : r.SameLife r' := by
  simp only [bindAttachments, bind_ok, pure_ok, Prod.mk.injEq] at h
  obtain ⟨-, -, -, rfl⟩ := h
  exact ⟨rfl, rfl, rfl, rfl, rfl⟩

theorem applyTo_sameLife {p : ReportPatch} {contact : Id} {r r' : Report}
    (h : p.applyTo env now contact r = .ok r') : r.SameLife r' := by
  unfold ReportPatch.applyTo at h
  dsimp only at h
  split at h
  · simp only [bind_ok, pure_ok] at h
    obtain ⟨a, ha, rfl⟩ := h
    have := applyLocation_sameLife ha
    exact ⟨this.incident, this.reporter, this.status, this.deletedAt, this.revision⟩
  · simp only [bind_ok, pure_ok] at h
    obtain ⟨a, rfl, rfl⟩ := h
    exact ⟨rfl, rfl, rfl, rfl, rfl⟩

theorem rebind_sameLife {p : ReportPatch} {attachments attachments' : Table Attachment} {id : Id}
    {r r' : Report} (h : p.rebind attachments id r = .ok (attachments', r')) : r.SameLife r' := by
  unfold ReportPatch.rebind at h
  split at h
  · obtain ⟨-, rfl⟩ := Prod.mk.inj (pure_ok.mp h)
    exact .refl r
  · exact absurd h throw_ok
  · exact bindAttachments_sameLife h

theorem openReport_some {id revision : ℕ} {r : Report}
    (h : openReport db actor header id revision = .ok r) :
    db.reports.get id = some r ∧ r.deletedAt = none := by
  simp only [openReport, getReport, bind_ok, found_ok, require_ok, pure_ok] at h
  obtain ⟨r', ⟨r'', hr, -, hd, rfl⟩, -, -, -, -, rfl⟩ := h
  exact ⟨hr, hd⟩

theorem projectReport_quiet (db : Db) (now : Time) (id : Id) (r : Report) :
    db.toStore.Quiet (db.projectReport now id r).toStore :=
  features_quiet _ (upsertReportMapFeature_factSilent now _ id r)

theorem emitReport_quiet (db : Db) (now : Time) (id : Id) (r : Report) (eventType : String)
    (payload : Dict) : db.toStore.Quiet (db.emitReport now id r eventType payload).toStore :=
  emit_quiet db.toStore now _ _

end Checks

section Handlers
variable {env : Env} {now : Time} {db db' : Db} {actor : Actor} {header : Option Ref}
  {detection : Option Detection}

/-- What an accepted report route did. -/
structure Reported (env : Env) (now : Time) (db db' : Db) (patched : Id → Prop)
    (detection : Option Detection) : Prop where
  works : db.toStore.Works .nothing (openedBy detection) db'.toStore
  reports : ReportsStep db db' patched
  detected : ∀ d, detection = some d → d.Of env now db.toStore

theorem Worked.reported {reopens : Id → Prop} (h : Worked env now db db' .nothing reopens detection)
    (hr : ∀ c, reopens c → openedBy detection c) (patched : Id → Prop) :
    Reported env now db db' patched detection where
  works := { h.works with left := fun c x y hx hy hs => (h.works.left c x y hx hy hs).imp_right (hr c) }
  reports := .kept h.reports h.fragments
  detected := h.detected

/-- Storing and publishing a report, then observing it. -/
theorem observed_after {m : Db} (hq : db.toStore.Quiet m.toStore) {id incidentId : Id}
    (h : Observed env now m db' id incidentId detection) :
    Observed env now { db with reports := m.reports } db' id incidentId detection where
  works := hq.thenWorks h.works
  fragment := hq.fragments ▸ h.fragment
  reports := h.reports
  detected := fun d hd =>
    let hof := h.detected d hd
    ⟨hof.made, hof.cases.trans hq.cases, hof.facts.trans hq.facts⟩

theorem createReport_spec {incidentId : Id} {payload : ReportCreate}
    {refinement : Result (Option Priority)} {contact : Result Unit} {id : Id} {r : Report}
    (h : createReport env now db incidentId actor payload refinement contact = .ok (db', id, r)) :
    id = db.reports.size ∧ db'.reports = db.reports.insert r ∧ r.isLive = true ∧
      db.toStore.Quiet db'.toStore := by
  simp only [createReport, bind_ok, pure_ok, Prod.exists, Prod.mk.injEq] at h
  obtain ⟨-, -, ai, -, -, -, a, ha, attachments, b, hb, rfl, rfl, rfl⟩ := h
  have hlife := (applyLocation_sameLife ha).trans (bindAttachments_sameLife hb)
  refine ⟨rfl, rfl, ?_, projectReport_quiet { db with
    reports := db.reports.insert b, attachments := attachments } now _ b⟩
  rw [hlife.isLive]
  rfl

theorem postReport_spec {incidentId : Ref} {payload : ReportCreate}
    {refinement : Result (Option Priority)} {contact : Result Unit}
    (h : postReport env now db actor header incidentId payload refinement contact
      = .ok (db', detection)) (hs : db.toStore.Sound) (patched : Id → Prop) :
    Reported env now db db' patched detection := by
  simp only [postReport, bind_ok, Prod.exists] at h
  obtain ⟨i, incident, -, -, -, m, id, r, hm, h⟩ := h
  obtain ⟨rfl, hreports, hlive, hq⟩ := createReport_spec hm
  have hquiet := hq.trans (emitReport_quiet m now db.reports.size r "report.created"
    (reportData m.attachments db.reports.size r))
  have hobs := observed_after hquiet (processReportObservation_spec env now h (hquiet.sound hs))
  obtain ⟨k, hk⟩ := hobs.fragment
  exact
    { works := hobs.works
      reports := .posted hlive (hobs.reports.trans hreports) hk
      detected := hobs.detected }

theorem patchReport_spec {id : Id} {payload : ReportPatch} {refinement : Result (Option Priority)}
    (h : patchReport env now db actor header id payload refinement = .ok (db', detection))
    (hs : db.toStore.Sound) :
    Reported env now db db' (fun j => j = id ∧ payload.observes = true) detection := by
  simp only [patchReport, bind_ok, Prod.exists] at h
  obtain ⟨-, -, r, hr, -, -, -, -, a, ha, -, -, attachments, b, hb, ai, -, h⟩ := h
  obtain ⟨hget, -⟩ := openReport_some hr
  obtain ⟨c, hc⟩ : ∃ c, c = (b.prioritise b.manualPriority ai).touch now := ⟨_, rfl⟩
  have hlife := (applyTo_sameLife ha).trans (rebind_sameLife hb)
  have hincident : c.incidentId = r.incidentId := hc ▸ hlife.incident
  have hlive : c.isLive = r.isLive := hc ▸ hlife.isLive
  rw [← hc] at h
  have hquiet := fun data => (projectReport_quiet
    ((Db.storeReport { db with
        attachments := attachments
        contacts := payload.recontact db.contacts c } id c).recordRevision now actor id c []) now id c).trans
      (emitReport_quiet _ now id c "report.updated" data)
  split_ifs at h with hobserves
  · have hobs := observed_after (hquiet _) (processReportObservation_spec env now h ((hquiet _).sound hs))
    obtain ⟨k, hk⟩ := hobs.fragment
    exact
      { works := hobs.works
        reports := .observed hget hincident (Or.inr ⟨⟨rfl, hobserves⟩, hlive⟩)
          hobs.reports hk
        detected := hobs.detected }
  · rw [pure_ok, Prod.mk.injEq] at h
    obtain ⟨rfl, rfl⟩ := h
    exact
      { works := (hquiet _).works hs _ _
        reports := .edited hget hincident hlive rfl
          (Table.Evolves.refl .refl db.fragments)
        detected := fun _ hd => by cases hd }

theorem deleteReport_spec {id revision : ℕ}
    (h : deleteReport env now db actor header id revision = .ok db') (hs : db.toStore.Sound)
    (patched : Id → Prop) : Reported env now db db' patched none := by
  simp only [deleteReport, getReport, bind_ok, found_ok, pure_ok] at h
  obtain ⟨-, -, r, ⟨r', hget, -, -, rfl⟩, -, -, -, -, -, -, rfl⟩ := h
  obtain ⟨c, hc⟩ : ∃ c, c = { r' with deletedAt := some now }.touch now := ⟨_, rfl⟩
  rw [← hc]
  have hdead : c.isLive = false := by simp [hc, Report.touch, Report.isLive]
  have hincident : c.incidentId = r'.incidentId := by rw [hc]; rfl
  have hstore : (db.storeReport id c).toStore.Sound := hs
  have hdrop := deactivateReportObservation_spec env now hstore id c "source_report_deleted"
  have hquiet := fun payload => (projectReport_quiet (deactivateReportObservation env now
    (db.storeReport id c) id c "source_report_deleted") now id c).trans
      (emitReport_quiet _ now id c "report.deleted" payload)
  exact
    { works := by
        rw [openedBy_none]
        exact hdrop.works.quiet (hquiet _)
      reports := .dropped hget hincident hdead hdrop.reports hdrop.fragment
      detected := fun _ hd => by cases hd }

theorem patchReportStatus_spec {id revision : ℕ} {status : ReportStatus}
    (h : patchReportStatus env now db actor header id revision status = .ok (db', detection))
    (hs : db.toStore.Sound) (patched : Id → Prop) : Reported env now db db' patched detection := by
  simp only [patchReportStatus, bind_ok, require_ok] at h
  obtain ⟨-, -, r, hr, -, -, -, -, -, -, h⟩ := h
  obtain ⟨hget, hdel⟩ := openReport_some hr
  obtain ⟨c, hc⟩ : ∃ c, c = { r with status := status }.touch now := ⟨_, rfl⟩
  rw [← hc] at h
  have hincident : c.incidentId = r.incidentId := by rw [hc]; rfl
  have hlive : c.isLive = decide (status ≠ .invalid) := by
    simp [hc, Report.touch, Report.isLive, hdel]
  have hquiet := fun (m : Db) payload => (projectReport_quiet m now id c).trans
    (emitReport_quiet (m.projectReport now id c) now id c "report.status_changed" payload)
  have hstore : (db.storeReport id c).toStore.Sound := hs
  by_cases hinvalid : status = .invalid
  · rw [if_pos hinvalid] at h
    simp only [pure_bind, pure_ok, Prod.mk.injEq] at h
    obtain ⟨rfl, rfl⟩ := h
    have hdrop := deactivateReportObservation_spec env now hstore id c "source_report_invalid"
    exact
      { works := by
          rw [openedBy_none]
          exact hdrop.works.quiet (hquiet _ _)
        reports := .dropped hget hincident (by simp [hlive, hinvalid]) hdrop.reports hdrop.fragment
        detected := fun _ hd => by cases hd }
  · rw [if_neg hinvalid] at h
    have hlive' : c.isLive = true := by simp [hlive, hinvalid]
    by_cases hbefore : r.status = .invalid
    · simp only [if_pos hbefore, bind_ok, Prod.exists, pure_ok, Prod.mk.injEq] at h
      obtain ⟨m, d, hm, rfl, rfl⟩ := h
      have hobs := processReportObservation_spec env now hm hstore
      obtain ⟨k, hk⟩ := hobs.fragment
      exact
        { works := hobs.works.quiet (hquiet _ _)
          reports := .observed hget hincident (Or.inl hlive') hobs.reports hk
          detected := hobs.detected }
    · simp only [if_neg hbefore, pure_bind, pure_ok, Prod.mk.injEq] at h
      obtain ⟨rfl, rfl⟩ := h
      have hwas : r.isLive = true := by simp [Report.isLive, hbefore, hdel]
      exact
        { works := (hquiet _ _).works hs _ _
          reports := .edited hget hincident (hlive'.trans hwas.symm) rfl
            (Table.Evolves.refl .refl db.fragments)
          detected := fun _ hd => by cases hd }

theorem patchReportPriority_spec {id revision : ℕ} {priority : Option Priority}
    {refinement : Result (Option Priority)}
    (h : patchReportPriority now db actor header id revision priority refinement = .ok db')
    (hs : db.toStore.Sound) (patched : Id → Prop) : Reported env now db db' patched none := by
  simp only [patchReportPriority, bind_ok, pure_ok] at h
  obtain ⟨-, -, r, hr, -, -, ai, -, rfl⟩ := h
  obtain ⟨hget, -⟩ := openReport_some hr
  obtain ⟨c, hc⟩ : ∃ c, c = ({ r with manualPriority := priority }.prioritise priority ai).touch now :=
    ⟨_, rfl⟩
  rw [← hc]
  have hquiet := fun payload => (projectReport_quiet (db.storeReport id c) now id c).trans
    (emitReport_quiet _ now id c "report.priority_updated" payload)
  exact
    { works := (hquiet _).works hs _ _
      reports := .edited hget (by rw [hc]; rfl) (by rw [hc]; rfl) rfl
        (Table.Evolves.refl .refl db.fragments)
      detected := fun _ hd => by cases hd }

end Handlers
end CrisisMosaic
