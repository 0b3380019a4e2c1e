import CrisisMosaic.OwnerRuns

/-!
# What an operation does to the reports

An operation leaves the reports as they are, adds one, or revises one, and records the report it has
made.
-/

namespace CrisisMosaic
open Relational Questions

/-- The report is recorded with its new revision. -/
structure Db.Recorded (db db' : Db) (now : Time) (actor : Actor) (id : Id) (r : Report) (tombstone : Dict) :
    Prop where
  revisions : db'.revisions =
    db.revisions.insert (reportRevision now actor id r (reportSnapshot id r ++ tombstone))

/-- The report `r`, stored under `id`, becomes `r'`. -/
structure Db.Revised (db db' : Db) (now : Time) (actor : Actor) (id : Id) (r r' : Report)
    (tombstone : Dict) : Prop extends db.Recorded db' now actor id r' tombstone where
  stored : db.reports.get id = some r
  reports : db'.reports = db.reports.modify id fun _ => r'

inductive ReportChange (env : Env) (db : Db) (op : Op) (db' : Db) : Prop
  | kept : db'.reports = db.reports → db'.revisions = db.revisions → ReportChange env db op db'
  | posted {incident : Ref} {payload : ReportCreate} {refinement : Result (Option Priority)}
      {contact : Result Unit} {i : Id} {row : Incident} {ai : Option Priority} {a b : Report}
      {attachments : Table Attachment} :
      op.call = .postReport incident payload refinement contact →
      getIncident db.feed.incidents incident = .ok (i, row) →
      validateReportRefinement payload.aiRefinementId refinement = .ok ai →
      applyLocation env op.now payload.location
        (newReport op.now i db.contacts.size op.actor payload ai) = .ok a →
      bindAttachments db.attachments db.reports.size a payload.attachmentIds = .ok (attachments, b) →
      db'.reports = db.reports.insert b → db.Recorded db' op.now op.actor db.reports.size b [] →
      ReportChange env db op db'
  | patched {id : Id} {payload : ReportPatch} {refinement : Result (Option Priority)}
      {r a b : Report} {attachments : Table Attachment} {ai : Option Priority} :
      op.call = .patchReport id payload refinement →
      openReport db op.actor op.header id payload.revision = .ok r →
      payload.applyTo env op.now db.contacts.size r = .ok a →
      payload.rebind db.attachments id a = .ok (attachments, b) →
      validateReportRefinement b.aiRefinementId refinement = .ok ai →
      db.Revised db' op.now op.actor id r ((b.prioritise b.manualPriority ai).touch op.now) [] →
      ReportChange env db op db'
  | deleted {id revision : ℕ} {r : Report} : op.call = .deleteReport id revision →
      db.Revised db' op.now op.actor id r ({ r with deletedAt := some op.now }.touch op.now)
        [("deleted_at", .time op.now)] →
      ReportChange env db op db'
  | moved {id revision : ℕ} {status : ReportStatus} {r : Report} :
      op.call = .patchReportStatus id revision status →
      db.Revised db' op.now op.actor id r ({ r with status := status }.touch op.now) [] →
      ReportChange env db op db'
  | ranked {id revision : ℕ} {priority ai : Option Priority} {refinement : Result (Option Priority)}
      {r : Report} : op.call = .patchReportPriority id revision priority refinement →
      openReport db op.actor op.header id revision = .ok r →
      validateReportRefinement r.aiRefinementId refinement = .ok ai →
      db.Revised db' op.now op.actor id r
        (({ r with manualPriority := priority }.prioritise priority ai).touch op.now) [] →
      ReportChange env db op db'

section Frames
variable {db m db' : Db} {now : Time} {actor : Actor} {id : Id} {r r' : Report} {tombstone : Dict}

theorem Db.Recorded.then_keeps (h : db.Recorded m now actor id r tombstone) (k : m.KeepsRecords db') :
    db.Recorded db' now actor id r tombstone := ⟨k.revisions.trans h.revisions⟩

theorem Db.Revised.then_keeps (h : db.Revised m now actor id r r' tombstone) (k : m.KeepsRecords db') :
    db.Revised db' now actor id r r' tombstone :=
  ⟨h.toRecorded.then_keeps k, h.stored, k.reports.trans h.reports⟩

theorem announceReport_keepsRecords (db : Db) (now : Time) (id : Id) (r : Report) (eventType : String)
    (payload : Dict) :
    db.KeepsRecords ((db.projectReport now id r).emitReport now id r eventType payload) :=
  ⟨⟨rfl, rfl, rfl, .refl _ db.questions⟩, rfl⟩

/-- A stored report is recorded, after what its observation left alone. -/
theorem recordRevision_revised (tombstone : Dict) (hget : db.reports.get id = some r)
    (k : (db.storeReport id r').KeepsRecords m) :
    db.Revised (m.recordRevision now actor id r' tombstone) now actor id r r' tombstone where
  stored := hget
  reports := k.reports
  revisions := by
    show m.revisions.insert _ = _
    rw [k.revisions]
    rfl

theorem openReport_stored {header : Option Ref} {revision : ℕ}
    (h : openReport db actor header id revision = .ok r) : db.reports.get id = some r := by
  obtain ⟨hget, -⟩ := openReport_some h
  exact hget

end Frames

section Routes
variable {env : Env} {now : Time} {db db' : Db} {actor : Actor} {header : Option Ref}
  {detection : Option Detection}

theorem postReport_change {incident : Ref} {payload : ReportCreate} {refinement : Result (Option Priority)}
    {contact : Result Unit}
    (h : postReport env now db actor header incident payload refinement contact = .ok (db', detection)) :
    ReportChange env db ⟨now, actor, header, .postReport incident payload refinement contact⟩ db' := by
  simp only [postReport, bind_ok, Prod.exists] at h
  obtain ⟨i, row, hi, -, -, m, id, r, hm, h⟩ := h
  simp only [createReport, bind_ok, pure_ok, Prod.exists, Prod.mk.injEq] at hm
  obtain ⟨-, -, ai, hai, -, -, a, ha, attachments, b, hb, rfl, rfl, rfl⟩ := hm
  have hkeeps := (emitReport_keepsRecords _ now db.reports.size b _ _).trans
    (processReportObservation_keepsRecords h)
  exact .posted rfl hi hai ha hb hkeeps.reports (Db.Recorded.then_keeps ⟨rfl⟩ hkeeps)

theorem patchReport_revised {id : Id} {payload : ReportPatch} {refinement : Result (Option Priority)}
    (h : patchReport env now db actor header id payload refinement = .ok (db', detection)) :
    ∃ r a attachments b ai, openReport db actor header id payload.revision = .ok r ∧
      payload.applyTo env now db.contacts.size r = .ok a ∧
      payload.rebind db.attachments id a = .ok (attachments, b) ∧
      validateReportRefinement b.aiRefinementId refinement = .ok ai ∧
      db.Revised db' now actor id r ((b.prioritise b.manualPriority ai).touch now) [] := by
  simp only [patchReport, bind_ok, Prod.exists] at h
  obtain ⟨-, -, r, hr, -, -, -, -, a, ha, -, -, attachments, b, hb, ai, hai, h⟩ := h
  refine ⟨r, a, attachments, b, ai, hr, ha, hb, hai, ?_⟩
  obtain ⟨c, hc⟩ : ∃ c, c = (b.prioritise b.manualPriority ai).touch now := ⟨_, rfl⟩
  rw [← hc] at h ⊢
  obtain ⟨m, hm⟩ : ∃ m, m = (Db.storeReport { db with
      attachments := attachments
      contacts := payload.recontact db.contacts c } id c).recordRevision now actor id c [] := ⟨_, rfl⟩
  have hrevised : db.Revised m now actor id r c [] := by
    rw [hm]
    exact ⟨⟨rfl⟩, openReport_stored hr, rfl⟩
  rw [← hm] at h
  have hannounced := fun data =>
    hrevised.then_keeps (announceReport_keepsRecords m now id c "report.updated" data)
  split_ifs at h
  · have hkeeps := processReportObservation_keepsRecords h
    exact (hannounced _).then_keeps hkeeps
  · obtain ⟨rfl, -⟩ := Prod.mk.inj (pure_ok.mp h)
    exact hannounced _

theorem deleteReport_revised {id revision : ℕ}
    (h : deleteReport env now db actor header id revision = .ok db') :
    ∃ r, db.Revised db' now actor id r ({ r with deletedAt := some now }.touch now)
      [("deleted_at", .time now)] := by
  simp only [deleteReport, getReport, bind_ok, found_ok, pure_ok] at h
  obtain ⟨-, -, _, ⟨r, hget, -, -, rfl⟩, -, -, -, -, -, -, rfl⟩ := h
  refine ⟨r, ?_⟩
  obtain ⟨c, hc⟩ : ∃ c, c = { r with deletedAt := some now }.touch now := ⟨_, rfl⟩
  rw [← hc]
  have hrevised := @recordRevision_revised _ _ now actor _ _ _ [("deleted_at", .time now)] hget
    (@deactivateReportObservation_keepsRecords env now (db.storeReport id c) id c
      "source_report_deleted")
  exact hrevised.then_keeps (announceReport_keepsRecords _ now id c _ _)

theorem patchReportStatus_revised {id revision : ℕ} {status : ReportStatus}
    (h : patchReportStatus env now db actor header id revision status = .ok (db', detection)) :
    ∃ r, db.Revised db' now actor id r ({ r with status := status }.touch now) [] := by
  simp only [patchReportStatus, bind_ok, require_ok] at h
  obtain ⟨-, -, r, hr, -, -, -, -, -, -, h⟩ := h
  refine ⟨r, ?_⟩
  obtain ⟨c, hc⟩ : ∃ c, c = { r with status := status }.touch now := ⟨_, rfl⟩
  rw [← hc] at h ⊢
  have hannounced (m : Db) (payload : Dict) (hm : (db.storeReport id c).KeepsRecords m) :=
    (@recordRevision_revised _ _ now actor _ _ _ [] (openReport_stored hr) hm).then_keeps
      (announceReport_keepsRecords _ now id c "report.status_changed" payload)
  split_ifs at h
  · obtain ⟨rfl, -⟩ := Prod.mk.inj (pure_ok.mp h)
    exact hannounced _ _ (deactivateReportObservation_keepsRecords _ id c _)
  · simp only [bind_ok, Prod.exists, pure_ok, Prod.mk.injEq] at h
    obtain ⟨m, d, hm, rfl, -⟩ := h
    exact hannounced m _ (processReportObservation_keepsRecords hm)
  · obtain ⟨rfl, -⟩ := Prod.mk.inj (pure_ok.mp h)
    exact hannounced _ _ (.refl _)

theorem patchReportPriority_revised {id revision : ℕ} {priority : Option Priority}
    {refinement : Result (Option Priority)}
    (h : patchReportPriority now db actor header id revision priority refinement = .ok db') :
    ∃ r ai, openReport db actor header id revision = .ok r ∧
      validateReportRefinement r.aiRefinementId refinement = .ok ai ∧
      db.Revised db' now actor id r
        (({ r with manualPriority := priority }.prioritise priority ai).touch now) [] := by
  simp only [patchReportPriority, bind_ok, pure_ok] at h
  obtain ⟨-, -, r, hr, -, -, ai, hai, rfl⟩ := h
  refine ⟨r, ai, hr, hai, ?_⟩
  obtain ⟨c, hc⟩ : ∃ c, c = ({ r with manualPriority := priority }.prioritise priority ai).touch now :=
    ⟨_, rfl⟩
  rw [← hc]
  have hrevised := @recordRevision_revised _ _ now actor _ _ c [] (openReport_stored hr) (.refl _)
  exact hrevised.then_keeps (announceReport_keepsRecords _ now id c _ _)

theorem putMyAnswer_reports {questionId : Id} {payload : DirectedAnswerPut} {o : AnswerOutcome}
    (h : putMyAnswer env now db actor header questionId payload = .ok o) :
    o.db.reports = db.reports ∧ o.db.revisions = db.revisions := by
  simp only [putMyAnswer, bind_ok, pure_ok] at h
  obtain ⟨admitted, -, stored, -, attachments, -, v, hv, f, -, rfl⟩ := h
  have hstored : ∀ db', Db.KeepsRecords { db with
      answers := stored.answers
      attachments := attachments
      fragments := (upsertAnswerFragment now db.fragments stored.id payload admitted).1 } db' →
      db'.reports = db.reports ∧ db'.revisions = db.revisions := fun _ k => ⟨k.reports, k.revisions⟩
  apply hstored
  exact ((judgeAnswer_keepsRecords hv).trans (projectVerdict_keepsRecords v _ _ f)).trans
    (announceAnswer_keepsRecords _ questionId actor.subjectId stored _ f admitted v)

end Routes

theorem handle_reportChange {env : Env} {db : Db} {op : Op} {o : Outcome} (h : handle env db op = .ok o) :
    ReportChange env db op o.db := by
  cases hwrites : op.call.writesRecords with
  | false =>
    have hkeeps := handle_keepsRecords h hwrites
    exact .kept hkeeps.reports hkeeps.revisions
  | true =>
    obtain ⟨now, actor, header, call⟩ := op
    cases call with
    | postReport incident payload refinement contact =>
      obtain ⟨r, hr, rfl⟩ := map_ok.mp h
      exact postReport_change hr
    | patchReport report payload refinement =>
      obtain ⟨r, hr, rfl⟩ := map_ok.mp h
      obtain ⟨r, a, attachments, b, ai, hopen, ha, hb, hai, hrevised⟩ := patchReport_revised hr
      exact .patched rfl hopen ha hb hai hrevised
    | deleteReport report revision =>
      obtain ⟨r, hr, rfl⟩ := map_ok.mp h
      obtain ⟨r, hrevised⟩ := deleteReport_revised hr
      exact .deleted rfl hrevised
    | patchReportStatus report revision status =>
      obtain ⟨r, hr, rfl⟩ := map_ok.mp h
      obtain ⟨r, hrevised⟩ := patchReportStatus_revised hr
      exact .moved rfl hrevised
    | patchReportPriority report revision priority refinement =>
      obtain ⟨r, hr, rfl⟩ := map_ok.mp h
      obtain ⟨r, ai, hopen, hai, hrevised⟩ := patchReportPriority_revised hr
      exact .ranked rfl hopen hai hrevised
    | putMyAnswer question payload =>
      obtain ⟨r, hr, rfl⟩ := map_ok.mp h
      obtain ⟨hreports, hrevisions⟩ := putMyAnswer_reports hr
      exact .kept hreports hrevisions
    | uploads attachments =>
      rw [handle, pure_ok] at h
      exact h ▸ .kept rfl rfl
    | _ => cases hwrites

end CrisisMosaic
