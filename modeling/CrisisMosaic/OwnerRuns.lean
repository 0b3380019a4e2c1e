import CrisisMosaic.AttachmentOwners
import CrisisMosaic.ResidentFragments
import CrisisMosaic.MediaSteps

/-!
# Attachments have one owner

The upload service and the requests work on one table of attachments: a step is a request,
which may bind attachments, or a step of the upload service, which announces and processes
them.
-/

namespace CrisisMosaic
open Relational Questions

/-- No owner and nothing that is owned changes hands. -/
structure Db.KeepsOwners (a b : Db) : Prop where
  attachments : b.attachments = a.attachments
  reports : b.reports = a.reports
  answers : b.answers = a.answers
  questions : a.questions.Keeps (·.incidentId) b.questions

namespace Db.KeepsOwners
variable {a b c : Db}

theorem refl (a : Db) : a.KeepsOwners a := ⟨rfl, rfl, rfl, .refl _ _⟩

theorem trans (h : a.KeepsOwners b) (k : b.KeepsOwners c) : a.KeepsOwners c :=
  ⟨k.attachments.trans h.attachments, k.reports.trans h.reports, k.answers.trans h.answers,
    h.questions.trans k.questions⟩

theorem step (h : a.KeepsOwners b) : OwnersStep a b where
  rebinds := .kept h.attachments (by
    rw [h.reports]
    exact Table.Related.refl Report.SameOwner.refl a.reports)
  answers := by
    rw [h.answers]
    exact .refl _ a.answers
  questions := h.questions

end Db.KeepsOwners

/-- Nor is a report revised. -/
structure Db.KeepsRecords (a b : Db) : Prop extends a.KeepsOwners b where
  revisions : b.revisions = a.revisions

namespace Db.KeepsRecords
variable {a b c : Db}

theorem refl (a : Db) : a.KeepsRecords a := ⟨.refl a, rfl⟩

theorem trans (h : a.KeepsRecords b) (k : b.KeepsRecords c) : a.KeepsRecords c :=
  ⟨h.toKeepsOwners.trans k.toKeepsOwners, k.revisions.trans h.revisions⟩

end Db.KeepsRecords

theorem OwnersStep.then_keeps {a b c : Db} (h : OwnersStep a b) (k : b.KeepsOwners c) :
    OwnersStep a c where
  rebinds := by
    cases h.rebinds with
    | kept hattachments hreports =>
      exact .kept (k.attachments.trans hattachments) (k.reports ▸ hreports)
    | posted hids hbind hreports =>
      exact .posted hids (k.attachments ▸ hbind) (k.reports.trans hreports)
    | patched hids hget hsame hreplace hsame' hreports =>
      exact .patched hids hget hsame (k.attachments ▸ hreplace) hsame' (k.reports.trans hreports)
    | answered hanswer hq hreplace hreports =>
      exact .answered (k.answers ▸ hanswer) hq (k.attachments ▸ hreplace) (k.reports.trans hreports)
  answers := k.answers ▸ h.answers
  questions := h.questions.trans k.questions

section Routes
variable {env : Env} {now : Time} {db db' : Db} {actor : Actor} {header : Option Ref}
  {detection : Option Detection}

theorem emitReport_keepsRecords (db : Db) (now : Time) (id : Id) (r : Report) (eventType : String)
    (payload : Dict) : db.KeepsRecords (db.emitReport now id r eventType payload) :=
  ⟨⟨rfl, rfl, rfl, .refl _ db.questions⟩, rfl⟩

theorem announceReport_keepsOwners (db : Db) (now : Time) (actor : Actor) (id : Id) (r : Report)
    (tombstone : Dict) (eventType : String) (payload : Dict) :
    db.KeepsOwners (((db.recordRevision now actor id r tombstone).projectReport now id r).emitReport
      now id r eventType payload) :=
  ⟨rfl, rfl, rfl, .refl _ db.questions⟩

theorem beforeDetection_keepsRecords (env : Env) (now : Time) (db : Db) (incidentId : Id)
    (u : FragmentUpsert) : db.KeepsRecords (beforeDetection env now db incidentId u) := by
  unfold beforeDetection scheduleBlindSpot
  dsimp only
  split_ifs <;> exact ⟨⟨rfl, rfl, rfl, .refl _ _⟩, rfl⟩

theorem processReportObservation_keepsRecords {id : Id} {r : Report}
    (h : processReportObservation env now db id r = .ok (db', detection)) : db.KeepsRecords db' := by
  rw [processReportObservation_eq] at h
  dsimp only at h
  have hbefore := beforeDetection_keepsRecords env now db r.incidentId
    (upsertReportFragment env now db.fragments id r)
  split_ifs at h
  · obtain ⟨rfl, -⟩ := Prod.mk.inj (pure_ok.mp h)
    exact hbefore
  · simp only [bind_ok, pure_ok, Prod.mk.injEq] at h
    obtain ⟨d, -, rfl, -⟩ := h
    exact hbefore.trans ⟨⟨rfl, rfl, rfl, .refl _ _⟩, rfl⟩

theorem deactivateReportObservation_keepsRecords (db : Db) (id : Id) (r : Report) (reason : String) :
    db.KeepsRecords (deactivateReportObservation env now db id r reason) := by
  unfold deactivateReportObservation
  dsimp only
  split
  · exact .refl db
  · exact ⟨⟨rfl, rfl, rfl, .refl _ _⟩, rfl⟩

theorem applyLocation_sameOwner {location : ReportLocation} {r r' : Report}
    (h : applyLocation env now location r = .ok r') : r.SameOwner r' := by
  simp only [applyLocation, bind_ok] at h
  obtain ⟨-, -, h⟩ := h
  split at h
  · simp only [bind_ok, pure_ok, Prod.exists] at h
    obtain ⟨_, _, -, rfl⟩ := h
    exact ⟨rfl, rfl, rfl⟩
  · exact pure_ok.mp h ▸ ⟨rfl, rfl, rfl⟩

theorem applyTo_sameOwner {p : ReportPatch} {contact : Id} {r r' : Report}
    (h : p.applyTo env now contact r = .ok r') : r.SameOwner r' := by
  unfold ReportPatch.applyTo at h
  dsimp only at h
  split at h
  · simp only [bind_ok, pure_ok] at h
    obtain ⟨a, ha, rfl⟩ := h
    have hsame := applyLocation_sameOwner ha
    exact ⟨hsame.incidentId, hsame.reporterDeviceId, hsame.attachmentCount⟩
  · simp only [bind_ok, pure_ok] at h
    obtain ⟨a, rfl, rfl⟩ := h
    exact ⟨rfl, rfl, rfl⟩

theorem storeReport_ownersStep {id : Id} {r r' : Report} (hget : db.reports.get id = some r)
    (hsame : r.SameOwner r') : OwnersStep db (db.storeReport id r') where
  rebinds := .kept rfl (by
    apply Table.Related.modify Report.SameOwner.refl
    intro a ha
    obtain rfl := Option.some.inj (hget.symm.trans ha)
    exact hsame)
  answers := .refl _ _
  questions := .refl _ _

theorem postReport_ownersStep {incidentId : Ref} {payload : ReportCreate}
    {refinement : Result (Option Priority)} {contact : Result Unit}
    (h : postReport env now db actor header incidentId payload refinement contact
      = .ok (db', detection)) : OwnersStep db db' := by
  simp only [postReport, bind_ok, Prod.exists] at h
  obtain ⟨i, incident, -, -, -, m, id, r, hm, h⟩ := h
  have hcreated : OwnersStep db m := by
    simp only [createReport, bind_ok, pure_ok, Prod.exists, Prod.mk.injEq] at hm
    obtain ⟨-, -, ai, -, -, -, a, -, attachments, b, hb, rfl, rfl, rfl⟩ := hm
    exact ⟨.posted payload.distinct hb rfl, .refl _ _, .refl _ _⟩
  exact (hcreated.then_keeps (emitReport_keepsRecords m now id r _ _).toKeepsOwners).then_keeps
    (processReportObservation_keepsRecords h).toKeepsOwners

theorem patchReport_ownersStep {id : Id} {payload : ReportPatch} {refinement : Result (Option Priority)}
    (h : patchReport env now db actor header id payload refinement = .ok (db', detection)) :
    OwnersStep db db' := by
  simp only [patchReport, bind_ok, Prod.exists] at h
  obtain ⟨-, -, r, hr, -, -, -, -, a, ha, -, -, attachments, b, hb, ai, -, h⟩ := h
  obtain ⟨hget, -⟩ := openReport_some hr
  have hsame := applyTo_sameOwner ha
  obtain ⟨c, hc⟩ : ∃ c, c = (b.prioritise b.manualPriority ai).touch now := ⟨_, rfl⟩
  have hstored : b.SameOwner c := hc ▸ ⟨rfl, rfl, rfl⟩
  rw [← hc] at h
  have hrebound : OwnersStep db (Db.storeReport { db with
      attachments := attachments
      contacts := payload.recontact db.contacts c } id c) := by
    unfold ReportPatch.rebind at hb
    split at hb
    · obtain ⟨rfl, rfl⟩ := Prod.mk.inj (pure_ok.mp hb)
      have hkept : (db.storeReport id c).KeepsOwners (Db.storeReport { db with
          contacts := payload.recontact db.contacts c } id c) := ⟨rfl, rfl, rfl, .refl _ db.questions⟩
      apply OwnersStep.then_keeps _ hkept
      apply storeReport_ownersStep hget
      exact ⟨hstored.incidentId.trans hsame.incidentId,
        hstored.reporterDeviceId.trans hsame.reporterDeviceId,
        hstored.attachmentCount.trans hsame.attachmentCount⟩
    · exact absurd hb throw_ok
    · next ids hids =>
      exact ⟨.patched ids.2 hget hsame hb hstored rfl, .refl _ _, .refl _ _⟩
  split_ifs at h
  · exact (hrebound.then_keeps (announceReport_keepsOwners _ now actor id c _ _ _)).then_keeps
      (processReportObservation_keepsRecords h).toKeepsOwners
  · obtain ⟨rfl, -⟩ := Prod.mk.inj (pure_ok.mp h)
    exact hrebound.then_keeps (announceReport_keepsOwners _ now actor id c _ _ _)

theorem deleteReport_ownersStep {id revision : ℕ}
    (h : deleteReport env now db actor header id revision = .ok db') : OwnersStep db db' := by
  simp only [deleteReport, getReport, bind_ok, found_ok, pure_ok] at h
  obtain ⟨-, -, r, ⟨r', hget, -, -, rfl⟩, -, -, -, -, -, -, rfl⟩ := h
  obtain ⟨c, hc⟩ : ∃ c, c = { r' with deletedAt := some now }.touch now := ⟨_, rfl⟩
  rw [← hc]
  have hsame : r'.SameOwner c := hc ▸ ⟨rfl, rfl, rfl⟩
  exact ((storeReport_ownersStep hget hsame).then_keeps
    (deactivateReportObservation_keepsRecords _ id c _).toKeepsOwners).then_keeps
    (announceReport_keepsOwners _ now actor id c _ _ _)

theorem patchReportStatus_ownersStep {id revision : ℕ} {status : ReportStatus}
    (h : patchReportStatus env now db actor header id revision status = .ok (db', detection)) :
    OwnersStep db db' := by
  simp only [patchReportStatus, bind_ok, require_ok] at h
  obtain ⟨-, -, r, hr, -, -, -, -, -, -, h⟩ := h
  obtain ⟨hget, -⟩ := openReport_some hr
  obtain ⟨c, hc⟩ : ∃ c, c = { r with status := status }.touch now := ⟨_, rfl⟩
  rw [← hc] at h
  have hsame : r.SameOwner c := hc ▸ ⟨rfl, rfl, rfl⟩
  have hstored := storeReport_ownersStep hget hsame
  have hannounced : ∀ m payload, (db.storeReport id c).KeepsOwners m → OwnersStep db
      (((m.recordRevision now actor id c []).projectReport now id c).emitReport now id c
        "report.status_changed" payload) :=
    fun m payload hm => (hstored.then_keeps hm).then_keeps (announceReport_keepsOwners m now actor id c _ _ payload)
  split_ifs at h
  · obtain ⟨rfl, -⟩ := Prod.mk.inj (pure_ok.mp h)
    exact hannounced _ _ (deactivateReportObservation_keepsRecords _ id c _).toKeepsOwners
  · simp only [bind_ok, Prod.exists, pure_ok, Prod.mk.injEq] at h
    obtain ⟨m, d, hm, rfl, -⟩ := h
    exact hannounced m _ (processReportObservation_keepsRecords hm).toKeepsOwners
  · obtain ⟨rfl, -⟩ := Prod.mk.inj (pure_ok.mp h)
    exact hannounced _ _ (.refl _)

theorem patchReportPriority_ownersStep {id revision : ℕ} {priority : Option Priority}
    {refinement : Result (Option Priority)}
    (h : patchReportPriority now db actor header id revision priority refinement = .ok db') :
    OwnersStep db db' := by
  simp only [patchReportPriority, bind_ok, pure_ok] at h
  obtain ⟨-, -, r, hr, -, -, ai, -, rfl⟩ := h
  obtain ⟨hget, -⟩ := openReport_some hr
  obtain ⟨c, hc⟩ : ∃ c, c = ({ r with manualPriority := priority }.prioritise priority ai).touch now :=
    ⟨_, rfl⟩
  rw [← hc]
  have hsame : r.SameOwner c := hc ▸ ⟨rfl, rfl, rfl⟩
  exact (storeReport_ownersStep hget hsame).then_keeps (announceReport_keepsOwners _ now actor id c _ _ _)

theorem agree_keepsRecords (db : Db) (s : Store) (questionId fragmentId : Id) (admitted : Admitted)
    (consensus : Option String) (count : ℕ) (conflictId : Option Id) :
    db.KeepsRecords (agree now { db with toStore := s } questionId fragmentId admitted consensus count
      conflictId).db := by
  unfold agree
  dsimp only
  by_cases hreached : consensus.isSome = true ∧ admitted.blind.minValidAnswers ≤ count
  · rw [if_pos hreached]
    exact ⟨⟨rfl, rfl, rfl, .refl _ _⟩, rfl⟩
  · rw [if_neg hreached]
    by_cases hresolved : admitted.blind.status = .resolved
    · rw [if_pos hresolved]
      exact ⟨⟨rfl, rfl, rfl, .modify _ fun _ => rfl⟩, rfl⟩
    · rw [if_neg hresolved]
      exact ⟨⟨rfl, rfl, rfl, .refl _ _⟩, rfl⟩

theorem judgeAnswer_keepsRecords {questionId fragmentId : Id} {admitted : Admitted} {created : Bool}
    {v : Verdict} (h : judgeAnswer env now db questionId fragmentId admitted created = .ok v) :
    db.KeepsRecords v.db := by
  unfold judgeAnswer at h
  generalize validAnswerConsensus env.text db.answers questionId = consensus at h
  obtain ⟨value, count, values⟩ := consensus
  dsimp only at h
  split_ifs at h
  · simp only [disagree, bind_ok, pure_ok] at h
    obtain ⟨d, -, rfl⟩ := h
    exact ⟨⟨rfl, rfl, rfl, .refl _ _⟩, rfl⟩
  · simp only [pure_bind, pure_ok] at h
    exact h ▸ agree_keepsRecords db db.toStore questionId fragmentId admitted value count none
  · simp only [bind_ok, pure_ok, Prod.exists] at h
    obtain ⟨s, conflictId, -, rfl⟩ := h
    exact agree_keepsRecords db s questionId fragmentId admitted value count conflictId

theorem projectVerdict_keepsRecords (v : Verdict) (spotId fragmentId : Id) (f : InformationFragment) :
    v.db.KeepsRecords (projectVerdict env now v spotId fragmentId f) := by
  unfold projectVerdict
  dsimp only
  split <;> exact ⟨⟨rfl, rfl, rfl, .refl _ _⟩, rfl⟩

theorem announceAnswer_keepsRecords (db : Db) (questionId deviceId : Id) (stored : StoredAnswer)
    (fragmentId : Id) (f : InformationFragment) (admitted : Admitted) (v : Verdict) :
    db.KeepsRecords (announceAnswer now db questionId deviceId stored fragmentId f admitted v) := by
  unfold announceAnswer
  dsimp only
  cases v.changed <;> exact ⟨⟨rfl, rfl, rfl, .refl _ _⟩, rfl⟩

theorem storeAnswer_owner {answers : Table DirectedAnswer} {questionId deviceId : Id}
    {payload : DirectedAnswerPut} {admitted : Admitted} {stored : StoredAnswer}
    (h : storeAnswer now answers questionId deviceId payload admitted = .ok stored) :
    answers.Keeps DirectedAnswer.owner stored.answers ∧
      ∃ answer, stored.answers.get stored.id = some answer ∧
        answer.questionId = questionId ∧ answer.deviceId = deviceId := by
  unfold storeAnswer at h
  split at h
  · simp only [bind_ok, pure_ok] at h
    obtain ⟨-, -, rfl⟩ := h
    exact ⟨.insert _ _ _, _, Table.get_insert_size _ _, rfl, rfl⟩
  · next id a hfind =>
    obtain ⟨hget, hof⟩ := Table.find_some hfind
    simp only [isAnswerOf, Bool.and_eq_true, decide_eq_true_eq] at hof
    simp only [bind_ok, pure_ok] at h
    obtain ⟨-, -, rfl⟩ := h
    refine ⟨fun i b hb => ?_, ?_⟩
    · rw [Table.get_modify, hb]
      split_ifs with hi
      · subst hi
        obtain rfl := Option.some.inj (hget.symm.trans hb)
        exact ⟨_, rfl, rfl⟩
      · exact ⟨b, rfl, rfl⟩
    · rw [Table.get_modify_self, hget]
      exact ⟨_, rfl, hof.1, hof.2⟩

theorem putMyAnswer_ownersStep {questionId : Id} {payload : DirectedAnswerPut} {o : AnswerOutcome}
    (h : putMyAnswer env now db actor header questionId payload = .ok o) : OwnersStep db o.db := by
  simp only [putMyAnswer, bind_ok, pure_ok] at h
  obtain ⟨admitted, hadmit, stored, hstored, attachments, hreplace, v, hv, f, -, rfl⟩ := h
  obtain ⟨hanswers, answer, hanswer, hquestion, hdevice⟩ := storeAnswer_owner hstored
  obtain ⟨hq, -⟩ := admitAnswer_spec hadmit
  have hstep : OwnersStep db { db with
      answers := stored.answers
      attachments := attachments
      fragments := (upsertAnswerFragment now db.fragments stored.id payload admitted).1 } :=
    ⟨.answered hanswer (hquestion ▸ hq) (hdevice ▸ hreplace) rfl, hanswers, .refl _ _⟩
  apply hstep.then_keeps
  apply Db.KeepsRecords.toKeepsOwners
  exact ((judgeAnswer_keepsRecords hv).trans (projectVerdict_keepsRecords v _ _ f)).trans
    (announceAnswer_keepsRecords _ questionId actor.subjectId stored _ f admitted v)

theorem runBlindSpotJob_keepsRecords {job : Id} (h : runBlindSpotJob env now db job = .ok db') :
    db.KeepsRecords db' := by
  simp only [runBlindSpotJob, bind_ok] at h
  obtain ⟨j, -, -, -, h⟩ := h
  split_ifs at h
  · exact pure_ok.mp h ▸ ⟨⟨rfl, rfl, rfl, .refl _ _⟩, rfl⟩
  · split at h
    · exact pure_ok.mp h ▸ ⟨⟨rfl, rfl, rfl, .refl _ _⟩, rfl⟩
    · exact absurd h throw_ok

theorem changeQuestionStatus_keepsRecords {id revision : ℕ} {target : QuestionStatus}
    (h : changeQuestionStatus now db actor header id revision target = .ok db') :
    db.KeepsRecords db' := by
  simp only [changeQuestionStatus, bind_ok, found_ok, pure_ok] at h
  obtain ⟨-, -, q, hq, -, -, -, -, -, -, i, -, rfl⟩ := h
  refine ⟨⟨rfl, rfl, rfl, fun j b hb => ?_⟩, rfl⟩
  show ∃ b', (db.questions.modify id fun _ => _).get j = some b' ∧ _
  rw [Table.get_modify, hb]
  split_ifs with hj
  · subst hj
    obtain rfl := Option.some.inj (hq.symm.trans hb)
    exact ⟨_, rfl, rfl⟩
  · exact ⟨b, rfl, rfl⟩

end Routes

/-- The calls that write reports, answers or attachments. -/
def Call.writesRecords : Call → Bool
  | .postReport .. | .patchReport .. | .deleteReport .. | .patchReportStatus ..
  | .patchReportPriority .. | .putMyAnswer .. | .uploads .. => true
  | _ => false

theorem handle_keepsRecords {env : Env} {db : Db} {op : Op} {o : Outcome}
    (h : handle env db op = .ok o) (hop : op.call.writesRecords = false) : db.KeepsRecords o.db := by
  obtain ⟨now, actor, header, call⟩ := op
  have hstore : ∀ {r : Result Store}, (Outcome.ofStore db <$> r) = .ok o → db.KeepsRecords o.db := by
    intro r h
    obtain ⟨s, -, rfl⟩ := map_ok.mp h
    exact ⟨⟨rfl, rfl, rfl, .refl _ _⟩, rfl⟩
  cases call with
  | postReport => exact nomatch hop
  | patchReport => exact nomatch hop
  | deleteReport => exact nomatch hop
  | patchReportStatus => exact nomatch hop
  | patchReportPriority => exact nomatch hop
  | putMyAnswer => exact nomatch hop
  | uploads => exact nomatch hop
  | createBlindSpot incident payload =>
    obtain ⟨r, hr, rfl⟩ := map_ok.mp h
    simp only [createBlindSpot, bind_ok, pure_ok, Prod.exists] at hr
    obtain ⟨-, -, -, -, i, -, -, rfl⟩ := hr
    exact ⟨⟨rfl, rfl, rfl, .refl _ _⟩, rfl⟩
  | createQuestion incident payload =>
    obtain ⟨r, hr, rfl⟩ := map_ok.mp h
    simp only [createQuestion, bind_ok, pure_ok, Prod.exists] at hr
    obtain ⟨-, -, -, -, -, -, i, -, -, blind, -, -, -, rfl⟩ := hr
    exact ⟨⟨rfl, rfl, rfl, .insert _ _ _⟩, rfl⟩
  | publishQuestion question revision =>
    obtain ⟨r, hr, rfl⟩ := map_ok.mp h
    exact changeQuestionStatus_keepsRecords hr
  | closeQuestion question revision =>
    obtain ⟨r, hr, rfl⟩ := map_ok.mp h
    exact changeQuestionStatus_keepsRecords hr
  | createFragment incident payload =>
    obtain ⟨r, hr, rfl⟩ := map_ok.mp h
    simp only [createFragment, bind_ok, pure_ok, Prod.exists] at hr
    obtain ⟨-, -, -, -, i, -, -, d, -, rfl⟩ := hr
    exact ⟨⟨rfl, rfl, rfl, .refl _ _⟩, rfl⟩
  | createConflict incident payload => exact hstore h
  | appendConflictEvidence conflict revision references => exact hstore h
  | reopenConflict conflict revision reason => exact hstore h
  | submitConflictDecision conflict payload => exact hstore h
  | requestAnalysis conflict incident revision requested =>
    obtain ⟨r, hr, rfl⟩ := map_ok.mp h
    simp only [requestAnalysis, bind_ok, pure_ok, Prod.exists] at hr
    obtain ⟨-, -, id, x, -, -, -, -, -, s, jobs, a, ready, -, -, -, rfl⟩ := hr
    exact ⟨⟨rfl, rfl, rfl, .refl _ _⟩, rfl⟩
  | startAnalysis analysis => exact hstore h
  | completeAnalysis analysis output confidence seenStale => exact hstore h
  | failAnalysis analysis error => exact hstore h
  | retryAnalysis analysis =>
    obtain ⟨r, hr, rfl⟩ := map_ok.mp h
    simp only [retryAnalysis, bind_ok, pure_ok] at hr
    obtain ⟨a, -, -, -, -, -, -, -, -, -, rfl⟩ := hr
    exact ⟨⟨rfl, rfl, rfl, .refl _ _⟩, rfl⟩
  | runBlindSpotJob job =>
    obtain ⟨r, hr, rfl⟩ := map_ok.mp h
    exact runBlindSpotJob_keepsRecords hr

theorem handle_ownersStep {env : Env} {db : Db} {op : Op} {o : Outcome}
    (h : handle env db op = .ok o) (hop : ∀ t, op.call ≠ .uploads t) : OwnersStep db o.db := by
  cases hwrites : op.call.writesRecords with
  | false => exact (handle_keepsRecords h hwrites).toKeepsOwners.step
  | true =>
    obtain ⟨now, actor, header, call⟩ := op
    cases call with
    | postReport incident payload refinement contact =>
      obtain ⟨r, hr, rfl⟩ := map_ok.mp h
      exact postReport_ownersStep hr
    | patchReport report payload refinement =>
      obtain ⟨r, hr, rfl⟩ := map_ok.mp h
      exact patchReport_ownersStep hr
    | deleteReport report revision =>
      obtain ⟨r, hr, rfl⟩ := map_ok.mp h
      exact deleteReport_ownersStep hr
    | patchReportStatus report revision status =>
      obtain ⟨r, hr, rfl⟩ := map_ok.mp h
      exact patchReportStatus_ownersStep hr
    | patchReportPriority report revision priority refinement =>
      obtain ⟨r, hr, rfl⟩ := map_ok.mp h
      exact patchReportPriority_ownersStep hr
    | putMyAnswer question payload =>
      obtain ⟨r, hr, rfl⟩ := map_ok.mp h
      exact putMyAnswer_ownersStep hr
    | uploads attachments => exact absurd rfl (hop attachments)
    | _ => exact nomatch hwrites

/-- A step of the upload service leaves the owners as they are. -/
theorem MediaStep.keepsOwners {settings : MediaSettings} {s : UploadState} {t : MediaDb}
    {x : UploadStep} (h : MediaStep settings s t x) (hx : x.isBinding = false) :
    s.db.attachments.Keeps Attachment.owner t.attachments ∧
      ∀ i b, t.attachments.get i = some b → s.db.attachments.get i = none →
        b.reportId = none ∧ b.directedAnswerId = none := by
  have hsame : t.attachments = s.db.attachments → s.db.attachments.Keeps Attachment.owner t.attachments ∧
      ∀ i b, t.attachments.get i = some b → s.db.attachments.get i = none →
        b.reportId = none ∧ b.directedAnswerId = none := by
    intro heq
    rw [heq]
    exact ⟨.refl _ _, fun i b hb hnone => nomatch hnone.symm.trans hb⟩
  have hsaved : ∀ (id : Id) (loaded new : Attachment),
      t.attachments = s.db.attachments.modify id (loaded.save new) →
      s.db.attachments.Keeps Attachment.owner t.attachments ∧
      ∀ i b, t.attachments.get i = some b → s.db.attachments.get i = none →
        b.reportId = none ∧ b.directedAnswerId = none := by
    intro id loaded new heq
    rw [heq]
    refine ⟨.modify _ fun _ => rfl, fun i b hb hnone => ?_⟩
    have hsize : i < s.db.attachments.size := Table.size_modify s.db.attachments _ _ ▸ Table.lt_size hb
    obtain ⟨a, ha⟩ := Table.get_of_lt hsize
    exact nomatch hnone.symm.trans ha
  cases h with
  | quiet _ ha => exact hsame ha
  | announced i incident device u hu ha =>
    rw [ha]
    refine ⟨.insert _ _ _, fun j b hb hnone => ?_⟩
    rcases Table.get_insert_cases hb with ⟨-, rfl⟩ | hold
    · exact ⟨rfl, rfl⟩
    · exact nomatch hnone.symm.trans hold
  | received i m sha256 receivedAt hw ht =>
    exact hsaved m.id m.attachment (m.quarantined sha256 receivedAt).attachment (ht ▸ rfl)
  | queued i m payload hw hlocal hidle ht => exact hsame (ht ▸ rfl)
  | completed i w m payload hw hc haccepts ha =>
    exact hsaved m.id m.attachment (m.received s.now payload.etag).attachment ha
  | claimed job j hworker hj hdue ht => exact hsame (ht ▸ rfl)
  | executed job task m file remote hworker ht =>
    exact hsaved m.id m.attachment (runTask settings task m file remote).1.attachment (ht ▸ rfl)
  | finished job error hworker ht => exact hsame (ht ▸ rfl)
  | bound _ _ _ _ hbinds => exact absurd (hx.symm.trans hbinds) Bool.false_ne_true

/-- The two services over one table of attachments. -/
structure ServiceState where
  uploads : UploadState
  db : Db

inductive ServiceStep
  | request (op : Op)
  | upload (x : UploadStep)

def Call.isUploads : Call → Bool
  | .uploads _ => true
  | _ => false

/-- What stands for the other service in the model of each is not taken here. -/
def serviceStep (env : Env) (settings : MediaSettings) (text : TextLib) (s : ServiceState) :
    ServiceStep → ServiceState
  | .request op =>
    if op.call.isUploads then s
    else
      let db := step env s.db op
      ⟨s.uploads.withAttachments db.attachments, db⟩
  | .upload x =>
    if x.isBinding then s
    else
      let uploads := uploadStep settings text s.uploads x
      ⟨uploads, { s.db with attachments := uploads.db.attachments }⟩

def ServiceState.initial (incidents : Table Incident) (devices : Table AnonymousDevice)
    (now : Time) : ServiceState :=
  ⟨.initial now, .initial incidents devices .empty⟩

section Service
variable {env : Env} {settings : MediaSettings} {text : TextLib} {s : ServiceState}

theorem step_owned {db : Db} {op : Op} (hop : op.call.isUploads = false) (h : db.Owned) :
    (step env db op).Owned := by
  apply step_cases h
  intro o ho
  have hbegin : db.begin.Owned := ⟨h.exclusive, h.report, h.answer, h.counted⟩
  have hstep : OwnersStep db.begin o.db := by
    apply handle_ownersStep ho
    intro t ht
    rw [ht] at hop
    exact nomatch hop
  exact hstep.owned hbegin

theorem uploadStep_owned (hshared : s.db.attachments = s.uploads.db.attachments) {x : UploadStep}
    (hx : x.isBinding = false) (h : s.db.Owned) :
    { s.db with attachments := (uploadStep settings text s.uploads x).db.attachments }.Owned := by
  have hmedia := (uploadStep_media settings text s.uploads x).keepsOwners hx
  rw [← hshared] at hmedia
  exact h.uploaded hmedia.1 hmedia.2 (.refl Report.SameOwner.refl _) (.refl _ _) (.refl _ _)

theorem serviceStep_owned (x : ServiceStep)
    (h : s.db.attachments = s.uploads.db.attachments ∧ s.db.Owned) :
    (serviceStep env settings text s x).db.attachments =
        (serviceStep env settings text s x).uploads.db.attachments ∧
      (serviceStep env settings text s x).db.Owned := by
  obtain ⟨hshared, howned⟩ := h
  cases x with
  | request op =>
    simp only [serviceStep]
    by_cases hop : op.call.isUploads = true
    · rw [if_pos hop]
      exact ⟨hshared, howned⟩
    · rw [if_neg hop]
      exact ⟨rfl, step_owned ((Bool.not_eq_true _).mp hop) howned⟩
  | upload x =>
    simp only [serviceStep]
    by_cases hx : x.isBinding = true
    · rw [if_pos hx]
      exact ⟨hshared, howned⟩
    · rw [if_neg hx]
      exact ⟨rfl, uploadStep_owned hshared ((Bool.not_eq_true _).mp hx) howned⟩

end Service

theorem initial_owned (incidents : Table Incident) (devices : Table AnonymousDevice) :
    (Db.initial incidents devices .empty).Owned where
  exclusive := fun _ _ h => nomatch h
  report := fun _ _ h => nomatch h
  answer := fun _ _ h => nomatch h
  counted := fun _ _ h => nomatch h

/-- In every state the services reach, an attachment is bound to at most one report or answer,
which is of its incident and its device, and the reports count their attachments. -/
theorem attachments_have_one_owner (env : Env) (settings : MediaSettings) (text : TextLib)
    (incidents : Table Incident) (devices : Table AnonymousDevice) (now : Time)
    (steps : List ServiceStep) :
    (run (serviceStep env settings text) (.initial incidents devices now) steps).db.Owned :=
  (run_invariant (serviceStep env settings text)
    (I := fun s => s.db.attachments = s.uploads.db.attachments ∧ s.db.Owned)
    (fun _ x h _ => serviceStep_owned x h)
    ⟨rfl, initial_owned incidents devices⟩ (along_true _ _ _)).2

end CrisisMosaic
