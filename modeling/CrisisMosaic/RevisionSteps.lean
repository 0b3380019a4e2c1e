import CrisisMosaic.Revisions

/-!
# What operations do to the revisions

No operation takes the revision of a resource back, and one that is accepted for a revision leaves
it behind.
-/

namespace CrisisMosaic
open Relational Questions

/-! ## What leaves questions and answers alone -/

/-- Neither a question nor an answer is written. -/
structure Db.KeepsQuestions (a b : Db) : Prop where
  questions : b.questions = a.questions
  answers : b.answers = a.answers

theorem Db.KeepsQuestions.trans {a b c : Db} (h : a.KeepsQuestions b) (k : b.KeepsQuestions c) :
    a.KeepsQuestions c :=
  ⟨k.questions.trans h.questions, k.answers.trans h.answers⟩

def Call.writesQuestions : Call → Bool
  | .createQuestion .. | .publishQuestion .. | .closeQuestion .. | .putMyAnswer .. => true
  | _ => false

section Frames
variable {env : Env} {now : Time} {db db' : Db} {actor : Actor} {header : Option Ref}
  {detection : Option Detection}

theorem processReportObservation_keepsQuestions {id : Id} {r : Report}
    (h : processReportObservation env now db id r = .ok (db', detection)) : db.KeepsQuestions db' := by
  have hbefore : db.KeepsQuestions (beforeDetection env now db r.incidentId
      (upsertReportFragment env now db.fragments id r)) := by
    unfold beforeDetection scheduleBlindSpot
    dsimp only
    split_ifs <;> exact ⟨rfl, rfl⟩
  rw [processReportObservation_eq] at h
  dsimp only at h
  split_ifs at h
  · obtain ⟨rfl, -⟩ := Prod.mk.inj (pure_ok.mp h)
    exact hbefore
  · simp only [bind_ok, pure_ok, Prod.mk.injEq] at h
    obtain ⟨d, -, rfl, -⟩ := h
    exact hbefore.trans ⟨rfl, rfl⟩

theorem deactivateReportObservation_keepsQuestions (db : Db) (id : Id) (r : Report) (reason : String) :
    db.KeepsQuestions (deactivateReportObservation env now db id r reason) := by
  unfold deactivateReportObservation
  dsimp only
  split <;> exact ⟨rfl, rfl⟩

theorem patchReport_keepsQuestions {id : Id} {payload : ReportPatch} {refinement : Result (Option Priority)}
    (h : patchReport env now db actor header id payload refinement = .ok (db', detection)) :
    db.KeepsQuestions db' := by
  simp only [patchReport, bind_ok, Prod.exists] at h
  obtain ⟨-, -, r, -, -, -, -, -, a, -, -, -, attachments, b, -, ai, -, h⟩ := h
  split_ifs at h
  · have hobserved := processReportObservation_keepsQuestions h
    exact ⟨hobserved.questions, hobserved.answers⟩
  · obtain ⟨rfl, -⟩ := Prod.mk.inj (pure_ok.mp h)
    exact ⟨rfl, rfl⟩

theorem deleteReport_keepsQuestions {id revision : ℕ}
    (h : deleteReport env now db actor header id revision = .ok db') : db.KeepsQuestions db' := by
  simp only [deleteReport, bind_ok, pure_ok] at h
  obtain ⟨-, -, r, -, -, -, -, -, -, -, rfl⟩ := h
  have hdeactivated := @deactivateReportObservation_keepsQuestions env now
    (db.storeReport id ({ r with deletedAt := some now }.touch now)) id
    ({ r with deletedAt := some now }.touch now) "source_report_deleted"
  exact ⟨hdeactivated.questions, hdeactivated.answers⟩

theorem patchReportStatus_keepsQuestions {id revision : ℕ} {status : ReportStatus}
    (h : patchReportStatus env now db actor header id revision status = .ok (db', detection)) :
    db.KeepsQuestions db' := by
  simp only [patchReportStatus, bind_ok, require_ok] at h
  obtain ⟨-, -, r, -, -, -, -, -, -, -, h⟩ := h
  split_ifs at h
  · obtain ⟨rfl, -⟩ := Prod.mk.inj (pure_ok.mp h)
    have hdeactivated := @deactivateReportObservation_keepsQuestions env now
      (db.storeReport id ({ r with status := status }.touch now)) id
      ({ r with status := status }.touch now) "source_report_invalid"
    exact ⟨hdeactivated.questions, hdeactivated.answers⟩
  · simp only [bind_ok, Prod.exists, pure_ok, Prod.mk.injEq] at h
    obtain ⟨m, d, hm, rfl, -⟩ := h
    have hobserved := processReportObservation_keepsQuestions hm
    exact ⟨hobserved.questions, hobserved.answers⟩
  · obtain ⟨rfl, -⟩ := Prod.mk.inj (pure_ok.mp h)
    exact ⟨rfl, rfl⟩

theorem postReport_keepsQuestions {incident : Ref} {payload : ReportCreate}
    {refinement : Result (Option Priority)} {contact : Result Unit}
    (h : postReport env now db actor header incident payload refinement contact = .ok (db', detection)) :
    db.KeepsQuestions db' := by
  simp only [postReport, bind_ok, Prod.exists] at h
  obtain ⟨i, row, -, -, -, m, id, r, hm, h⟩ := h
  simp only [createReport, bind_ok, pure_ok, Prod.exists, Prod.mk.injEq] at hm
  obtain ⟨-, -, ai, -, -, -, a, -, attachments, b, -, rfl, rfl, rfl⟩ := hm
  have hobserved := processReportObservation_keepsQuestions h
  exact ⟨hobserved.questions, hobserved.answers⟩

theorem runBlindSpotJob_keepsQuestions {job : Id} (h : runBlindSpotJob env now db job = .ok db') :
    db.KeepsQuestions db' := by
  simp only [runBlindSpotJob, bind_ok] at h
  obtain ⟨j, -, -, -, h⟩ := h
  split_ifs at h
  · exact pure_ok.mp h ▸ ⟨rfl, rfl⟩
  · split at h
    · exact pure_ok.mp h ▸ ⟨rfl, rfl⟩
    · exact absurd h throw_ok

end Frames

theorem handle_keepsQuestions {env : Env} {db : Db} {op : Op} {o : Outcome}
    (h : handle env db op = .ok o) (hop : op.call.writesQuestions = false) : db.KeepsQuestions o.db := by
  obtain ⟨now, actor, header, call⟩ := op
  have hstore : ∀ {r : Result Store}, (Outcome.ofStore db <$> r) = .ok o → db.KeepsQuestions o.db := by
    intro r h
    obtain ⟨s, -, rfl⟩ := map_ok.mp h
    exact ⟨rfl, rfl⟩
  cases call with
  | createQuestion => exact nomatch hop
  | publishQuestion => exact nomatch hop
  | closeQuestion => exact nomatch hop
  | putMyAnswer => exact nomatch hop
  | postReport =>
    obtain ⟨r, hr, rfl⟩ := map_ok.mp h
    exact postReport_keepsQuestions hr
  | patchReport =>
    obtain ⟨r, hr, rfl⟩ := map_ok.mp h
    exact patchReport_keepsQuestions hr
  | deleteReport =>
    obtain ⟨r, hr, rfl⟩ := map_ok.mp h
    exact deleteReport_keepsQuestions hr
  | patchReportStatus =>
    obtain ⟨r, hr, rfl⟩ := map_ok.mp h
    exact patchReportStatus_keepsQuestions hr
  | patchReportPriority =>
    obtain ⟨r, hr, rfl⟩ := map_ok.mp h
    simp only [patchReportPriority, bind_ok, pure_ok] at hr
    obtain ⟨-, -, r, -, -, -, ai, -, rfl⟩ := hr
    exact ⟨rfl, rfl⟩
  | uploads =>
    rw [handle, pure_ok] at h
    exact h ▸ ⟨rfl, rfl⟩
  | createBlindSpot =>
    obtain ⟨r, hr, rfl⟩ := map_ok.mp h
    simp only [createBlindSpot, bind_ok, pure_ok, Prod.exists] at hr
    obtain ⟨-, -, -, -, i, -, -, rfl⟩ := hr
    exact ⟨rfl, rfl⟩
  | createFragment =>
    obtain ⟨r, hr, rfl⟩ := map_ok.mp h
    simp only [createFragment, bind_ok, pure_ok, Prod.exists] at hr
    obtain ⟨-, -, -, -, i, -, -, d, -, rfl⟩ := hr
    exact ⟨rfl, rfl⟩
  | createConflict => exact hstore h
  | appendConflictEvidence => exact hstore h
  | reopenConflict => exact hstore h
  | submitConflictDecision => exact hstore h
  | requestAnalysis =>
    obtain ⟨r, hr, rfl⟩ := map_ok.mp h
    simp only [requestAnalysis, bind_ok, pure_ok, Prod.exists] at hr
    obtain ⟨-, -, id, x, -, -, -, -, -, s, jobs, a, ready, -, -, -, rfl⟩ := hr
    exact ⟨rfl, rfl⟩
  | startAnalysis => exact hstore h
  | completeAnalysis => exact hstore h
  | failAnalysis => exact hstore h
  | retryAnalysis =>
    obtain ⟨r, hr, rfl⟩ := map_ok.mp h
    simp only [retryAnalysis, bind_ok, pure_ok] at hr
    obtain ⟨a, -, -, -, -, -, -, -, -, -, rfl⟩ := hr
    exact ⟨rfl, rfl⟩
  | runBlindSpotJob =>
    obtain ⟨r, hr, rfl⟩ := map_ok.mp h
    exact runBlindSpotJob_keepsQuestions hr

/-! ## Questions and answers -/

section Questions
variable {env : Env} {now : Time} {db db' : Db} {actor : Actor} {header : Option Ref}

theorem changeQuestionStatus_spec {id revision : ℕ} {target : QuestionStatus}
    (h : changeQuestionStatus now db actor header id revision target = .ok db') :
    ∃ q, db.questions.get id = some q ∧ db'.answers = db.answers ∧
      db'.questions = db.questions.modify id fun _ =>
        { q with status := target, revision := q.revision + 1, updatedAt := now } := by
  simp only [changeQuestionStatus, bind_ok, found_ok, pure_ok] at h
  obtain ⟨-, -, q, hq, -, -, -, -, -, -, i, -, rfl⟩ := h
  exact ⟨q, hq, rfl, rfl⟩

theorem agree_questions (db : Db) (s : Store) (questionId fragmentId : Id) (admitted : Admitted)
    (consensus : Option String) (count : ℕ) (conflictId : Option Id) :
    (agree now { db with toStore := s } questionId fragmentId admitted consensus count
        conflictId).db.answers = db.answers ∧
      db.questions.Grows (·.revision) (agree now { db with toStore := s } questionId fragmentId admitted
        consensus count conflictId).db.questions := by
  unfold agree
  dsimp only
  by_cases hreached : consensus.isSome = true ∧ admitted.blind.minValidAnswers ≤ count
  · rw [if_pos hreached]
    exact ⟨rfl, .refl _⟩
  · rw [if_neg hreached]
    by_cases hresolved : admitted.blind.status = .resolved
    · rw [if_pos hresolved]
      exact ⟨rfl, .modify _ fun q _ => Nat.le_succ q.revision⟩
    · rw [if_neg hresolved]
      exact ⟨rfl, .refl _⟩

theorem judgeAnswer_questions {questionId fragmentId : Id} {admitted : Admitted} {created : Bool}
    {v : Verdict} (h : judgeAnswer env now db questionId fragmentId admitted created = .ok v) :
    v.db.answers = db.answers ∧ db.questions.Grows (·.revision) v.db.questions := by
  unfold judgeAnswer at h
  generalize validAnswerConsensus env.text db.answers questionId = consensus at h
  obtain ⟨value, count, values⟩ := consensus
  dsimp only at h
  split_ifs at h
  · simp only [disagree, bind_ok, pure_ok] at h
    obtain ⟨d, -, rfl⟩ := h
    exact ⟨rfl, .refl _⟩
  · simp only [pure_bind, pure_ok] at h
    exact h ▸ agree_questions db db.toStore questionId fragmentId admitted value count none
  · simp only [bind_ok, pure_ok, Prod.exists] at h
    obtain ⟨s, conflictId, -, rfl⟩ := h
    exact agree_questions db s questionId fragmentId admitted value count conflictId

/-- The answer is a new one, or the next version of the one there was. -/
inductive AnswerWrite (answers answers' : Table DirectedAnswer) (questionId deviceId : Id) : Prop
  | first {a : DirectedAnswer} : answers.find (isAnswerOf questionId deviceId) = none →
      isAnswerOf questionId deviceId a = true → 0 < a.revision → answers' = answers.insert a →
      AnswerWrite answers answers' questionId deviceId
  | next {id : Id} {a b : DirectedAnswer} :
      answers.find (isAnswerOf questionId deviceId) = some (id, a) → b.questionId = a.questionId →
      b.deviceId = a.deviceId → a.revision < b.revision → answers' = answers.modify id (fun _ => b) →
      AnswerWrite answers answers' questionId deviceId

theorem storeAnswer_writes {answers : Table DirectedAnswer} {questionId deviceId : Id}
    {payload : DirectedAnswerPut} {admitted : Admitted} {stored : StoredAnswer}
    (h : storeAnswer now answers questionId deviceId payload admitted = .ok stored) :
    AnswerWrite answers stored.answers questionId deviceId := by
  unfold storeAnswer at h
  split at h
  · next hnone =>
    simp only [bind_ok, pure_ok] at h
    obtain ⟨-, -, rfl⟩ := h
    refine .first hnone ?_ Nat.one_pos rfl
    simp [isAnswerOf, writeAnswer, firstAnswer]
  · next id a hfind =>
    simp only [bind_ok, pure_ok] at h
    obtain ⟨-, -, rfl⟩ := h
    exact .next (b := writeAnswer now payload admitted { a with revision := a.revision + 1 }) hfind rfl rfl
      (Nat.lt_succ_self _) rfl

theorem putMyAnswer_questions {questionId : Id} {payload : DirectedAnswerPut} {o : AnswerOutcome}
    (h : putMyAnswer env now db actor header questionId payload = .ok o) :
    AnswerWrite db.answers o.db.answers questionId actor.subjectId ∧
      db.questions.Grows (·.revision) o.db.questions := by
  simp only [putMyAnswer, bind_ok, pure_ok] at h
  obtain ⟨admitted, -, stored, hstored, attachments, -, v, hv, f, -, rfl⟩ := h
  obtain ⟨hanswers, hquestions⟩ := judgeAnswer_questions hv
  have hprojected : v.db.KeepsQuestions
      (projectVerdict env now v admitted.question.blindSpotId (upsertAnswerFragment now db.fragments
        stored.id payload admitted).2 f) := by
    unfold projectVerdict
    dsimp only
    split <;> exact ⟨rfl, rfl⟩
  have hannounced : ∀ m : Db, m.KeepsQuestions (announceAnswer now m questionId actor.subjectId stored
      (upsertAnswerFragment now db.fragments stored.id payload admitted).2 f admitted v) := by
    intro m
    unfold announceAnswer
    dsimp only
    cases v.changed <;> exact ⟨rfl, rfl⟩
  have hkept := hprojected.trans (hannounced _)
  exact ⟨(hkept.answers.trans hanswers) ▸ storeAnswer_writes hstored, hkept.questions ▸ hquestions⟩

section Answers
variable {answers answers' : Table DirectedAnswer} {questionId deviceId : Id}

def answerRevision (answers : Table DirectedAnswer) (questionId deviceId : Id) : ℕ :=
  (answers.find (isAnswerOf questionId deviceId)).elim 0 (·.2.revision)

theorem AnswerWrite.revision_le (h : AnswerWrite answers answers' questionId deviceId) (q d : Id) :
    answerRevision answers q d ≤ answerRevision answers' q d := by
  unfold answerRevision
  cases h with
  | first hnone hof hpos heq =>
    rw [heq, Table.find_insert]
    cases answers.find (isAnswerOf q d) with
    | none => exact Nat.zero_le _
    | some row => exact le_rfl
  | @next id a b hfind hquestion hdevice hlt heq =>
    obtain ⟨hget, -⟩ := Table.find_some hfind
    have hsame : ∀ x, answers.get id = some x → isAnswerOf q d b = isAnswerOf q d x := by
      intro x hx
      obtain rfl := Option.some.inj (hget.symm.trans hx)
      rw [isAnswerOf, isAnswerOf, hquestion, hdevice]
    rw [heq, Table.find_modify hsame]
    cases hrow : answers.find (isAnswerOf q d) with
    | none => exact Nat.zero_le _
    | some row =>
      obtain ⟨i, x⟩ := row
      obtain ⟨hx, -⟩ := Table.find_some hrow
      rw [Option.map_some, Option.elim_some, Option.elim_some]
      dsimp only
      split_ifs with hi
      · subst hi
        obtain rfl := Option.some.inj (hget.symm.trans hx)
        exact hlt.le
      · exact le_rfl

theorem AnswerWrite.revision_lt (h : AnswerWrite answers answers' questionId deviceId) :
    answerRevision answers questionId deviceId < answerRevision answers' questionId deviceId := by
  unfold answerRevision
  cases h with
  | first hnone hof hpos heq =>
    rw [heq, Table.find_insert, hnone, if_pos hof]
    exact hpos
  | @next id a b hfind hquestion hdevice hlt heq =>
    obtain ⟨hget, -⟩ := Table.find_some hfind
    have hsame : ∀ x, answers.get id = some x →
        isAnswerOf questionId deviceId b = isAnswerOf questionId deviceId x := by
      intro x hx
      obtain rfl := Option.some.inj (hget.symm.trans hx)
      rw [isAnswerOf, isAnswerOf, hquestion, hdevice]
    rw [heq, Table.find_modify hsame, hfind, Option.map_some, Option.elim_some, Option.elim_some,
      if_pos rfl]
    exact hlt

end Answers
end Questions

/-! ## Facts -/

namespace Facts

/-- No fact is lost, none changes its key, and no revision falls. -/
def Rises (a b : Facts) : Prop :=
  ∀ id r, a.records.get id = some r → ∃ r', b.records.get id = some r' ∧
    r'.incidentId = r.incidentId ∧ r'.factKey = r.factKey ∧ r.currentRevision ≤ r'.currentRevision

variable {a b c : Facts}

theorem Rises.refl (a : Facts) : a.Rises a := fun _ r hr => ⟨r, hr, rfl, rfl, le_rfl⟩

theorem Rises.trans (h : a.Rises b) (k : b.Rises c) : a.Rises c := by
  intro id r hr
  obtain ⟨s, hs, hincident, hkey, hle⟩ := h id r hr
  obtain ⟨t, ht, hincident', hkey', hle'⟩ := k id s hs
  exact ⟨t, ht, hincident'.trans hincident, hkey'.trans hkey, hle.trans hle'⟩

theorem appendVersion_rises {id : Id} {record : FactRecord} (now : Time) (draft : VersionDraft)
    (h : a.records.get id = some record) : a.Rises (a.appendVersion now id record draft) := by
  intro j r hr
  by_cases hj : j = id
  · subst hj
    obtain rfl := Option.some.inj (h.symm.trans hr)
    exact ⟨_, get_appendRecord_self now draft hr, rfl, rfl, Nat.le_succ _⟩
  · exact ⟨r, (get_appendRecord_of_ne now draft hj).trans hr, rfl, rfl, le_rfl⟩

theorem Rises.lookup_le (h : a.Rises b) (hb : b.WellFormed) (incidentId : Id) (factKey : String) :
    (a.lookup incidentId factKey).elim 0 (·.2.currentRevision) ≤
      (b.lookup incidentId factKey).elim 0 (·.2.currentRevision) := by
  cases hrow : a.lookup incidentId factKey with
  | none => exact Nat.zero_le _
  | some row =>
    obtain ⟨id, r⟩ := row
    obtain ⟨hr, rfl, rfl⟩ := lookup_some hrow
    obtain ⟨r', hr', hincident, hkey, hle⟩ := h id r hr
    have hlookup := hb.lookup_eq hr'
    rw [hincident, hkey] at hlookup
    rw [hlookup]
    exact hle

end Facts

theorem FactBoard.Reviewed.rises {a b : FactBoard} (h : a.Reviewed b) : a.facts.Rises b.facts := by
  induction h with
  | refl => exact .refl _
  | review now conflictId conflict reason _ hlookup _ ih =>
    exact ih.trans (Facts.appendVersion_rises now _ (Facts.lookup_some hlookup).1)
  | silent _ _ ih => exact ih

namespace Decision
variable {env : Env} {now : Time} {s t : Store} {id : Id} {payload : DecisionRequest} {x : ConflictCase}
  {ready : Facts} {factId : Id} {record : FactRecord} {draft : VersionDraft}

theorem rises (h : Decision env now s t id payload x ready factId record draft) :
    s.facts.Rises t.facts := by
  have hready : s.facts.Rises ready := by
    intro j r hr
    by_cases hj : j = factId
    · subst hj
      rcases h.fact.former with hnone | hsome
      · exact absurd (hnone.symm.trans hr) nofun
      · obtain rfl := Option.some.inj (hsome.symm.trans hr)
        exact ⟨_, h.fact.stored, rfl, rfl, le_rfl⟩
    · exact ⟨r, (h.fact.others j r hj).mpr hr, rfl, rfl, le_rfl⟩
  rw [h.facts]
  exact hready.trans (Facts.appendVersion_rises now draft h.fact.stored)

/-- The decided fact is at the revision after the expected one. -/
theorem lookup (h : Decision env now s t id payload x ready factId record draft)
    (hwf : s.facts.WellFormed) :
    (t.facts.lookup x.incidentId x.factKey).elim 0 (·.2.currentRevision) =
      payload.expectedFactRevision + 1 := by
  have hget : t.facts.records.get factId = some (ready.mirror now record draft record) := by
    rw [h.facts]
    exact Facts.get_appendRecord_self now draft h.fact.stored
  have hlookup := (h.wellFormed hwf).lookup_eq hget
  have hkey : (ready.mirror now record draft record).incidentId = x.incidentId ∧
      (ready.mirror now record draft record).factKey = x.factKey := h.fact.key
  rw [hkey.1, hkey.2] at hlookup
  rw [hlookup, ← h.fact.expected]
  rfl

end Decision

theorem Effect.factsRise {env : Env} {db : Db} {op : Op} {o : Outcome} (h : Effect env db op o) :
    db.facts.Rises o.db.facts := by
  have hrestated : ∀ {id status}, Restated db.toStore o.db.toStore id status →
      db.facts.Rises o.db.facts := fun hr => hr.facts ▸ .refl _
  cases h with
  | worked hw _ _ _ => exact hw.board.rises
  | decided _ hd _ _ => exact hd.rises
  | requested _ hr _ _ =>
    obtain ⟨status, -, hr⟩ := hr.status
    exact hrestated hr
  | analysed ha _ _ =>
    cases ha with
    | quiet k => exact k.facts ▸ .refl _
    | answered _ _ _ _ _ hr _ => exact hrestated hr
    | released _ _ hr _ => exact hrestated hr

/-! ## Every operation -/

section Operations
variable {env : Env} {now : Time} {db db' : Db} {op : Op} {o : Outcome} {resource : Resource} {n : ℕ}

theorem RevisionStep.grows (h : RevisionStep db db') : db.reports.Grows (·.revision) db'.reports := by
  cases h with
  | kept hreports => exact hreports ▸ .refl _
  | created _ _ hreports => exact hreports ▸ .insert _ _
  | @revised id r r' v hget hnext _ hreports =>
    rw [hreports]
    refine .modify _ fun a ha => ?_
    obtain rfl := Option.some.inj (hget.symm.trans ha)
    exact hnext ▸ Nat.le_succ _

theorem handle_questions (h : handle env db op = .ok o) :
    db.questions.Grows (·.revision) o.db.questions ∧
      ∀ q d, answerRevision db.answers q d ≤ answerRevision o.db.answers q d := by
  cases hwrites : op.call.writesQuestions with
  | false =>
    have hkept := handle_keepsQuestions h hwrites
    rw [hkept.questions, hkept.answers]
    exact ⟨.refl _, fun _ _ => le_rfl⟩
  | true =>
    obtain ⟨now, actor, header, call⟩ := op
    have hchanged {id revision : ℕ} {target : QuestionStatus} {m : Db}
        (h : changeQuestionStatus now db actor header id revision target = .ok m) :
        db.questions.Grows (·.revision) m.questions ∧
          ∀ q d, answerRevision db.answers q d ≤ answerRevision m.answers q d := by
      obtain ⟨q, hq, hanswers, hquestions⟩ := changeQuestionStatus_spec h
      rw [hquestions, hanswers]
      refine ⟨.modify _ fun a ha => ?_, fun _ _ => le_rfl⟩
      obtain rfl := Option.some.inj (hq.symm.trans ha)
      exact Nat.le_succ _
    cases call with
    | createQuestion =>
      obtain ⟨m, hm, rfl⟩ := map_ok.mp h
      simp only [createQuestion, bind_ok, pure_ok, Prod.exists] at hm
      obtain ⟨-, -, -, -, i, -, -, -, -, -, -, -, -, rfl⟩ := hm
      exact ⟨.insert _ _, fun _ _ => le_rfl⟩
    | publishQuestion =>
      obtain ⟨m, hm, rfl⟩ := map_ok.mp h
      exact hchanged hm
    | closeQuestion =>
      obtain ⟨m, hm, rfl⟩ := map_ok.mp h
      exact hchanged hm
    | putMyAnswer =>
      obtain ⟨m, hm, rfl⟩ := map_ok.mp h
      obtain ⟨hwrite, hquestions⟩ := putMyAnswer_questions hm
      exact ⟨hquestions, hwrite.revision_le⟩
    | _ => cases hwrites

/-- No operation takes a revision back. -/
theorem transact_revision_le (h : transact env db op = .ok o) (hs : db.toStore.Sound)
    (resource : Resource) : db.revisionOf resource ≤ o.db.revisionOf resource := by
  cases resource with
  | report id => exact ((handle_reportChange h).revisionStep.grows).elim_le id
  | question id => exact (handle_questions h).1.elim_le id
  | answer questionId deviceId => exact (handle_questions h).2 questionId deviceId
  | conflict id =>
    have hguarded := Store.evidenceGuarded_iff.mp (transact_effect h hs).evidenceGuarded
    have hgrows : db.cases.Grows (·.revision) o.db.cases := by
      intro c x hx
      obtain ⟨y, hy, hle, -⟩ := hguarded c x hx
      exact ⟨y, hy, hle⟩
    exact hgrows.elim_le id
  | fact incidentId factKey =>
    exact (transact_effect h hs).factsRise.lookup_le (transact_sound h hs).facts incidentId factKey

theorem Db.Revised.revision_lt {actor : Actor} {id : Id} {r r' : Report} {tombstone : Dict}
    (h : db.Revised db' now actor id r r' tombstone) (hnext : r'.revision = r.revision + 1) :
    db.revisionOf (.report id) < db'.revisionOf (.report id) := by
  have hlt : r.revision < r'.revision := by omega
  change _ < (db'.reports.get id).elim 0 (·.revision)
  rw [h.reports]
  exact Table.elim_modify_lt h.stored hlt

theorem changeQuestionStatus_revision_lt {actor : Actor} {header : Option Ref} {id revision : ℕ}
    {target : QuestionStatus} (h : changeQuestionStatus now db actor header id revision target = .ok db') :
    db.revisionOf (.question id) < db'.revisionOf (.question id) := by
  obtain ⟨q, hq, -, hquestions⟩ := changeQuestionStatus_spec h
  change _ < (db'.questions.get id).elim 0 (·.revision)
  rw [hquestions]
  exact Table.elim_modify_lt hq (Nat.lt_succ_self _)

theorem reopenCase_cases (env : Env) (now : Time) (s : Store) (id : Id) (x : ConflictCase)
    (reason : String) : (reopenCase env now s id x reason).cases = s.cases.modify id reopen := by
  unfold reopenCase
  dsimp only
  split <;> rfl

/-- A request that is accepted for a revision of a resource leaves that revision behind. -/
theorem transact_revision_lt (h : transact env db op = .ok o) (hs : db.toStore.Sound)
    (hquotes : Quotes db op.actor op.call resource n) :
    db.revisionOf resource < o.db.revisionOf resource := by
  obtain ⟨now, actor, header, call⟩ := op
  cases hquotes with
  | patchReport =>
    obtain ⟨m, hm, rfl⟩ := map_ok.mp h
    obtain ⟨r, a, attachments, b, ai, -, ha, hb, -, hrevised⟩ := patchReport_revised hm
    have hlife := (applyTo_sameLife ha).trans (rebind_sameLife hb)
    exact hrevised.revision_lt (congrArg (· + 1) hlife.revision)
  | deleteReport =>
    obtain ⟨m, hm, rfl⟩ := map_ok.mp h
    obtain ⟨r, hrevised⟩ := deleteReport_revised hm
    exact hrevised.revision_lt rfl
  | patchReportStatus =>
    obtain ⟨m, hm, rfl⟩ := map_ok.mp h
    obtain ⟨r, hrevised⟩ := patchReportStatus_revised hm
    exact hrevised.revision_lt rfl
  | patchReportPriority =>
    obtain ⟨m, hm, rfl⟩ := map_ok.mp h
    obtain ⟨r, ai, -, -, hrevised⟩ := patchReportPriority_revised hm
    exact hrevised.revision_lt rfl
  | publishQuestion =>
    obtain ⟨m, hm, rfl⟩ := map_ok.mp h
    exact @changeQuestionStatus_revision_lt now db.begin m actor header _ n _ hm
  | closeQuestion =>
    obtain ⟨m, hm, rfl⟩ := map_ok.mp h
    exact @changeQuestionStatus_revision_lt now db.begin m actor header _ n _ hm
  | putMyAnswer =>
    obtain ⟨m, hm, rfl⟩ := map_ok.mp h
    exact (putMyAnswer_questions hm).1.revision_lt
  | appendConflictEvidence hcase =>
    obtain ⟨t, ht, rfl⟩ := map_ok.mp h
    simp only [appendConflictEvidence, bind_ok, pure_ok, Prod.exists] at ht
    obtain ⟨-, -, id, x, hx, -, -, -, -, i, row, -, u, added, hadd, rfl⟩ := ht
    obtain ⟨rfl, rfl⟩ := Prod.mk.inj (Except.ok.inj (hcase.symm.trans hx))
    simp only [appendEvidence, bind_ok, pure_ok, Prod.exists, Prod.mk.injEq] at hadd
    obtain ⟨evidence, ids, -, rfl, rfl⟩ := hadd
    exact Table.elim_modify_lt (f := bumpRevision) (getCase_get hx) (Nat.lt_succ_self _)
  | @reopenConflict _ _ reason id x hcase =>
    obtain ⟨t, ht, rfl⟩ := map_ok.mp h
    simp only [reopenConflict, bind_ok, pure_ok, Prod.exists] at ht
    obtain ⟨-, -, i, y, hy, -, -, -, -, -, -, -, -, -, rfl⟩ := ht
    obtain ⟨rfl, rfl⟩ := Prod.mk.inj (Except.ok.inj (hcase.symm.trans hy))
    change _ < ((reopenCase env now db.begin.toStore id x reason).cases.get id).elim 0 (·.revision)
    rw [reopenCase_cases]
    exact Table.elim_modify_lt (getCase_get hcase) (Nat.lt_succ_self _)
  | @submitConflictDecision _ _ id _ hcase =>
    obtain ⟨t, ht, rfl⟩ := map_ok.mp h
    obtain ⟨i, x, hx, y, ready, factId, record, draft, hdecision⟩ := submitConflictDecision_spec ht
    obtain ⟨rfl, rfl⟩ := Prod.mk.inj (Except.ok.inj (hcase.symm.trans hx))
    obtain ⟨decidedBy, resolution, hcases⟩ := hdecision.cases
    change _ < (t.cases.get id).elim 0 (·.revision)
    rw [hcases]
    exact Table.elim_modify_lt hdecision.case (Nat.lt_succ_self _)
  | @expectedFact _ payload _ x hcase =>
    obtain ⟨t, ht, rfl⟩ := map_ok.mp h
    obtain ⟨i, y, hy, z, ready, factId, record, draft, hdecision⟩ := submitConflictDecision_spec ht
    obtain ⟨rfl, rfl⟩ := Prod.mk.inj (Except.ok.inj (hcase.symm.trans hy))
    obtain rfl := Option.some.inj (hdecision.case.symm.trans (getCase_get hcase))
    have hexpected := (transact_compares (.expectedFact hcase)).accepted h
    rw [← hexpected]
    change _ < (t.facts.lookup _ _).elim 0 (·.2.currentRevision)
    rw [hdecision.lookup hs.facts]
    exact Nat.lt_succ_self _

end Operations

end CrisisMosaic
