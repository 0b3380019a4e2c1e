import CrisisMosaic.OptimisticLock
import CrisisMosaic.ReportRevisions
import CrisisMosaic.Relational.Compares

/-!
# The revisions that requests quote

A report, a question, an answer, a case and a fact each have a revision. A request that changes one
of them quotes the revision its caller has seen, and is compared with the present one before it
writes; a decision quotes the revision of its case and that of the fact it writes to.
-/

namespace CrisisMosaic
open Relational Questions

inductive Resource
  | report (id : Id)
  | question (id : Id)
  | answer (questionId deviceId : Id)
  | conflict (id : Id)
  | fact (incidentId : Id) (factKey : String)
  deriving DecidableEq

/-- The present revision of a resource; what there is not is at revision 0. -/
def Db.revisionOf (db : Db) : Resource → ℕ
  | .report id => (db.reports.get id).elim 0 (·.revision)
  | .question id => (db.questions.get id).elim 0 (·.revision)
  | .answer questionId deviceId =>
      (db.answers.find (isAnswerOf questionId deviceId)).elim 0 (·.2.revision)
  | .conflict id => (db.cases.get id).elim 0 (·.revision)
  | .fact incidentId factKey => (db.facts.lookup incidentId factKey).elim 0 (·.2.currentRevision)

/-- The request quotes this revision of this resource. -/
inductive Quotes (db : Db) (actor : Actor) : Call → Resource → ℕ → Prop
  | patchReport {id : Id} {payload : ReportPatch} {refinement : Result (Option Priority)} :
      Quotes db actor (.patchReport id payload refinement) (.report id) payload.revision
  | deleteReport {id revision : ℕ} :
      Quotes db actor (.deleteReport id revision) (.report id) revision
  | patchReportStatus {id revision : ℕ} {status : ReportStatus} :
      Quotes db actor (.patchReportStatus id revision status) (.report id) revision
  | patchReportPriority {id revision : ℕ} {priority : Option Priority}
      {refinement : Result (Option Priority)} :
      Quotes db actor (.patchReportPriority id revision priority refinement) (.report id) revision
  | publishQuestion {id revision : ℕ} :
      Quotes db actor (.publishQuestion id revision) (.question id) revision
  | closeQuestion {id revision : ℕ} :
      Quotes db actor (.closeQuestion id revision) (.question id) revision
  | putMyAnswer {id : Id} {payload : DirectedAnswerPut} :
      Quotes db actor (.putMyAnswer id payload) (.answer id actor.subjectId) payload.revision
  | appendConflictEvidence {conflict : Ref} {revision : ℕ} {references : List EvidenceReference}
      {id : Id} {x : ConflictCase} : getCase db.cases conflict = .ok (id, x) →
      Quotes db actor (.appendConflictEvidence conflict revision references) (.conflict id) revision
  | reopenConflict {conflict : Ref} {revision : ℕ} {reason : String} {id : Id} {x : ConflictCase} :
      getCase db.cases conflict = .ok (id, x) →
      Quotes db actor (.reopenConflict conflict revision reason) (.conflict id) revision
  | submitConflictDecision {conflict : Ref} {payload : DecisionRequest} {id : Id} {x : ConflictCase} :
      getCase db.cases conflict = .ok (id, x) →
      Quotes db actor (.submitConflictDecision conflict payload) (.conflict id) payload.revision
  | expectedFact {conflict : Ref} {payload : DecisionRequest} {id : Id} {x : ConflictCase} :
      getCase db.cases conflict = .ok (id, x) →
      Quotes db actor (.submitConflictDecision conflict payload) (.fact x.incidentId x.factKey)
        payload.expectedFactRevision

def DecisionRequest.quoting (p : DecisionRequest) (n : ℕ) : Resource → DecisionRequest
  | .fact _ _ => { p with expectedFactRevision := n }
  | _ => { p with revision := n }

/-- The same request, with another revision of the resource. -/
def Call.quoting (c : Call) (resource : Resource) (n : ℕ) : Call :=
  match c with
  | .patchReport id payload refinement => .patchReport id { payload with revision := n } refinement
  | .deleteReport id _ => .deleteReport id n
  | .patchReportStatus id _ status => .patchReportStatus id n status
  | .patchReportPriority id _ priority refinement => .patchReportPriority id n priority refinement
  | .publishQuestion id _ => .publishQuestion id n
  | .closeQuestion id _ => .closeQuestion id n
  | .putMyAnswer id payload => .putMyAnswer id { payload with revision := n }
  | .appendConflictEvidence conflict _ references => .appendConflictEvidence conflict n references
  | .reopenConflict conflict _ reason => .reopenConflict conflict n reason
  | .submitConflictDecision conflict payload =>
      .submitConflictDecision conflict (payload.quoting n resource)
  | c => c

def Op.quoting (op : Op) (resource : Resource) (n : ℕ) : Op :=
  { op with call := op.call.quoting resource n }

def ApiError.IsRevisionConflict (e : ApiError) : Prop :=
  e.statusCode = 409 ∧ (e.code = "REVISION_CONFLICT" ∨ e.code = "FACT_REVISION_CONFLICT")

instance (e : ApiError) : Decidable e.IsRevisionConflict := inferInstanceAs (Decidable (_ ∧ _))

theorem Quotes.quoting_self {db : Db} {actor : Actor} {c : Call} {resource : Resource} {n : ℕ}
    (h : Quotes db actor c resource n) : c.quoting resource n = c := by
  cases h <;> rfl

/-! ## The comparison -/

section Comparison
variable {env : Env} {now : Time} {db : Db} {s : Store} {actor : Actor} {header : Option Ref}

theorem checkRequest_compares (db : Db) (actor : Actor) (header : Option Ref) (report : Report) :
    Compares ApiError.IsRevisionConflict report.revision fun n =>
      checkRequest db actor header report n := by
  unfold checkRequest
  exact .bind fun _ _ => .bind fun _ _ => .of_require (fun _ h => h.symm) fun _ => ⟨rfl, Or.inl rfl⟩

theorem revisionOf_report {id : Id} {r : Report} (h : db.reports.get id = some r) :
    db.revisionOf (.report id) = r.revision := by
  rw [Db.revisionOf, h, Option.elim_some]

theorem getReport_get {reports : Table Report} {id : Id} {r : Report}
    (h : getReport reports id = .ok r) : reports.get id = some r := by
  simp only [getReport, bind_ok, found_ok, pure_ok] at h
  obtain ⟨a, ha, -, -, rfl⟩ := h
  exact ha

theorem openReport_compares (db : Db) (actor : Actor) (header : Option Ref) (id : Id) :
    Compares ApiError.IsRevisionConflict (db.revisionOf (.report id)) fun n =>
      openReport db actor header id n := by
  unfold openReport
  refine .bind fun r hr => .bind fun _ _ => .andThen ?_ _
  rw [revisionOf_report (getReport_get hr)]
  exact checkRequest_compares db actor header r

theorem patchReport_compares (id : Id) (payload : ReportPatch) (refinement : Result (Option Priority)) :
    Compares ApiError.IsRevisionConflict (db.revisionOf (.report id)) fun n =>
      patchReport env now db actor header id { payload with revision := n } refinement := by
  unfold patchReport
  exact .bind fun _ _ => .andThen (openReport_compares db actor header id) _

theorem deleteReport_compares (id : Id) :
    Compares ApiError.IsRevisionConflict (db.revisionOf (.report id)) fun n =>
      deleteReport env now db actor header id n := by
  unfold deleteReport
  refine .bind fun _ _ => .bind fun r hr => .bind fun _ _ => .bind fun _ _ => .andThen ?_ _
  rw [revisionOf_report (getReport_get hr)]
  exact checkRequest_compares db actor header r

theorem patchReportStatus_compares (id : Id) (status : ReportStatus) :
    Compares ApiError.IsRevisionConflict (db.revisionOf (.report id)) fun n =>
      patchReportStatus env now db actor header id n status := by
  unfold patchReportStatus
  exact .bind fun _ _ => .andThen (openReport_compares db actor header id) _

theorem patchReportPriority_compares (id : Id) (priority : Option Priority)
    (refinement : Result (Option Priority)) :
    Compares ApiError.IsRevisionConflict (db.revisionOf (.report id)) fun n =>
      patchReportPriority now db actor header id n priority refinement := by
  unfold patchReportPriority
  exact .bind fun _ _ => .andThen (openReport_compares db actor header id) _

theorem changeQuestionStatus_compares (id : Id) (target : QuestionStatus) :
    Compares ApiError.IsRevisionConflict (db.revisionOf (.question id)) fun n =>
      changeQuestionStatus now db actor header id n target := by
  unfold changeQuestionStatus
  refine .bind fun _ _ => .bind fun q hq => .bind fun _ _ => .andThen ?_ _
  rw [Db.revisionOf, found_ok.mp hq, Option.elim_some]
  exact .of_require (fun _ h => h.symm) fun _ => ⟨rfl, Or.inl rfl⟩

theorem storeAnswer_compares (answers : Table DirectedAnswer) (questionId deviceId : Id)
    (payload : DirectedAnswerPut) (admitted : Admitted) :
    Compares ApiError.IsRevisionConflict
      ((answers.find (isAnswerOf questionId deviceId)).elim 0 (·.2.revision)) fun n =>
      storeAnswer now answers questionId deviceId { payload with revision := n } admitted := by
  unfold storeAnswer
  cases answers.find (isAnswerOf questionId deviceId) with
  | none => exact .andThen (.of_require (fun _ h => h) fun _ => ⟨rfl, Or.inl rfl⟩) _
  | some row => exact .andThen (.of_require (fun _ h => h.symm) fun _ => ⟨rfl, Or.inl rfl⟩) _

theorem putMyAnswer_compares (questionId : Id) (payload : DirectedAnswerPut) :
    Compares ApiError.IsRevisionConflict (db.revisionOf (.answer questionId actor.subjectId)) fun n =>
      putMyAnswer env now db actor header questionId { payload with revision := n } := by
  have hsame : ∀ n, admitAnswer env now db actor header questionId { payload with revision := n } =
      admitAnswer env now db actor header questionId payload := fun _ => rfl
  unfold putMyAnswer
  simp only [hsame]
  exact .bind fun admitted _ => .andThen (storeAnswer_compares db.answers questionId _ payload admitted) _

theorem checkCaseRevision_compares (x : ConflictCase) :
    Compares ApiError.IsRevisionConflict x.revision fun n => checkCaseRevision x n := by
  unfold checkCaseRevision
  exact .of_require (fun _ h => h.symm) fun _ => ⟨rfl, Or.inl rfl⟩

theorem getCase_get {cases : Table ConflictCase} {conflict : Ref} {id : Id} {x : ConflictCase}
    (h : getCase cases conflict = .ok (id, x)) : cases.get id = some x := by
  cases conflict with
  | id i =>
    obtain ⟨y, hy, heq⟩ := Option.map_eq_some_iff.mp (found_ok.mp h)
    obtain ⟨rfl, rfl⟩ := Prod.mk.inj heq
    exact hy
  | name s => exact (Table.find_some (found_ok.mp h)).1

variable {conflict : Ref} {id : Id} {x : ConflictCase}

theorem revisionOf_conflict (h : getCase db.cases conflict = .ok (id, x)) :
    db.revisionOf (.conflict id) = x.revision := by
  rw [Db.revisionOf, getCase_get h, Option.elim_some]

theorem appendConflictEvidence_compares {sources : Sources}
    (h : getCase s.cases conflict = .ok (id, x)) (references : List EvidenceReference) :
    Compares ApiError.IsRevisionConflict x.revision fun n =>
      appendConflictEvidence env now sources s actor header conflict n references := by
  unfold appendConflictEvidence
  refine .bind fun _ _ => .bind fun row hrow => ?_
  obtain rfl := Except.ok.inj (h.symm.trans hrow)
  exact .bind fun _ _ => .andThen (checkCaseRevision_compares x) _

theorem reopenConflict_compares (h : getCase s.cases conflict = .ok (id, x)) (reason : String) :
    Compares ApiError.IsRevisionConflict x.revision fun n =>
      reopenConflict env now s actor header conflict n reason := by
  unfold reopenConflict
  refine .bind fun _ _ => .bind fun row hrow => ?_
  obtain rfl := Except.ok.inj (h.symm.trans hrow)
  exact .bind fun _ _ => .andThen (checkCaseRevision_compares x) _

theorem submitConflictDecision_compares (h : getCase s.cases conflict = .ok (id, x))
    (payload : DecisionRequest) :
    Compares ApiError.IsRevisionConflict x.revision fun n =>
      submitConflictDecision env now s actor header conflict { payload with revision := n } := by
  unfold submitConflictDecision
  refine .bind fun _ _ => .bind fun row hrow => ?_
  obtain rfl := Except.ok.inj (h.symm.trans hrow)
  unfold decideConflict
  refine .bind fun _ _ => .bind fun y hy => .andThen ?_ _
  obtain rfl := Option.some.inj ((getCase_get h).symm.trans (found_ok.mp hy))
  exact .of_require (fun _ h => h.symm) fun _ => ⟨rfl, Or.inl rfl⟩

theorem factForDecision_compares (facts : Facts) (x : ConflictCase) (payload : DecisionRequest) :
    Compares ApiError.IsRevisionConflict
      ((facts.lookup x.incidentId x.factKey).elim 0 (·.2.currentRevision)) fun n =>
      factForDecision now facts x { payload with expectedFactRevision := n } := by
  unfold factForDecision
  cases facts.lookup x.incidentId x.factKey with
  | none => exact .andThen (.of_require (fun _ h => h) fun _ => ⟨rfl, Or.inr rfl⟩) _
  | some row => exact .andThen (.of_require (fun _ h => h.symm) fun _ => ⟨rfl, Or.inr rfl⟩) _

theorem submitConflictDecision_comparesFact (h : getCase s.cases conflict = .ok (id, x))
    (payload : DecisionRequest) :
    Compares ApiError.IsRevisionConflict
      ((s.facts.lookup x.incidentId x.factKey).elim 0 (·.2.currentRevision)) fun n =>
      submitConflictDecision env now s actor header conflict
        { payload with expectedFactRevision := n } := by
  unfold submitConflictDecision
  refine .bind fun _ _ => .bind fun row hrow => ?_
  obtain rfl := Except.ok.inj (h.symm.trans hrow)
  unfold decideConflict
  dsimp only [DecisionRequest.submittedIds]
  refine .bind fun _ _ => .bind fun y hy => ?_
  obtain rfl := Option.some.inj ((getCase_get h).symm.trans (found_ok.mp hy))
  refine .bind_require fun _ => ?_
  refine .bind_require fun _ => ?_
  refine .bind_require fun _ => ?_
  refine .bind fun analysis _ => ?_
  exact .andThen (factForDecision_compares s.facts x payload) _

/-- A request that quotes a revision is compared with the present one. -/
theorem transact_compares {now : Time} {call : Call} {resource : Resource} {n : ℕ}
    (h : Quotes db actor call resource n) :
    Compares ApiError.IsRevisionConflict (db.revisionOf resource) fun m =>
      transact env db (Op.quoting ⟨now, actor, header, call⟩ resource m) := by
  cases h with
  | patchReport => exact .map (@patchReport_compares env now db.begin actor header _ _ _) _
  | deleteReport => exact .map (@deleteReport_compares env now db.begin actor header _) _
  | patchReportStatus => exact .map (@patchReportStatus_compares env now db.begin actor header _ _) _
  | patchReportPriority => exact .map (@patchReportPriority_compares now db.begin actor header _ _ _) _
  | publishQuestion => exact .map (@changeQuestionStatus_compares now db.begin actor header _ _) _
  | closeQuestion => exact .map (@changeQuestionStatus_compares now db.begin actor header _ _) _
  | putMyAnswer => exact .map (@putMyAnswer_compares env now db.begin actor header _ _) _
  | appendConflictEvidence hcase =>
    rw [revisionOf_conflict hcase]
    exact .map (@appendConflictEvidence_compares env now db.begin.toStore actor header _ _ _ _ hcase _) _
  | reopenConflict hcase =>
    rw [revisionOf_conflict hcase]
    exact .map (@reopenConflict_compares env now db.begin.toStore actor header _ _ _ hcase _) _
  | submitConflictDecision hcase =>
    rw [revisionOf_conflict hcase]
    exact .map (@submitConflictDecision_compares env now db.begin.toStore actor header _ _ _ hcase _) _
  | expectedFact hcase =>
    exact .map (@submitConflictDecision_comparesFact env now db.begin.toStore actor header _ _ _ hcase _) _

end Comparison
end CrisisMosaic
