import CrisisMosaic.LedgerSteps
import CrisisMosaic.SettledReports

/-!
# Cases that stay ready

Which accepted operations write to a case that has the status `analysis_ready`
without taking the status away. Everything else leaves the row of a case that is
ready afterwards as it was.
-/

namespace CrisisMosaic
open Relational

/-- A case that stays ready keeps its revision. -/
def KeepsReady (cases cases' : Table ConflictCase) (c : Id) : Prop :=
  ∀ x y, cases.get c = some x → x.status = .analysisReady → cases'.get c = some y →
    y.status = .analysisReady → y.revision = x.revision

namespace KeepsReady
variable {a b : Table ConflictCase} {c d : Id}

theorem of_eq (h : b.get c = a.get c) : KeepsReady a b c := by
  intro x y hx _ hy _
  rw [h, hx] at hy
  rw [Option.some.inj hy]

theorem insert (x : ConflictCase) : KeepsReady a (a.insert x) c := by
  intro y z hy _ hz _
  rw [Table.get_insert_of_some _ hy] at hz
  rw [Option.some.inj hz]

theorem modify {f : ConflictCase → ConflictCase}
    (hf : d = c → ∀ x, a.get c = some x → x.status = .analysisReady → (f x).status ≠ .analysisReady) :
    KeepsReady a (a.modify d f) c := by
  intro x y hx hs hy ht
  by_cases hd : d = c
  · subst hd
    obtain rfl : f x = y := by simpa [hx] using hy
    exact absurd ht (hf rfl x hx hs)
  · rw [Table.get_modify_of_ne _ _ hd] at hy
    rw [Option.some.inj (hx.symm.trans hy)]

end KeepsReady

/-- The contradiction is found for this case, which does not cite all of its fragments yet. -/
def ConflictCall.extends (env : Env) (now : Time) (s : Store) (call : ConflictCall) (c : Id) : Prop :=
  findCandidate env now s call = some c ∧ hasNewSnapshot s c call.fragments = true

/-- The candidate is chosen from the cases and the fragments. -/
theorem findCandidate_congr {env : Env} {now : Time} {s t : Store} {call : ConflictCall}
    (hc : t.cases = s.cases) (hf : t.fragments = s.fragments) :
    findCandidate env now t call = findCandidate env now s call := by
  unfold findCandidate candidateCases candidateFactKeys
  rw [hc, hf]

theorem findOrOpen_keepsReady {env : Env} {now : Time} {sources : Sources} {s t : Store}
    {call : ConflictCall} {id c : Id} {opened : Bool}
    (h : findOrOpenStructuredConflict env now sources s call = .ok (t, id, opened))
    (hc : ¬ call.extends env now s c) : KeepsReady s.cases t.cases c := by
  simp only [findOrOpenStructuredConflict, bind_ok, pure_ok, Prod.exists, Prod.mk.injEq] at h
  obtain ⟨evidence, added, -, rfl, -, -⟩ := h
  rcases openCase_cases env now s call with ⟨hfind, ho⟩ | ⟨d, x, hfind, hx, ⟨hr, ho⟩ | ⟨hr, ho⟩⟩
  · simp only [ho, Bool.false_and, Bool.false_eq_true, if_false]
    exact .insert _
  · simp only [ho, Bool.not_true, Bool.and_false, Bool.false_eq_true, if_false]
    exact .modify fun _ _ _ _ => by simp [reopen]
  · simp only [ho, Bool.not_false, Bool.true_and, Bool.and_true]
    cases hnew : hasNewSnapshot s d call.fragments with
    | true => exact .modify fun hd _ _ _ => absurd ⟨hd ▸ hfind, hd ▸ hnew⟩ hc
    | false => exact .of_eq rfl

/-- A case other than the one the evidence was added to has the same current rows. -/
theorem EvidenceAdded.contested_eq {env : Env} {revision : EvidenceKind → Id → Option ℕ}
    {cited : EvidenceKind → Id → Prop} {a b : Table ConflictEvidence} {c d : Id}
    (h : EvidenceAdded revision cited d a b) (hc : c ≠ d) :
    contested env b c = contested env a c := by
  have hrow : ∀ {o : Option ConflictEvidence} {e : ConflictEvidence}, e.conflictId = c →
      EvidenceChange revision cited d o e → o = some e := by
    intro o e he hchange
    cases hchange with
    | same => rfl
    | revived _ hd | superseded _ hd | added _ hd => exact absurd (he.symm.trans hd) hc
  refine contested_congr fun i e he _ => ⟨fun hb => hrow he (h.rows i e hb), fun ha => ?_⟩
  obtain ⟨e', hb, hchange⟩ := h.get_some ha
  have hsame : e'.conflictId = c := by
    cases hchange with
    | same => exact he
    | revived _ hd | superseded _ hd => exact he
  rw [hb, ← Option.some.inj (hrow hsame hchange)]

section Conditions
variable (env : Env) (db : Db)

/-- The observed report contradicts others, and the contradiction is found for this case. -/
def Op.DetectsFor (op : Op) (c : Id) : Prop :=
  ∃ u call, op.upsert env db = some u ∧ u.changed = true ∧
    detectedCall env u.fragments u.id u.fragment = some call ∧
    findCandidate env op.now (observedStore db u) call = some c

/-- The case loses the evidence of the report, and what is left still contradicts itself. -/
def Op.Weakens (op : Op) (c : Id) : Prop :=
  ∃ k, ((op.upsert env db).bind (·.gone) = some k ∨ (op.dropped env db).map (·.1) = some k) ∧
    CitesNow db.evidence c k ∧ contested env (invalidateFragmentEvidence db.evidence k) c = true

/-- The fragment an operator enters contradicts others, and the contradiction is found for this case. -/
def Op.EntersFor (op : Op) (incident : Ref) (payload : Questions.FragmentCreate) (c : Id) : Prop :=
  ∃ i incidentRow call, getIncident db.feed.incidents incident = .ok (i, incidentRow) ∧
    let f := Questions.operatorFragment op.now i op.actor payload
    let fragments := db.fragments.insert f
    detectedCall env fragments db.fragments.size f = some call ∧
      call.extends env op.now { db.toStore with fragments := fragments } c

open Questions in
/-- The answer is put together with disagreeing ones for this case, or it is a changed answer that
the case cites. -/
def Op.AnswersFor (op : Op) (question : Id) (payload : DirectedAnswerPut) (c : Id) : Prop :=
  ∃ admitted stored, admitAnswer env op.now db op.actor op.header question payload = .ok admitted ∧
    storeAnswer op.now db.answers question op.actor.subjectId payload admitted = .ok stored ∧
    let written := upsertAnswerFragment op.now db.fragments stored.id payload admitted
    let answered := { db with answers := stored.answers, fragments := written.1 }
    if 1 < (validAnswerConsensus env.text stored.answers question).2.2.length then
      (disagreementCall answered question admitted.question.incidentId admitted.blind).extends env
        op.now answered.toStore c
    else stored.created = false ∧
      citingCase answered.toStore admitted.question.incidentId written.2 = some c

/-- The operation revises the case without closing it. -/
def Op.Revises (op : Op) (c : Id) : Prop :=
  match op.call with
  | .appendConflictEvidence conflict _ _ => ∃ x, getCase db.cases conflict = .ok (c, x)
  | .createFragment incident payload => op.EntersFor env db incident payload c
  | .putMyAnswer question payload => op.AnswersFor env db question payload c
  | _ => op.DetectsFor env db c ∨ op.Weakens env db c

end Conditions

section Courses
variable {env : Env} {db : Db} {op : Op} {o : Outcome} {c : Id}

theorem settledStatus_uncontested {evidence : Table ConflictEvidence} {status : CaseStatus}
    (h : contested env evidence c = false) : settledStatus env evidence c status ≠ .analysisReady := by
  unfold settledStatus
  rw [h, Bool.false_or]
  split_ifs with hs
  · intro hr
    simp [hr] at hs
  · simp

/-- A case that is reconciled is not ready unless its evidence contradicts itself. -/
theorem Reconciled.keepsReady {ids : List Id} {s t : Store} (h : Reconciled env ids s t)
    (hs : s.cases.get c = db.cases.get c) (hc : c ∈ ids → contested env s.evidence c = false) :
    KeepsReady db.cases t.cases c := by
  intro x y hx hr hy ht
  by_cases hmem : c ∈ ids
  · obtain ⟨z, hz, hstatus⟩ := h.settled c hmem x (hs.trans hx)
    obtain rfl := Option.some.inj (hy.symm.trans hz)
    exact absurd (hstatus ▸ ht) (settledStatus_uncontested (hc hmem))
  · exact KeepsReady.of_eq ((h.others c hmem).trans hs) x y hx hr hy ht

theorem ReportCourse.keepsReady (h : ReportCourse env db op o) (hd : ¬ op.DetectsFor env db c)
    (hw : ¬ op.Weakens env db c) : KeepsReady db.cases o.db.cases c := by
  have hlost : ∀ gone, ((op.upsert env db).bind (·.gone) = gone ∨ (op.dropped env db).map (·.1) = gone) →
      LosesEvidence db gone c →
      contested env (gone.elim db.evidence (invalidateFragmentEvidence db.evidence)) c = false := by
    rintro gone hgone ⟨k, rfl, hcites, -⟩
    by_contra hcontested
    exact hw ⟨k, hgone, hcites, by simpa using hcontested⟩
  obtain ⟨db', detection⟩ := o
  cases h with
  | @observed u hu hcourse =>
    have hgone : (op.upsert env db).bind (·.gone) = u.gone := by rw [hu, Option.bind_some]
    cases hcourse with
    | unchanged _ hb => exact .of_eq (congrArg (·.get c) hb.cases)
    | undisputed _ hb _ hids hr =>
      refine hr.keepsReady (congrArg (·.get c) hb.cases) fun hmem => ?_
      rw [hb.evidence]
      exact hlost _ (Or.inl hgone) ((hids c).mp hmem)
    | @disputed s m _ d call _ hchanged hb hcall hcalled hids hr =>
      by_cases hc : c = d.conflictId
      · intro x y hx _ _ _
        rcases hcalled.found with hfind | ⟨-, hnew⟩
        · refine absurd ⟨u, call, hu, hchanged, hcall, ?_⟩ hd
          rw [hc, ← hfind]
          exact findCandidate_congr hb.cases.symm hb.fragments.symm
        · rw [hc, hnew, ← hb.cases, Table.get_size] at hx
          exact nomatch hx
      · refine hr.keepsReady ((hcalled.others c hc).trans (congrArg (·.get c) hb.cases)) fun hmem => ?_
        obtain ⟨_, hadded⟩ := hcalled.added
        rw [(addEvidence_added hadded).contested_eq hc, hb.evidence]
        exact hlost _ (Or.inl hgone) (((hids c).mp hmem).resolve_right hc)
  | deactivated _ hcourse _ =>
    generalize hdropped : op.dropped env db = dropped at hcourse
    cases hcourse with
    | absent q => exact .of_eq (congrArg (·.get c) q.cases)
    | @withdrawn k _ _ _ _ hcases _ he hids hr =>
      refine hr.keepsReady (congrArg (·.get c) hcases) fun hmem => ?_
      rw [he]
      exact hlost (some k) (Or.inr (by rw [hdropped]; rfl)) ((hids c).mp hmem)
  | untouched _ q _ => exact .of_eq (congrArg (·.get c) q.cases)

end Courses

section Routes
open Questions
variable {env : Env} {now : Time} {db db' : Db} {s t : Store} {actor : Actor} {header : Option Ref} {c : Id}

theorem createFragment_keepsReady {incident : Ref} {payload : FragmentCreate}
    {detection : Option Detection}
    (h : createFragment env now db actor header incident payload = .ok (db', detection))
    (hc : ¬ Op.EntersFor env db ⟨now, actor, header, .createFragment incident payload⟩ incident payload c) :
    KeepsReady db.cases db'.cases c := by
  simp only [createFragment, bind_ok, pure_ok, Prod.exists, Prod.mk.injEq] at h
  obtain ⟨-, -, -, -, i, row, hi, det, hdet, rfl, -⟩ := h
  have hpublished := fun s => (publishOperatorFragment_quiet env now s i db.fragments.size).cases
  cases det with
  | none => exact .of_eq (congrArg (·.get c) (hpublished _))
  | some d =>
    obtain ⟨call, hcall, hd⟩ := detect_ok hdet
    have hcases := (hpublished _).trans (publishConflict_quiet env now d.after i d).cases
    have hkeeps := findOrOpen_keepsReady (callFindOrOpen_ok hd).2.2
      fun hx : call.extends env now _ c => hc ⟨i, row, call, hi, hcall, hx⟩
    dsimp only
    rw [hcases]
    exact hkeeps

theorem createConflict_keepsReady {sources : Sources} {incident : Ref} {payload : ConflictCreate}
    (h : createConflict env now sources s actor header incident payload = .ok t) :
    KeepsReady s.cases t.cases c := by
  simp only [createConflict, bind_ok, pure_ok, Prod.exists] at h
  obtain ⟨-, -, -, -, i, -, -, -, -, evidence, added, -, rfl⟩ := h
  exact .insert _

theorem appendConflictEvidence_keepsReady {sources : Sources} {conflict : Ref} {revision : ℕ}
    {references : List EvidenceReference}
    (h : appendConflictEvidence env now sources s actor header conflict revision references = .ok t)
    (hc : ∀ x, getCase s.cases conflict ≠ .ok (c, x)) : KeepsReady s.cases t.cases c := by
  simp only [appendConflictEvidence, appendEvidence, bind_ok, pure_ok, Prod.exists, Prod.mk.injEq] at h
  obtain ⟨-, -, id, x, hx, -, -, -, -, -, -, -, m, -, ⟨evidence, -, -, rfl, rfl⟩, rfl⟩ := h
  exact .modify fun hd _ _ _ => absurd (hd ▸ hx) (hc x)

theorem reopenConflict_keepsReady {conflict : Ref} {revision : ℕ} {reason : String}
    (h : reopenConflict env now s actor header conflict revision reason = .ok t) :
    KeepsReady s.cases t.cases c := by
  simp only [reopenConflict, bind_ok, pure_ok, Prod.exists] at h
  obtain ⟨-, -, id, x, -, -, -, -, -, -, -, -, -, -, rfl⟩ := h
  have hcases : (reopenCase env now s id x reason).cases = s.cases.modify id reopen := by
    unfold reopenCase
    dsimp only
    split <;> rfl
  rw [hcases]
  exact .modify fun _ _ _ _ => by simp [reopen]

theorem citeAnswer_keepsReady {sources : Sources} {incidentId fragmentId : Id} {conflictId : Option Id}
    (h : citeAnswer env now sources s incidentId fragmentId = .ok (t, conflictId))
    (hc : citingCase s incidentId fragmentId ≠ some c) : KeepsReady s.cases t.cases c := by
  unfold citeAnswer at h
  split at h
  · rw [pure_ok, Prod.mk.injEq] at h
    exact h.1 ▸ .of_eq rfl
  · next d hd =>
    simp only [appendEvidence, bind_ok, pure_ok, Prod.exists, Prod.mk.injEq] at h
    obtain ⟨x, -, m, -, ⟨evidence, -, -, rfl, -⟩, rfl, -⟩ := h
    exact .modify fun he _ _ _ => absurd (he ▸ hd) hc

theorem agree_cases {questionId fragmentId : Id} {admitted : Admitted} {consensus : Option String}
    {count : ℕ} {conflictId : Option Id} :
    (agree now db questionId fragmentId admitted consensus count conflictId).db.cases = db.cases := by
  unfold agree
  dsimp only
  by_cases hreached : consensus.isSome = true ∧ admitted.blind.minValidAnswers ≤ count
  · rw [if_pos hreached]
    rfl
  · rw [if_neg hreached]
    by_cases hresolved : admitted.blind.status = .resolved
    · rw [if_pos hresolved]
      rfl
    · rw [if_neg hresolved]

theorem judgeAnswer_keepsReady {questionId fragmentId : Id} {admitted : Admitted} {created : Bool}
    {v : Verdict} (h : judgeAnswer env now db questionId fragmentId admitted created = .ok v)
    (hc : ¬ if 1 < (validAnswerConsensus env.text db.answers questionId).2.2.length then
        (disagreementCall db questionId admitted.question.incidentId admitted.blind).extends env now
          db.toStore c
      else created = false ∧
        citingCase db.toStore admitted.question.incidentId fragmentId = some c) :
    KeepsReady db.cases v.db.cases c := by
  unfold judgeAnswer at h
  generalize validAnswerConsensus env.text db.answers questionId = consensus at h hc
  obtain ⟨value, count, values⟩ := consensus
  dsimp only at h hc
  by_cases hmany : 1 < values.length
  · rw [if_pos hmany] at h hc
    simp only [disagree, bind_ok, pure_ok] at h
    obtain ⟨d, hd, rfl⟩ := h
    have hcases := (announceOpened_quiet now d.after admitted.question.incidentId d).cases
    exact hcases ▸ findOrOpen_keepsReady (callFindOrOpen_ok hd).2.2 hc
  · rw [if_neg hmany] at h hc
    cases created with
    | true =>
      simp only [if_true, pure_bind, pure_ok] at h
      exact h ▸ .of_eq (congrArg (·.get c) agree_cases)
    | false =>
      simp only [Bool.false_eq_true, if_false, bind_ok, pure_ok, Prod.exists] at h
      obtain ⟨m, conflictId, hcite, rfl⟩ := h
      rw [agree_cases]
      exact citeAnswer_keepsReady hcite fun hciting => hc ⟨rfl, hciting⟩

theorem putMyAnswer_keepsReady {question : Id} {payload : DirectedAnswerPut} {o : AnswerOutcome}
    (h : putMyAnswer env now db actor header question payload = .ok o)
    (hc : ¬ Op.AnswersFor env db ⟨now, actor, header, .putMyAnswer question payload⟩ question payload c) :
    KeepsReady db.cases o.db.cases c := by
  simp only [putMyAnswer, bind_ok, pure_ok] at h
  obtain ⟨admitted, hadmit, stored, hstored, attachments, -, v, hv, f, -, rfl⟩ := h
  obtain ⟨written, hwritten⟩ : ∃ w, w = upsertAnswerFragment now db.fragments stored.id payload admitted :=
    ⟨_, rfl⟩
  rw [← hwritten] at hv
  have hkeeps := judgeAnswer_keepsReady hv fun hx =>
    hc ⟨admitted, stored, hadmit, hstored, by rw [← hwritten]; exact hx⟩
  have hquiet := (projectVerdict_quiet env now v admitted.question.blindSpotId written.2 f).trans
    (announceAnswer_quiet now _ question actor.subjectId stored written.2 f admitted v).1
  exact hwritten ▸ hquiet.cases ▸ hkeeps

end Routes

theorem handle_keepsReady {env : Env} {db : Db} {op : Op} {o : Outcome} {c : Id}
    (h : handle env db op = .ok o) (hop : op.call.judges = false) (hc : ¬ op.Revises env db c) :
    KeepsReady db.cases o.db.cases c := by
  cases hreport : op.call.isReportOperation with
  | true =>
    have hrevises : op.DetectsFor env db c ∨ op.Weakens env db c → op.Revises env db c := by
      unfold Op.Revises
      cases hcall : op.call <;> simp [hcall, Call.isReportOperation] at hreport <;> exact id
    exact (handle_course h hreport).keepsReady (fun hd => hc (hrevises (Or.inl hd)))
      fun hw => hc (hrevises (Or.inr hw))
  | false =>
    obtain ⟨now, actor, header, call⟩ := op
    cases call with
    | createBlindSpot incident payload =>
      obtain ⟨r, hr, rfl⟩ := map_ok.mp h
      simp only [Questions.createBlindSpot, bind_ok, pure_ok, Prod.exists] at hr
      obtain ⟨-, -, -, -, i, -, -, rfl⟩ := hr
      exact .of_eq rfl
    | createQuestion incident payload =>
      obtain ⟨r, hr, rfl⟩ := map_ok.mp h
      simp only [Questions.createQuestion, bind_ok, pure_ok, Prod.exists] at hr
      obtain ⟨-, -, -, -, -, -, i, -, -, -, -, -, -, rfl⟩ := hr
      exact .of_eq rfl
    | publishQuestion question revision | closeQuestion question revision =>
      obtain ⟨r, hr, rfl⟩ := map_ok.mp h
      simp only [Questions.publishQuestion, Questions.closeQuestion, Questions.changeQuestionStatus,
        bind_ok, pure_ok] at hr
      obtain ⟨-, -, q, -, -, -, -, -, -, -, -, -, rfl⟩ := hr
      exact .of_eq rfl
    | putMyAnswer question payload =>
      obtain ⟨r, hr, rfl⟩ := map_ok.mp h
      exact putMyAnswer_keepsReady hr hc
    | createFragment incident payload =>
      obtain ⟨r, hr, rfl⟩ := map_ok.mp h
      exact createFragment_keepsReady hr hc
    | createConflict incident payload =>
      obtain ⟨t, ht, rfl⟩ := map_ok.mp h
      exact createConflict_keepsReady ht
    | appendConflictEvidence conflict revision references =>
      obtain ⟨t, ht, rfl⟩ := map_ok.mp h
      exact appendConflictEvidence_keepsReady ht fun x hx => hc ⟨x, hx⟩
    | reopenConflict conflict revision reason =>
      obtain ⟨t, ht, rfl⟩ := map_ok.mp h
      exact reopenConflict_keepsReady ht
    | submitConflictDecision | requestAnalysis | startAnalysis | completeAnalysis | failAnalysis
    | retryAnalysis => cases hop
    | _ => cases hreport

end CrisisMosaic
