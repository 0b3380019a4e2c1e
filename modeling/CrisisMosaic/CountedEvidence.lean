import CrisisMosaic.CurrentEvidence
import CrisisMosaic.MapRuns
import CrisisMosaic.ReopenedSpots

/-!
# Which answers a disagreement cites

The values that count leave out every spelling of `unknown`; the fragments that are cited leave
out one. Evidence is only added, so a fragment cited earlier stays when its answer becomes
unknown.
-/

namespace CrisisMosaic
open Relational Questions

section Cited
variable {env : Env} {now : Time} {sources : Sources} {fragments : Table InformationFragment}
  {conflictId incidentId : Id} {references : List EvidenceReference}

/-- The row `citeSource` revives or adds. -/
theorem citeSource_row (env : Env) (now : Time) (evidence : Table ConflictEvidence) (c : Id)
    (kind : EvidenceKind) (sourceId : Id) (version : SourceVersion) :
    ∃ i e, (citeSource env now evidence c kind sourceId version).1.get i = some e ∧
      e.cites c kind sourceId = true ∧ e.sourceRevision = version.revision := by
  unfold citeSource
  cases hfirst : evidence.first fun e =>
      e.cites c kind sourceId && e.sourceRevision = version.revision with
  | some i =>
    obtain ⟨e, he, hp⟩ := Table.first_some hfirst
    simp only [Bool.and_eq_true, decide_eq_true_eq] at hp
    exact ⟨i, { e with isCurrent := true }, by simp [he], hp.1, hp.2⟩
  | none =>
    exact ⟨_, _, Table.get_insert_size _ _, ConflictEvidence.cites_iff.mpr ⟨rfl, rfl, rfl⟩, rfl⟩

/-- A row keeps its source and its revision. -/
theorem EvidenceAdded.row {revision : EvidenceKind → Id → Option ℕ} {cited : EvidenceKind → Id → Prop}
    {a b : Table ConflictEvidence} (h : EvidenceAdded revision cited conflictId a b) {i : Id}
    {e : ConflictEvidence} (he : a.get i = some e) :
    ∃ e', b.get i = some e' ∧ e.SameSource e' ∧ e'.sourceRevision = e.sourceRevision := by
  obtain ⟨e', he', hchange⟩ := h.get_some he
  refine ⟨e', he', ?_⟩
  cases hchange with
  | same => exact ⟨⟨rfl, rfl, rfl⟩, rfl⟩
  | revived => exact ⟨⟨rfl, rfl, rfl⟩, rfl⟩
  | superseded => exact ⟨⟨rfl, rfl, rfl⟩, rfl⟩

/-- Every cited source has a row of its present revision. -/
theorem addEvidence_cited : ∀ {evidence evidence' : Table ConflictEvidence} {added : List Id},
    addEvidence env now sources fragments conflictId incidentId references evidence
      = .ok (evidence', added) →
    ∀ r ∈ references, ∃ i e, evidence'.get i = some e ∧ e.cites conflictId r.kind r.sourceId = true ∧
      sourceRevision sources fragments r.kind r.sourceId = some e.sourceRevision := by
  induction references with
  | nil => exact fun _ r hr => absurd hr List.not_mem_nil
  | cons reference references ih =>
    intro evidence evidence' added h r hr
    simp only [addEvidence, bind_ok, pure_ok, Prod.exists, Prod.mk.injEq] at h
    obtain ⟨version, hv, mid, ids, hmid, rfl, -⟩ := h
    rcases List.mem_cons.mp hr with rfl | hr
    · obtain ⟨i, e, he, hcites, hrevision⟩ := citeSource_row env now evidence conflictId r.kind
        r.sourceId version
      obtain ⟨e', he', hsame, hkept⟩ := (addEvidence_added hmid).row he
      refine ⟨i, e', he', hsame.cites hcites, ?_⟩
      rw [hkept, hrevision]
      exact evidenceSnapshot_revision sources fragments hv
    · exact ih hmid r hr

end Cited

section Answers

/-- The current evidence of the question's answers in the case: the fragments and the revisions
they are cited at. -/
def answerEvidence (db : Db) (question c : Id) : Set (Id × ℕ) :=
  {p | ∃ i e, db.evidence.get i = some e ∧ e.cites c .fragment p.1 = true ∧ e.isCurrent = true ∧
    e.sourceRevision = p.2 ∧ ∃ f a x, db.fragments.get p.1 = some f ∧ isAnswerFragment a f = true ∧
      db.answers.get a = some x ∧ x.questionId = question}

/-- The fragments of the answers that count, at the revisions they have. -/
def countedFragments (text : TextLib) (db : Db) (question : Id) : Set (Id × ℕ) :=
  {p | ∃ f a x, db.fragments.get p.1 = some f ∧ f.revision = p.2 ∧ isAnswerFragment a f = true ∧
    db.answers.get a = some x ∧ x.questionId = question ∧ isUnknown text x.semanticValue = false}

/-- The answers with the value in place of the device's. -/
def standing (answers : Table DirectedAnswer) (question device : Id) (value : String) :
    Table DirectedAnswer :=
  match answers.find (isAnswerOf question device) with
  | none => answers.insert { firstAnswer 0 question device with semanticValue := value }
  | some (id, _) => answers.modify id fun a => { a with semanticValue := value }

/-- The case that is on record for the place and the claim of the blind spot, or the one that would
be opened. -/
def recordedCase (env : Env) (now : Time) (db : Db) (answers : Table DirectedAnswer)
    (question incidentId : Id) (blind : BlindSpot) : Id :=
  (findCandidate env now db.toStore (disagreementCall { db with answers := answers } question
    incidentId blind)).getD db.cases.size

/-- Unknown is given in one spelling, and where it stands the case has no evidence of its answer. -/
structure LeavesNoUnknown (env : Env) (now : Time) (db : Db) (q : DirectedQuestion) (blind : BlindSpot)
    (question device : Id) (value : String) : Prop where
  spelled : isUnknown env.text value = true → value = "unknown"
  unfiled : ∀ k f a x, db.fragments.get k = some f → isAnswerFragment a f = true →
    (standing db.answers question device value).get a = some x → x.questionId = question →
    isUnknown env.text x.semanticValue = true → x.semanticValue = "unknown" ∧
      ¬ CitesNow db.evidence
        (recordedCase env now db (standing db.answers question device value) question q.incidentId blind) k

end Answers

section Stored
variable {env : Env} {now : Time} {db : Db} {question device : Id} {payload : DirectedAnswerPut}
  {admitted : Admitted} {stored : StoredAnswer}

/-- What the verdict reads of an answer. -/
def DirectedAnswer.SameValue (x y : DirectedAnswer) : Prop :=
  x.questionId = y.questionId ∧ x.semanticValue = y.semanticValue

theorem storeAnswer_standing
    (h : storeAnswer now db.answers question device payload admitted = .ok stored) :
    stored.answers.Related DirectedAnswer.SameValue
      (standing db.answers question device admitted.semanticValue) := by
  unfold storeAnswer at h
  unfold standing
  have hsame : db.answers.Related DirectedAnswer.SameValue db.answers := .refl (fun _ => ⟨rfl, rfl⟩) _
  cases hfind : db.answers.find (isAnswerOf question device) with
  | none =>
    simp only [hfind, bind_ok, pure_ok] at h
    obtain ⟨-, -, rfl⟩ := h
    exact hsame.insert ⟨rfl, rfl⟩
  | some r =>
    obtain ⟨id, a⟩ := r
    simp only [hfind, bind_ok, pure_ok] at h
    obtain ⟨-, -, rfl⟩ := h
    have hget := (Table.find_some hfind).1
    intro i
    by_cases hi : id = i
    · subst hi
      simp only [Table.get_modify_self, hget, Option.map_some]
      exact .some ⟨rfl, rfl⟩
    · rw [Table.get_modify_of_ne _ _ hi, Table.get_modify_of_ne _ _ hi]
      exact hsame i

theorem storeAnswer_row
    (h : storeAnswer now db.answers question device payload admitted = .ok stored) :
    ∃ x, stored.answers.get stored.id = some x ∧ x.questionId = question ∧
      x.semanticValue = admitted.semanticValue := by
  unfold storeAnswer at h
  cases hfind : db.answers.find (isAnswerOf question device) with
  | none =>
    simp only [hfind, bind_ok, pure_ok] at h
    obtain ⟨-, -, rfl⟩ := h
    exact ⟨_, Table.get_insert_size _ _, rfl, rfl⟩
  | some r =>
    obtain ⟨id, a⟩ := r
    simp only [hfind, bind_ok, pure_ok] at h
    obtain ⟨-, -, rfl⟩ := h
    obtain ⟨hget, hof⟩ := Table.find_some hfind
    simp only [isAnswerOf, Bool.and_eq_true, decide_eq_true_eq] at hof
    exact ⟨writeAnswer now payload admitted { a with revision := a.revision + 1 }, by simp [hget],
      hof.1, rfl⟩

/-- Writing the answer's fragment adds a row that claims for the blind spot, or revises one. -/
theorem upsertAnswerFragment_rows {fragments fragments' : Table InformationFragment} {answerId k : Id}
    (h : upsertAnswerFragment now fragments answerId payload admitted = (fragments', k)) :
    (∃ f, fragments'.get k = some f ∧ isAnswerFragment answerId f = true) ∧
    (∀ j f, fragments.get j = some f → ∃ g, fragments'.get j = some g ∧
      g.sourceType = f.sourceType ∧ g.sourceRefId = f.sourceRefId ∧ g.claimKey = f.claimKey) ∧
    ∀ j g, fragments'.get j = some g → (∃ f, fragments.get j = some f ∧
        g.sourceType = f.sourceType ∧ g.sourceRefId = f.sourceRefId ∧ g.claimKey = f.claimKey) ∨
      j = k ∧ fragments.get j = none ∧ g.claimKey = some admitted.blind.claimKey := by
  unfold upsertAnswerFragment at h
  cases hfirst : fragments.first (isAnswerFragment answerId) with
  | none =>
    rw [hfirst] at h
    obtain ⟨rfl, rfl⟩ := Prod.mk.inj h
    refine ⟨⟨_, Table.get_insert_size _ _, by simp [isAnswerFragment, firstAnswerFragment]⟩,
      fun j f hf => ⟨f, Table.get_insert_of_some _ hf, rfl, rfl, rfl⟩, fun j g hg => ?_⟩
    rcases Table.get_insert_cases hg with ⟨rfl, rfl⟩ | hold
    · exact Or.inr ⟨rfl, Table.get_size _, rfl⟩
    · exact Or.inl ⟨g, hold, rfl, rfl, rfl⟩
  | some id =>
    rw [hfirst] at h
    obtain ⟨rfl, rfl⟩ := Prod.mk.inj h
    obtain ⟨f₀, hf₀, hfor⟩ := Table.first_some hfirst
    refine ⟨⟨reviseAnswerFragment now payload admitted f₀, by simp [hf₀], hfor⟩, fun j f hf => ?_,
      fun j g hg => Or.inl ?_⟩
    · by_cases hj : id = j
      · subst hj
        exact ⟨reviseAnswerFragment now payload admitted f, by simp [hf], rfl, rfl, rfl⟩
      · exact ⟨f, (Table.get_modify_of_ne _ _ hj).trans hf, rfl, rfl, rfl⟩
    · rcases Table.get_modify_cases hg with ⟨rfl, f, hf, rfl⟩ | ⟨-, hold⟩
      · exact ⟨f, hf, rfl, rfl, rfl⟩
      · exact ⟨g, hold, rfl, rfl, rfl⟩

end Stored

section Recorded
variable {env : Env} {now : Time} {db : Db} {question : Id} {admitted : Admitted}

theorem findCandidate_of_keys {s t : Store} {call other : ConflictCall} (hcases : t.cases = s.cases)
    (hincident : other.incidentId = call.incidentId) (hplace : other.place = call.place)
    (hkeys : ∀ key, key ∈ candidateFactKeys t other ↔ key ∈ candidateFactKeys s call) :
    findCandidate env now t other = findCandidate env now s call := by
  have hcontains : ∀ key, (candidateFactKeys t other).contains key = (candidateFactKeys s call).contains key := by
    intro key
    rw [Bool.eq_iff_iff, List.contains_iff_mem, List.contains_iff_mem]
    exact hkeys key
  have haccepts : acceptsCandidate env now other = acceptsCandidate env now call := by
    funext x
    rw [acceptsCandidate, acceptsCandidate, hplace]
  unfold findCandidate candidateCases
  simp only [hcases, hincident, hcontains, haccepts]

theorem mem_disagreementCall {incidentId k : Id} {blind : BlindSpot} :
    k ∈ (disagreementCall db question incidentId blind).fragments ↔
      ∃ f a x, db.fragments.get k = some f ∧ isAnswerFragment a f = true ∧
        db.answers.get a = some x ∧ x.questionId = question ∧ x.semanticValue ≠ "unknown" := by
  simp only [disagreementCall, Table.mem_select, Bool.and_eq_true, decide_eq_true_eq, Option.any_eq_true,
    List.contains_iff_mem, isAnswerFragment_iff]
  constructor
  · rintro ⟨f, hf, htype, a, ha, x, hx, hq, hv⟩
    exact ⟨f, a, x, hf, ⟨htype, ha⟩, hx, hq, hv⟩
  · rintro ⟨f, a, x, hf, ⟨htype, ha⟩, hx, hq, hv⟩
    exact ⟨f, hf, htype, a, ha, x, hx, hq, hv⟩

/-- Once the answer and its fragment are written, the search finds the case on record before. -/
theorem findCandidate_written {device k incidentId : Id} {payload : DirectedAnswerPut}
    {stored : StoredAnswer} {attachments : Table Attachment} {fragments : Table InformationFragment}
    (hstore : storeAnswer now db.answers question device payload admitted = .ok stored)
    (hu : upsertAnswerFragment now db.fragments stored.id payload admitted = (fragments, k)) :
    findCandidate env now { db.toStore with fragments := fragments }
        (disagreementCall
          { db with answers := stored.answers, attachments := attachments, fragments := fragments }
          question incidentId admitted.blind) =
      findCandidate env now db.toStore (disagreementCall
        { db with answers := standing db.answers question device admitted.semanticValue }
        question incidentId admitted.blind) := by
  have hvalues := storeAnswer_standing hstore
  obtain ⟨-, hkept, hrows⟩ := upsertAnswerFragment_rows hu
  refine findCandidate_of_keys rfl rfl rfl fun key => ?_
  simp only [candidateFactKeys, List.mem_cons, List.mem_filterMap, Option.bind_eq_some_iff,
    mem_disagreementCall, isAnswerFragment_iff]
  refine or_iff_not_imp_left.trans (Iff.trans ?_ or_iff_not_imp_left.symm)
  refine imp_congr_right fun hother => ?_
  constructor
  · rintro ⟨j, ⟨f, a, x, hf, ⟨htype, href⟩, hx, hq, hv⟩, g, hg, hkey⟩
    obtain rfl := Option.some.inj (hf.symm.trans hg)
    obtain ⟨y, hy, hsame⟩ := hvalues.right_of_some hx
    rcases hrows j f hf with ⟨e, he, het, her, hek⟩ | ⟨-, -, hnew⟩
    · exact ⟨j, ⟨e, a, y, he, ⟨het ▸ htype, her ▸ href⟩, hy, hsame.1 ▸ hq, hsame.2 ▸ hv⟩, e, he,
        hek ▸ hkey⟩
    · exact absurd (Option.some.inj (hkey.symm.trans hnew)) hother
  · rintro ⟨j, ⟨f, a, y, hf, ⟨htype, href⟩, hy, hq, hv⟩, g, hg, hkey⟩
    obtain rfl := Option.some.inj (hf.symm.trans hg)
    obtain ⟨x, hx, hsame⟩ := hvalues.left_of_some hy
    obtain ⟨e, he, het, her, hek⟩ := hkept j f hf
    exact ⟨j, ⟨e, a, x, he, ⟨het.trans htype, her.trans href⟩, hx, hsame.1.trans hq,
      hsame.2 ▸ hv⟩, e, he, hek.trans hkey⟩

end Recorded

section Disagreed
variable {env : Env} {now : Time} {db : Db} {actor : Actor} {header : Option Ref} {question : Id}
  {payload : DirectedAnswerPut} {o : AnswerOutcome}

/-- The state in which the answer is judged. -/
def Db.written (db : Db) (answers : Table DirectedAnswer) (attachments : Table Attachment)
    (fragments : Table InformationFragment) : Db :=
  { db with answers := answers, attachments := attachments, fragments := fragments }

/-- What an accepted answer does when the answers to the question disagree. -/
structure Disagreed (env : Env) (now : Time) (db : Db) (question device : Id)
    (payload : DirectedAnswerPut) (admitted : Admitted) (o : AnswerOutcome) (c : Id) : Prop where
  asked : db.questions.get question = some admitted.question
  spot : db.blindSpots.get admitted.question.blindSpotId = some admitted.blind
  value : answeredValue admitted.question payload = some admitted.semanticValue
  response : o.response.get "conflict_id" = some (.ref c)
  filed : ∃ stored k attachments fragments t,
    storeAnswer now db.answers question device payload admitted = .ok stored ∧
    upsertAnswerFragment now db.fragments stored.id payload admitted = (fragments, k) ∧
    Called env now (db.written stored.answers attachments fragments).sources
      { db.toStore with fragments := fragments } t
      (disagreementCall (db.written stored.answers attachments fragments) question
        admitted.question.incidentId admitted.blind) c ∧
    o.db.evidence = t.evidence ∧ o.db.fragments = t.fragments ∧ o.db.answers = stored.answers

theorem projectVerdict_answers (env : Env) (now : Time) (v : Verdict) (spotId fragmentId : Id)
    (f : InformationFragment) :
    (projectVerdict env now v spotId fragmentId f).answers = v.db.answers := by
  unfold projectVerdict
  dsimp only
  split <;> rfl

theorem announceAnswer_answers (now : Time) (db : Db) (questionId deviceId : Id) (stored : StoredAnswer)
    (fragmentId : Id) (f : InformationFragment) (admitted : Admitted) (v : Verdict) :
    (announceAnswer now db questionId deviceId stored fragmentId f admitted v).answers = db.answers := by
  unfold announceAnswer
  cases v.changed <;> rfl

theorem judgeAnswer_answers {fragmentId : Id} {admitted : Admitted} {created : Bool} {v : Verdict}
    (h : judgeAnswer env now db question fragmentId admitted created = .ok v) :
    v.db.answers = db.answers := by
  rcases judgeAnswer_cases h with ⟨-, hv⟩ | ⟨-, s, conflictId, rfl⟩
  · unfold disagree at hv
    simp only [bind_ok, pure_ok] at hv
    obtain ⟨d, -, rfl⟩ := hv
    rfl
  · unfold agree
    dsimp only
    split_ifs <;> rfl

theorem disagree_call {admitted : Admitted} {v : Verdict}
    (h : disagree env now db question admitted = .ok v) :
    ∃ d, callFindOrOpen env now db.sources db.toStore
        (disagreementCall db question admitted.question.incidentId admitted.blind) = .ok d ∧
      v.conflictId = some d.conflictId ∧ d.after.Quiet v.db.toStore := by
  simp only [disagree, bind_ok, pure_ok] at h
  obtain ⟨d, hd, rfl⟩ := h
  exact ⟨d, hd, rfl, announceOpened_quiet now d.after admitted.question.incidentId d⟩

theorem putMyAnswer_disagreed (hok : putMyAnswer env now db actor header question payload = .ok o)
    (hmany : 1 < (validAnswerConsensus env.text o.db.answers question).2.2.length) :
    ∃ admitted c, Disagreed env now db question actor.subjectId payload admitted o c := by
  simp only [putMyAnswer, bind_ok, pure_ok, found_ok] at hok
  obtain ⟨admitted, hadmit, stored, hstore, attachments, -, v, hv, f, -, rfl⟩ := hok
  obtain ⟨hq, hblind, option, hoption, hvalue⟩ := admitAnswer_spec hadmit
  obtain ⟨⟨fragments, k⟩, hu⟩ :
    ∃ u, upsertAnswerFragment now db.fragments stored.id payload admitted = u := ⟨_, rfl⟩
  rw [hu] at hv hmany ⊢
  dsimp only at hv hmany ⊢
  rw [announceAnswer_answers, projectVerdict_answers, judgeAnswer_answers hv] at hmany
  rcases judgeAnswer_cases hv with ⟨-, hdis⟩ | ⟨hone, -⟩
  · obtain ⟨d, hd, hcase, hquiet⟩ := disagree_call hdis
    have hlater := (projectVerdict_quiet env now v admitted.question.blindSpotId k f).trans
      (announceAnswer_quiet now (projectVerdict env now v admitted.question.blindSpotId k f) question
        actor.subjectId stored k f admitted v).1
    refine ⟨admitted, d.conflictId, hq, hblind, by rw [answeredValue, hoption, hvalue]; rfl, ?_, stored, k,
      attachments, fragments, d.after, hstore, hu, findOrOpen_exact (callFindOrOpen_ok hd).2.2,
      (hquiet.trans hlater).evidence, (hquiet.trans hlater).fragments, ?_⟩
    · change some (optRef v.conflictId) = _
      rw [hcase]
      rfl
    · rw [announceAnswer_answers, projectVerdict_answers, judgeAnswer_answers hv]
  · exact absurd hmany (not_lt.mpr hone)

/-- The present revision of a fragment the call cites is the one its current row has. -/
theorem Called.revision {sources : Sources} {s t : Store} {call : ConflictCall} {c k : Id}
    (h : Called env now sources s t call c) (hk : k ∈ call.fragments) {l : Ledger} (hdated : l.Dated)
    (hevidence : l.evidence = t.evidence)
    (hlatest : l.latest .fragment k = (t.fragments.get k).elim 0 (·.revision)) {i : Id}
    {e : ConflictEvidence} (he : t.evidence.get i = some e) (hcites : e.cites c .fragment k = true)
    (hcurrent : e.isCurrent = true) : (t.fragments.get k).map (·.revision) = some e.sourceRevision := by
  obtain ⟨ids, hadd⟩ := h.added
  obtain ⟨j, g, hg, hgcites, hrevision⟩ := addEvidence_cited hadd ⟨.fragment, k, _⟩
    (mem_fragmentReferences.mpr ⟨k, hk, rfl⟩)
  obtain ⟨f, hf, hfrev⟩ := Option.map_eq_some_iff.mp hrevision
  obtain ⟨f', hf', hdrawn⟩ := h.fragments.right_of_some hf
  have hsame := ConflictEvidence.sameSource_of_cites hcites hgcites
  have hle := hdated.current i j e g (hevidence ▸ he) (hevidence ▸ hg) hsame hcurrent
  have hbound := hdated.bounded i e (hevidence ▸ he)
  obtain ⟨-, hkind, hsource⟩ := ConflictEvidence.cites_iff.mp hcites
  rw [hkind, hsource, hlatest, hf'] at hbound
  rw [hf', Option.map_some, Option.some.injEq]
  have hkept := hdrawn.2.1
  simp only [Option.elim_some] at hbound
  omega

/-- A fragment keeps its answer when it is put into conflict. -/
theorem isAnswerFragment_drawn {f g : InformationFragment} (h : f.Drawn g) (a : Id) :
    isAnswerFragment a g = isAnswerFragment a f := by
  rw [h.1]
  rfl

/-- The fragments `ids` were made evidence of the case; they are those of the question's answers
that do not read `unknown`. -/
structure Filing (db db' : Db) (question c : Id) (ids : List Id) : Prop where
  cites : ∀ k, CitesNow db'.evidence c k ↔ CitesNow db.evidence c k ∨ k ∈ ids
  filed : ∀ k, k ∈ ids ↔ ∃ f a x, db'.fragments.get k = some f ∧ isAnswerFragment a f = true ∧
    db'.answers.get a = some x ∧ x.questionId = question ∧ x.semanticValue ≠ "unknown"
  revision : ∀ k ∈ ids, ∀ i e, db'.evidence.get i = some e → e.cites c .fragment k = true →
    e.isCurrent = true → (db'.fragments.get k).map (·.revision) = some e.sourceRevision

/-- No fragment of an answer that is unknown now is evidence of the case. -/
def NoneUnknown (text : TextLib) (db db' : Db) (question c : Id) : Prop :=
  ∀ k f a x, db'.fragments.get k = some f → isAnswerFragment a f = true → db'.answers.get a = some x →
    x.questionId = question → isUnknown text x.semanticValue = true →
    x.semanticValue = "unknown" ∧ ¬ CitesNow db.evidence c k

theorem isAnswerFragment_unique {f : InformationFragment} {a b : Id} (ha : isAnswerFragment a f = true)
    (hb : isAnswerFragment b f = true) : a = b :=
  Option.some.inj ((isAnswerFragment_iff.mp ha).2.symm.trans (isAnswerFragment_iff.mp hb).2)

theorem Filing.evidence_iff {db' : Db} {c : Id} {ids : List Id} {text : TextLib}
    (h : Filing db db' question c ids) (htext : isUnknown text "unknown" = true) :
    answerEvidence db' question c = countedFragments text db' question ↔
      NoneUnknown text db db' question c := by
  constructor
  · intro heq k f a x hf hfor hx hq hunknown
    -- a fragment that is cited belongs to an answer that counts
    have hnot : ¬ CitesNow db'.evidence c k := by
      rintro ⟨i, e, he, hcites, hcurrent⟩
      have hmem : (k, e.sourceRevision) ∈ countedFragments text db' question :=
        heq ▸ ⟨i, e, he, hcites, hcurrent, rfl, f, a, x, hf, hfor, hx, hq⟩
      obtain ⟨g, b, y, hg, -, hforb, hy, -, hknown⟩ := hmem
      obtain rfl := Option.some.inj (hf.symm.trans hg)
      obtain rfl := isAnswerFragment_unique hfor hforb
      obtain rfl := Option.some.inj (hx.symm.trans hy)
      exact absurd (hunknown.symm.trans hknown) nofun
    rw [h.cites, not_or] at hnot
    refine ⟨?_, hnot.1⟩
    by_contra hvalue
    exact hnot.2 ((h.filed k).mpr ⟨f, a, x, hf, hfor, hx, hq, hvalue⟩)
  · intro hnone
    ext ⟨k, r⟩
    constructor
    · rintro ⟨i, e, he, hcites, hcurrent, rfl, f, a, x, hf, hfor, hx, hq⟩
      cases hknown : isUnknown text x.semanticValue with
      | true =>
        obtain ⟨hvalue, hbefore⟩ := hnone k f a x hf hfor hx hq hknown
        have hmem := ((h.cites k).mp ⟨i, e, he, hcites, hcurrent⟩).resolve_left hbefore
        obtain ⟨g, b, y, hg, hforb, hy, -, hother⟩ := (h.filed k).mp hmem
        obtain rfl := Option.some.inj (hf.symm.trans hg)
        obtain rfl := isAnswerFragment_unique hfor hforb
        obtain rfl := Option.some.inj (hx.symm.trans hy)
        exact absurd hvalue hother
      | false =>
        have hvalue : x.semanticValue ≠ "unknown" := by
          intro heq
          rw [heq, htext] at hknown
          exact nomatch hknown
        have hmem := (h.filed k).mpr ⟨f, a, x, hf, hfor, hx, hq, hvalue⟩
        have hrevision := h.revision k hmem i e he hcites hcurrent
        rw [hf] at hrevision
        exact ⟨f, a, x, hf, Option.some.inj hrevision, hfor, hx, hq, hknown⟩
    · rintro ⟨f, a, x, hf, rfl, hfor, hx, hq, hknown⟩
      have hvalue : x.semanticValue ≠ "unknown" := by
        intro heq
        rw [heq, htext] at hknown
        exact nomatch hknown
      have hmem := (h.filed k).mpr ⟨f, a, x, hf, hfor, hx, hq, hvalue⟩
      obtain ⟨i, e, he, hcites, hcurrent⟩ := (h.cites k).mpr (Or.inr hmem)
      have hrevision := h.revision k hmem i e he hcites hcurrent
      rw [hf] at hrevision
      exact ⟨i, e, he, hcites, hcurrent, (Option.some.inj hrevision).symm, f, a, x, hf, hfor, hx, hq⟩

namespace Disagreed
variable {device c : Id} {admitted : Admitted}

theorem filing (h : Disagreed env now db question device payload admitted o c)
    (hdated : o.db.ledger.Dated) : ∃ ids, Filing db o.db question c ids := by
  obtain ⟨stored, k₀, attachments, fragments, t, -, -, hcalled, hevidence, hfragments, hanswers⟩ := h.filed
  refine ⟨(disagreementCall (db.written stored.answers attachments fragments) question
    admitted.question.incidentId admitted.blind).fragments, fun k => ?_, fun k => ?_,
    fun k hk i e he hcites hcurrent => ?_⟩
  · rw [hevidence, hcalled.cites c k]
    exact or_congr_right (and_iff_right rfl)
  · rw [mem_disagreementCall, hfragments, hanswers]
    constructor
    · rintro ⟨f, a, x, hf, hfor, hx⟩
      obtain ⟨g, hg, hdrawn⟩ := hcalled.fragments.right_of_some hf
      exact ⟨g, a, x, hg, (isAnswerFragment_drawn hdrawn a).trans hfor, hx⟩
    · rintro ⟨g, a, x, hg, hfor, hx⟩
      obtain ⟨f, hf, hdrawn⟩ := hcalled.fragments.left_of_some hg
      exact ⟨f, a, x, hf, (isAnswerFragment_drawn hdrawn a).symm.trans hfor, hx⟩
  · have hlatest : o.db.ledger.latest .fragment k = (t.fragments.get k).elim 0 (·.revision) := by
      rw [← hfragments]
      rfl
    rw [hevidence] at he
    rw [hfragments]
    exact hcalled.revision hk hdated hevidence hlatest he hcites hcurrent

/-- The case is the one on record before. -/
theorem recorded (h : Disagreed env now db question device payload admitted o c) :
    c = recordedCase env now db (standing db.answers question device admitted.semanticValue) question
      admitted.question.incidentId admitted.blind := by
  obtain ⟨stored, k₀, attachments, fragments, t, hstore, hu, hcalled, -⟩ := h.filed
  have hfound := hcalled.found
  unfold Db.written at hfound
  rw [findCandidate_written hstore hu] at hfound
  unfold recordedCase
  rcases hfound with hfound | ⟨hnone, hnew⟩
  · rw [hfound]
    rfl
  · rw [hnone]
    exact hnew

/-- Whether an unknown answer is left as evidence shows in the state before. -/
theorem noneUnknown_iff (h : Disagreed env now db question device payload admitted o c)
    (hs : db.toStore.Sound) :
    NoneUnknown env.text db o.db question c ↔
      LeavesNoUnknown env now db admitted.question admitted.blind question device
        admitted.semanticValue := by
  have hcase := h.recorded
  obtain ⟨stored, k₀, attachments, fragments, t, hstore, hu, hcalled, -, hfragments, hanswers⟩ := h.filed
  have hvalues := storeAnswer_standing hstore
  obtain ⟨⟨own, hown, hownfor⟩, hkept, hrows⟩ := upsertAnswerFragment_rows hu
  obtain ⟨x₀, hx₀, hq₀, hv₀⟩ := storeAnswer_row hstore
  have hfor : ∀ {f g : InformationFragment} {a : Id}, g.sourceType = f.sourceType →
      g.sourceRefId = f.sourceRefId → isAnswerFragment a g = isAnswerFragment a f := by
    intro f g a htype href
    rw [isAnswerFragment, isAnswerFragment, htype, href]
  constructor
  · intro hnone
    constructor
    · intro hunknown
      obtain ⟨g, hg, hdrawn⟩ := hcalled.fragments.right_of_some hown
      rw [← hv₀] at hunknown ⊢
      exact (hnone k₀ g stored.id x₀ (hfragments ▸ hg) ((isAnswerFragment_drawn hdrawn _).trans hownfor)
        (hanswers ▸ hx₀) hq₀ hunknown).1
    · intro k f a y hf hforf hy hq hunknown
      obtain ⟨x, hx, hsame⟩ := hvalues.left_of_some hy
      obtain ⟨g, hg, htype, href, -⟩ := hkept k f hf
      obtain ⟨g', hg', hdrawn⟩ := hcalled.fragments.right_of_some hg
      rw [← hsame.2] at hunknown ⊢
      rw [← hcase]
      exact hnone k g' a x (hfragments ▸ hg') ((isAnswerFragment_drawn hdrawn _).trans
        ((hfor htype href).trans hforf)) (hanswers ▸ hx) (hsame.1.trans hq) hunknown
  · intro hleaves k g' a x hg' hforg hx hq hunknown
    obtain ⟨g, hg, hdrawn⟩ := hcalled.fragments.left_of_some (hfragments ▸ hg')
    obtain ⟨y, hy, hsame⟩ := hvalues.right_of_some (hanswers ▸ hx)
    rw [isAnswerFragment_drawn hdrawn] at hforg
    rcases hrows k g hg with ⟨f, hf, htype, href, -⟩ | ⟨rfl, hnew, -⟩
    · rw [hsame.2] at hunknown ⊢
      rw [hcase]
      exact hleaves.unfiled k f a y hf ((hfor htype href).symm.trans hforg) hy (hsame.1 ▸ hq) hunknown
    · -- the fragment is new: it belongs to the answer just given, and nothing cites it yet
      obtain rfl := Option.some.inj (hown.symm.trans hg)
      obtain rfl := isAnswerFragment_unique hforg hownfor
      obtain rfl := Option.some.inj (hx₀.symm.trans (hanswers ▸ hx))
      rw [hv₀] at hunknown ⊢
      refine ⟨hleaves.spelled hunknown, ?_⟩
      rintro ⟨i, e, he, hcites, -⟩
      obtain ⟨-, hkind, hsource⟩ := ConflictEvidence.cites_iff.mp hcites
      obtain ⟨f, hf, -⟩ := hs.upToDate i e he hkind
      rw [hsource, hnew] at hf
      cases hf

end Disagreed

/-- The case the answer is told of cites the answers that count, and no other answer. -/
def CitesCounted (text : TextLib) (o : AnswerOutcome) (question : Id) : Prop :=
  ∃ c, o.response.get "conflict_id" = some (.ref c) ∧
    answerEvidence o.db question c = countedFragments text o.db question

/-- Condition on the answers to a question that are accepted and leave more than one value. -/
def AtDisagreements (env : Env) (C : Db → Op → Id → DirectedAnswerPut → AnswerOutcome → Prop) (db : Db)
    (op : Op) : Prop :=
  ∀ question payload o, op.call = .putMyAnswer question payload →
    putMyAnswer env op.now db.begin op.actor op.header question payload = .ok o →
    1 < (validAnswerConsensus env.text o.db.answers question).2.2.length → C db op question payload o

/-- As the question and its blind spot are before the answer, it leaves no unknown one as evidence. -/
def FilesNoUnknown (env : Env) (db : Db) (op : Op) (question : Id) (payload : DirectedAnswerPut)
    (_ : AnswerOutcome) : Prop :=
  ∀ q blind value, db.questions.get question = some q → db.blindSpots.get q.blindSpotId = some blind →
    answeredValue q payload = some value →
    LeavesNoUnknown env op.now db q blind question op.actor.subjectId value

theorem leavesNoUnknown_begin {q : DirectedQuestion} {blind : BlindSpot} {device : Id} {value : String} :
    LeavesNoUnknown env now db.begin q blind question device value ↔
      LeavesNoUnknown env now db q blind question device value :=
  ⟨fun h => ⟨h.spelled, h.unfiled⟩, fun h => ⟨h.spelled, h.unfiled⟩⟩

theorem disagreement_cites_iff {op : Op} (htext : env.text.PlainLowercase) (hs : db.toStore.Sound)
    (hdated : db.ledger.Dated) :
    AtDisagreements env (fun _ _ question _ o => CitesCounted env.text o question) db op ↔
      AtDisagreements env (FilesNoUnknown env) db op := by
  refine forall_congr' fun question => forall_congr' fun payload => forall_congr' fun o =>
    imp_congr_right fun hcall => imp_congr_right fun hok => imp_congr_right fun hmany => ?_
  obtain ⟨admitted, c, h⟩ := putMyAnswer_disagreed hok hmany
  have hbegin : db.begin.ledger.Dated := hdated
  have hafter : o.db.ledger.Dated := hbegin.moves (Moves.putMyAnswer hok)
  obtain ⟨ids, hfiling⟩ := h.filing hafter
  have hunknown : isUnknown env.text "unknown" = true := by
    rw [isUnknown_lowercase htext (by decide)]
    rfl
  have hiff := (hfiling.evidence_iff hunknown).trans (h.noneUnknown_iff ⟨hs.facts, hs.upToDate, hs.withdrawn⟩)
  constructor
  · rintro ⟨d, hd, heq⟩ q blind value hq hblind hvalue
    obtain rfl : c = d := Json.ref.inj (Option.some.inj (h.response.symm.trans hd))
    obtain rfl := Option.some.inj (h.asked.symm.trans hq)
    obtain rfl := Option.some.inj (h.spot.symm.trans hblind)
    obtain rfl := Option.some.inj (h.value.symm.trans hvalue)
    exact leavesNoUnknown_begin.mp (hiff.mp heq)
  · intro hfiles
    exact ⟨c, h.response, hiff.mpr (leavesNoUnknown_begin.mpr (hfiles _ _ _ h.asked h.spot h.value))⟩

/-- In every run, the answers that leave a question's answers in disagreement bring the case to
cite those that count, and no other, just when each of them leaves no unknown answer as evidence. -/
theorem disagreements_cite_counted_iff (env : Env) (htext : env.text.PlainLowercase)
    (incidents : Table Incident) (devices : Table AnonymousDevice) (attachments : Table Attachment)
    (ops : List Op) :
    Along (step env) (AtDisagreements env fun _ _ question _ o => CitesCounted env.text o question)
        (Db.initial incidents devices attachments) ops ↔
      Along (step env) (AtDisagreements env (FilesNoUnknown env))
        (Db.initial incidents devices attachments) ops := by
  have hinitial : (Db.initial incidents devices attachments).ledger.Dated :=
    ⟨fun _ _ h => (nomatch h), fun _ _ _ _ h => (nomatch h), fun _ _ _ _ h => (nomatch h)⟩
  exact along_congr (step env) (I := fun db : Db => db.toStore.Sound ∧ db.ledger.Dated)
    (fun _ _ h => disagreement_cites_iff htext h.1 h.2)
    (fun db op h _ => ⟨step_sound env db op h.1, step_dated env db op h.2⟩)
    ⟨initial_sound incidents devices attachments, hinitial⟩

end Disagreed

/-- All the answers are known, the one that is given among them. -/
def knownAnswers (text : TextLib) (db : Db) (op : Op) : Bool :=
  match op.call with
  | .putMyAnswer question payload =>
      db.answers.rows.all (fun a => !isUnknown text a.semanticValue) &&
        (db.questions.get question).all fun q => (answeredValue q payload).all fun v => !isUnknown text v
  | _ => true

theorem filesNoUnknown_of_known {env : Env} {db : Db} {op : Op} (h : knownAnswers env.text db op = true) :
    AtDisagreements env (FilesNoUnknown env) db op := by
  rintro question payload o hcall - - q blind value hq - hvalue
  simp only [knownAnswers, hcall, Bool.and_eq_true, hq, hvalue, Option.all_some, Bool.not_eq_true'] at h
  obtain ⟨hothers, hown⟩ := h
  have hall : (standing db.answers question op.actor.subjectId value).All fun _ x =>
      isUnknown env.text x.semanticValue = false := by
    have hrows : db.answers.All fun _ x => isUnknown env.text x.semanticValue = false := by
      intro i x hx
      simpa using List.all_eq_true.mp hothers x (List.mem_of_getElem? hx)
    unfold standing
    split
    · exact hrows.insert hown
    · exact hrows.modify fun _ _ _ => hown
  constructor
  · intro hunknown
    exact absurd (hunknown.symm.trans hown) nofun
  · rintro k f a x - - hx - hunknown
    exact absurd (hunknown.symm.trans (hall a x hx)) nofun

/-- An unknown answer is cited by the case the answer is told of. -/
def citesUnknown (text : TextLib) (o : AnswerOutcome) (question c k a : Id) : Bool :=
  (o.response.get "conflict_id").any (Json.isRef c) &&
    (o.db.evidence.first fun e => e.cites c .fragment k && e.isCurrent).isSome &&
    (o.db.fragments.get k).any (isAnswerFragment a) &&
    (o.db.answers.get a).any fun x => x.questionId = question && isUnknown text x.semanticValue

theorem not_citesCounted {text : TextLib} {o : AnswerOutcome} {question c k a : Id}
    (h : citesUnknown text o question c k a = true) : ¬ CitesCounted text o question := by
  simp only [citesUnknown, Bool.and_eq_true, Option.any_eq_true, decide_eq_true_eq,
    Option.isSome_iff_exists] at h
  obtain ⟨⟨⟨⟨r, hr, hcase⟩, i, hi⟩, f, hf, hfor⟩, x, hx, hq, hunknown⟩ := h
  obtain ⟨e, he, hp⟩ := Table.first_some hi
  obtain ⟨hcites, hcurrent⟩ := Bool.and_eq_true_iff.mp hp
  rintro ⟨d, hd, heq⟩
  obtain rfl := Option.some.inj (hr.symm.trans hd)
  obtain rfl : d = c := by simpa [Json.isRef] using hcase
  have hmem : (k, e.sourceRevision) ∈ countedFragments text o.db question :=
    heq ▸ ⟨i, e, he, hcites, hcurrent, rfl, f, a, x, hf, hfor, hx, hq⟩
  obtain ⟨g, b, y, hg, -, hforb, hy, -, hknown⟩ := hmem
  obtain rfl := Option.some.inj (hf.symm.trans hg)
  obtain rfl := isAnswerFragment_unique hfor hforb
  obtain rfl := Option.some.inj (hx.symm.trans hy)
  exact absurd (hunknown.symm.trans hknown) nofun

namespace Sample

/-- Three residents. -/
def devices : Table AnonymousDevice := ⟨[⟨none⟩, ⟨none⟩, ⟨none⟩]⟩

def third : Actor := ⟨.device, 2, .resident, [0]⟩

/-- Unknown is one of the options, in two spellings. -/
def spelledQuestion : DirectedQuestionCreate :=
  { roadQuestion with
    options := [⟨"yes", "yes", none⟩, ⟨"no", "no", none⟩, ⟨"unknown", "?", none⟩, ⟨"Unknown", "?", none⟩]
    enough := by decide
    distinct := by decide }

/-- One resident finds the road open, two do not. -/
def disputed : List Op :=
  [⟨0, admin, none, .createBlindSpot (.id 0) roadSpot⟩,
    ⟨0, admin, none, .createQuestion (.id 0) spelledQuestion⟩,
    ⟨1, admin, none, .publishQuestion 0 1⟩,
    ⟨2, resident, none, .putMyAnswer 0 (answer "yes" 0)⟩,
    ⟨3, neighbour, none, .putMyAnswer 0 (answer "no" 0)⟩,
    ⟨4, third, none, .putMyAnswer 0 (answer "no" 0)⟩]

abbrev citesInRun (ops : List Op) : Prop :=
  Along (step env) (AtDisagreements env fun _ _ question _ o => CitesCounted text o question)
    (Db.initial ⟨[incident]⟩ devices .empty) ops

end Sample

/-- Known answers, one of them changed. -/
theorem known_answers_are_cited : Sample.citesInRun (Sample.disputed ++
    [⟨5, Sample.neighbour, none, .putMyAnswer 0 (Sample.answer "yes" 1)⟩]) := by
  refine (disagreements_cite_counted_iff Sample.env Sample.text_plainLowercase _ _ _ _).mpr ?_
  have hknown : Along (step Sample.env) (fun db op => knownAnswers Sample.text db op = true)
      (Db.initial ⟨[Sample.incident]⟩ Sample.devices .empty) (Sample.disputed ++
        [⟨5, Sample.neighbour, none, .putMyAnswer 0 (Sample.answer "yes" 1)⟩]) := by
    decide +kernel
  exact Along.mono _ hknown fun db op h => filesNoUnknown_of_known h

/-- The last answer of the run leaves an unknown one as evidence. -/
theorem not_citesInRun {ops : List Op} {now : Time} {actor : Actor} {payload : DirectedAnswerPut} {k a : Id}
    (h : (putMyAnswer Sample.env now
      (runFrom Sample.env (Db.initial ⟨[Sample.incident]⟩ Sample.devices .empty) ops).begin actor none 0
      payload).toOption.any (fun o =>
        decide (1 < (validAnswerConsensus Sample.text o.db.answers 0).2.2.length) &&
          citesUnknown Sample.text o 0 0 k a) = true) :
    ¬ Sample.citesInRun (ops ++ [⟨now, actor, none, .putMyAnswer 0 payload⟩]) := by
  intro hrun
  obtain ⟨-, hlast, -⟩ := (along_append _).mp hrun
  obtain ⟨o, ho, hcheck⟩ := ok_of_any h
  obtain ⟨hmany, hunknown⟩ := Bool.and_eq_true_iff.mp hcheck
  exact not_citesCounted hunknown (hlast 0 payload o rfl ho (of_decide_eq_true hmany))

/-- An answer becomes unknown while two others disagree; another spelling of unknown is given while
they do. -/
theorem unknown_answers_stay_cited :
    ¬ Sample.citesInRun (Sample.disputed ++
      [⟨5, Sample.neighbour, none, .putMyAnswer 0 (Sample.answer "unknown" 1)⟩]) ∧
    ¬ Sample.citesInRun (Sample.disputed ++
      [⟨5, Sample.third, none, .putMyAnswer 0 (Sample.answer "Unknown" 1)⟩]) :=
  ⟨not_citesInRun (k := 1) (a := 1) (by decide +kernel), not_citesInRun (k := 2) (a := 2) (by decide +kernel)⟩

end CrisisMosaic
