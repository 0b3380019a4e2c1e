import CrisisMosaic.Reachable
import CrisisMosaic.ShownReports
import CrisisMosaic.StandingCases

/-!
# Runs and the map

A contradiction found by a report projects every fragment it puts into conflict. Found by an
operator's fragment or by an answer, it projects only the fragment just written: the others
keep their features unless they were in conflict before.
-/

namespace CrisisMosaic
open Relational Originals Questions

section Answers
variable (db : Db) (question device : Id)

/-- The row the device's answer to the question is stored in. -/
def answerRow : Id := (db.answers.find (isAnswerOf question device)).elim db.answers.size (·.1)

/-- An answer another device gave to the question. -/
def OtherAnswer (a : Id) (x : DirectedAnswer) : Prop :=
  db.answers.get a = some x ∧ x.questionId = question ∧ a ≠ answerRow db question device

/-- A known value of the new answer or of another one. -/
def Offered (text : TextLib) (value v : String) : Prop :=
  isUnknown text v = false ∧ (v = value ∨ ∃ a x, OtherAnswer db question device a x ∧ x.semanticValue = v)

/-- The fragment belongs to an answer that a disagreement would cite. -/
def FromAnswer (value : String) (g : InformationFragment) : Prop :=
  g.sourceType = .directedAnswer ∧ ∃ a, g.sourceRefId = some a ∧
    (a = answerRow db question device ∧ value ≠ "unknown" ∨
      ∃ x, OtherAnswer db question device a x ∧ x.semanticValue ≠ "unknown")

end Answers

/-- The operator's fragment contradicts only fragments that are in conflict already. -/
def SparesFragments (env : Env) (now : Time) (db : Db) (actor : Actor) (header : Option Ref)
    (incident : Ref) (payload : FragmentCreate) : Prop :=
  ∀ i r, requireOperator actor = .ok () → ensureIncidentAccess actor incident header = .ok () →
    getIncident db.feed.incidents incident = .ok (i, r) →
    isComparable env (operatorFragment now i actor payload) = true →
    ∀ k g, db.fragments.get k = some g →
      contradicts env (operatorFragment now i actor payload) g = true →
      g.sourceType ≠ .residentReport → g.status = .conflict

/-- An answer that is accepted makes the question's answers disagree only when the fragments of
the others are in conflict already. -/
def SparesAnswers (env : Env) (now : Time) (db : Db) (actor : Actor) (header : Option Ref)
    (question : Id) (payload : DirectedAnswerPut) : Prop :=
  let device := actor.subjectId
  ∀ admitted, admitAnswer env now db actor header question payload = .ok admitted →
    payload.revision = (db.answers.find (isAnswerOf question device)).elim 0 (·.2.revision) →
    (∃ t, replaceAnswerAttachments db.attachments (answerRow db question device)
      admitted.question.incidentId device payload.attachmentIds = .ok t) →
    ∀ v w, v ≠ w → Offered db question device env.text admitted.semanticValue v →
      Offered db question device env.text admitted.semanticValue w →
      ∀ k g, db.fragments.get k = some g → FromAnswer db question device admitted.semanticValue g →
        db.fragments.first (isAnswerFragment (answerRow db question device)) ≠ some k →
        g.status = .conflict

def SparesPeers (env : Env) (db : Db) (op : Op) : Prop :=
  match op.call with
  | .createFragment incident payload =>
      SparesFragments env op.now db op.actor op.header incident payload
  | .putMyAnswer question payload => SparesAnswers env op.now db op.actor op.header question payload
  | _ => True

theorem sparesPeers_begin {env : Env} {db : Db} {op : Op} :
    SparesPeers env db.begin op ↔ SparesPeers env db op := Iff.rfl

section Stored
variable {env : Env} {now : Time} {db : Db} {question device : Id} {payload : DirectedAnswerPut}
  {admitted : Admitted} {stored : StoredAnswer}

/-- Storing an answer writes its row and no other. -/
theorem storeAnswer_rows
    (h : storeAnswer now db.answers question device payload admitted = .ok stored) :
    stored.id = answerRow db question device ∧
      payload.revision = (db.answers.find (isAnswerOf question device)).elim 0 (·.2.revision) ∧
      ∀ a x, stored.answers.get a = some x →
        a = stored.id ∧ x.semanticValue = admitted.semanticValue ∨
          a ≠ stored.id ∧ db.answers.get a = some x := by
  unfold storeAnswer at h
  cases hfind : db.answers.find (isAnswerOf question device) with
  | none =>
    simp only [hfind, bind_ok, require_ok, pure_ok] at h
    obtain ⟨-, hrevision, rfl⟩ := h
    refine ⟨by simp [answerRow, hfind], hrevision, fun a x hx => ?_⟩
    rcases Table.get_insert_cases hx with ⟨rfl, rfl⟩ | hold
    · exact Or.inl ⟨rfl, rfl⟩
    · exact Or.inr ⟨(Table.lt_size hold).ne, hold⟩
  | some r =>
    obtain ⟨id, b⟩ := r
    simp only [hfind, bind_ok, require_ok, pure_ok] at h
    obtain ⟨-, hrevision, rfl⟩ := h
    refine ⟨by simp [answerRow, hfind], hrevision.symm, fun a x hx => ?_⟩
    rcases Table.get_modify_cases hx with ⟨rfl, y, -, rfl⟩ | ⟨hne, hold⟩
    · exact Or.inl ⟨rfl, rfl⟩
    · exact Or.inr ⟨Ne.symm hne, hold⟩

/-- The counted values of an answered question are offered ones. -/
theorem counted_offered
    (h : storeAnswer now db.answers question device payload admitted = .ok stored) (text : TextLib)
    (hcount : 1 < (validAnswerConsensus text stored.answers question).2.2.length) :
    ∃ v w, v ≠ w ∧ Offered db question device text admitted.semanticValue v ∧
      Offered db question device text admitted.semanticValue w := by
  obtain ⟨hid, -, hrows⟩ := storeAnswer_rows h
  have hoffered : ∀ v ∈ (validAnswerConsensus text stored.answers question).2.2,
      Offered db question device text admitted.semanticValue v := by
    intro v hv
    unfold validAnswerConsensus at hv
    dsimp only at hv
    split at hv
    · exact nomatch hv
    · simp only [List.mem_dedup, List.mem_map, List.mem_filter, Bool.and_eq_true, decide_eq_true_eq,
        Bool.not_eq_true'] at hv
      obtain ⟨x, ⟨hmem, hquestion, hknown⟩, rfl⟩ := hv
      obtain ⟨a, ha⟩ := List.mem_iff_getElem?.mp hmem
      refine ⟨hknown, ?_⟩
      rcases hrows a x ha with ⟨-, hvalue⟩ | ⟨hne, hold⟩
      · exact Or.inl hvalue
      · exact Or.inr ⟨a, x, ⟨hold, hquestion, hid ▸ hne⟩, rfl⟩
  have hnodup : (validAnswerConsensus text stored.answers question).2.2.Nodup := by
    unfold validAnswerConsensus
    dsimp only
    split
    · exact List.nodup_nil
    · exact List.nodup_dedup _
  generalize (validAnswerConsensus text stored.answers question).2.2 = values at *
  match values, hcount with
  | v :: w :: _, _ =>
    have hne : v ≠ w := fun heq => (List.nodup_cons.mp hnodup).1 (by simp [heq])
    exact ⟨v, w, hne, hoffered v (by simp), hoffered w (by simp)⟩

/-- The row of the answer's fragment, written and not yet projected. -/
structure Unprojected (db : Db) (fragments : Table InformationFragment) (k : Id)
    (g : InformationFragment) : Prop where
  row : fragments.get k = some g
  source : g.sourceType = .directedAnswer
  shown : { db.toStore with fragments := fragments }.ShownBut db.blindSpots {g.key k}

theorem upsertAnswerFragment_shown (h : db.Shown) {answerId k : Id}
    {fragments : Table InformationFragment}
    (hu : upsertAnswerFragment now db.fragments answerId payload admitted = (fragments, k)) :
    (∃ g, Unprojected db fragments k g) ∧ ∀ j f, fragments.get j = some f → j ≠ k →
      db.fragments.get j = some f ∧ db.fragments.first (isAnswerFragment answerId) ≠ some j := by
  unfold upsertAnswerFragment at hu
  cases hfirst : db.fragments.first (isAnswerFragment answerId) with
  | none =>
    rw [hfirst] at hu
    obtain ⟨rfl, rfl⟩ := Prod.mk.inj hu
    constructor
    · have hinserted := Store.ShownBut.insertFragment h (firstAnswerFragment now answerId payload admitted)
      exact ⟨_, Table.get_insert_size _ _, rfl, hinserted.mono (Set.empty_subset _)⟩
    · intro j f hj hne
      rcases Table.get_insert_cases hj with ⟨rfl, -⟩ | hold
      · exact absurd rfl hne
      · exact ⟨hold, nofun⟩
  | some id =>
    rw [hfirst] at hu
    obtain ⟨rfl, rfl⟩ := Prod.mk.inj hu
    obtain ⟨f, hf, hfor⟩ := Table.first_some hfirst
    simp only [isAnswerFragment, Bool.and_eq_true, decide_eq_true_eq] at hfor
    constructor
    · refine ⟨reviseAnswerFragment now payload admitted f, by simp [hf], hfor.1, ?_⟩
      apply Store.ShownBut.modifyFragment h (Set.empty_subset _)
      intro g hg _
      obtain rfl := Option.some.inj (hf.symm.trans hg)
      exact ⟨rfl, rfl, rfl⟩
    · intro j e hj hne
      rcases Table.get_modify_cases hj with ⟨rfl, -⟩ | ⟨-, hold⟩
      · exact absurd rfl hne
      · exact ⟨hold, fun hk => hne (Option.some.inj hk).symm⟩

end Stored

section Judged
variable {env : Env} {now : Time} {db : Db} {question k : Id} {g : InformationFragment}
  {admitted : Admitted} {v : Verdict}

/-- After the verdict only the answer's fragment and the case it touched wait for a projection. -/
structure Questions.Verdict.Pending (db : Db) (k : Id) (g : InformationFragment) (admitted : Admitted)
    (v : Verdict) : Prop where
  fragment : ∀ f, v.db.fragments.get k = some f →
    f.incidentId = g.incidentId ∧ f.sourceType = g.sourceType
  shown : v.db.toStore.ShownBut db.blindSpots ({g.key k} ∪
    {key | ∃ c x, v.conflictId = some c ∧ v.db.cases.get c = some x ∧ key = x.key c})
  spots : v.db.blindSpots = db.blindSpots
  blind : v.blind.incidentId = admitted.blind.incidentId

theorem disagree_pending (hg : db.fragments.get k = some g)
    (h : db.toStore.ShownBut db.blindSpots {g.key k})
    (hpeers : ∀ j ∈ (disagreementCall db question admitted.question.incidentId admitted.blind).fragments,
      ∀ f, db.fragments.get j = some f → j ≠ k → f.status = .conflict)
    (hv : disagree env now db question admitted = .ok v) : v.Pending db k g admitted := by
  simp only [disagree, bind_ok, pure_ok] at hv
  obtain ⟨d, hd, rfl⟩ := hv
  have hok := (callFindOrOpen_ok hd).2.2
  obtain ⟨hafter, x, hx, hi⟩ := h.findOrOpen (T := {g.key k} ∪
      {⟨admitted.question.incidentId, .conflict, d.conflictId⟩}) hok Set.subset_union_left
    (Or.inr rfl) (by
      intro j hj f hf _
      by_cases hown : j = k
      · subst hown
        obtain rfl := Option.some.inj (hg.symm.trans hf)
        exact Or.inr (Or.inl rfl)
      · exact Or.inl (hpeers j hj f hf hown))
  have hquiet := announceOpened_quiet now d.after admitted.question.incidentId d
  have hshown : (announceOpened now d.after admitted.question.incidentId d).ShownBut db.blindSpots
      ({g.key k} ∪ {⟨admitted.question.incidentId, .conflict, d.conflictId⟩}) := by
    unfold announceOpened
    split_ifs
    · split <;> exact hafter
    · exact hafter
  constructor
  · intro f hf
    have hf : d.after.fragments.get k = some f := hquiet.fragments ▸ hf
    obtain ⟨e, he, hcontent, -⟩ := (findOrOpen_exact hok).fragments.right_of_some hg
    obtain rfl := Option.some.inj (he.symm.trans hf)
    exact ⟨by rw [hcontent], by rw [hcontent]⟩
  · apply hshown.mono
    rintro key (hown | rfl)
    · exact Or.inl hown
    · exact Or.inr ⟨d.conflictId, x, rfl, hquiet.cases ▸ hx, by rw [ConflictCase.key, hi]; rfl⟩
  · rfl
  · dsimp only
    split_ifs <;> rfl

theorem citeAnswer_shown {s : Store} {spots : Table BlindSpot} {S : Set FeatureKey} {sources : Sources}
    {i : Id} {t : Store} {c : Option Id} (h : s.ShownBut spots S)
    (hok : citeAnswer env now sources s i k = .ok (t, c)) :
    t.fragments = s.fragments ∧ t.ShownBut spots
      (S ∪ {key | ∃ id x, c = some id ∧ t.cases.get id = some x ∧ key = x.key id}) := by
  unfold citeAnswer at hok
  split at hok
  · simp only [pure_ok, Prod.mk.injEq] at hok
    obtain ⟨rfl, rfl⟩ := hok
    exact ⟨rfl, h.mono Set.subset_union_left⟩
  · next id _ =>
    simp only [bind_ok, pure_ok, found_ok, Prod.exists, Prod.mk.injEq] at hok
    obtain ⟨x, hx, m, added, hm, rfl, rfl⟩ := hok
    obtain ⟨hshown, hget⟩ := h.appendEvidence hx hm
    have hfragments := appendEvidence_fragments hm
    refine ⟨hfragments, hshown.mono ?_⟩
    rintro key (hS | rfl)
    · exact Or.inl hS
    · exact Or.inr ⟨id, bumpRevision x, rfl, hget, rfl⟩

theorem agree_pending {s : Store} {c : Option Id} (hg : s.fragments.get k = some g)
    (h : s.ShownBut db.blindSpots ({g.key k} ∪
      {key | ∃ id x, c = some id ∧ s.cases.get id = some x ∧ key = x.key id}))
    (consensus : Option String) (count : ℕ) :
    (agree now { db with toStore := s } question k admitted consensus count c).Pending db k g
      admitted := by
  have hown : ∀ f, s.fragments.get k = some f → f.incidentId = g.incidentId ∧
      f.sourceType = g.sourceType := by
    intro f hf
    obtain rfl := Option.some.inj (hg.symm.trans hf)
    exact ⟨rfl, rfl⟩
  unfold agree
  dsimp only
  by_cases hreached : consensus.isSome = true ∧ admitted.blind.minValidAnswers ≤ count
  · rw [if_pos hreached]
    constructor
    · intro f hf
      rcases Table.get_modify_cases hf with ⟨-, e, he, rfl⟩ | ⟨hne, -⟩
      · exact hown e he
      · exact absurd rfl hne
    · apply h.modifyFragment subset_rfl
      intro e he _
      obtain rfl := Option.some.inj (hg.symm.trans he)
      exact ⟨rfl, rfl, Or.inl rfl⟩
    · rfl
    · dsimp only
      split_ifs <;> rfl
  · rw [if_neg hreached]
    split_ifs <;> exact ⟨hown, h, rfl, rfl⟩

theorem judgeAnswer_pending {created : Bool} (hg : db.fragments.get k = some g)
    (h : db.toStore.ShownBut db.blindSpots {g.key k})
    (hpeers : 1 < (validAnswerConsensus env.text db.answers question).2.2.length →
      ∀ j ∈ (disagreementCall db question admitted.question.incidentId admitted.blind).fragments,
        ∀ f, db.fragments.get j = some f → j ≠ k → f.status = .conflict)
    (hv : judgeAnswer env now db question k admitted created = .ok v) : v.Pending db k g admitted := by
  unfold judgeAnswer at hv
  generalize validAnswerConsensus env.text db.answers question = consensus at hv hpeers
  obtain ⟨value, count, values⟩ := consensus
  dsimp only at hv hpeers
  split_ifs at hv with hcount
  · exact disagree_pending hg h (hpeers hcount) hv
  · simp only [pure_bind, pure_ok] at hv
    exact hv ▸ agree_pending hg (h.mono Set.subset_union_left) value count
  · simp only [bind_ok, pure_ok, Prod.exists] at hv
    obtain ⟨s, c, hcite, rfl⟩ := hv
    obtain ⟨hfragments, hshown⟩ := citeAnswer_shown h hcite
    exact agree_pending (hfragments ▸ hg) hshown value count

theorem projectVerdict_shown {spotId : Id} {f : InformationFragment} (h : v.Pending db k g admitted)
    (hsource : g.sourceType = .directedAnswer) (hf : v.db.fragments.get k = some f)
    (hblind : db.blindSpots.get spotId = some admitted.blind) :
    (projectVerdict env now v spotId k f).Shown := by
  obtain ⟨hi, htype⟩ := h.fragment f hf
  obtain ⟨C, hC⟩ : ∃ C : Set FeatureKey, C = {key | ∃ c x, v.conflictId = some c ∧
    v.db.cases.get c = some x ∧ key = x.key c} := ⟨_, rfl⟩
  have hshown := h.shown
  rw [← hC] at hshown
  have hfragment : ShownBut ⟨v.db.fragments, v.db.cases, db.blindSpots⟩ C
      (upsertFragmentMapFeature env now v.db.features k f) := by
    apply Originals.ShownBut.fragment hshown hf
    rintro key (rfl | hkey)
    · exact Or.inl ⟨by rw [htype, hsource]; decide, by
        rw [InformationFragment.key, InformationFragment.key, hi]⟩
    · exact Or.inr hkey
  have hreplaced := hfragment.spot_replaced hblind h.blind Set.subset_union_left
    (Set.mem_union_right C (Set.mem_singleton _))
  have hget : (db.blindSpots.modify spotId fun _ => v.blind).get spotId = some v.blind := by
    simp [hblind]
  have hspot : ShownBut ⟨v.db.fragments, v.db.cases, db.blindSpots.modify spotId fun _ => v.blind⟩ C
      (upsertBlindSpotMapFeature env now (upsertFragmentMapFeature env now v.db.features k f) spotId
        v.blind) := by
    apply (hreplaced.spot hget).mono
    rintro key ⟨hkey | hkey, hne⟩
    · exact hkey
    · exact absurd hkey hne
  rw [← h.spots] at hspot
  unfold projectVerdict
  dsimp only
  cases hconflict : v.conflictId with
  | none =>
    apply hspot.mono
    rw [hC, hconflict]
    rintro key ⟨c, x, hc, -⟩
    cases hc
  | some c =>
    dsimp only [Option.bind_some]
    cases hx : v.db.cases.get c with
    | none =>
      apply hspot.mono
      rw [hC, hconflict]
      rintro key ⟨d, x, hd, hx', -⟩
      obtain rfl := Option.some.inj hd
      cases hx.symm.trans hx'
    | some x =>
      apply (hspot.case hx v.db.fragments v.db.evidence).mono
      rw [hC, hconflict]
      rintro key ⟨⟨d, y, hd, hy, rfl⟩, hne⟩
      obtain rfl := Option.some.inj hd
      obtain rfl := Option.some.inj (hx.symm.trans hy)
      exact hne rfl

end Judged

namespace Db.Shown
variable {env : Env} {now : Time} {db : Db} {actor : Actor} {header : Option Ref}

theorem putMyAnswer {question : Id} {payload : DirectedAnswerPut} {o : AnswerOutcome} (h : db.Shown)
    (hspares : SparesAnswers env now db actor header question payload)
    (hok : putMyAnswer env now db actor header question payload = .ok o) : o.db.Shown := by
  simp only [Questions.putMyAnswer, bind_ok, pure_ok, found_ok] at hok
  obtain ⟨admitted, hadmit, stored, hstored, attachments, hreplace, v, hv, f, hf, rfl⟩ := hok
  obtain ⟨fragments, k, hu⟩ : ∃ t k, upsertAnswerFragment now db.fragments stored.id payload
    admitted = (t, k) := ⟨_, _, rfl⟩
  rw [hu] at hv hf ⊢
  obtain ⟨hid, hrevision, hrows⟩ := storeAnswer_rows hstored
  obtain ⟨⟨g, hg⟩, hothers⟩ := upsertAnswerFragment_shown h hu
  obtain ⟨m, hm⟩ : ∃ m : Db, m = { db with
    answers := stored.answers
    attachments := attachments
    fragments := fragments } := ⟨_, rfl⟩
  have hrow : m.fragments.get k = some g := hm ▸ hg.row
  have hwritten : m.toStore.ShownBut m.blindSpots {g.key k} := hm ▸ hg.shown
  rw [← hm] at hv
  have hpending : v.Pending m k g admitted := by
    apply judgeAnswer_pending hrow hwritten _ hv
    rw [hm]
    intro hcount j hj e he hne
    obtain ⟨u, w, huw, hoffer, hoffer'⟩ := counted_offered hstored env.text hcount
    obtain ⟨hold, hfirst⟩ := hothers j e he hne
    refine hspares admitted hadmit hrevision ⟨attachments, hid ▸ hreplace⟩ u w huw hoffer hoffer' j e
      hold ?_ (hid ▸ hfirst)
    simp only [disagreementCall, Table.mem_select, Bool.and_eq_true, decide_eq_true_eq,
      Option.any_eq_true, List.contains_iff_mem] at hj
    obtain ⟨e', he', hsource, a, ha, x, hx, hquestion, hknown⟩ := hj
    obtain rfl := Option.some.inj (he.symm.trans he')
    refine ⟨hsource, a, ha, ?_⟩
    rcases hrows a x hx with ⟨rfl, hvalue⟩ | ⟨hother, hx⟩
    · exact Or.inl ⟨hid, hvalue ▸ hknown⟩
    · exact Or.inr ⟨x, ⟨hx, hquestion, hid ▸ hother⟩, hknown⟩
  have hprojected : (projectVerdict env now v admitted.question.blindSpotId k f).Shown :=
    projectVerdict_shown hpending hg.source hf (hm ▸ (admitAnswer_spec hadmit).2.1)
  unfold announceAnswer
  dsimp only
  split_ifs <;> exact hprojected.same rfl rfl rfl rfl

theorem createFragment {incident : Ref} {payload : FragmentCreate} {db' : Db}
    {detection : Option Detection} (h : db.Shown) (hspares : SparesFragments env now db actor header incident payload)
    (hok : createFragment env now db actor header incident payload = .ok (db', detection)) :
    db'.Shown := by
  simp only [Questions.createFragment, bind_ok, pure_ok, Prod.exists, Prod.mk.injEq] at hok
  obtain ⟨_, hoperator, _, haccess, i, r, hincident, d, hd, rfl, -⟩ := hok
  obtain ⟨f, hf⟩ : ∃ f, f = operatorFragment now i actor payload := ⟨_, rfl⟩
  have hspared := hspares i r hoperator haccess hincident
  rw [← hf] at hd hspared ⊢
  have hinserted := Store.ShownBut.insertFragment h f
  have hown : (db.fragments.insert f).get db.fragments.size = some f := Table.get_insert_size _ _
  cases d with
  | none => exact hinserted.publishOperatorFragment hown fun _ hk => Or.inr hk
  | some d =>
    obtain ⟨call, hcall, hfind⟩ := detect_ok hd
    unfold detectedCall at hcall
    dsimp only at hcall
    split_ifs at hcall with hdetects
    obtain rfl := Option.some.inj hcall
    rw [Bool.and_eq_true] at hdetects
    have hok := (callFindOrOpen_ok hfind).2.2
    obtain ⟨hafter, x, hx, hi⟩ := hinserted.findOrOpen
      (T := {f.key db.fragments.size} ∪ {⟨f.incidentId, .conflict, d.conflictId⟩}) hok
      (Set.empty_subset _) (Or.inr rfl) (by
        intro k hk g hg hres
        simp only [detectionCall, matchingFragments, List.mem_append, List.mem_filter,
          List.mem_singleton, Table.mem_select] at hk
        rcases Table.get_insert_cases hg with ⟨rfl, rfl⟩ | hold
        · exact Or.inr (Or.inl rfl)
        · rcases hk with ⟨⟨g', hg', hc⟩, -⟩ | rfl
          · obtain rfl := Option.some.inj (hg.symm.trans hg')
            exact Or.inl (hspared hdetects.1 k g hold hc hres)
          · exact absurd (Table.lt_size hold) (lt_irrefl _))
    obtain ⟨e, he, hcontent, -⟩ := (findOrOpen_exact hok).fragments.right_of_some hown
    have hpublished : (publishConflict env now d.after i d).fragments.get db.fragments.size
        = some e := by
      unfold publishConflict
      split <;> exact he
    apply (hafter.publishConflict hx).publishOperatorFragment hpublished
    rintro key ⟨rfl | rfl, hne⟩
    · have htype : e.sourceType = .operator := by
        rw [hcontent, hf]
        rfl
      exact Or.inl ⟨by rw [htype]; decide, by rw [hcontent]; rfl⟩
    · exact absurd (by rw [ConflictCase.key, hi]; rfl) hne

theorem createBlindSpot {incident : Ref} {payload : BlindSpotCreate} {db' : Db} (h : db.Shown)
    (hok : createBlindSpot env now db actor header incident payload = .ok db') :
    db'.Shown := by
  simp only [Questions.createBlindSpot, bind_ok, pure_ok, Prod.exists] at hok
  obtain ⟨-, -, -, -, i, -, -, rfl⟩ := hok
  exact withSpotBoard (h.spotBoard.add _)

theorem runBlindSpotJob {job : Id} {db' : Db} (h : db.Shown)
    (hok : runBlindSpotJob env now db job = .ok db') : db'.Shown := by
  simp only [CrisisMosaic.runBlindSpotJob, bind_ok] at hok
  obtain ⟨j, -, -, -, hok⟩ := hok
  split_ifs at hok
  · exact pure_ok.mp hok ▸ h
  · split at hok
    · exact pure_ok.mp hok ▸ withSpotBoard (h.spotBoard.runReportBlindSpotDetection _ _ _ _)
    · exact absurd hok throw_ok

theorem changeQuestionStatus {id revision : ℕ} {target : QuestionStatus} {db' : Db} (h : db.Shown)
    (hok : changeQuestionStatus now db actor header id revision target = .ok db') :
    db'.Shown := by
  simp only [Questions.changeQuestionStatus, bind_ok, pure_ok] at hok
  obtain ⟨-, -, q, -, -, -, -, -, -, -, i, -, rfl⟩ := hok
  exact h.same rfl rfl rfl rfl

theorem requestAnalysis {conflict : Ref} {incident : Option Ref} {revision : ℕ} {requested : List Id}
    {db' : Db} (h : db.Shown)
    (hok : requestAnalysis env now db actor header conflict incident revision requested
      = .ok db') : db'.Shown := by
  simp only [CrisisMosaic.requestAnalysis, bind_ok, pure_ok, Prod.exists] at hok
  obtain ⟨-, -, id, x, hcase, -, -, -, -, s, jobs, a, ready, hs, i, -, rfl⟩ := hok
  have hx : db.cases.get id = some x := by
    cases hget : getCase db.cases conflict with
    | error e => simp [hget, Except.mapError] at hcase
    | ok p =>
      rw [hget] at hcase
      obtain rfl := Except.ok.inj hcase
      exact getCase_some hget
  simp only [enqueueConflictAnalysis, bind_ok, Prod.exists] at hs
  obtain ⟨-, -, -, -, context, allowed, -, hs⟩ := hs
  split at hs <;> simp only [pure_ok, Prod.mk.injEq] at hs <;> obtain ⟨rfl, -, -, rfl⟩ := hs
  · exact Store.ShownBut.setCaseStatus h hx .analysisReady
  · exact Store.ShownBut.setCaseStatus h hx .analyzing

theorem handle {op : Op} {o : Outcome} (h : db.Shown) (hspares : SparesPeers env db op)
    (hok : handle env db op = .ok o) : o.db.Shown := by
  obtain ⟨now, actor, header, call⟩ := op
  have hstore : ∀ {r : Result Store}, (Outcome.ofStore db <$> r) = .ok o →
      (∀ s, r = .ok s → s.ShownBut db.blindSpots ∅) → o.db.Shown := by
    intro r hok hr
    obtain ⟨s, hs, rfl⟩ := map_ok.mp hok
    exact hr s hs
  cases call with
  | postReport incident payload refinement contact =>
    obtain ⟨r, hr, rfl⟩ := map_ok.mp hok
    exact h.postReport hr
  | patchReport report payload refinement =>
    obtain ⟨r, hr, rfl⟩ := map_ok.mp hok
    exact h.patchReport hr
  | deleteReport report revision =>
    obtain ⟨r, hr, rfl⟩ := map_ok.mp hok
    exact h.deleteReport hr
  | patchReportStatus report revision status =>
    obtain ⟨r, hr, rfl⟩ := map_ok.mp hok
    exact h.patchReportStatus hr
  | patchReportPriority report revision priority refinement =>
    obtain ⟨r, hr, rfl⟩ := map_ok.mp hok
    exact h.patchReportPriority hr
  | createBlindSpot incident payload =>
    obtain ⟨r, hr, rfl⟩ := map_ok.mp hok
    exact h.createBlindSpot hr
  | createQuestion incident payload =>
    obtain ⟨r, hr, rfl⟩ := map_ok.mp hok
    simp only [createQuestion, bind_ok, pure_ok, Prod.exists] at hr
    obtain ⟨-, -, -, -, -, -, i, -, -, blind, -, -, -, rfl⟩ := hr
    exact h.same rfl rfl rfl rfl
  | publishQuestion question revision =>
    obtain ⟨r, hr, rfl⟩ := map_ok.mp hok
    exact h.changeQuestionStatus hr
  | closeQuestion question revision =>
    obtain ⟨r, hr, rfl⟩ := map_ok.mp hok
    exact h.changeQuestionStatus hr
  | putMyAnswer question payload =>
    obtain ⟨r, hr, rfl⟩ := map_ok.mp hok
    exact h.putMyAnswer hspares hr
  | createFragment incident payload =>
    obtain ⟨r, hr, rfl⟩ := map_ok.mp hok
    exact h.createFragment hspares hr
  | createConflict incident payload => exact hstore hok fun s hs => Store.ShownBut.createConflict h hs
  | appendConflictEvidence conflict revision references =>
    exact hstore hok fun s hs => Store.ShownBut.appendConflictEvidence h hs
  | reopenConflict conflict revision reason =>
    exact hstore hok fun s hs => Store.ShownBut.reopenConflict h hs
  | submitConflictDecision conflict payload =>
    exact hstore hok fun s hs => Store.ShownBut.submitConflictDecision h hs
  | requestAnalysis conflict incident revision requested =>
    obtain ⟨r, hr, rfl⟩ := map_ok.mp hok
    exact h.requestAnalysis hr
  | startAnalysis analysis =>
    apply hstore hok
    intro s hs
    simp only [startAnalysis, bind_ok, pure_ok] at hs
    obtain ⟨a, -, rfl⟩ := hs
    exact h
  | completeAnalysis analysis output confidence seenStale =>
    exact hstore hok fun s hs => Store.ShownBut.completeAnalysis h hs
  | failAnalysis analysis error => exact hstore hok fun s hs => Store.ShownBut.failAnalysis h hs
  | retryAnalysis analysis =>
    obtain ⟨r, hr, rfl⟩ := map_ok.mp hok
    simp only [retryAnalysis, bind_ok, pure_ok] at hr
    obtain ⟨a, -, -, -, -, -, -, -, -, -, rfl⟩ := hr
    exact h.same rfl rfl rfl rfl
  | runBlindSpotJob job =>
    obtain ⟨r, hr, rfl⟩ := map_ok.mp hok
    exact h.runBlindSpotJob hr
  | uploads attachments =>
    obtain rfl := pure_ok.mp hok
    exact h.same rfl rfl rfl rfl

end Db.Shown

/-- Every feature of a fragment, a case or a blind spot has its source, and carries the status and
the revision of the source; of the fragments only those of no resident's report are shown. -/
structure Db.MapCurrent (db : Db) : Prop where
  fragment : ∀ i f, db.features.get i = some f → f.kind = .fragment →
    ∃ g, db.fragments.get f.sourceRef = some g ∧
      (g.sourceType ≠ .residentReport → f.status = .fragment g.status ∧ f.revision = g.revision)
  conflict : ∀ i f, db.features.get i = some f → f.kind = .conflict →
    ∃ x, db.cases.get f.sourceRef = some x ∧ f.status = .conflict x.status ∧ f.revision = x.revision
  blindSpot : ∀ i f, db.features.get i = some f → f.kind = .blindSpot →
    ∃ b, db.blindSpots.get f.sourceRef = some b ∧ f.status = .blindSpot b.status ∧
      f.revision = b.revision

theorem Db.Shown.mapCurrent {db : Db} (h : db.Shown) : db.MapCurrent := by
  have hcopy : ∀ i f, db.features.get i = some f → f.key ∉ free →
      (db.toStore.originals db.blindSpots).version f.key = some f.version := by
    intro i f hf hfree
    apply h.current i f hf
    rintro (hmem | hmem)
    · exact hfree hmem
    · exact hmem
  constructor
  · rintro i ⟨j, kind, id, _, _, _, _, _, _, _, _, _⟩ hf rfl
    obtain ⟨g, hg, -, -, hversion⟩ := version_fragment.mp (hcopy i _ hf (by simp [free, MapFeature.key]))
    obtain ⟨hstatus, hrevision⟩ := Prod.mk.inj hversion
    exact ⟨g, hg, fun _ => ⟨hstatus.symm, hrevision.symm⟩⟩
  · rintro i ⟨j, kind, id, _, _, _, _, _, _, _, _, _⟩ hf rfl
    obtain ⟨x, hx, -, hversion⟩ := version_conflict.mp (hcopy i _ hf (by simp [free, MapFeature.key]))
    obtain ⟨hstatus, hrevision⟩ := Prod.mk.inj hversion
    exact ⟨x, hx, hstatus.symm, hrevision.symm⟩
  · rintro i ⟨j, kind, id, _, _, _, _, _, _, _, _, _⟩ hf rfl
    obtain ⟨b, hb, -, hversion⟩ := version_blindSpot.mp (hcopy i _ hf (by simp [free, MapFeature.key]))
    obtain ⟨hstatus, hrevision⟩ := Prod.mk.inj hversion
    exact ⟨b, hb, hstatus.symm, hrevision.symm⟩

section Runs
variable (env : Env) (incidents : Table Incident) (devices : Table AnonymousDevice)
  (attachments : Table Attachment)

theorem initial_shown : (Db.initial incidents devices attachments).Shown :=
  Table.Copies.empty _ _

theorem step_shown {db : Db} {op : Op} (h : db.Shown) (hspares : SparesPeers env db op) :
    (step env db op).Shown := by
  apply step_cases (P := Db.Shown) h
  intro o ho
  have hbegun : db.begin.Shown := h
  exact hbegun.handle (sparesPeers_begin.mpr hspares) ho

theorem features_mirror_their_rows (ops : List Op)
    (h : Along (step env) (SparesPeers env) (Db.initial incidents devices attachments) ops) :
    (reached env incidents devices attachments ops).MapCurrent := by
  apply Db.Shown.mapCurrent
  exact run_invariant (step env) (fun s op hs hc => step_shown env hs hc)
    (initial_shown incidents devices attachments) h

end Runs

namespace Sample

theorem observed_system : (some (30 : ℚ)).isSome → (some CoordinateSystem.wgs84).isSome := id

/-- A fragment an operator places on the road of the reports. -/
def observed (value : String) : FragmentCreate :=
  { fragment (some "road_passability") (some value) 0 with
    latitude := some ⟨30, north⟩
    longitude := some ⟨10, east⟩
    coordinateSystem := some .wgs84
    paired := rfl
    systemGiven := observed_system
    topic := "road_passability" }

/-- A resident's report contradicts what an operator wrote. -/
def contradictedByReport : List Op :=
  [⟨0, admin, none, .createFragment (.id 0) (observed "blocked")⟩,
    ⟨1, resident, none, .postReport (.id 0) (roadReport "road passable") (.ok none) (.ok ())⟩]

/-- Two operators contradict each other. -/
def contradictedByOperator : List Op :=
  [⟨0, admin, none, .createFragment (.id 0) (observed "blocked")⟩,
    ⟨1, secondAdmin, none, .createFragment (.id 0) (observed "passable")⟩]

end Sample

open Sample in
theorem contradicting_report_marks_the_feature :
    (reached env ⟨[incident]⟩ ⟨[⟨none⟩, ⟨none⟩]⟩ .empty contradictedByReport).MapCurrent ∧
      ((Sample.reached contradictedByReport).features.get 0).any (fun f =>
        decide (f.status = .fragment .conflict)) = true :=
  ⟨features_mirror_their_rows env _ _ _ contradictedByReport
    ⟨(fun _ _ _ _ _ _ _ _ hg => nomatch hg), trivial, trivial⟩, by decide +kernel⟩

/-- The first operator's fragment is in conflict; its feature says that it is not. -/
theorem contradicting_operator_leaves_the_feature :
    ∃ f g, (Sample.reached Sample.contradictedByOperator).features.get 0 = some f ∧
      f.kind = .fragment ∧
      (Sample.reached Sample.contradictedByOperator).fragments.get f.sourceRef = some g ∧
      g.sourceType = .operator ∧ g.status = .conflict ∧ f.status = .fragment .normal ∧
      ¬ (Sample.reached Sample.contradictedByOperator).MapCurrent := by
  obtain ⟨f, hf, h⟩ := (Option.any_eq_true _ _).mp
    (show ((Sample.reached Sample.contradictedByOperator).features.get 0).any (fun f =>
      decide (f.kind = .fragment) && decide (f.sourceRef = 0) &&
        decide (f.status = .fragment .normal)) = true by decide +kernel)
  obtain ⟨g, hg, k⟩ := (Option.any_eq_true _ _).mp
    (show ((Sample.reached Sample.contradictedByOperator).fragments.get 0).any (fun g =>
      decide (g.sourceType = .operator) && decide (g.status = .conflict)) = true by decide +kernel)
  simp only [Bool.and_eq_true, decide_eq_true_eq] at h k
  rw [← h.1.2] at hg
  refine ⟨f, g, hf, h.1.1, hg, k.1, k.2, h.2, fun hcurrent => ?_⟩
  obtain ⟨e, he, hstatus⟩ := hcurrent.fragment 0 f hf h.1.1
  obtain rfl := Option.some.inj (hg.symm.trans he)
  have hsame := (hstatus (by rw [k.1]; decide)).1
  rw [h.2, k.2] at hsame
  exact nomatch hsame

end CrisisMosaic
