import CrisisMosaic.Answers
import CrisisMosaic.AiQueue
import CrisisMosaic.ObservationSteps

/-!
# What the other routes do

Operator fragments and answers, and the conflict routes apart from decisions:
each works on the store it began with, and none touches a resident's fragment.
-/

namespace CrisisMosaic
open Relational Store

/-- What a transaction that left the reports and their fragments alone did. -/
structure Worked (env : Env) (now : Time) (db db' : Db) (asked : Asked) (reopens : Id → Prop)
    (detection : Option Detection) : Prop where
  works : db.toStore.Works asked reopens db'.toStore
  fragments : CalmFragments db.fragments db'.fragments
  reports : db'.reports = db.reports
  detected : ∀ d, detection = some d → d.Of env now db.toStore

theorem worked_of_quiet (env : Env) (now : Time) {db db' : Db} (hs : db.toStore.Sound)
    (h : db.toStore.Quiet db'.toStore) (hr : db'.reports = db.reports) :
    Worked env now db db' .nothing (fun _ => False) none where
  works := h.works hs _ _
  fragments := h.fragments ▸ .refl .refl _
  reports := hr
  detected := fun _ hd => nomatch hd

section Detecting
variable {env : Env} {now : Time} {b s t : Store} {asked : Asked}

/-- A detection that is only published ends the transaction. -/
theorem settles_of_call (hs : s.Sound) {sources : Sources} {d : Detection}
    (hids : ∀ k ∈ d.call.fragments, ∀ f, s.fragments.get k = some f → f.status ≠ .withdrawn)
    (h : CallStep sources s d.after d.call.fragments d.conflictId d.opened)
    (hq : d.after.Quiet t) : b.Settles none s asked (openedBy (some d)) t where
  advances := (h.advances.mono fun _ hc => ⟨d, rfl, hc.1, hc.2⟩).quiet hq
  evidence := rows_of_call hs.upToDate hids h hq.evidence (hq.advances fun _ => False).board
    hq.grows (h.advances.quiet hq).fragments
  size := by
    rw [hq.evidence]
    exact h.added.size
  handled := fun _ hk => nomatch hk

theorem Detection.Of.of_call {sources : Sources} {call : ConflictCall} {d : Detection}
    (h : callFindOrOpen env now sources s call = .ok d) (hc : s.cases = b.cases)
    (hf : s.facts = b.facts) : d.Of env now b := by
  obtain ⟨hcall, hbefore, -⟩ := callFindOrOpen_ok h
  exact ⟨⟨sources, by rw [hbefore, hcall]; exact h⟩, hbefore ▸ hc, hbefore ▸ hf⟩

/-- New fragments and new versions of old ones, with no evidence withdrawn. -/
theorem rewrites_of_calm {fragments : Table InformationFragment}
    (h : CalmFragments s.fragments fragments) :
    s.Rewrites none { s with fragments := fragments } where
  features := .refl _
  analyses := .refl _
  cases := rfl
  facts := rfl
  fragments := h.mono fun _ _ => FragmentStep.of_calm
  evidence := rfl
  past := fun _ _ _ hk => nomatch hk
  withdrew := by
    intro k f g hf hg hw
    obtain ⟨g', hg', -, hcalm⟩ := h.get_some hf
    obtain rfl : g' = g := Option.some.inj (hg'.symm.trans hg)
    exact Or.inl (hcalm.mp hw)

/-- A transaction that first rewrites fragments of its own. -/
theorem worked_of_settles {db db' : Db} {fragments : Table InformationFragment}
    {reopens : Id → Prop} {detection : Option Detection} (hs : db.toStore.Sound)
    (hcalm : CalmFragments db.fragments fragments)
    (hend : db.toStore.Settles none { db.toStore with fragments := fragments } asked reopens
      db'.toStore) (hr : db'.reports = db.reports)
    (hd : ∀ d, detection = some d → d.Of env now db.toStore) :
    Worked env now db db' asked reopens detection where
  works := (rewrites_of_calm (s := db.toStore) hcalm).works hs.upToDate hend
  fragments := Table.Evolves.trans (fun _ _ _ => InformationFragment.Calm.trans) hcalm
    hend.advances.fragments
  reports := hr
  detected := hd

end Detecting

namespace Questions
section Fragments
variable (env : Env) (now : Time)

theorem publishConflict_quiet (s : Store) (incidentId : Id) (d : Detection) :
    s.Quiet (publishConflict env now s incidentId d) := by
  unfold publishConflict
  split
  · exact (emit_quiet s now incidentId _).trans
      (features_quiet _ (upsertConflictMapFeature_factSilent env now _ _ _ _ _))
  · exact .refl s

theorem publishOperatorFragment_quiet (s : Store) (incidentId id : Id) :
    s.Quiet (publishOperatorFragment env now s incidentId id) := by
  unfold publishOperatorFragment
  split
  · exact (features_quiet s (upsertFragmentMapFeature_factSilent env now _ _ _)).trans
      (emit_quiet _ now incidentId _)
  · exact .refl s

variable {env now}

theorem createFragment_spec {db db' : Db} {actor : Actor} {header : Option Ref} {incidentId : Ref}
    {payload : FragmentCreate} {detection : Option Detection}
    (h : createFragment env now db actor header incidentId payload = .ok (db', detection))
    (hs : db.toStore.Sound) : Worked env now db db' .nothing (openedBy detection) detection := by
  simp only [createFragment, bind_ok, pure_ok, Prod.exists, Prod.mk.injEq] at h
  obtain ⟨-, -, -, -, i, -, -, det, hdet, rfl, rfl⟩ := h
  have hcalm : CalmFragments db.fragments
      (db.fragments.insert (operatorFragment now i actor payload)) :=
    (Table.Evolves.refl .refl _).insert ⟨by simp [operatorFragment], by simp [operatorFragment]⟩
  have hmid := (rewrites_of_calm (s := db.toStore) hcalm).sound hs
  cases det with
  | none =>
    exact worked_of_settles hs hcalm
      ((Settles.refl _ _ _).quiet (publishOperatorFragment_quiet env now _ i _)) rfl
      fun _ hd => by cases hd
  | some d =>
    obtain ⟨hids, hcall⟩ := detect_spec hdet hmid.facts (Table.get_insert_size _ _)
      (by simp [operatorFragment])
    obtain ⟨call, -, hmade⟩ := detect_ok hdet
    refine worked_of_settles hs hcalm (settles_of_call hmid hids hcall
      ((publishConflict_quiet env now d.after i d).trans
        (publishOperatorFragment_quiet env now _ i _))) rfl ?_
    rintro d' hd
    obtain rfl := Option.some.inj hd
    exact .of_call hmade rfl rfl

end Fragments
end Questions

section Conflicts
variable {env : Env} {now : Time} {sources : Sources} {s t : Store}

/-- The fragments among some references. -/
def citesFragment (references : List EvidenceReference) (k : Id) : Prop :=
  ∃ r ∈ references, r.kind = .fragment ∧ r.sourceId = k

/-- The row is an older version of one of the references, on the case `c`. -/
def isSuperseded (sources : Sources) (fragments : Table InformationFragment) (c : Id)
    (references : List EvidenceReference) (e : ConflictEvidence) : Prop :=
  e.conflictId = c ∧ (∃ r ∈ references, e.kind = r.kind ∧ e.sourceId = r.sourceId) ∧
    sourceRevision sources fragments e.kind e.sourceId ≠ some e.sourceRevision

theorem projectCase_quiet (env : Env) (now : Time) (s : Store) (id : Id) (x : ConflictCase) :
    s.Quiet (s.projectCase env now id x) :=
  features_quiet s (upsertConflictMapFeature_factSilent env now _ _ _ _ _)

theorem appendEvidence_settles (hs : s.Sound) {id : Id} {x : ConflictCase}
    {references : List EvidenceReference} {reason : String} {added : List Id}
    (h : appendEvidence env now sources s id x references reason = .ok (t, added))
    {asked : Asked} (hcited : ∀ k f, citesFragment references k → s.fragments.get k = some f →
      f.status = .withdrawn → asked.cites k)
    (hlost : ∀ i e, s.evidence.get i = some e → isSuperseded sources s.fragments id references e →
      asked.supersedes e) (b : Store) :
    b.Settles none s asked (fun _ => False) t := by
  simp only [appendEvidence, bind_ok, pure_ok, Prod.exists, Prod.mk.injEq] at h
  obtain ⟨evidence, ids, hadd, rfl, rfl⟩ := h
  have hadv : s.Advances (fun _ => False) (extendCase now { s with evidence := evidence } id x.incidentId reason) :=
    extendCase_advances now ((Store.Advances.refl _ s).setEvidence evidence)
      (fun y z hy hz => by rw [Option.some.inj (hy.symm.trans hz)]) _ _
  have hrows := addEvidence_added hadd
  exact
    { advances := hadv
      evidence := by
        refine rows_of_append hs.upToDate hadv.fragments ?_ hrows (fun i e he hc hce hr => ?_)
          fun k f hce hf hw => ?_
        · intro y z hy hz
          simp only [extendCase, updateCase, Table.get_modify_self, hy, Option.map_some,
            Option.some.injEq] at hz
          rw [← hz]
          exact Nat.lt_succ_self _
        · obtain ⟨r, hr', hk, hsrc⟩ := hce
          exact hlost i e he ⟨hc, ⟨r, hr', hk, hsrc⟩, hr⟩
        · obtain ⟨r, hr, hk, rfl⟩ := hce
          exact hcited _ f ⟨r, hr, hk.symm, rfl⟩ hf hw
      size := hrows.size
      handled := fun _ hk => by cases hk }

theorem appendEvidence_fragments {id : Id} {x : ConflictCase} {references : List EvidenceReference}
    {reason : String} {added : List Id}
    (h : appendEvidence env now sources s id x references reason = .ok (t, added)) :
    t.fragments = s.fragments := by
  simp only [appendEvidence, bind_ok, pure_ok, Prod.exists, Prod.mk.injEq] at h
  obtain ⟨evidence, ids, -, rfl, -⟩ := h
  rfl

theorem getCase_some {cases : Table ConflictCase} {r : Ref} {id : Id} {x : ConflictCase}
    (h : getCase cases r = .ok (id, x)) : cases.get id = some x := by
  cases r with
  | id i =>
    simp only [getCase, found_ok, Option.map_eq_some_iff, Prod.mk.injEq] at h
    obtain ⟨y, hy, rfl, rfl⟩ := h
    exact hy
  | name a =>
    simp only [getCase, found_ok] at h
    exact (Table.find_some h).1

theorem appendConflictEvidence_spec {actor : Actor} {header : Option Ref} {conflictId : Ref}
    {revision : ℕ} {references : List EvidenceReference}
    (h : appendConflictEvidence env now sources s actor header conflictId revision references = .ok t)
    (hs : s.Sound) (b : Store) : ∃ id x, getCase s.cases conflictId = .ok (id, x) ∧
      b.Settles none s ⟨citesFragment references, isSuperseded sources s.fragments id references⟩
        (fun _ => False) t := by
  simp only [appendConflictEvidence, bind_ok, pure_ok, Prod.exists] at h
  obtain ⟨-, -, id, x, hx, -, -, -, -, -, -, -, u, added, hadd, rfl⟩ := h
  exact ⟨id, x, hx, ((appendEvidence_settles hs hadd (fun _ _ hc _ _ => hc)
    (fun _ _ _ he => he) b).quiet
    (projectCase_quiet env now u id _)).quiet (emit_quiet _ now _ _)⟩

theorem createConflict_spec {actor : Actor} {header : Option Ref} {incidentId : Ref}
    {payload : ConflictCreate}
    (h : createConflict env now sources s actor header incidentId payload = .ok t) (hs : s.Sound)
    (b : Store) :
    b.Settles none s ⟨citesFragment payload.evidence, fun _ => False⟩ (fun _ => False) t := by
  simp only [createConflict, bind_ok, pure_ok, Prod.exists] at h
  obtain ⟨-, -, -, -, i, -, -, -, -, evidence, added, hadd, rfl⟩ := h
  have hrows := addEvidence_added hadd
  have hfresh : (manualCase now i payload).Consistent := by
    simp [ConflictCase.Consistent, manualCase]
  have hadv : s.Advances (fun _ => False)
      { s with cases := s.cases.insert (manualCase now i payload), evidence := evidence } :=
    ((Store.Advances.refl _ s).insertCase hfresh).setEvidence evidence
  have hset : b.Settles none s ⟨citesFragment payload.evidence, fun _ => False⟩ (fun _ => False)
      { s with cases := s.cases.insert (manualCase now i payload), evidence := evidence } :=
    { advances := hadv
      evidence := by
        -- the case is new, so none of its rows was there before
        intro j e he
        have hnone : s.cases.get s.cases.size = none := Table.get_size _
        refine .of_change hs.upToDate hadv.fragments (fun x _ hx => by cases hnone.symm.trans hx)
          (fun _ _ _ _ _ => Or.inr fun x hx => by cases hnone.symm.trans hx) (fun k f hce _ _ => ?_)
          (hrows.rows j e he)
        obtain ⟨r, hr, hk, rfl⟩ := hce
        exact ⟨r, hr, hk.symm, rfl⟩
      size := hrows.size
      handled := fun _ hk => by cases hk }
  exact (hset.quiet (projectCase_quiet env now _ _ _)).quiet (emit_quiet _ now _ _)

theorem settles_of_kept {b : Store} {asked : Asked} {reopens : Id → Prop}
    (h : s.Advances reopens t) (he : t.evidence = s.evidence) :
    b.Settles none s asked reopens t where
  advances := h
  evidence := fun i e hi => by
    rw [he] at hi
    exact hi ▸ .kept e
  size := by rw [he]
  handled := fun _ hk => nomatch hk

theorem reopenCase_settles (hs : s.Sound) {id : Id} {x : ConflictCase}
    (hx : s.cases.get id = some x) (hr : x.status = .resolved) (reason : String) (b : Store) :
    b.Settles none s .nothing (fun c => c = id) (reopenCase env now s id x reason) := by
  obtain ⟨hadv, -⟩ := reopen_advances now hs.facts hx hr
  have hset : b.Settles none s .nothing (fun c => c = id) _ :=
    settles_of_kept (hadv.quiet (stale_quiet _ now id x.incidentId "conflict_reopened")) rfl
  have hopened := fun e => (hset.quiet (projectCase_quiet env now _ id (reopen x))).quiet
    (emit_quiet _ now x.incidentId e)
  unfold reopenCase
  dsimp only
  split
  · exact (hopened _).quiet (emit_quiet _ now _ _)
  · exact hopened _

theorem reopenConflict_spec {actor : Actor} {header : Option Ref} {conflictId : Ref} {revision : ℕ}
    {reason : String} (h : reopenConflict env now s actor header conflictId revision reason = .ok t)
    (hs : s.Sound) (b : Store) : ∃ id x, getCase s.cases conflictId = .ok (id, x) ∧
      b.Settles none s .nothing (fun c => c = id) t := by
  simp only [reopenConflict, bind_ok, pure_ok, require_ok, Prod.exists] at h
  obtain ⟨-, -, id, x, hx, -, -, -, -, -, hr, -, -, -, rfl⟩ := h
  exact ⟨id, x, hx, reopenCase_settles hs (getCase_some hx) hr reason b⟩

end Conflicts

namespace Questions
section Answers
variable {env : Env} {now : Time} {db : Db} {questionId fragmentId : Id} {admitted : Admitted}

theorem isAnswerFragment_iff {answerId : Id} {f : InformationFragment} :
    isAnswerFragment answerId f = true ↔
      f.sourceType = .directedAnswer ∧ f.sourceRefId = some answerId := by
  simp [isAnswerFragment]

theorem upsertAnswerFragment_spec (now : Time) (fragments : Table InformationFragment) (answerId : Id)
    (payload : DirectedAnswerPut) (admitted : Admitted) :
    let u := upsertAnswerFragment now fragments answerId payload admitted
    CalmFragments fragments u.1 ∧ (∃ g, u.1.get u.2 = some g ∧ g.sourceType = .directedAnswer) ∧
      (fragments.get u.2 = none ∨ fragments.first (isAnswerFragment answerId) = some u.2) := by
  unfold upsertAnswerFragment
  cases hfirst : fragments.first (isAnswerFragment answerId) with
  | none =>
    exact ⟨(Table.Evolves.refl .refl _).insert ⟨by simp [firstAnswerFragment],
      by simp [firstAnswerFragment]⟩, ⟨_, Table.get_insert_size _ _, rfl⟩,
      Or.inl (Table.get_size _)⟩
  | some id =>
    obtain ⟨f, hf, hp⟩ := Table.first_some hfirst
    refine ⟨(Table.Evolves.refl .refl _).modify fun g hg _ => ?_,
      ⟨reviseAnswerFragment now payload admitted f, by simp [hf], (isAnswerFragment_iff.mp hp).1⟩,
      Or.inr rfl⟩
    rw [hg]
    exact ⟨⟨rfl, rfl, rfl, Nat.le_succ _⟩, Iff.rfl⟩

/-- An answer's fragment is never withdrawn. -/
theorem Sound.answer_not_withdrawn {s : Store} (hs : s.Sound) {k : Id} {f : InformationFragment}
    (hf : s.fragments.get k = some f) (ht : f.sourceType = .directedAnswer) :
    f.status ≠ .withdrawn := by
  intro hw
  rw [hs.withdrawn k f hf hw] at ht
  exact nomatch ht

theorem disagreementCall_fragments (hs : db.toStore.Sound) (questionId incidentId : Id)
    (blind : BlindSpot) :
    ∀ k ∈ (disagreementCall db questionId incidentId blind).fragments, ∀ f,
      db.fragments.get k = some f → f.status ≠ .withdrawn := by
  intro k hk f hf
  simp only [disagreementCall, Table.mem_select, Bool.and_eq_true, decide_eq_true_eq] at hk
  obtain ⟨g, hg, ht, -⟩ := hk
  obtain rfl : f = g := Option.some.inj (hf.symm.trans hg)
  exact Sound.answer_not_withdrawn hs hf ht

theorem announceOpened_quiet (now : Time) (s : Store) (incidentId : Id) (d : Detection) :
    s.Quiet (announceOpened now s incidentId d) := by
  unfold announceOpened
  split
  · split
    · exact emit_quiet s now incidentId _
    · exact .refl s
  · exact .refl s

/-- What judging an answer did to the store, and the detection it made. -/
structure Judged (env : Env) (now : Time) (db : Db) (asked : Asked) (v : Verdict) : Prop where
  settles : ∀ b : Store, b.Settles none db.toStore asked (openedBy v.detection) v.db.toStore
  reports : v.db.reports = db.reports
  detected : ∀ d, v.detection = some d →
    ∃ call, callFindOrOpen env now db.sources db.toStore call = .ok d

theorem disagree_spec {v : Verdict} (h : disagree env now db questionId admitted = .ok v)
    (hs : db.toStore.Sound) (asked : Asked) : Judged env now db asked v := by
  simp only [disagree, bind_ok, pure_ok] at h
  obtain ⟨d, hd, rfl⟩ := h
  have hids := disagreementCall_fragments hs questionId admitted.question.incidentId admitted.blind
  have hcall := callFindOrOpen_spec hd hs.facts hids
  rw [← (callFindOrOpen_ok hd).1] at hids hcall
  exact
    { settles := fun b => settles_of_call hs hids hcall (announceOpened_quiet now d.after _ d)
      reports := rfl
      detected := fun d' hd' => ⟨_, Option.some.inj hd' ▸ hd⟩ }

theorem citeAnswer_settles {s : Store} {incidentId : Id} {conflictId : Option Id}
    (h : citeAnswer env now db.sources db.toStore incidentId fragmentId = .ok (s, conflictId))
    (hs : db.toStore.Sound) {g : InformationFragment} (hg : db.fragments.get fragmentId = some g)
    (ht : g.sourceType = .directedAnswer) {asked : Asked}
    (hasked : ∀ i e, db.evidence.get i = some e →
      citingCase db.toStore incidentId fragmentId = some e.conflictId →
      e.kind = .fragment → e.sourceId = fragmentId → asked.supersedes e) (b : Store) :
    b.Settles none db.toStore asked (fun _ => False) s ∧ s.fragments = db.fragments := by
  unfold citeAnswer at h
  cases hc : citingCase db.toStore incidentId fragmentId with
  | none =>
    simp only [hc, pure_ok, Prod.mk.injEq] at h
    obtain ⟨rfl, -⟩ := h
    exact ⟨.refl _ _ _, rfl⟩
  | some id =>
    simp only [hc, bind_ok, pure_ok, found_ok, Prod.exists, Prod.mk.injEq] at h
    obtain ⟨x, hx, t, added, hadd, rfl, -⟩ := h
    refine ⟨(appendEvidence_settles hs hadd (fun k f hk hf hw => ?_) (fun i e hi he => ?_) b).quiet
      (emit_quiet t now incidentId _),
      show t.fragments = db.fragments from appendEvidence_fragments hadd⟩
    · obtain ⟨r, hr, -, rfl⟩ := hk
      rw [List.mem_singleton] at hr
      subst hr
      obtain rfl : f = g := Option.some.inj (hf.symm.trans hg)
      exact absurd hw (Sound.answer_not_withdrawn hs hf ht)
    · obtain ⟨hec, ⟨r, hr, hk, hsrc⟩, -⟩ := he
      rw [List.mem_singleton] at hr
      subst hr
      exact hasked i e hi (by rw [hc, hec]) hk hsrc

theorem agree_settles (now : Time) (db : Db) (questionId : Id) (admitted : Admitted) {s : Store} {asked : Asked} {b m : Store}
    (h : b.Settles none m asked (fun _ => False) s) {g : InformationFragment}
    (hg : s.fragments.get fragmentId = some g) (hstatus : g.status ≠ .withdrawn)
    (consensus : Option String) (count : ℕ) (conflictId : Option Id) :
    let v := agree now { db with toStore := s } questionId fragmentId admitted consensus count conflictId
    b.Settles none m asked (fun _ => False) v.db.toStore ∧ v.db.reports = db.reports ∧
      v.detection = none := by
  have hcalm : CalmFragments s.fragments
      (s.fragments.modify fragmentId fun f => { f with status := .resolved, updatedAt := now }) := by
    refine (Table.Evolves.refl .refl _).modify fun f hf _ => ?_
    obtain rfl : f = g := Option.some.inj (hf.symm.trans hg)
    rw [hf]
    exact ⟨⟨rfl, rfl, rfl, le_rfl⟩, iff_of_false (by simp) hstatus⟩
  unfold agree
  dsimp only
  by_cases hreached : consensus.isSome = true ∧ admitted.blind.minValidAnswers ≤ count
  · rw [if_pos hreached]
    exact ⟨h.setFragments hcalm (Table.size_modify _ _ _), rfl, rfl⟩
  · rw [if_neg hreached]
    by_cases hresolved : admitted.blind.status = .resolved
    · rw [if_pos hresolved]
      exact ⟨h, rfl, rfl⟩
    · rw [if_neg hresolved]
      exact ⟨h, rfl, rfl⟩

theorem judgeAnswer_spec {created : Bool} {v : Verdict}
    (h : judgeAnswer env now db questionId fragmentId admitted created = .ok v)
    (hs : db.toStore.Sound) {g : InformationFragment} (hg : db.fragments.get fragmentId = some g)
    (ht : g.sourceType = .directedAnswer) (asked : Asked)
    (hasked : ∀ i e, db.evidence.get i = some e → created = false →
      (validAnswerConsensus env.text db.answers questionId).2.2.length ≤ 1 →
      citingCase db.toStore admitted.question.incidentId fragmentId = some e.conflictId →
      e.kind = .fragment → e.sourceId = fragmentId → asked.supersedes e) :
    Judged env now db asked v := by
  have hstatus := Sound.answer_not_withdrawn hs hg ht
  unfold judgeAnswer at h
  generalize hcons : validAnswerConsensus env.text db.answers questionId = consensus at h hasked
  obtain ⟨value, count, values⟩ := consensus
  dsimp only at h hasked
  by_cases hmany : 1 < values.length
  · rw [if_pos hmany] at h
    exact disagree_spec h hs asked
  · rw [if_neg hmany] at h
    have hset : ∃ s conflictId, agree now { db with toStore := s } questionId fragmentId admitted value
        count conflictId = v ∧ (∀ b : Store, b.Settles none db.toStore asked (fun _ => False) s ∧
          s.fragments = db.fragments) := by
      cases created with
      | true =>
        simp only [if_true, bind_ok, pure_ok, Prod.exists] at h
        obtain ⟨s, conflictId, hsc, hv⟩ := h
        obtain ⟨rfl, rfl⟩ := Prod.mk.inj hsc
        exact ⟨_, _, hv, fun b => ⟨.refl _ _ _, rfl⟩⟩
      | false =>
        simp only [Bool.false_eq_true, if_false, bind_ok, pure_ok, Prod.exists] at h
        obtain ⟨s, conflictId, hsc, hv⟩ := h
        exact ⟨s, conflictId, hv,
          citeAnswer_settles hsc hs hg ht fun i e he => hasked i e he rfl (Nat.not_lt.mp hmany)⟩
    obtain ⟨s, conflictId, rfl, hset⟩ := hset
    have hagree := fun b => agree_settles now db questionId admitted (hset b).1 ((hset b).2 ▸ hg) hstatus
      value count conflictId
    have hnone := (hagree db.toStore).2.2
    exact
      { settles := fun b => by
          rw [hnone, openedBy_none]
          exact (hagree b).1
        reports := (hagree db.toStore).2.1
        detected := by
          intro d hd
          rw [hnone] at hd
          cases hd }

theorem validAnswerConsensus_congr {text : TextLib} {t u : Table DirectedAnswer}
    (h : t.rows.map (fun a => (a.questionId, a.semanticValue)) =
      u.rows.map fun a => (a.questionId, a.semanticValue)) (questionId : Id) :
    validAnswerConsensus text t questionId = validAnswerConsensus text u questionId := by
  have hvalues : ∀ v : Table DirectedAnswer,
      (v.rows.filter fun a => a.questionId = questionId && !isUnknown text a.semanticValue).map
          (·.semanticValue) =
        ((v.rows.map fun a => (a.questionId, a.semanticValue)).filter fun p =>
          p.1 = questionId && !isUnknown text p.2).map (·.2) := by
    intro v
    rw [List.filter_map, List.map_map]
    rfl
  simp only [validAnswerConsensus, hvalues, h]

/-- A changed answer counts by its new value only. -/
theorem consensus_changed (text : TextLib) {answers : Table DirectedAnswer} {id : Id}
    {a b : DirectedAnswer} (ha : answers.get id = some a) (hq : b.questionId = a.questionId)
    (questionId : Id) :
    validAnswerConsensus text (answers.modify id fun _ => b) questionId =
      validAnswerConsensus text
        (answers.modify id fun a => { a with semanticValue := b.semanticValue }) questionId := by
  refine validAnswerConsensus_congr (List.ext_getElem? fun i => ?_) questionId
  simp only [Table.modify, List.getElem?_map, List.getElem?_modify]
  by_cases hi : id = i
  · subst hi
    have ha' : answers.rows[id]? = some a := ha
    simp [ha', hq]
  · simp [hi]

/-- The row is evidence of an earlier answer of the device. The request changes that answer so
that the answers to the question agree, and the row's case is the one the answer is cited on. -/
def Recites (env : Env) (db : Db) (actor : Actor) (questionId : Id) (payload : DirectedAnswerPut)
    (e : ConflictEvidence) : Prop :=
  ∃ q option answerId a, db.questions.get questionId = some q ∧
    q.options.find? (fun o => o.id = payload.optionId) = some option ∧
    db.answers.find (isAnswerOf questionId actor.subjectId) = some (answerId, a) ∧
    db.fragments.first (isAnswerFragment answerId) = some e.sourceId ∧ e.kind = .fragment ∧
    (validAnswerConsensus env.text (db.answers.modify answerId fun a =>
      { a with semanticValue := orText option.semanticValue option.id }) questionId).2.2.length ≤ 1 ∧
    citingCase db.toStore q.incidentId e.sourceId = some e.conflictId

theorem admitAnswer_spec {db : Db} {actor : Actor} {header : Option Ref}
    {payload : DirectedAnswerPut} (h : admitAnswer env now db actor header questionId payload = .ok admitted) :
    db.questions.get questionId = some admitted.question ∧
      db.blindSpots.get admitted.question.blindSpotId = some admitted.blind ∧
      ∃ option, admitted.question.options.find? (fun o => o.id = payload.optionId) = some option ∧
        admitted.semanticValue = orText option.semanticValue option.id := by
  simp only [admitAnswer, bind_ok, pure_ok, found_ok, require_ok] at h
  obtain ⟨-, -, q, hq, -, -, -, -, -, -, -, -, -, -, -, -, option, hoption, -, -, blind, hblind, rfl⟩ := h
  exact ⟨hq, hblind, option, hoption, rfl⟩

theorem storeAnswer_cases {answers : Table DirectedAnswer} {deviceId : Id}
    {payload : DirectedAnswerPut} {stored : StoredAnswer}
    (h : storeAnswer now answers questionId deviceId payload admitted = .ok stored) :
    stored.created = true ∨ ∃ a b, answers.find (isAnswerOf questionId deviceId) = some (stored.id, a) ∧
      stored.answers = answers.modify stored.id (fun _ => b) ∧ b.questionId = a.questionId ∧
      b.semanticValue = admitted.semanticValue := by
  unfold storeAnswer at h
  cases hfind : answers.find (isAnswerOf questionId deviceId) with
  | none =>
    simp only [hfind, bind_ok, pure_ok] at h
    obtain ⟨-, -, rfl⟩ := h
    exact Or.inl rfl
  | some r =>
    obtain ⟨id, a⟩ := r
    simp only [hfind, bind_ok, pure_ok] at h
    obtain ⟨-, -, rfl⟩ := h
    exact Or.inr ⟨a, _, rfl, rfl, rfl, rfl⟩

theorem projectVerdict_quiet (env : Env) (now : Time) (v : Verdict) (spotId fragmentId : Id)
    (f : InformationFragment) :
    v.db.toStore.Quiet (projectVerdict env now v spotId fragmentId f).toStore := by
  have hbase := (upsertFragmentMapFeature_factSilent env now v.db.features fragmentId f).trans
    (upsertBlindSpotMapFeature_factSilent env now _ spotId v.blind)
  unfold projectVerdict
  dsimp only
  split
  · exact features_quiet _ (hbase.trans (upsertConflictMapFeature_factSilent env now _ _ _ _ _))
  · exact features_quiet _ hbase

theorem projectVerdict_reports (env : Env) (now : Time) (v : Verdict) (spotId fragmentId : Id)
    (f : InformationFragment) :
    (projectVerdict env now v spotId fragmentId f).reports = v.db.reports := by
  unfold projectVerdict
  dsimp only
  split <;> rfl

theorem announceAnswer_quiet (now : Time) (db : Db) (questionId deviceId : Id) (stored : StoredAnswer)
    (fragmentId : Id) (f : InformationFragment) (admitted : Admitted) (v : Verdict) :
    db.toStore.Quiet
        (announceAnswer now db questionId deviceId stored fragmentId f admitted v).toStore ∧
      (announceAnswer now db questionId deviceId stored fragmentId f admitted v).reports = db.reports := by
  have hfirst := fun e₁ e₂ => (emit_quiet db.toStore now admitted.question.incidentId e₁).trans
    (emit_quiet _ now admitted.question.incidentId e₂)
  unfold announceAnswer
  dsimp only
  cases v.changed with
  | true => exact ⟨(hfirst _ _).trans (emit_quiet _ now _ _), rfl⟩
  | false => exact ⟨hfirst _ _, rfl⟩

theorem putMyAnswer_spec {db : Db} {actor : Actor} {header : Option Ref} {payload : DirectedAnswerPut}
    {o : AnswerOutcome} (h : putMyAnswer env now db actor header questionId payload = .ok o)
    (hs : db.toStore.Sound) :
    Worked env now db o.db ⟨fun _ => False, Recites env db actor questionId payload⟩
      (openedBy o.detection) o.detection := by
  simp only [putMyAnswer, bind_ok, pure_ok, found_ok] at h
  obtain ⟨admitted, hadmit, stored, hstore, attachments, -, v, hv, f, -, rfl⟩ := h
  obtain ⟨hq, -, option, hoption, hvalue⟩ := admitAnswer_spec hadmit
  obtain ⟨hcalm, ⟨g, hg, ht⟩, hid⟩ := upsertAnswerFragment_spec now db.fragments stored.id payload admitted
  have hmid := (rewrites_of_calm (s := db.toStore) hcalm).sound hs
  have hjudged := judgeAnswer_spec hv hmid hg ht
    ⟨fun _ => False, Recites env db actor questionId payload⟩ fun i e he hcreated hagreed hciting hk hsrc => by
      obtain hc | ⟨a, b, hfind, hanswers, hbq, hbv⟩ := storeAnswer_cases hstore
      · simp [hc] at hcreated
      · refine ⟨admitted.question, option, stored.id, a, hq, hoption, hfind, ?_, hk, ?_, ?_⟩
        · rw [hsrc]
          refine hid.resolve_left fun hnone => ?_
          obtain ⟨f₀, hf₀, -⟩ := hs.upToDate i e he hk
          rw [hsrc, hnone] at hf₀
          cases hf₀
        · rw [← hvalue, ← hbv, ← consensus_changed env.text (Table.find_some hfind).1 hbq, ← hanswers]
          exact hagreed
        · rw [hsrc]
          exact hciting
  have hproject := projectVerdict_quiet env now v admitted.question.blindSpotId
    (upsertAnswerFragment now db.fragments stored.id payload admitted).2 f
  have hannounce := announceAnswer_quiet now (projectVerdict env now v admitted.question.blindSpotId
    (upsertAnswerFragment now db.fragments stored.id payload admitted).2 f) questionId actor.subjectId
    stored (upsertAnswerFragment now db.fragments stored.id payload admitted).2 f admitted v
  refine worked_of_settles hs hcalm ((hjudged.settles db.toStore).quiet (hproject.trans hannounce.1))
    ?_ fun d hd => ?_
  · exact hannounce.2.trans ((projectVerdict_reports env now v _ _ f).trans hjudged.reports)
  · obtain ⟨call, hmade⟩ := hjudged.detected d hd
    exact .of_call hmade rfl rfl

end Answers
end Questions
end CrisisMosaic
