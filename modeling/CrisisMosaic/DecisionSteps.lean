import CrisisMosaic.Lifecycle

/-!
# What a decision does

An accepted decision disposes of the current evidence, resolves the case at its
next revision and appends a version to the fact of the case, which it creates if
there is none.
-/

namespace CrisisMosaic
open Relational

/-- A fragment before and after its evidence was disposed of. -/
structure InformationFragment.Disposed (f g : InformationFragment) : Prop where
  follows : f.Follows g
  revision : f.revision < g.revision
  status : g.status ≠ .withdrawn

def IsCurrentlyCited (evidence : Table ConflictEvidence) (fragmentId : Id) : Prop :=
  ∃ i e, evidence.get i = some e ∧ e.isCurrent = true ∧ e.kind = .fragment ∧ e.sourceId = fragmentId

/-- The fact a decision on the case `x` writes to: the one of its key, or a new record. -/
structure DecidesFact (now : Time) (facts : Facts) (x : ConflictCase) (payload : DecisionRequest)
    (ready : Facts) (factId : Id) (record : FactRecord) : Prop where
  wellFormed : facts.WellFormed → ready.Ready factId
  stored : ready.records.get factId = some record
  versions : ready.versions = facts.versions
  key : record.incidentId = x.incidentId ∧ record.factKey = x.factKey
  others : ∀ j r, j ≠ factId → (ready.records.get j = some r ↔ facts.records.get j = some r)
  created : facts.lookup x.incidentId x.factKey = none → record.currentRevision = 0
  former : facts.records.get factId = none ∨ facts.records.get factId = some record
  expected : record.currentRevision = payload.expectedFactRevision

structure Decision (env : Env) (now : Time) (s t : Store) (id : Id) (payload : DecisionRequest)
    (x : ConflictCase) (ready : Facts) (factId : Id) (record : FactRecord) (draft : VersionDraft) :
    Prop where
  case : s.cases.get id = some x
  revision : x.revision = payload.revision
  unresolved : x.status ≠ .resolved
  disposed : ∀ e, e ∈ payload.submittedIds ↔ e ∈ currentEvidence s.evidence id
  fact : DecidesFact now s.facts x payload ready factId record
  draft_status : draft.status = payload.factStatus.1
  draft_public : draft.isPublic = payload.isPublic
  draft_statement : draft.statement = payload.conclusion
  draft_conflict : draft.sourceConflictId = id
  draft_accepted : draft.acceptedEvidenceIds = payload.acceptedIds
  facts : t.facts = ready.appendVersion now factId record draft
  cases : ∃ decidedBy resolution,
    t.cases = s.cases.modify id fun _ => resolveCase now x decidedBy resolution true
  evidence : t.evidence = s.evidence
  analyses : s.feed.AnalysesKept t.feed
  size : t.fragments.size = s.fragments.size
  fragments : ∀ k g, t.fragments.get k = some g → ∃ f, s.fragments.get k = some f ∧
    (g = f ∨ IsCurrentlyCited s.evidence k ∧ f.Disposed g)
  features : ∃ features, FactSilent s.features features ∧
    t.features = publishFactFeature features (decidedFeature now env x factId
      (record.currentRevision + 1) payload
      (factFeatureData factId x.factKey payload.conclusion (record.currentRevision + 1) id))

section Fact
variable {now : Time} {facts ready : Facts} {x : ConflictCase} {payload : DecisionRequest}
  {factId : Id} {record : FactRecord} {created : Bool}

theorem factForDecision_spec
    (h : factForDecision now facts x payload = .ok (ready, factId, record, created)) :
    DecidesFact now facts x payload ready factId record := by
  unfold factForDecision at h
  split at h
  · next hl =>
    simp only [bind_ok, require_ok, pure_ok, Prod.mk.injEq] at h
    obtain ⟨-, hrev, rfl, rfl, rfl, -⟩ := h
    exact
      { wellFormed := fun hwf => hwf.insert rfl rfl fun j r hj => Facts.lookup_none hl hj
        stored := Table.get_insert_size _ _
        versions := rfl
        key := ⟨rfl, rfl⟩
        others := fun j r hj => by simp [Table.get_insert, hj]
        created := fun _ => rfl
        former := Or.inl (Table.get_size _)
        expected := hrev.symm }
  · next id r hl =>
    simp only [bind_ok, require_ok, pure_ok, Prod.mk.injEq] at h
    obtain ⟨-, hrev, rfl, rfl, rfl, -⟩ := h
    obtain ⟨hr, hi, hk⟩ := Facts.lookup_some hl
    exact
      { wellFormed := fun hwf => hwf.ready id
        stored := hr
        versions := rfl
        key := ⟨hi, hk⟩
        others := fun _ _ _ => Iff.rfl
        created := fun hnone => by simp [hl] at hnone
        former := Or.inr hr
        expected := hrev }

end Fact

section Dispose
variable {now : Time} {env : Env} {payload : DecisionRequest} {evidence : Table ConflictEvidence}

/-- Disposing of current evidence changes the cited fragments and their projection only. -/
structure Disposes (evidence : Table ConflictEvidence) (s t : Store) : Prop where
  rest : s.Quiet { t with fragments := s.fragments }
  size : t.fragments.size = s.fragments.size
  fragments : ∀ k g, t.fragments.get k = some g → ∃ f, s.fragments.get k = some f ∧
    (g = f ∨ IsCurrentlyCited evidence k ∧ f.Disposed g)

theorem Disposes.refl (evidence : Table ConflictEvidence) (s : Store) : Disposes evidence s s :=
  ⟨.refl s, rfl, fun _ g hg => ⟨g, hg, Or.inl rfl⟩⟩

theorem InformationFragment.Disposed.trans {f g h : InformationFragment} (a : f.Disposed g)
    (b : g.Disposed h) : f.Disposed h :=
  ⟨a.follows.trans b.follows, a.revision.trans b.revision, b.status⟩

theorem Disposes.trans {s t u : Store} (h : Disposes evidence s t) (k : Disposes evidence t u) :
    Disposes evidence s u where
  rest :=
    ⟨h.rest.features.trans k.rest.features, h.rest.analyses.trans k.rest.analyses, rfl,
      k.rest.cases.trans h.rest.cases, k.rest.evidence.trans h.rest.evidence,
      k.rest.facts.trans h.rest.facts⟩
  size := k.size.trans h.size
  fragments := by
    intro i g hg
    obtain ⟨f, hf, rfl | ⟨hc, hfg⟩⟩ := k.fragments i g hg
    · exact h.fragments i g hf
    · obtain ⟨e, he, rfl | ⟨-, hef⟩⟩ := h.fragments i f hf
      · exact ⟨f, he, Or.inr ⟨hc, hfg⟩⟩
      · exact ⟨e, he, Or.inr ⟨hc, hef.trans hfg⟩⟩

theorem disposeFragment_disposes {i : Id} {e : ConflictEvidence} (he : evidence.get i = some e)
    (hcur : e.isCurrent = true) (s : Store) :
    Disposes evidence s (disposeFragment now env payload evidence s i) := by
  unfold disposeFragment
  simp only [he]
  by_cases hk : e.kind = .fragment
  · rw [if_pos hk]
    split
    · next f hf =>
      refine ⟨⟨upsertFragmentMapFeature_factSilent env now _ _ _, .refl _, rfl, rfl, rfl, rfl⟩,
        Table.size_modify _ _ _, fun k g hg => ?_⟩
      rcases Table.get_modify_cases hg with ⟨rfl, f', hf', rfl⟩ | ⟨-, hg⟩
      · obtain rfl : f = f' := Option.some.inj (hf.symm.trans hf')
        refine ⟨f, hf, Or.inr ⟨⟨i, e, he, hcur, hk, rfl⟩, ⟨rfl, rfl, rfl, Nat.le_succ _⟩,
          Nat.lt_succ_self _, ?_⟩⟩
        dsimp only
        split_ifs <;> decide
      · exact ⟨g, hg, Or.inl rfl⟩
    · exact .refl _ s
  · rw [if_neg hk]
    exact .refl _ s

theorem disposeFragments_disposes (now : Time) (env : Env) (payload : DecisionRequest) (ids : List Id)
    (hcur : ∀ i ∈ ids, ∃ e, evidence.get i = some e ∧ e.isCurrent = true) :
    ∀ s : Store, Disposes evidence s (ids.foldl (disposeFragment now env payload evidence) s) := by
  induction ids with
  | nil => exact Disposes.refl evidence
  | cons i ids ih =>
    intro s
    obtain ⟨e, he, hc⟩ := hcur i (by simp)
    exact (disposeFragment_disposes he hc s).trans (ih (fun j hj => hcur j (by simp [hj])) _)

end Dispose

section Decide
variable {env : Env} {now : Time} {actor : Actor} {s t : Store} {id : Id} {payload : DecisionRequest}

theorem decideConflict_spec (h : decideConflict now env actor s id payload = .ok t) :
    ∃ x ready factId record draft, Decision env now s t id payload x ready factId record draft := by
  simp only [decideConflict, bind_ok, found_ok, require_ok, pure_ok, Prod.exists] at h
  obtain ⟨x, hx, -, hrev, -, hne, -, ⟨hmissing, hunknown⟩, analysis, -, ready, factId, record,
    created, hfact, rfl⟩ := h
  have hcited : ∀ i ∈ currentEvidence s.evidence id, ∃ e, s.evidence.get i = some e ∧
      e.isCurrent = true := by
    intro i hi
    obtain ⟨e, he, -, hc⟩ := mem_currentEvidence.mp hi
    exact ⟨e, he, hc⟩
  have hdispose := disposeFragments_disposes now env payload
    (currentEvidence s.evidence id) hcited
  refine ⟨x, ready, factId, record, decisionDraft id payload analysis actor, ?_⟩
  generalize hu : List.foldl (disposeFragment now env payload s.evidence) _ _ = u
  have hd := hu ▸ hdispose _
  exact
    { case := hx
      revision := hrev
      unresolved := hne
      disposed := by
        simp only [List.filter_eq_nil_iff, Bool.not_eq_true, Bool.not_eq_false',
          List.contains_iff_mem] at hmissing hunknown
        exact fun e => ⟨fun he => by simpa using hunknown e he, fun he => by simpa using hmissing e he⟩
      fact := factForDecision_spec hfact
      draft_status := rfl
      draft_public := rfl
      draft_statement := rfl
      draft_conflict := rfl
      draft_accepted := rfl
      facts := hd.rest.facts
      cases := ⟨_, _, hd.rest.cases⟩
      evidence := hd.rest.evidence
      analyses := by
        have h₁ := hd.rest.analyses
        exact (h₁.trans (Feed.emitEvent_analysesKept _ now x.incidentId _)).trans
          (Feed.emitEvent_analysesKept _ now x.incidentId _)
      size := hd.size
      fragments := hd.fragments
      features := ⟨u.features,
        (upsertConflictMapFeature_factSilent env now _ _ _ _ _).trans hd.rest.features, rfl⟩ }

namespace Decision
variable {x : ConflictCase} {ready : Facts} {factId : Id} {record : FactRecord} {draft : VersionDraft}

theorem wellFormed (h : Decision env now s t id payload x ready factId record draft)
    (hwf : s.facts.WellFormed) : t.facts.WellFormed := by
  rw [h.facts]
  exact (h.fact.wellFormed hwf).appendVersion now draft h.fact.stored

/-- The decided fact as the decision left it. -/
structure Writes (payload : DecisionRequest) (id : Id) (x : ConflictCase) (record r : FactRecord)
    (v : FactVersion) : Prop where
  incident : r.incidentId = x.incidentId
  factKey : r.factKey = x.factKey
  status : r.status = payload.factStatus.1
  isPublic : r.isPublic = payload.isPublic
  revision : r.currentRevision = record.currentRevision + 1
  statement : v.statement = payload.conclusion
  sourceConflict : v.sourceConflictId = some id
  accepted : v.acceptedEvidenceIds = payload.acceptedIds

theorem record_cases (h : Decision env now s t id payload x ready factId record draft)
    (hwf : s.facts.WellFormed) {j : Id} {r : FactRecord} (hr : t.facts.records.get j = some r) :
    (j = factId ∧ ∃ v, t.facts.currentVersion r = some v ∧ Writes payload id x record r v) ∨
      j ≠ factId ∧ s.facts.records.get j = some r ∧
        t.facts.currentVersion r = s.facts.currentVersion r := by
  rw [h.facts] at hr ⊢
  rcases Facts.get_appendRecord now draft hr with ⟨rfl, r₀, hr₀, rfl⟩ | ⟨hne, hr₀⟩
  · obtain rfl : record = r₀ := Option.some.inj (h.fact.stored.symm.trans hr₀)
    refine Or.inl ⟨rfl, _, Facts.get_appendVersion_size now draft, ?_⟩
    exact
      { incident := h.fact.key.1
        factKey := h.fact.key.2
        status := h.draft_status
        isPublic := h.draft_public
        revision := rfl
        statement := h.draft_statement
        sourceConflict := congrArg some h.draft_conflict
        accepted := h.draft_accepted }
  · refine Or.inr ⟨hne.symm, (h.fact.others j r hne.symm).mp hr₀, ?_⟩
    rw [(h.fact.wellFormed hwf).appendVersion_currentVersion now draft h.fact.stored hr₀ hne]
    exact congrArg (fun versions => r.currentVersionId.bind (Table.get versions)) h.fact.versions

/-- The case is resolved at its next revision, and no other case moves. -/
theorem case_cases (h : Decision env now s t id payload x ready factId record draft) {c : Id}
    {y : ConflictCase} (hy : t.cases.get c = some y) :
    (c = id ∧ ∃ decidedBy resolution, y = resolveCase now x decidedBy resolution true) ∨
      c ≠ id ∧ s.cases.get c = some y := by
  obtain ⟨decidedBy, resolution, hcases⟩ := h.cases
  rw [hcases] at hy
  rcases Table.get_modify_cases hy with ⟨rfl, z, -, rfl⟩ | ⟨hne, hy⟩
  · exact Or.inl ⟨rfl, decidedBy, resolution, rfl⟩
  · exact Or.inr ⟨hne.symm, hy⟩

theorem tracks (h : Decision env now s t id payload x ready factId record draft) {c : Id}
    {y : ConflictCase} (hy : t.cases.get c = some y) :
    ∃ z, s.cases.get c = some z ∧ z.Progress t.facts y ∧ (z.status = .resolved → y.status = .resolved) := by
  rcases h.case_cases hy with ⟨rfl, decidedBy, resolution, rfl⟩ | ⟨-, hz⟩
  · refine ⟨x, h.case, ?_, fun hr => absurd hr h.unresolved⟩
    exact (ConflictCase.Progress.refl _ x).resolve now decidedBy resolution true (Nat.lt_succ_self _)
  · exact ⟨y, hz, .refl _ y, fun hr => hr⟩

end Decision

end Decide
end CrisisMosaic
