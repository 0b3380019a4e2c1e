import CrisisMosaic.Lifecycle

/-!
# What detecting a contradiction does

A detected contradiction goes to a fresh case, to a reopened one or to one that
was not resolved. In the last case either the revision moves or every cited
version was on the case already.
-/

namespace CrisisMosaic
open Relational

/-- What a call did to the case it ended at; the flag says that it opened it. -/
inductive CaseStep (s t : Store) (ids : List Id) (id : Id) : Bool → Prop
  | fresh : s.cases.get id = none → CaseStep s t ids id true
  | reopened {x : ConflictCase} : s.cases.get id = some x → x.status = .resolved →
      t.cases.get id = some (reopen x) → t.facts.UnderReview x.incidentId x.factKey →
      CaseStep s t ids id true
  | extended {x : ConflictCase} : s.cases.get id = some x → x.status ≠ .resolved →
      t.cases.get id = some (bumpRevision x) → CaseStep s t ids id false
  /-- At most a row of the present version of a fragment is revived. -/
  | repeated {x : ConflictCase} : s.cases.get id = some x → x.status ≠ .resolved →
      t.cases.get id = some x →
      (∀ i e', t.evidence.get i = some e' → ∃ e, s.evidence.get i = some e ∧
        (e' = e ∨ e' = { e with isCurrent := true } ∧ e.kind = .fragment ∧ e.sourceId ∈ ids ∧
          (s.fragments.get e.sourceId).map (·.revision) = some e.sourceRevision)) →
      CaseStep s t ids id false

def IsCited (ids : List Id) (kind : EvidenceKind) (sourceId : Id) : Prop :=
  kind = .fragment ∧ sourceId ∈ ids

structure CallStep (sources : Sources) (s t : Store) (ids : List Id) (id : Id) (opened : Bool) :
    Prop where
  advances : s.Advances (fun c => c = id ∧ opened = true) t
  added : EvidenceAdded (sourceRevision sources s.fragments) (IsCited ids) id s.evidence t.evidence
  others : ∀ c, c ≠ id → t.cases.get c = s.cases.get c
  case : CaseStep s t ids id opened

section Candidate
variable {env : Env} {now : Time} {s : Store} {call : ConflictCall}

theorem findCandidate_some {id : Id} (h : findCandidate env now s call = some id) :
    ∃ x, s.cases.get id = some x ∧ acceptsCandidate env now call x = true := by
  have hp := List.find?_some h
  simp only [Option.any_eq_true] at hp
  exact hp

theorem openCase_cases (env : Env) (now : Time) (s : Store) (call : ConflictCall) :
    findCandidate env now s call = none ∧ openCase env now s call =
        ({ s with cases := s.cases.insert (freshCase now call) }, s.cases.size, true, false) ∨
      ∃ id x, findCandidate env now s call = some id ∧ s.cases.get id = some x ∧
        (x.status = .resolved ∧
            openCase env now s call = (reopenStructured now s id x, id, true, true) ∨
          x.status ≠ .resolved ∧ openCase env now s call = (s, id, false, true)) := by
  cases h : findCandidate env now s call with
  | none => exact Or.inl ⟨rfl, by simp [openCase, h]⟩
  | some id =>
    obtain ⟨x, hx, -⟩ := findCandidate_some h
    refine Or.inr ⟨id, x, rfl, hx, ?_⟩
    by_cases hr : x.status = .resolved
    · exact Or.inl ⟨hr, by simp [openCase, h, hx, hr]⟩
    · exact Or.inr ⟨hr, by simp [openCase, h, hx, hr]⟩

end Candidate

section Opening
variable (now : Time)

/-- Reopening puts the fact of the case under review. -/
theorem reopen_advances {s : Store} (hwf : s.facts.WellFormed) {id : Id} {x : ConflictCase}
    (hx : s.cases.get id = some x) (hr : x.status = .resolved) :
    let board := (s.board.markFactUnderReview now id (reopen x) "conflict_reopened").1
    s.Advances (fun c => c = id) ((s.withBoard board).updateCase id reopen) ∧
      board.facts.UnderReview x.incidentId x.factKey := by
  have hrev := FactBoard.markFactUnderReview_reviewed s.board now id (reopen x) "conflict_reopened"
  have hunder := FactBoard.markFactUnderReview_underReview (show s.board.facts.WellFormed from hwf) now
    id (reopen x) "conflict_reopened"
  refine ⟨((Store.Advances.refl _ s).review hrev).updateCase (fun y hy _ => ?_)
    fun _ _ _ => Or.inr rfl, hunder⟩
  have hy : s.cases.get id = some y := hy
  obtain rfl : x = y := Option.some.inj (hx.symm.trans hy)
  rw [hx]
  exact ConflictCase.reopen_progress hr hunder

theorem reopenStructured_spec {s : Store} (hwf : s.facts.WellFormed) {id : Id} {x : ConflictCase}
    (hx : s.cases.get id = some x) (hr : x.status = .resolved) :
    let t := reopenStructured now s id x
    s.Advances (fun c => c = id) t ∧ t.cases.get id = some (reopen x) ∧
      t.facts.UnderReview x.incidentId x.factKey := by
  obtain ⟨hadv, hunder⟩ := reopen_advances now hwf hx hr
  refine ⟨hadv.quiet (Store.stale_quiet _ now id x.incidentId _), ?_, hunder⟩
  simp [reopenStructured, Store.updateCase, Store.withBoard, hx]

theorem freshCase_consistent (call : ConflictCall) : (freshCase now call).Consistent := by
  simp [ConflictCase.Consistent, freshCase]

theorem setFragmentStatus_calm {status : FragmentStatus} (hs : status ≠ .withdrawn) (ids : List Id) :
    ∀ fragments : Table InformationFragment,
      (∀ i ∈ ids, ∀ f, fragments.get i = some f → f.status ≠ .withdrawn) →
      CalmFragments fragments (setFragmentStatus now fragments status ids) := by
  induction ids with
  | nil => exact fun fragments _ => .refl .refl fragments
  | cons i ids ih =>
    intro fragments h
    have hstep : CalmFragments fragments (fragments.modify i fun f =>
        { f with status := status, updatedAt := now }) := by
      refine (Table.Evolves.refl .refl fragments).modify fun f hf _ => ?_
      rw [hf]
      exact ⟨⟨rfl, rfl, rfl, le_rfl⟩, iff_of_false hs (h i (by simp) f hf)⟩
    refine Table.Evolves.trans (fun _ _ _ => InformationFragment.Calm.trans) hstep (ih _ ?_)
    intro j hj f hf
    rcases Table.get_modify_cases hf with ⟨rfl, g, -, rfl⟩ | ⟨-, hf⟩
    · exact hs
    · exact h j (by simp [hj]) f hf

theorem extendCase_advances {b s : Store} {reopens : Id → Prop} (h : b.Advances reopens s) {id : Id}
    (hid : ∀ y x, s.cases.get id = some y → b.cases.get id = some x → y.revision = x.revision)
    (incidentId : Id) (reason : String) :
    b.Advances reopens (extendCase now s id incidentId reason) := by
  have hcase : b.Advances reopens (s.updateCase id bumpRevision) := by
    refine h.updateCase (fun y hy ht => ?_) fun y _ hr => Or.inl hr
    cases hx : b.cases.get id with
    | none =>
      rw [hx] at ht
      exact ht
    | some x =>
      rw [hx] at ht
      exact ConflictCase.Progress.bump ht (hid y x hy hx)
  exact hcase.quiet (Store.stale_quiet _ now id incidentId reason)

end Opening

section FindOrOpen
variable {env : Env} {now : Time} {sources : Sources} {s t : Store} {call : ConflictCall} {id : Id}
  {opened : Bool}

theorem mem_fragmentReferences {fragments : Table InformationFragment} {ids : List Id}
    {r : EvidenceReference} :
    r ∈ fragmentReferences fragments ids ↔
      ∃ i ∈ ids, r = ⟨.fragment, i, (fragments.get i).map (·.revision)⟩ := by
  simp [fragmentReferences, eq_comm]

theorem hasNewSnapshot_false {ids : List Id} (h : hasNewSnapshot s id ids = false) :
    ∀ f ∈ ids, ∃ i e, s.evidence.get i = some e ∧ e.cites id .fragment f = true ∧
      (s.fragments.get f).map (·.revision) = some e.sourceRevision := by
  intro f hf
  simp only [hasNewSnapshot, List.any_eq_false, Option.isNone_iff_eq_none] at h
  obtain ⟨i, hi⟩ := Option.ne_none_iff_exists'.mp (h f hf)
  obtain ⟨e, he, hp⟩ := Table.first_some hi
  simp only [Bool.and_eq_true, decide_eq_true_eq] at hp
  exact ⟨i, e, he, hp.1, hp.2.symm⟩

/-- Adding the fragments of a call, as one step of the evidence. -/
theorem addFragments_added {fragments : Table InformationFragment} {ids : List Id} {incidentId : Id}
    {evidence evidence' : Table ConflictEvidence} {added : List Id}
    (h : addEvidence env now sources fragments id incidentId (fragmentReferences fragments ids) evidence
      = .ok (evidence', added)) :
    EvidenceAdded (sourceRevision sources fragments) (IsCited ids) id evidence evidence' := by
  refine (addEvidence_added h).mono ?_
  rintro k f ⟨r, hr, rfl, rfl⟩
  obtain ⟨i, hi, rfl⟩ := mem_fragmentReferences.mp hr
  exact ⟨rfl, hi⟩

theorem addFragments_repeated {ids : List Id} {incidentId : Id}
    {evidence' : Table ConflictEvidence} {added : List Id}
    (h : addEvidence env now sources s.fragments id incidentId (fragmentReferences s.fragments ids)
      s.evidence = .ok (evidence', added)) (hnew : hasNewSnapshot s id ids = false) :
    ∀ i e', evidence'.get i = some e' → ∃ e, s.evidence.get i = some e ∧
      (e' = e ∨ e' = { e with isCurrent := true } ∧ e.kind = .fragment ∧ e.sourceId ∈ ids ∧
        (s.fragments.get e.sourceId).map (·.revision) = some e.sourceRevision) := by
  intro i e' he'
  have hex : ∀ r ∈ fragmentReferences s.fragments ids, ∃ i e, s.evidence.get i = some e ∧
      e.cites id r.kind r.sourceId = true ∧
      sourceRevision sources s.fragments r.kind r.sourceId = some e.sourceRevision := by
    intro r hr
    obtain ⟨f, hf, rfl⟩ := mem_fragmentReferences.mp hr
    exact hasNewSnapshot_false hnew f hf
  obtain ⟨e, he, heq | ⟨heq, -, ⟨r, hr, hk, hs⟩, hrev⟩⟩ := addEvidence_existing h hex i e' he'
  · exact ⟨e, he, Or.inl heq⟩
  · obtain ⟨f, hf, rfl⟩ := mem_fragmentReferences.mp hr
    refine ⟨e, he, Or.inr ⟨heq, hk, ?_, ?_⟩⟩
    · rw [hs]
      exact hf
    · rwa [hk] at hrev

theorem findOrOpen_spec (h : findOrOpenStructuredConflict env now sources s call = .ok (t, id, opened))
    (hwf : s.facts.WellFormed)
    (hcall : ∀ i ∈ call.fragments, ∀ f, s.fragments.get i = some f → f.status ≠ .withdrawn) :
    CallStep sources s t call.fragments id opened := by
  simp only [findOrOpenStructuredConflict, bind_ok, pure_ok, Prod.exists, Prod.mk.injEq] at h
  obtain ⟨evidence, added, hadd, rfl, rfl, rfl⟩ := h
  rcases openCase_cases env now s call with
    ⟨-, ho⟩ | ⟨c, x, -, hx, ⟨hr, ho⟩ | ⟨hr, ho⟩⟩
  · simp only [ho, Bool.false_and, Bool.false_eq_true, if_false] at hadd ⊢
    exact
      { advances := (((Store.Advances.refl _ s).insertCase (freshCase_consistent now call)).setEvidence
          evidence).setFragments (setFragmentStatus_calm now (by decide) _ _ hcall)
        added := addFragments_added hadd
        others := fun c hc => by simp [Table.get_insert, hc]
        case := .fresh (Table.get_size _) }
  · obtain ⟨hadv, hcase, hunder⟩ := reopenStructured_spec now hwf hx hr
    simp only [ho, Bool.not_true, Bool.and_false, Bool.false_eq_true, if_false] at hadd ⊢
    exact
      { advances := ((hadv.mono fun _ hc => ⟨hc, rfl⟩).setEvidence evidence).setFragments
          (setFragmentStatus_calm now (by decide) _ _ hcall)
        added := addFragments_added hadd
        others := fun c' hc => Table.get_modify_of_ne _ _ (Ne.symm hc)
        case := .reopened hx hr hcase hunder }
  · simp only [ho, Bool.not_false, Bool.true_and, Bool.and_true] at hadd ⊢
    cases hnew : hasNewSnapshot s c call.fragments with
    | true =>
      simp only [if_true]
      exact
        { advances := (extendCase_advances now ((Store.Advances.refl _ s).setEvidence evidence)
            (fun y z hy hz => by rw [Option.some.inj (hy.symm.trans hz)]) _ _).setFragments
              (setFragmentStatus_calm now (by decide) _ _ hcall)
          added := addFragments_added hadd
          others := fun c' hc => Table.get_modify_of_ne _ _ (Ne.symm hc)
          case := .extended hx hr (by simp [extendCase, Store.updateCase, hx]) }
    | false =>
      simp only [Bool.false_eq_true, if_false]
      exact
        { advances := ((Store.Advances.refl _ s).setEvidence evidence).setFragments
            (setFragmentStatus_calm now (by decide) _ _ hcall)
          added := addFragments_added hadd
          others := fun _ _ => rfl
          case := .repeated hx hr hx (addFragments_repeated hadd hnew) }

theorem callFindOrOpen_ok {d : Detection} (h : callFindOrOpen env now sources s call = .ok d) :
    d.call = call ∧ d.before = s ∧
      findOrOpenStructuredConflict env now sources s call = .ok (d.after, d.conflictId, d.opened) := by
  simp only [callFindOrOpen, bind_ok, pure_ok, Prod.exists] at h
  obtain ⟨t, c, o, ht, rfl⟩ := h
  exact ⟨rfl, rfl, ht⟩

theorem callFindOrOpen_spec {d : Detection} (h : callFindOrOpen env now sources s call = .ok d)
    (hwf : s.facts.WellFormed)
    (hcall : ∀ i ∈ call.fragments, ∀ f, s.fragments.get i = some f → f.status ≠ .withdrawn) :
    CallStep sources s d.after call.fragments d.conflictId d.opened :=
  findOrOpen_spec (callFindOrOpen_ok h).2.2 hwf hcall

/-- A fragment that is not withdrawn contradicts none that is. -/
theorem detectedCall_fragments {f : InformationFragment} {g : InformationFragment}
    (hcall : detectedCall env s.fragments id f = some call) (hg : s.fragments.get id = some g)
    (hstatus : g.status ≠ .withdrawn) :
    ∀ i ∈ call.fragments, ∀ f, s.fragments.get i = some f → f.status ≠ .withdrawn := by
  unfold detectedCall at hcall
  dsimp only at hcall
  split_ifs at hcall
  obtain rfl := Option.some.inj hcall
  intro i hi e he
  simp only [detectionCall, matchingFragments, List.mem_append, List.mem_filter,
    List.mem_singleton, Table.mem_select] at hi
  rcases hi with ⟨⟨e', he', hc⟩, -⟩ | rfl
  · obtain rfl : e = e' := Option.some.inj (he.symm.trans he')
    simp only [contradicts, Bool.and_eq_true, Bool.or_eq_true, decide_eq_true_eq] at hc
    intro hw
    simp [hw] at hc
  · obtain rfl : e = g := Option.some.inj (he.symm.trans hg)
    exact hstatus

theorem detect_ok {f : InformationFragment} {d : Detection}
    (h : detectStructuredFragmentConflict env now sources s id f = .ok (some d)) :
    ∃ call, detectedCall env s.fragments id f = some call ∧
      callFindOrOpen env now sources s call = .ok d := by
  unfold detectStructuredFragmentConflict at h
  split at h
  · simp at h
  · next call hcall =>
    simp only [map_ok, Option.some.injEq] at h
    obtain ⟨d', hd, rfl⟩ := h
    exact ⟨call, hcall, hd⟩

theorem detect_spec {f g : InformationFragment} {d : Detection}
    (h : detectStructuredFragmentConflict env now sources s id f = .ok (some d))
    (hwf : s.facts.WellFormed) (hg : s.fragments.get id = some g) (hstatus : g.status ≠ .withdrawn) :
    (∀ i ∈ d.call.fragments, ∀ f, s.fragments.get i = some f → f.status ≠ .withdrawn) ∧
      CallStep sources s d.after d.call.fragments d.conflictId d.opened := by
  obtain ⟨call, hcall, hd⟩ := detect_ok h
  have hfr := detectedCall_fragments hcall hg hstatus
  obtain ⟨hc, -, -⟩ := callFindOrOpen_ok hd
  rw [hc]
  exact ⟨hfr, callFindOrOpen_spec hd hwf hfr⟩

end FindOrOpen
end CrisisMosaic
