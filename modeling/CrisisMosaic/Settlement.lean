import CrisisMosaic.ObservationSteps

/-!
# How cases are settled

Which fragments a case cites at present, whether its evidence contradicts itself,
and what detection and reconciliation make of both: a reconciled case that nothing
contradicts any more is resolved, and a detected one cites all fragments of the
call.
-/

namespace CrisisMosaic
open Relational

namespace InformationFragment

/-- The rows differ in status, revision and time of change only. -/
def SameContent (f g : InformationFragment) : Prop :=
  g = { f with status := g.status, revision := g.revision, updatedAt := g.updatedAt }

theorem SameContent.refl (f : InformationFragment) : f.SameContent f := rfl

theorem SameContent.trans {f g h : InformationFragment} (a : f.SameContent g)
    (b : g.SameContent h) : f.SameContent h := by
  rw [SameContent] at a b ⊢
  rw [b, a]

/-- A fragment no open case cites any more is taken out of the conflict. -/
def Freed (f g : InformationFragment) : Prop :=
  g = f ∨ f.status = .conflict ∧ g.status = .normal ∧ g.revision = f.revision + 1 ∧ f.SameContent g

theorem Freed.refl (f : InformationFragment) : f.Freed f := Or.inl rfl

theorem Freed.trans {f g h : InformationFragment} (a : f.Freed g) (b : g.Freed h) : f.Freed h := by
  rcases a with rfl | a
  · exact b
  · rcases b with rfl | ⟨hconflict, -⟩
    · exact Or.inr a
    · rw [a.2.1] at hconflict
      exact nomatch hconflict

theorem Freed.content {f g : InformationFragment} (h : f.Freed g) : f.SameContent g := by
  rcases h with rfl | h
  · exact .refl g
  · exact h.2.2.2

end InformationFragment

/-- No fragment is added or lost, and some are freed. -/
abbrev FragmentsFreed (s t : Table InformationFragment) : Prop :=
  s.Related InformationFragment.Freed t

section Citation

/-- The fragment is current evidence of the case. -/
def CitesNow (evidence : Table ConflictEvidence) (c fragmentId : Id) : Prop :=
  ∃ i e, evidence.get i = some e ∧ e.cites c .fragment fragmentId = true ∧ e.isCurrent = true

variable {evidence evidence' : Table ConflictEvidence} {c k : Id}

theorem citesNow_invalidate {gone : Id} :
    CitesNow (invalidateFragmentEvidence evidence gone) c k ↔ CitesNow evidence c k ∧ k ≠ gone := by
  constructor
  · rintro ⟨i, e, he, hc, hcur⟩
    obtain ⟨d, hd, ⟨-, rfl⟩ | ⟨hf, rfl⟩⟩ := get_invalidateFragmentEvidence he
    · exact nomatch hcur
    · refine ⟨⟨i, e, hd, hc, hcur⟩, ?_⟩
      rintro rfl
      obtain ⟨-, hk, hs⟩ := ConflictEvidence.cites_iff.mp hc
      rw [isFragmentEvidence_iff.mpr ⟨hk, hs, hcur⟩] at hf
      exact nomatch hf
  · rintro ⟨⟨i, e, he, hc, hcur⟩, hne⟩
    refine ⟨i, e, ?_, hc, hcur⟩
    have hother : isFragmentEvidence gone e = false := by
      by_contra h
      obtain ⟨-, hs, -⟩ := isFragmentEvidence_iff.mp (by simpa using h)
      exact hne ((ConflictEvidence.cites_iff.mp hc).2.2.symm.trans hs)
    simp [invalidateFragmentEvidence, he, hother]

theorem citesNow_citeSource (env : Env) (now : Time) {d : Id} {kind : EvidenceKind} {sourceId : Id}
    {version : SourceVersion} :
    CitesNow (citeSource env now evidence d kind sourceId version).1 c k ↔
      CitesNow evidence c k ∨ c = d ∧ kind = .fragment ∧ sourceId = k := by
  unfold citeSource
  cases hfirst : evidence.first fun e =>
      e.cites d kind sourceId && e.sourceRevision = version.revision with
  | some j =>
    obtain ⟨g, hg, hp⟩ := Table.first_some hfirst
    simp only [Bool.and_eq_true, ConflictEvidence.cites_iff] at hp
    obtain ⟨⟨hgc, hgk, hgs⟩, -⟩ := hp
    constructor
    · rintro ⟨i, e, he, hc, hcur⟩
      rcases Table.get_modify_cases he with ⟨rfl, e', he', rfl⟩ | ⟨-, he⟩
      · obtain rfl : g = e' := Option.some.inj (hg.symm.trans he')
        obtain ⟨h₁, h₂, h₃⟩ := ConflictEvidence.cites_iff.mp hc
        exact Or.inr ⟨h₁.symm.trans hgc, hgk.symm.trans h₂, hgs.symm.trans h₃⟩
      · exact Or.inl ⟨i, e, he, hc, hcur⟩
    · rintro (⟨i, e, he, hc, hcur⟩ | ⟨rfl, rfl, rfl⟩)
      · by_cases hj : j = i
        · subst hj
          exact ⟨j, { e with isCurrent := true }, by simp [he], hc, rfl⟩
        · exact ⟨i, e, by rw [Table.get_modify_of_ne _ _ hj, he], hc, hcur⟩
      · exact ⟨j, { g with isCurrent := true }, by simp [hg],
          ConflictEvidence.cites_iff.mpr ⟨hgc, hgk, hgs⟩, rfl⟩
  | none =>
    constructor
    · rintro ⟨i, e, he, hc, hcur⟩
      rcases Table.get_insert_cases he with ⟨-, rfl⟩ | he
      · obtain ⟨h₁, h₂, h₃⟩ := ConflictEvidence.cites_iff.mp hc
        exact Or.inr ⟨h₁.symm, h₂, h₃⟩
      · rw [Table.get_sweep] at he
        obtain ⟨e', he', rfl⟩ := Option.map_eq_some_iff.mp he
        by_cases hretired : (e'.cites d kind sourceId && e'.isCurrent) = true
        · rw [if_pos hretired] at hcur
          exact nomatch hcur
        · rw [if_neg hretired] at hc hcur
          exact Or.inl ⟨i, e', he', hc, hcur⟩
    · rintro (⟨i, e, he, hc, hcur⟩ | ⟨rfl, rfl, rfl⟩)
      · by_cases hsame : e.cites d kind sourceId = true
        · -- the row is retired, and the one that replaces it cites the same fragment
          obtain ⟨h₁, h₂, h₃⟩ := ConflictEvidence.cites_iff.mp hc
          obtain ⟨k₁, k₂, k₃⟩ := ConflictEvidence.cites_iff.mp hsame
          exact ⟨_, _, Table.get_insert_size _ _,
            ConflictEvidence.cites_iff.mpr ⟨k₁.symm.trans h₁, k₂.symm.trans h₂, k₃.symm.trans h₃⟩, rfl⟩
        · refine ⟨i, e, Table.get_insert_of_some _ ?_, hc, hcur⟩
          simp [he, hsame]
      · exact ⟨_, _, Table.get_insert_size _ _, ConflictEvidence.cites_iff.mpr ⟨rfl, rfl, rfl⟩, rfl⟩

theorem citesNow_addEvidence {env : Env} {now : Time} {sources : Sources}
    {fragments : Table InformationFragment} {d incidentId : Id} {references : List EvidenceReference} :
    ∀ {evidence evidence' : Table ConflictEvidence} {added : List Id},
      addEvidence env now sources fragments d incidentId references evidence
        = .ok (evidence', added) →
      (CitesNow evidence' c k ↔ CitesNow evidence c k ∨
        c = d ∧ ∃ r ∈ references, r.kind = .fragment ∧ r.sourceId = k) := by
  induction references with
  | nil =>
    intro evidence evidence' added h
    obtain ⟨rfl, -⟩ := Prod.mk.inj (pure_ok.mp h)
    simp
  | cons reference references ih =>
    intro evidence evidence' added h
    simp only [addEvidence, bind_ok, pure_ok, Prod.exists, Prod.mk.injEq] at h
    obtain ⟨version, -, mid, ids, hmid, rfl, -⟩ := h
    rw [ih hmid, citesNow_citeSource]
    simp only [List.mem_cons, exists_eq_or_imp]
    tauto

end Citation

section Contested
variable {env : Env} {evidence : Table ConflictEvidence} {c : Id}

/-- The current evidence is not of fragments alone, or contradicts itself. -/
def contested (env : Env) (evidence : Table ConflictEvidence) (c : Id) : Bool :=
  let current := (currentEvidence evidence c).filterMap evidence.get
  (current.any fun e => e.kind ≠ .fragment) || hasCrossSourceContradiction env current

/-- Two rows of different sources make different claims. -/
def Disagree (env : Env) (e f : ConflictEvidence) : Prop :=
  ∃ v w, comparableClaim env e = some v ∧ comparableClaim env f = some w ∧ v ≠ w ∧
    evidenceSourceIdentity e ≠ evidenceSourceIdentity f

theorem mem_current {e : ConflictEvidence} :
    e ∈ (currentEvidence evidence c).filterMap evidence.get ↔
      ∃ i, evidence.get i = some e ∧ e.conflictId = c ∧ e.isCurrent = true := by
  simp only [List.mem_filterMap, mem_currentEvidence]
  constructor
  · rintro ⟨i, ⟨d, hd, hc, hcur⟩, he⟩
    obtain rfl := Option.some.inj (hd.symm.trans he)
    exact ⟨i, hd, hc, hcur⟩
  · rintro ⟨i, he, hc, hcur⟩
    exact ⟨i, ⟨e, he, hc, hcur⟩, he⟩

theorem hasCrossSourceContradiction_iff {rows : List ConflictEvidence} :
    hasCrossSourceContradiction env rows = true ↔ ∃ e ∈ rows, ∃ f ∈ rows, Disagree env e f := by
  simp only [hasCrossSourceContradiction, Disagree, List.any_eq_true, List.mem_filterMap,
    Option.map_eq_some_iff, Prod.exists, Prod.mk.injEq, Bool.and_eq_true, decide_eq_true_eq]
  constructor
  · rintro ⟨_, v, ⟨e, he, _, hv, rfl, rfl⟩, _, w, ⟨f, hf, _, hw, rfl, rfl⟩, hs, hne⟩
    exact ⟨e, he, f, hf, _, _, hv, hw, hne, hs⟩
  · rintro ⟨e, he, f, hf, v, w, hv, hw, hne, hs⟩
    exact ⟨e, v, ⟨e, he, v, hv, rfl, rfl⟩, f, w, ⟨f, hf, w, hw, rfl, rfl⟩, hs, hne⟩

theorem contested_iff : contested env evidence c = true ↔
    (∃ i e, evidence.get i = some e ∧ e.conflictId = c ∧ e.isCurrent = true ∧ e.kind ≠ .fragment) ∨
      ∃ i j e f, evidence.get i = some e ∧ evidence.get j = some f ∧ e.conflictId = c ∧
        f.conflictId = c ∧ e.isCurrent = true ∧ f.isCurrent = true ∧ Disagree env e f := by
  simp only [contested, Bool.or_eq_true, List.any_eq_true, hasCrossSourceContradiction_iff, mem_current,
    decide_eq_true_eq]
  constructor
  · rintro (⟨e, ⟨i, he, hc, hcur⟩, hk⟩ | ⟨e, ⟨i, he, hc, hcur⟩, f, ⟨j, hf, hfc, hfcur⟩, h⟩)
    · exact Or.inl ⟨i, e, he, hc, hcur, hk⟩
    · exact Or.inr ⟨i, j, e, f, he, hf, hc, hfc, hcur, hfcur, h⟩
  · rintro (⟨i, e, he, hc, hcur, hk⟩ | ⟨i, j, e, f, he, hf, hc, hfc, hcur, hfcur, h⟩)
    · exact Or.inl ⟨e, ⟨i, he, hc, hcur⟩, hk⟩
    · exact Or.inr ⟨e, ⟨i, he, hc, hcur⟩, f, ⟨j, hf, hfc, hfcur⟩, h⟩

/-- It depends on the current rows of the case only. -/
theorem contested_congr {evidence' : Table ConflictEvidence}
    (h : ∀ i e, e.conflictId = c → e.isCurrent = true →
      (evidence'.get i = some e ↔ evidence.get i = some e)) :
    contested env evidence' c = contested env evidence c := by
  have hrows : ∀ e, e ∈ (currentEvidence evidence' c).filterMap evidence'.get ↔
      e ∈ (currentEvidence evidence c).filterMap evidence.get := by
    intro e
    simp only [mem_current]
    constructor
    · rintro ⟨i, he, hc, hcur⟩
      exact ⟨i, (h i e hc hcur).mp he, hc, hcur⟩
    · rintro ⟨i, he, hc, hcur⟩
      exact ⟨i, (h i e hc hcur).mpr he, hc, hcur⟩
  rw [Bool.eq_iff_iff]
  simp only [contested, Bool.or_eq_true, List.any_eq_true, hasCrossSourceContradiction_iff, hrows]

end Contested
section Reconcile
variable (env : Env) (now : Time) (incidentId : Id)

/-- The status a reconciled case is left with. -/
def settledStatus (evidence : Table ConflictEvidence) (c : Id) (status : CaseStatus) : CaseStatus :=
  if contested env evidence c || status = .resolved || status = .closed then status else .resolved

/-- What reconciling the cases `ids` does, exactly. -/
structure Reconciled (ids : List Id) (s t : Store) : Prop where
  evidence : t.evidence = s.evidence
  others : ∀ c, c ∉ ids → t.cases.get c = s.cases.get c
  settled : ∀ c ∈ ids, ∀ x, s.cases.get c = some x → ∃ y, t.cases.get c = some y ∧
    y.status = settledStatus env s.evidence c x.status
  fragments : FragmentsFreed s.fragments t.fragments

theorem withdrawFromCase_exact (s : Store) {id : Id} {x : ConflictCase} (w : Withdrawal)
    (hx : s.cases.get id = some x) :
    let t := withdrawFromCase now incidentId s id x w
    t.evidence = s.evidence ∧ t.fragments = s.fragments ∧
      (∀ c, c ≠ id → t.cases.get c = s.cases.get c) ∧
      ∃ y, t.cases.get id = some y ∧ y.status = x.status := by
  obtain ⟨y, hy⟩ : ∃ y, y = if x.revision = w.revision then bumpRevision x else x := ⟨_, rfl⟩
  have hstatus : y.status = x.status := by
    subst hy
    split_ifs <;> rfl
  have hreview : ∀ (u : Store) (z : ConflictCase) (ids : List Id),
      (reviewAcceptingFact now incidentId u id z ids).evidence = u.evidence ∧
        (reviewAcceptingFact now incidentId u id z ids).fragments = u.fragments := by
    intro u z ids
    unfold reviewAcceptingFact
    split <;> exact ⟨rfl, rfl⟩
  unfold withdrawFromCase
  rw [← hy]
  dsimp only
  obtain ⟨he, hf⟩ := hreview (reviseWithdrawn now incidentId
    { s with cases := s.cases.modify id fun _ => y } id y w.evidenceIds) y w.evidenceIds
  refine ⟨he, hf, fun c hc => ?_, y, ?_, hstatus⟩
  · rw [reviewAcceptingFact_cases]
    exact Table.get_modify_of_ne _ _ hc.symm
  · rw [reviewAcceptingFact_cases]
    simp [reviseWithdrawn, Store.emit, hx]

theorem settleFragment_freed (s : Store) (fragmentId : Id) :
    let t := settleFragment env now s fragmentId
    t.evidence = s.evidence ∧ t.cases = s.cases ∧ FragmentsFreed s.fragments t.fragments := by
  unfold settleFragment
  split
  · next f hf =>
    dsimp only
    split_ifs with hc
    · simp only [Bool.and_eq_true, decide_eq_true_eq] at hc
      refine ⟨rfl, rfl, .modify .refl _ fun g hg => ?_⟩
      obtain rfl : f = g := Option.some.inj (hf.symm.trans hg)
      exact Or.inr ⟨hc.2, rfl, rfl, rfl⟩
    · exact ⟨rfl, rfl, .refl .refl _⟩
  · exact ⟨rfl, rfl, .refl .refl _⟩

theorem settleFragments_freed (ids : List Id) :
    ∀ s : Store, let t := ids.foldl (settleFragment env now) s
      t.evidence = s.evidence ∧ t.cases = s.cases ∧ FragmentsFreed s.fragments t.fragments := by
  induction ids with
  | nil => exact fun s => ⟨rfl, rfl, .refl .refl _⟩
  | cons i ids ih =>
    intro s
    obtain ⟨h₁, h₂, h₃⟩ := settleFragment_freed env now s i
    obtain ⟨k₁, k₂, k₃⟩ := ih (settleFragment env now s i)
    exact ⟨k₁.trans h₁, k₂.trans h₂, .trans (fun _ _ _ => .trans) h₃ k₃⟩

theorem settleCase_exact (s : Store) {id : Id} {x : ConflictCase} (bump : Bool)
    (hx : s.cases.get id = some x) :
    Reconciled env [id] s (settleCase env now incidentId s id x bump) := by
  have hkept : ∀ features, settledStatus env s.evidence id x.status = x.status →
      Reconciled env [id] s { s with features := features } := fun features hs =>
    { evidence := rfl
      others := fun _ _ => rfl
      settled := by
        intro c hc y hy
        obtain rfl := List.mem_singleton.mp hc
        obtain rfl : x = y := Option.some.inj (hx.symm.trans hy)
        exact ⟨x, hx, hs.symm⟩
      fragments := .refl .refl _ }
  unfold settleCase
  dsimp only
  split_ifs with hcontested hclosed
  · have hc : contested env s.evidence id = true := hcontested
    exact hkept _ (by rw [settledStatus, hc]; rfl)
  · refine hkept _ ?_
    rw [settledStatus]
    split_ifs with h
    · rfl
    · simp only [Bool.or_eq_true, decide_eq_true_eq] at h hclosed
      exact absurd (hclosed.elim (fun hr => Or.inl (Or.inr hr)) Or.inr) h
  · have hc : contested env s.evidence id = false := Bool.not_eq_true _ ▸ hcontested
    obtain ⟨he, hcases, hf⟩ := settleFragments_freed env now
      (caseFragments (closeCase now s id x bump) id) (closeCase now s id x bump)
    exact
      { evidence := he
        others := by
          intro c hni
          refine (congrArg (·.get c) hcases).trans ?_
          exact Table.get_modify_of_ne _ _ fun h => hni (List.mem_singleton.mpr h.symm)
        settled := by
          intro c hmem y hy
          obtain rfl := List.mem_singleton.mp hmem
          obtain rfl : x = y := Option.some.inj (hx.symm.trans hy)
          refine ⟨autoResolved now x bump, (congrArg (·.get c) hcases).trans (by simp [closeCase, hx]), ?_⟩
          simp only [Bool.or_eq_true, decide_eq_true_eq, not_or] at hclosed
          simp [settledStatus, hc, hclosed.1, hclosed.2, autoResolved, resolveCase]
        fragments := hf }

theorem reconcileCase_exact (withdrawn : List Withdrawal) (s : Store) (id : Id) :
    Reconciled env [id] s (reconcileCase env now incidentId withdrawn s id) := by
  have hsettle : ∀ {u : Store} {x y : ConflictCase} (bump : Bool), s.cases.get id = some x →
      u.cases.get id = some y → y.status = x.status → u.evidence = s.evidence →
      u.fragments = s.fragments → (∀ c, c ≠ id → u.cases.get c = s.cases.get c) →
      Reconciled env [id] s (settleCase env now incidentId u id y bump) := by
    intro u x y bump hx hy hstatus he hf ho
    have hr := settleCase_exact env now incidentId u bump hy
    exact
      { evidence := hr.evidence.trans he
        others := by
          intro c hc
          exact (hr.others c hc).trans (ho c fun h => hc (List.mem_singleton.mpr h))
        settled := by
          intro c hc z hz
          obtain rfl := List.mem_singleton.mp hc
          obtain rfl : x = z := Option.some.inj (hx.symm.trans hz)
          obtain ⟨t, ht, hs⟩ := hr.settled c hc y hy
          exact ⟨t, ht, by rw [hs, he, hstatus]⟩
        fragments := hf ▸ hr.fragments }
  unfold reconcileCase
  cases hx : s.cases.get id with
  | none =>
    have hnone : Reconciled env [id] s s :=
      { evidence := rfl
        others := fun _ _ => rfl
        settled := by
          intro c hc x hx'
          rw [List.mem_singleton.mp hc, hx] at hx'
          exact nomatch hx'
        fragments := .refl InformationFragment.Freed.refl _ }
    cases withdrawn.find? fun w => w.conflictId = id with
    | none => simpa only [hx] using hnone
    | some w => simpa only [hx] using hnone
  | some x =>
    cases hw : withdrawn.find? fun w => w.conflictId = id with
    | none =>
      simp only [hx]
      exact hsettle _ hx hx rfl rfl rfl fun _ _ => rfl
    | some w =>
      obtain ⟨he, hf, ho, y, hy, hs⟩ := withdrawFromCase_exact now incidentId s w hx
      simp only [hy]
      exact hsettle _ hx hy hs he hf ho

variable {env}

theorem Reconciled.cons {id : Id} {ids : List Id} {s t u : Store} (hid : id ∉ ids)
    (h : Reconciled env [id] s t) (k : Reconciled env ids t u) : Reconciled env (id :: ids) s u where
  evidence := k.evidence.trans h.evidence
  others := by
    intro c hc
    simp only [List.mem_cons, not_or] at hc
    exact (k.others c hc.2).trans (h.others c (by simp [hc.1]))
  settled := by
    intro c hc x hx
    rcases List.mem_cons.mp hc with rfl | hmem
    · obtain ⟨y, hy, hs⟩ := h.settled c (by simp) x hx
      exact ⟨y, (k.others c hid).trans hy, hs⟩
    · have hne : c ≠ id := fun he => hid (he ▸ hmem)
      obtain ⟨y, hy, hs⟩ := k.settled c hmem x ((h.others c (by simp [hne])).trans hx)
      exact ⟨y, hy, by rw [hs, h.evidence]⟩
  fragments := .trans (fun _ _ _ => .trans) h.fragments k.fragments

theorem reconcileConflicts_exact (withdrawn : List Withdrawal) (s : Store) (ids : List Id) :
    Reconciled env ids s (reconcileConflicts env now incidentId withdrawn s ids) := by
  have hfold : ∀ (ids : List Id) (s : Store), ids.Nodup →
      Reconciled env ids s (ids.foldl (reconcileCase env now incidentId withdrawn) s) := by
    intro ids
    induction ids with
    | nil =>
      exact fun s _ => ⟨rfl, fun _ _ => rfl, fun _ hc => (nomatch hc), .refl .refl _⟩
    | cons id ids ih =>
      intro s hnd
      obtain ⟨hid, hnd⟩ := List.nodup_cons.mp hnd
      exact (reconcileCase_exact env now incidentId withdrawn s id).cons hid (ih _ hnd)
  have h := hfold ids.eraseDups s (nodup_eraseDups ids)
  exact
    { evidence := h.evidence
      others := fun c hc => h.others c (by simpa using hc)
      settled := fun c hc => h.settled c (by simpa using hc)
      fragments := h.fragments }

end Reconcile
section Call
variable {env : Env} {now : Time} {sources : Sources} {s t : Store} {call : ConflictCall} {id : Id}
  {opened : Bool}

/-- A fragment may be put into a conflict, and nothing else. -/
def InformationFragment.Drawn (f g : InformationFragment) : Prop :=
  f.SameContent g ∧ g.revision = f.revision ∧ (g.status = f.status ∨ g.status = .conflict)

theorem InformationFragment.Drawn.refl (f : InformationFragment) : f.Drawn f :=
  ⟨.refl f, rfl, Or.inl rfl⟩

theorem InformationFragment.Drawn.trans {f g h : InformationFragment} (a : f.Drawn g)
    (b : g.Drawn h) : f.Drawn h := by
  refine ⟨a.1.trans b.1, b.2.1.trans a.2.1, ?_⟩
  rcases b.2.2 with hb | hb
  · rw [hb]
    exact a.2.2
  · exact Or.inr hb

abbrev FragmentsDrawn (s t : Table InformationFragment) : Prop :=
  s.Related InformationFragment.Drawn t

theorem setFragmentStatus_undrawn (now : Time) (status : FragmentStatus) {k : Id} (ids : List Id) :
    ∀ fragments : Table InformationFragment, k ∉ ids →
      (setFragmentStatus now fragments status ids).get k = fragments.get k := by
  induction ids with
  | nil => exact fun _ _ => rfl
  | cons i ids ih =>
    intro fragments hk
    simp only [List.mem_cons, not_or] at hk
    exact (ih _ hk.2).trans (Table.get_modify_of_ne _ _ (Ne.symm hk.1))

theorem setFragmentStatus_drawn (now : Time) (ids : List Id) :
    ∀ fragments : Table InformationFragment,
      FragmentsDrawn fragments (setFragmentStatus now fragments .conflict ids) := by
  induction ids with
  | nil => exact fun fragments => .refl .refl fragments
  | cons i ids ih =>
    intro fragments
    have hone : FragmentsDrawn fragments (fragments.modify i fun f =>
        { f with status := .conflict, updatedAt := now }) :=
      .modify .refl fragments fun f _ => ⟨rfl, rfl, Or.inr rfl⟩
    exact .trans (fun _ _ _ => .trans) hone (ih _)

/-- What a detected contradiction does to cases, evidence and fragments, exactly. -/
structure Called (env : Env) (now : Time) (sources : Sources) (s t : Store) (call : ConflictCall)
    (id : Id) : Prop where
  found : findCandidate env now s call = some id ∨
    findCandidate env now s call = none ∧ id = s.cases.size
  cites : ∀ c k, CitesNow t.evidence c k ↔ CitesNow s.evidence c k ∨ c = id ∧ k ∈ call.fragments
  others : ∀ c, c ≠ id → t.cases.get c = s.cases.get c
  case : ∃ y, t.cases.get id = some y ∧ y.status ≠ .resolved ∧
    (y.status = .closed → ∃ x, s.cases.get id = some x ∧ x.status = .closed)
  added : ∃ ids, addEvidence env now sources s.fragments id call.incidentId
    (fragmentReferences s.fragments call.fragments) s.evidence = .ok (t.evidence, ids)
  fragments : FragmentsDrawn s.fragments t.fragments
  undrawn : ∀ k, k ∉ call.fragments → t.fragments.get k = s.fragments.get k

theorem findOrOpen_exact
    (h : findOrOpenStructuredConflict env now sources s call = .ok (t, id, opened)) :
    Called env now sources s t call id := by
  simp only [findOrOpenStructuredConflict, bind_ok, pure_ok, Prod.exists, Prod.mk.injEq] at h
  obtain ⟨evidence, added, hadd, rfl, rfl, rfl⟩ := h
  have hcites : ∀ {c : Id} {fragments : Table InformationFragment} {before : Table ConflictEvidence},
      addEvidence env now sources fragments c call.incidentId
        (fragmentReferences fragments call.fragments) before = .ok (evidence, added) →
      ∀ d k, CitesNow evidence d k ↔ CitesNow before d k ∨ d = c ∧ k ∈ call.fragments := by
    intro c fragments before h d k
    rw [citesNow_addEvidence h]
    refine or_congr_right (and_congr_right fun _ => ⟨?_, fun hk => ?_⟩)
    · rintro ⟨r, hr, -, rfl⟩
      obtain ⟨i, hi, rfl⟩ := mem_fragmentReferences.mp hr
      exact hi
    · exact ⟨_, mem_fragmentReferences.mpr ⟨k, hk, rfl⟩, rfl, rfl⟩
  rcases openCase_cases env now s call with ⟨hfind, ho⟩ | ⟨c, x, hfind, hx, ⟨hr, ho⟩ | ⟨hr, ho⟩⟩
  · simp only [ho, Bool.false_and, Bool.false_eq_true, if_false] at hadd ⊢
    exact
      { found := Or.inr ⟨hfind, rfl⟩
        cites := hcites hadd
        others := fun c hc => by simp [Table.get_insert, hc]
        case := ⟨freshCase now call, by simp, by simp [freshCase], fun h => by cases h⟩
        added := ⟨_, hadd⟩
        fragments := setFragmentStatus_drawn now _ _
        undrawn := fun _ hk => setFragmentStatus_undrawn now _ _ _ hk }
  · simp only [ho, Bool.not_true, Bool.and_false, Bool.false_eq_true, if_false] at hadd ⊢
    exact
      { found := Or.inl hfind
        cites := hcites hadd
        others := fun d hd => Table.get_modify_of_ne _ _ hd.symm
        case := ⟨reopen x, by simp [reopenStructured, Store.updateCase, Store.withBoard, hx],
          by simp [reopen], fun h => by cases h⟩
        added := ⟨_, hadd⟩
        fragments := setFragmentStatus_drawn now _ _
        undrawn := fun _ hk => setFragmentStatus_undrawn now _ _ _ hk }
  · simp only [ho, Bool.not_false, Bool.true_and, Bool.and_true] at hadd ⊢
    cases hasNewSnapshot s c call.fragments with
    | true =>
      exact
        { found := Or.inl hfind
          cites := hcites hadd
          others := fun d hd => Table.get_modify_of_ne _ _ hd.symm
          case := ⟨bumpRevision x, by simp [extendCase, Store.updateCase, hx], hr,
            fun h => ⟨x, hx, h⟩⟩
          added := ⟨_, hadd⟩
          fragments := setFragmentStatus_drawn now _ _
          undrawn := fun _ hk => setFragmentStatus_undrawn now _ _ _ hk }
    | false =>
      exact
        { found := Or.inl hfind
          cites := hcites hadd
          others := fun _ _ => rfl
          case := ⟨x, hx, hr, fun h => ⟨x, hx, h⟩⟩
          added := ⟨_, hadd⟩
          fragments := setFragmentStatus_drawn now _ _
          undrawn := fun _ hk => setFragmentStatus_undrawn now _ _ _ hk }

end Call
end CrisisMosaic
