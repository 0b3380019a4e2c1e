import CrisisMosaic.Lifecycle
import CrisisMosaic.Reconcile

/-!
# What reconciliation does

Every case that lost evidence ends at a later revision, and no fact that is still
current accepts what was withdrawn.
-/

namespace CrisisMosaic
open Relational

section Withdrawals
variable {cases : Table ConflictCase} {evidence : Table ConflictEvidence} {fragmentId : Id}

theorem isFragmentEvidence_iff {e : ConflictEvidence} :
    isFragmentEvidence fragmentId e = true ↔
      e.kind = .fragment ∧ e.sourceId = fragmentId ∧ e.isCurrent = true := by
  simp [isFragmentEvidence, and_assoc]

theorem get_invalidateFragmentEvidence {i : Id} {e : ConflictEvidence}
    (h : (invalidateFragmentEvidence evidence fragmentId).get i = some e) :
    ∃ d, evidence.get i = some d ∧
      (isFragmentEvidence fragmentId d = true ∧ e = { d with isCurrent := false } ∨
        isFragmentEvidence fragmentId d = false ∧ e = d) := by
  simp only [invalidateFragmentEvidence, Table.get_sweep] at h
  obtain ⟨d, hd, rfl⟩ := Option.map_eq_some_iff.mp h
  refine ⟨d, hd, ?_⟩
  by_cases hf : isFragmentEvidence fragmentId d = true
  · exact Or.inl ⟨hf, by rw [if_pos hf]⟩
  · exact Or.inr ⟨by simpa using hf, by rw [if_neg hf]⟩

/-- The withdrawals are of existing cases, at the revision they had, one for each case. -/
structure WithdrawnFrom (cases : Table ConflictCase) (withdrawn : List Withdrawal) : Prop where
  case : ∀ w ∈ withdrawn, ∃ x, cases.get w.conflictId = some x ∧ w.revision = x.revision
  unique : ∀ w ∈ withdrawn, ∀ w' ∈ withdrawn, w.conflictId = w'.conflictId → w = w'

theorem mem_withdrawals {w : Withdrawal} :
    w ∈ withdrawals cases evidence fragmentId ↔ ∃ x, cases.get w.conflictId = some x ∧
      w.revision = x.revision ∧ w.evidenceIds ≠ [] ∧
      w.evidenceIds = (evidence.select (isFragmentEvidence fragmentId)).filter fun i =>
        (evidence.get i).any fun e => e.conflictId = w.conflictId := by
  simp only [withdrawals, List.mem_filterMap, Table.mem_select]
  constructor
  · rintro ⟨c, ⟨x, hx, -⟩, hw⟩
    split_ifs at hw with he
    obtain rfl := Option.some.inj hw
    exact ⟨x, hx, by simp [hx], by simpa using he, rfl⟩
  · rintro ⟨x, hx, hr, hne, he⟩
    refine ⟨w.conflictId, ⟨x, hx, trivial⟩, ?_⟩
    rw [← he, if_neg (by simpa using hne), hx]
    simp [← hr]

theorem withdrawals_from (cases : Table ConflictCase) (evidence : Table ConflictEvidence)
    (fragmentId : Id) : WithdrawnFrom cases (withdrawals cases evidence fragmentId) where
  case := fun w hw =>
    let ⟨x, hx, hr, _⟩ := mem_withdrawals.mp hw
    ⟨x, hx, hr⟩
  unique := by
    intro w hw w' hw' hc
    obtain ⟨x, hx, hr, -, he⟩ := mem_withdrawals.mp hw
    obtain ⟨x', hx', hr', -, he'⟩ := mem_withdrawals.mp hw'
    rw [hc, hx'] at hx
    obtain rfl := Option.some.inj hx
    rw [← hc, ← he] at he'
    cases w
    cases w'
    simp_all

/-- A withdrawn row is listed with its case. -/
theorem withdrawn_listed {i c : Id} {e : ConflictEvidence} {x : ConflictCase}
    (he : evidence.get i = some e) (hf : isFragmentEvidence fragmentId e = true)
    (hc : e.conflictId = c) (hx : cases.get c = some x) :
    ∃ w ∈ withdrawals cases evidence fragmentId, w.conflictId = c ∧ i ∈ w.evidenceIds := by
  have hi : i ∈ (evidence.select (isFragmentEvidence fragmentId)).filter fun i =>
      (evidence.get i).any fun e => e.conflictId = c := by
    simp only [List.mem_filter, Table.mem_select]
    exact ⟨⟨e, he, hf⟩, by simp [he, hc]⟩
  exact ⟨⟨c, _, x.revision⟩, mem_withdrawals.mpr ⟨x, hx, rfl, List.ne_nil_of_mem hi, rfl⟩, rfl, hi⟩

theorem WithdrawnFrom.find {withdrawn : List Withdrawal} (h : WithdrawnFrom cases withdrawn)
    {w : Withdrawal} (hw : w ∈ withdrawn) :
    withdrawn.find? (fun v => v.conflictId = w.conflictId) = some w := by
  cases hf : withdrawn.find? fun v => v.conflictId = w.conflictId with
  | none => simpa using List.find?_eq_none.mp hf w hw
  | some v =>
    have hv := List.mem_of_find?_eq_some hf
    have hc : v.conflictId = w.conflictId := by simpa using List.find?_some hf
    rw [h.unique v hv w hw hc]

end Withdrawals

namespace Store

/-- A step that reviews facts and touches no case but one and no evidence. -/
structure Within (id : Id) (s t : Store) : Prop where
  board : s.board.Reviewed t.board
  evidence : t.evidence = s.evidence
  others : ∀ c, c ≠ id → t.cases.get c = s.cases.get c
  revision : ∀ x y, s.cases.get id = some x → t.cases.get id = some y → x.revision ≤ y.revision
  size : t.cases.size = s.cases.size

theorem Within.refl (id : Id) (s : Store) : Within id s s where
  board := .refl _
  evidence := rfl
  others := fun _ _ => rfl
  revision := fun x y hx hy => by rw [Option.some.inj (hx.symm.trans hy)]
  size := rfl

theorem Within.trans {id : Id} {s t u : Store} (h : Within id s t) (k : Within id t u) :
    Within id s u where
  board := h.board.trans k.board
  evidence := k.evidence.trans h.evidence
  others := fun c hc => (k.others c hc).trans (h.others c hc)
  revision := by
    intro x z hx hz
    obtain ⟨y, hy⟩ := Table.get_of_lt (h.size ▸ Table.lt_size hx : id < t.cases.size)
    exact (h.revision x y hx hy).trans (k.revision y z hy hz)
  size := k.size.trans h.size

theorem Quiet.within {s t : Store} (h : s.Quiet t) (id : Id) : Within id s t where
  board := (h.advances fun _ => False).board
  evidence := h.evidence
  others := fun _ _ => by rw [h.cases]
  revision := fun x y hx hy => by
    rw [h.cases] at hy
    rw [Option.some.inj (hx.symm.trans hy)]
  size := by rw [h.cases]

theorem updateCase_within {id : Id} {s : Store} {x : ConflictCase} (hx : s.cases.get id = some x)
    (f : ConflictCase → ConflictCase) (hf : x.revision ≤ (f x).revision) :
    Within id s (s.updateCase id f) where
  board := .refl _
  evidence := rfl
  others := fun _ hc => Table.get_modify_of_ne _ _ hc.symm
  revision := by
    intro x' y hx' hy
    obtain rfl : x = x' := Option.some.inj (hx.symm.trans hx')
    simp only [updateCase, Table.get_modify_self, hx, Option.map_some, Option.some.injEq] at hy
    rwa [← hy]
  size := Table.size_modify _ _ _

/-- No case is lost and no revision goes back. -/
def Grows (s t : Store) : Prop :=
  ∀ c x, s.cases.get c = some x → ∃ y, t.cases.get c = some y ∧ x.revision ≤ y.revision

theorem Grows.refl (s : Store) : s.Grows s := fun _ x hx => ⟨x, hx, le_rfl⟩

theorem Grows.trans {s t u : Store} (h : s.Grows t) (k : t.Grows u) : s.Grows u := by
  intro c x hx
  obtain ⟨y, hy, hxy⟩ := h c x hx
  obtain ⟨z, hz, hyz⟩ := k c y hy
  exact ⟨z, hz, hxy.trans hyz⟩

theorem Quiet.grows {s t : Store} (h : s.Quiet t) : s.Grows t :=
  fun _ x hx => ⟨x, by rwa [h.cases], le_rfl⟩

theorem Within.grows {id : Id} {s t : Store} (h : Within id s t) : s.Grows t := by
  intro c x hx
  obtain ⟨y, hy⟩ := Table.get_of_lt (h.size ▸ Table.lt_size hx : c < t.cases.size)
  refine ⟨y, hy, ?_⟩
  by_cases hc : c = id
  · subst hc
    exact h.revision x y hx hy
  · rw [h.others c hc, hx] at hy
    rw [Option.some.inj hy]

end Store

section Steps
variable (env : Env) (now : Time) (incidentId : Id) {reopens : Id → Prop}
open Store

theorem reviseWithdrawn_quiet (s : Store) (id : Id) (x : ConflictCase) (withdrawn : List Id) :
    s.Quiet (reviseWithdrawn now incidentId s id x withdrawn) :=
  (stale_quiet s now id x.incidentId "evidence_withdrawn").trans (emit_quiet _ now incidentId _)

theorem reviewAcceptingFact_cases (s : Store) (id : Id) (x : ConflictCase) (withdrawn : List Id) :
    (reviewAcceptingFact now incidentId s id x withdrawn).cases = s.cases := by
  unfold reviewAcceptingFact
  split <;> rfl

theorem reviewAcceptingFact_within (s : Store) (id : Id) (x : ConflictCase) (withdrawn : List Id) :
    Within id s (reviewAcceptingFact now incidentId s id x withdrawn) := by
  unfold reviewAcceptingFact
  split
  · exact .refl id s
  · exact { Within.refl id s with board := FactBoard.markFactUnderReview_reviewed _ now id x _ }

theorem reviewAcceptingFact_advances {b s : Store} (h : b.Advances reopens s) (id : Id) (x : ConflictCase)
    (withdrawn : List Id) : b.Advances reopens (reviewAcceptingFact now incidentId s id x withdrawn) := by
  unfold reviewAcceptingFact
  split
  · exact h
  · exact (h.review (FactBoard.markFactUnderReview_reviewed _ now id x _)).quiet
      (emit_quiet _ now incidentId _)

theorem reviewAcceptingFact_disowns {s : Store} (hwf : s.facts.WellFormed) (id : Id)
    (x : ConflictCase) (withdrawn : List Id) :
    (reviewAcceptingFact now incidentId s id x withdrawn).facts.Disowns x.incidentId x.factKey
      withdrawn := by
  unfold reviewAcceptingFact
  split
  · next hnone =>
    intro fid r v hr hi hk hs hv e he hmem
    have hl := hwf.lookup_eq hr
    rw [hi, hk] at hl
    rw [acceptingFact, hl, Option.filter_some, if_pos] at hnone
    · exact nomatch hnone
    · simp only [hv, Option.any_some, Bool.and_eq_true, decide_eq_true_eq, List.any_eq_true]
      exact ⟨by simpa using hs, e, he, by simpa using hmem⟩
  · exact (FactBoard.markFactUnderReview_underReview hwf now id x _).disowns withdrawn

/-- A case that loses evidence gets past the revision it lost it at. -/
theorem withdrawFromCase_advances {b s : Store} (h : b.Advances reopens s) (hwf : b.facts.WellFormed)
    {id : Id} {x x₀ : ConflictCase} {w : Withdrawal} (hx : s.cases.get id = some x)
    (hx₀ : b.cases.get id = some x₀) (hw : w.revision = x₀.revision) :
    let t := withdrawFromCase now incidentId s id x w
    b.Advances reopens t ∧ Within id s t ∧
      (∃ y, t.cases.get id = some y ∧ w.revision < y.revision) ∧
      t.facts.Disowns x₀.incidentId x₀.factKey w.evidenceIds := by
  obtain ⟨y, hy⟩ : ∃ y, y = if x.revision = w.revision then bumpRevision x else x := ⟨_, rfl⟩
  have hprog : x₀.Progress s.facts x := by
    have := h.cases.rows id x hx
    rwa [hx₀] at this
  have hyprog : x₀.Progress s.facts y := by
    subst hy
    split_ifs with hr
    · exact hprog.bump (by omega)
    · exact hprog
  have hlt : w.revision < y.revision := by
    subst hy
    have := hprog.revision
    split_ifs with hr
    · simp only [bumpRevision]
      omega
    · omega
  have hle : x.revision ≤ y.revision := by
    subst hy
    split_ifs
    · exact Nat.le_succ _
    · exact le_rfl
  have hset : b.Advances reopens { s with cases := s.cases.modify id fun _ => y } := by
    have hstatus : y.status = x.status := by
      subst hy
      split_ifs <;> rfl
    refine h.updateCase (fun _ _ _ => ?_) fun x' hx' hr => Or.inl ?_
    · rw [hx₀]
      exact hyprog
    · obtain rfl : x = x' := Option.some.inj (hx.symm.trans hx')
      exact hstatus.trans hr
  have hrev := reviseWithdrawn_quiet now incidentId
    { s with cases := s.cases.modify id fun _ => y } id y w.evidenceIds
  have hadv := hset.quiet hrev
  have hkeys : y.incidentId = x₀.incidentId ∧ y.factKey = x₀.factKey :=
    ⟨hyprog.incident, hyprog.factKey⟩
  have hstep : withdrawFromCase now incidentId s id x w = reviewAcceptingFact now incidentId
      (reviseWithdrawn now incidentId { s with cases := s.cases.modify id fun _ => y } id y
        w.evidenceIds) id y w.evidenceIds := by
    rw [hy]
    rfl
  refine ⟨?_, ?_, ?_, ?_⟩
  · rw [hstep]
    exact reviewAcceptingFact_advances now incidentId hadv id y w.evidenceIds
  · rw [hstep]
    exact ((updateCase_within hx (fun _ => y) hle).trans (hrev.within id)).trans
      (reviewAcceptingFact_within now incidentId _ id y w.evidenceIds)
  · rw [hstep, reviewAcceptingFact_cases]
    exact ⟨y, by simp [reviseWithdrawn, Store.emit, hx], hlt⟩
  · rw [hstep, ← hkeys.1, ← hkeys.2]
    exact reviewAcceptingFact_disowns now incidentId (hadv.wellFormed hwf) id y w.evidenceIds

theorem settleFragment_spec (s : Store) (fragmentId : Id) :
    CalmFragments s.fragments (settleFragment env now s fragmentId).fragments ∧
      s.Quiet { settleFragment env now s fragmentId with fragments := s.fragments } := by
  unfold settleFragment
  split
  · next f hf =>
    dsimp only
    split_ifs with hc
    · simp only [Bool.and_eq_true, decide_eq_true_eq] at hc
      refine ⟨(Table.Evolves.refl .refl _).modify fun g hg _ => ?_,
        ⟨upsertFragmentMapFeature_factSilent env now _ _ _, .refl _, rfl, rfl, rfl, rfl⟩⟩
      obtain rfl : f = g := Option.some.inj (hf.symm.trans hg)
      rw [hg]
      exact ⟨⟨rfl, rfl, rfl, Nat.le_succ _⟩, by simp [hc.2]⟩
    · exact ⟨.refl .refl _, .refl s⟩
  · exact ⟨.refl .refl _, .refl s⟩

theorem settleFragment_advances {b s : Store} (h : b.Advances reopens s) (fragmentId : Id) :
    b.Advances reopens (settleFragment env now s fragmentId) := by
  obtain ⟨hf, hq⟩ := settleFragment_spec env now s fragmentId
  exact (h.quiet hq).setFragments hf

theorem settleFragment_within (s : Store) (fragmentId id : Id) :
    Within id s (settleFragment env now s fragmentId) := by
  have h := (settleFragment_spec env now s fragmentId).2.within id
  exact { h with }

theorem settleFragment_cases (s : Store) (fragmentId : Id) :
    (settleFragment env now s fragmentId).cases = s.cases :=
  (settleFragment_spec env now s fragmentId).2.cases

theorem settleFragments_spec {b : Store} (id : Id) (fragmentIds : List Id) :
    ∀ s : Store, b.Advances reopens s →
      let t := fragmentIds.foldl (settleFragment env now) s
      b.Advances reopens t ∧ Within id s t ∧ t.cases = s.cases := by
  induction fragmentIds with
  | nil => exact fun s h => ⟨h, .refl id s, rfl⟩
  | cons f fs ih =>
    intro s h
    obtain ⟨h₁, h₂, h₃⟩ := ih _ (settleFragment_advances env now h f)
    exact ⟨h₁, (settleFragment_within env now s f id).trans h₂,
      h₃.trans (settleFragment_cases env now s f)⟩

theorem closeCase_advances {b s : Store} (h : b.Advances reopens s) {id : Id} {x : ConflictCase}
    {bump : Bool} (hx : s.cases.get id = some x)
    (hbump : ∀ x₀, b.cases.get id = some x₀ → bump = true ∨ x₀.revision < x.revision) :
    b.Advances reopens (closeCase now s id x bump) ∧ Within id s (closeCase now s id x bump) := by
  have hset : b.Advances reopens (s.updateCase id fun _ => autoResolved now x bump) := by
    refine h.updateCase (fun x' hx' ht => ?_) fun _ _ _ => Or.inl rfl
    obtain rfl : x = x' := Option.some.inj (hx.symm.trans hx')
    cases hx₀ : b.cases.get id with
    | none => exact ConflictCase.resolveCase_consistent now x none _ bump
    | some x₀ =>
      rw [hx₀] at ht
      refine ConflictCase.Progress.resolve ht now none _ bump ?_
      rcases hbump x₀ hx₀ with rfl | hlt
      · exact Nat.lt_succ_of_le ht.revision
      · exact hlt.trans_le (ConflictCase.resolveCase_revision_le now x none _ bump)
  have hquiet : (s.updateCase id fun _ => autoResolved now x bump).Quiet
      (closeCase now s id x bump) := by
    refine ⟨hideConflictMapFeature_factSilent now _ id _, ?_, rfl, rfl, rfl, rfl⟩
    unfold closeCase
    dsimp only
    split_ifs
    · exact Feed.markAnalysesStale_analysesKept _ now id x.incidentId _
    · exact .refl _
  exact ⟨hset.quiet hquiet, (updateCase_within hx _
    (ConflictCase.resolveCase_revision_le now x none _ bump)).trans (hquiet.within id)⟩

theorem autoResolve_advances {b s : Store} (h : b.Advances reopens s) {id : Id} {x : ConflictCase}
    {bump : Bool} (hx : s.cases.get id = some x)
    (hbump : ∀ x₀, b.cases.get id = some x₀ → bump = true ∨ x₀.revision < x.revision) :
    let t := autoResolve env now incidentId s id x bump
    b.Advances reopens t ∧ Within id s t ∧ ∃ y, t.cases.get id = some y ∧ x.revision ≤ y.revision := by
  obtain ⟨g₁, g₂⟩ := closeCase_advances now h hx hbump
  obtain ⟨h₁, h₂, h₃⟩ := settleFragments_spec env now id (caseFragments (closeCase now s id x bump) id)
    _ g₁
  have hlast := fun e => emit_quiet (List.foldl (settleFragment env now) (closeCase now s id x bump)
    (caseFragments (closeCase now s id x bump) id)) now incidentId e
  refine ⟨h₁.quiet (hlast _), (g₂.trans h₂).trans ((hlast _).within id), autoResolved now x bump, ?_,
    ConflictCase.resolveCase_revision_le now x none _ bump⟩
  refine (congrArg (·.get id) h₃).trans ?_
  simp [closeCase, hx]

theorem settleCase_advances {b s : Store} (h : b.Advances reopens s) {id : Id} {x : ConflictCase}
    (hx : s.cases.get id = some x) (bump : Bool)
    (hbump : ∀ x₀, b.cases.get id = some x₀ → bump = true ∨ x₀.revision < x.revision) :
    let t := settleCase env now incidentId s id x bump
    b.Advances reopens t ∧ Within id s t ∧ ∃ y, t.cases.get id = some y ∧ x.revision ≤ y.revision := by
  unfold settleCase
  dsimp only
  split_ifs
  · have hq := features_quiet s
      (upsertConflictMapFeature_factSilent env now s.features s.fragments s.evidence id x)
    exact ⟨h.quiet hq, hq.within id, x, hx, le_rfl⟩
  · have hq := features_quiet s (hideConflictMapFeature_factSilent now s.features id x)
    exact ⟨h.quiet hq, hq.within id, x, hx, le_rfl⟩
  · exact autoResolve_advances env now incidentId h hx hbump

variable {withdrawn : List Withdrawal}

/-- One turn: the case is past its withdrawal and its fact disowns what was withdrawn. -/
theorem reconcileCase_advances {b s : Store} (h : b.Advances reopens s) (hwf : b.facts.WellFormed)
    (hw : WithdrawnFrom b.cases withdrawn) (id : Id) :
    let t := reconcileCase env now incidentId withdrawn s id
    b.Advances reopens t ∧ Within id s t ∧
      ∀ w ∈ withdrawn, w.conflictId = id →
        (∃ y, t.cases.get id = some y ∧ w.revision < y.revision) ∧
          ∀ x₀, b.cases.get id = some x₀ →
            t.facts.Disowns x₀.incidentId x₀.factKey w.evidenceIds := by
  unfold reconcileCase
  cases hfind : withdrawn.find? fun w => w.conflictId = id with
  | none =>
    have hno : ∀ w ∈ withdrawn, w.conflictId ≠ id := by
      simpa using List.find?_eq_none.mp hfind
    dsimp only
    cases hx : s.cases.get id with
    | none => exact ⟨h, .refl id s, fun w hw' hc => absurd hc (hno w hw')⟩
    | some x =>
      obtain ⟨h₁, h₂, -⟩ := settleCase_advances env now incidentId h hx
        true fun _ _ => Or.inl rfl
      exact ⟨h₁, h₂, fun w hw' hc => absurd hc (hno w hw')⟩
  | some w =>
    have hmem := List.mem_of_find?_eq_some hfind
    have hc : w.conflictId = id := by simpa using List.find?_some hfind
    obtain ⟨x₀, hx₀, hrev⟩ := hw.case w hmem
    rw [hc] at hx₀
    obtain ⟨x, hx, -⟩ := h.cases.get_some hx₀
    obtain ⟨g₁, g₂, ⟨y, hy, hlt⟩, g₄⟩ := withdrawFromCase_advances now incidentId h hwf hx hx₀ hrev
    simp only [hx, hy]
    obtain ⟨h₁, h₂, z, hz, hle⟩ := settleCase_advances env now incidentId g₁ hy
      false fun x₁ hx₁ => by
        obtain rfl : x₀ = x₁ := Option.some.inj (hx₀.symm.trans hx₁)
        exact Or.inr (hrev ▸ hlt)
    refine ⟨h₁, g₂.trans h₂, fun v hv hvc => ?_⟩
    obtain rfl := hw.unique v hv w hmem (hvc.trans hc.symm)
    refine ⟨⟨z, hz, hlt.trans_le hle⟩, fun x₁ hx₁ => ?_⟩
    obtain rfl : x₀ = x₁ := Option.some.inj (hx₀.symm.trans hx₁)
    exact h₂.board.disowns (g₁.wellFormed hwf) g₄

theorem reconcileCases_advances {b : Store} (hwf : b.facts.WellFormed)
    (hw : WithdrawnFrom b.cases withdrawn) :
    ∀ (ids : List Id) (s : Store), ids.Nodup → b.Advances reopens s →
      let t := ids.foldl (reconcileCase env now incidentId withdrawn) s
      b.Advances reopens t ∧ t.evidence = s.evidence ∧ s.board.Reviewed t.board ∧
        (∀ c, c ∉ ids → t.cases.get c = s.cases.get c) ∧ s.Grows t ∧
        ∀ w ∈ withdrawn, w.conflictId ∈ ids →
          (∃ y, t.cases.get w.conflictId = some y ∧ w.revision < y.revision) ∧
            ∀ x₀, b.cases.get w.conflictId = some x₀ →
              t.facts.Disowns x₀.incidentId x₀.factKey w.evidenceIds := by
  intro ids
  induction ids with
  | nil => exact fun s _ h => ⟨h, rfl, .refl _, fun _ _ => rfl, .refl s, by simp⟩
  | cons id ids ih =>
    intro s hnd h
    obtain ⟨hid, hnd⟩ := List.nodup_cons.mp hnd
    obtain ⟨g₁, g₂, g₃⟩ := reconcileCase_advances env now incidentId h hwf hw id
    obtain ⟨h₁, h₂, h₃, h₄, h₅, h₆⟩ := ih _ hnd g₁
    refine ⟨h₁, h₂.trans g₂.evidence, g₂.board.trans h₃, fun c hc => ?_, g₂.grows.trans h₅,
      fun w hw' hc => ?_⟩
    · simp only [List.mem_cons, not_or] at hc
      obtain ⟨hne, hni⟩ := hc
      exact (h₄ c hni).trans (g₂.others c hne)
    · rcases List.mem_cons.mp hc with heq | hin
      · -- the later turns leave the case of this turn alone
        obtain ⟨⟨y, hy, hlt⟩, hd⟩ := g₃ w hw' heq
        refine ⟨⟨y, ?_, hlt⟩, fun x₀ hx₀ => ?_⟩
        · rw [heq]
          exact (h₄ id hid).trans hy
        · exact h₃.disowns (g₁.wellFormed hwf) (hd x₀ (heq ▸ hx₀))
      · exact h₆ w hw' hin

theorem nodup_eraseDups (ids : List Id) : ids.eraseDups.Nodup := by
  induction hn : ids.length using Nat.strong_induction_on generalizing ids with
  | _ n ih =>
    cases ids with
    | nil => simp
    | cons a as =>
      rw [List.eraseDups_cons, List.nodup_cons]
      refine ⟨by simp, ih _ ?_ _ rfl⟩
      rw [← hn, List.length_cons]
      exact Nat.lt_succ_of_le (List.length_filter_le _ as)

theorem reconcileConflicts_advances {b s : Store} (h : b.Advances reopens s) (hwf : b.facts.WellFormed)
    (hw : WithdrawnFrom b.cases withdrawn) (ids : List Id) :
    let t := reconcileConflicts env now incidentId withdrawn s ids
    b.Advances reopens t ∧ t.evidence = s.evidence ∧ s.board.Reviewed t.board ∧ s.Grows t ∧
      ∀ w ∈ withdrawn, w.conflictId ∈ ids →
        (∃ y, t.cases.get w.conflictId = some y ∧ w.revision < y.revision) ∧
          ∀ x₀, b.cases.get w.conflictId = some x₀ →
            t.facts.Disowns x₀.incidentId x₀.factKey w.evidenceIds := by
  obtain ⟨h₁, h₂, h₃, -, h₅, h₆⟩ := reconcileCases_advances env now incidentId hwf hw ids.eraseDups s
    (nodup_eraseDups ids) h
  exact ⟨h₁, h₂, h₃, h₅, fun w hw' hc => h₆ w hw' (by simpa using hc)⟩

end Steps
end CrisisMosaic
