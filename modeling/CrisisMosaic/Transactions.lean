import CrisisMosaic.ConflictSteps
import CrisisMosaic.ReconcileSteps

/-!
# Whole transactions

`Works` is what every transaction but a decision and a requested analysis does to
the store it began with. It is put together from the two halves such a
transaction has: it rewrites a source and withdraws its evidence, then it
detects, appends and reconciles.
-/

namespace CrisisMosaic
open Relational

/-- What a request that adds evidence to a case outside a detection may do: cite these
fragments and supersede these rows. -/
structure Asked where
  cites : Id → Prop
  supersedes : ConflictEvidence → Prop

def Asked.nothing : Asked := ⟨fun _ => False, fun _ => False⟩

namespace Store

/-- Evidence cites no later version of a fragment than the present one, and evidence of the
present version is current unless the fragment is withdrawn. -/
def UpToDate (s : Store) : Prop :=
  ∀ i e, s.evidence.get i = some e → e.kind = .fragment →
    ∃ f, s.fragments.get e.sourceId = some f ∧ e.sourceRevision ≤ f.revision ∧
      (e.sourceRevision = f.revision → e.isCurrent = false → f.status = .withdrawn)

/-- The case is past the revision it had. -/
def Moved (b t : Store) (c : Id) : Prop :=
  ∀ x y, b.cases.get c = some x → t.cases.get c = some y → x.revision < y.revision

/-- No current fact rests on the row: its case was not resolved, or the fact disowns it. -/
def Released (b t : Store) (c i : Id) : Prop :=
  ∀ x, b.cases.get c = some x →
    x.status ≠ .resolved ∨ t.facts.Disowns x.incidentId x.factKey [i]

def IsPast (t : Store) (e : ConflictEvidence) : Prop :=
  e.kind = .fragment → ∀ f, t.fragments.get e.sourceId = some f →
    e.sourceRevision < f.revision ∨ f.status = .withdrawn

/-- Only a request that names its evidence itself cites a withdrawn fragment. -/
def IsCitable (t : Store) (asked : Asked) (e : ConflictEvidence) : Prop :=
  e.kind = .fragment → ∃ f, t.fragments.get e.sourceId = some f ∧
    e.sourceRevision ≤ f.revision ∧ (f.status = .withdrawn → asked.cites e.sourceId)

/-- What became of the row `i` of the evidence. -/
inductive RowStep (b t : Store) (asked : Asked) (i : Id) :
    Option ConflictEvidence → ConflictEvidence → Prop
  | kept (e) : RowStep b t asked i (some e) e
  | lost (e : ConflictEvidence) : e.isCurrent = true → b.Moved t e.conflictId →
      (asked.supersedes e ∨ b.Released t e.conflictId i) → t.IsPast e →
      RowStep b t asked i (some e) { e with isCurrent := false }
  | gained (e : ConflictEvidence) : e.isCurrent = false → b.Moved t e.conflictId →
      t.IsCitable asked e → RowStep b t asked i (some e) { e with isCurrent := true }
  | added (e : ConflictEvidence) : e.isCurrent = true → b.Moved t e.conflictId →
      t.IsCitable asked e → RowStep b t asked i none e

/-- What became of a fragment: only a resident's is withdrawn, and none comes back at the
revision it was withdrawn at. -/
def FragmentStep : Option InformationFragment → InformationFragment → Prop
  | none, g => g.status = .withdrawn → g.sourceType = .residentReport
  | some f, g => f.Follows g ∧
      (g.revision = f.revision → f.status = .withdrawn → g.status = .withdrawn) ∧
      (g.status = .withdrawn → f.status = .withdrawn ∨ g.sourceType = .residentReport)

theorem FragmentStep.refl (f : InformationFragment) : FragmentStep (some f) f :=
  ⟨.refl f, fun _ h => h, Or.inl⟩

theorem FragmentStep.calm {o : Option InformationFragment} {f g : InformationFragment}
    (h : FragmentStep o f) (k : InformationFragment.Calm (some f) g) : FragmentStep o g := by
  obtain ⟨hfg, hw⟩ := k
  cases o with
  | none => exact fun hg => hfg.sourceType.trans (h (hw.mp hg))
  | some e =>
    obtain ⟨hef, hrev, hres⟩ := h
    refine ⟨hef.trans hfg, fun hr he => hw.mpr (hrev ?_ he), fun hg => ?_⟩
    · have := hef.revision
      have := hfg.revision
      omega
    · exact (hres (hw.mp hg)).imp_right hfg.sourceType.trans

theorem FragmentStep.of_calm {o : Option InformationFragment} {g : InformationFragment}
    (h : InformationFragment.Calm o g) : FragmentStep o g := by
  cases o with
  | none => exact fun hg => absurd hg h.1
  | some f => exact (FragmentStep.refl f).calm h

structure Works (b : Store) (asked : Asked) (reopens : Id → Prop) (t : Store) :
    Prop where
  board : b.board.Reviewed t.board
  analyses : b.feed.AnalysesKept t.feed
  cases : b.cases.Evolves (ConflictCase.Tracks t.facts) t.cases
  left : ∀ c x y, b.cases.get c = some x → t.cases.get c = some y → x.status = .resolved →
    y.status = .resolved ∨ reopens c
  fragments : b.fragments.Evolves FragmentStep t.fragments
  evidence : ∀ i e, t.evidence.get i = some e → RowStep b t asked i (b.evidence.get i) e
  size : b.evidence.size ≤ t.evidence.size
  /-- A fragment that was just withdrawn is current evidence only where the request cites it. -/
  silent : ∀ i e f g, t.evidence.get i = some e → e.isCurrent = true → e.kind = .fragment →
    b.fragments.get e.sourceId = some f → t.fragments.get e.sourceId = some g →
    g.status = .withdrawn → f.status = .withdrawn ∨ asked.cites e.sourceId

/-- What holds of the store in every reachable state. -/
structure Sound (s : Store) : Prop where
  facts : s.facts.WellFormed
  upToDate : s.UpToDate
  withdrawn : ∀ k f, s.fragments.get k = some f → f.status = .withdrawn →
    f.sourceType = .residentReport

section Preservation
variable {b t : Store} {asked : Asked} {reopens : Id → Prop}

/-- The identity of a row never changes, and its source is at the revision it cites or later. -/
theorem Works.upToDate (h : b.Works asked reopens t) (hb : b.UpToDate) : t.UpToDate := by
  have hold : ∀ i e, b.evidence.get i = some e → e.kind = .fragment →
      ∃ f g, b.fragments.get e.sourceId = some f ∧ t.fragments.get e.sourceId = some g ∧
        FragmentStep (some f) g ∧ e.sourceRevision ≤ f.revision ∧
        (e.sourceRevision = f.revision → e.isCurrent = false → f.status = .withdrawn) := by
    intro i e he hk
    obtain ⟨f, hf, hle, hcur⟩ := hb i e he hk
    obtain ⟨g, hg, hfg⟩ := h.fragments.get_some hf
    exact ⟨f, g, hf, hg, hfg, hle, hcur⟩
  intro i e' he' hk
  have hrow := h.evidence i e' he'
  cases hb' : b.evidence.get i with
  | none =>
    rw [hb'] at hrow
    cases hrow with
    | added _ hcur _ hc =>
      obtain ⟨f, hf, hle, -⟩ := hc hk
      exact ⟨f, hf, hle, fun _ hno => absurd hcur (by simp [hno])⟩
  | some e =>
    rw [hb'] at hrow
    cases hrow with
    | kept =>
      obtain ⟨f, g, -, hg, hfg, hle, hcur⟩ := hold i _ hb' hk
      refine ⟨g, hg, hle.trans hfg.1.revision, fun hr hc => ?_⟩
      have := hfg.1.revision
      exact hfg.2.1 (by omega) (hcur (by omega) hc)
    | lost _ _ _ _ hpast =>
      obtain ⟨f, g, -, hg, hfg, hle, -⟩ := hold i _ hb' hk
      refine ⟨g, hg, hle.trans hfg.1.revision, fun hr _ => ?_⟩
      exact (hpast hk g hg).resolve_left (by simp only at hr; omega)
    | gained _ _ _ _ =>
      obtain ⟨f, g, -, hg, hfg, hle, -⟩ := hold i _ hb' hk
      exact ⟨g, hg, hle.trans hfg.1.revision, fun _ hc => nomatch hc⟩

theorem withdrawn_resident {x y : Table InformationFragment} (h : x.Evolves FragmentStep y)
    (hx : ∀ k f, x.get k = some f → f.status = .withdrawn → f.sourceType = .residentReport) :
    ∀ k g, y.get k = some g → g.status = .withdrawn → g.sourceType = .residentReport := by
  intro k g hg hw
  have hstep := h.rows k g hg
  cases hf : x.get k with
  | none =>
    rw [hf] at hstep
    exact hstep hw
  | some f =>
    rw [hf] at hstep
    obtain ⟨hfg, -, hres⟩ := hstep
    rcases hres hw with hold | hnew
    · exact hfg.sourceType.trans (hx k f hf hold)
    · exact hnew

theorem Works.sound (h : b.Works asked reopens t) (hb : b.Sound) : t.Sound where
  facts := h.board.wellFormed hb.facts
  upToDate := h.upToDate hb.upToDate
  withdrawn := withdrawn_resident h.fragments hb.withdrawn

/-- Two states of one case at one revision have the same current evidence. -/
def SameEvidence (b t : Store) (c : Id) : Prop :=
  ∀ x y, b.cases.get c = some x → t.cases.get c = some y → y.revision = x.revision →
    ∀ i, i ∈ currentEvidence t.evidence c ↔ i ∈ currentEvidence b.evidence c

theorem Works.sameEvidence (h : b.Works asked reopens t) (c : Id) : b.SameEvidence t c := by
  intro x y hx hy hr i
  have hstill : ¬ b.Moved t c := fun hm => absurd (hm x y hx hy) (by omega)
  simp only [mem_currentEvidence]
  constructor
  · rintro ⟨e', he', hc, hcur⟩
    have hrow := h.evidence i e' he'
    cases hb : b.evidence.get i with
    | none =>
      rw [hb] at hrow
      cases hrow with
      | added _ _ hm _ => exact absurd (hc ▸ hm) hstill
    | some e =>
      rw [hb] at hrow
      cases hrow with
      | kept => exact ⟨_, rfl, hc, hcur⟩
      | lost _ _ _ _ _ => exact nomatch hcur
      | gained _ _ hm _ => exact absurd (hc ▸ hm) hstill
  · rintro ⟨e, he, hc, hcur⟩
    obtain ⟨e', he'⟩ := Table.get_of_lt ((Table.lt_size he).trans_le h.size)
    have hrow := h.evidence i e' he'
    rw [he] at hrow
    cases hrow with
    | kept => exact ⟨_, he', hc, hcur⟩
    | lost _ _ hm _ _ => exact absurd (hc ▸ hm) hstill
    | gained _ hno _ _ => exact absurd hcur (by simp [hno])

end Preservation

section Phases
variable {b m s t : Store} {asked : Asked} {reopens : Id → Prop}

/-- The first half of a transaction: sources are rewritten, and the evidence of the fragment
`gone` is withdrawn. -/
structure Rewrites (b : Store) (gone : Option Id) (m : Store) : Prop where
  features : FactSilent b.features m.features
  analyses : b.feed.AnalysesKept m.feed
  cases : m.cases = b.cases
  facts : m.facts = b.facts
  fragments : b.fragments.Evolves FragmentStep m.fragments
  evidence : m.evidence = gone.elim b.evidence (invalidateFragmentEvidence b.evidence)
  past : ∀ k f g, gone = some k → b.fragments.get k = some f → m.fragments.get k = some g →
    f.revision < g.revision ∨ g.status = .withdrawn
  withdrew : ∀ k f g, b.fragments.get k = some f → m.fragments.get k = some g →
    g.status = .withdrawn → f.status = .withdrawn ∨ gone = some k

/-- The second half, which starts from the rewritten store and answers for what was withdrawn. -/
structure Settles (b : Store) (gone : Option Id) (m : Store) (asked : Asked)
    (reopens : Id → Prop) (t : Store) : Prop where
  advances : m.Advances reopens t
  evidence : ∀ i e, t.evidence.get i = some e → RowStep m t asked i (m.evidence.get i) e
  size : m.evidence.size ≤ t.evidence.size
  handled : ∀ k, gone = some k → ∀ w ∈ withdrawals b.cases b.evidence k,
    (∃ y, t.cases.get w.conflictId = some y ∧ w.revision < y.revision) ∧
      ∀ x, b.cases.get w.conflictId = some x →
        t.facts.Disowns x.incidentId x.factKey w.evidenceIds

theorem Rewrites.refl (s : Store) : s.Rewrites none s where
  features := .refl _
  analyses := .refl _
  cases := rfl
  facts := rfl
  fragments := .refl FragmentStep.refl _
  evidence := rfl
  past := fun _ _ _ h => nomatch h
  withdrew := fun _ _ _ hf hg hw => Or.inl (Option.some.inj (hf.symm.trans hg) ▸ hw)

theorem Settles.refl (m : Store) (asked : Asked) (reopens : Id → Prop) :
    b.Settles none m asked reopens m where
  advances := .refl reopens m
  evidence := fun _ e he => he ▸ .kept e
  size := le_rfl
  handled := fun _ h => nomatch h

theorem Rewrites.size {gone : Option Id} (h : b.Rewrites gone m) :
    m.evidence.size = b.evidence.size := by
  rw [h.evidence]
  cases gone with
  | none => rfl
  | some k => exact Table.size_sweep _ _

theorem Rewrites.quiet {gone : Option Id} (h : b.Rewrites gone m) (k : m.Quiet s) :
    b.Rewrites gone s where
  features := h.features.trans k.features
  analyses := h.analyses.trans k.analyses
  cases := k.cases.trans h.cases
  facts := k.facts.trans h.facts
  fragments := k.fragments ▸ h.fragments
  evidence := k.evidence.trans h.evidence
  past := k.fragments ▸ h.past
  withdrew := k.fragments ▸ h.withdrew

/-- A row of the rewritten store: the old one, or a withdrawn one. -/
theorem Rewrites.row {gone : Option Id} (h : b.Rewrites gone m) {i : Id} {e : ConflictEvidence}
    (he : m.evidence.get i = some e) :
    b.evidence.get i = some e ∨ ∃ k d, gone = some k ∧ b.evidence.get i = some d ∧
      isFragmentEvidence k d = true ∧ e = { d with isCurrent := false } := by
  rw [h.evidence] at he
  cases gone with
  | none => exact Or.inl he
  | some k =>
    obtain ⟨d, hd, ⟨hf, rfl⟩ | ⟨-, rfl⟩⟩ := get_invalidateFragmentEvidence he
    · exact Or.inr ⟨k, d, rfl, hd, hf, rfl⟩
    · exact Or.inl hd

theorem Rewrites.upToDate {gone : Option Id} (h : b.Rewrites gone m) (hb : b.UpToDate) :
    m.UpToDate := by
  intro i e he hk
  rcases h.row he with hd | ⟨k, d, rfl, hd, hf, rfl⟩
  · obtain ⟨f, hf, hle, hcur⟩ := hb i e hd hk
    obtain ⟨g, hg, hfg, hwd, -⟩ := h.fragments.get_some hf
    have := hfg.revision
    exact ⟨g, hg, by omega, fun hr hc => hwd (by omega) (hcur (by omega) hc)⟩
  · obtain ⟨-, hsrc, -⟩ := isFragmentEvidence_iff.mp hf
    obtain ⟨f, hf, hle, -⟩ := hb i d hd hk
    obtain ⟨g, hg, hfg, -⟩ := h.fragments.get_some hf
    refine ⟨g, hg, hle.trans hfg.revision, fun hr _ => ?_⟩
    have hlate := h.past k f g rfl (hsrc ▸ hf) (hsrc ▸ hg)
    exact hlate.resolve_left (by simp only at hr; omega)

theorem Rewrites.sound {gone : Option Id} (h : b.Rewrites gone m) (hb : b.Sound) : m.Sound where
  facts := h.facts ▸ hb.facts
  upToDate := h.upToDate hb.upToDate
  withdrawn := withdrawn_resident h.fragments hb.withdrawn

theorem RowStep.quiet (k : s.Quiet t) {i : Id} {o : Option ConflictEvidence} {e : ConflictEvidence}
    (h : RowStep m s asked i o e) : RowStep m t asked i o e := by
  have hmoved : ∀ c, m.Moved s c → m.Moved t c := fun c h x y hx hy => h x y hx (k.cases ▸ hy)
  have hreleased : ∀ c i, m.Released s c i → m.Released t c i := by
    intro c i h
    unfold Released
    rwa [k.facts]
  cases h with
  | kept => exact .kept e
  | lost e h₁ h₂ h₃ h₄ =>
    refine .lost e h₁ (hmoved _ h₂) (h₃.imp_right (hreleased _ _)) ?_
    unfold IsPast
    rwa [k.fragments]
  | gained e h₁ h₂ h₃ =>
    refine .gained e h₁ (hmoved _ h₂) ?_
    unfold IsCitable
    rwa [k.fragments]
  | added _ h₁ h₂ h₃ =>
    refine .added _ h₁ (hmoved _ h₂) ?_
    unfold IsCitable
    rwa [k.fragments]

theorem Settles.quiet {gone : Option Id} (h : b.Settles gone m asked reopens s) (k : s.Quiet t) :
    b.Settles gone m asked reopens t where
  advances := h.advances.quiet k
  evidence := fun i e he => (h.evidence i e (k.evidence ▸ he)).quiet k
  size := by
    rw [k.evidence]
    exact h.size
  handled := by
    rw [k.cases, k.facts]
    exact h.handled

/-- Fragments that are only rewritten calmly do not change what became of the evidence. -/
theorem Settles.setFragments {gone : Option Id} (h : b.Settles gone m asked reopens s)
    {fragments : Table InformationFragment} (hf : CalmFragments s.fragments fragments)
    (hsize : fragments.size = s.fragments.size) :
    b.Settles gone m asked reopens { s with fragments := fragments } where
  advances := h.advances.setFragments hf
  evidence := by
    have hold : ∀ k g, fragments.get k = some g → ∃ f, s.fragments.get k = some f ∧
        f.Follows g ∧ (g.status = .withdrawn ↔ f.status = .withdrawn) := by
      intro k g hg
      obtain ⟨f, hf'⟩ := Table.get_of_lt (hsize ▸ Table.lt_size hg : k < s.fragments.size)
      have := hf.rows k g hg
      rw [hf'] at this
      exact ⟨f, hf', this⟩
    intro i e he
    have hrow := h.evidence i e he
    generalize m.evidence.get i = o at hrow ⊢
    have hcitable : ∀ d, s.IsCitable asked d → IsCitable { s with fragments := fragments } asked d := by
      intro d hd hk
      obtain ⟨f, hf₀, hle, hw⟩ := hd hk
      obtain ⟨g, hg, hfg, hwd⟩ := hf.get_some hf₀
      exact ⟨g, hg, hle.trans hfg.revision, fun h => hw (hwd.mp h)⟩
    cases hrow with
    | kept => exact .kept e
    | lost d h₁ h₂ h₃ h₄ =>
      refine .lost d h₁ h₂ h₃ fun hk g hg => ?_
      obtain ⟨f, hf₀, hfg, hwd⟩ := hold _ g hg
      exact (h₄ hk f hf₀).imp (fun hlt => hlt.trans_le hfg.revision) hwd.mpr
    | gained d h₁ h₂ h₃ => exact .gained d h₁ h₂ (hcitable d h₃)
    | added _ h₁ h₂ h₃ => exact .added _ h₁ h₂ (hcitable _ h₃)
  size := h.size
  handled := h.handled

theorem RowStep.rebase (hc : m.cases = b.cases) {i : Id} {o : Option ConflictEvidence}
    {e : ConflictEvidence} (h : RowStep m t asked i o e) : RowStep b t asked i o e := by
  have hm : ∀ c, m.Moved t c → b.Moved t c := fun c h x y hx => h x y (hc ▸ hx)
  cases h with
  | kept => exact .kept e
  | lost e h₁ h₂ h₃ h₄ =>
    exact .lost e h₁ (hm _ h₂) (h₃.imp_right fun h x hx => h x (hc ▸ hx)) h₄
  | gained e h₁ h₂ h₃ => exact .gained e h₁ (hm _ h₂) h₃
  | added _ h₁ h₂ h₃ => exact .added _ h₁ (hm _ h₂) h₃

/-- The two halves of a transaction. -/
theorem Rewrites.works {gone : Option Id} (h : b.Rewrites gone m) (hb : b.UpToDate)
    (k : b.Settles gone m asked reopens t) : b.Works asked reopens t where
  board := by
    have hbm : b.board.Reviewed m.board := by
      have hm : m.board = ({ b.board with features := m.features } : FactBoard) :=
        congrArg (fun facts => (⟨facts, m.features⟩ : FactBoard)) h.facts
      rw [hm]
      exact .silent (.refl _) h.features
    exact hbm.trans k.advances.board
  analyses := h.analyses.trans k.advances.analyses
  cases := h.cases ▸ k.advances.cases
  left := h.cases ▸ k.advances.left
  fragments := by
    refine ⟨fun j g hg => ?_, h.fragments.size.trans k.advances.fragments.size⟩
    have hcalm := k.advances.fragments.rows j g hg
    cases hf : m.fragments.get j with
    | none =>
      have hnone : b.fragments.get j = none := by
        by_contra hne
        obtain ⟨f, hf'⟩ := Option.ne_none_iff_exists'.mp hne
        obtain ⟨f', hf', -⟩ := h.fragments.get_some hf'
        simp [hf] at hf'
      rw [hnone]
      exact .of_calm (hf ▸ hcalm)
    | some f => exact (h.fragments.rows j f hf).calm (hf ▸ hcalm)
  evidence := by
    intro i e' he'
    have hrow := k.evidence i e' he'
    cases hm : m.evidence.get i with
    | none =>
      have hnone : b.evidence.get i = none := by
        by_contra hne
        obtain ⟨d, hd⟩ := Option.ne_none_iff_exists'.mp hne
        obtain ⟨e, he⟩ := Table.get_of_lt (h.size ▸ Table.lt_size hd : i < m.evidence.size)
        simp [hm] at he
      rw [hnone]
      exact (hm ▸ hrow).rebase h.cases
    | some e =>
      rw [hm] at hrow
      rcases h.row hm with hd | ⟨f, d, rfl, hd, hf, rfl⟩
      · rw [hd]
        exact hrow.rebase h.cases
      · rw [hd]
        obtain ⟨hkind, hsrc, hcur⟩ := isFragmentEvidence_iff.mp hf
        cases hrow with
        | kept =>
          refine .lost d hcur (fun x y hx hy => ?_) (Or.inr fun x hx => Or.inr ?_) ?_
          · obtain ⟨w, hw, hwc, -⟩ := withdrawn_listed hd hf rfl hx
            obtain ⟨⟨y', hy', hlt⟩, -⟩ := k.handled f rfl w hw
            obtain ⟨x', hx', hr, -⟩ := mem_withdrawals.mp hw
            obtain rfl : x' = x := Option.some.inj (hx'.symm.trans (hwc ▸ hx))
            obtain rfl : y' = y := Option.some.inj (hy'.symm.trans (hwc ▸ hy))
            exact hr ▸ hlt
          · obtain ⟨w, hw, hwc, hi⟩ := withdrawn_listed hd hf rfl hx
            obtain ⟨-, hdis⟩ := k.handled f rfl w hw
            intro fid r v hr hi' hk' hs hv a ha hmem
            refine hdis x (hwc ▸ hx) fid r v hr hi' hk' hs hv a ha ?_
            rw [List.mem_singleton] at hmem
            exact hmem ▸ hi
          · intro _ g hg
            obtain ⟨f₀, hf₀, hle, -⟩ := hb i d hd hkind
            obtain ⟨f₁, hf₁, -⟩ := h.fragments.get_some hf₀
            obtain ⟨g', hg', hcalm, hwd⟩ := k.advances.fragments.get_some hf₁
            obtain rfl : g' = g := Option.some.inj (hg'.symm.trans hg)
            have hrev := hcalm.revision
            refine (h.past f f₀ f₁ rfl (hsrc ▸ hf₀) (hsrc ▸ hf₁)).imp (fun hlt => ?_) hwd.mpr
            omega
        | lost _ hno _ _ _ => exact nomatch hno
        | gained _ _ _ _ =>
          have hsame : ({ { d with isCurrent := false } with isCurrent := true } : ConflictEvidence) = d := by
            cases d
            simp_all
          rw [hsame]
          exact .kept d
  size := h.size ▸ k.size
  silent := by
    intro i e f g he hcur hk hf hg hw
    obtain ⟨f', hf', -⟩ := h.fragments.get_some hf
    obtain ⟨g', hg', -, hcalm⟩ := k.advances.fragments.get_some hf'
    obtain rfl : g' = g := Option.some.inj (hg'.symm.trans hg)
    refine (h.withdrew _ f f' hf hf' (hcalm.mp hw)).imp_right ?_
    rintro rfl
    -- the rewriting withdrew the row, so it is current because it was cited again
    have hcites : t.IsCitable asked e → asked.cites e.sourceId := by
      intro hc
      obtain ⟨g'', hg'', -, hasked⟩ := hc hk
      exact hasked (Option.some.inj (hg''.symm.trans hg) ▸ hw)
    have hrow := k.evidence i e he
    generalize hm : m.evidence.get i = o at hrow
    cases hrow with
    | kept =>
      rw [h.evidence] at hm
      obtain ⟨d, -, ⟨-, rfl⟩ | ⟨hno, rfl⟩⟩ := get_invalidateFragmentEvidence hm
      · exact nomatch hcur
      · exact absurd (isFragmentEvidence_iff.mpr ⟨hk, rfl, hcur⟩) (by simp [hno])
    | lost _ _ _ _ _ => exact nomatch hcur
    | gained d _ _ hc => exact hcites fun _ => hc hk
    | added _ _ _ hc => exact hcites hc

theorem Works.refl (hs : s.Sound) (asked : Asked) (reopens : Id → Prop) :
    s.Works asked reopens s :=
  (Rewrites.refl s).works hs.upToDate (.refl s asked reopens)

theorem Quiet.works (k : s.Quiet t) (hs : s.Sound) (asked : Asked) (reopens : Id → Prop) :
    s.Works asked reopens t :=
  (Rewrites.refl s).works hs.upToDate ((Settles.refl s asked reopens).quiet k)

theorem Quiet.sound (k : s.Quiet t) (hs : s.Sound) : t.Sound :=
  (k.works hs .nothing fun _ => False).sound hs

theorem Quiet.thenWorks (k : b.Quiet s) (h : s.Works asked reopens t) : b.Works asked reopens t where
  board := (k.advances reopens).board.trans h.board
  analyses := k.analyses.trans h.analyses
  cases := k.cases ▸ h.cases
  left := k.cases ▸ h.left
  fragments := k.fragments ▸ h.fragments
  evidence := fun i e he => (k.evidence ▸ h.evidence i e he).rebase k.cases
  size := k.evidence ▸ h.size
  silent := k.fragments ▸ h.silent

theorem Works.quiet (h : b.Works asked reopens s) (k : s.Quiet t) : b.Works asked reopens t where
  board := h.board.trans (k.advances reopens).board
  analyses := h.analyses.trans k.analyses
  cases := by
    rw [k.cases, k.facts]
    exact h.cases
  left := by
    rw [k.cases]
    exact h.left
  fragments := by
    rw [k.fragments]
    exact h.fragments
  evidence := fun i e he => (h.evidence i e (k.evidence ▸ he)).quiet k
  size := by
    rw [k.evidence]
    exact h.size
  silent := by
    rw [k.evidence, k.fragments]
    exact h.silent

end Phases
section Additions
variable {s t u : Store} {sources : Sources} {cited : EvidenceKind → Id → Prop} {c i : Id}
  {asked : Asked}

/-- One row under an addition to the case `c`, which moved. -/
theorem RowStep.of_change (hup : s.UpToDate) (hfr : CalmFragments s.fragments t.fragments)
    (hmoved : s.Moved t c)
    (hlost : ∀ e, s.evidence.get i = some e → e.conflictId = c → cited e.kind e.sourceId →
      sourceRevision sources s.fragments e.kind e.sourceId ≠ some e.sourceRevision →
      asked.supersedes e ∨ s.Released t c i)
    (hcited : ∀ k f, cited .fragment k → s.fragments.get k = some f → f.status = .withdrawn →
      asked.cites k)
    {e' : ConflictEvidence}
    (h : EvidenceChange (sourceRevision sources s.fragments) cited c (s.evidence.get i) e') :
    RowStep s t asked i (s.evidence.get i) e' := by
  have hcitable : ∀ e : ConflictEvidence, cited e.kind e.sourceId →
      sourceRevision sources s.fragments e.kind e.sourceId = some e.sourceRevision →
      t.IsCitable asked e := by
    intro e hce hr hk
    rw [hk] at hr
    obtain ⟨f, hf, hrev⟩ := Option.map_eq_some_iff.mp hr
    obtain ⟨g, hg, hfg, hw⟩ := hfr.get_some hf
    exact ⟨g, hg, hrev ▸ hfg.revision, fun hwd => hcited _ f (hk ▸ hce) hf (hw.mp hwd)⟩
  generalize ho : s.evidence.get i = o at h ⊢
  cases h with
  | same => exact .kept e'
  | revived e hc hce hr =>
    cases hcur : e.isCurrent with
    | true =>
      have hsame : { e with isCurrent := true } = e := by rw [← hcur]
      rw [hsame]
      exact .kept e
    | false => exact .gained e hcur (hc ▸ hmoved) (hcitable e hce hr)
  | superseded e hc hce hcur hr =>
    refine .lost e hcur (hc ▸ hmoved) (hc ▸ hlost e ho hc hce hr) fun hk f hf => Or.inl ?_
    obtain ⟨f₀, hf₀, hle, -⟩ := hup i e ho hk
    obtain ⟨g, hg, hfg, -⟩ := hfr.get_some hf₀
    obtain rfl : g = f := Option.some.inj (hg.symm.trans hf)
    have hne : f₀.revision ≠ e.sourceRevision := by
      simpa [hk, sourceRevision, hf₀] using hr
    have := hfg.revision
    omega
  | added _ hc hce hcur hr => exact .added e' hcur (hc ▸ hmoved) (hcitable e' hce hr)

theorem rows_of_append (hup : s.UpToDate) (hfr : CalmFragments s.fragments t.fragments)
    (hmoved : s.Moved t c)
    (hadd : EvidenceAdded (sourceRevision sources s.fragments) cited c s.evidence t.evidence)
    (hlost : ∀ i e, s.evidence.get i = some e → e.conflictId = c → cited e.kind e.sourceId →
      sourceRevision sources s.fragments e.kind e.sourceId ≠ some e.sourceRevision →
      asked.supersedes e)
    (hcited : ∀ k f, cited .fragment k → s.fragments.get k = some f → f.status = .withdrawn →
      asked.cites k) :
    ∀ i e, t.evidence.get i = some e → RowStep s t asked i (s.evidence.get i) e :=
  fun i e' he' => .of_change hup hfr hmoved (fun e he hc hce hr => Or.inl (hlost i e he hc hce hr)) hcited
    (hadd.rows i e' he')

/-- A detection and what follows it: publication and reconciliation. -/
theorem rows_of_call {ids : List Id} {opened : Bool} (hup : s.UpToDate)
    (hids : ∀ k ∈ ids, ∀ f, s.fragments.get k = some f → f.status ≠ .withdrawn)
    (h : CallStep sources s u ids c opened) (hev : t.evidence = u.evidence)
    (hboard : u.board.Reviewed t.board) (hgrows : u.Grows t)
    (hcalm : CalmFragments s.fragments t.fragments) :
    ∀ i e, t.evidence.get i = some e → RowStep s t asked i (s.evidence.get i) e := by
  have hmove : ∀ {x y : ConflictCase}, s.cases.get c = some x → u.cases.get c = some y →
      x.revision < y.revision → s.Moved t c := by
    intro x y hx hy hlt x' z hx' hz
    obtain rfl : x = x' := Option.some.inj (hx.symm.trans hx')
    obtain ⟨z', hz', hle⟩ := hgrows c y hy
    obtain rfl : z' = z := Option.some.inj (hz'.symm.trans hz)
    exact hlt.trans_le hle
  have hrows : s.Moved t c → (∀ i, s.Released t c i) →
      ∀ i e, t.evidence.get i = some e → RowStep s t asked i (s.evidence.get i) e := by
    intro hm hr i e he
    rw [hev] at he
    exact .of_change hup hcalm hm (fun _ _ _ _ _ => Or.inr (hr i))
      (fun k f hce hf hw => absurd hw (hids k hce.2 f hf)) (h.added.rows i e he)
  cases h.case with
  | fresh hnone =>
    exact hrows (fun x _ hx => by simp [hnone] at hx) fun _ x hx => by simp [hnone] at hx
  | reopened hx _ hy hunder =>
    refine hrows (hmove hx hy (Nat.lt_succ_self _)) fun i x' hx' => Or.inr ?_
    obtain rfl := Option.some.inj (hx.symm.trans hx')
    exact (hboard.underReview hunder).disowns [i]
  | extended hx hne hy =>
    refine hrows (hmove hx hy (Nat.lt_succ_self _)) fun i x' hx' => Or.inl ?_
    obtain rfl := Option.some.inj (hx.symm.trans hx')
    exact hne
  | repeated _ _ _ hsame =>
    intro i e' he'
    rw [hev] at he'
    obtain ⟨e, he, rfl | ⟨rfl, hk, hmem, hrev⟩⟩ := hsame i e' he'
    · rw [he]
      exact .kept e'
    · rw [he]
      -- a row of the present version of a fragment in use is current already
      have hcur : e.isCurrent = true := by
        by_contra hno
        obtain ⟨f, hf, -, hw⟩ := hup i e he hk
        rw [hf] at hrev
        exact hids _ hmem f hf (hw (Option.some.inj hrev).symm (by simpa using hno))
      have heq : { e with isCurrent := true } = e := by rw [← hcur]
      rw [heq]
      exact .kept e

end Additions

end Store
end CrisisMosaic
