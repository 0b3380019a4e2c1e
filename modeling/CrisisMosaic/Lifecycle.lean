import CrisisMosaic.Conflicts

/-!
# Steps of a store

Two relations between the store a transaction started from and the one it has
reached. `Quiet` touches only the projection and the feed. `Advances` is what
every transaction but a decision and a requested analysis does: facts only move
to review, a case leaves `resolved` only by reopening and enters it only at a new
revision, and no fragment changes its source or is withdrawn or restored.
-/

namespace CrisisMosaic
open Relational

namespace ConflictCase

def Consistent (x : ConflictCase) : Prop := x.status = .resolved ↔ x.resolvedAt.isSome = true

structure LeftResolved (x y : ConflictCase) : Prop where
  status : y.status = .reopened
  revision : y.revision = x.revision + 1
  resolvedAt : y.resolvedAt = none
  resolution : y.resolution = none
  resolvedBy : y.resolvedBy = none

structure Progress (facts : Facts) (x y : ConflictCase) : Prop where
  incident : y.incidentId = x.incidentId
  factKey : y.factKey = x.factKey
  revision : x.revision ≤ y.revision
  consistent : x.Consistent → y.Consistent
  left : x.status = .resolved → y.status ≠ .resolved →
    x.LeftResolved y ∧ facts.UnderReview x.incidentId x.factKey
  entered : x.status ≠ .resolved → y.status = .resolved → x.revision < y.revision

/-- The row a case had at the start, if it had one, and its row now. -/
def Tracks (facts : Facts) : Option ConflictCase → ConflictCase → Prop
  | none, y => y.Consistent
  | some x, y => x.Progress facts y

theorem Progress.refl (facts : Facts) (x : ConflictCase) : x.Progress facts x where
  incident := rfl
  factKey := rfl
  revision := le_rfl
  consistent := id
  left := fun h h' => absurd h h'
  entered := fun h h' => absurd h' h

section Steps
variable {facts facts' : Facts} {x y : ConflictCase}

theorem Progress.mono (h : x.Progress facts y)
    (hf : ∀ i k, facts.UnderReview i k → facts'.UnderReview i k) : x.Progress facts' y :=
  { h with left := fun hx hy => (h.left hx hy).imp_right (hf _ _) }

theorem Tracks.mono {o : Option ConflictCase} (h : Tracks facts o y)
    (hf : ∀ i k, facts.UnderReview i k → facts'.UnderReview i k) : Tracks facts' o y := by
  cases o with
  | none => exact h
  | some x => exact Progress.mono h hf

/-- A row still at its first revision has neither left nor entered `resolved`. -/
theorem Progress.status_iff (h : x.Progress facts y) (hr : y.revision = x.revision) :
    y.status = .resolved ↔ x.status = .resolved := by
  constructor
  · intro hy
    by_contra hx
    have := h.entered hx hy
    omega
  · intro hx
    by_contra hy
    have := (h.left hx hy).1.revision
    omega

theorem Progress.bump (h : x.Progress facts y) (hr : y.revision = x.revision) :
    x.Progress facts (bumpRevision y) := by
  have hs := h.status_iff hr
  exact
    { incident := h.incident
      factKey := h.factKey
      revision := h.revision.trans (Nat.le_succ _)
      consistent := h.consistent
      left := fun hx hy => absurd (hs.mpr hx) hy
      entered := fun hx hy => absurd (hs.mp hy) hx }

theorem resolveCase_consistent (now : Time) (y : ConflictCase) (by_ : Option Id) (resolution : Dict)
    (bump : Bool) : (resolveCase now y by_ resolution bump).Consistent := by
  simp [Consistent, resolveCase]

theorem resolveCase_revision_le (now : Time) (y : ConflictCase) (by_ : Option Id)
    (resolution : Dict) (bump : Bool) :
    y.revision ≤ (resolveCase now y by_ resolution bump).revision := by
  simp only [resolveCase]
  split_ifs <;> omega

theorem Progress.resolve (h : x.Progress facts y) (now : Time) (by_ : Option Id)
    (resolution : Dict) (bump : Bool) (hlt : x.revision < (resolveCase now y by_ resolution bump).revision) :
    x.Progress facts (resolveCase now y by_ resolution bump) where
  incident := h.incident
  factKey := h.factKey
  revision := hlt.le
  consistent := fun _ => resolveCase_consistent now y by_ resolution bump
  left := fun _ hy => absurd rfl hy
  entered := fun _ _ => hlt

theorem reopen_progress (hx : x.status = .resolved)
    (hu : facts.UnderReview x.incidentId x.factKey) : x.Progress facts (reopen x) where
  incident := rfl
  factKey := rfl
  revision := Nat.le_succ _
  consistent := fun _ => by simp [Consistent, reopen]
  left := fun _ _ => ⟨⟨rfl, rfl, rfl, rfl, rfl⟩, hu⟩
  entered := fun h => absurd hx h

end Steps
end ConflictCase

namespace InformationFragment

/-- Same source, no earlier revision. -/
structure Follows (f g : InformationFragment) : Prop where
  incident : g.incidentId = f.incidentId
  sourceType : g.sourceType = f.sourceType
  sourceRef : g.sourceRefId = f.sourceRefId
  revision : f.revision ≤ g.revision

/-- A step that neither withdraws nor restores a fragment; a new one is no resident's. -/
def Calm : Option InformationFragment → InformationFragment → Prop
  | none, g => g.status ≠ .withdrawn ∧ g.sourceType ≠ .residentReport
  | some f, g => f.Follows g ∧ (g.status = .withdrawn ↔ f.status = .withdrawn)

theorem Follows.refl (f : InformationFragment) : f.Follows f := ⟨rfl, rfl, rfl, le_rfl⟩

theorem Follows.trans {f g h : InformationFragment} (a : f.Follows g) (b : g.Follows h) :
    f.Follows h :=
  ⟨b.incident.trans a.incident, b.sourceType.trans a.sourceType, b.sourceRef.trans a.sourceRef,
    a.revision.trans b.revision⟩

theorem Calm.refl (f : InformationFragment) : Calm (some f) f := ⟨.refl f, Iff.rfl⟩

theorem Calm.trans {o : Option InformationFragment} {f g : InformationFragment} (a : Calm o f)
    (b : Calm (some f) g) : Calm o g := by
  cases o with
  | none => exact ⟨fun h => a.1 (b.2.mp h), b.1.sourceType ▸ a.2⟩
  | some e => exact ⟨a.1.trans b.1, b.2.trans a.2⟩

end InformationFragment

/-- Every fragment is a calm successor of what it was. -/
abbrev CalmFragments : Table InformationFragment → Table InformationFragment → Prop :=
  Table.Evolves InformationFragment.Calm

namespace Store

structure Quiet (b s : Store) : Prop where
  features : FactSilent b.features s.features
  analyses : b.feed.AnalysesKept s.feed
  fragments : s.fragments = b.fragments
  cases : s.cases = b.cases
  evidence : s.evidence = b.evidence
  facts : s.facts = b.facts

theorem Quiet.refl (s : Store) : s.Quiet s := ⟨.refl _, .refl _, rfl, rfl, rfl, rfl⟩

theorem Quiet.trans {a b c : Store} (h : a.Quiet b) (k : b.Quiet c) : a.Quiet c :=
  ⟨h.features.trans k.features, h.analyses.trans k.analyses, k.fragments.trans h.fragments,
    k.cases.trans h.cases, k.evidence.trans h.evidence, k.facts.trans h.facts⟩

theorem emit_quiet (s : Store) (now : Time) (incidentId : Id) (e : Event) :
    s.Quiet (s.emit now incidentId e) :=
  ⟨.refl _, Feed.emitEvent_analysesKept _ now incidentId e, rfl, rfl, rfl, rfl⟩

theorem features_quiet (s : Store) {features : Table MapFeature}
    (h : FactSilent s.features features) : s.Quiet { s with features := features } :=
  ⟨h, .refl _, rfl, rfl, rfl, rfl⟩

theorem stale_quiet (s : Store) (now : Time) (conflictId incidentId : Id) (reason : String) :
    s.Quiet { s with feed := s.feed.markAnalysesStale now conflictId incidentId reason } :=
  ⟨.refl _, Feed.markAnalysesStale_analysesKept _ now conflictId incidentId reason, rfl, rfl, rfl, rfl⟩

/-- `reopens` are the cases the transaction may have reopened. -/
structure Advances (b : Store) (reopens : Id → Prop) (s : Store) : Prop where
  board : b.board.Reviewed s.board
  analyses : b.feed.AnalysesKept s.feed
  cases : b.cases.Evolves (ConflictCase.Tracks s.facts) s.cases
  left : ∀ c x y, b.cases.get c = some x → s.cases.get c = some y → x.status = .resolved →
    y.status = .resolved ∨ reopens c
  fragments : CalmFragments b.fragments s.fragments

section Advance
variable {b s t : Store} {reopens : Id → Prop}

theorem Advances.refl (reopens : Id → Prop) (s : Store) : s.Advances reopens s where
  board := .refl _
  analyses := .refl _
  cases := .refl (ConflictCase.Progress.refl s.facts) _
  left := fun _ _ _ hx hy h => Or.inl (Option.some.inj (hx.symm.trans hy) ▸ h)
  fragments := .refl .refl _

theorem Advances.mono (h : b.Advances reopens s) {reopens' : Id → Prop}
    (hr : ∀ c, reopens c → reopens' c) : b.Advances reopens' s :=
  { h with left := fun c x y hx hy hs => (h.left c x y hx hy hs).imp_right (hr c) }

theorem Advances.wellFormed (h : b.Advances reopens s) (hwf : b.facts.WellFormed) :
    s.facts.WellFormed :=
  h.board.wellFormed hwf

theorem Advances.quiet (h : b.Advances reopens s) (k : s.Quiet t) : b.Advances reopens t where
  board := by
    have hb := FactBoard.Reviewed.silent h.board k.features
    have ht : t.board = ({ s.board with features := t.features } : FactBoard) :=
      congrArg (fun facts => (⟨facts, t.features⟩ : FactBoard)) k.facts
    rwa [ht]
  analyses := h.analyses.trans k.analyses
  cases := by
    rw [k.cases, k.facts]
    exact h.cases
  left := by
    rw [k.cases]
    exact h.left
  fragments := by
    rw [k.fragments]
    exact h.fragments

theorem Quiet.advances (h : b.Quiet s) (reopens : Id → Prop) : b.Advances reopens s :=
  (Advances.refl reopens b).quiet h

/-- The quiet steps before an advance belong to it. -/
theorem Quiet.then (h : b.Quiet s) (k : s.Advances reopens t) : b.Advances reopens t where
  board := (h.advances reopens).board.trans k.board
  analyses := h.analyses.trans k.analyses
  cases := h.cases ▸ k.cases
  left := h.cases ▸ k.left
  fragments := h.fragments ▸ k.fragments

/-- A change of the facts that only reviews. -/
theorem Advances.review (h : b.Advances reopens s) {board : FactBoard}
    (hb : s.board.Reviewed board) : b.Advances reopens (s.withBoard board) where
  board := h.board.trans hb
  analyses := h.analyses
  cases := h.cases.mono fun _ _ hr => ConflictCase.Tracks.mono hr fun _ _ => hb.underReview
  left := h.left
  fragments := h.fragments

theorem Advances.updateCase (h : b.Advances reopens s) {id : Id} {f : ConflictCase → ConflictCase}
    (hf : ∀ y, s.cases.get id = some y → ConflictCase.Tracks s.facts (b.cases.get id) y →
      ConflictCase.Tracks s.facts (b.cases.get id) (f y))
    (hl : ∀ y, s.cases.get id = some y → y.status = .resolved →
      (f y).status = .resolved ∨ reopens id) : b.Advances reopens (s.updateCase id f) :=
  { h with
    cases := h.cases.modify hf
    left := by
      intro c x y hx hy hr
      rcases Table.get_modify_cases hy with ⟨rfl, z, hz, rfl⟩ | ⟨-, hy⟩
      · exact (h.left _ x z hx hz hr).elim (hl z hz) Or.inr
      · exact h.left c x y hx hy hr }

theorem Advances.insertCase (h : b.Advances reopens s) {x : ConflictCase} (hx : x.Consistent) :
    b.Advances reopens { s with cases := s.cases.insert x } :=
  { h with
    cases := h.cases.insert hx
    left := by
      intro c y z hy hz hr
      rcases Table.get_insert_cases hz with ⟨rfl, -⟩ | hz
      · exact absurd (Table.lt_size hy) (Nat.not_lt.mpr h.cases.size)
      · exact h.left c y z hy hz hr }

theorem Advances.setFragments (h : b.Advances reopens s) {fragments : Table InformationFragment}
    (hf : CalmFragments s.fragments fragments) :
    b.Advances reopens { s with fragments := fragments } :=
  { h with
    fragments := Table.Evolves.trans (fun _ _ _ => InformationFragment.Calm.trans) h.fragments hf }

theorem Advances.setEvidence (h : b.Advances reopens s) (evidence : Table ConflictEvidence) :
    b.Advances reopens { s with evidence := evidence } := { h with }

end Advance
end Store
end CrisisMosaic
