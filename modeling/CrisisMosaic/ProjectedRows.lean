import CrisisMosaic.BlindSpots
import CrisisMosaic.Reports
import CrisisMosaic.Relational.Projection

/-!
# The rows on the map

A feature carries the status and the revision of the row it is projected from. A writer that
changes a fragment, a case or a blind spot leaves its feature stale until it projects the row
again. The fragments of resident reports are never shown, reports and facts have columns of
their own.
-/

namespace CrisisMosaic
open Relational

structure FeatureKey where
  incidentId : Id
  kind : FeatureKind
  sourceRef : Id

namespace MapFeature

def key (f : MapFeature) : FeatureKey := ⟨f.incidentId, f.kind, f.sourceRef⟩
def version (f : MapFeature) : FeatureStatus × ℕ := (f.status, f.revision)

theorem isFor_key {f : MapFeature} {i r : Id} {kind : FeatureKind} :
    f.isFor i kind r = true ↔ f.key = ⟨i, kind, r⟩ := by
  rw [isFor_iff, key, FeatureKey.mk.injEq]

end MapFeature

def InformationFragment.key (id : Id) (f : InformationFragment) : FeatureKey :=
  ⟨f.incidentId, .fragment, id⟩

def ConflictCase.key (id : Id) (x : ConflictCase) : FeatureKey := ⟨x.incidentId, .conflict, id⟩
def BlindSpot.key (id : Id) (b : BlindSpot) : FeatureKey := ⟨b.incidentId, .blindSpot, id⟩

/-- The tables whose rows the map copies. -/
structure Originals where
  fragments : Table InformationFragment
  cases : Table ConflictCase
  spots : Table BlindSpot

namespace Originals

def version (o : Originals) (k : FeatureKey) : Option (FeatureStatus × ℕ) :=
  match k.kind with
  | .fragment => ((o.fragments.get k.sourceRef).filter fun f =>
      f.incidentId = k.incidentId && f.sourceType ≠ .residentReport).map fun f =>
        (.fragment f.status, f.revision)
  | .conflict => ((o.cases.get k.sourceRef).filter fun x => x.incidentId = k.incidentId).map
      fun x => (.conflict x.status, x.revision)
  | .blindSpot => ((o.spots.get k.sourceRef).filter fun b => b.incidentId = k.incidentId).map
      fun b => (.blindSpot b.status, b.revision)
  | .report | .fact => none

section Version
variable {o : Originals} {i id : Id} {v : FeatureStatus × ℕ}

theorem version_fragment : o.version ⟨i, .fragment, id⟩ = some v ↔
    ∃ f, o.fragments.get id = some f ∧ f.incidentId = i ∧ f.sourceType ≠ .residentReport ∧
      (.fragment f.status, f.revision) = v := by
  simp [version, Option.filter_eq_some_iff, and_assoc]

theorem version_conflict : o.version ⟨i, .conflict, id⟩ = some v ↔
    ∃ x, o.cases.get id = some x ∧ x.incidentId = i ∧ (.conflict x.status, x.revision) = v := by
  simp [version, Option.filter_eq_some_iff, and_assoc]

theorem version_blindSpot : o.version ⟨i, .blindSpot, id⟩ = some v ↔
    ∃ b, o.spots.get id = some b ∧ b.incidentId = i ∧ (.blindSpot b.status, b.revision) = v := by
  simp [version, Option.filter_eq_some_iff, and_assoc]

end Version

/-- The features that copy no row of these tables. -/
def free : Set FeatureKey := {k | k.kind = .report ∨ k.kind = .fact}

/-- The map copies the rows, but for the stale keys. -/
def ShownBut (o : Originals) (stale : Set FeatureKey) (features : Table MapFeature) : Prop :=
  features.Copies MapFeature.key MapFeature.version o.version (free ∪ stale)

namespace ShownBut
variable {o o' : Originals} {S T : Set FeatureKey} {features : Table MapFeature} {now : Time}
  {env : Env}

theorem mono (h : o.ShownBut S features) (hS : S ⊆ T) : o.ShownBut T features :=
  Table.Copies.mono h (Set.union_subset_union_right free hS)

theorem changed (h : o.ShownBut S features) (hS : S ⊆ T)
    (ho : ∀ k v, k ∉ T → o.version k = some v → o'.version k = some v) : o'.ShownBut T features := by
  apply Table.Copies.rows_changed h (Set.union_subset_union_right free hS)
  intro k v hk hv
  exact ho k v (fun hT => hk (Or.inr hT)) hv

theorem upsert {f : MapFeature} (h : o.ShownBut S features) (hS : S \ {f.key} ⊆ T)
    (hrow : f.key ∉ free → f.key ∉ T → o.version f.key = some f.version) :
    o.ShownBut T (upsertFeature features f) := by
  have hstale : (free ∪ S) \ {f.key} ⊆ free ∪ T := by
    rintro k ⟨hk | hk, hne⟩
    · exact Or.inl hk
    · exact Or.inr (hS ⟨hk, hne⟩)
  have hcopy : f.key ∉ free ∪ T → o.version f.key = some f.version :=
    fun hk => hrow (fun hfree => hk (Or.inl hfree)) fun hT => hk (Or.inr hT)
  unfold upsertFeature
  cases hfirst : features.first (MapFeature.isFor f.incidentId f.kind f.sourceRef) with
  | some i =>
    obtain ⟨g, hg, hfor⟩ := Table.first_some hfirst
    have hkey : g.key = f.key := MapFeature.isFor_key.mp hfor
    exact Table.Copies.rewrite h hg hkey.symm (hkey ▸ hcopy) (hkey ▸ hstale)
  | none =>
    apply Table.Copies.add h _ hcopy hstale
    intro i g hg hkey
    exact absurd (MapFeature.isFor_key.mpr hkey) (by simp [Table.first_none hfirst hg])

/-- Rewriting the feature of a key, if it has one. -/
theorem rewrite {i r : Id} {kind : FeatureKind} {f : MapFeature → MapFeature}
    (h : o.ShownBut S features) (hkey : ∀ g, (f g).key = g.key) (hS : S \ {⟨i, kind, r⟩} ⊆ T)
    (hrow : ∀ g, g.key = ⟨i, kind, r⟩ → g.key ∉ free → g.key ∉ T →
      o.version g.key = some (f g).version) :
    o.ShownBut T (match features.first (MapFeature.isFor i kind r) with
      | some j => features.modify j f
      | none => features) := by
  cases hfirst : features.first (MapFeature.isFor i kind r) with
  | some j =>
    obtain ⟨g, hg, hfor⟩ := Table.first_some hfirst
    have hgk : g.key = ⟨i, kind, r⟩ := MapFeature.isFor_key.mp hfor
    apply Table.Copies.rewrite h hg (hkey g)
    · intro hk
      exact hrow g hgk (fun hfree => hk (Or.inl hfree)) fun hT => hk (Or.inr hT)
    · rintro k ⟨hk | hk, hne⟩
      · exact Or.inl hk
      · exact Or.inr (hS ⟨hk, hgk ▸ hne⟩)
  | none =>
    have hunlisted : features.All fun _ g => g.key ≠ ⟨i, kind, r⟩ :=
      fun j g hg hk => absurd (MapFeature.isFor_key.mpr hk) (by simp [Table.first_none hfirst hg])
    apply Table.Copies.mono (Table.Copies.unlisted h hunlisted)
    rintro k ⟨hk | hk, hne⟩
    · exact Or.inl hk
    · exact Or.inr (hS ⟨hk, hne⟩)

theorem hide {i r : Id} {kind : FeatureKind} {status : FeatureStatus} {revision : ℕ}
    (h : o.ShownBut S features) (hrow : o.version ⟨i, kind, r⟩ = some (status, revision)) :
    o.ShownBut (S \ {⟨i, kind, r⟩}) (hideMapFeature now features i kind r revision status) :=
  h.rewrite (fun _ => rfl) subset_rfl fun _ hk _ _ => hk ▸ hrow

/-- A row that is not shown has nothing to hide. -/
theorem hide_unshown {i r : Id} {kind : FeatureKind} {status : FeatureStatus} {revision : ℕ}
    (h : o.ShownBut S features) (hrow : o.version ⟨i, kind, r⟩ = none) :
    o.ShownBut S (hideMapFeature now features i kind r revision status) := by
  unfold hideMapFeature
  cases hfirst : features.first (MapFeature.isFor i kind r) with
  | some j =>
    obtain ⟨g, hg, hfor⟩ := Table.first_some hfirst
    have hgk : g.key = ⟨i, kind, r⟩ := MapFeature.isFor_key.mp hfor
    apply Table.Copies.rewrite h hg rfl _ Set.sdiff_subset
    intro hk
    have hcopy := h.current j g hg hk
    rw [hgk, hrow] at hcopy
    exact nomatch hcopy
  | none => exact h

section Project
variable {id : Id}

theorem fragment {f : InformationFragment} (h : o.ShownBut S features)
    (hf : o.fragments.get id = some f)
    (hS : ∀ k ∈ S, f.sourceType ≠ .residentReport ∧ k = f.key id ∨ k ∈ T) :
    o.ShownBut T (upsertFragmentMapFeature env now features id f) := by
  unfold upsertFragmentMapFeature
  by_cases hres : f.sourceType = .residentReport
  · rw [if_pos hres]
    have hmono := h.mono fun k hk => (hS k hk).resolve_left fun hl => hl.1 hres
    apply hmono.hide_unshown
    rw [Option.eq_none_iff_forall_ne_some]
    intro v hv
    obtain ⟨g, hg, -, hres', -⟩ := version_fragment.mp hv
    exact hres' (Option.some.inj (hf.symm.trans hg) ▸ hres)
  · rw [if_neg hres]
    apply h.upsert
    · rintro k ⟨hk, hne⟩
      exact (hS k hk).resolve_left fun hl => hne hl.2
    · intro _ _
      exact version_fragment.mpr ⟨f, hf, rfl, hres, rfl⟩

theorem case {x : ConflictCase} (h : o.ShownBut S features) (hx : o.cases.get id = some x)
    (fragments : Table InformationFragment) (evidence : Table ConflictEvidence) :
    o.ShownBut (S \ {x.key id}) (upsertConflictMapFeature env now features fragments evidence id x) :=
  h.upsert subset_rfl fun _ _ => version_conflict.mpr ⟨x, hx, rfl, rfl⟩

theorem hideCase {x : ConflictCase} (h : o.ShownBut S features) (hx : o.cases.get id = some x) :
    o.ShownBut (S \ {x.key id}) (hideConflictMapFeature now features id x) :=
  h.hide (version_conflict.mpr ⟨x, hx, rfl, rfl⟩)

theorem spot {b : BlindSpot} (h : o.ShownBut S features) (hb : o.spots.get id = some b) :
    o.ShownBut (S \ {b.key id}) (upsertBlindSpotMapFeature env now features id b) :=
  h.upsert subset_rfl fun _ _ => version_blindSpot.mpr ⟨b, hb, rfl, rfl⟩

theorem hideSpot {b : BlindSpot} (h : o.ShownBut S features) (hb : o.spots.get id = some b) :
    o.ShownBut (S \ {b.key id}) (hideBlindSpotMapFeature now features id b) :=
  h.hide (version_blindSpot.mpr ⟨b, hb, rfl, rfl⟩)

theorem report (h : o.ShownBut S features) (now : Time) (id : Id) (r : Report) :
    o.ShownBut S (upsertReportMapFeature now features id r) := by
  unfold upsertReportMapFeature
  split_ifs
  · exact h
  · exact h.upsert Set.sdiff_subset fun hfree => absurd (Or.inl rfl) hfree

theorem reviewed (h : o.ShownBut S features) (now : Time) (i factId : Id) (revision : ℕ) :
    o.ShownBut S (reviewFactFeature now features i factId revision) := by
  unfold reviewFactFeature
  apply h.rewrite _ Set.sdiff_subset
  · intro g hk hfree
    rw [hk] at hfree
    exact absurd (Or.inr rfl) hfree
  · exact fun _ => rfl

theorem published {f : MapFeature} (h : o.ShownBut S features) (hf : f.kind = .fact) :
    o.ShownBut S (publishFactFeature features f) := by
  have hfree : f.key ∈ free := Or.inr hf
  unfold publishFactFeature
  cases hfirst : features.first (MapFeature.isFor f.incidentId .fact f.sourceRef) with
  | some i =>
    obtain ⟨g, hg, hfor⟩ := Table.first_some hfirst
    have hkey : g.key = f.key := (MapFeature.isFor_key.mp hfor).trans (by rw [MapFeature.key, hf])
    apply Table.Copies.rewrite h hg hkey.symm _ Set.sdiff_subset
    exact fun hk => absurd (Or.inl (hkey ▸ hfree)) hk
  | none =>
    apply Table.Copies.add h _ _ Set.sdiff_subset
    · intro i g hg hkey
      have hfor := MapFeature.isFor_key.mpr (hkey.trans (by rw [MapFeature.key, hf]))
      exact absurd hfor (by simp [Table.first_none hfirst hg])
    · exact fun hk => absurd (Or.inl hfree) hk

end Project

section Change
variable {fragments : Table InformationFragment} {cases : Table ConflictCase} {spots : Table BlindSpot}

theorem fragments_changed (h : o.ShownBut S features) (hS : S ⊆ T)
    (hf : ∀ id f, o.fragments.get id = some f → f.sourceType ≠ .residentReport →
      ∃ g, fragments.get id = some g ∧ g.incidentId = f.incidentId ∧ g.sourceType = f.sourceType ∧
        (f.key id ∈ T ∨ g.status = f.status ∧ g.revision = f.revision)) :
    { o with fragments := fragments }.ShownBut T features := by
  apply h.changed hS
  rintro ⟨i, kind, id⟩ v hk hv
  cases kind with
  | fragment =>
    obtain ⟨f, hget, rfl, hres, rfl⟩ := version_fragment.mp hv
    obtain ⟨g, hg, hi, htype, hT | ⟨hstatus, hrevision⟩⟩ := hf id f hget hres
    · exact absurd hT hk
    · exact version_fragment.mpr ⟨g, hg, hi, htype ▸ hres, by rw [hstatus, hrevision]⟩
  | conflict => exact hv
  | blindSpot => exact hv
  | report => exact hv
  | fact => exact hv

theorem cases_changed (h : o.ShownBut S features) (hS : S ⊆ T)
    (hx : ∀ id x, o.cases.get id = some x → ∃ y, cases.get id = some y ∧
      y.incidentId = x.incidentId ∧ (x.key id ∈ T ∨ y.status = x.status ∧ y.revision = x.revision)) :
    { o with cases := cases }.ShownBut T features := by
  apply h.changed hS
  rintro ⟨i, kind, id⟩ v hk hv
  cases kind with
  | conflict =>
    obtain ⟨x, hget, rfl, rfl⟩ := version_conflict.mp hv
    obtain ⟨y, hy, hi, hT | ⟨hstatus, hrevision⟩⟩ := hx id x hget
    · exact absurd hT hk
    · exact version_conflict.mpr ⟨y, hy, hi, by rw [hstatus, hrevision]⟩
  | fragment => exact hv
  | blindSpot => exact hv
  | report => exact hv
  | fact => exact hv

theorem spots_changed (h : o.ShownBut S features) (hS : S ⊆ T)
    (hb : ∀ id b, o.spots.get id = some b → ∃ c, spots.get id = some c ∧
      c.incidentId = b.incidentId ∧ (b.key id ∈ T ∨ c.status = b.status ∧ c.revision = b.revision)) :
    { o with spots := spots }.ShownBut T features := by
  apply h.changed hS
  rintro ⟨i, kind, id⟩ v hk hv
  cases kind with
  | blindSpot =>
    obtain ⟨b, hget, rfl, rfl⟩ := version_blindSpot.mp hv
    obtain ⟨c, hc, hi, hT | ⟨hstatus, hrevision⟩⟩ := hb id b hget
    · exact absurd hT hk
    · exact version_blindSpot.mpr ⟨c, hc, hi, by rw [hstatus, hrevision]⟩
  | fragment => exact hv
  | conflict => exact hv
  | report => exact hv
  | fact => exact hv

theorem spot_replaced {id : Id} {old new : BlindSpot} (h : o.ShownBut S features)
    (hget : o.spots.get id = some old) (hi : new.incidentId = old.incidentId) (hS : S ⊆ T)
    (hkey : new.key id ∈ T) :
    { o with spots := o.spots.modify id fun _ => new }.ShownBut T features := by
  apply h.spots_changed hS
  intro j b hb
  by_cases hj : id = j
  · subst hj
    obtain rfl := Option.some.inj (hget.symm.trans hb)
    refine ⟨new, by simp [hget], hi, Or.inl ?_⟩
    rwa [BlindSpot.key, ← hi]
  · exact ⟨b, by rw [Table.get_modify_of_ne _ _ hj, hb], rfl, Or.inr ⟨rfl, rfl⟩⟩

end Change
end ShownBut
end Originals
end CrisisMosaic
