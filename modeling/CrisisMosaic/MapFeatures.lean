import CrisisMosaic.Records

/-!
# The map projection

One feature per projected row, keyed by incident, kind and source. An upsert
rewrites every projected column; a hide keeps the published data and marks the
feature deleted.
-/

namespace CrisisMosaic
open Relational

structure FeatureDraft where
  incidentId : Id
  kind : FeatureKind
  sourceRef : Id
  title : String
  status : FeatureStatus
  severity : Priority
  place : Place
  revision : ℕ
  publicData : Dict
  privateData : Dict := []

namespace MapFeature

def isFor (incidentId : Id) (kind : FeatureKind) (sourceRef : Id) (f : MapFeature) : Bool :=
  f.incidentId = incidentId && f.kind = kind && f.sourceRef = sourceRef

theorem isFor_iff {incidentId sourceRef : Id} {kind : FeatureKind} {f : MapFeature} :
    f.isFor incidentId kind sourceRef = true ↔
      f.incidentId = incidentId ∧ f.kind = kind ∧ f.sourceRef = sourceRef := by
  simp [isFor, and_assoc]

end MapFeature

def FeatureDraft.row (m : MathLib) (now : Time) (d : FeatureDraft) : MapFeature :=
  { incidentId := d.incidentId
    kind := d.kind
    sourceRef := d.sourceRef
    title := d.title
    status := d.status
    severity := d.severity
    position := d.place.position m
    revision := d.revision
    isDeleted := (d.place.position m).isNone
    publicData := d.publicData
    privateData := if d.privateData.isEmpty then d.publicData else d.privateData
    updatedAt := now }

def upsertFeature (features : Table MapFeature) (f : MapFeature) : Table MapFeature :=
  match features.first (MapFeature.isFor f.incidentId f.kind f.sourceRef) with
  | some i => features.modify i fun _ => f
  | none => features.insert f

def upsertMapFeature (m : MathLib) (now : Time) (features : Table MapFeature)
    (d : FeatureDraft) : Table MapFeature := upsertFeature features (d.row m now)

def hideMapFeature (now : Time) (features : Table MapFeature) (incidentId : Id)
    (kind : FeatureKind) (sourceRef : Id) (revision : ℕ) (status : FeatureStatus) :
    Table MapFeature :=
  match features.first (MapFeature.isFor incidentId kind sourceRef) with
  | some i => features.modify i fun f =>
      { f with status := status, revision := revision, isDeleted := true, updatedAt := now }
  | none => features

section Upserts
variable (env : Env) (now : Time) (features : Table MapFeature)

def upsertFragmentMapFeature (id : Id) (fragment : InformationFragment) : Table MapFeature :=
  if fragment.sourceType = .residentReport then
    hideMapFeature now features fragment.incidentId .fragment id fragment.revision
      (.fragment fragment.status)
  else
    upsertMapFeature env.math now features
      { incidentId := fragment.incidentId
        kind := .fragment
        sourceRef := id
        title := fragment.label
        status := .fragment fragment.status
        severity := if fragment.status = .conflict then .high else .medium
        place := fragment.place
        revision := fragment.revision
        publicData := [("topic", .str fragment.topic), ("confidence", .num fragment.confidence),
          ("location_text", .str fragment.place.locationText)] }

def hideConflictMapFeature (id : Id) (conflict : ConflictCase) : Table MapFeature :=
  hideMapFeature now features conflict.incidentId .conflict id conflict.revision (.conflict conflict.status)

def hideBlindSpotMapFeature (id : Id) (blindSpot : BlindSpot) : Table MapFeature :=
  hideMapFeature now features blindSpot.incidentId .blindSpot id blindSpot.revision
    (.blindSpot blindSpot.status)

def isResidentReportGap (scope : Option Dict) : Bool :=
  ((scope.getD []).get "source").any (Json.isStr "resident_report_gap")

def upsertBlindSpotMapFeature (id : Id) (blindSpot : BlindSpot) : Table MapFeature :=
  let data : Dict := [("fact_key", .str blindSpot.claimKey),
    ("route_impact_count", .nat blindSpot.routeImpactCount),
    ("location_text", .str blindSpot.place.locationText)]
  upsertMapFeature env.math now features
    { incidentId := blindSpot.incidentId
      kind := .blindSpot
      sourceRef := id
      title := blindSpot.title
      status := .blindSpot blindSpot.status
      severity := blindSpot.severity
      place := blindSpot.place
      revision := blindSpot.revision
      publicData := data
      privateData := data ++
        [("resident_report_derived", .bool (isResidentReportGap blindSpot.scopeData))] }

def residentReportEvidence (fragments : Table InformationFragment)
    (evidence : Table ConflictEvidence) (id : Id) : Option Id :=
  evidence.first fun e => e.conflictId = id && e.kind = .fragment &&
    (fragments.get e.sourceId).any fun f => f.sourceType = .residentReport

def upsertConflictMapFeature (fragments : Table InformationFragment)
    (evidence : Table ConflictEvidence) (id : Id) (conflict : ConflictCase) : Table MapFeature :=
  let data : Dict := [("fact_key", .str conflict.factKey), ("topic", .str conflict.topic),
    ("location_text", .str conflict.place.locationText)]
  upsertMapFeature env.math now features
    { incidentId := conflict.incidentId
      kind := .conflict
      sourceRef := id
      title := conflict.title
      status := .conflict conflict.status
      severity := conflict.severity
      place := conflict.place
      revision := conflict.revision
      publicData := data
      privateData := data ++
        [("resident_report_derived",
          .bool (residentReportEvidence fragments evidence id).isSome)] }

end Upserts

/-- A change of the projection that leaves the facts' features alone and publishes no
statement anywhere else. -/
structure FactSilent (a b : Table MapFeature) : Prop where
  fact : ∀ i f, f.kind = .fact → (a.get i = some f ↔ b.get i = some f)
  unstated : (a.All fun _ f => f.kind ≠ .fact → f.publicData.get "statement" = none) →
    b.All fun _ f => f.kind ≠ .fact → f.publicData.get "statement" = none

theorem FactSilent.refl (a : Table MapFeature) : FactSilent a a := ⟨fun _ _ _ => Iff.rfl, id⟩

theorem FactSilent.trans {a b c : Table MapFeature} (h : FactSilent a b) (k : FactSilent b c) :
    FactSilent a c :=
  ⟨fun i f hf => (h.fact i f hf).trans (k.fact i f hf), fun ha => k.unstated (h.unstated ha)⟩

theorem FactSilent.foldl {step : Table MapFeature → Id → Table MapFeature}
    (h : ∀ (features : Table MapFeature) (id : Id), FactSilent features (step features id)) :
    ∀ (ids : List Id) (features : Table MapFeature), FactSilent features (ids.foldl step features) := by
  intro ids
  induction ids with
  | nil => exact FactSilent.refl
  | cons id ids ih => exact fun features => (h features id).trans (ih _)

theorem upsertFeature_factSilent (features : Table MapFeature) {f : MapFeature}
    (hk : f.kind ≠ .fact) (hs : f.publicData.get "statement" = none) :
    FactSilent features (upsertFeature features f) := by
  unfold upsertFeature
  split
  · next i hi =>
    obtain ⟨g, hg, hp⟩ := Table.first_some hi
    have hgk := (MapFeature.isFor_iff.mp hp).2.1
    refine ⟨fun j k hkf => ?_, fun ha => ha.modify fun _ _ _ _ => hs⟩
    rw [Table.get_modify]
    by_cases hj : i = j
    · subst hj
      simp only [hg, if_true, Option.map_some, Option.some.injEq]
      exact ⟨fun h => absurd hkf (h ▸ hgk ▸ hk), fun h => absurd hkf (h ▸ hk)⟩
    · rw [if_neg hj]
  · refine ⟨fun j k hkf => ?_, fun ha => ha.insert fun _ => hs⟩
    rw [Table.get_insert]
    by_cases hj : j = features.size
    · subst hj
      simp only [Table.get_size, if_true, Option.some.injEq]
      exact ⟨fun h => (nomatch h), fun h => absurd hkf (h ▸ hk)⟩
    · rw [if_neg hj]

theorem hideMapFeature_factSilent (now : Time) (features : Table MapFeature) (incidentId : Id)
    {kind : FeatureKind} (hk : kind ≠ .fact) (sourceRef : Id) (revision : ℕ)
    (status : FeatureStatus) :
    FactSilent features
      (hideMapFeature now features incidentId kind sourceRef revision status) := by
  unfold hideMapFeature
  split
  · next i hi =>
    obtain ⟨g, hg, hp⟩ := Table.first_some hi
    have hgk := (MapFeature.isFor_iff.mp hp).2.1
    refine ⟨fun j k hkf => ?_, fun ha => ha.modify fun f _ hf => hf⟩
    rw [Table.get_modify]
    by_cases hj : i = j
    · subst hj
      simp only [hg, if_true, Option.map_some, Option.some.injEq]
      constructor
      · intro h
        exact absurd hkf (h ▸ hgk ▸ hk)
      · rintro rfl
        exact absurd hkf (hgk ▸ hk)
    · rw [if_neg hj]
  · exact FactSilent.refl features

theorem upsertFragmentMapFeature_factSilent (env : Env) (now : Time) (features : Table MapFeature)
    (id : Id) (fragment : InformationFragment) :
    FactSilent features (upsertFragmentMapFeature env now features id fragment) := by
  unfold upsertFragmentMapFeature
  by_cases h : fragment.sourceType = .residentReport
  · rw [if_pos h]
    exact hideMapFeature_factSilent now features _ (by decide) _ _ _
  · rw [if_neg h]
    exact upsertFeature_factSilent features (by simp [FeatureDraft.row]) rfl

theorem hideConflictMapFeature_factSilent (now : Time) (features : Table MapFeature) (id : Id)
    (conflict : ConflictCase) : FactSilent features (hideConflictMapFeature now features id conflict) :=
  hideMapFeature_factSilent now features _ (by decide) _ _ _

theorem hideBlindSpotMapFeature_factSilent (now : Time) (features : Table MapFeature) (id : Id)
    (blindSpot : BlindSpot) :
    FactSilent features (hideBlindSpotMapFeature now features id blindSpot) :=
  hideMapFeature_factSilent now features _ (by decide) _ _ _

theorem upsertBlindSpotMapFeature_factSilent (env : Env) (now : Time)
    (features : Table MapFeature) (id : Id) (blindSpot : BlindSpot) :
    FactSilent features (upsertBlindSpotMapFeature env now features id blindSpot) :=
  upsertFeature_factSilent features (by simp [FeatureDraft.row]) rfl

theorem upsertConflictMapFeature_factSilent (env : Env) (now : Time)
    (features : Table MapFeature) (fragments : Table InformationFragment)
    (evidence : Table ConflictEvidence) (id : Id) (conflict : ConflictCase) :
    FactSilent features (upsertConflictMapFeature env now features fragments evidence id conflict) :=
  upsertFeature_factSilent features (by simp [FeatureDraft.row]) rfl

end CrisisMosaic
