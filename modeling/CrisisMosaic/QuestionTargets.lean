import Mathlib
import CrisisMosaic.Reachable
import CrisisMosaic.Realtime
import CrisisMosaic.Targets

/-!
# Question targets

Who a question is for is read twice: by the question lists, with the position the resident
gives, and by the realtime filter, which knows the region alone. The filter looks at the
entries of the geometry that are truthy, the lists at those that are there; and only the
lists take a GeoJSON point for a centre.
-/

namespace CrisisMosaic
namespace Questions
open Relational

/-- The event of a question that is published or closed. -/
def questionEvent (id : Id) (q : DirectedQuestion) : Event where
  eventType := "question." ++ q.status.text
  resourceType := .question
  resourceId := some id
  resourceRevision := some q.revision
  payload := questionData id q
  visibility := .public

/-- The geometry has no centre, no GeoJSON point and no radius. -/
structure Placeless (geometry : Dict) : Prop where
  center : ∀ c, geometry.get "center" = some c → isPresent c = false
  point : ∀ longitude latitude rest, geometry.get "type" = some (.str "Point") →
    geometry.get "coordinates" ≠ some (.arr (longitude :: latitude :: rest))
  radius : ∀ r, geometry.get "radius_m" = some r → isPresent r = false

def HasTruthy (geometry : Dict) (key : String) : Prop :=
  ∃ value, geometry.get key = some value ∧ isTruthy value = true

theorem changeQuestionStatus_emits {db t : Db} {now : Time} {actor : Actor} {header : Option Ref}
    {id revision : ℕ} {target : QuestionStatus}
    (h : changeQuestionStatus now db actor header id revision target = .ok t) :
    ∃ (q : DirectedQuestion) (s : Db), t = s.emit now q.incidentId (questionEvent id q) := by
  simp only [changeQuestionStatus, bind_ok, found_ok, require_ok, pure_ok] at h
  obtain ⟨-, -, q, -, -, -, -, -, -, -, -, -, rfl⟩ := h
  exact ⟨{ q with status := target, revision := q.revision + 1, updatedAt := now }, _, rfl⟩

section Targets
variable {geometry : Dict} {region : Option String}

theorem filter_isPresent_eq_none {value : Option Json} :
    value.filter isPresent = none ↔ ∀ v, value = some v → isPresent v = false := by
  cases value with
  | none => simp
  | some v => simp

theorem targetCenter_eq_none : targetCenter geometry = none ↔
    (∀ c, geometry.get "center" = some c → isPresent c = false) ∧
      ∀ longitude latitude rest, geometry.get "type" = some (.str "Point") →
        geometry.get "coordinates" ≠ some (.arr (longitude :: latitude :: rest)) := by
  unfold targetCenter
  rw [← filter_isPresent_eq_none]
  cases hcenter : (geometry.get "center").filter isPresent with
  | some c => simp
  | none =>
    simp only [true_and]
    split
    · next hpoint hcoordinates =>
      exact ⟨nofun, fun h => absurd hcoordinates (h _ _ _ hpoint)⟩
    · next hother =>
      simp only [true_iff]
      intro longitude latitude rest hpoint hcoordinates
      exact hother longitude latitude rest hpoint hcoordinates

theorem searchRegion_eq_true {value : Json} :
    searchRegion region value = some true ↔ holdsRegion region value = true := by
  cases value with
  | arr codes | obj d => simp [searchRegion, holdsRegion]
  | str s => cases region <;> simp [searchRegion, holdsRegion]
  | ref _ | time _ => cases region <;> simp [searchRegion, holdsRegion]
  | null | bool _ | num _ => simp [searchRegion, holdsRegion]

theorem regionTest_eq_true :
    regionTest geometry region = .ok true ↔ regionAllows geometry region = true := by
  unfold regionTest regionAllows truthyEntry
  cases (geometry.get "region_codes").filter isTruthy with
  | none => simp [pure, Except.pure]
  | some codes => rw [found_ok, searchRegion_eq_true, Option.all_some]

theorem circleTest_unknown (env : Env) (system : Option CoordinateSystem) :
    circleTest env geometry none system = .ok true ↔ Placeless geometry := by
  have hplaceless : Placeless geometry ↔
      targetCenter geometry = none ∧ (geometry.get "radius_m").filter isPresent = none := by
    rw [targetCenter_eq_none, filter_isPresent_eq_none]
    exact ⟨fun h => ⟨⟨h.center, h.point⟩, h.radius⟩, fun h => ⟨h.1.1, h.1.2, h.2⟩⟩
  rw [hplaceless]
  unfold circleTest
  cases hcenter : targetCenter geometry with
  | none =>
    cases hradius : (geometry.get "radius_m").filter isPresent <;> simp [pure, Except.pure]
  | some c =>
    cases hradius : (geometry.get "radius_m").filter isPresent <;> cases c <;>
      simp [pure, Except.pure]

theorem truthyEntry_eq_none {key : String} : truthyEntry geometry key = none ↔ ¬ HasTruthy geometry key := by
  unfold truthyEntry HasTruthy
  cases hget : geometry.get key with
  | none => simp
  | some v => cases hv : isTruthy v <;> simp [hv]

/-- Without a position, a place that is there turns the resident away. -/
theorem targetMatches_unknown (env : Env) (q : DirectedQuestion) (system : Option CoordinateSystem) :
    targetMatches env q none none system region = .ok true ↔
      regionAllows (q.targetGeometry.getD []) region = true ∧
        ¬ HasTruthy (q.targetGeometry.getD []) "bbox" ∧ Placeless (q.targetGeometry.getD []) := by
  obtain ⟨geometry, hgeometry⟩ : ∃ g, g = q.targetGeometry.getD [] := ⟨_, rfl⟩
  unfold targetMatches
  dsimp only
  rw [← hgeometry, ← regionTest_eq_true, ← truthyEntry_eq_none, ← circleTest_unknown env system]
  cases hregion : regionTest geometry region with
  | error e => simp [bind, Except.bind]
  | ok allowed =>
    cases allowed with
    | false => simp [bind, Except.bind, pure, Except.pure]
    | true =>
      cases hbox : truthyEntry geometry "bbox" with
      | none => simp [bind, Except.bind, givenPoint]
      | some box => simp [bind, Except.bind, givenPoint, pure, Except.pure]

theorem target_of_questionData (id : Id) (q : DirectedQuestion) :
    (questionData id q).get "target_geometry" = some (.opt .obj q.targetGeometry) := by
  simp [questionData, Dict.get, List.lookup]

theorem questionEvent_startsWith (id : Id) (q : DirectedQuestion) :
    (questionEvent id q).eventType.startsWith "question." = true := by
  have hstatus : ∀ status : QuestionStatus,
      ("question." ++ status.text).startsWith "question." = true := by
    intro status
    cases status <;> decide +kernel
  exact hstatus q.status

theorem questionHidden_question (l : Listener) (id : Id) (q : DirectedQuestion) (incidentId : Id)
    (sequence : ℕ) (now : Time) :
    questionHidden l ((questionEvent id q).stored incidentId sequence now) = false ↔
      regionAllows (q.targetGeometry.getD []) l.regionCode = true ∧
        ∀ key ∈ ["bbox", "center", "radius_m"], ¬ HasTruthy (q.targetGeometry.getD []) key := by
  have hpayload : (((questionEvent id q).stored incidentId sequence now).payload.get
      "target_geometry").bind Json.asDict = q.targetGeometry := by
    have hget := target_of_questionData id q
    have hstored : ((questionEvent id q).stored incidentId sequence now).payload = questionData id q :=
      rfl
    rw [hstored, hget]
    cases q.targetGeometry <;> rfl
  unfold questionHidden
  rw [hpayload]
  cases q.targetGeometry with
  | none => simp [HasTruthy, Dict.get, regionAllows]
  | some geometry =>
    simp only [Option.getD_some, Bool.or_eq_false_iff, Bool.not_eq_false', List.any_eq_false,
      Option.any_eq_true, HasTruthy]

theorem eventVisible_question {l : Listener} (hl : l.actor.role = .resident) (id : Id)
    (q : DirectedQuestion) (incidentId : Id) (sequence : ℕ) (now : Time) :
    eventVisible l ((questionEvent id q).stored incidentId sequence now) = true ↔
      regionAllows (q.targetGeometry.getD []) l.regionCode = true ∧
        ∀ key ∈ ["bbox", "center", "radius_m"], ¬ HasTruthy (q.targetGeometry.getD []) key := by
  have hstarts : ((questionEvent id q).stored incidentId sequence now).eventType.startsWith
      "question." = true := questionEvent_startsWith id q
  have hpublic : ((questionEvent id q).stored incidentId sequence now).visibility = .public := rfl
  have hresident : l.actor.isOperator = false := by simp [Actor.isOperator, hl]
  rw [← questionHidden_question l id q incidentId sequence now]
  unfold eventVisible
  simp [hstarts, hpublic, hresident]

theorem Placeless.not_truthy (h : Placeless geometry) :
    ¬ HasTruthy geometry "center" ∧ ¬ HasTruthy geometry "radius_m" := by
  have habsent : ∀ v : Json, isTruthy v = true → isPresent v = true := by
    intro v hv
    cases v with
    | null => exact nomatch hv
    | bool _ | num _ | str _ | ref _ | time _ | arr _ | obj _ => rfl
  constructor
  · rintro ⟨v, hv, htruthy⟩
    exact Bool.false_ne_true ((h.center v hv).symm.trans (habsent v htruthy))
  · rintro ⟨v, hv, htruthy⟩
    exact Bool.false_ne_true ((h.radius v hv).symm.trans (habsent v htruthy))

/-- The filter and the lists agree on a question exactly when its target excludes the region, has
an entry the filter sees, or has no place at all. -/
theorem question_events_match_targets_iff (env : Env) (l : Listener)
    (hl : l.actor.role = .resident) (id : Id) (q : DirectedQuestion) (incidentId : Id)
    (sequence : ℕ) (now : Time) (system : Option CoordinateSystem) :
    (eventVisible l ((questionEvent id q).stored incidentId sequence now) = true ↔
        targetMatches env q none none system l.regionCode = .ok true) ↔
      regionAllows (q.targetGeometry.getD []) l.regionCode = false ∨
        (∃ key ∈ ["bbox", "center", "radius_m"], HasTruthy (q.targetGeometry.getD []) key) ∨
        Placeless (q.targetGeometry.getD []) := by
  obtain ⟨geometry, hgeometry⟩ : ∃ g, g = q.targetGeometry.getD [] := ⟨_, rfl⟩
  rw [eventVisible_question hl, targetMatches_unknown, ← hgeometry]
  cases hregion : regionAllows geometry l.regionCode with
  | false => simp
  | true =>
    by_cases hplaceless : Placeless geometry
    · obtain ⟨hcenter, hradius⟩ := hplaceless.not_truthy
      simp [hplaceless, hcenter, hradius]
    · simp only [hplaceless, true_and, and_false, iff_false, Bool.true_eq_false, false_or, or_false]
      push Not
      rfl

end Targets

namespace Sample

def neighbour : Listener := ⟨⟨.device, 3, .resident, [0]⟩, some "north"⟩

def pointQuestion : DirectedQuestion where
  incidentId := 0
  blindSpotId := 0
  title := "Is the bridge open?"
  locationText := "Old bridge"
  targetGeometry := some [("type", .str "Point"), ("coordinates", .arr [.num 121, .num 31])]
  routeImpactCount := 0
  options := []
  status := .published
  expiresAt := none
  createdBy := 0
  revision := 2
  createdAt := 0
  updatedAt := 0

/-- The same question for the residents of a district. -/
def districtQuestion : DirectedQuestion :=
  { pointQuestion with targetGeometry := some [("region_codes", .arr [.str "south"])] }

end Sample

theorem district_question_is_for_the_district :
    eventVisible Sample.neighbour
        ((questionEvent 0 Sample.districtQuestion).stored 0 1 0) = true ↔
      targetMatches CrisisMosaic.Sample.env Sample.districtQuestion none none none
        Sample.neighbour.regionCode = .ok true :=
  (question_events_match_targets_iff CrisisMosaic.Sample.env Sample.neighbour rfl 0
    Sample.districtQuestion 0 1 0 none).mpr (Or.inl (by decide +kernel))

/-- A question about a GeoJSON point is pushed to a resident whom the lists do not show it. -/
theorem point_question_is_pushed_to_everybody :
    ¬ (eventVisible Sample.neighbour ((questionEvent 0 Sample.pointQuestion).stored 0 1 0) = true ↔
      targetMatches CrisisMosaic.Sample.env Sample.pointQuestion none none none
        Sample.neighbour.regionCode = .ok true) := by
  have hvisible : eventVisible Sample.neighbour
      ((questionEvent 0 Sample.pointQuestion).stored 0 1 0) = true := by
    decide +kernel
  rw [targetMatches_unknown]
  intro h
  exact (h.mp hvisible).2.2.point _ _ _ rfl rfl

end Questions
end CrisisMosaic
