import CrisisMosaic.ReopenedSpots
import CrisisMosaic.TargetTests
import CrisisMosaic.Relational.Outcomes

/-!
# Matching never fails where the target can be read

A target is JSON data that nothing checks when the question is created. The conditions below say
which targets the match reads to its end; one that does not meet them fails the list for everybody
who reaches it.
-/

namespace CrisisMosaic
namespace Questions
open Relational

section Matching
variable (env : Env) (now : Time)

/-- The published questions of the incident that have not expired and are for this resident, the
newest first. -/
def matchingQuestions (db : Db) (incidentId : Ref) (latitude : Option Latitude)
    (longitude : Option Longitude) (system : Option CoordinateSystem) (regionCode : Option String) :
    Result (List Id) :=
  let candidates := newestFirst db.questions (·.createdAt) (db.questions.select fun q =>
    .id q.incidentId = incidentId && q.status = .published)
  candidates.foldlM (fun result id => do
    let item ← found (db.questions.get id) internalError
    if item.expiresAt.any fun t => t ≤ now then pure result
    else if ← targetMatches env item latitude longitude system regionCode then
      pure (result ++ [id])
    else pure result) []

end Matching

section Requirements
variable (env : Env) (geometry : Dict)

/-- Lists and objects can be searched for any region, a text for one that is given. -/
def Searchable (region : Option String) : Json → Prop
  | .arr _ | .obj _ => True
  | .str _ | .ref _ | .time _ => region.isSome = true
  | .null | .bool _ | .num _ => False

/-- The value has a length. -/
def Sized : Json → Prop
  | .arr _ | .obj _ | .str _ | .ref _ | .time _ => True
  | .null | .bool _ | .num _ => False

def Reads (value : Option Json) (v : FloatValue) : Prop :=
  value.map (floatOf env.text) = some (.ok v)

/-- No integer that is too large for a float. -/
def Fits (value : Option Json) : Prop := value.map (floatOf env.text) ≠ some (.error .overflow)

def LegalPoint (p : Point) : Prop :=
  (-90 ≤ p.latitude ∧ p.latitude ≤ 90) ∧ (-180 ≤ p.longitude ∧ p.longitude ≤ 180)

def KnownSystem (text : String) : Prop := text.toLower = "wgs84" ∨ text.toLower = "gcj02"

/-- Four values, each of them a number to `float`. -/
def BoxBounds (box : Json) (bounds : List FloatValue) : Prop :=
  ∃ values, iterated box = some values ∧ values.length = 4 ∧
    values.mapM (fun v => (floatOf env.text v).toOption) = some bounds

/-- The position in the system of the target, if both systems are known. -/
def shifted (latitude : Latitude) (longitude : Longitude) (system : Option CoordinateSystem) :
    Point :=
  match system, targetSystem geometry system with
  | some sys, some target => (normalize env.math latitude longitude sys).at target
  | _, _ => ⟨latitude, longitude⟩

/-- The position that comes to the circle: the one that was given, or the one inside the box. -/
def ComesTo (latitude : Latitude) (longitude : Longitude) (system : Option CoordinateSystem)
    (p : Point) : Prop :=
  match truthyEntry geometry "bbox" with
  | none => p = ⟨latitude, longitude⟩
  | some box => p = shifted env geometry latitude longitude system ∧
      ∃ bounds, BoxBounds env box bounds ∧ inBox p bounds = true

/-- Once both numbers of the centre are read, both points have to be legal. -/
structure CircleReads (p : Point) (system : CoordinateSystem) (center : Dict) (radius : Json) :
    Prop where
  latitude : Fits env (center.get "latitude")
  longitude : ∀ lat, Reads env (center.get "latitude") lat → Fits env (center.get "longitude")
  points : ∀ lat lon, Reads env (center.get "latitude") lat → Reads env (center.get "longitude") lon →
    LegalPoint p ∧ (∃ x y, lat = .finite x ∧ lon = .finite y ∧ LegalPoint ⟨x, y⟩) ∧
      KnownSystem (centerSystem env geometry center system) ∧ Fits env (some radius)

/-- Every entry that the match comes to can be read. -/
structure TargetReads (latitude : Option Latitude) (longitude : Option Longitude)
    (system : Option CoordinateSystem) (region : Option String) : Prop where
  regions : ∀ codes, truthyEntry geometry "region_codes" = some codes → Searchable region codes
  box : regionAllows geometry region = true → ∀ box, truthyEntry geometry "bbox" = some box →
    latitude.isSome = true → longitude.isSome = true →
      Sized box ∧ ∀ values, iterated box = some values → values.length = 4 →
        ∀ v ∈ values, ∃ x, floatOf env.text v = .ok x
  circle : regionAllows geometry region = true → ∀ lat lon sys p center radius,
    latitude = some lat → longitude = some lon → system = some sys →
      ComesTo env geometry lat lon system p → targetCenter geometry = some (.obj center) →
        (geometry.get "radius_m").filter isPresent = some radius →
          CircleReads env geometry p sys center radius

end Requirements

section Reading
variable {env : Env} {geometry : Dict} {region : Option String} {latitude : Latitude}
  {longitude : Longitude} {system : Option CoordinateSystem} {p : Point}

theorem searchRegion_isSome {codes : Json} :
    (searchRegion region codes).isSome = true ↔ Searchable region codes := by
  cases codes with
  | arr codes | obj d => simp [searchRegion, Searchable]
  | str s | ref r | time t => simp [searchRegion, Searchable]
  | null | bool b | num q => simp [searchRegion, Searchable]

theorem regionTest_completes : Completes (regionTest geometry region) ↔
    ∀ codes, truthyEntry geometry "region_codes" = some codes → Searchable region codes := by
  unfold regionTest
  cases truthyEntry geometry "region_codes" with
  | none => simp
  | some codes => simp [completes_found, searchRegion_isSome]

theorem validateCoordinates_completes {p : Point} :
    Completes (validateCoordinates p.latitude p.longitude) ↔ LegalPoint p := by
  unfold validateCoordinates LegalPoint
  by_cases h : (-90 ≤ p.latitude ∧ p.latitude ≤ 90) ∧ (-180 ≤ p.longitude ∧ p.longitude ≤ 180)
  · rw [dif_pos h]
    exact iff_of_true (completes_ok _) h
  · rw [dif_neg h]
    exact iff_of_false (not_completes_error _) h

theorem parseSystem_completes {text : String} : Completes (parseSystem text) ↔ KnownSystem text := by
  unfold parseSystem KnownSystem
  split_ifs with hwgs hgcj
  · simp [hwgs]
  · simp [hgcj]
  · simp [hwgs, hgcj]

theorem normalizeRaw_completes {text : String} :
    Completes (normalizeRaw env p text) ↔ LegalPoint p ∧ KnownSystem text := by
  unfold normalizeRaw
  rw [completes_bind, ← validateCoordinates_completes, ← parseSystem_completes]
  constructor
  · rintro ⟨c, hc, hrest⟩
    rw [completes_bind] at hrest
    obtain ⟨s, hs, -⟩ := hrest
    exact ⟨⟨c, hc⟩, s, hs⟩
  · rintro ⟨⟨c, hc⟩, s, hs⟩
    exact ⟨c, hc, completes_bind.mpr ⟨s, hs, completes_pure _⟩⟩

theorem normalizeFloats_completes {lat lon : FloatValue} {text : String} :
    Completes (normalizeFloats env lat lon text) ↔
      (∃ x y, lat = .finite x ∧ lon = .finite y ∧ LegalPoint ⟨x, y⟩) ∧ KnownSystem text := by
  unfold normalizeFloats
  cases lat with
  | infinite negative | nan => simp [FloatValue.finite?]
  | finite x =>
    cases lon with
    | infinite negative | nan => simp [FloatValue.finite?]
    | finite y => simp [FloatValue.finite?, normalizeRaw_completes]

theorem attempt_completes {value : Option Json} {next : FloatValue → Result Bool} :
    Completes (attempt env value next) ↔
      Fits env value ∧ ∀ v, Reads env value v → Completes (next v) := by
  unfold attempt Fits Reads
  cases value.map (floatOf env.text) with
  | none => simp
  | some read =>
    cases read with
    | ok v => simp
    | error e => cases e <;> simp

theorem knownSystem_text (system : CoordinateSystem) : KnownSystem system.text := by
  unfold KnownSystem
  cases system <;> decide +kernel

theorem circleContains_completes {sys : CoordinateSystem} {center : Dict} {radius : Json} :
    Completes (circleContains env geometry p sys center radius) ↔
      CircleReads env geometry p sys center radius := by
  have hpoints : ∀ lat lon, Completes (do
        let point ← normalizeRaw env p sys.text
        let target ← normalizeFloats env lat lon (centerSystem env geometry center sys)
        attempt env (some radius) fun r =>
          pure (!r.lt (haversineM env.math point.wgs84 target.wgs84))) ↔
      LegalPoint p ∧ (∃ x y, lat = .finite x ∧ lon = .finite y ∧ LegalPoint ⟨x, y⟩) ∧
        KnownSystem (centerSystem env geometry center sys) ∧ Fits env (some radius) := by
    intro lat lon
    rw [completes_bind]
    constructor
    · rintro ⟨point, hpoint, hrest⟩
      obtain ⟨target, htarget, hradius⟩ := completes_bind.mp hrest
      obtain ⟨hcenter, hsystem⟩ := normalizeFloats_completes.mp ⟨target, htarget⟩
      exact ⟨(normalizeRaw_completes.mp ⟨point, hpoint⟩).1, hcenter, hsystem,
        (attempt_completes.mp hradius).1⟩
    · rintro ⟨hp, hcenter, hsystem, hfits⟩
      obtain ⟨point, hpoint⟩ := normalizeRaw_completes.mpr ⟨hp, knownSystem_text sys⟩
      obtain ⟨target, htarget⟩ := normalizeFloats_completes.mpr ⟨hcenter, hsystem⟩
      exact ⟨point, hpoint, completes_bind.mpr ⟨target, htarget,
        attempt_completes.mpr ⟨hfits, fun r _ => completes_pure _⟩⟩⟩
  unfold circleContains
  simp only [attempt_completes, hpoints]
  constructor
  · rintro ⟨hlat, hrest⟩
    exact ⟨hlat, fun lat h => (hrest lat h).1, fun lat lon h h' => (hrest lat h).2 lon h'⟩
  · rintro ⟨hlat, hlon, hpoints⟩
    exact ⟨hlat, fun lat h => ⟨hlon lat h, fun lon h' => hpoints lat lon h h'⟩⟩

theorem circleTest_completes {q : Option Point} : Completes (circleTest env geometry q system) ↔
    ∀ p sys center radius, q = some p → system = some sys →
      targetCenter geometry = some (.obj center) →
        (geometry.get "radius_m").filter isPresent = some radius →
          CircleReads env geometry p sys center radius := by
  unfold circleTest
  cases targetCenter geometry with
  | none => cases (geometry.get "radius_m").filter isPresent <;> simp
  | some c =>
    cases c with
    | obj center =>
      cases (geometry.get "radius_m").filter isPresent with
      | none => simp
      | some radius =>
        cases q with
        | none => simp
        | some p =>
          cases system with
          | none => simp
          | some sys =>
            refine circleContains_completes.trans ⟨?_, fun h => h p sys center radius rfl rfl rfl rfl⟩
            rintro h _ _ _ _ ⟨⟩ ⟨⟩ ⟨⟩ ⟨⟩
            exact h
    | null | bool _ | num _ | str _ | ref _ | time _ | arr _ =>
      cases (geometry.get "radius_m").filter isPresent <;> simp

theorem iterated_isSome {box : Json} : (iterated box).isSome = true ↔ Sized box := by
  cases box with
  | arr _ | obj _ | str _ | ref _ | time _ => simp [iterated, Sized]
  | null | bool _ | num _ => simp [iterated, Sized]

theorem boxPoint_eq (env : Env) (geometry : Dict) (latitude : Latitude) (longitude : Longitude)
    (system : Option CoordinateSystem) : boxPoint env geometry ⟨latitude, longitude⟩ system =
      .ok (shifted env geometry latitude longitude system) := by
  unfold boxPoint shifted
  cases system with
  | none => rfl
  | some sys =>
    cases targetSystem geometry (some sys) with
    | none => rfl
    | some target =>
      dsimp only
      rw [normalizeRaw_eq, validateCoordinates_legal]
      rfl

theorem floats_isSome {values : List Json} :
    (values.mapM fun v => (floatOf env.text v).toOption).isSome = true ↔
      ∀ v ∈ values, ∃ x, floatOf env.text v = .ok x := by
  have hvalue : ∀ v, (floatOf env.text v).toOption.isSome = true ↔ ∃ x, floatOf env.text v = .ok x := by
    intro v
    cases floatOf env.text v <;> simp [Except.toOption]
  rw [mapM_isSome]
  exact forall₂_congr fun v _ => hvalue v

/-- The values of a box that is four long, as `float` reads them. -/
theorem boxTest_eq (env : Env) (geometry : Dict) (latitude : Latitude) (longitude : Longitude)
    (system : Option CoordinateSystem) (box : Json) :
    boxTest env geometry ⟨latitude, longitude⟩ system box =
      (found (iterated box) internalError).bind fun values =>
        if values.length = 4 then
          (found (values.mapM fun v => (floatOf env.text v).toOption) internalError).map fun bounds =>
            let p := shifted env geometry latitude longitude system
            if inBox p bounds then some p else none
        else .ok none := by
  unfold boxTest
  rw [boxPoint_eq]
  cases iterated box with
  | none => rfl
  | some values =>
    by_cases hlength : values.length = 4
    · simp only [found, bind, Except.bind, ne_eq, hlength, not_true, if_false, if_true]
      cases values.mapM fun v => (floatOf env.text v).toOption <;> rfl
    · simp only [found, bind, Except.bind, ne_eq, hlength, not_false_eq_true, if_true, if_false]
      rfl

theorem boxTest_completes {box : Json} :
    Completes (boxTest env geometry ⟨latitude, longitude⟩ system box) ↔
      Sized box ∧ ∀ values, iterated box = some values → values.length = 4 →
        ∀ v ∈ values, ∃ x, floatOf env.text v = .ok x := by
  rw [boxTest_eq, ← iterated_isSome]
  cases iterated box with
  | none => simp [found, Except.bind]
  | some values =>
    simp only [found, Except.bind, Option.isSome_some, true_and, Option.some.injEq, forall_eq']
    by_cases hlength : values.length = 4
    · simp only [hlength, if_true, true_implies]
      rw [← floats_isSome]
      cases values.mapM fun v => (floatOf env.text v).toOption <;> simp [Except.map]
    · simp [hlength]

theorem boxTest_some {box : Json} :
    boxTest env geometry ⟨latitude, longitude⟩ system box = .ok (some p) ↔
      p = shifted env geometry latitude longitude system ∧
        ∃ bounds, BoxBounds env box bounds ∧ inBox p bounds = true := by
  obtain ⟨p', hp'⟩ : ∃ p', p' = shifted env geometry latitude longitude system := ⟨_, rfl⟩
  rw [boxTest_eq]
  unfold BoxBounds
  simp only [← hp']
  cases iterated box with
  | none => simp [found, Except.bind]
  | some values =>
    by_cases hlength : values.length = 4
    · cases hbounds : values.mapM fun v => (floatOf env.text v).toOption with
      | none => simp [found, Except.bind, Except.map, hlength, hbounds]
      | some bounds =>
        by_cases hin : inBox p' bounds = true
        · simp only [found, Except.bind, Except.map, hlength, if_true, hbounds, hin]
          constructor
          · rintro ⟨⟩
            exact ⟨rfl, bounds, ⟨values, rfl, hlength, hbounds⟩, hin⟩
          · rintro ⟨rfl, -⟩
            rfl
        · simp only [found, Except.bind, Except.map, hlength, if_true, hbounds, hin]
          refine iff_of_false (by rintro ⟨⟩) ?_
          rintro ⟨rfl, bounds', ⟨values', ⟨⟩, -, hbounds'⟩, hin'⟩
          rw [hbounds] at hbounds'
          cases hbounds'
          exact hin hin'
    · refine iff_of_false (by simp [found, Except.bind, hlength]) ?_
      rintro ⟨-, bounds, ⟨values', ⟨⟩, hlength', -⟩, -⟩
      exact hlength hlength'

/-- After the box, the circle reads what it is tested with. -/
theorem boxThenCircle_completes {box : Json} (hbox : truthyEntry geometry "bbox" = some box) :
    Completes (do
        match ← boxTest env geometry ⟨latitude, longitude⟩ system box with
        | none => pure false
        | some p => circleTest env geometry (some p) system) ↔
      (Sized box ∧ ∀ values, iterated box = some values → values.length = 4 →
        ∀ v ∈ values, ∃ x, floatOf env.text v = .ok x) ∧
      ∀ p, ComesTo env geometry latitude longitude system p →
        Completes (circleTest env geometry (some p) system) := by
  have hcomes : ∀ p, ComesTo env geometry latitude longitude system p ↔
      boxTest env geometry ⟨latitude, longitude⟩ system box = .ok (some p) := by
    intro p
    rw [boxTest_some, ComesTo, hbox]
  rw [← boxTest_completes, completes_bind]
  simp only [hcomes]
  constructor
  · rintro ⟨left, hleft, hrest⟩
    refine ⟨⟨left, hleft⟩, fun p hp => ?_⟩
    cases hleft.symm.trans hp
    exact hrest
  · rintro ⟨⟨left, hleft⟩, hrest⟩
    refine ⟨left, hleft, ?_⟩
    cases left with
    | none => exact completes_pure false
    | some p => exact hrest p hleft

theorem targetMatches_completes (env : Env) (q : DirectedQuestion) (latitude : Option Latitude)
    (longitude : Option Longitude) (system : Option CoordinateSystem) (region : Option String) :
    Completes (targetMatches env q latitude longitude system region) ↔
      TargetReads env (q.targetGeometry.getD []) latitude longitude system region := by
  obtain ⟨geometry, hgeometry⟩ : ∃ g, g = q.targetGeometry.getD [] := ⟨_, rfl⟩
  unfold targetMatches
  dsimp only
  rw [← hgeometry]
  cases hregion : regionTest geometry region with
  | error e =>
    refine iff_of_false nofun fun h => ?_
    have hcompletes := regionTest_completes.mpr h.regions
    rw [hregion] at hcompletes
    exact not_completes_error e hcompletes
  | ok allowed =>
    have hregions := regionTest_completes.mp ⟨allowed, hregion⟩
    cases allowed with
    | false =>
      have hexcluded : regionAllows geometry region ≠ true := fun h => by
        cases hregion.symm.trans (regionTest_eq_true.mpr h)
      exact iff_of_true (completes_pure false)
        ⟨hregions, fun h => absurd h hexcluded, fun h => absurd h hexcluded⟩
    | true =>
      have hallowed := regionTest_eq_true.mp hregion
      cases hbox : truthyEntry geometry "bbox" with
      | none =>
        refine circleTest_completes.trans ⟨fun h => ⟨hregions, ?_, ?_⟩, ?_⟩
        · intro _ box hsome
          cases hbox.symm.trans hsome
        · rintro - lat lon sys p center radius rfl rfl hsystem hcomes hcenter hradius
          rw [ComesTo, hbox] at hcomes
          exact h p sys center radius (by rw [hcomes]; rfl) hsystem hcenter hradius
        · intro h p sys center radius hpoint hsystem hcenter hradius
          cases hlat : latitude with
          | none => rw [hlat] at hpoint; cases hpoint
          | some lat =>
            cases hlon : longitude with
            | none => rw [hlat, hlon] at hpoint; cases hpoint
            | some lon =>
              rw [hlat, hlon] at hpoint
              cases hpoint
              refine h.circle hallowed lat lon sys _ center radius hlat hlon hsystem ?_ hcenter hradius
              rw [ComesTo, hbox]
      | some box =>
        cases hlat : latitude with
        | none =>
          exact iff_of_true (completes_pure false)
            ⟨hregions, fun _ _ _ h => (Bool.false_ne_true h).elim, fun _ _ _ _ _ _ _ h => nomatch h⟩
        | some lat =>
          cases hlon : longitude with
          | none =>
            exact iff_of_true (completes_pure false) ⟨hregions,
              fun _ _ _ _ h => (Bool.false_ne_true h).elim, fun _ _ _ _ _ _ _ _ h => nomatch h⟩
          | some lon =>
            refine (boxThenCircle_completes hbox).trans ⟨?_, fun h => ⟨?_, ?_⟩⟩
            · rintro ⟨hreads, hcircle⟩
              refine ⟨hregions, ?_, ?_⟩
              · intro _ box' hsome _ _
                cases hbox.symm.trans hsome
                exact hreads
              · rintro - lat' lon' sys p center radius ⟨⟩ ⟨⟩ hsystem hcomes hcenter hradius
                exact circleTest_completes.mp (hcircle p hcomes) p sys center radius rfl hsystem
                  hcenter hradius
            · exact h.box hallowed box hbox rfl rfl
            · intro p hcomes
              rw [circleTest_completes]
              rintro _ sys center radius ⟨⟩ hsystem hcenter hradius
              exact h.circle hallowed lat lon sys p center radius rfl rfl hsystem hcomes hcenter
                hradius

theorem matchingQuestions_completes (env : Env) (now : Time) (db : Db) (incidentId : Ref)
    (latitude : Option Latitude) (longitude : Option Longitude) (system : Option CoordinateSystem)
    (region : Option String) :
    Completes (matchingQuestions env now db incidentId latitude longitude system region) ↔
      ∀ id q, db.questions.get id = some q → .id q.incidentId = incidentId →
        q.status = .published → (∀ t, q.expiresAt = some t → now < t) →
          TargetReads env (q.targetGeometry.getD []) latitude longitude system region := by
  obtain ⟨candidate, hcandidate⟩ : ∃ p : Id → Prop, p = fun id => ∃ q,
      db.questions.get id = some q ∧ ((∀ t, q.expiresAt = some t → now < t) →
        TargetReads env (q.targetGeometry.getD []) latitude longitude system region) := ⟨_, rfl⟩
  unfold matchingQuestions
  rw [completes_foldlM (p := candidate)]
  · simp only [mem_newestFirst, Table.mem_select, hcandidate, Bool.and_eq_true, decide_eq_true_eq]
    constructor
    · intro h id q hq hincident hstatus hopen
      obtain ⟨q', hq', hreads⟩ := h id ⟨q, hq, hincident, hstatus⟩
      cases hq.symm.trans hq'
      exact hreads hopen
    · rintro h id ⟨q, hq, hincident, hstatus⟩
      exact ⟨q, hq, h id q hq hincident hstatus⟩
  · intro result id
    rw [hcandidate]
    beta_reduce
    cases hq : db.questions.get id with
    | none => simp [found, bind, Except.bind]
    | some q =>
      have hitem : (∃ q', some q = some q' ∧
          ((∀ t, q'.expiresAt = some t → now < t) → TargetReads env (q'.targetGeometry.getD [])
            latitude longitude system region)) ↔
          ((∀ t, q.expiresAt = some t → now < t) → TargetReads env (q.targetGeometry.getD [])
            latitude longitude system region) := by
        simp
      rw [hitem, ← targetMatches_completes]
      simp only [found, bind, Except.bind]
      by_cases hexpired : (q.expiresAt.any fun t => t ≤ now) = true
      · rw [if_pos hexpired]
        obtain ⟨t, ht, hpast⟩ := Option.any_eq_true _ _ |>.mp hexpired
        exact iff_of_true (completes_pure _) fun h => absurd (of_decide_eq_true hpast) (h t ht).not_ge
      · rw [if_neg hexpired]
        have hopen : ∀ t, q.expiresAt = some t → now < t := fun t ht => by
          simpa [ht] using hexpired
        rw [imp_iff_right hopen]
        cases targetMatches env q latitude longitude system region with
        | error e => simp
        | ok inside => cases inside <;> simp

/-- A target that can be read gives an answer to everybody, and one that cannot fails the whole list
of those who come to it. -/
theorem matching_completes_iff_readable (env : Env) :
    (∀ (q : DirectedQuestion) (latitude : Option Latitude) (longitude : Option Longitude)
        (system : Option CoordinateSystem) (region : Option String),
      (∃ b, targetMatches env q latitude longitude system region = .ok b) ↔
        TargetReads env (q.targetGeometry.getD []) latitude longitude system region) ∧
    ∀ (now : Time) (db : Db) (incidentId : Ref) (latitude : Option Latitude)
        (longitude : Option Longitude) (system : Option CoordinateSystem) (region : Option String),
      (∃ ids, matchingQuestions env now db incidentId latitude longitude system region = .ok ids) ↔
        ∀ id q, db.questions.get id = some q → .id q.incidentId = incidentId →
          q.status = .published → (∀ t, q.expiresAt = some t → now < t) →
            TargetReads env (q.targetGeometry.getD []) latitude longitude system region :=
  ⟨targetMatches_completes env, matchingQuestions_completes env⟩

end Reading
end Questions

namespace Sample
open Questions

/-- An operator asks about a blind spot and publishes the question. -/
def asked (payload : DirectedQuestionCreate) : List Op :=
  [⟨0, admin, none, .createBlindSpot (.id 0) roadSpot⟩,
    ⟨0, admin, none, .createQuestion (.id 0) payload⟩,
    ⟨1, admin, none, .publishQuestion 0 1⟩]

/-- The region codes are a number. -/
def numberedRegions : DirectedQuestionCreate :=
  { roadQuestion with targetGeometry := some [("region_codes", .num 5)] }

/-- One published question fails the list of every resident. -/
theorem numbered_regions_fail :
    ¬ (∀ (q : DirectedQuestion) (latitude : Option Latitude) (longitude : Option Longitude)
        (system : Option CoordinateSystem) (region : Option String),
      ∃ b, targetMatches env q latitude longitude system region = .ok b) ∧
    ¬ ∀ (payload : DirectedQuestionCreate) (now : Time) (latitude : Option Latitude)
        (longitude : Option Longitude) (system : Option CoordinateSystem) (region : Option String),
      ∃ ids, matchingQuestions env now (reached (asked payload)) (.id 0) latitude longitude system
        region = .ok ids := by
  constructor
  · intro h
    obtain ⟨b, hb⟩ := h (draftQuestion 0 0 admin numberedRegions) none none none none
    have hfails : (targetMatches env (draftQuestion 0 0 admin numberedRegions) none none none
        none).toOption = none := by decide +kernel
    rw [hb] at hfails
    cases hfails
  · intro h
    obtain ⟨ids, hids⟩ := h numberedRegions 2 none none none none
    have hfails : (matchingQuestions env 2 (reached (asked numberedRegions)) (.id 0) none none none
        none).toOption = none := by decide +kernel
    rw [hids] at hfails
    cases hfails

end Sample
end CrisisMosaic
