import CrisisMosaic.QuestionTargets

/-!
# The three tests of a target

A target that is well formed asks for a region, a box and a circle. Each is a test of the position
the resident gives; the code tests the circle with the position the box has converted.
-/

namespace CrisisMosaic
namespace Questions
open Relational

structure Box where
  west : ℚ
  south : ℚ
  east : ℚ
  north : ℚ
  bounded : ∀ q ∈ [west, south, east, north], |q| < floatBound

structure Circle where
  latitude : Latitude
  longitude : Longitude
  system : Option CoordinateSystem
  radius : ℚ
  bounded : |radius| < floatBound

/-- A box is given in a declared coordinate system; without region codes every region is meant. -/
structure Target where
  regions : List String
  system : Option CoordinateSystem
  box : Option Box
  circle : Option Circle
  declared : box.isSome = true → system.isSome = true

def Box.json (b : Box) : Json := .arr [.num b.west, .num b.south, .num b.east, .num b.north]

/-- The entries of a centre. -/
structure Circle.Centre (c : Circle) (center : Dict) : Prop where
  latitude : center.get "latitude" = some (.num c.latitude)
  longitude : center.get "longitude" = some (.num c.longitude)
  system : truthyEntry center "coordinate_system" = c.system.map fun s => .str s.text

/-- The JSON data of the target; the centre may be a GeoJSON point. -/
structure Target.Written (t : Target) (geometry : Dict) : Prop where
  regions : geometry.get "region_codes" = none ∧ t.regions = [] ∨
    geometry.get "region_codes" = some (.arr (t.regions.map .str))
  system : truthyEntry geometry "coordinate_system" = t.system.map fun s => .str s.text
  box : geometry.get "bbox" = t.box.map Box.json
  center : t.circle = none ∧ targetCenter geometry = none ∨
    ∃ c center, t.circle = some c ∧ targetCenter geometry = some (.obj center) ∧ c.Centre center
  radius : geometry.get "radius_m" = t.circle.map fun c => .num c.radius

namespace Target
variable (m : MathLib) (t : Target) (latitude : Latitude) (longitude : Longitude)
  (system : CoordinateSystem)

def inRegion (region : Option String) : Bool :=
  t.regions.isEmpty || t.regions.any fun code => region = some code

/-- The position in the system of the target. -/
def converted : Point := (normalize m latitude longitude system).at (t.system.getD system)

def inBox : Bool := t.box.all fun b =>
  let p := t.converted m latitude longitude system
  (b.west ≤ p.longitude && p.longitude ≤ b.east) && (b.south ≤ p.latitude && p.latitude ≤ b.north)

/-- The centre in its own system, or the target's, or the one of the position. -/
def centre (c : Circle) : NormalizedCoordinates :=
  normalize m c.latitude c.longitude ((c.system.or t.system).getD system)

def withinCircle (c : Circle) : Bool :=
  haversineM m (normalize m latitude longitude system).wgs84 (t.centre m system c).wgs84 ≤ c.radius

def inCircle : Bool := t.circle.all (t.withinCircle m latitude longitude system)

/-- The position in the system of the target, read in its own, is legal and on the same side of the
circle as the position itself. -/
def SameSide (c : Circle) : Prop :=
  ∃ lat lon, validateCoordinates (t.converted m latitude longitude system).latitude
      (t.converted m latitude longitude system).longitude = .ok (lat, lon) ∧
    t.withinCircle m lat lon system c = t.withinCircle m latitude longitude system c

end Target

section Tests
variable {env : Env} {t : Target} {geometry : Dict} {region : Option String} {latitude : Latitude}
  {longitude : Longitude} {system : CoordinateSystem}

theorem validateCoordinates_legal (latitude : Latitude) (longitude : Longitude) :
    validateCoordinates latitude longitude = .ok (latitude, longitude) := by
  rw [validateCoordinates, dif_pos ⟨latitude.2, longitude.2⟩]

theorem parseSystem_text (system : CoordinateSystem) : parseSystem system.text = .ok system := by
  have hnames : "wgs84".toLower = "wgs84" ∧ "gcj02".toLower = "gcj02" := by decide +kernel
  unfold parseSystem
  cases system with
  | wgs84 => rw [CoordinateSystem.text, if_pos hnames.1]; rfl
  | gcj02 => rw [CoordinateSystem.text, if_neg (by rw [hnames.2]; decide), if_pos hnames.2]; rfl

theorem normalizeRaw_eq (env : Env) (p : Point) (system : CoordinateSystem) :
    normalizeRaw env p system.text = (validateCoordinates p.latitude p.longitude).map fun c =>
      normalize env.math c.1 c.2 system := by
  rw [normalizeRaw]
  cases validateCoordinates p.latitude p.longitude with
  | error e => rfl
  | ok c =>
    simp only [bind, Except.bind, parseSystem_text]
    rfl

theorem floatOf_num {text : TextLib} {q : ℚ} (h : |q| < floatBound) :
    floatOf text (.num q) = .ok (.finite q) := by
  rw [floatOf, if_pos h]

theorem lt_floatBound {q : ℚ} (h : -180 ≤ q ∧ q ≤ 180) : |q| < floatBound := by
  have hbound : (180 : ℚ) < floatBound := by decide +kernel
  exact (abs_le.mpr ⟨by linarith [h.1], h.2⟩).trans_lt hbound

theorem regionTest_written (h : t.Written geometry) :
    regionTest geometry region = .ok (t.inRegion region) := by
  unfold regionTest truthyEntry Target.inRegion
  rcases h.regions with ⟨hnone, hnil⟩ | hcodes
  · rw [hnone, hnil]
    rfl
  · rw [hcodes]
    cases hempty : t.regions with
    | nil => rfl
    | cons code codes =>
      have hsame : ((code :: codes).map Json.str).any
            (fun c => region.elim (!isPresent c) (Json.isStr · c)) =
          (code :: codes).any fun c => region = some c := by
        rw [List.any_map]
        congr 1
        funext c
        cases region with
        | none => rfl
        | some r => simp [Json.isStr, eq_comm]
      change found (some _) internalError = _
      rw [hsame]
      rfl

theorem boxPoint_written (h : t.Written geometry) :
    boxPoint env geometry ⟨latitude, longitude⟩ (some system) =
      .ok (t.converted env.math latitude longitude system) := by
  have htarget : targetSystem geometry (some system) = some (t.system.getD system) := by
    unfold targetSystem
    rw [h.system]
    cases t.system with
    | none => rfl
    | some declared => cases declared <;> rfl
  unfold boxPoint
  rw [htarget]
  dsimp only
  rw [normalizeRaw_eq, validateCoordinates_legal]
  rfl

theorem boxTest_written (h : t.Written geometry) (b : Box) (hbox : t.box = some b) :
    boxTest env geometry ⟨latitude, longitude⟩ (some system) b.json =
      .ok (if t.inBox env.math latitude longitude system then
        some (t.converted env.math latitude longitude system) else none) := by
  have hbounds : [Json.num b.west, .num b.south, .num b.east, .num b.north].mapM
      (fun v => (floatOf env.text v).toOption) =
        some [.finite b.west, .finite b.south, .finite b.east, .finite b.north] := by
    have hfloat := fun q hq => @floatOf_num env.text q (b.bounded q hq)
    simp [hfloat b.west (by simp), hfloat b.south (by simp), hfloat b.east (by simp),
      hfloat b.north (by simp), Except.toOption]
  unfold boxTest Target.inBox
  rw [hbox, Option.all_some, boxPoint_written h]
  simp only [Box.json, iterated, found, bind, Except.bind, List.length_cons, List.length_nil,
    hbounds]
  rfl

theorem circleTest_written (h : t.Written geometry) (p : Point) :
    circleTest env geometry (some p) (some system) =
      match t.circle with
      | none => .ok true
      | some c => (validateCoordinates p.latitude p.longitude).map fun q =>
          t.withinCircle env.math q.1 q.2 system c := by
  unfold circleTest
  rw [h.radius]
  rcases h.center with ⟨hnone, hcenter⟩ | ⟨c, center, hcircle, hcenter, hc⟩
  · rw [hnone, hcenter]
    rfl
  · rw [hcircle, hcenter]
    have hsystem : centerSystem env geometry center system =
        ((c.system.or t.system).getD system).text := by
      unfold centerSystem
      rw [hc.system, h.system]
      cases c.system with
      | some s => rfl
      | none => cases t.system <;> rfl
    have hlatitude : |c.latitude.1| < floatBound :=
      lt_floatBound ⟨by linarith [c.latitude.2.1], by linarith [c.latitude.2.2]⟩
    simp only [Option.map_some, Option.filter_some, isPresent, if_true, circleContains, attempt,
      hc.latitude, hc.longitude, floatOf_num hlatitude, floatOf_num (lt_floatBound c.longitude.2),
      floatOf_num c.bounded, normalizeFloats, FloatValue.finite?, hsystem, normalizeRaw_eq,
      validateCoordinates_legal]
    cases validateCoordinates p.latitude p.longitude with
    | error e => rfl
    | ok q =>
      simp only [Except.map, bind, Except.bind, FloatValue.lt, Target.withinCircle, Target.centre]
      simp [pure, Except.pure, ← not_lt]

/-- What the code computes: the circle is tested with the position the box has converted. -/
theorem targetMatches_written (q : DirectedQuestion) (h : t.Written (q.targetGeometry.getD [])) :
    targetMatches env q (some latitude) (some longitude) (some system) region =
      if !t.inRegion region || !t.inBox env.math latitude longitude system then .ok false
      else
        let p := if t.box.isSome then t.converted env.math latitude longitude system
          else ⟨latitude, longitude⟩
        match t.circle with
        | none => .ok true
        | some c => (validateCoordinates p.latitude p.longitude).map fun r =>
            t.withinCircle env.math r.1 r.2 system c := by
  obtain ⟨geometry, hgeometry⟩ : ∃ g, g = q.targetGeometry.getD [] := ⟨_, rfl⟩
  rw [← hgeometry] at h
  have hbox : truthyEntry geometry "bbox" = t.box.map Box.json := by
    rw [truthyEntry, h.box]
    cases t.box <;> rfl
  unfold targetMatches
  simp only [← hgeometry, regionTest_written h, hbox, givenPoint, bind, Except.bind]
  by_cases hregion : t.inRegion region = true
  · cases hb : t.box with
    | none =>
      have hin : t.inBox env.math latitude longitude system = true := by
        rw [Target.inBox, hb]
        rfl
      simp only [hregion, hin, Option.map_none, circleTest_written h, Option.isSome_none]
      rfl
    | some b =>
      simp only [hregion, Option.map_some, boxTest_written h b hb, Option.isSome_some]
      by_cases hin : t.inBox env.math latitude longitude system = true
      · simp only [hin, circleTest_written h]
        rfl
      · simp only [hin, pure, Except.pure]
        rfl
  · simp only [hregion]
    rfl

/-- A position that is given in the target's own system is not moved. -/
theorem sameSide_of_system {m : MathLib} (hsystem : t.system.getD system = system) (c : Circle) :
    t.SameSide m latitude longitude system c := by
  have hsame : t.converted m latitude longitude system = ⟨latitude, longitude⟩ := by
    rw [Target.converted, hsystem]
    cases system <;> rfl
  refine ⟨latitude, longitude, ?_, rfl⟩
  rw [hsame]
  exact validateCoordinates_legal latitude longitude

/-- The outcome is the conjunction exactly where the conversion for the box does not matter to the
circle. -/
theorem targetMatches_conjunction_iff (env : Env) (q : DirectedQuestion) (t : Target)
    (latitude : Latitude) (longitude : Longitude) (system : CoordinateSystem)
    (region : Option String) (h : t.Written (q.targetGeometry.getD [])) :
    targetMatches env q (some latitude) (some longitude) (some system) region =
        .ok (t.inRegion region && t.inBox env.math latitude longitude system &&
          t.inCircle env.math latitude longitude system) ↔
      (t.inRegion region = true → t.box.isSome = true →
        t.inBox env.math latitude longitude system = true →
          ∀ c, t.circle = some c → t.SameSide env.math latitude longitude system c) := by
  rw [targetMatches_written q h]
  by_cases hregion : t.inRegion region = true
  · by_cases hin : t.inBox env.math latitude longitude system = true
    · simp only [hregion, hin, Bool.not_true, Bool.or_self, Bool.false_eq_true, if_false,
        Bool.true_and, true_implies, Target.inCircle]
      cases hcircle : t.circle with
      | none => simp
      | some c =>
        by_cases hbox : t.box.isSome = true
        · simp only [hbox, if_true, Option.all_some, Option.some.injEq, forall_eq', true_implies]
          refine map_ok.trans ⟨?_, ?_⟩
          · rintro ⟨⟨lat, lon⟩, hvalid, hside⟩
            exact ⟨lat, lon, hvalid, hside⟩
          · rintro ⟨lat, lon, hvalid, hside⟩
            exact ⟨(lat, lon), hvalid, hside⟩
        · simp [hbox, validateCoordinates_legal, Except.map]
    · simp [hregion, hin]
  · simp [hregion]

end Tests
end Questions

namespace Sample
open Questions

/-- Series that are exact enough for small angles, and a root to twelve digits. -/
def series : MathLib where
  pi := 3.141592653589793
  sin x := x - x ^ 3 / 6 + x ^ 5 / 120 - x ^ 7 / 5040
  cos x := 1 - x ^ 2 / 2 + x ^ 4 / 24 - x ^ 6 / 720
  asin x := x + x ^ 3 / 6
  sqrt q := (List.range 48).foldr (fun bit r =>
    if (r + 2 ^ bit) ^ 2 ≤ ⌊q * 10 ^ 24⌋.toNat then r + 2 ^ bit else r) 0 / 10 ^ 12

def latitude : Latitude := ⟨35, by norm_num⟩
def longitude : Longitude := ⟨105, by norm_num⟩

/-- A box in GCJ-02, and a hundred metres around a centre in WGS-84. -/
def boxedCircle : Target where
  regions := []
  system := some .gcj02
  box := some ⟨104, 34, 106, 36, by
    have hbound : (106 : ℚ) < floatBound := by decide +kernel
    simp only [List.forall_mem_cons]
    refine ⟨?_, ?_, ?_, ?_, nofun⟩ <;> refine lt_of_le_of_lt ?_ hbound <;> norm_num⟩
  circle := some ⟨latitude, longitude, some .wgs84, 100, by decide +kernel⟩
  declared _ := rfl

def boxedCircleGeometry : Dict :=
  [("bbox", .arr [.num 104, .num 34, .num 106, .num 36]), ("coordinate_system", .str "gcj02"),
    ("center", .obj [("latitude", .num 35), ("longitude", .num 105),
      ("coordinate_system", .str "wgs84")]), ("radius_m", .num 100)]

theorem boxedCircle_written : boxedCircle.Written boxedCircleGeometry where
  regions := .inl ⟨rfl, rfl⟩
  system := rfl
  box := rfl
  center := .inr ⟨_, _, rfl, rfl, rfl, rfl, rfl⟩
  radius := rfl

def boxedQuestion : DirectedQuestion :=
  { incidentId := 0
    blindSpotId := 0
    title := "t"
    locationText := "l"
    targetGeometry := some boxedCircleGeometry
    routeImpactCount := 0
    options := []
    status := .published
    expiresAt := none
    createdBy := 0
    revision := 2
    createdAt := 0
    updatedAt := 0 }

def seriesEnv : Env := { env with math := series }

/-- The position is the centre, and in the box; its coordinates in GCJ-02, read in WGS-84, are some
three hundred metres away. -/
theorem box_moves_position :
    ¬ ∀ (env : Env) (q : DirectedQuestion) (t : Target) (latitude : Latitude)
        (longitude : Longitude) (system : CoordinateSystem) (region : Option String),
      t.Written (q.targetGeometry.getD []) →
        targetMatches env q (some latitude) (some longitude) (some system) region =
          .ok (t.inRegion region && t.inBox env.math latitude longitude system &&
            t.inCircle env.math latitude longitude system) := by
  intro h
  have hmatches := h seriesEnv boxedQuestion boxedCircle latitude longitude .wgs84 none
    boxedCircle_written
  have hconjunction : (boxedCircle.inRegion none &&
      boxedCircle.inBox seriesEnv.math latitude longitude .wgs84 &&
      boxedCircle.inCircle seriesEnv.math latitude longitude .wgs84) = true := by decide +kernel
  have houtside : (targetMatches seriesEnv boxedQuestion (some latitude) (some longitude)
      (some .wgs84) none).toOption = some false := by decide +kernel
  rw [hmatches, hconjunction] at houtside
  cases houtside

/-- The same position in the system of the box. -/
theorem boxed_conjunction :
    targetMatches seriesEnv boxedQuestion (some latitude) (some longitude) (some .gcj02) none =
      .ok (boxedCircle.inRegion none && boxedCircle.inBox seriesEnv.math latitude longitude .gcj02 &&
        boxedCircle.inCircle seriesEnv.math latitude longitude .gcj02) :=
  (targetMatches_conjunction_iff seriesEnv boxedQuestion boxedCircle latitude longitude .gcj02 none
    boxedCircle_written).mpr fun _ _ _ c _ => sameSide_of_system rfl c

end Sample
end CrisisMosaic
