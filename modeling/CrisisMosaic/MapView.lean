import CrisisMosaic.Access

/-!
# The map

`map_view` selects the projected features of a query and shows a resident the
positions of other residents' reports, and of what was derived from reports,
rounded to a thousandth of a degree.
-/

namespace CrisisMosaic
open Relational

inductive MapLayer
  | reports | fragments | conflicts | blindSpots | facts
  deriving DecidableEq

def MapLayer.kind : MapLayer → FeatureKind
  | .reports => .report | .fragments => .fragment | .conflicts => .conflict
  | .blindSpots => .blindSpot | .facts => .fact

def MapLayer.all : List MapLayer := [.reports, .fragments, .conflicts, .blindSpots, .facts]

def MapLayer.ofText : String → Option MapLayer
  | "reports" => some .reports | "fragments" => some .fragments | "conflicts" => some .conflicts
  | "blind_spots" => some .blindSpots | "facts" => some .facts | _ => none

structure BoundingBox where
  minLongitude : ℚ
  minLatitude : ℚ
  maxLongitude : ℚ
  maxLatitude : ℚ
  longitudes : -180 ≤ minLongitude ∧ minLongitude < maxLongitude ∧ maxLongitude ≤ 180
  latitudes : -90 ≤ minLatitude ∧ minLatitude < maxLatitude ∧ maxLatitude ≤ 90

namespace BoundingBox

def area (b : BoundingBox) : ℚ := (b.maxLongitude - b.minLongitude) * (b.maxLatitude - b.minLatitude)

def contains (b : BoundingBox) (p : Point) : Bool :=
  decide (b.minLongitude ≤ p.longitude ∧ p.longitude ≤ b.maxLongitude) &&
    decide (b.minLatitude ≤ p.latitude ∧ p.latitude ≤ b.maxLatitude)

end BoundingBox

/-- The query string: the parts of `bbox`, each a number or not one, and the names in `layers`. -/
structure MapQuery where
  bbox : Option (List (Option ℚ))
  coordinateSystem : String
  zoom : Option ℚ
  layers : Option (List String)
  updatedAfter : Option Time

def invalidBbox : ApiError :=
  unprocessable "INVALID_BBOX" "bbox must be min_longitude,min_latitude,max_longitude,max_latitude"

def parseBbox : Option (List (Option ℚ)) → Result (Option BoundingBox)
  | none => pure none
  | some [some west, some south, some east, some north] =>
      if h : (-180 ≤ west ∧ west < east ∧ east ≤ 180) ∧ -90 ≤ south ∧ south < north ∧ north ≤ 90 then
        pure (some ⟨west, south, east, north, h.1, h.2⟩)
      else throw invalidBbox
  | some _ => throw invalidBbox

def parseLayers : Option (List String) → Result (List MapLayer)
  | none => pure MapLayer.all
  | some names => do
      let invalid := (names.filter fun s => (MapLayer.ofText s).isNone).dedup.insertionSort (· ≤ ·)
      require (invalid = [] ∧ names ≠ [])
        ⟨422, "INVALID_MAP_LAYERS", "layers contains unsupported values",
          [("invalid", .arr (invalid.map .str))]⟩
      pure (names.filterMap MapLayer.ofText)

def parseMapSystem : String → Result CoordinateSystem
  | "wgs84" => pure .wgs84
  | "gcj02" => pure .gcj02
  | _ => throw (unprocessable "UNSUPPORTED_COORDINATE_SYSTEM"
      "coordinate_system must be wgs84 or gcj02")

/-- A query that may be answered. -/
structure MapScope where
  incidentId : Id
  incident : Incident
  system : CoordinateSystem
  zoom : Option ℚ
  bbox : Option BoundingBox
  layers : List MapLayer
  updatedAfter : Option Time

def tooLarge (message : String) (details : Dict) : ApiError :=
  ⟨422, "MAP_VIEW_TOO_LARGE", message, details⟩

/-- Everything `map_view` checks before it reads a feature. -/
def mapScope (settings : Settings) (incidents : Table Incident) (actor : Actor)
    (header : Option Ref) (incidentId : Ref) (q : MapQuery) : Result MapScope := do
  let system ← parseMapSystem q.coordinateSystem
  require (q.zoom.all fun z => 1 ≤ z && z ≤ 22)
    (unprocessable "INVALID_ZOOM" "zoom must be between 1 and 22")
  let bbox ← parseBbox q.bbox
  let layers ← parseLayers q.layers
  let (id, incident) ← getIncident incidents incidentId
  assertIncidentAccess actor id incident header
  require (bbox.all fun b => b.area ≤ settings.mapMaxBboxAreaDegrees)
    (tooLarge "map view bbox is too large; narrow the requested area"
      [("bbox_area_degrees", .opt (fun b : BoundingBox => .num b.area) bbox),
        ("max_bbox_area_degrees", .num settings.mapMaxBboxAreaDegrees)])
  pure ⟨id, incident, system, q.zoom, bbox, layers, q.updatedAfter⟩

section Visibility

/-- Python's `round(value)` on a value read as exact: to nearest, ties to even. -/
def roundHalfEven (q : ℚ) : ℤ :=
  if q - ⌊q⌋ < 1 / 2 then ⌊q⌋
  else if 1 / 2 < q - ⌊q⌋ then ⌊q⌋ + 1
  else if ⌊q⌋ % 2 = 0 then ⌊q⌋ else ⌊q⌋ + 1

/-- `round(value, 3)` -/
def round3 (q : ℚ) : ℚ := roundHalfEven (q * 1000) / 1000

def Point.round3 (p : Point) : Point := ⟨CrisisMosaic.round3 p.latitude, CrisisMosaic.round3 p.longitude⟩

def isOwnerReport (f : MapFeature) (actor : Actor) : Bool :=
  actor.isResident && f.kind = .report &&
    (f.privateData.get "owner_device_id").any (Json.isRef actor.subjectId)

def isResidentReportDerived (f : MapFeature) : Bool :=
  (f.kind = .conflict || f.kind = .blindSpot) &&
    (f.privateData.get "resident_report_derived").any Json.isTrue

/-- The actor sees where the feature really is. -/
def seesExactly (f : MapFeature) (actor : Actor) : Bool :=
  !actor.isResident ||
    (if f.kind = .report then isOwnerReport f actor else !isResidentReportDerived f)

def residentPosition (f : MapFeature) (actor : Actor) (p : Point) : Point × String :=
  if seesExactly f actor then (p, "exact") else (p.round3, "fuzzy_100m")

def publicMapFields : List String :=
  ["category", "is_urgent", "priority", "location_text", "topic", "confidence", "count",
    "dominant_status", "statement", "fact_key", "route_impact_count"]

def visibleData (f : MapFeature) (actor : Actor) : Dict :=
  let data := if actor.isResident then f.publicData else Dict.merge f.publicData f.privateData
  let data := if actor.isResident && !seesExactly f actor then
    data.filter fun e => e.1 ≠ "location_text" else data
  data.filter fun e => publicMapFields.contains e.1

def shownTitle (f : MapFeature) (actor : Actor) : String :=
  if actor.isResident && f.kind = .report && !seesExactly f actor then "现场上报位置已模糊化"
  else if actor.isResident && isResidentReportDerived f then
    if f.kind = .conflict then "现场信息冲突" else "现场信息盲区"
  else f.title

def mapItem (f : MapFeature) (actor : Actor) (p : Point) : Dict :=
  let (shown, precision) := residentPosition f actor p
  [("id", .str (f.kind.text ++ ":" ++ toString f.sourceRef)), ("kind", .str f.kind.text),
    ("position", .obj [("latitude", .num shown.latitude), ("longitude", .num shown.longitude)]),
    ("position_precision", .str precision), ("title", .str (shownTitle f actor)),
    ("status", .str f.status.text), ("severity", .str f.severity.text),
    ("source_ref", .ref f.sourceRef), ("revision", .nat f.revision),
    ("updated_at", .time f.updatedAt)] ++ visibleData f actor

end Visibility

section Select
variable (scope : MapScope) (actor : Actor)

/-- The filters that do not look at the position. -/
def isRequested (f : MapFeature) : Bool :=
  f.incidentId = scope.incidentId && (scope.layers.map (·.kind)).contains f.kind && !f.isDeleted &&
    scope.updatedAfter.all (fun t => t < f.updatedAt) &&
    (!scope.layers.contains .facts || f.kind ≠ .fact || f.status = .fact .current ||
      f.status = .fact .underReview) &&
    (!actor.isResident || f.kind ≠ .fact || !f.publicData.isEmpty)

def inView (f : MapFeature) : Bool :=
  f.position.any fun c => scope.bbox.all fun b => b.contains (c.at scope.system)

def isSelected (f : MapFeature) : Bool := isRequested scope actor f && inView scope f

def recentFirst (features : Table MapFeature) (ids : List Id) : List Id :=
  ids.insertionSort fun i j =>
    let time (k : Id) : Time := (features.get k).elim 0 (·.updatedAt)
    time j < time i ∨ time j = time i ∧ j ≤ i

def selectedFeatures (features : Table MapFeature) : List MapFeature :=
  (recentFirst features (features.select (isSelected scope actor))).filterMap features.get

end Select

structure MapResponse where
  incidentId : Id
  coordinateSystem : CoordinateSystem
  revision : ℕ
  center : Point
  zoom : ℚ
  items : List Dict

def mapItems (scope : MapScope) (actor : Actor) (selected : List MapFeature) : List Dict :=
  selected.filterMap fun f => f.position.map fun c => mapItem f actor (c.at scope.system)

/-- The answer to a query, from the features it selects. -/
def respond (env : Env) (scope : MapScope) (actor : Actor) (selected : List MapFeature) :
    Result MapResponse := do
  let limit := min env.settings.mapMaxPoints 500
  require (selected.length ≤ limit)
    (tooLarge ("map view contains more than " ++ toString limit ++
      " exact points; narrow the bbox or layers") [("max_points", .nat limit)])
  let (lat, lon) ← validateCoordinates
    (scope.incident.centerLatitude.getD env.settings.mapDefaultLatitude)
    (scope.incident.centerLongitude.getD env.settings.mapDefaultLongitude)
  let center := normalize env.math lat lon scope.incident.mapCoordinateSystem
  pure
    { incidentId := scope.incidentId
      coordinateSystem := scope.system
      revision := scope.incident.mapRevision
      center := center.at scope.system
      zoom := scope.zoom.getD scope.incident.mapDefaultZoom
      items := mapItems scope actor selected }

def mapView (env : Env) (incidents : Table Incident) (features : Table MapFeature) (actor : Actor)
    (header : Option Ref) (incidentId : Ref) (q : MapQuery) : Result MapResponse := do
  let scope ← mapScope env.settings incidents actor header incidentId q
  respond env scope actor (selectedFeatures scope actor features)

end CrisisMosaic
