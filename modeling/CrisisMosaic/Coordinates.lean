import CrisisMosaic.Basic

/-!
# Coordinates

Latitudes and longitudes a row can hold are inside their legal range, so
`normalize` is total on them. Floating point is read as exact arithmetic, and
the transcendental functions of `math` are a parameter.
-/

namespace CrisisMosaic

inductive CoordinateSystem
  | wgs84
  | gcj02
  deriving DecidableEq

def CoordinateSystem.text : CoordinateSystem → String
  | .wgs84 => "wgs84"
  | .gcj02 => "gcj02"

abbrev Latitude := {q : ℚ // -90 ≤ q ∧ q ≤ 90}
abbrev Longitude := {q : ℚ // -180 ≤ q ∧ q ≤ 180}

structure MathLib where
  pi : ℚ
  sin : ℚ → ℚ
  cos : ℚ → ℚ
  asin : ℚ → ℚ
  sqrt : ℚ → ℚ

structure Point where
  latitude : ℚ
  longitude : ℚ
  deriving DecidableEq

structure NormalizedCoordinates where
  wgs84 : Point
  gcj02 : Point
  deriving DecidableEq

def NormalizedCoordinates.at (c : NormalizedCoordinates) : CoordinateSystem → Point
  | .wgs84 => c.wgs84
  | .gcj02 => c.gcj02

def validateCoordinates (latitude longitude : ℚ) : Result (Latitude × Longitude) :=
  if h : (-90 ≤ latitude ∧ latitude ≤ 90) ∧ (-180 ≤ longitude ∧ longitude ≤ 180) then
    .ok (⟨latitude, h.1⟩, ⟨longitude, h.2⟩)
  else .error (unprocessable "INVALID_COORDINATES" "经纬度超出合法范围")

def outsideChina (latitude longitude : ℚ) : Bool :=
  !(72.004 ≤ longitude && longitude ≤ 137.8347 && 0.8293 ≤ latitude && latitude ≤ 55.8271)

section Transform
variable (m : MathLib)

def semiMajorAxis : ℚ := 6378245
def eccentricitySquared : ℚ := 0.006693421622965943

def transformLatitude (x y : ℚ) : ℚ :=
  -100 + 2 * x + 3 * y + 0.2 * y * y + 0.1 * x * y
    + 0.2 * m.sqrt |x|
    + (20 * m.sin (6 * x * m.pi) + 20 * m.sin (2 * x * m.pi)) * 2 / 3
    + (20 * m.sin (y * m.pi) + 40 * m.sin (y / 3 * m.pi)) * 2 / 3
    + (160 * m.sin (y / 12 * m.pi) + 320 * m.sin (y * m.pi / 30)) * 2 / 3

def transformLongitude (x y : ℚ) : ℚ :=
  300 + x + 2 * y + 0.1 * x * x + 0.1 * x * y
    + 0.1 * m.sqrt |x|
    + (20 * m.sin (6 * x * m.pi) + 20 * m.sin (2 * x * m.pi)) * 2 / 3
    + (20 * m.sin (x * m.pi) + 40 * m.sin (x / 3 * m.pi)) * 2 / 3
    + (150 * m.sin (x / 12 * m.pi) + 300 * m.sin (x / 30 * m.pi)) * 2 / 3

def wgs84ToGcj02 (latitude longitude : ℚ) : Point :=
  if outsideChina latitude longitude then ⟨latitude, longitude⟩
  else
    let deltaLat := transformLatitude m (longitude - 105) (latitude - 35)
    let deltaLon := transformLongitude m (longitude - 105) (latitude - 35)
    let radLat := latitude / 180 * m.pi
    let magic := 1 - eccentricitySquared * m.sin radLat * m.sin radLat
    let sqrtMagic := m.sqrt magic
    ⟨latitude + deltaLat * 180 /
        ((semiMajorAxis * (1 - eccentricitySquared)) / (magic * sqrtMagic) * m.pi),
      longitude + deltaLon * 180 / (semiMajorAxis / sqrtMagic * m.cos radLat * m.pi)⟩

def gcj02ToWgs84 (latitude longitude : ℚ) : Point :=
  if outsideChina latitude longitude then ⟨latitude, longitude⟩
  else
    let gcj := wgs84ToGcj02 m latitude longitude
    ⟨latitude * 2 - gcj.latitude, longitude * 2 - gcj.longitude⟩

def normalize (latitude : Latitude) (longitude : Longitude) :
    CoordinateSystem → NormalizedCoordinates
  | .wgs84 => ⟨⟨latitude, longitude⟩, wgs84ToGcj02 m latitude longitude⟩
  | .gcj02 => ⟨gcj02ToWgs84 m latitude longitude, ⟨latitude, longitude⟩⟩

def radians (q : ℚ) : ℚ := q / 180 * m.pi

def haversineM (a b : Point) : ℚ :=
  let latA := radians m a.latitude
  let latB := radians m b.latitude
  let deltaLat := latB - latA
  let deltaLon := radians m (b.longitude - a.longitude)
  let value := m.sin (deltaLat / 2) ^ 2 + m.cos latA * m.cos latB * m.sin (deltaLon / 2) ^ 2
  2 * 6371000 * m.asin (m.sqrt value)

end Transform

/-- The location columns shared by reports, fragments, cases, blind spots and facts. -/
structure Place where
  locationText : String
  latitude : Option Latitude
  longitude : Option Longitude
  coordinateSystem : Option CoordinateSystem
  deriving DecidableEq

/-- The normalised position, when all three location columns are set. -/
def Place.position (m : MathLib) (p : Place) : Option NormalizedCoordinates :=
  match p.latitude, p.longitude, p.coordinateSystem with
  | some lat, some lon, some sys => some (normalize m lat lon sys)
  | _, _, _ => none

def Place.entries (p : Place) : Dict :=
  [("location_text", .str p.locationText),
    ("latitude", .opt (fun q : Latitude => .num q) p.latitude),
    ("longitude", .opt (fun q : Longitude => .num q) p.longitude),
    ("coordinate_system", .opt (fun s : CoordinateSystem => .str s.text) p.coordinateSystem)]

end CrisisMosaic
