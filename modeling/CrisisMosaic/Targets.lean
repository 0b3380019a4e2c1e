import CrisisMosaic.FloatText
import CrisisMosaic.Questions

/-!
# Whom a question is for

`target_matches`: the target of a question is JSON data as an operator sent it. What is not of the
form that is asked for raises an exception, or excludes everybody.
-/

namespace CrisisMosaic.Questions
open Relational

/-- Half a position is none. -/
def givenPoint (latitude : Option Latitude) (longitude : Option Longitude) : Option Point :=
  match latitude, longitude with
  | some lat, some lon => some ⟨lat, lon⟩
  | _, _ => none

section Positions
variable (env : Env)

def parseSystem (text : String) : Result CoordinateSystem :=
  if text.toLower = "wgs84" then pure .wgs84
  else if text.toLower = "gcj02" then pure .gcj02
  else throw (unprocessable "UNSUPPORTED_COORDINATE_SYSTEM" "coordinate_system 仅支持 wgs84 或 gcj02")

def normalizeRaw (p : Point) (system : String) : Result NormalizedCoordinates := do
  let (lat, lon) ← validateCoordinates p.latitude p.longitude
  let sys ← parseSystem system
  pure (normalize env.math lat lon sys)

/-- No comparison with an infinity or with no number finds it in range. -/
def normalizeFloats (latitude longitude : FloatValue) (system : String) :
    Result NormalizedCoordinates :=
  match latitude.finite?, longitude.finite? with
  | some lat, some lon => normalizeRaw env ⟨lat, lon⟩ system
  | _, _ => throw (unprocessable "INVALID_COORDINATES" "经纬度超出合法范围")

end Positions

section Target
variable (env : Env)

/-- The entry, unless it is false to a condition. -/
def truthyEntry (d : Dict) (key : String) : Option Json := (d.get key).filter isTruthy

/-- `region_code in value`, where that can be asked. -/
def searchRegion (regionCode : Option String) : Json → Option Bool
  | .arr codes => some (codes.any fun c => regionCode.elim (!isPresent c) (Json.isStr · c))
  | .str s => regionCode.map fun r => decide (r.toList <:+: s.toList)
  | .obj d => some (regionCode.any fun r => d.any fun entry => entry.1 = r)
  | .ref _ | .time _ => regionCode.map fun _ => false
  | _ => none

def regionTest (geometry : Dict) (regionCode : Option String) : Result Bool :=
  match truthyEntry geometry "region_codes" with
  | none => pure true
  | some codes => found (searchRegion regionCode codes) internalError

/-- What an iteration goes through. The text of an identifier or of a time is not four long. -/
def iterated : Json → Option (List Json)
  | .arr items => some items
  | .str s => some (s.toList.map fun c => .str (String.singleton c))
  | .obj d => some (d.map fun entry => .str entry.1)
  | .ref _ | .time _ => some []
  | _ => none

/-- The system of the target, or the one of the request. -/
def targetSystem (geometry : Dict) (system : Option CoordinateSystem) : Option CoordinateSystem :=
  match truthyEntry geometry "coordinate_system" with
  | none => system
  | some (.str "wgs84") => some .wgs84
  | some (.str "gcj02") => some .gcj02
  | some _ => none

/-- The position the box is compared with, in the system of the target. -/
def boxPoint (geometry : Dict) (p : Point) (system : Option CoordinateSystem) : Result Point :=
  match system, targetSystem geometry system with
  | some sys, some target => (·.at target) <$> normalizeRaw env p sys.text
  | _, _ => pure p

def inBox (p : Point) : List FloatValue → Bool
  | [west, south, east, north] =>
      (west.le p.longitude && east.ge p.longitude) && (south.le p.latitude && north.ge p.latitude)
  | _ => false

/-- The position as the box leaves it, if it is inside. -/
def boxTest (geometry : Dict) (p : Point) (system : Option CoordinateSystem) (box : Json) :
    Result (Option Point) := do
  let values ← found (iterated box) internalError
  if values.length ≠ 4 then pure none
  else do
    let p ← boxPoint env geometry p system
    let bounds ← found (values.mapM fun v => (floatOf env.text v).toOption) internalError
    pure (if inBox p bounds then some p else none)

/-- `center`, or the coordinates of a GeoJSON point. -/
def targetCenter (geometry : Dict) : Option Json :=
  match (geometry.get "center").filter isPresent with
  | some c => some c
  | none =>
      match geometry.get "type", geometry.get "coordinates" with
      | some (.str "Point"), some (.arr (lon :: lat :: _)) => some (.obj
          [("longitude", lon), ("latitude", lat),
            ("coordinate_system", (geometry.get "coordinate_system").getD .null)])
      | _, _ => none

/-- `str(value)` -/
def systemText : Json → String
  | .str s => s
  | v => env.str v

def centerSystem (geometry center : Dict) (system : CoordinateSystem) : String :=
  match (truthyEntry center "coordinate_system").or (truthyEntry geometry "coordinate_system") with
  | some v => systemText env v
  | none => system.text

/-- A missing key and what is no number end the test, a number that is too large is not caught. -/
def attempt (value : Option Json) (next : FloatValue → Result Bool) : Result Bool :=
  match value.map (floatOf env.text) with
  | some (.ok v) => next v
  | some (.error .overflow) => throw internalError
  | some (.error .invalid) | none => pure false

def circleContains (geometry : Dict) (p : Point) (system : CoordinateSystem) (center : Dict)
    (radius : Json) : Result Bool :=
  attempt env (center.get "latitude") fun lat =>
  attempt env (center.get "longitude") fun lon => do
    let point ← normalizeRaw env p system.text
    let target ← normalizeFloats env lat lon (centerSystem env geometry center system)
    attempt env (some radius) fun r =>
      pure (!r.lt (haversineM env.math point.wgs84 target.wgs84))

def circleTest (geometry : Dict) (p : Option Point) (system : Option CoordinateSystem) :
    Result Bool :=
  match targetCenter geometry, (geometry.get "radius_m").filter isPresent with
  | none, none => pure true
  | some (.obj center), some radius =>
      match p, system with
      | some p, some sys => circleContains env geometry p sys center radius
      | _, _ => pure false
  | _, _ => pure false

/-- Inside the regions, then the box, then the circle. The circle is tested with the point the box
left, under the system the request gave. -/
def targetMatches (q : DirectedQuestion) (latitude : Option Latitude) (longitude : Option Longitude)
    (system : Option CoordinateSystem) (regionCode : Option String) : Result Bool := do
  let geometry := q.targetGeometry.getD []
  if !(← regionTest geometry regionCode) then pure false
  else
    match truthyEntry geometry "bbox", givenPoint latitude longitude with
    | none, p => circleTest env geometry p system
    | some _, none => pure false
    | some box, some p => do
        match ← boxTest env geometry p system box with
        | none => pure false
        | some p => circleTest env geometry (some p) system

end Target
end CrisisMosaic.Questions
