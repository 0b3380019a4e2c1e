import CrisisMosaic.Text

/-!
# Numbers out of JSON data

`float(value)`: an integer of JSON data may be too large for one, and a text may
spell one, an infinity or no number.
-/

namespace CrisisMosaic

inductive FloatValue
  | finite (q : ℚ)
  | infinite (negative : Bool)
  | nan

namespace FloatValue

def finite? : FloatValue → Option ℚ
  | .finite q => some q
  | _ => none

/-- `x <= q` -/
def le : FloatValue → ℚ → Bool
  | .finite x, q => x ≤ q
  | .infinite negative, _ => negative
  | .nan, _ => false

/-- `q <= x` -/
def ge : FloatValue → ℚ → Bool
  | .finite x, q => q ≤ x
  | .infinite negative, _ => !negative
  | .nan, _ => false

/-- `q > x` -/
def lt : FloatValue → ℚ → Bool
  | .finite x, q => x < q
  | .infinite negative, _ => negative
  | .nan, _ => false

end FloatValue

/-- What `float` raises: `OverflowError`, or a `TypeError` or `ValueError`. -/
inductive FloatError
  | overflow
  | invalid
  deriving DecidableEq

/-- Magnitudes from here on round to none that a float has. -/
def floatBound : ℚ := 2 ^ 1024 - 2 ^ 970

section Reading
variable (lib : TextLib)

/-- Digits, with single underscores between them: their value, their number and the rest. -/
def readDigits (value count : ℕ) : List Char → ℕ × ℕ × List Char
  | [] => (value, count, [])
  | '_' :: c :: cs =>
      match (lib.digit c).filter fun _ => count ≠ 0 with
      | some d => readDigits (value * 10 + d) (count + 1) cs
      | none => (value, count, '_' :: c :: cs)
  | c :: cs =>
      match lib.digit c with
      | some d => readDigits (value * 10 + d) (count + 1) cs
      | none => (value, count, c :: cs)

def readSign : List Char → Bool × List Char
  | '-' :: cs => (true, cs)
  | '+' :: cs => (false, cs)
  | cs => (false, cs)

def readFraction : List Char → ℕ × ℕ × List Char
  | '.' :: cs => readDigits lib 0 0 cs
  | cs => (0, 0, cs)

/-- The exponent, which ends the text. -/
def readExponent : List Char → Option ℤ
  | [] => some 0
  | c :: cs =>
      let (negative, rest) := readSign cs
      match c.toLower, readDigits lib 0 0 rest with
      | 'e', (value, _ + 1, []) => some (if negative then -value else value)
      | _, _ => none

def readDecimal (cs : List Char) : Option ℚ :=
  let (whole, n, rest) := readDigits lib 0 0 cs
  let (fraction, k, rest) := readFraction lib rest
  if n + k = 0 then none
  else (readExponent lib rest).map fun e => (whole + fraction / 10 ^ k) * 10 ^ e

/-- A text keeps its sign when it is too large. -/
def floatText (s : String) : Option FloatValue :=
  let (negative, rest) := readSign (strip lib s.toList)
  let word := String.ofList (rest.map Char.toLower)
  if word = "inf" ∨ word = "infinity" then some (.infinite negative)
  else if word = "nan" then some .nan
  else (readDecimal lib rest).map fun q =>
    if floatBound ≤ q then .infinite negative else .finite (if negative then -q else q)

def floatOf : Json → Except FloatError FloatValue
  | .num q => if |q| < floatBound then .ok (.finite q) else .error .overflow
  | .bool b => .ok (.finite (if b then 1 else 0))
  | .str s => match floatText lib s with
    | some v => .ok v
    | none => .error .invalid
  | .null | .arr _ | .obj _ | .ref _ | .time _ => .error .invalid

end Reading
end CrisisMosaic
