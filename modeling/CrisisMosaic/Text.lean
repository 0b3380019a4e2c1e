import CrisisMosaic.Basic

/-!
# Text

Case folding and the character classes of Unicode are a parameter. Patterns are
the fragment of `re` the source uses: `ends` lists the ends of a match in the
order a backtracking matcher tries them, so its head is the match `re` takes.
-/

namespace CrisisMosaic

structure TextLib where
  casefold : Char → List Char
  lower : Char → List Char
  isAlnum : Char → Bool
  isDecimal : Char → Bool
  /-- The value of a decimal digit. -/
  digit : Char → Option ℕ
  isSpace : Char → Bool
  isWord : Char → Bool

inductive Pattern
  | lit (chars : List Char)
  | gap (limit : ℕ)
  | wordRun
  | boundary
  | notAfter (c : Char)
  | seq (p q : Pattern)
  | alt (p q : Pattern)

namespace Pattern

def text (s : String) : Pattern := .lit s.toList

def oneOf (p : Pattern) (ps : List Pattern) : Pattern := ps.foldl .alt p

def words (w : String) (ws : List String) : Pattern := oneOf (text w) (ws.map text)

/-- `p.{0,n}q` -/
def near (p : Pattern) (n : ℕ) (q : Pattern) : Pattern := .seq p (.seq (.gap n) q)

/-- `\b(?:p)\b` -/
def whole (p : Pattern) : Pattern := .seq .boundary (.seq p .boundary)

section Matching
variable (lib : TextLib)

abbrev Cursor := Option Char × List Char

def litEnd : List Char → Cursor → List Cursor
  | [], at_ => [at_]
  | c :: cs, (_, d :: ds) =>
      if lib.casefold c = lib.casefold d then litEnd cs (some d, ds) else []
  | _ :: _, (_, []) => []

def gapEnds : ℕ → Cursor → List Cursor
  | n + 1, (prev, c :: cs) =>
      (if c = '\n' then [] else gapEnds n (some c, cs)) ++ [(prev, c :: cs)]
  | _, at_ => [at_]

def wordEnds (prev : Option Char) : List Char → List Cursor
  | c :: cs => (if lib.isWord c then wordEnds (some c) cs else []) ++ [(prev, c :: cs)]
  | [] => [(prev, [])]

def ends : Pattern → Cursor → List Cursor
  | .lit chars, at_ => litEnd lib chars at_
  | .gap limit, at_ => gapEnds limit at_
  | .wordRun, at_ => wordEnds lib at_.1 at_.2
  | .boundary, at_ =>
      if at_.1.any lib.isWord = at_.2.head?.any lib.isWord then [] else [at_]
  | .notAfter c, at_ => if at_.1 = some c then [] else [at_]
  | .seq p q, at_ => (ends p at_).flatMap (ends q)
  | .alt p q, at_ => ends p at_ ++ ends q at_

def searchFrom (p : Pattern) (prev : Option Char) : List Char → Bool
  | [] => !(ends lib p (prev, [])).isEmpty
  | c :: cs => !(ends lib p (prev, c :: cs)).isEmpty || searchFrom p (some c) cs

def search (p : Pattern) (s : List Char) : Bool := searchFrom lib p none s

def removeFrom (p : Pattern) : ℕ → Option Char → List Char → List Char
  | fuel + 1, prev, c :: cs =>
      match (ends lib p (prev, c :: cs)).head? with
      | some (prev', rest) =>
          if rest.length < cs.length + 1 then removeFrom p fuel prev' rest
          else c :: removeFrom p fuel (some c) cs
      | none => c :: removeFrom p fuel (some c) cs
  | _, _, s => s

/-- `pattern.sub("", s)` for a pattern with no empty match. -/
def remove (p : Pattern) (s : List Char) : List Char := removeFrom lib p s.length none s

end Matching
end Pattern

section Addresses
variable (lib : TextLib)

def casefold (s : String) : List Char := s.toList.flatMap lib.casefold

def strip (s : List Char) : List Char :=
  ((s.dropWhile lib.isSpace).reverse.dropWhile lib.isSpace).reverse

/-- `value.strip().lower() == "unknown"` -/
def isUnknown (value : String) : Bool :=
  (strip lib value.toList).flatMap lib.lower = "unknown".toList

def addressNoise : Pattern := .words "靠近" ["附近", "周边", "旁边", "临近", "位于"]

def normalizeAddress (value : String) : List Char :=
  (addressNoise.remove lib (casefold lib value)).filter lib.isAlnum

def addressNumbers (s : List Char) : List (List Char) :=
  (s.splitOnP fun c => !lib.isDecimal c).filter fun run => !run.isEmpty

def commonPrefix : List Char → List Char → ℕ
  | a :: as, b :: bs => if a = b then commonPrefix as bs + 1 else 0
  | _, _ => 0

/-- `SequenceMatcher.find_longest_match`: the longest block, the earliest on a tie. -/
def longestMatch (a b : List Char) : ℕ × ℕ × ℕ :=
  (List.range a.length).foldl (fun best i => (List.range b.length).foldl (fun best j =>
    let k := commonPrefix (a.drop i) (b.drop j)
    if best.2.2 < k then (i, j, k) else best) best) (0, 0, 0)

def matchingSize : ℕ → List Char → List Char → ℕ
  | 0, _, _ => 0
  | fuel + 1, a, b =>
      let (i, j, k) := longestMatch a b
      if k = 0 then 0
      else k + matchingSize fuel (a.take i) (b.take j)
        + matchingSize fuel (a.drop (i + k)) (b.drop (j + k))

/-- `SequenceMatcher(None, a, b, autojunk=False).ratio()` -/
def similarity (a b : List Char) : ℚ :=
  if a.length + b.length = 0 then 1
  else 2 * matchingSize a.length a b / ((a.length + b.length : ℕ) : ℚ)

def addressesLikelySame (first second : String) : Bool :=
  let a := normalizeAddress lib first
  let b := normalizeAddress lib second
  if a.isEmpty || b.isEmpty then false
  else if a = b then true
  else
    let m := addressNumbers lib a
    let n := addressNumbers lib b
    if !m.isEmpty && !n.isEmpty && m.all (fun run => !n.contains run) then false
    else
      let (shorter, longer) := if a.length ≤ b.length then (a, b) else (b, a)
      if 6 ≤ shorter.length && decide (shorter <:+: longer) then true
      else decide (similarity a b ≥ 0.72)

/-- `"".join(value.split()).casefold()` -/
def normalizedLocation (value : String) : List Char :=
  (value.toList.filter fun c => !lib.isSpace c).flatMap lib.casefold

end Addresses
end CrisisMosaic
