import CrisisMosaic.Relational.Fallible

/-!
# Identifiers, JSON data and errors

An identifier is the position of its row in the row's table (`uuid7` values are
ordered by creation). Times are microseconds. Inside JSON data an identifier is
`Json.ref` and an ISO timestamp `Json.time`.
-/

namespace CrisisMosaic

abbrev Id := ℕ
abbrev Time := ℤ

def minutes (n : ℤ) : Time := n * 60000000
def hours (n : ℤ) : Time := minutes (n * 60)

inductive Json
  | null
  | bool (b : Bool)
  | num (q : ℚ)
  | str (s : String)
  | ref (i : Id)
  | time (t : Time)
  | arr (items : List Json)
  | obj (entries : List (String × Json))

abbrev Dict := List (String × Json)

namespace Json

def opt {α : Type*} (f : α → Json) : Option α → Json
  | none => .null
  | some a => f a

def nat (n : ℕ) : Json := .num n

def isStr (s : String) : Json → Bool
  | .str t => t = s
  | _ => false

def isRef (i : Id) : Json → Bool
  | .ref j => j = i
  | _ => false

def isNat (n : ℕ) : Json → Bool
  | .num q => q = n
  | _ => false

def isTrue : Json → Bool
  | .bool b => b
  | _ => false

def asRef : Json → Option Id
  | .ref i => some i
  | _ => none

def asStr : Json → Option String
  | .str s => some s
  | _ => none

def asDict : Json → Option Dict
  | .obj d => some d
  | _ => none

end Json

namespace Dict

def get (d : Dict) (k : String) : Option Json := d.lookup k

def erase (d : Dict) (k : String) : Dict := d.filter fun e => e.1 != k

def set (d : Dict) (k : String) (v : Json) : Dict :=
  if d.any fun e => e.1 == k then d.map fun e => if e.1 == k then (k, v) else e else d ++ [(k, v)]

def merge (d e : Dict) : Dict := e.foldl (fun d p => set d p.1 p.2) d

end Dict

/-- `ApiError`: the response a refused request gets. -/
structure ApiError where
  statusCode : ℕ
  code : String
  message : String
  details : Dict

abbrev Result := Except ApiError

def notFound (resource : String) : ApiError :=
  ⟨404, "NOT_FOUND", resource ++ "不存在", []⟩

def conflictError (code message : String) (details : Dict) : ApiError :=
  ⟨409, code, message, details⟩

def unprocessable (code message : String) : ApiError := ⟨422, code, message, []⟩
def forbidden (code message : String) : ApiError := ⟨403, code, message, []⟩

/-- The response to an exception that nothing else handles. -/
def internalError : ApiError := ⟨500, "INTERNAL_ERROR", "服务器处理请求时发生内部错误", []⟩

end CrisisMosaic
