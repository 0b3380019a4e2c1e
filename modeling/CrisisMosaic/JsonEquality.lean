import CrisisMosaic.Basic

/-!
# Equality of JSON data

A unit of work compares a JSON column with the value it loaded.
-/

namespace CrisisMosaic.Json

mutual

def decEq : (a b : Json) → Decidable (a = b)
  | .null, .null => .isTrue rfl
  | .bool a, .bool b => decidable_of_iff (a = b) (by simp)
  | .num a, .num b => decidable_of_iff (a = b) (by simp)
  | .str a, .str b => decidable_of_iff (a = b) (by simp)
  | .ref a, .ref b => decidable_of_iff (a = b) (by simp)
  | .time a, .time b => decidable_of_iff (a = b) (by simp)
  | .arr a, .arr b => @decidable_of_iff _ (a = b) (by simp) (decEqItems a b)
  | .obj a, .obj b => @decidable_of_iff _ (a = b) (by simp) (decEqEntries a b)
  | .null, .bool _ | .null, .num _ | .null, .str _ | .null, .ref _ | .null, .time _ | .null, .arr _
  | .null, .obj _ | .bool _, .null | .bool _, .num _ | .bool _, .str _ | .bool _, .ref _
  | .bool _, .time _ | .bool _, .arr _ | .bool _, .obj _ | .num _, .null | .num _, .bool _
  | .num _, .str _ | .num _, .ref _ | .num _, .time _ | .num _, .arr _ | .num _, .obj _
  | .str _, .null | .str _, .bool _ | .str _, .num _ | .str _, .ref _ | .str _, .time _
  | .str _, .arr _ | .str _, .obj _ | .ref _, .null | .ref _, .bool _ | .ref _, .num _
  | .ref _, .str _ | .ref _, .time _ | .ref _, .arr _ | .ref _, .obj _ | .time _, .null
  | .time _, .bool _ | .time _, .num _ | .time _, .str _ | .time _, .ref _ | .time _, .arr _
  | .time _, .obj _ | .arr _, .null | .arr _, .bool _ | .arr _, .num _ | .arr _, .str _
  | .arr _, .ref _ | .arr _, .time _ | .arr _, .obj _ | .obj _, .null | .obj _, .bool _
  | .obj _, .num _ | .obj _, .str _ | .obj _, .ref _ | .obj _, .time _ | .obj _, .arr _ =>
    .isFalse (by simp)

def decEqItems : (a b : List Json) → Decidable (a = b)
  | [], [] => .isTrue rfl
  | [], _ :: _ | _ :: _, [] => .isFalse (by simp)
  | x :: xs, y :: ys =>
    @decidable_of_iff _ (x = y ∧ xs = ys) (by simp)
      (@instDecidableAnd _ _ (decEq x y) (decEqItems xs ys))

def decEqEntries : (a b : List (String × Json)) → Decidable (a = b)
  | [], [] => .isTrue rfl
  | [], _ :: _ | _ :: _, [] => .isFalse (by simp)
  | (k, x) :: xs, (l, y) :: ys =>
    @decidable_of_iff _ (k = l ∧ x = y ∧ xs = ys) (by simp [and_assoc])
      (@instDecidableAnd _ _ inferInstance (@instDecidableAnd _ _ (decEq x y) (decEqEntries xs ys)))

end

instance : DecidableEq Json := decEq

example : Json.obj [("a", .arr [.num 3, .null])] ≠ .obj [("a", .arr [.num 3])] := by decide +kernel

end CrisisMosaic.Json
