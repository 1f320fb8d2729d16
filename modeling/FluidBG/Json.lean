import Mathlib.Data.List.Basic
/-!
# JSON values

The values `serde_json::Value` holds, with the accessors the operator and the plugin managers use.
A number is an integer or the shortest text of a float, which is all that is ever read of it.
-/

set_option autoImplicit false

namespace FluidBG

/-- A JSON number. -/
inductive Number where
  | int (n : Int)
  | float (text : String)
  deriving DecidableEq, Repr

/-- A JSON value; the fields of an object stand in key order. -/
inductive Json where
  | null
  | bool (b : Bool)
  | num (n : Number)
  | str (s : String)
  | arr (xs : List Json)
  | obj (fields : List (String × Json))

/-- The text `Number::to_string` prints. -/
def Number.text : Number → String
  | .int n => toString n
  | .float text => text

namespace Json

/-- The field `key` of an object, and nothing of any other value. -/
def get (key : String) : Json → Option Json
  | .obj fields => fields.lookup key
  | _ => none

def asStr : Json → Option String
  | .str s => some s
  | _ => none

def asI64 : Json → Option Int
  | .num (.int n) => some n
  | _ => none

def asBool : Json → Option Bool
  | .bool b => some b
  | _ => none

def isNull : Json → Bool
  | .null => true
  | _ => false

/-- The fields with `value` at `key`. -/
def insertField (key : String) (value : Json) : List (String × Json) → List (String × Json)
  | [] => [(key, value)]
  | (k, v) :: fields =>
    if k = key then (key, value) :: fields
    else if key < k then (key, value) :: (k, v) :: fields
    else (k, v) :: insertField key value fields

/-- `serde_json::Map::remove`. -/
def removeField (key : String) (fields : List (String × Json)) : List (String × Json) :=
  fields.filter fun f => f.1 ≠ key

mutual

/-- `merge_json_value`: an object patch is merged field by field, a `null` field removes, and any
other patch replaces. -/
def merge (base : Json) : Json → Json
  | .obj patch => match base with
    | .obj fields => .obj (mergeFields fields patch)
    | _ => .obj patch
  | patch => patch

/-- The fields of a patch, merged one after the other into the fields of the base. -/
def mergeFields (fields : List (String × Json)) : List (String × Json) → List (String × Json)
  | [] => fields
  | (key, value) :: patch =>
    let fields := match value with
      | .null => removeField key fields
      | value => insertField key (merge ((fields.lookup key).getD .null) value) fields
    mergeFields fields patch

end

/-! ## Equality -/

mutual

/-- Equality of JSON values is decided from the outside in. -/
def decEq : (a b : Json) → Decidable (a = b)
  | .null, .null => .isTrue rfl
  | .bool a, .bool b => decidable_of_iff (a = b) (by simp)
  | .num a, .num b => decidable_of_iff (a = b) (by simp)
  | .str a, .str b => decidable_of_iff (a = b) (by simp)
  | .arr xs, .arr ys =>
    have := decEqList xs ys
    decidable_of_iff (xs = ys) (by simp)
  | .obj xs, .obj ys =>
    have := decEqFields xs ys
    decidable_of_iff (xs = ys) (by simp)
  | .null, .bool _ | .null, .num _ | .null, .str _ | .null, .arr _ | .null, .obj _
  | .bool _, .null | .bool _, .num _ | .bool _, .str _ | .bool _, .arr _ | .bool _, .obj _
  | .num _, .null | .num _, .bool _ | .num _, .str _ | .num _, .arr _ | .num _, .obj _
  | .str _, .null | .str _, .bool _ | .str _, .num _ | .str _, .arr _ | .str _, .obj _
  | .arr _, .null | .arr _, .bool _ | .arr _, .num _ | .arr _, .str _ | .arr _, .obj _
  | .obj _, .null | .obj _, .bool _ | .obj _, .num _ | .obj _, .str _ | .obj _, .arr _ =>
    .isFalse nofun

def decEqList : (xs ys : List Json) → Decidable (xs = ys)
  | [], [] => .isTrue rfl
  | x :: xs, y :: ys =>
    have := decEq x y
    have := decEqList xs ys
    decidable_of_iff (x = y ∧ xs = ys) (by simp)
  | [], _ :: _ | _ :: _, [] => .isFalse nofun

def decEqFields : (xs ys : List (String × Json)) → Decidable (xs = ys)
  | [], [] => .isTrue rfl
  | (k, x) :: xs, (l, y) :: ys =>
    have := decEq x y
    have := decEqFields xs ys
    decidable_of_iff (k = l ∧ x = y ∧ xs = ys) (by simp [and_assoc])
  | [], _ :: _ | _ :: _, [] => .isFalse nofun

end

instance : DecidableEq Json := decEq

end Json

end FluidBG
