import Mathlib.Data.Rat.Defs

/-!
# Dynamic values

The values an untyped field can hold: what a JSON document decodes to, plus
`Value.object`, an arbitrary object of the host language, which no JSON encoder
accepts. Numbers are exact.
-/

namespace Sentrix

/-- A dynamically typed value. -/
inductive Value where
  | none
  | bool (b : Bool)
  | num (q : ℚ)
  | str (s : String)
  | list (vs : List Value)
  | dict (kvs : List (String × Value))
  /-- An object JSON has no encoding for. -/
  | object (repr : String)

namespace Value

mutual

/-- Whether the JSON encoder accepts a value. -/
def dumps : Value → Bool
  | .list vs => dumpsList vs
  | .dict kvs => dumpsDict kvs
  | .object _ => false
  | _ => true

/-- Whether the JSON encoder accepts every element of a list. -/
def dumpsList : List Value → Bool
  | [] => true
  | v :: vs => v.dumps && dumpsList vs

/-- Whether the JSON encoder accepts every value of a dictionary. -/
def dumpsDict : List (String × Value) → Bool
  | [] => true
  | (_, v) :: kvs => v.dumps && dumpsDict kvs

end

mutual

/-- What the JSON encoder writes for a value when objects are encoded by their text
(`default=str`), as the document that is read back. -/
def stringify : Value → Value
  | .list vs => .list (stringifyList vs)
  | .dict kvs => .dict (stringifyDict kvs)
  | .object repr => .str repr
  | v => v

/-- `stringify` of every element of a list. -/
def stringifyList : List Value → List Value
  | [] => []
  | v :: vs => v.stringify :: stringifyList vs

/-- `stringify` of every value of a dictionary. -/
def stringifyDict : List (String × Value) → List (String × Value)
  | [] => []
  | (k, v) :: kvs => (k, v.stringify) :: stringifyDict kvs

end

/-- The truth value a conditional gives a value. -/
def truthy : Value → Bool
  | .none => false
  | .bool b => b
  | .num q => decide (q ≠ 0)
  | .str s => decide (s ≠ "")
  | .list vs => !vs.isEmpty
  | .dict kvs => !kvs.isEmpty
  | .object _ => true

/-- `d.get(key, default)`; `none` for a value that is not a dictionary, which
has no such method. -/
def get (d : Value) (key : String) (default : Value) : Option Value :=
  match d with
  | .dict kvs => some ((kvs.lookup key).getD default)
  | _ => Option.none

end Value

end Sentrix
