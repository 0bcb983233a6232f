/-!
# JSON documents

A document is a tree of nulls, booleans, numbers, strings, arrays and objects. A number keeps the
kind it was read as: an unsigned integer below `2^64`, a negative integer down to `-2^63`, or a
double; an integer beyond those ranges is read as a double. An object keeps its members in the
order they were written, duplicates included; looking a key up finds its last member, so a later
member overrides an earlier one.
-/

namespace BranchSensitivity

/-- A JSON number, by the kind it was read or is to be written as. -/
inductive JsonNumber where
  /-- A non-negative integer below `2^64`. -/
  | nat (n : Nat)
  /-- A negative integer, at least `-2^63`. -/
  | neg (n : Int)
  /-- A double. -/
  | float (x : Float)
deriving Inhabited

/-- A JSON document. -/
inductive Json where
  | null
  | bool (b : Bool)
  | num (n : JsonNumber)
  | str (s : String)
  | arr (items : List Json)
  | obj (members : List (String × Json))
deriving Inhabited

namespace Json

/-- The last member under `key`, if the document is an object that has one. -/
def get? (j : Json) (key : String) : Option Json :=
  match j with
  | .obj ms => (ms.reverse.find? (·.1 == key)).map (·.2)
  | _ => none

/-- The member under `key`, a missing member and a `null` one being the same. -/
def field? (j : Json) (key : String) : Option Json :=
  match j.get? key with
  | some .null => none
  | other => other

/-- An integer written as a JSON number: unsigned when non-negative. -/
def ofInt (n : Int) : Json :=
  if 0 ≤ n then .num (.nat n.toNat) else .num (.neg n)

/-- A natural number written as a JSON number. -/
def ofNat (n : Nat) : Json := .num (.nat n)

/-- The document of an optional part, `null` when absent. -/
def ofOption {α : Type} (f : α → Json) : Option α → Json
  | some a => f a
  | none => .null

/-- The integer a number stands for, when it is an integer. -/
def asInt? : Json → Option Int
  | .num (.nat n) => some n
  | .num (.neg n) => some n
  | _ => none

/-- The double a number stands for; integers are converted to the nearest double. -/
def asFloat? : Json → Option Float
  | .num (.nat n) => some (Float.ofNat n)
  | .num (.neg n) => some (-(Float.ofNat n.natAbs))
  | .num (.float x) => some x
  | _ => none

/-- The text of a string. -/
def asString? : Json → Option String
  | .str s => some s
  | _ => none

/-- The truth value of a boolean. -/
def asBool? : Json → Option Bool
  | .bool b => some b
  | _ => none

/-- The items of an array. -/
def asArray? : Json → Option (List Json)
  | .arr xs => some xs
  | _ => none

end Json

end BranchSensitivity
