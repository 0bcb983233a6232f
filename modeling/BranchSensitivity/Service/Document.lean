import BranchSensitivity.Json.Basic
import BranchSensitivity.Error

/-!
# Requests and answers as documents

The service answers one JSON request with one JSON answer. A request that cannot be understood
is answered `{"error": "BadInput", "message": …}`; an error of the engine is answered with its
kind and message (a serialization error with its kind only).

Reading a request member treats a missing member and a `null` one alike. A required member that
is missing is reported as `missing field <name>`.
-/

namespace BranchSensitivity.Service

/-- Why a request was not answered. -/
inductive Failure where
  /-- The request could not be understood. -/
  | badInput (message : String)
  /-- The engine reported an error. -/
  | engine (e : AnalysisError)
deriving Inhabited

/-- A computation that may refuse its request. -/
abbrev Decode := Except Failure

/-- Refuse a request. -/
def refuse {α : Type} (message : String) : Decode α := .error (.badInput message)

/-- Lift an engine result. -/
def ofEngine {α : Type} : Except AnalysisError α → Decode α
  | .ok a => .ok a
  | .error e => .error (.engine e)

/-- The answer to a failure. -/
def Failure.toJson : Failure → Json
  | .badInput m => .obj [("error", .str "BadInput"), ("message", .str m)]
  | .engine .serialization => .obj [("error", .str "Serialization")]
  | .engine e => .obj [("error", .str e.kind), ("message", .str e.message)]

/-- A required member. -/
def need (j : Json) (key : String) : Decode Json :=
  match j.field? key with
  | some v => .ok v
  | none => refuse s!"missing field {key}"

/-- A string. -/
def asStr (key : String) (j : Json) : Decode String :=
  match j with
  | .str s => .ok s
  | _ => refuse s!"{key} must be a string"

/-- A boolean. -/
def asBool (key : String) (j : Json) : Decode Bool :=
  match j with
  | .bool b => .ok b
  | _ => refuse s!"{key} must be a bool"

/-- A non-negative integer below `2^64`. -/
def asNat (key : String) (j : Json) : Decode Nat :=
  match j with
  | .num (.nat n) => .ok n
  | _ => refuse s!"{key} must be a non-negative integer"

/-- A non-negative integer below `2^64`, as a 64-bit word. -/
def asU64 (key : String) (j : Json) : Decode UInt64 := do
  return (← asNat key j).toUInt64

/-- An integer in the signed 64-bit range. -/
def asInt (key : String) (j : Json) : Decode Int :=
  match j with
  | .num (.nat n) => if n < 0x8000000000000000 then .ok n else refuse s!"{key} must be an i64"
  | .num (.neg n) => .ok n
  | _ => refuse s!"{key} must be an i64"

/-- An integer in the signed 64-bit range, as a 64-bit integer. -/
def asInt64 (key : String) (j : Json) : Decode Int64 := do
  return Int64.ofInt (← asInt key j)

/-- An integer in the signed 32-bit range. -/
def asInt32 (key : String) (j : Json) : Decode Int32 :=
  match j with
  | .num (.nat n) => if n < 0x80000000 then .ok (Int32.ofNat n) else refuse s!"{key} must be an i32"
  | .num (.neg n) => if -0x80000000 ≤ n then .ok (Int32.ofInt n) else refuse s!"{key} must be an i32"
  | _ => refuse s!"{key} must be an i32"

/-- A branch number given bare: a non-negative integer below `2^64`, of which the low 32 bits
count. -/
def asBranchId (key : String) (j : Json) : Decode Nat := do
  return (← asNat key j) % 0x100000000

/-- The number of a branch given as a branch: a non-negative integer below `2^32`. -/
def asBranchNumber (key : String) (j : Json) : Decode Nat := do
  let n ← asNat key j
  if n < 0x100000000 then return n else refuse "branch id exceeds u32"

/-- A number, or one of the texts `NaN`, `inf`, `-inf`, `-0`. -/
def asFloat? (j : Json) : Option Float :=
  match j with
  | .str "NaN" => some (0.0 / 0.0)
  | .str "inf" => some (1.0 / 0.0)
  | .str "-inf" => some (-1.0 / 0.0)
  | .str "-0" => some (-0.0)
  | _ => j.asFloat?

/-- A float member. -/
def asFloat (key : String) (j : Json) : Decode Float :=
  match asFloat? j with
  | some x => .ok x
  | none => refuse s!"{key} must be a number or NaN/inf/-inf/-0"

/-- The items of an array. -/
def asList (key : String) (j : Json) : Decode (List Json) :=
  match j with
  | .arr xs => .ok xs
  | _ => refuse s!"{key} must be an array"

/-- A required member read by `f`. -/
def req {α : Type} (j : Json) (key : String) (f : String → Json → Decode α) : Decode α := do
  f key (← need j key)

/-- An optional member read by `f`. -/
def opt {α : Type} (j : Json) (key : String) (f : String → Json → Decode α) : Decode (Option α) :=
  match j.field? key with
  | some v => some <$> f key v
  | none => .ok none

/-- A member read by `f`, or a default. -/
def optD {α : Type} (j : Json) (key : String) (f : String → Json → Decode α) (d : α) : Decode α := do
  return (← opt j key f).getD d

/-- The items of an array member, each read by `f`; a missing member is empty. -/
def listOf {α : Type} (j : Json) (key : String) (f : Json → Decode α) : Decode (List α) := do
  match j.field? key with
  | some v => (← asList key v).mapM f
  | none => return []

/-- Keep the last member of each name, in order of first appearance, as a map of the members
holds them. -/
def lastMembers (ms : List (String × Json)) : List (String × Json) :=
  ms.foldl (fun acc (k, v) =>
    if acc.any (·.1 == k) then acc.map fun (k', v') => if k' == k then (k', v) else (k', v')
    else acc ++ [(k, v)]) []

/-- A double as a document: a number, or `NaN`, `inf`, `-inf` as texts. -/
def floatJson (x : Float) : Json :=
  if x.isNaN then .str "NaN"
  else if x.isInf then .str (if x > 0 then "inf" else "-inf")
  else .num (.float x)

/-- An optional double as a document. -/
def optFloatJson : Option Float → Json
  | some x => floatJson x
  | none => .null

/-- A list of naturals as a document. -/
def natsJson (ns : List Nat) : Json := .arr (ns.map Json.ofNat)

/-- A list of texts as a document. -/
def strsJson (ss : List String) : Json := .arr (ss.map Json.str)

end BranchSensitivity.Service
