import BranchSensitivity.Service.Model
import BranchSensitivity.Similarity.EditDistance
import BranchSensitivity.Similarity.Values
import BranchSensitivity.Mutation
import BranchSensitivity.Seed
import BranchSensitivity.Json.Writer

/-!
# Answers about values, names, instructions, similarity, configuration and mutation

Each answer reads its request, calls the library once or a few times, and writes what came back.
-/

namespace BranchSensitivity.Service.Answer

open BranchSensitivity.Random BranchSensitivity.Similarity

/-- The values made from plain numbers, booleans and texts. -/
def convert (j : Json) : Decode Json := do
  let int ← opt j "int" fun _ v => match v.asInt? with
    | some n => if -0x80000000 ≤ n && n < 0x80000000 then .ok (Value.int (Int32.ofInt n)) else refuse "int out of range"
    | none => refuse "int out of range"
  let long ← opt j "long" fun _ v => match v.asInt? with
    | some n => if -0x8000000000000000 ≤ n && n < 0x8000000000000000 then .ok (Value.long (Int64.ofInt n)) else refuse "long"
    | none => refuse "long"
  let double ← opt j "double" asFloat
  let bool ← opt j "bool" fun _ v => match v with
    | .bool b => .ok b
    | _ => refuse "bool"
  let str ← opt j "str" fun _ v => match v with
    | .str s => .ok s
    | _ => refuse "str must be a string"
  let parts : List (Option (String × Json)) :=
    [int.map fun v => ("int", valueJson v), long.map fun v => ("long", valueJson v),
     double.map fun x => ("double", valueJson (.double x)), bool.map fun b => ("bool", valueJson (.bool b)),
     str.map fun s => ("str", valueJson (.str s)), str.map fun s => ("type_from_str", .str s),
     str.map fun s => ("type_from_string", .str s)]
  return .obj parts.reduceOption

/-- What a branch is called and where it stands. -/
def branch (j : Json) : Decode Json := do
  let b ← req j "branch" asBranch
  return .obj [("id", Json.ofNat b.id), ("id_display", .str (Branch.idText b.id)),
    ("class_name", .str b.className), ("method_name", .str b.methodName),
    ("instruction_id", .str b.instruction.id)]

/-- The shape of fresh identifiers: a prefix and a hyphenated 36-character unique suffix, so
two of them differ. -/
def ids (_ : Json) : Decode Json :=
  return .obj [("analysis_prefix", .str "analysis"), ("analysis_len", Json.ofNat 45),
    ("loader_prefix", .str "loader"), ("loader_len", Json.ofNat 43), ("distinct", .bool true)]

/-- What a value is, as a number, a type and a text. -/
def value (j : Json) : Decode Json := do
  let v ← req j "value" asValue
  return .obj [("is_null", .bool v.isNull), ("is_numeric", .bool v.isNumeric),
    ("can_mutate", .bool (Mutator.canMutate v)), ("as_integer", Json.ofOption Json.ofInt v.asInteger),
    ("as_float", optFloatJson v.asFloat), ("type_name", .str v.typeName.name),
    ("display", .str v.display), ("echo", valueJson v)]

/-- The parts of a type name. -/
def typeName (j : Json) : Decode Json := do
  let t : TypeName := ⟨← req j "name" asStr⟩
  return .obj [("is_array", .bool t.isArray), ("is_qualified", .bool t.isQualified),
    ("element_type", .str t.elementType.name), ("internal_name", .str t.internalName),
    ("simple_name", .str t.simpleName), ("display", .str t.name)]

/-- What an instruction is and what constant it pushes. -/
def instruction (j : Json) : Decode Json := do
  let i ← req j "ins" asInstruction
  return .obj [("id", .str i.id), ("display", .str i.id), ("is_constant", .bool i.isConstant),
    ("field_owner", Json.ofOption Json.str i.fieldOwner?),
    ("constant_value", optValueJson i.constantValue?)]

/-- What a root variable is, and the keys of the graph below it. -/
def root (j : Json) : Decode Json := do
  let r ← req j "root" asRoot
  return .obj [("key", .str r.key), ("is_constant", .bool r.isConstant),
    ("is_parameter", .bool r.isParameter), ("is_field", .bool r.isField),
    ("name", Json.ofOption Json.str r.name?), ("all_children", strsJson (r.allChildren.map (·.key)))]

/-- The edit distance and similarity ratio of two texts. -/
def similarity (j : Json) : Decode Json := do
  let a ← req j "a" asStr
  let b ← req j "b" asStr
  return .obj [("distance", Json.ofNat (Similarity.editDistance a b)), ("ratio", floatJson (Similarity.ratio a b))]

/-- Whether two values are similar, both ways round. -/
def similar (j : Json) : Decode Json := do
  let threshold ← opt j "threshold" asFloat
  let tolerance ← opt j "tolerance" asFloat
  let s : Similarity.Settings := match threshold, tolerance with
    | none, none => Similarity.Settings.default
    | t, u => ⟨t.getD 0.8, u.getD 10.0⟩
  let head ← req j "head" asValue
  let tail ← req j "tail" asValue
  return .obj [("similar", .bool (s.similar head tail)), ("reverse", .bool (s.similar tail head))]

/-- A configuration as a document. -/
def configJson (c : Config) : Json :=
  .obj [("target_method", .str c.targetMethod), ("dynamic_sensitivity_threshold", Json.ofNat c.trials.toNat),
    ("value_similarity_threshold", floatJson c.similarityThreshold),
    ("numeric_tolerance", floatJson c.numericTolerance), ("seed_timeout_ms", Json.ofNat c.seedTimeoutMs.toNat),
    ("allow_null_inputs", .bool c.allowNullInputs), ("mutation_strategy", .str c.strategy.name),
    ("max_delta", Json.ofInt c.maxDelta.toInt), ("max_int", Json.ofInt c.maxInt.toInt),
    ("random_seed", Json.ofOption (Json.ofNat ·.toNat) c.randomSeed)]

/-- A strategy member, by name. -/
def asStrategy (key : String) (j : Json) : Decode MutationStrategy := do
  let name ← asStr key j
  match MutationStrategy.ofName? name with
  | some s => return s
  | none => refuse s!"unknown strategy {name}"

/-- A configuration built member by member from a request, and what its readers make of it. -/
def configStruct (j : Json) : Decode Json := do
  let base : Config := {}
  let c : Config := { base with
    targetMethod := ← optD j "target_method" asStr base.targetMethod
    trials := ← optD j "dynamic_sensitivity_threshold" asU64 base.trials
    similarityThreshold := ← optD j "value_similarity_threshold" asFloat base.similarityThreshold
    numericTolerance := ← optD j "numeric_tolerance" asFloat base.numericTolerance
    seedTimeoutMs := ← optD j "seed_timeout_ms" asU64 base.seedTimeoutMs
    allowNullInputs := ← optD j "allow_null_inputs" asBool base.allowNullInputs
    strategy := ← optD j "mutation_strategy" asStrategy base.strategy
    maxDelta := ← optD j "max_delta" asInt64 base.maxDelta
    maxInt := ← optD j "max_int" asInt64 base.maxInt
    randomSeed := ← opt j "random_seed" asU64 }
  let valid := match c.validate with
    | .ok () => Json.null
    | .error e => (Failure.engine e).toJson
  let s := Similarity.Settings.ofConfig c
  return .obj [("config", configJson c), ("valid", valid),
    ("seed_timeout_ms", Json.ofNat c.seedTimeoutMs.toNat),
    ("builder_budget_ms", Json.ofNat (SeedBuilder.ofConfig c).budgetMs),
    ("mutator_strategy", .str (Mutator.ofConfig c).strategy.name),
    ("similarity", .obj [("threshold", floatJson s.threshold), ("tolerance", floatJson s.tolerance)])]

/-- A configuration read from its text and checked. -/
def config (j : Json) : Decode Json := do
  -- a document that is no text is read from its own text
  let text := match ← need j "json" with
    | .str text => text
    | .obj ms => Json.render (.obj (lastMembers ms))
    | other => Json.render other
  return configJson (← ofEngine (Config.parse text))

/-- Mutations of each value, each drawn from the value itself, from one random source. -/
def mutate (j : Json) : Decode Json := do
  let strategy ← optD j "strategy" asStrategy .mixed
  let m := Mutator.new strategy (← optD j "max_delta" asInt 20) (← optD j "max_int" asInt 2048)
  let seed ← optD j "seed" asNat 0
  let values ← listOf j "values" readValue
  let count ← optD j "count" asNat 1
  let draws : Draw (List (List (Option Value))) :=
    values.mapM fun v => (List.range count).mapM fun _ => m.mutate v
  let results := (draws.run (Rng.ofSeed seed.toUInt64)).1
  let extra ← optD j "extra" asBool false
  let body := [("results", Json.arr (results.map fun r => .arr (r.map optValueJson)))]
  return .obj (if extra then body ++ [("strategy", .str strategy.name)] else body)

end BranchSensitivity.Service.Answer
