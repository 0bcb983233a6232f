import BranchSensitivity.Service.Primitives
import BranchSensitivity.Service.TestCases
import BranchSensitivity.Resolution
import BranchSensitivity.Inputs
import BranchSensitivity.Collaborator.Analysis
import BranchSensitivity.Collaborator.Synthesizer

/-!
# Answers about resolution, method inputs, computation paths and synthesis

The graph-to-code map of a request is `[{"root", "refs"}]`, inserted in that order; a dependency
analysis is `{"branches": [{"method", "branch"}], "roots": [{"branch", "root"}], "paths"}`,
applied in that order; synthesis rules are `[{"root", "bind": {"param": n} | {"field": name}}]`.
-/

namespace BranchSensitivity.Service

open BranchSensitivity.Random

/-- A graph-to-code map: entries of a root and its written references, inserted in order. -/
def readCodeMap (j : Json) : Decode CodeMap := do
  let entries ← listOf j "map" pure
  entries.foldlM (fun m e => do
    let root ← req e "root" asRoot
    let refs ← refsOf e "refs"
    return refs.foldl (fun m ref => m.insert root ref) m) {}

/-- A dependency analysis from its tables. -/
def readAnalysis (j : Json) : Decode TableAnalysis := do
  let a ← (← listOf j "branches" pure).foldlM (fun (a : TableAnalysis) e => do
    return a.withBranch (← optD e "method" asStr Fixture.targetMethod) (← req e "branch" asBranch)) {}
  let a ← (← listOf j "roots" pure).foldlM (fun (a : TableAnalysis) e => do
    return a.withRoot (← req e "branch" asBranchId) (← req e "root" asRoot)) a
  (← listOf j "paths" readPath).foldlM (fun a p => return a.withPath p) a

/-- A binding rule's binding: by its `param` member when it has one, else by its `field`. -/
def readBinding (j : Json) : Decode Binding := do
  if let some n := j.field? "param" then return .parameter (← asNat "param" n)
  if let some f := j.field? "field" then return .field (← asStr "field" f)
  refuse "bind must be \x7bparam\x7d or \x7bfield\x7d"

/-- A synthesizer from its rules and optional failure reason. -/
def readSynthesizer (j : Json) : Decode RuleSynthesizer := do
  let rules ← listOf j "rules" fun r => do
    return (← req r "root" asRoot, ← req r "bind" fun _ b => readBinding b)
  return { rules, failure := ← opt j "synth_failure" asStr }

/-- The answer to a resolution: the statement or constant found, or the error. -/
def resolvedJson : Except AnalysisError ResolvedInput → Json
  | .ok (.statement p) => .obj [("statement", Json.ofNat p)]
  | .ok (.constant v) => .obj [("constant", valueJson v)]
  | .error e => (Failure.engine e).toJson

/-- Method inputs as a document. -/
def inputsJson (ins : MethodInputs) : Json :=
  .obj [("variables", .arr (ins.primitives.map fun (p, v) => .arr [Json.ofNat p, valueJson v])),
    ("constants", .arr (ins.constants.map fun (k, v) => .arr [.str k, valueJson v])),
    ("mutation", Json.ofOption (fun (mu : Mutation) => .obj [("position", Json.ofNat mu.position),
      ("before", valueJson mu.before), ("after", valueJson mu.after)]) ins.mutation),
    ("is_empty", .bool ins.isEmpty), ("head_values", .arr (ins.headValues.map valueJson))]

namespace Answer

/-- Resolve roots, find root value statements and head statements, with one random source. -/
def resolve (j : Json) : Decode Json := do
  let target ← optD j "target" asStr "targetM(I)I"
  let t ← req j "test" asTest
  let m ← readCodeMap j
  let seed ← optD j "seed" asNat 0
  let roots ← listOf j "roots" (readRoot 200)
  let positions ← listOf j "positions" (asNat "position")
  let heads ← listOf j "head_positions" (asNat "position")
  let r : Resolver := ⟨target⟩
  let run : Draw (List Json × List Json × List Json) := do
    let resolved ← roots.mapM fun root => r.resolve root t m
    let values ← positions.mapM t.rootValue
    let heads ← heads.mapM t.headStatements
    return (resolved.map resolvedJson, values.map (Json.ofOption Json.ofNat), heads.map natsJson)
  let (resolved, values, heads) := (run.run (Rng.ofSeed seed.toUInt64)).1
  let body := [("resolved", Json.arr resolved), ("root_values", .arr values), ("heads", .arr heads),
    ("target_params", .arr ((r.targetParams t).map refJson)), ("map_len", Json.ofNat m.len),
    -- resolution leaves the test as it was; it still differs from itself when it holds a NaN
    ("untouched", .bool (t == t))]
  return .obj (if ← optD j "extra" asBool false then body ++ [("target", .str target)] else body)

/-- Build method inputs, then mutate them a number of times. -/
def inputs (j : Json) : Decode Json := do
  let t ← req j "test" asTest
  let m ← readCodeMap j
  let roots ← listOf j "roots" (readRoot 200)
  let strategy ← optD j "strategy" Answer.asStrategy .mixed
  let mutator := Mutator.new strategy (← optD j "max_delta" asInt 20) (← optD j "max_int" asInt 2048)
  let seed ← optD j "seed" asNat 0
  let count ← optD j "mutations" asNat 0
  let built := MethodInputs.build roots t m
  let run : Draw (List Json) := do
    let (steps, _) ← (List.range count).foldlM (fun (acc, ins, t) _ => do
        let (mu, ins, t) ← ins.mutate t mutator
        let step := Json.obj [("mutated", .bool mu.isSome), ("inputs", inputsJson ins),
          ("values", .arr (t.statements.map fun s => optValueJson s.primitiveValue?))]
        return (acc ++ [step], ins, t))
      (([] : List Json), built, t)
    return steps
  return .obj [("built", inputsJson built), ("steps", .arr (run.run (Rng.ofSeed seed.toUInt64)).1)]

/-- The branches, root variables and paths a dependency analysis gives. -/
def paths (j : Json) : Decode Json := do
  let a ← optD j "analysis" (fun _ a => readAnalysis a) {}
  let b ← req j "branch" asBranch
  let explicit ← listOf j "paths" readPath
  let method ← optD j "method" asStr "targetM(I)I"
  let parsed := TableAnalysis.ops.parsedPaths a b
  return .obj [("branches_in_method", natsJson ((a.branchesInMethod method).map (·.id))),
    ("root_variables", strsJson ((a.rootVariables b).map (·.key))),
    ("parsed", .arr (parsed.map pathJson)),
    ("prioritized", .arr ((ComputationPath.prioritizeFields parsed).map pathJson)),
    ("prioritized_explicit", .arr ((ComputationPath.prioritizeFields explicit).map pathJson))]

/-- Construct the graph-to-code map for a test case and look roots up in it. -/
def synthesize (j : Json) : Decode Json := do
  let s ← readSynthesizer j
  let t ← req j "test" asTest
  let b ← branchOf j "branch"
  -- the construction draws nothing, but the request's seed is read as for every drawing question
  let _ ← optD j "seed" asNat 0
  let query ← listOf j "query" (readRoot 200)
  let (result, s) := s.construct t b
  return .obj [("result", match result with | .ok () => .null | .error e => (Failure.engine e).toJson),
    ("map_len", Json.ofNat s.map.len), ("map_is_empty", .bool (s.map.len == 0)),
    ("lookups", .arr (query.map fun r => Json.ofOption (fun refs => .arr (refs.map refJson)) (s.map.get? r)))]

end Answer

end BranchSensitivity.Service
