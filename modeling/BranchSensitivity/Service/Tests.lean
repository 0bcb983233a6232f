import BranchSensitivity.Service.TestCases
import BranchSensitivity.Chromosome
import BranchSensitivity.Observation

/-!
# Answers about test cases, chromosomes and observation buffers

A test case is built by its operations one by one, with a snapshot after each; a chromosome is
driven by its own operations, with a snapshot of its fitness entries after each; a buffer
records captured values for its sites.
-/

namespace BranchSensitivity.Service.Answer

/-- One builder operation's step: its result, the new length and the statement it concerns. -/
def testStep (t : TestCase) (op : Json) : Json × TestCase :=
  match applyOp t op with
  | .ok (result, p, t) =>
    (.obj [("result", result), ("len", Json.ofNat t.len),
      ("statement", Json.ofOption statementJson (t.get? p))], t)
  | .error f => (f.toJson, t)

/-- What one statement of a test case refers to, holds and, for a call, passes. -/
def statementSummary (t : TestCase) (p : Nat) (s : Statement) : Json :=
  let base := [("references", natsJson s.references), ("is_primitive", .bool s.isPrimitive),
    ("is_null", .bool s.isNull),
    ("array_elements", .arr ((t.arrayElements p).map fun (i, v) => natsJson [i, v]))]
  match s.call? with
  | some c => .obj (base ++ [("signature", .str c.signature),
      ("argument_values", .arr ((t.argumentValues p).map valueJson))])
  | none => .obj base

/-- The summary of a finished test case. -/
def testSummary (t : TestCase) (extra : Bool) : Json :=
  let body := [("len", Json.ofNat t.len), ("is_empty", .bool t.isEmpty), ("statements", testJson t),
    ("per_statement", .arr (t.statements.zipIdx.map fun (s, p) => statementSummary t p s)),
    ("dangling", .arr (t.danglingReferences.map fun (s, r) => natsJson [s, r])),
    ("consistent", .bool t.isConsistent),
    ("last_method_call", Json.ofOption (fun c => .str c.signature) t.lastMethodCall?),
    ("argument_values_out_of_range", .arr ((t.argumentValues t.len).map valueJson)),
    ("text", .str t.text)]
  .obj (if extra then body ++ [("last", Json.ofOption (fun s => .str s.name) t.last?)] else body)

/-- A test case built operation by operation. -/
def testCase (j : Json) : Decode Json := do
  let ops ← listOf j "ops" pure
  let (steps, t) := ops.foldl (fun (acc, t) op => let (s, t) := testStep t op; (acc ++ [s], t))
    (([] : List Json), ({} : TestCase))
  return .obj [("steps", .arr steps), ("final", testSummary t (← optD j "extra" asBool false))]

/-- A snapshot of a chromosome: its length, whether it changed, and its fitness entries. -/
def chromosomeJson (c : Chromosome) : Json :=
  .obj [("len", Json.ofNat c.test.len), ("changed", .bool c.changed),
    ("entries", .arr (c.fitness.map fun e => .obj [("branch", Json.ofNat e.goal.branch.id),
      ("expected", .bool e.goal.expected), ("value", optFloatJson e.value)]))]

/-- Apply one chromosome operation: its result and the chromosome after it. -/
def chromosomeOp (c : Chromosome) (j : Json) : Decode (Json × Chromosome) := do
  match ← req j "op" asStr with
  | "add_fitness" =>
    return (.null, c.addFitness ⟨← req j "branch" asBranch, ← optD j "expected" asBool true⟩)
  | "set_value" =>
    return (.null, c.setFitnessValue (← req j "branch" asBranchId) (← optD j "value" asFloat 0.0))
  | "clear" => return (.null, c.clearCachedResults)
  | "set_test" => return (.null, c.setTest (← req j "test" asTest))
  | "find" =>
    let b ← req j "branch" asBranchId
    return (.obj [("goal", Json.ofOption (fun g => Json.ofNat g.branch.id) (c.findFitness? b)),
      ("value", optFloatJson (c.fitnessValue? b))], c)
  | "mutate_test" =>
    let (result, _, t) ← req j "test_op" fun _ op => applyOp c.test op
    return (result, (c.editTest fun _ => ((), t)).2)
  | "clone_and_mutate" =>
    let (result, _, t) ← req j "test_op" fun _ op => applyOp c.test op
    let copy := (c.editTest fun _ => ((), t)).2
    return (.obj [("result", result), ("copy_equal", .bool (copy == c)),
      ("copy_len", Json.ofNat copy.test.len)], c)
  | "bind_loader" =>
    let scope ← listOf j "scope" readInstruction
    let loaded ← listOf j "loaded" (asStr "class")
    -- a query that is no text asks for the class of the empty name
    let query ← listOf j "query" fun q => pure ((Json.asString? q).getD "")
    let binding : LoaderBinding := ⟨scope.map (·.id), loaded⟩
    return (.obj [("scope", strsJson binding.scope),
      ("is_loaded", .arr (query.map fun q => .bool (binding.isLoaded q)))], c.bindLoader binding)
  | other => refuse s!"unknown chromosome op {other}"

/-- A chromosome driven operation by operation. -/
def chromosome (j : Json) : Decode Json := do
  let c := Chromosome.new (← optD j "test" asTest {})
  let ops ← listOf j "ops" pure
  let (steps, _) ← ops.foldlM (fun (acc, c) op => do
      let (result, c) ← chromosomeOp c op
      let snapshot := match chromosomeJson c with
        | .obj ms => Json.obj (ms ++ [("result", result)])
        | other => other
      return (acc ++ [snapshot], c))
    ([chromosomeJson c], c)
  return .obj [("steps", .arr steps)]

/-- A site given as an instruction or as its identity. -/
def siteId (j : Json) : Decode String :=
  match j with
  | .str s => return s
  | _ => return (← readInstruction j).id

/-- Values recorded into a buffer for some sites. -/
def buffer (j : Json) : Decode Json := do
  let sites ← listOf j "sites" readInstruction
  let records ← listOf j "records" pure
  let (results, buf) ← records.foldlM (fun (acc, buf) r => do
      let site ← match r.field? "site" with
        | some s => siteId s
        | none => refuse "record needs site"
      let v ← req r "value" asValue
      let registered := (buf.values? site).isSome
      let (recorded, buf) := buf.record site v
      let entry := Json.obj [("registered", .bool registered), ("recorded", .bool recorded),
        ("values", Json.ofOption (fun vs => .arr (vs.map valueJson)) (buf.values? site))]
      return (acc ++ [entry], buf))
    (([] : List Json), ObservationBuffer.forSites sites)
  return .obj [("results", .arr results),
    ("map", .arr (buf.sites.map fun (k, vs) => .arr [.str k, .arr (vs.map valueJson)]))]

end BranchSensitivity.Service.Answer
