import BranchSensitivity.Service.Reports
import BranchSensitivity.Service.Seeds
import BranchSensitivity.Fixture
import BranchSensitivity.Json.Writer

/-!
# Answers that run the analyzer

A simulated program is read as `{"target", "guards", "probes": [{"site", "value"}], "distance",
"route_to"}`. An observation runs one chromosome repeatedly through the observing runner; an
analysis builds one analyzer and runs a list of calls on it, each answered with the state of the
collaborators after it; a scenario does the same from the ready-made parts, some of them replaced.
-/

namespace BranchSensitivity.Service

open BranchSensitivity.Random

/-! ## Programs -/

/-- A program expression, by the first of these that it has: an `arg` index, a `field` or
`int_field` name, a `const` member, a `str` member, and an `add`, `sub` or `mul` array. A `const`
that is not a value, or an arithmetic array that is not a pair, names nothing; so does an
expression with none of them. A `const` or `str` member that is present but `null` counts as
present. -/
def readExpr : Nat → Json → ProgramExpr
  | 0, _ => .undefined
  | fuel + 1, j =>
    let arith (op : ArithOp) (key : String) : Option ProgramExpr :=
      match j.get? key with
      | some (.arr [a, b]) => some (.arith op (readExpr fuel a) (readExpr fuel b))
      | some (.arr _) => some .undefined
      | _ => none
    let readings : List (Option ProgramExpr) :=
      [(match j.get? "arg" with | some (.num (.nat n)) => some (.arg n) | _ => none),
       (match j.get? "field" with | some (.str f) => some (.field f) | _ => none),
       (match j.get? "int_field" with | some (.str f) => some (.intField f) | _ => none),
       (j.get? "const").map fun v =>
         match readValue v with
         | .ok c => .const c
         | .error _ => .undefined,
       (j.get? "str").map fun e => .text (readExpr fuel e),
       arith .add "add", arith .sub "sub", arith .mul "mul"]
    (readings.findSome? id).getD .undefined

/-- A program guard, by the first of its members `present`, `is_int` and `not` that it has, or a
`ge` pair; one with none of them never holds. A member that is present but `null` counts as
present. -/
def readCond : Nat → Json → ProgramCond
  | 0, _ => .never
  | fuel + 1, j =>
    match j.get? "present", j.get? "is_int", j.get? "not", j.get? "ge" with
    | some e, _, _, _ => .present (readExpr 200 e)
    | none, some e, _, _ => .isInt (readExpr 200 e)
    | none, none, some c, _ => .not (readCond fuel c)
    | none, none, none, some (.arr [a, b]) => .ge (readExpr 200 a) (readExpr 200 b)
    | _, _, _, _ => .never

/-- A program with its fitness settings; its target is `target` unless it names its own. -/
def readProgram (target : String) (j : Json) : Decode ProgramFitness := do
  let guards ← listOf j "guards" fun c => pure (readCond 200 c)
  let probes ← listOf j "probes" fun p => do
    return (← req p "site" asInstruction, readExpr 200 (← need p "value"))
  let distance ← optD j "distance" asFloat 0.0
  return { targetMethod := ← optD j "target" asStr target
           program := { guards, probes, distance }
           routeTo := ← opt j "route_to" asBranch }

/-- The adding program of the scenario, for a target method. -/
def addingFitness (target : String) : ProgramFitness :=
  { Fixture.addingProgram with targetMethod := target }

/-! ## Analyzer calls -/

/-- A call on an analyzer. -/
inductive AnalyzerCall where
  | analyze (branch : Branch) (roots : List RootVariable) (sites : List Instruction)
      (seed : Option TestCase) (trials : Option UInt64)
  | analyzePath (path : ComputationPath)
  | analyzeBranch (branch : Branch) (path : Option ComputationPath)
  | targetMethod
  | createSeed (branch : Branch)
  | config
  | branches (method : String)

/-- The roots and sites of an `analyze` call that names none. -/
structure CallDefaults where
  roots : List RootVariable := []
  sites : List Instruction := []

/-- A call from its document. Every call reads its branch, the target branch when it names none,
whether or not it uses it. -/
def readAnalyzerCall (d : CallDefaults) (j : Json) : Decode AnalyzerCall := do
  let call ← req j "call" asStr
  let branch ← branchOf j "branch"
  match call with
  | "analyze" =>
    return .analyze branch
      (← optD j "roots" (fun _ v => do (← asList "roots" v).mapM (readRoot 200)) d.roots)
      (← optD j "sites" (fun _ v => do (← asList "sites" v).mapM readInstruction) d.sites)
      (← opt j "seed" asTest) (← opt j "trials" asU64)
  | "analyze_path" => return .analyzePath (← req j "path" fun _ p => readPath p)
  | "analyze_branch" => return .analyzeBranch branch (← opt j "path" fun _ p => readPath p)
  | "target_method" => return .targetMethod
  | "create_seed" => return .createSeed branch
  | "config" => return .config
  | "branches" => return .branches (← optD j "method" asStr "targetM(I)I")
  | other => refuse s!"unknown analyzer call {other}"

/-- How reports are answered: the least ratios to test, and whether to add the stored document. -/
structure ReportStyle where
  minRatios : List Float
  stored : Bool

/-- Run a call; its answer. -/
def AnalyzerCall.run {α φ ψ σ ρ : Type} (style : ReportStyle) :
    AnalyzerCall → AnalyzerM α φ ψ σ ρ Json
  | .analyze branch roots sites seed trials => do
    let chromosome := seed.map Chromosome.new
    let r ← match trials with
      | some n => Analyzer.analyzeWithTrials branch roots sites chromosome n
      | none => Analyzer.analyze branch roots sites chromosome
    let summary := reportJson style.minRatios style.stored r
    -- the analysis works on copies of the seed; it still differs from itself when it holds a NaN
    return match seed, summary with
      | some t, .obj ms => .obj (ms ++ [("seed_untouched", .bool (t == t))])
      | _, s => s
  | .analyzePath p => do return reportJson style.minRatios style.stored (← Analyzer.analyzePath p)
  | .analyzeBranch b p => do
    return reportJson style.minRatios style.stored (← Analyzer.analyzeBranch b p)
  | .targetMethod => do
    let reports ← Analyzer.analyzeTargetMethod
    return .obj [("reports", .arr (reports.map fun (n, r) =>
      .arr [Json.ofNat n, reportJson style.minRatios style.stored r]))]
  | .createSeed b => do
    match ← Analyzer.createSeedChromosome b with
    | .ok c => return .obj [("test", testJson c.test), ("changed", .bool c.changed)]
    | .error e => return (Failure.engine e).toJson
  | .config => do return Answer.configJson (← get).config
  | .branches method => do
    let bs := (← get).collaborators.branchesInMethod method
    return .obj [("reports", natsJson (bs.map (·.id)))]

/-- Which parts of the collaborators' state an answer shows. -/
structure StateView where
  insertions : Bool := true
  sandbox : Bool := true
  programCalls : Bool := true

/-- The state of the collaborators, the parts not shown as null. -/
def stateJson (v : StateView) (a : SimulatedAnalyzer) : Json :=
  let c := a.collaborators
  let shown := fun (b : Bool) (j : Json) => if b then j else Json.null
  .obj [("insertions", shown v.insertions (Json.ofNat c.factory.insertions)),
    ("loaders_created", shown v.sandbox (Json.ofNat c.sandbox.loadersCreated)),
    ("registered", shown v.sandbox (strsJson c.sandbox.registered)),
    ("program_calls", shown v.programCalls (Json.ofNat c.fitness.executions))]

/-- Run the calls in order on one analyzer, each answer followed by the state. -/
def runCalls (style : ReportStyle) (view : StateView) (a : SimulatedAnalyzer) (calls : List AnalyzerCall) :
    List Json :=
  (calls.foldl (fun (acc, a) call =>
    let (answer, a) := (call.run style).run a
    let state := stateJson view a
    let answer := match answer with
      | .obj ms => Json.obj (ms ++ [("state", state)])
      | other => other
    (acc ++ [answer], a)) (([] : List Json), a)).1

/-- How reports are answered, from a request. -/
def readStyle (j : Json) : Decode ReportStyle := do
  return ⟨← listOf j "min_ratios" (asFloat "min_ratio"), ← optD j "json" asBool false⟩

/-! ## Configuration of an analysis request -/

/-- The largest seed budget an analysis may configure; a larger one, or one that is no count,
becomes 50. -/
def analysisBudgetMs : Nat := 200

/-- The configuration members of an analysis request, with the target method and the random seed
filled in when missing and a quick seed budget. -/
def analysisConfig (ms : List (String × Json)) : Json :=
  let ms := lastMembers ms
  let put := fun (ms : List (String × Json)) (k : String) (v : Json) =>
    if ms.any (·.1 == k) then ms.map fun (k', v') => if k' == k then (k', v) else (k', v')
    else ms ++ [(k, v)]
  let ms := if ms.any (·.1 == "target_method") then ms else put ms "target_method" (.str "targetM(I)I")
  let ms := match ms.lookup "random_seed" with
    | none | some .null => put ms "random_seed" (Json.ofNat 0)
    | some _ => ms
  let ms := match ms.lookup "seed_timeout_ms" with
    | some (.num (.nat n)) => if n > analysisBudgetMs then put ms "seed_timeout_ms" (Json.ofNat 50) else ms
    | _ => put ms "seed_timeout_ms" (Json.ofNat 50)
  .obj ms

namespace Answer

/-- Run one chromosome through the observing runner, a number of times. -/
def observe (j : Json) : Decode Json := do
  let target ← optD j "target" asStr Fixture.targetMethod
  let fitness ← optD j "program" (fun _ p => readProgram target p) (addingFitness target)
  let unloadable ← listOf j "unloadable" (asStr "class")
  let branch ← branchOf j "branch"
  let sites ← listOf j "sites" readInstruction
  let t ← req j "test" asTest
  -- the chromosome runs at least once
  let times := max 1 (← optD j "repeat" asNat 1)
  let (runs, sandbox, fitness, _) := (List.range times).foldl (fun (acc, sandbox, fitness, c) _ =>
      let (obs, sandbox, fitness, c) := Harness.simulated.observe sandbox fitness branch sites c
      let loader := c.loader.getD ⟨[], []⟩
      let run := Json.obj [("observations", .arr (obs.map fun (k, vs) => .arr [.str k, .arr (vs.map valueJson)])),
        ("fitness_value", optFloatJson (c.fitnessValue? branch.id)), ("changed", .bool c.changed),
        ("entries", Json.ofNat c.fitness.length), ("loaded", strsJson loader.loaded),
        ("scope", strsJson loader.scope)]
      (acc ++ [run], sandbox, fitness, c)) (([] : List Json), ({ unloadable } : Sandbox), fitness,
        Chromosome.new t)
  return .obj [("runs", .arr runs), ("registered", strsJson sandbox.registered),
    ("loaders_created", Json.ofNat sandbox.loadersCreated),
    ("executions", Json.ofNat fitness.executions),
    ("program_calls", Json.ofNat fitness.executions)]

/-- Build one analyzer from a request's parts and run its calls. -/
def analyze (j : Json) : Decode Json := do
  let members ← match j.field? "config" with
    | none => pure []
    | some (.obj ms) => pure ms
    | some _ => refuse "config must be an object"
  let config ← ofEngine (Config.parse (Json.render (analysisConfig members)))
  let factory ← readFactory j
  let unloadable ← listOf j "unloadable" (asStr "class")
  let fitness ← optD j "program" (fun _ p => readProgram config.targetMethod p)
    (addingFitness config.targetMethod)
  let analysis ← optD j "analysis" (fun _ a => readAnalysis a) {}
  let collaborators := Collaborators.simulated analysis factory (← readSynthesizer j) { unloadable } fitness
  let style ← readStyle j
  let calls ← listOf j "steps" (readAnalyzerCall {})
  let clock := serviceClock config.seedTimeoutMs.toNat factory (some config.targetMethod)
  let a ← ofEngine (Analyzer.new config collaborators (Rng.ofSeed 0) clock)
  return .obj [("steps", .arr (runCalls style {} a calls))]

end Answer

end BranchSensitivity.Service
