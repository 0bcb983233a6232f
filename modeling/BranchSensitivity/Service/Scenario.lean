import BranchSensitivity.Service.Runs

/-!
# Answers about the ready-made scenario

A scenario request replaces some parts of the scenario, builds its analyzer and runs calls on it.
The state after each call shows only the parts that were replaced: the factory's insertions, the
sandbox's loaders and registrations, and the program's calls.
-/

namespace BranchSensitivity.Service

/-- A scenario factory: one of the scenario's seeds, a factory that builds nothing, or templates. -/
def readScenarioFactory (j : Json) : Decode TemplateFactory := do
  match ← req j "kind" asStr with
  | "int" => return { templates := [Fixture.intTargetSeed (← req j "x" asInt32)] }
  | "field" =>
    return { templates := [Fixture.fieldTargetSeed (← req j "offset" asInt32) (← req j "x" asInt32)] }
  | "failing" => return { templates := [] }
  | "templates" => readFactory j
  | other => refuse s!"unknown factory kind {other}"

namespace Answer

/-- Build the scenario's analyzer, with the parts the request replaces, and run its calls. -/
def fixture (j : Json) : Decode Json := do
  let base := Fixture.Scenario.new (← optD j "strategy" asStrategy .delta)
  let factory ← opt j "factory" fun _ f => readScenarioFactory f
  let rules ← opt j "rules" fun _ _ => do return (← readSynthesizer j).rules
  let failure ← opt j "synth_failure" asStr
  let analysis ← opt j "analysis" fun _ a => readAnalysis a
  let unloadable ← opt j "unloadable" fun k v => do (← asList k v).mapM (asStr "class")
  let program ← opt j "program" fun _ p => readProgram Fixture.targetMethod p
  -- the routing applies to the scenario's program only, so it is read only without a program
  let routeTo ← if program.isSome then pure none else opt j "route_to" asBranch
  let budget ← opt j "seed_timeout_ms" asU64
  let seed ← opt j "random_seed" asU64
  let trials ← opt j "trials" asU64
  let col := base.collaborators
  let fitness := match program, routeTo with
    | some p, _ => p
    | none, some b => { col.fitness with routeTo := some b }
    | none, none => col.fitness
  let scenario : Fixture.Scenario :=
    { config := { base.config with
        seedTimeoutMs := (budget.map (min · maxBudgetMs.toUInt64)).getD base.config.seedTimeoutMs
        randomSeed := seed.orElse fun _ => base.config.randomSeed
        trials := trials.getD base.config.trials }
      collaborators := .simulated (analysis.getD col.analysis) (factory.getD col.factory)
        { col.synthesizer with rules := rules.getD col.synthesizer.rules, failure }
        { col.sandbox with unloadable := unloadable.getD [] } fitness }
  let clock := serviceClock scenario.config.seedTimeoutMs.toNat scenario.collaborators.factory
    (some scenario.config.targetMethod)
  let a ← ofEngine (scenario.build (Random.Rng.ofSeed 0) clock)
  let style ← readStyle j
  let calls ← listOf j "steps" (readAnalyzerCall ⟨[Fixture.intParameter 1], [Fixture.returnSite]⟩)
  let view : StateView :=
    { insertions := factory.isSome, sandbox := unloadable.isSome, programCalls := program.isSome }
  return .obj [("steps", .arr (runCalls style view a calls))]

/-- The scenario's parts, named and written out. -/
def fixtureParts (j : Json) : Decode Json := do
  let x ← req j "x" asInt32
  let offset ← req j "offset" asInt32
  let name ← optD j "name" asStr "offset"
  let index ← optD j "index" asNat 1
  -- an offset beyond 32 bits stands at the largest one
  let insOffset := min 0xFFFFFFFF (← optD j "ins_offset" asNat 0)
  let opcode ← optD j "opcode" asOpcode .other
  return .obj [("target_class", .str Fixture.targetClass), ("target_method", .str Fixture.targetMethod),
    ("instruction", .str (Fixture.instruction insOffset opcode).id),
    ("target_branch", .arr [Json.ofNat Fixture.targetBranch.id, .str Fixture.targetBranch.instruction.id]),
    ("int_parameter", .str (Fixture.intParameter index).key),
    ("instance_field", .str (Fixture.instanceField name).key),
    ("local", .str (Fixture.localVar name).key), ("return_site", .str Fixture.returnSite.id),
    ("int_target_seed", testJson (Fixture.intTargetSeed x)),
    ("field_target_seed", testJson (Fixture.fieldTargetSeed offset x))]

end Answer

end BranchSensitivity.Service
