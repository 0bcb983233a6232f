import BranchSensitivity.Seed
import BranchSensitivity.Report
import BranchSensitivity.Observation
import BranchSensitivity.Collaborator.Analysis
import BranchSensitivity.Collaborator.Synthesizer

/-!
# The sensitivity analyzer

The analyzer probes whether a branch is sensitive to its inputs and whether input values reach
its observation sites. For a branch it takes a seed test calling the target method (built by the
factory, or given), lets the synthesizer construct the branch's difficult objects in it and map
dependency nodes to the seed's variables, resolves the root variables to their head statements,
and then runs trials: each trial copies the seed, mutates one input feeding the roots, executes it,
and records inputs and observed values.

Analyzing a branch without a given path probes each of its computation paths with a root, field
rooted paths first, against one seed, and merges the reports. Analyzing the target method does so
for each branch declared in it.

The analyzer works against any collaborators, each given by its operations over a state of its
own: a dependency analysis, a test factory, a synthesizer, and the sandbox and fitness framework
an observed execution runs against. It also holds its random source and the wall clock's readings
still to come. Every step may draw from the random source, read the clock and update the
collaborators, so a sequence of steps is a run of the state monad `AnalyzerM`.
-/

namespace BranchSensitivity

open BranchSensitivity.Random

/-- The external systems the analyzer drives, each by its operations and its state. -/
structure Collaborators (α φ ψ σ ρ : Type) where
  analysisOps : AnalysisOps α
  analysis : α
  factoryOps : FactoryOps φ
  factory : φ
  synthesizerOps : SynthesizerOps ψ
  synthesizer : ψ
  harness : Harness σ ρ
  sandbox : σ
  fitness : ρ

namespace Collaborators

variable {α φ ψ σ ρ : Type} (c : Collaborators α φ ψ σ ρ)

/-- The branches the analysis declares in a method. -/
def branchesInMethod (method : String) : List Branch :=
  c.analysisOps.branchesInMethod c.analysis method

/-- The paths the analysis gives for a branch, over all its root variables. -/
def parsedPaths (b : Branch) : List ComputationPath := c.analysisOps.parsedPaths c.analysis b

end Collaborators

/-- The collaborators of the service: an analysis from tables, the template factory, the
rule-based synthesizer, and the recording sandbox with a simulated program. -/
def Collaborators.simulated (analysis : TableAnalysis) (factory : TemplateFactory)
    (synthesizer : RuleSynthesizer) (sandbox : Sandbox) (fitness : ProgramFitness) :
    Collaborators TableAnalysis TemplateFactory RuleSynthesizer Sandbox ProgramFitness :=
  ⟨TableAnalysis.ops, analysis, TemplateFactory.ops, factory, RuleSynthesizer.ops, synthesizer,
    Harness.simulated, sandbox, fitness⟩

/-- The analyzer: its configuration, collaborators, random source and clock. -/
structure Analyzer (α φ ψ σ ρ : Type) where
  config : Config
  collaborators : Collaborators α φ ψ σ ρ
  rng : Rng
  /-- The wall clock's readings still to come, in milliseconds. -/
  clock : List Nat

/-- A computation of the analyzer. -/
abbrev AnalyzerM (α φ ψ σ ρ : Type) := StateM (Analyzer α φ ψ σ ρ)

namespace Analyzer

variable {α φ ψ σ ρ : Type}

/-- An analyzer for a valid configuration. Its random source is seeded from the configuration's
seed, or is the source `entropy` when the configuration sets none. -/
def new (c : Config) (col : Collaborators α φ ψ σ ρ) (entropy : Rng) (clock : List Nat) :
    Except AnalysisError (Analyzer α φ ψ σ ρ) := do
  c.validate
  let rng := match c.randomSeed with
    | some seed => Rng.ofSeed seed
    | none => entropy
  return ⟨c, col, rng, clock⟩

/-- Run a draw on the analyzer's random source. -/
def draw {β : Type} (d : Draw β) : AnalyzerM α φ ψ σ ρ β := fun a =>
  let (x, r) := d a.rng
  (x, { a with rng := r })

/-- The similarity settings of the configuration. -/
def similarity (a : Analyzer α φ ψ σ ρ) : Similarity.Settings := .ofConfig a.config

/-- The test's final statement calls the target method. -/
def callsTarget (a : Analyzer α φ ψ σ ρ) (t : TestCase) : Bool :=
  (t.lastMethodCall?.map (·.signature == a.config.targetMethod)).getD false

/-- Let the synthesizer construct for a branch in a test: the test after it, with the
synthesizer's map, or an empty map when the construction fails. -/
def construct (t : TestCase) (branch : Branch) : AnalyzerM α φ ψ σ ρ (TestCase × CodeMap) := do
  let a ← get
  let col := a.collaborators
  let (res, t, synthesizer) ←
    draw (col.synthesizerOps.construct col.synthesizer t branch a.config.allowNullInputs)
  modify fun a => { a with collaborators := { a.collaborators with synthesizer } }
  match res with
  | .ok () => return (t, col.synthesizerOps.codeMap synthesizer)
  | .error _ => return (t, {})

/-- A seed calling the target method, as a new chromosome, with the synthesizer's map; the seed is
built against the analyzer's clock. -/
def constructedSeed (branch : Branch) :
    AnalyzerM α φ ψ σ ρ (Except AnalysisError (Chromosome × CodeMap)) := do
  let a ← get
  let col := a.collaborators
  let (res, factory, clock) ← draw ((SeedBuilder.ofConfig a.config).build col.factoryOps
    (some a.config.targetMethod) a.clock col.factory)
  modify fun a => { a with collaborators := { a.collaborators with factory }, clock }
  match res with
  | .error e => return .error e
  | .ok t =>
    let (t, m) ← construct t branch
    return .ok (Chromosome.new t, m)

/-- A seed chromosome for a branch. -/
def createSeedChromosome (branch : Branch) : AnalyzerM α φ ψ σ ρ (Except AnalysisError Chromosome) := do
  return (← constructedSeed branch).map (·.1)

/-- Resolve each root and collect the heads of the statement it resolves to; roots that do not
resolve are skipped. -/
def resolveHeads (roots : List RootVariable) (t : TestCase) (m : CodeMap) :
    AnalyzerM α φ ψ σ ρ (List ResolvedHead) := do
  let resolver : Resolver := ⟨(← get).config.targetMethod⟩
  roots.foldlM (fun acc root => do
    match ← draw (resolver.resolve root t m) with
    | .error _ => pure acc
    | .ok input =>
      let positions ← match input with
        | .statement p => draw (t.headStatements p)
        | .constant _ => pure []
      pure (acc ++ [⟨root.key, input, positions⟩])) []

/-- Trial `n`: mutate a copy of the seed, execute it and record what was seen. -/
def trial (branch : Branch) (roots : List RootVariable) (sites : List Instruction)
    (seed : Chromosome) (m : CodeMap) (n : Nat) : AnalyzerM α φ ψ σ ρ ObservationRecord := do
  let a ← get
  let inputs := MethodInputs.build roots seed.test m
  let (_, inputs, t) ← draw (inputs.mutate seed.test (Mutator.ofConfig a.config))
  let chromosome := { seed with test := t, changed := true }
  let a ← get
  let col := a.collaborators
  let (obs, sandbox, fitness, _) := col.harness.observe col.sandbox col.fitness branch sites chromosome
  set { a with collaborators := { col with sandbox, fitness } }
  return ⟨n.toUInt64, 0, inputs, obs⟩

/-- Run `trials` trials against a prepared seed. -/
def analyzePrepared (branch : Branch) (roots : List RootVariable) (sites : List Instruction)
    (seed : Chromosome) (m : CodeMap) (trials : UInt64) : AnalyzerM α φ ψ σ ρ Report := do
  let heads ← resolveHeads roots seed.test m
  let records ← (List.range trials.toNat).mapM (trial branch roots sites seed m)
  return { branch := some branch.id, roots, sites, resolvedHeads := heads, records,
           similarity := (← get).similarity }

/-- Analyze a branch with `trials` trials, on a copy of the given seed when it calls the target
method, else on a seed built for the branch; an empty report when no seed can be built. -/
def analyzeWithTrials (branch : Branch) (roots : List RootVariable) (sites : List Instruction)
    (seed : Option Chromosome) (trials : UInt64) : AnalyzerM α φ ψ σ ρ Report := do
  let a ← get
  let prepared ← match seed.filter (a.callsTarget ·.test) with
    | some c => do
      let (t, m) ← construct c.test branch
      pure (.ok ({ c with test := t, changed := true }, m))
    | none => constructedSeed branch
  match prepared with
  | .ok (s, m) => analyzePrepared branch roots sites s m trials
  | .error _ => return .empty (some branch.id) a.similarity

/-- Analyze a branch with the configured number of trials. -/
def analyze (branch : Branch) (roots : List RootVariable) (sites : List Instruction)
    (seed : Option Chromosome) : AnalyzerM α φ ψ σ ρ Report := do
  analyzeWithTrials branch roots sites seed (← get).config.trials

/-- Analyze a computation path: its root against its tail. -/
def analyzePath (p : ComputationPath) : AnalyzerM α φ ψ σ ρ Report := do
  match p.root? with
  | none => return .empty (some p.branch.id) (← get).similarity
  | some root => analyze p.branch [root] [p.tail] none

/-- Probe each rooted path against one seed with the configured number of trials, merging the
reports in order after `merged`; paths without a root are skipped. -/
def probePaths (branch : Branch) (seed : Chromosome) (m : CodeMap) (paths : List ComputationPath)
    (merged : Report) : AnalyzerM α φ ψ σ ρ Report :=
  paths.foldlM (fun acc p => do
    match p.root? with
    | none => pure acc
    | some root =>
      let part ← analyzePrepared branch [root] [p.tail] seed m (← get).config.trials
      pure (acc.merge part)) merged

/-- Analyze a branch along the given path, or along all its paths, merging the reports. -/
def analyzeBranch (branch : Branch) (path0 : Option ComputationPath) :
    AnalyzerM α φ ψ σ ρ Report := do
  let a ← get
  let paths := match path0 with
    | some p => [p]
    | none => ComputationPath.prioritizeFields (a.collaborators.parsedPaths branch)
  let merged := Report.empty (some branch.id) a.similarity
  if paths.isEmpty then return merged
  match ← constructedSeed branch with
  | .error _ => return merged
  | .ok (seed, m) => probePaths branch seed m paths merged

/-- Insert a report under its branch number, keeping numbers sorted; a later one replaces an
earlier one of the same number. -/
def insertReport (n : Nat) (r : Report) : List (Nat × Report) → List (Nat × Report)
  | [] => [(n, r)]
  | (k, r') :: rest =>
    if n < k then (n, r) :: (k, r') :: rest
    else if n == k then (n, r) :: rest
    else (k, r') :: insertReport n r rest

/-- Analyze every branch declared in the target method, by branch number. -/
def analyzeTargetMethod : AnalyzerM α φ ψ σ ρ (List (Nat × Report)) := do
  let a ← get
  let branches := a.collaborators.branchesInMethod a.config.targetMethod
  branches.foldlM (fun acc b => do
    let r ← analyzeBranch b none
    pure (insertReport b.id r acc)) []

end Analyzer

/-- The analyzers of the service, over its simulated collaborators. -/
abbrev SimulatedAnalyzer := Analyzer TableAnalysis TemplateFactory RuleSynthesizer Sandbox ProgramFitness

end BranchSensitivity
