import BranchSensitivity.Collaborator.Program
import BranchSensitivity.Collaborator.Sandbox

/-!
# Observing an execution

An observation buffer holds, for each registered site identity (in identity order), the values
captured there in capture order; values probed at other sites are dropped.

One observed execution of a chromosome for a branch runs against a sandbox and a fitness
framework, each given by its operations over a state of its own. It attaches the fitness goal of
the branch, registers the classes of the sites and the qualified types the test uses, creates a
loading context scoped to the sites and loads each site's class into it. It then evaluates the
goal attached for the branch (when there is none, nothing runs and every site stays empty),
records the probes the evaluation fired, and returns the captured values with the sites of
classes that failed to load emptied. The service runs this harness over the recording sandbox and
a simulated program.

    (observe …).1.map (·.1) = the site identities, sorted and without repeats
-/

namespace BranchSensitivity

/-- Captured values per site identity, in identity order. -/
structure ObservationBuffer where
  sites : List (String × List Value) := []
deriving Inhabited

namespace ObservationBuffer

/-- Insert an empty sequence for a site identity, keeping identities sorted and once. -/
def addSite (id : String) : List (String × List Value) → List (String × List Value)
  | [] => [(id, [])]
  | (k, vs) :: rest =>
    if id < k then (id, []) :: (k, vs) :: rest
    else if id == k then (k, vs) :: rest
    else (k, vs) :: addSite id rest

/-- A buffer with one empty sequence per site. -/
def forSites (sites : List Instruction) : ObservationBuffer :=
  ⟨sites.foldl (fun acc s => addSite s.id acc) []⟩

/-- Append a captured value; `false` when the site is not registered. -/
def record (b : ObservationBuffer) (site : String) (v : Value) : Bool × ObservationBuffer :=
  if b.sites.any (·.1 == site) then
    (true, ⟨b.sites.map fun (k, vs) => if k == site then (k, vs ++ [v]) else (k, vs)⟩)
  else (false, b)

/-- The values captured at a site. -/
def values? (b : ObservationBuffer) (site : String) : Option (List Value) :=
  (b.sites.find? (·.1 == site)).map (·.2)

/-- Append the captured values of a sequence of probes, in order. -/
def recordAll (b : ObservationBuffer) (probes : List (String × Value)) : ObservationBuffer :=
  probes.foldl (fun b (site, v) => (b.record site v).2) b

/-- Empty the sequence of a site. -/
def clearSite (b : ObservationBuffer) (site : String) : ObservationBuffer :=
  ⟨b.sites.map fun (k, vs) => if k == site then (k, []) else (k, vs)⟩

end ObservationBuffer

/-! ## The collaborators of an execution -/

/-- Isolated, type-scoped class loading over a sandbox state `σ`. Loading may fail, and may change
the context and the state whether it fails or not. -/
structure SandboxOps (σ : Type) where
  /-- Mark a class as an analysis target. -/
  register : σ → String → σ
  /-- A fresh loading context scoped to the sites. -/
  createLoader : σ → List Instruction → LoaderBinding × σ
  /-- Load a class into a context: whether it failed, with the context and the state after. -/
  loadClass : σ → LoaderBinding → String → Except AnalysisError Unit × LoaderBinding × σ

/-- Branch fitness and test execution over a framework state `φ`. -/
structure FitnessOps (φ : Type) where
  /-- The coverage goal handed out for a branch. -/
  branchGoal : φ → Branch → Goal
  /-- Execute the chromosome for a goal, given the probe buffer as it stands: the fitness, the
  probes fired in the order they fired, and the state after. -/
  evaluate : φ → Goal → Chromosome → ObservationBuffer → Float × List (String × Value) × φ

/-- The collaborators an observed execution runs against. -/
structure Harness (σ φ : Type) where
  sandbox : SandboxOps σ
  fitness : FitnessOps φ

/-- The classes to register for an execution: those of the sites and the qualified element types
of the test's statements. -/
def targetClasses (sites : List Instruction) (t : TestCase) : List String :=
  let fromSites := sites.foldl (fun acc s => insertSortedString s.className acc) []
  t.statements.foldl (fun acc s =>
    let ty := s.returnType.elementType
    if ty.isQualified then insertSortedString ty.name acc else acc) fromSites

namespace Harness

variable {σ φ : Type} (h : Harness σ φ)

/-- Register the target classes of the sites and the test, then create a loading context scoped
to the sites. -/
def openLoader (s : σ) (sites : List Instruction) (t : TestCase) : σ × LoaderBinding :=
  let (loader, s) := h.sandbox.createLoader ((targetClasses sites t).foldl h.sandbox.register s) sites
  (s, loader)

/-- Load the classes of the sites into a context, skipping those already loaded; the sandbox
state and the context after, and the classes that failed. -/
def loadSiteClasses : σ → LoaderBinding → List String → List Instruction →
    σ × LoaderBinding × List String
  | s, l, failed, [] => (s, l, failed)
  | s, l, failed, site :: rest =>
    if l.isLoaded site.className then loadSiteClasses s l failed rest
    else match h.sandbox.loadClass s l site.className with
      | (.ok _, l', s') => loadSiteClasses s' l' failed rest
      | (.error _, l', s') => loadSiteClasses s' l' (insertSortedString site.className failed) rest

/-- Open a loading context for the sites and load their classes into it: the sandbox state and
the context after, and the classes that failed. -/
def prepare (s : σ) (sites : List Instruction) (t : TestCase) : σ × LoaderBinding × List String :=
  let (s, loader) := h.openLoader s sites t
  h.loadSiteClasses s loader [] sites

/-- Execute a chromosome for a branch and return the values captured at the sites, with the
sandbox and framework states and the chromosome after. -/
def observe (s : σ) (f : φ) (branch : Branch) (sites : List Instruction) (c : Chromosome) :
    List (String × List Value) × σ × φ × Chromosome :=
  let c := c.addFitness (h.fitness.branchGoal f branch)
  let (s, loader, unloaded) := h.prepare s sites c.test
  let buf := ObservationBuffer.forSites sites
  let c := c.bindLoader loader
  match c.findFitness? branch.id with
  | none => (buf.sites, s, f, c)
  | some goal =>
    let c := c.clearCachedResults
    let (fit, probes, f) := h.fitness.evaluate f goal c buf
    let c := c.setFitnessValue branch.id fit
    let buf := (sites.filter (unloaded.contains ·.className)).foldl
      (fun b s => b.clearSite s.id) (buf.recordAll probes)
    (buf.sites, s, f, c)

end Harness

/-! ## The collaborators of the service -/

/-- The recording sandbox; a failed load leaves the context as it was. -/
def Sandbox.ops : SandboxOps Sandbox where
  register := Sandbox.register
  createLoader := Sandbox.createLoader
  loadClass s l className :=
    match s.loadClass l className with
    | .ok l' => (.ok (), l', s)
    | .error e => (.error e, l, s)

/-- Runs a simulated program as the target method and scores a goal by its distance. -/
structure ProgramFitness where
  targetMethod : String
  program : Program
  /-- Hand out goals for this branch, whatever branch is asked for. -/
  routeTo : Option Branch := none
  executions : Nat := 0
  /-- The first failure of a run of the program, if any. -/
  fault : Option Fault := none
deriving Inhabited

namespace ProgramFitness

/-- The coverage goal handed out for a branch. -/
def branchGoal (f : ProgramFitness) (b : Branch) : Goal := ⟨f.routeTo.getD b, true⟩

/-- Run the program on the chromosome's test when its final statement calls the target method:
the branch distance and the probes fired, or distance one and no probe when nothing ran. The
position of the final call is one less than the test's length, which fails on an empty test. -/
def execute (f : ProgramFitness) (c : Chromosome) :
    Float × List (String × Value) × ProgramFitness :=
  let t := c.test
  let callsTarget := (t.lastMethodCall?.map (·.signature == f.targetMethod)).getD false
  if !callsTarget then (1.0, [], f)
  else
    let f := if t.len == 0 then { f with fault := f.fault.or (some .lengthUnderflow) } else f
    let run := f.program.run ⟨t, t.argumentValues (t.len - 1)⟩
    (run.distance, run.probes, { f with executions := f.executions + 1 })

/-- The framework that runs the program whatever the goal. -/
def ops : FitnessOps ProgramFitness where
  branchGoal := branchGoal
  evaluate f _ c _ := f.execute c

end ProgramFitness

/-- The harness of the service: the recording sandbox and a simulated program. -/
def Harness.simulated : Harness Sandbox ProgramFitness := ⟨Sandbox.ops, ProgramFitness.ops⟩

end BranchSensitivity
