import BranchSensitivity.Test.Case
import BranchSensitivity.Bytecode.Instruction

/-!
# Chromosomes

A chromosome is a test case with the bookkeeping of the search: the coverage goals attached to it
with their cached fitness values, the loading context it is bound to, and whether it changed
since its fitness was last set.

A goal is attached once; its entry keeps its place. Setting a fitness value fills the first
entry for the branch and marks the chromosome unchanged; editing or replacing the test, or
clearing the cached values, marks it changed.
-/

namespace BranchSensitivity

/-- An isolated loading context: the observation sites it instruments and the classes loaded. -/
structure LoaderBinding where
  scope : List String
  loaded : List String := []
deriving Inhabited

/-- Equal scopes and loaded classes. -/
instance : BEq LoaderBinding := ⟨fun a b => a.scope == b.scope && a.loaded == b.loaded⟩

/-- Whether a class is loaded into the context. -/
def LoaderBinding.isLoaded (l : LoaderBinding) (className : String) : Bool :=
  l.loaded.contains className

/-- Reach a branch and take the expected outcome. -/
structure Goal where
  branch : Branch
  expected : Bool
deriving Inhabited

instance : BEq Goal := ⟨fun a b => a.branch == b.branch && a.expected == b.expected⟩

/-- A goal with its cached fitness. -/
structure FitnessEntry where
  goal : Goal
  value : Option Float := none
deriving Inhabited

/-- Equal goals and cached values, the values compared as numbers. -/
instance : BEq FitnessEntry := ⟨fun a b => a.goal == b.goal && a.value == b.value⟩

/-- A test case wrapped for the search. -/
structure Chromosome where
  test : TestCase
  fitness : List FitnessEntry := []
  loader : Option LoaderBinding := none
  changed : Bool := true
deriving Inhabited

namespace Chromosome

/-- Equal tests, fitness entries, loading contexts and change marks; a chromosome holding a NaN
is unequal to itself. -/
instance : BEq Chromosome :=
  ⟨fun a b => a.test == b.test && a.fitness == b.fitness && a.loader == b.loader &&
    a.changed == b.changed⟩

/-- A new chromosome of a test case, marked changed. -/
def new (t : TestCase) : Chromosome := { test := t }

/-- Edit the test case through `f`, marking the chromosome changed. -/
def editTest {α : Type} (c : Chromosome) (f : TestCase → α × TestCase) : α × Chromosome :=
  let (a, t) := f c.test
  (a, { c with test := t, changed := true })

/-- Replace the test case, marking the chromosome changed. -/
def setTest (c : Chromosome) (t : TestCase) : Chromosome := { c with test := t, changed := true }

/-- Attach a goal unless an equal one is attached. -/
def addFitness (c : Chromosome) (g : Goal) : Chromosome :=
  if c.fitness.any (·.goal == g) then c else { c with fitness := c.fitness ++ [{ goal := g }] }

/-- The first attached goal for a branch number. -/
def findFitness? (c : Chromosome) (branch : Nat) : Option Goal :=
  (c.fitness.find? (·.goal.branch.id == branch)).map (·.goal)

/-- The cached value of the first entry for a branch number. -/
def fitnessValue? (c : Chromosome) (branch : Nat) : Option Float :=
  (c.fitness.find? (·.goal.branch.id == branch)).bind (·.value)

/-- Set the value of the first entry for a branch number and mark the chromosome unchanged. -/
def setFitnessValue (c : Chromosome) (branch : Nat) (v : Float) : Chromosome :=
  let idx := c.fitness.findIdx (·.goal.branch.id == branch)
  { c with fitness := c.fitness.modify idx (fun e => { e with value := some v }), changed := false }

/-- Drop the cached values, marking the chromosome changed. -/
def clearCachedResults (c : Chromosome) : Chromosome :=
  { c with fitness := c.fitness.map ({ · with value := none }), changed := true }

/-- Bind a loading context. -/
def bindLoader (c : Chromosome) (l : LoaderBinding) : Chromosome := { c with loader := some l }

end Chromosome

end BranchSensitivity
