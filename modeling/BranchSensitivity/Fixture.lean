import BranchSensitivity.Analyzer

/-!
# A ready-made scenario

The scenario targets `com.example.Calc.targetM(I)I`. Its seed constructs a `Calc` and calls
`targetM` on an int argument; its synthesizer binds the first parameter to that argument; its
program adds the int field `offset` to the argument and fires the sum at the return site (offset
20). Each part can be replaced before the analyzer is built.
-/

namespace BranchSensitivity.Fixture

/-- The class of the target method. -/
def targetClass : String := "com.example.Calc"

/-- The signature of the target method. -/
def targetMethod : String := "targetM(I)I"

/-- An instruction of the target method. -/
def instruction (offset : Nat) (op : Opcode) : Instruction := ⟨targetClass, targetMethod, offset, op, none⟩

/-- The branch of the target method, at offset 3. -/
def targetBranch : Branch := ⟨1, instruction 3 .ifCmp⟩

/-- An int parameter of the target method. -/
def intParameter (index : Nat) : RootVariable := .mk (.parameter index) (instruction 0 .iload) []

/-- An instance field of the target class. -/
def instanceField (name : String) : RootVariable :=
  .mk (.instanceField ⟨targetClass⟩ name) (instruction 1 .getField) []

/-- A local of the target method. -/
def localVar (name : String) : RootVariable := .mk (.local name) (instruction 2 .iload) []

/-- The return site of the target method. -/
def returnSite : Instruction := instruction 20 .ireturn

/-- `calc0 = new Calc(); int0 = x; calc0.targetM(int0)`. -/
def intTargetSeed (x : Int32) : TestCase :=
  let (owner, t) := ({} : TestCase).addConstructor ⟨targetClass⟩ "()V" []
  let (arg, t) := t.addPrimitive (.int x)
  (t.addMethod (some owner) ⟨targetClass⟩ "targetM" "(I)I" [arg] .int).2

/-- `calc0 = new Calc(); int0 = offset; calc0.offset = int0; int1 = x; calc0.targetM(int1)`. -/
def fieldTargetSeed (offset x : Int32) : TestCase :=
  let (owner, t) := ({} : TestCase).addConstructor ⟨targetClass⟩ "()V" []
  let (off, t) := t.addPrimitive (.int offset)
  let (_, t) := t.addFieldAssignment (some owner) ⟨targetClass⟩ "offset" off
  let (arg, t) := t.addPrimitive (.int x)
  (t.addMethod (some owner) ⟨targetClass⟩ "targetM" "(I)I" [arg] .int).2

/-- The fitness of the adding program on the target method. -/
def addingProgram : ProgramFitness := { targetMethod, program := .adding returnSite }

/-- The parts of an analyzer before it is built. -/
structure Scenario where
  config : Config
  collaborators : Collaborators TableAnalysis TemplateFactory RuleSynthesizer Sandbox ProgramFitness

/-- The scenario for a mutation strategy, seeded with 42. -/
def Scenario.new (s : MutationStrategy) : Scenario :=
  { config := { Config.forTarget targetMethod with strategy := s, randomSeed := some 42 }
    collaborators := .simulated {} { templates := [intTargetSeed 5] }
      { rules := [(intParameter 1, .parameter 1)] } {} addingProgram }

/-- Build the analyzer of a scenario, with a random source for when no seed is set and the wall
clock's readings. -/
def Scenario.build (s : Scenario) (entropy : Random.Rng) (clock : List Nat) :
    Except AnalysisError SimulatedAnalyzer :=
  Analyzer.new s.config s.collaborators entropy clock

end BranchSensitivity.Fixture
