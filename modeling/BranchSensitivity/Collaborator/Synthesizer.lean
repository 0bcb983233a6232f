import BranchSensitivity.Dependency.Path
import BranchSensitivity.Test.Case
import BranchSensitivity.Error
import BranchSensitivity.Random.Source

/-!
# Synthesizers

What the analyzer asks of a synthesizer: to construct the difficult objects of a branch in a test
case, which it may edit, drawing from the random source; and the graph-to-code map of the test it
last constructed in.

The synthesizer of the service rebuilds the map after each construction from binding rules: a root
bound to a parameter number is realized by that argument of the final call, one bound to a field
by the value of the last assignment to a field of that name. A rule whose binding is not found
adds nothing. A synthesizer set to fail reports a construction failure and leaves the map empty.
It leaves the test as it is.
-/

namespace BranchSensitivity

open BranchSensitivity.Random

/-- A synthesizer, by its two operations over a state `ψ` of its own. -/
structure SynthesizerOps (ψ : Type) where
  /-- Construct the difficult objects of a branch in a test case, null inputs allowed or not: the
  outcome, the test after it, and the state after. -/
  construct : ψ → TestCase → Branch → Bool → Draw (Except AnalysisError Unit × TestCase × ψ)
  /-- The graph-to-code map of the test last constructed in. -/
  codeMap : ψ → CodeMap

/-- How a root variable is realized in a seed. -/
inductive Binding where
  /-- The argument of the final call, numbered from one. -/
  | parameter (index : Nat)
  /-- The value of the last assignment to the named field. -/
  | field (name : String)
deriving DecidableEq, Inhabited, Repr

/-- The reference a binding finds in a test case. -/
def Binding.locate (t : TestCase) : Binding → Option VarRef
  | .parameter i =>
    if i == 0 then none else (t.lastMethodCall?.bind fun c => c.params[i - 1]?)
  | .field name =>
    t.statements.reverse.findSome? fun s =>
      match s.kind with
      | .assignment ⟨.field _ _ f, value⟩ => if f == name then some value else none
      | _ => none

/-- Builds the graph-to-code map from binding rules. -/
structure RuleSynthesizer where
  rules : List (RootVariable × Binding) := []
  failure : Option String := none
  map : CodeMap := {}
deriving Inhabited

/-- Construct for a branch: the new map, or the failure. -/
def RuleSynthesizer.construct (s : RuleSynthesizer) (t : TestCase) (branch : Branch) :
    Except AnalysisError Unit × RuleSynthesizer :=
  match s.failure with
  | some reason =>
    (.error (.constructionFailure (Branch.idText branch.id ++ ": " ++ reason)), { s with map := {} })
  | none =>
    let m := s.rules.foldl (fun m (root, b) =>
      match b.locate t with
      | some ref => m.insert root ref
      | none => m) {}
    (.ok (), { s with map := m })

/-- The rule-based synthesizer, which draws nothing and leaves the test as it is. -/
def RuleSynthesizer.ops : SynthesizerOps RuleSynthesizer where
  construct s t branch _ := pure (let (res, s) := s.construct t branch; (res, t, s))
  codeMap s := s.map

end BranchSensitivity
