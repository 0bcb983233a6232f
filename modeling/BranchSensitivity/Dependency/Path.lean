import BranchSensitivity.Dependency.RootVariable
import BranchSensitivity.Test.Statement

/-!
# Computation paths and the graph-to-code map

A computation path is a static chain from a root variable to the instruction whose value is
observed, for a branch. Its root is its first node.

A graph-to-code map links dependency nodes, by key, to the variables that realize them in one
test case; references under one key are kept in the order they were inserted.
-/

namespace BranchSensitivity

/-- A static chain from a root variable to an observed instruction. -/
structure ComputationPath where
  branch : Branch
  /-- Nodes from the root variable onward. -/
  nodes : List RootVariable
  /-- The observed instruction at the end. -/
  tail : Instruction
deriving Inhabited

namespace ComputationPath

instance : BEq ComputationPath :=
  ⟨fun a b => a.branch == b.branch && a.nodes == b.nodes && a.tail == b.tail⟩

/-- The root variable, the first node. -/
def root? (p : ComputationPath) : Option RootVariable := p.nodes.head?

/-- The root is an instance or static field. -/
def isFieldRooted (p : ComputationPath) : Bool := (p.root?.map RootVariable.isField).getD false

/-- Field-rooted paths first, each group in its order. -/
def prioritizeFields (ps : List ComputationPath) : List ComputationPath :=
  ps.filter (·.isFieldRooted) ++ ps.filter (!·.isFieldRooted)

end ComputationPath

/-- Variables of a test case realizing dependency nodes, by node key. -/
structure CodeMap where
  entries : List (String × List VarRef) := []
deriving Inhabited

namespace CodeMap

/-- Add a reference under a node's key, after those already there. -/
def insert (m : CodeMap) (r : RootVariable) (ref : VarRef) : CodeMap :=
  let k := r.key
  if m.entries.any (·.1 == k) then
    ⟨m.entries.map fun (k', refs) => if k' == k then (k', refs ++ [ref]) else (k', refs)⟩
  else ⟨m.entries ++ [(k, [ref])]⟩

/-- The references under a node's key. -/
def get? (m : CodeMap) (r : RootVariable) : Option (List VarRef) :=
  (m.entries.find? (·.1 == r.key)).map (·.2)

/-- Number of keys. -/
def len (m : CodeMap) : Nat := m.entries.length

end CodeMap

end BranchSensitivity
