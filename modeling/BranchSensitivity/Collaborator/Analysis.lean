import BranchSensitivity.Dependency.Path

/-!
# Dependency analyses

What the analyzer asks of a dependency analysis: the branches declared in a method, the root
variables of a branch, and the computation paths of a branch from a root. It only reads the
analysis. The paths of a branch are gathered over its root variables in order, each path once.

The analysis of the service answers from fixed tables: the branches declared in each method, the
root variables of each branch (each at most once), and the computation paths. Adding a path makes
its root a root variable of its branch.
-/

namespace BranchSensitivity

/-- A dependency analysis, by its three questions over a state `α` it only reads. -/
structure AnalysisOps (α : Type) where
  branchesInMethod : α → String → List Branch
  rootVariables : α → Branch → List RootVariable
  computationPaths : α → RootVariable → Branch → List ComputationPath

/-- The paths of a branch over all its root variables, each path once, first seen first. -/
def AnalysisOps.parsedPaths {α : Type} (A : AnalysisOps α) (x : α) (b : Branch) :
    List ComputationPath :=
  (A.rootVariables x b).foldl (fun acc root =>
    (A.computationPaths x root b).foldl (fun acc p => if acc.contains p then acc else acc ++ [p]) acc)
    []

/-- Dependency analysis answered from fixed tables. -/
structure TableAnalysis where
  branches : List (String × Branch) := []
  /-- Root variables by branch number, in increasing order of number. -/
  roots : List (Nat × List RootVariable) := []
  paths : List ComputationPath := []
deriving Inhabited

namespace TableAnalysis

/-- Declare a branch inside the method with the given signature. -/
def withBranch (a : TableAnalysis) (method : String) (b : Branch) : TableAnalysis :=
  { a with branches := a.branches ++ [(method, b)] }

/-- Add a root variable to a branch number, unless an equal one is there. -/
def addRoot (branch : Nat) (r : RootVariable) : List (Nat × List RootVariable) →
    List (Nat × List RootVariable)
  | [] => [(branch, [r])]
  | (b, rs) :: rest =>
    if branch < b then (branch, [r]) :: (b, rs) :: rest
    else if branch == b then (b, if rs.contains r then rs else rs ++ [r]) :: rest
    else (b, rs) :: addRoot branch r rest

/-- Add a root variable of a branch. -/
def withRoot (a : TableAnalysis) (branch : Nat) (r : RootVariable) : TableAnalysis :=
  { a with roots := addRoot branch r a.roots }

/-- Add a path; its root becomes a root variable of its branch. -/
def withPath (a : TableAnalysis) (p : ComputationPath) : TableAnalysis :=
  let a := match p.root? with
    | some r => a.withRoot p.branch.id r
    | none => a
  { a with paths := a.paths ++ [p] }

/-- The branches declared in a method. -/
def branchesInMethod (a : TableAnalysis) (method : String) : List Branch :=
  (a.branches.filter (·.1 == method)).map (·.2)

/-- The root variables of a branch. -/
def rootVariables (a : TableAnalysis) (b : Branch) : List RootVariable :=
  ((a.roots.find? (·.1 == b.id)).map (·.2)).getD []

/-- The paths of a branch from a root. -/
def computationPaths (a : TableAnalysis) (root : RootVariable) (b : Branch) :
    List ComputationPath :=
  a.paths.filter fun p => p.branch.id == b.id && match p.root? with
    | some r => r == root
    | none => false

/-- The analysis answering from the tables. -/
def ops : AnalysisOps TableAnalysis where
  branchesInMethod := branchesInMethod
  rootVariables := rootVariables
  computationPaths := computationPaths

end TableAnalysis

end BranchSensitivity
