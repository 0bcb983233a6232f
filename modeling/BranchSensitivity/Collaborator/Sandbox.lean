import BranchSensitivity.Chromosome
import BranchSensitivity.Error

/-!
# A recording sandbox

The sandbox records the classes registered as analysis targets (a sorted set), counts the loading
contexts it creates, and loads every class except those named unloadable, which fail with
"class not found".
-/

namespace BranchSensitivity

/-- Insert into a sorted list of strings, once. -/
def insertSortedString (s : String) : List String → List String
  | [] => [s]
  | x :: xs => if s < x then s :: x :: xs else if s == x then x :: xs else x :: insertSortedString s xs

/-- Records registrations; classes named unloadable fail to load. -/
structure Sandbox where
  registered : List String := []
  unloadable : List String := []
  loadersCreated : Nat := 0
deriving Inhabited

namespace Sandbox

/-- Mark a class as an analysis target. -/
def register (s : Sandbox) (className : String) : Sandbox :=
  { s with registered := insertSortedString className s.registered }

/-- A fresh loading context scoped to the identities of the sites. -/
def createLoader (s : Sandbox) (sites : List Instruction) : LoaderBinding × Sandbox :=
  (⟨sites.map (·.id), []⟩, { s with loadersCreated := s.loadersCreated + 1 })

/-- Load a class into a context. -/
def loadClass (s : Sandbox) (l : LoaderBinding) (className : String) :
    Except AnalysisError LoaderBinding :=
  if s.unloadable.contains className then .error (.classLoadFailure className "class not found")
  else if l.isLoaded className then .ok l
  else .ok { l with loaded := l.loaded ++ [className] }

end Sandbox

end BranchSensitivity
