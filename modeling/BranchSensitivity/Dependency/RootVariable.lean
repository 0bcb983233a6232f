import BranchSensitivity.Bytecode.Instruction

/-!
# Root variables

A root variable is a node of the static dependency graph: a constant, a parameter (numbered from
one), an instance or static field, or a local, with its defining instruction and the variables
that feed it directly. Its key `kind|instruction-id` is its identity in maps.

`allChildren` lists a variable and its transitive children depth first, left to right, each key
once: a node whose key was met before is skipped with its whole subtree.
-/

namespace BranchSensitivity

/-- What kind of program location a dependency node stands for. -/
inductive VariableKind where
  | constant
  /-- A method parameter, numbered from one. -/
  | parameter (index : Nat)
  | instanceField (owner : TypeName) (name : String)
  | staticField (owner : TypeName) (name : String)
  | local (name : String)
deriving DecidableEq, Inhabited, Repr

/-- The text of a kind in keys. -/
def VariableKind.text : VariableKind → String
  | .constant => "const"
  | .parameter i => "param" ++ toString i
  | .instanceField owner name => "field " ++ owner.name ++ "." ++ name
  | .staticField owner name => "static " ++ owner.name ++ "." ++ name
  | .local name => "local " ++ name

/-- A node of the static dependency graph. -/
inductive RootVariable where
  | mk (kind : VariableKind) (instruction : Instruction) (children : List RootVariable)
deriving Inhabited

namespace RootVariable

/-- The kind of location. -/
def kind : RootVariable → VariableKind
  | mk k _ _ => k

/-- The defining instruction. -/
def instruction : RootVariable → Instruction
  | mk _ i _ => i

/-- The direct contributors. -/
def children : RootVariable → List RootVariable
  | mk _ _ cs => cs

/-- Structural equality, constants of instructions compared as values. -/
def beq : RootVariable → RootVariable → Bool
  | mk k i cs, mk k' i' cs' => k == k' && i == i' && beqList cs cs'
where
  /-- Equality of lists of nodes. -/
  beqList : List RootVariable → List RootVariable → Bool
    | [], [] => true
    | a :: as, b :: bs => beq a b && beqList as bs
    | _, _ => false

instance : BEq RootVariable := ⟨beq⟩

/-- The identity `kind|instruction-id`. -/
def key (r : RootVariable) : String := r.kind.text ++ "|" ++ r.instruction.id

/-- Is a constant. -/
def isConstant (r : RootVariable) : Bool := r.kind matches .constant

/-- Is a parameter. -/
def isParameter (r : RootVariable) : Bool := r.kind matches .parameter _

/-- Is an instance or static field. -/
def isField (r : RootVariable) : Bool :=
  match r.kind with
  | .instanceField .. | .staticField .. => true
  | _ => false

/-- The name of a field or local. -/
def name? (r : RootVariable) : Option String :=
  match r.kind with
  | .instanceField _ n | .staticField _ n | .local n => some n
  | _ => none

/-- Number of nodes of the tree, repeated subtrees counted each time. -/
def size : RootVariable → Nat
  | mk _ _ cs => 1 + sizeList cs
where
  /-- Number of nodes of a forest. -/
  sizeList : List RootVariable → Nat
    | [] => 0
    | c :: cs => size c + sizeList cs

/-- Depth-first walk of a stack of nodes, skipping keys already seen. -/
def walk (fuel : Nat) (stack : List RootVariable) (seen : List String) (out : List RootVariable) :
    List RootVariable :=
  match fuel, stack with
  | 0, _ => out.reverse
  | _, [] => out.reverse
  | fuel + 1, node :: rest =>
    if seen.contains node.key then walk fuel rest seen out
    else walk fuel (node.children ++ rest) (node.key :: seen) (node :: out)

/-- The variable and its transitive children, depth first, each key once. -/
def allChildren (r : RootVariable) : List RootVariable := walk r.size [r] [] []

end RootVariable

end BranchSensitivity
