import BranchSensitivity.Resolution
import BranchSensitivity.Mutation

/-!
# The inputs of one trial

The inputs of a trial are the primitive values that feed a branch, by statement position, and
the constants, by instruction identity. They are collected from the roots through the
graph-to-code map: for each node of a non-constant root, each referenced primitive statement
holding a non-null value, and each primitive element assigned into a referenced array. A constant
root contributes the value its instruction pushes.

A mutation of the inputs picks one mutable variable uniformly (in position order), mutates its
value, writes it into the test case and records the change. The head values are the variables in
position order, then the constants in identity order.

The heads of a statement are the primitive statements feeding it: a primitive is its own head;
an array feeds from its assigned elements (none when its first length is zero); a call or an
assignment feeds from every statement of the same kind. Each feeder is unwrapped to its root value
statement first, and no statement is visited twice.
-/

namespace BranchSensitivity

open BranchSensitivity.Random

/-- Insert or overwrite under a key, keeping keys in increasing order. -/
def insertSorted {κ α : Type} [Ord κ] (k : κ) (v : α) : List (κ × α) → List (κ × α)
  | [] => [(k, v)]
  | (k', v') :: rest =>
    match compare k k' with
    | .lt => (k, v) :: (k', v') :: rest
    | .eq => (k, v) :: rest
    | .gt => (k', v') :: insertSorted k v rest

/-- The single value change of a trial. -/
structure Mutation where
  position : Nat
  before : Value
  after : Value
deriving Inhabited

instance : BEq Mutation :=
  ⟨fun a b => a.position == b.position && a.before == b.before && a.after == b.after⟩

/-- Primitive inputs by position and constants by instruction identity, both sorted by key. -/
structure MethodInputs where
  primitives : List (Nat × Value) := []
  constants : List (String × Value) := []
  mutation : Option Mutation := none
deriving Inhabited

namespace MethodInputs

/-- Record the value of the primitive statement at a position, unless it is null. -/
def addPrimitive (ins : MethodInputs) (t : TestCase) (p : Nat) : MethodInputs :=
  match (t.get? p).bind Statement.primitiveValue? with
  | some v => if v.isNull then ins else { ins with primitives := insertSorted p v ins.primitives }
  | none => ins

/-- Record what one reference of the map brings: a primitive, or an array's elements. -/
def addReference (t : TestCase) (ins : MethodInputs) (ref : VarRef) : MethodInputs :=
  match t.get? ref.position with
  | some { kind := .primitive _, .. } => ins.addPrimitive t ref.position
  | some { kind := .array _, .. } =>
    (t.arrayElements ref.position).foldl (fun acc (_, v) => acc.addPrimitive t v) ins
  | _ => ins

/-- Record what one root brings. -/
def addRoot (t : TestCase) (m : CodeMap) (ins : MethodInputs) (root : RootVariable) :
    MethodInputs :=
  if root.isConstant then
    match root.instruction.constantValue? with
    | some v => { ins with constants := insertSorted root.instruction.id v ins.constants }
    | none => ins
  else
    root.allChildren.foldl (fun acc node =>
      match m.get? node with
      | some refs => refs.foldl (addReference t) acc
      | none => acc) ins

/-- The inputs of the roots in a test case. -/
def build (roots : List RootVariable) (t : TestCase) (m : CodeMap) : MethodInputs :=
  roots.foldl (addRoot t m) {}

/-- No variables and no constants. -/
def isEmpty (ins : MethodInputs) : Bool := ins.primitives.isEmpty && ins.constants.isEmpty

/-- The variables in position order, then the constants. -/
def headValues (ins : MethodInputs) : List Value :=
  ins.primitives.map (·.2) ++ ins.constants.map (·.2)

/-- Mutate one mutable variable, in the inputs and in the test case; `none` when nothing is
mutable (or the test case no longer holds a primitive there). -/
def mutate (ins : MethodInputs) (t : TestCase) (m : Mutator) :
    Draw (Option Mutation × MethodInputs × TestCase) := do
  let candidates := (ins.primitives.filter fun (_, v) => Mutator.canMutate v).map (·.1)
  if candidates.isEmpty then return (none, ins, t)
  let i ← index candidates.length
  let position ← lookup candidates i 0
  match ins.primitives.lookup position with
  | none => return (none, ins, t)
  | some before =>
    match ← m.mutate before with
    | none => return (none, ins, t)
    | some after =>
      match t.setPrimitive position after with
      | (none, _) => return (none, ins, t)
      | (some _, t') =>
        let mu : Mutation := ⟨position, before, after⟩
        return (some mu,
          { ins with primitives := insertSorted position after ins.primitives, mutation := some mu }, t')

end MethodInputs

namespace TestCase

/-- The positions feeding a non-primitive statement, before unwrapping. -/
def feeders (t : TestCase) (p : Nat) (s : Statement) : List Nat :=
  match s.kind with
  | .primitive _ | .null => []
  | .array lengths => if lengths.headD 0 == 0 then [] else (t.arrayElements p).map (·.2)
  | k => (t.statements.zipIdx.filter fun (s', _) => s'.kind == k).map (·.2)

/-- Collect heads depth first from a position; `seen` holds the visited positions. -/
def collectHeads (t : TestCase) : Nat → Nat → List Nat × List Nat → Draw (List Nat × List Nat)
  | 0, _, acc => pure acc
  | fuel + 1, p, (seen, heads) =>
    if seen.contains p then pure (seen, heads)
    else
      let seen := p :: seen
      match t.get? p with
      | none => pure (seen, heads)
      | some s =>
        if s.isPrimitive then pure (seen, heads ++ [p])
        else
          (t.feeders p s).foldlM (fun acc f => do
            match ← t.rootValue f with
            | some q => t.collectHeads fuel q acc
            | none => pure acc) (seen, heads)

/-- The primitive statements feeding the statement at a position. -/
def headStatements (t : TestCase) (p : Nat) : Draw (List Nat) := do
  let (_, heads) ← t.collectHeads (t.len + 1) p ([], [])
  return heads

end TestCase

end BranchSensitivity
