import BranchSensitivity.Dependency.Path
import BranchSensitivity.Test.Case
import BranchSensitivity.Random.Uniform
import BranchSensitivity.Error

/-!
# Resolving root variables to statements

A root variable is resolved against a seed test that calls the target method:

1. a constant resolves to the value its instruction pushes (an error when it pushes none);
2. otherwise, the earliest in-range reference the graph-to-code map has for it;
3. otherwise, by kind: a parameter is the target call's argument of that number, a field the
   last statement assigning it by name or calling its setter on its owner;
4. otherwise, the first target-call argument that resolves;
5. otherwise an error.

Every statement found is *unwrapped* to its root value statement by descending at most
`len` steps: a primitive or null stops; an array with exactly one non-zero length goes to the
value of the first assignment to its last element; a call with arguments goes to a randomly drawn
argument; an assignment goes to its value. A step to the same statement or out of range stops.
-/

namespace BranchSensitivity

open BranchSensitivity.Random

/-- The result of resolving one root variable. -/
inductive ResolvedInput where
  /-- A compile-time constant, no statement involved. -/
  | constant (v : Value)
  /-- The position of the root value statement. -/
  | statement (p : Nat)
deriving Inhabited

instance : BEq ResolvedInput :=
  ⟨fun a b => match a, b with
    | .constant x, .constant y => x == y
    | .statement p, .statement q => p == q
    | _, _ => false⟩

namespace TestCase

/-- Where one descent step from a statement leads, if anywhere. -/
def descentStep (t : TestCase) (current : Nat) (s : Statement) : Draw (Option Nat) :=
  match s.kind with
  | .primitive _ | .null => pure none
  | .array [len] =>
    if len > 0 then do
      let last ← decrement len
      pure (((t.arrayElements current).find? (·.1 == last)).map (·.2))
    else pure none
  | .array _ => pure none
  | .constructor c | .method c =>
    if c.params.isEmpty then pure none
    else do
      let i ← index c.params.length
      let param ← lookup c.params i default
      pure (some param.position)
  | .assignment a => pure (some a.value.position)

/-- At most `fuel` descent steps from `current`. -/
def descend (t : TestCase) : Nat → Nat → Draw Nat
  | 0, current => pure current
  | fuel + 1, current =>
    match t.get? current with
    | none => pure current
    | some s => do
      match ← t.descentStep current s with
      | some next =>
        if next != current && next < t.len then t.descend fuel next else pure current
      | none => pure current

/-- The root value statement reached from a position; `none` when it is out of range. -/
def rootValue (t : TestCase) (p : Nat) : Draw (Option Nat) :=
  if p < t.len then some <$> t.descend t.len p else pure none

/-- A statement defines a field when its variable is the field (`field` or `….field`), or when it
calls the field's setter (`set` + field, ASCII case ignored) on a type with the owner's internal
name. -/
def definesField (owner : TypeName) (field : String) (s : Statement) : Bool :=
  s.name == field || ("." ++ field).toList.isSuffixOf s.name.toList ||
    match s.kind with
    | .method c =>
      c.methodName.toList.map Char.toLower == ("set" ++ field).toList.map Char.toLower &&
        c.owner.internalName == owner.internalName
    | _ => false

/-- The last statement defining a field. -/
def fieldStatement? (t : TestCase) (owner : TypeName) (field : String) : Option Nat :=
  ((t.statements.zipIdx.reverse.find? fun (s, _) => definesField owner field s)).map (·.2)

end TestCase

/-- Resolves root variables against test cases calling one target method. -/
structure Resolver where
  targetMethod : String
deriving Inhabited

namespace Resolver

/-- The arguments of the last statement when it calls the target method. -/
def targetParams (r : Resolver) (t : TestCase) : List VarRef :=
  match t.lastMethodCall? with
  | some c => if c.signature == r.targetMethod then c.params else []
  | none => []

/-- The reference with the smallest in-range position, the first of equals. -/
def earliest? (refs : List VarRef) (t : TestCase) : Option VarRef :=
  (refs.filter (·.position < t.len)).foldl
    (fun best r => match best with
      | some b => if b.position ≤ r.position then some b else some r
      | none => some r) none

/-- The statement a root's kind names: a parameter, numbered from one, is that argument of the
target call; a field is the last statement defining it. -/
def kindPosition (r : Resolver) (root : RootVariable) (t : TestCase) : Option Nat :=
  match root.kind with
  | .parameter i => if i == 0 then none else ((r.targetParams t)[i - 1]?).map (·.position)
  | .instanceField owner name | .staticField owner name => t.fieldStatement? owner name
  | _ => none

/-- The first of the positions whose root value exists. -/
def firstRootValue (t : TestCase) : List Nat → Draw (Option Nat)
  | [] => pure none
  | p :: ps => do
    match ← t.rootValue p with
    | some q => pure (some q)
    | none => firstRootValue t ps

/-- Resolve a root variable against a test case, through the stages above. -/
def resolve (r : Resolver) (root : RootVariable) (t : TestCase) (m : CodeMap) :
    Draw (Except AnalysisError ResolvedInput) := do
  if root.isConstant then
    return match root.instruction.constantValue? with
      | some v => .ok (.constant v)
      | none => .error (.resolutionFailure (root.instruction.id ++ " is not a known constant"))
  let fromMap ← match (m.get? root).bind (earliest? · t) with
    | some ref => t.rootValue ref.position
    | none => pure none
  if let some p := fromMap then return .ok (.statement p)
  let byKind ← match r.kindPosition root t with
    | some p => t.rootValue p
    | none => pure none
  if let some p := byKind then return .ok (.statement p)
  match ← firstRootValue t ((r.targetParams t).map (·.position)) with
  | some p => return .ok (.statement p)
  | none => return .error (.resolutionFailure (root.key ++ " has no statement in the seed"))

end Resolver

end BranchSensitivity
