import BranchSensitivity.Test.Case
import BranchSensitivity.Random.Uniform

/-!
# A test factory from templates

The factory builds a test by copying one of its template test cases, drawn uniformly; with
randomized primitives, each int, long and short primitive of the copy gets a fresh value drawn
from `-100..=100`. It only builds into an empty test case at position zero, and counts its
successful insertions.

A null statement is replaced by a small value of its type: an int, long, short or byte drawn from
`-10..=10`, a random boolean, `'a'`, zero, or the empty string, for the primitive types and their
boxed forms (`String` only boxed); an array type becomes an empty array and any other type a
no-argument constructor call. The statement keeps its name.
-/

namespace BranchSensitivity

open BranchSensitivity.Random

/-- The last statement calls the method with signature `target`, when one is given. -/
def TestCase.callsTarget (t : TestCase) : Option String → Bool
  | some sig => (t.lastMethodCall?.map (·.signature == sig)).getD false
  | none => true

/-- Builds tests by copying templates. -/
structure TemplateFactory where
  templates : List TestCase
  randomizePrimitives : Bool := false
  insertions : Nat := 0
deriving Inhabited

namespace TemplateFactory

/-- A fresh value for an integral primitive of a copied template, if it is one. -/
def freshPrimitive : Value → Draw (Option Value)
  | .int _ => do return some (.int (Int32.ofInt (← intInclusive .w32 (-100) 100)))
  | .long _ => do return some (.long (Int64.ofInt (← intInclusive .w64 (-100) 100)))
  | .short _ => do return some (.short (Int16.ofInt (← intInclusive .w16 (-100) 100)))
  | _ => pure none

/-- Give fresh values to the integral primitives at the positions listed. -/
def randomize (t : TestCase) : List Nat → Draw TestCase
  | [] => pure t
  | p :: ps => do
    match (t.get? p).bind Statement.primitiveValue? with
    | some v =>
      match ← freshPrimitive v with
      | some fresh => randomize (t.setPrimitive p fresh).2 ps
      | none => randomize t ps
    | none => randomize t ps

/-- Build a copy of a template into an empty test case at position zero; the position of its
last statement, or `none` when nothing was built. -/
def insert (f : TemplateFactory) (t : TestCase) (position : Nat) :
    Draw (Option Nat × TestCase × TemplateFactory) := do
  if f.templates.isEmpty || !t.isEmpty || position != 0 then return (none, t, f)
  let i ← index f.templates.length
  let copy ← lookup f.templates i {}
  let copy ← if f.randomizePrimitives then randomize copy (List.range copy.len) else pure copy
  let f := { f with insertions := f.insertions + 1 }
  return (if copy.len == 0 then none else some (copy.len - 1), copy, f)

/-- A small random value for a primitive or boxed type. -/
def defaultValue (ty : TypeName) : Draw (Option Value) :=
  match ty.name with
  | "int" | "java.lang.Integer" => do
    return some (.int (Int32.ofInt (← intInclusive .w32 (-10) 10)))
  | "long" | "java.lang.Long" => do
    return some (.long (Int64.ofInt (← intInclusive .w64 (-10) 10)))
  | "short" | "java.lang.Short" => do
    return some (.short (Int16.ofInt (← intInclusive .w16 (-10) 10)))
  | "byte" | "java.lang.Byte" => do
    return some (.byte (Int8.ofInt (← intInclusive .w8 (-10) 10)))
  | "boolean" | "java.lang.Boolean" => do return some (.bool (← coin 0.5))
  | "char" | "java.lang.Character" => pure (some (.char 'a'))
  | "float" | "java.lang.Float" => pure (some (.float 0.0))
  | "double" | "java.lang.Double" => pure (some (.double 0.0))
  | "java.lang.String" => pure (some (.str ""))
  | _ => pure none

/-- Replace the null statement at a position by a concretely typed one; `false` when the
statement there is not null. -/
def changeNull (t : TestCase) (position : Nat) : Draw (Bool × TestCase) := do
  match t.get? position with
  | some s =>
    if !s.isNull then return (false, t)
    let ty := s.returnType
    let kind : StatementKind ← match ← defaultValue ty with
      | some v => pure (.primitive v)
      | none =>
        if ty.isArray then pure (.array [0])
        else pure (.constructor ⟨ty, "<init>", "()V", none, []⟩)
    return t.replace position ⟨"", ty, kind⟩
  | none => return (false, t)

end TemplateFactory

end BranchSensitivity
