import BranchSensitivity.Chromosome

/-!
# Simulated programs

A simulated target method is a small program over what the method sees when called: its
arguments (the argument values of the test's final call) and the test's field assignments. It
has guards and probes: when a guard fails the run fires nothing and has distance one; otherwise
each probe whose expression is defined fires its value at its site, and the run has the
program's distance.

Expressions: an argument (numbered from one), the value of the last primitive assignment to a
field, a field read as an int (zero when it is no int), a constant, the text of a value, and
sums, differences and products; an expression that names nothing is never defined, and a guard
that names nothing never holds. Two ints combine as 32-bit ints and an int or long with an int or
long as 64-bit longs, both wrapping around; a double on either side combines the float views as
doubles; other operands leave the result undefined.

A fitness function runs the program on a chromosome whose final statement calls the target
method; any other chromosome scores one without running.
-/

namespace BranchSensitivity

/-- What the target method sees when called. -/
structure ProgramInput where
  test : TestCase
  /-- The argument values of the target call. -/
  arguments : List Value

namespace ProgramInput

/-- An argument, numbered from one. -/
def argument? (i : ProgramInput) (n : Nat) : Option Value :=
  if n == 0 then none else i.arguments[n - 1]?

/-- The value of the last assignment to a field whose value statement is primitive. -/
def field? (i : ProgramInput) (name : String) : Option Value :=
  i.test.statements.reverse.findSome? fun s =>
    match s.kind with
    | .assignment ⟨.field _ _ f, value⟩ =>
      if f == name then (i.test.get? value.position).bind Statement.primitiveValue? else none
    | _ => none

end ProgramInput

/-- An arithmetic operation of expressions. -/
inductive ArithOp where
  | add | sub | mul
deriving DecidableEq, Inhabited, Repr

/-- An expression over the input of a run. -/
inductive ProgramExpr where
  /-- An expression that names nothing; it is never defined. -/
  | undefined
  | arg (n : Nat)
  | field (name : String)
  | intField (name : String)
  | const (v : Value)
  | text (e : ProgramExpr)
  | arith (op : ArithOp) (a b : ProgramExpr)
deriving Inhabited

/-- A guard of a program. -/
inductive ProgramCond where
  /-- A guard that names nothing; it never holds. -/
  | never
  | present (e : ProgramExpr)
  | isInt (e : ProgramExpr)
  | not (c : ProgramCond)
  | ge (a b : ProgramExpr)
deriving Inhabited

namespace ArithOp

/-- On 32-bit ints, wrapping around. -/
def int32 : ArithOp → Int32 → Int32 → Int32
  | .add, a, b => a + b
  | .sub, a, b => a - b
  | .mul, a, b => a * b

/-- On 64-bit longs, wrapping around. -/
def int64 : ArithOp → Int64 → Int64 → Int64
  | .add, a, b => a + b
  | .sub, a, b => a - b
  | .mul, a, b => a * b

/-- On doubles. -/
def double : ArithOp → Float → Float → Float
  | .add, a, b => a + b
  | .sub, a, b => a - b
  | .mul, a, b => a * b

/-- The 64-bit view of an int or a long. -/
def longView : Value → Option Int64
  | .int v => some v.toInt64
  | .long v => some v
  | _ => none

/-- Combine two values. -/
def apply (op : ArithOp) (a b : Value) : Option Value :=
  match a, b with
  | .int x, .int y => some (.int (op.int32 x y))
  | _, _ =>
    match longView a, longView b with
    | some x, some y => some (.long (op.int64 x y))
    | _, _ =>
      let hasDouble := (a matches .double _) || (b matches .double _)
      if hasDouble then
        match a.asFloat, b.asFloat with
        | some x, some y => some (.double (op.double x y))
        | _, _ => none
      else none

end ArithOp

/-- The value of an expression, if defined. -/
def ProgramExpr.eval (i : ProgramInput) : ProgramExpr → Option Value
  | .undefined => none
  | .arg n => i.argument? n
  | .field name => i.field? name
  | .intField name =>
    match i.field? name with
    | some (.int v) => some (.int v)
    | _ => some (.int 0)
  | .const v => some v
  | .text e => (e.eval i).map fun v => .str v.display
  | .arith op a b =>
    match a.eval i, b.eval i with
    | some x, some y => op.apply x y
    | _, _ => none

/-- Whether a guard holds. -/
def ProgramCond.holds (i : ProgramInput) : ProgramCond → Bool
  | .never => false
  | .present e => (e.eval i).isSome
  | .isInt e => ((e.eval i) matches some (.int _))
  | .not c => !c.holds i
  | .ge a b =>
    match (a.eval i).bind Value.asFloat, (b.eval i).bind Value.asFloat with
    | some x, some y => x ≥ y
    | _, _ => false

/-- The probes fired by one run, and its branch distance. -/
structure ProgramRun where
  probes : List (String × Value) := []
  distance : Float
deriving Inhabited

/-- A simulated target method. -/
structure Program where
  guards : List ProgramCond := []
  probes : List (Instruction × ProgramExpr) := []
  distance : Float := 0.0
deriving Inhabited

/-- Run a program on an input. -/
def Program.run (p : Program) (i : ProgramInput) : ProgramRun :=
  if p.guards.all (·.holds i) then
    { probes := p.probes.filterMap fun (site, e) => (e.eval i).map (site.id, ·),
      distance := p.distance }
  else { distance := 1.0 }

/-- The program that adds the int field `offset` (zero when unset) to an int first argument and
fires the sum at the given return site. -/
def Program.adding (site : Instruction) : Program :=
  { guards := [.isInt (.arg 1)],
    probes := [(site, .arith .add (.arg 1) (.intField "offset"))] }

end BranchSensitivity
