import BranchSensitivity.Test.Statement
import BranchSensitivity.Text.Lowercase

/-!
# Test cases

A test case is an ordered sequence of statements; a statement's position is its index. A
reference is *dangling* when it points past its own statement or past the end; a test case
without dangling references is consistent.

The builders append a statement and name its variable. A declaring builder names it after its
type: the simple name of the element type with its first character lowercase (`var` when empty),
`Array` added for an array type, then the number of statements already named that way followed
by digits (`int0`, `int1`, `fooArray0`). An array element is named `array[index]` and a field
`owner.field`, or `Type.field` for a static one.

    (t.push s).2.statements = t.statements ++ [s]
-/

namespace BranchSensitivity

/-- An ordered sequence of statements. -/
structure TestCase where
  statements : List Statement := []
deriving Inhabited

namespace TestCase

instance : BEq TestCase := ⟨fun a b => a.statements == b.statements⟩

/-- Number of statements. -/
def len (t : TestCase) : Nat := t.statements.length

/-- Has no statements. -/
def isEmpty (t : TestCase) : Bool := t.statements.isEmpty

/-- The statement at a position. -/
def get? (t : TestCase) (p : Nat) : Option Statement := t.statements[p]?

/-- The last statement. -/
def last? (t : TestCase) : Option Statement := t.statements.getLast?

/-- Append a statement; the reference to the variable it defines. -/
def push (t : TestCase) (s : Statement) : VarRef × TestCase :=
  (⟨t.len, s.returnType⟩, ⟨t.statements ++ [s]⟩)

@[simp] theorem push_statements (t : TestCase) (s : Statement) :
    (t.push s).2.statements = t.statements ++ [s] := rfl

/-- Replace the statement at a position, keeping its variable name; `false` when out of range. -/
def replace (t : TestCase) (p : Nat) (s : Statement) : Bool × TestCase :=
  match t.get? p with
  | some old => (true, ⟨t.statements.set p { s with name := old.name }⟩)
  | none => (false, t)

/-- Overwrite the value of the primitive statement at a position; the previous value, or
`none` when the statement is not primitive. -/
def setPrimitive (t : TestCase) (p : Nat) (v : Value) : Option Value × TestCase :=
  match t.get? p with
  | some s =>
    match s.kind with
    | .primitive old => (some old, ⟨t.statements.set p { s with kind := .primitive v }⟩)
    | _ => (none, t)
  | none => (none, t)

/-- Pairs `(statement, reference)` whose reference points past its statement or the end. -/
def danglingReferences (t : TestCase) : List (Nat × Nat) :=
  (t.statements.zipIdx.map fun (s, p) =>
    (s.references.filter fun r => r > p || r ≥ t.len).map fun r => (p, r)).flatten

/-- No reference points past its statement. -/
def isConsistent (t : TestCase) : Bool := t.danglingReferences.isEmpty

/-- The call of the last statement, when it is a method statement. -/
def lastMethodCall? (t : TestCase) : Option Call :=
  match t.last? with
  | some { kind := .method c, .. } => some c
  | _ => none

/-- Index assignments into the array defined at `array`, as `(index, value position)`, from
the array's position onward. -/
def arrayElements (t : TestCase) (array : Nat) : List (Nat × Nat) :=
  (t.statements.drop array).filterMap fun s =>
    match s.kind with
    | .assignment ⟨.arrayIndex a index, value⟩ => if a == array then some (index, value.position) else none
    | _ => none

/-- The argument values of the call at a position: a primitive argument's value, null for a
null or missing argument, an object of the argument's type otherwise. -/
def argumentValues (t : TestCase) (p : Nat) : List Value :=
  match (t.get? p).bind Statement.call? with
  | none => []
  | some c => c.params.map fun r =>
    match t.get? r.position with
    | some { kind := .primitive v, .. } => v
    | some { kind := .null, .. } | none => Value.null
    | some _ => Value.object r.type

/-- The statements as source lines, each ended by a line feed. -/
def text (t : TestCase) : String := String.join (t.statements.map fun s => s.text ++ "\n")

/-! ## Naming -/

/-- The stem of variable names for a type. -/
def nameStem (ty : TypeName) : String :=
  let base := match ty.elementType.simpleName.toList with
    | c :: rest => String.ofList (Text.lowercase c ++ rest)
    | [] => "var"
  if ty.isArray then base ++ "Array" else base

/-- The name is the stem followed by one or more ASCII digits. -/
def isNumbered (stem name : String) : Bool :=
  stem.toList.isPrefixOf name.toList &&
    let rest := name.toList.drop stem.length
    !rest.isEmpty && rest.all Char.isDigit

/-- A fresh variable name for a type: its stem and the count of names already numbered so. -/
def freshName (t : TestCase) (ty : TypeName) : String :=
  let stem := nameStem ty
  stem ++ toString (t.statements.countP fun s => isNumbered stem s.name)

/-- The name of the variable at a position, `var<position>` when there is none. -/
def nameOf (t : TestCase) (p : Nat) : String :=
  match t.get? p with
  | some s => s.name
  | none => "var" ++ toString p

/-! ## Builders -/

/-- Append a primitive statement of the given type. -/
def addTypedPrimitive (t : TestCase) (ty : TypeName) (v : Value) : VarRef × TestCase :=
  t.push ⟨t.freshName ty, ty, .primitive v⟩

/-- Append a primitive statement of the value's own type. -/
def addPrimitive (t : TestCase) (v : Value) : VarRef × TestCase :=
  t.addTypedPrimitive v.typeName v

/-- Append a null statement. -/
def addNull (t : TestCase) (ty : TypeName) : VarRef × TestCase :=
  t.push ⟨t.freshName ty, ty, .null⟩

/-- Append an array creation. -/
def addArray (t : TestCase) (ty : TypeName) (lengths : List Nat) : VarRef × TestCase :=
  t.push ⟨t.freshName ty, ty, .array lengths⟩

/-- Append `array[index] = value`. -/
def addArrayAssignment (t : TestCase) (array : VarRef) (index : Nat) (value : VarRef) :
    VarRef × TestCase :=
  t.push ⟨t.nameOf array.position ++ "[" ++ toString index ++ "]", array.type.elementType,
    .assignment ⟨.arrayIndex array.position index, value⟩⟩

/-- Append `owner.field = value`, a static field when there is no owner. -/
def addFieldAssignment (t : TestCase) (owner : Option VarRef) (ownerType : TypeName)
    (field : String) (value : VarRef) : VarRef × TestCase :=
  let pre := match owner with
    | some o => t.nameOf o.position
    | none => ownerType.simpleName
  t.push ⟨pre ++ "." ++ field, value.type,
    .assignment ⟨.field (owner.map (·.position)) ownerType field, value⟩⟩

/-- Append a constructor call. -/
def addConstructor (t : TestCase) (owner : TypeName) (descriptor : String)
    (params : List VarRef) : VarRef × TestCase :=
  t.push ⟨t.freshName owner, owner, .constructor ⟨owner, "<init>", descriptor, none, params⟩⟩

/-- Append a method call. -/
def addMethod (t : TestCase) (callee : Option VarRef) (owner : TypeName) (name descriptor : String)
    (params : List VarRef) (returnType : TypeName) : VarRef × TestCase :=
  t.push ⟨t.freshName returnType, returnType,
    .method ⟨owner, name, descriptor, callee, params⟩⟩

end TestCase

end BranchSensitivity
