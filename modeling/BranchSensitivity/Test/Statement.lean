import BranchSensitivity.Value.Basic

/-!
# Statements

A test case is a sequence of statements, each defining a variable named by the statement. A
statement holds a primitive value, creates an array, calls a constructor or a method, assigns a
previously defined value to an array element or a field, or holds null. Calls, arrays and
assignments refer to other statements by position.

A statement's references are the positions it names: a call's receiver then its arguments, an
assignment's value then its array or owner.
-/

namespace BranchSensitivity

/-- The variable defined at `position`, with its declared type. -/
structure VarRef where
  position : Nat
  type : TypeName
deriving DecidableEq, Inhabited, Repr

/-- A constructor or method invocation. -/
structure Call where
  /-- Declaring type of the invoked operation. -/
  owner : TypeName
  /-- Operation name, `<init>` for constructors. -/
  methodName : String
  /-- Parameter and return descriptor, e.g. `(I)V`. -/
  descriptor : String
  /-- Receiver of an instance method. -/
  callee : Option VarRef
  /-- Arguments in declaration order. -/
  params : List VarRef
deriving DecidableEq, Inhabited, Repr

/-- Name and descriptor, the form target operations are configured in. -/
def Call.signature (c : Call) : String := c.methodName ++ c.descriptor

/-- The left-hand side of an assignment. -/
inductive AssignTarget where
  /-- `array[index] = value` -/
  | arrayIndex (array index : Nat)
  /-- `owner.field = value`; a static field has no owner. -/
  | field (owner : Option Nat) (ownerType : TypeName) (name : String)
deriving DecidableEq, Inhabited, Repr

/-- An assignment of a previously defined value. -/
structure Assignment where
  target : AssignTarget
  value : VarRef
deriving DecidableEq, Inhabited, Repr

/-- What a statement does. -/
inductive StatementKind where
  | primitive (v : Value)
  | array (lengths : List Nat)
  | constructor (c : Call)
  | method (c : Call)
  | assignment (a : Assignment)
  | null
deriving Inhabited

/-- Equality of kinds, primitive values compared as values. -/
def StatementKind.beq : StatementKind → StatementKind → Bool
  | .primitive a, .primitive b => a == b
  | .array a, .array b => a == b
  | .constructor a, .constructor b => a == b
  | .method a, .method b => a == b
  | .assignment a, .assignment b => a == b
  | .null, .null => true
  | _, _ => false

instance : BEq StatementKind := ⟨StatementKind.beq⟩

/-- One line of a test case. -/
structure Statement where
  /-- The variable this statement defines (`int0`, `foo0.bar`, `intArray0[1]`). -/
  name : String
  /-- Declared or returned type. -/
  returnType : TypeName
  kind : StatementKind
deriving Inhabited

namespace Statement

instance : BEq Statement :=
  ⟨fun a b => a.name == b.name && a.returnType == b.returnType && a.kind == b.kind⟩

/-- Holds a primitive value. -/
def isPrimitive (s : Statement) : Bool :=
  match s.kind with
  | .primitive _ => true
  | _ => false

/-- Holds null. -/
def isNull (s : Statement) : Bool :=
  match s.kind with
  | .null => true
  | _ => false

/-- The value of a primitive statement. -/
def primitiveValue? (s : Statement) : Option Value :=
  match s.kind with
  | .primitive v => some v
  | _ => none

/-- The call of a constructor or method statement. -/
def call? (s : Statement) : Option Call :=
  match s.kind with
  | .constructor c | .method c => some c
  | _ => none

/-- The positions this statement refers to. -/
def references (s : Statement) : List Nat :=
  match s.kind with
  | .primitive _ | .array _ | .null => []
  | .constructor c | .method c => (c.callee.toList ++ c.params).map (·.position)
  | .assignment a =>
    match a.target with
    | .arrayIndex array _ => [a.value.position, array]
    | .field (some owner) _ _ => [a.value.position, owner]
    | .field none _ _ => [a.value.position]

/-- The statement as a line of source. -/
def text (s : Statement) : String :=
  let head := s.returnType.name ++ " " ++ s.name
  match s.kind with
  | .primitive (.str v) => head ++ " = \"" ++ v ++ "\";"
  | .primitive v => head ++ " = " ++ v.display ++ ";"
  | .null => head ++ " = null;"
  | .array lengths =>
    head ++ " = new " ++ s.returnType.elementType.name ++
      String.join (lengths.map fun l => "[" ++ toString l ++ "]") ++ ";"
  | .constructor c =>
    head ++ " = new " ++ c.owner.simpleName ++ "(" ++ toString c.params.length ++ ");"
  | .method c =>
    head ++ " = " ++ c.owner.simpleName ++ "." ++ c.methodName ++ "(" ++
      toString c.params.length ++ ");"
  | .assignment a => s.name ++ " = @" ++ toString a.value.position ++ ";"

end Statement

end BranchSensitivity
