import BranchSensitivity.Value.Basic

/-!
# Instructions and branches

An instruction of the program under test is known by its class, its method (name and
descriptor), its offset in the method and its opcode; some carry an operand. Its identity text
`Class.method:offset OPCODE` keys observation sites. A branch is a decision point, numbered and
placed at an instruction.

The constant-pushing instructions have a value: `ICONST_M1` … `ICONST_5` push ints, `LCONST_0/1`
longs, `FCONST_0/1/2` floats, `DCONST_0/1` doubles, `BIPUSH`/`SIPUSH` their int operand and `LDC`
its constant (or int) operand.
-/

namespace BranchSensitivity

/-- The opcodes the analysis distinguishes. -/
inductive Opcode where
  | iconstM1 | iconst0 | iconst1 | iconst2 | iconst3 | iconst4 | iconst5
  | lconst0 | lconst1 | fconst0 | fconst1 | fconst2 | dconst0 | dconst1
  | bipush | sipush | ldc | iload | aload | getField | getStatic | putField | putStatic
  | invoke | ireturn | areturn | ifCmp | ifZero | other
deriving Repr, DecidableEq, Inhabited

namespace Opcode

/-- The mnemonic of an opcode. -/
def mnemonic : Opcode → String
  | .iconstM1 => "ICONST_M1" | .iconst0 => "ICONST_0" | .iconst1 => "ICONST_1"
  | .iconst2 => "ICONST_2" | .iconst3 => "ICONST_3" | .iconst4 => "ICONST_4"
  | .iconst5 => "ICONST_5" | .lconst0 => "LCONST_0" | .lconst1 => "LCONST_1"
  | .fconst0 => "FCONST_0" | .fconst1 => "FCONST_1" | .fconst2 => "FCONST_2"
  | .dconst0 => "DCONST_0" | .dconst1 => "DCONST_1" | .bipush => "BIPUSH"
  | .sipush => "SIPUSH" | .ldc => "LDC" | .iload => "ILOAD" | .aload => "ALOAD"
  | .getField => "GETFIELD" | .getStatic => "GETSTATIC" | .putField => "PUTFIELD"
  | .putStatic => "PUTSTATIC" | .invoke => "INVOKE" | .ireturn => "IRETURN"
  | .areturn => "ARETURN" | .ifCmp => "IF_CMP" | .ifZero => "IF" | .other => "OTHER"

/-- The name of an opcode in documents. -/
def name : Opcode → String
  | .iconstM1 => "IConstM1" | .iconst0 => "IConst0" | .iconst1 => "IConst1"
  | .iconst2 => "IConst2" | .iconst3 => "IConst3" | .iconst4 => "IConst4"
  | .iconst5 => "IConst5" | .lconst0 => "LConst0" | .lconst1 => "LConst1"
  | .fconst0 => "FConst0" | .fconst1 => "FConst1" | .fconst2 => "FConst2"
  | .dconst0 => "DConst0" | .dconst1 => "DConst1" | .bipush => "BiPush"
  | .sipush => "SiPush" | .ldc => "Ldc" | .iload => "ILoad" | .aload => "ALoad"
  | .getField => "GetField" | .getStatic => "GetStatic" | .putField => "PutField"
  | .putStatic => "PutStatic" | .invoke => "Invoke" | .ireturn => "IReturn"
  | .areturn => "AReturn" | .ifCmp => "IfCmp" | .ifZero => "If" | .other => "Other"

/-- Every opcode, in declaration order. -/
def all : List Opcode :=
  [.iconstM1, .iconst0, .iconst1, .iconst2, .iconst3, .iconst4, .iconst5, .lconst0, .lconst1,
   .fconst0, .fconst1, .fconst2, .dconst0, .dconst1, .bipush, .sipush, .ldc, .iload, .aload,
   .getField, .getStatic, .putField, .putStatic, .invoke, .ireturn, .areturn, .ifCmp, .ifZero,
   .other]

/-- The opcode of a document name. -/
def ofName? (n : String) : Option Opcode := all.find? (·.name == n)

/-- Pushes a compile-time constant. -/
def isConstant : Opcode → Bool
  | .iconstM1 | .iconst0 | .iconst1 | .iconst2 | .iconst3 | .iconst4 | .iconst5
  | .lconst0 | .lconst1 | .fconst0 | .fconst1 | .fconst2 | .dconst0 | .dconst1
  | .bipush | .sipush | .ldc => true
  | _ => false

end Opcode

/-- The immediate or constant-pool operand of an instruction. -/
inductive Operand where
  /-- An immediate int. -/
  | int (v : Int32)
  /-- A loaded constant. -/
  | constant (v : Value)
  /-- A field: its owner in internal form, and its name. -/
  | field (owner name : String)
deriving Inhabited

/-- Equality of operands, constants compared as values. -/
def Operand.beq : Operand → Operand → Bool
  | .int a, .int b => a == b
  | .constant a, .constant b => a == b
  | .field o n, .field o' n' => o == o' && n == n'
  | _, _ => false

instance : BEq Operand := ⟨Operand.beq⟩

/-- One instruction of the program under test. -/
structure Instruction where
  /-- Declaring class, dotted form. -/
  className : String
  /-- Method name with descriptor. -/
  methodName : String
  offset : Nat
  opcode : Opcode
  operand : Option Operand := none
deriving Inhabited

namespace Instruction

instance : BEq Instruction :=
  ⟨fun a b => a.className == b.className && a.methodName == b.methodName &&
    a.offset == b.offset && a.opcode == b.opcode && a.operand == b.operand⟩

/-- The identity text `Class.method:offset OPCODE`. -/
def id (i : Instruction) : String :=
  i.className ++ "." ++ i.methodName ++ ":" ++ toString i.offset ++ " " ++ i.opcode.mnemonic

/-- Pushes a compile-time constant. -/
def isConstant (i : Instruction) : Bool := i.opcode.isConstant

/-- The owner of a field operand, in internal form. -/
def fieldOwner? (i : Instruction) : Option String :=
  match i.operand with
  | some (.field owner _) => some owner
  | _ => none

/-- The value a constant-pushing instruction pushes. -/
def constantValue? (i : Instruction) : Option Value :=
  match i.opcode, i.operand with
  | .iconstM1, _ => some (.int (-1))
  | .iconst0, _ => some (.int 0)
  | .iconst1, _ => some (.int 1)
  | .iconst2, _ => some (.int 2)
  | .iconst3, _ => some (.int 3)
  | .iconst4, _ => some (.int 4)
  | .iconst5, _ => some (.int 5)
  | .lconst0, _ => some (.long 0)
  | .lconst1, _ => some (.long 1)
  | .fconst0, _ => some (.float 0.0)
  | .fconst1, _ => some (.float 1.0)
  | .fconst2, _ => some (.float 2.0)
  | .dconst0, _ => some (.double 0.0)
  | .dconst1, _ => some (.double 1.0)
  | .bipush, some (.int v) | .sipush, some (.int v) => some (.int v)
  | .ldc, some (.constant v) => some v
  | .ldc, some (.int v) => some (.int v)
  | _, _ => none

end Instruction

/-- A decision point of the program under test. -/
structure Branch where
  id : Nat
  instruction : Instruction
deriving Inhabited

namespace Branch

instance : BEq Branch := ⟨fun a b => a.id == b.id && a.instruction == b.instruction⟩

/-- The text `branch:N` of a branch number. -/
def idText (n : Nat) : String := "branch:" ++ toString n

/-- The class of the branch. -/
def className (b : Branch) : String := b.instruction.className

/-- The method of the branch. -/
def methodName (b : Branch) : String := b.instruction.methodName

end Branch

end BranchSensitivity
