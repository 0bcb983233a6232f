import BranchSensitivity.Service.Document
import BranchSensitivity.Fixture

/-!
# Documents of values, instructions and dependency nodes

A value is written `{"kind": K, "value": X}`: null without value, characters as one-character
strings, machine integers as integers, floats as numbers (a 32-bit float widened exactly),
strings, and objects by their type name. On reading, integers are range-checked and floats may
also be the texts `NaN`, `inf`, `-inf` and `-0`; a 32-bit float is read as a double and rounded.

An instruction is `{"class", "method", "offset", "opcode", "operand"}` with every member optional
(the target method's class and signature, offset zero, `Other`); a branch is `{"id", "ins"}`; a
root variable `{"kind", "index", "owner", "name", "ins", "children"}`. The scenario's parts are
also accepted: `{"fx": "return_site"}`, `{"fx": "instruction", …}`, `{"fx": "target_branch"}`
and the root kinds `fx_param`, `fx_field`, `fx_local`; an `fx` member that names no part of an
instruction is refused, while a branch ignores one that is not `target_branch`. The number of a
branch object must fit in 32 bits; a branch number given bare is read as an unsigned 64-bit
integer and cut to its low 32 bits.
-/

namespace BranchSensitivity.Service

/-! ## Values -/

/-- A value as a document. -/
def valueJson (v : Value) : Json :=
  let body : Option Json := match v with
    | .null => none
    | .bool b => some (.bool b)
    | .char c => some (.str c.toString)
    | .byte x => some (Json.ofInt x.toInt)
    | .short x => some (Json.ofInt x.toInt)
    | .int x => some (Json.ofInt x.toInt)
    | .long x => some (Json.ofInt x.toInt)
    | .float x => some (floatJson x.toFloat)
    | .double x => some (floatJson x)
    | .str s => some (.str s)
    | .object ty => some (.str ty.name)
  match body with
  | some b => .obj [("kind", .str (v.kindName)), ("value", b)]
  | none => .obj [("kind", .str (v.kindName))]

/-- An optional value as a document. -/
def optValueJson : Option Value → Json
  | some v => valueJson v
  | none => .null

/-- An integer of a kind within `[lo, hi]`. -/
def boundedInt (kind : String) (lo hi : Int) (j : Option Json) : Decode Int :=
  match j.bind Json.asInt? with
  | some n => if lo ≤ n && n ≤ hi then .ok n else refuse s!"{kind} value out of range or not an integer"
  | none => refuse s!"{kind} value out of range or not an integer"

/-- A float of a kind. -/
def kindFloat (kind : String) (j : Option Json) : Decode Float :=
  match j.bind asFloat? with
  | some x => .ok x
  | none => refuse s!"{kind} value must be a number or NaN/inf/-inf/-0"

/-- A value from its document. -/
def readValue (j : Json) : Decode Value := do
  let kind ← req j "kind" asStr
  let body := j.field? "value"
  match kind with
  | "null" => return .null
  | "bool" =>
    match body with
    | some (.bool b) => return .bool b
    | _ => refuse "bool value"
  | "char" =>
    match body with
    | some (.str s) =>
      match s.toList with
      | [c] => return .char c
      | _ => refuse "char value must be exactly one character"
    | _ => refuse "char value must be a string"
  | "byte" => return .byte (Int8.ofInt (← boundedInt "byte" (-0x80) 0x7F body))
  | "short" => return .short (Int16.ofInt (← boundedInt "short" (-0x8000) 0x7FFF body))
  | "int" => return .int (Int32.ofInt (← boundedInt "int" (-0x80000000) 0x7FFFFFFF body))
  | "long" => return .long (Int64.ofInt (← boundedInt "long" (-0x8000000000000000) 0x7FFFFFFFFFFFFFFF body))
  | "float" => return .float (← kindFloat "float" body).toFloat32
  | "double" => return .double (← kindFloat "double" body)
  | "str" =>
    match body with
    | some (.str s) => return .str s
    | _ => refuse "str value must be a string"
  | "object" =>
    match body with
    | some (.str s) => return .object ⟨s⟩
    | _ => refuse "object value must be a string"
  | other => refuse s!"unknown value kind {other}"

/-- A value member. -/
def asValue (_ : String) (j : Json) : Decode Value := readValue j

/-! ## Instructions -/

/-- An opcode member. -/
def asOpcode (key : String) (j : Json) : Decode Opcode := do
  let name ← asStr key j
  match Opcode.ofName? name with
  | some op => return op
  | none => refuse s!"unknown opcode {name}"

/-- An offset member: an unsigned 32-bit integer. -/
def asOffset (key : String) (j : Json) : Decode Nat := do
  match j with
  | .num (.nat n) => if n < 0x100000000 then return n else refuse "offset exceeds u32"
  | _ => refuse s!"{key} must be a non-negative integer"

/-- An operand from its document: the first of `int`, `constant` and `field` that it has. -/
def readOperand (j : Json) : Decode Operand := do
  if let some v := j.field? "int" then
    let n ← match v.asInt? with
      | some n => if -0x80000000 ≤ n && n < 0x80000000 then pure n else refuse "operand int out of range"
      | none => refuse "operand int out of range"
    return .int (Int32.ofInt n)
  if let some v := j.field? "constant" then return .constant (← readValue v)
  if let some f := j.field? "field" then
    return .field (← req f "owner" asStr) (← req f "name" asStr)
  refuse "operand must hold int, constant or field"

/-- An instruction from its document, plain or one of the scenario's; an `fx` member that is
no text is ignored. The offset is read first, then the class, the method, the opcode and the
operand. -/
def readInstruction (j : Json) : Decode Instruction := do
  match j.field? "fx" with
  | some (.str "return_site") => return Fixture.returnSite
  | some (.str "instruction") =>
    return Fixture.instruction (← optD j "offset" asOffset 0) (← optD j "opcode" asOpcode .other)
  | some (.str name) => refuse s!"unknown instruction fixture {name}"
  | _ =>
    let offset ← optD j "offset" asOffset 0
    let className ← optD j "class" asStr Fixture.targetClass
    let methodName ← optD j "method" asStr Fixture.targetMethod
    return { className, methodName, offset
             opcode := ← optD j "opcode" asOpcode .other
             operand := ← (j.field? "operand").mapM readOperand }

/-- An instruction member. -/
def asInstruction (_ : String) (j : Json) : Decode Instruction := readInstruction j

/-- The default defining instruction of a root variable. -/
def defaultRootInstruction : Instruction := Fixture.instruction 0 .iload

/-- A branch from its document: the scenario's target branch for `{"fx": "target_branch"}`,
otherwise its number (the low 32 bits) and instruction, with any other `fx` ignored. -/
def readBranch (j : Json) : Decode Branch := do
  match j.field? "fx" with
  | some (.str "target_branch") => return Fixture.targetBranch
  | _ =>
    return ⟨← optD j "id" asBranchNumber 1, ← optD j "ins" asInstruction (Fixture.instruction 3 .ifCmp)⟩

/-- A branch member. -/
def asBranch (_ : String) (j : Json) : Decode Branch := readBranch j

/-- A branch member, the default branch when it is missing. -/
def branchOf (j : Json) (key : String) : Decode Branch := readBranch ((j.field? key).getD .null)

/-- A root variable from its document. -/
def readRoot : Nat → Json → Decode RootVariable
  | 0, _ => refuse "root nesting too deep"
  | fuel + 1, j => do
    let kind ← req j "kind" asStr
    match kind with
    | "fx_param" => return Fixture.intParameter (← req j "index" asNat)
    | "fx_field" => return Fixture.instanceField (← req j "name" asStr)
    | "fx_local" => return Fixture.localVar (← req j "name" asStr)
    | _ =>
      let vk : VariableKind ← match kind with
        | "const" => pure .constant
        | "param" => pure (.parameter (← req j "index" asNat))
        | "field" => pure (.instanceField ⟨← optD j "owner" asStr Fixture.targetClass⟩ (← req j "name" asStr))
        | "static" => pure (.staticField ⟨← optD j "owner" asStr Fixture.targetClass⟩ (← req j "name" asStr))
        | "local" => pure (.local (← req j "name" asStr))
        | other => refuse s!"unknown root kind {other}"
      let ins ← optD j "ins" asInstruction defaultRootInstruction
      let children ← listOf j "children" (readRoot fuel)
      return .mk vk ins children

/-- A root variable member. -/
def asRoot (_ : String) (j : Json) : Decode RootVariable := readRoot 200 j

/-- A computation path from its document; a missing branch is the default one, and the tail is
required. -/
def readPath (j : Json) : Decode ComputationPath := do
  return ⟨← branchOf j "branch", ← listOf j "nodes" (asRoot "nodes"), ← req j "tail" asInstruction⟩

/-- The texts of documents: the path written with root keys and the tail's identity. -/
def pathJson (p : ComputationPath) : Json :=
  .obj [("branch", Json.ofNat p.branch.id), ("nodes", strsJson (p.nodes.map (·.key))),
        ("tail", .str p.tail.id), ("field_rooted", .bool p.isFieldRooted)]

end BranchSensitivity.Service
