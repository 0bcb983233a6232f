import BranchSensitivity.Service.Model

/-!
# Documents of test cases

A reference is written `[position, "type"]`, and read in that form or as `{"position", "type"}`
(`int` by default) inside statements and maps. A call read from a statement is named `<init>` for
a constructor and `m` for a method unless it names itself.

A test case is read as a list of builder operations applied in order to an empty test case; each
operation answers a result, and the statement it made or addressed. A builder operation names
positions only; a position is typed by the operation's matching `…_type` member when it has one,
and otherwise by the return type of the statement there (`java.lang.Object` when there is none).
-/

namespace BranchSensitivity.Service

/-! ## Writing -/

/-- A reference as a document. -/
def refJson (r : VarRef) : Json := .arr [Json.ofNat r.position, .str r.type.name]

/-- A call as a document. -/
def callJson (c : Call) : Json :=
  .obj [("owner", .str c.owner.name), ("name", .str c.methodName), ("descriptor", .str c.descriptor),
        ("callee", Json.ofOption refJson c.callee), ("params", .arr (c.params.map refJson))]

/-- What a statement does, as a document. -/
def kindJson : StatementKind → Json
  | .null => .str "null"
  | .primitive v => .obj [("primitive", valueJson v)]
  | .array ls => .obj [("array", natsJson ls)]
  | .constructor c => .obj [("constructor", callJson c)]
  | .method c => .obj [("method", callJson c)]
  | .assignment ⟨.field owner ownerType field, value⟩ =>
    .obj [("assign_field", .obj [("owner", Json.ofOption Json.ofNat owner),
      ("owner_type", .str ownerType.name), ("field", .str field), ("value", refJson value)])]
  | .assignment ⟨.arrayIndex array index, value⟩ =>
    .obj [("assign_index", .obj [("array", Json.ofNat array), ("index", Json.ofNat index),
      ("value", refJson value)])]

/-- A statement as a document, with its source line. -/
def statementJson (s : Statement) : Json :=
  .obj [("name", .str s.name), ("type", .str s.returnType.name), ("kind", kindJson s.kind),
        ("text", .str s.text)]

/-- The statements of a test case as documents. -/
def testJson (t : TestCase) : Json := .arr (t.statements.map statementJson)

/-! ## Reading -/

/-- A type name member. -/
def asType (key : String) (j : Json) : Decode TypeName := do return ⟨← asStr key j⟩

/-- A written reference: `[position, "type"]`, or `{"position", "type"}` with the type `int` by
default; an array of another length is refused. -/
def readRef (j : Json) : Decode VarRef := do
  match j with
  | .arr [p, ty] => return ⟨← asNat "position" p, ← asType "type" ty⟩
  | .arr _ => refuse "reference array must be [position, type]"
  | _ => return ⟨← req j "position" asNat, ← optD j "type" asType .int⟩

/-- A written reference member. -/
def asRef (_ : String) (j : Json) : Decode VarRef := readRef j

/-- A list of written references. -/
def refsOf (j : Json) (key : String) : Decode (List VarRef) := listOf j key readRef

/-- The reference to a position of a test case, typed by `type` when given and otherwise by the
statement there (`java.lang.Object` when there is none). -/
def refAt (t : TestCase) (p : Nat) (type : Option TypeName) : VarRef :=
  ⟨p, type.getD (((t.get? p).map (·.returnType)).getD .object)⟩

/-- A position member of a builder operation, with its optional type member. -/
def positionRef (t : TestCase) (j : Json) (key typeKey : String) : Decode VarRef := do
  let p ← req j key asNat
  return refAt t p (← opt j typeKey asType)

/-- An optional position member of a builder operation, with its optional type member. -/
def optPositionRef (t : TestCase) (j : Json) (key typeKey : String) : Decode (Option VarRef) := do
  match ← opt j key asNat with
  | some p => return some (refAt t p (← opt j typeKey asType))
  | none => return none

/-- The parameter positions of a builder operation. -/
def paramRefs (t : TestCase) (j : Json) : Decode (List VarRef) :=
  listOf j "params" fun p => do return refAt t (← asNat "param position" p) none

/-- A call from its document, named `name` unless it says otherwise. -/
def readCall (name : String) (j : Json) : Decode Call := do
  return { owner := ← optD j "owner" asType ⟨Fixture.targetClass⟩
           methodName := ← optD j "name" asStr name
           descriptor := ← optD j "descriptor" asStr "()V"
           callee := ← opt j "callee" asRef
           params := ← refsOf j "params" }

/-- What a statement does, from its document: the text `null`, or the first of `primitive`,
`array`, `constructor`, `method`, `assign_field` and `assign_index` that the object has. -/
def readKind (j : Json) : Decode StatementKind := do
  if let .str "null" := j then return .null
  if let some v := j.field? "primitive" then return .primitive (← readValue v)
  if let some v := j.field? "array" then
    match v with
    | .arr ls => return .array (← ls.mapM (asNat "length"))
    | _ => refuse "array lengths"
  if let some c := j.field? "constructor" then return .constructor (← readCall "<init>" c)
  if let some c := j.field? "method" then return .method (← readCall "m" c)
  if let some a := j.field? "assign_field" then
    return .assignment ⟨.field (← opt a "owner" asNat) (← optD a "owner_type" asType ⟨Fixture.targetClass⟩)
      (← req a "field" asStr), ← req a "value" asRef⟩
  if let some a := j.field? "assign_index" then
    return .assignment ⟨.arrayIndex (← req a "array" asNat) (← req a "index" asNat),
      ← req a "value" asRef⟩
  refuse "unknown statement kind"

/-- A statement from its document. -/
def readStatement (j : Json) : Decode Statement := do
  return ⟨← optD j "name" asStr "", ← optD j "type" asType .int, ← req j "kind" (fun _ k => readKind k)⟩

/-- Apply one builder operation: its result, the position of the statement it made or
addressed, and the new test case. -/
def applyOp (t : TestCase) (j : Json) : Decode (Json × Nat × TestCase) := do
  let made := fun (r : VarRef × TestCase) => (Json.ofNat r.1.position, r.1.position, r.2)
  match ← req j "op" asStr with
  | "primitive" => return made (t.addPrimitive (← req j "value" asValue))
  | "typed_primitive" => return made (t.addTypedPrimitive (← req j "type" asType) (← req j "value" asValue))
  | "null" => return made (t.addNull (← req j "type" asType))
  | "array" =>
    let lengths ← listOf j "lengths" (asNat "length")
    return made (t.addArray (← req j "type" asType) lengths)
  | "array_assign" =>
    let array ← positionRef t j "array" "array_type"
    let value ← positionRef t j "value" "value_type"
    return made (t.addArrayAssignment array (← req j "index" asNat) value)
  | "field_assign" =>
    let owner ← optPositionRef t j "owner" "owner_ref_type"
    let value ← positionRef t j "value" "value_type"
    return made (t.addFieldAssignment owner (← optD j "owner_type" asType ⟨Fixture.targetClass⟩)
      (← req j "field" asStr) value)
  | "constructor" =>
    let params ← paramRefs t j
    return made (t.addConstructor (← optD j "owner" asType ⟨Fixture.targetClass⟩)
      (← optD j "descriptor" asStr "()V") params)
  | "method" =>
    let callee ← optPositionRef t j "callee" "callee_type"
    let params ← paramRefs t j
    return made (t.addMethod callee (← optD j "owner" asType ⟨Fixture.targetClass⟩)
      (← req j "name" asStr) (← optD j "descriptor" asStr "()V") params
      (← optD j "return_type" asType ⟨"void"⟩))
  | "raw" => return made (t.push (← req j "statement" (fun _ s => readStatement s)))
  | "replace" =>
    let p ← req j "position" asNat
    let (ok, t) := t.replace p (← req j "statement" (fun _ s => readStatement s))
    return (.bool ok, p, t)
  | "set_primitive" =>
    let p ← req j "position" asNat
    let (old, t) := t.setPrimitive p (← req j "value" asValue)
    return (optValueJson old, p, t)
  | other => refuse s!"unknown test op {other}"

/-- A test case from its builder operations; a malformed operation refuses the request. -/
def readTest (j : Json) : Decode TestCase := do
  let ops ← match j with
    | .arr ops => pure ops
    | _ => refuse "test must be an array of builder ops"
  ops.foldlM (fun t op => do return (← applyOp t op).2.2) {}

/-- A test case member. -/
def asTest (_ : String) (j : Json) : Decode TestCase := readTest j

end BranchSensitivity.Service
