import BranchSensitivity.Report
import BranchSensitivity.Json.Reader

/-!
# The stored layout of a report

A report is stored as one document: its branch number (or null), root variables, observation
sites, resolved heads, trials and similarity settings, followed by its two ratios. Each variant is
tagged by its name (`{"Parameter": {"index": 1}}`, `{"Statement": 3}`, `"Constant"`), a value by
`{"kind", "value"}`, and keyed maps are objects with the keys in order.

Non-finite numbers are stored as null. A 32-bit float is stored with the fewest decimal digits
that read back as that float, so `0.1f` is stored as `0.1`, while it is written
`0.10000000149011612` elsewhere. The document is given as it reads back from its text, so each
number is the double its stored digits read as.
-/

namespace BranchSensitivity.Stored

/-- A double as it reads back from its stored text, null when it is not finite. The text holds
its shortest digits, and reading multiplies or divides their integer by a power of ten, which
may land on a neighbouring double. -/
def double (x : Float) : Json :=
  let b := x.toBits
  if x.isNaN || x.isInf then .null
  else
    let d := Decimal.shortest .toEven (Decimal.Binary.ofBits b)
    match Json.floatOfParts (b >>> 63 == 0) d.digits d.exp with
    | some f => .num (.float f)
    | none => .null

/-- A 32-bit float by its own shortest digits, read back as a double. -/
def float32 (x : Float32) : Json :=
  let b := x.toBits
  if x.isNaN || x.isInf then .null
  else
    let d := Decimal.shortest .toEven (Decimal.Binary.ofBits32 b)
    match Json.floatOfParts (b >>> 31 == 0) d.digits d.exp with
    | some f => .num (.float f)
    | none => .null

/-- A value: its kind and, but for null, its content. -/
def value (v : Value) : Json :=
  let body : Option Json := match v with
    | .null => none
    | .bool b => some (.bool b)
    | .char c => some (.str c.toString)
    | .byte x => some (Json.ofInt x.toInt)
    | .short x => some (Json.ofInt x.toInt)
    | .int x => some (Json.ofInt x.toInt)
    | .long x => some (Json.ofInt x.toInt)
    | .float x => some (float32 x)
    | .double x => some (double x)
    | .str s => some (.str s)
    | .object ty => some (.str ty.name)
  match body with
  | some b => .obj [("kind", .str v.kindName), ("value", b)]
  | none => .obj [("kind", .str v.kindName)]

/-- An operand, tagged by its variant. -/
def operand : Operand → Json
  | .int v => .obj [("Int", Json.ofInt v.toInt)]
  | .constant v => .obj [("Constant", value v)]
  | .field owner name => .obj [("Field", .obj [("owner", .str owner), ("name", .str name)])]

/-- An instruction with its class, method, offset, opcode and operand. -/
def instruction (i : Instruction) : Json :=
  .obj [("class_name", .str i.className), ("method_name", .str i.methodName),
    ("offset", Json.ofNat i.offset), ("opcode", .str i.opcode.name),
    ("operand", Json.ofOption operand i.operand)]

/-- The kind of a root variable, tagged by its variant. -/
def variableKind : VariableKind → Json
  | .constant => .str "Constant"
  | .parameter i => .obj [("Parameter", .obj [("index", Json.ofNat i)])]
  | .instanceField owner name =>
    .obj [("InstanceField", .obj [("owner", .str owner.name), ("name", .str name)])]
  | .staticField owner name =>
    .obj [("StaticField", .obj [("owner", .str owner.name), ("name", .str name)])]
  | .local name => .obj [("Local", .obj [("name", .str name)])]

/-- A root variable with the graph below it. -/
def rootVariable : RootVariable → Json
  | .mk kind ins children =>
    .obj [("kind", variableKind kind), ("instruction", instruction ins),
      ("children", .arr (children.attach.map fun ⟨c, _⟩ => rootVariable c))]

/-- A resolved input, tagged by its variant. -/
def resolvedInput : ResolvedInput → Json
  | .constant v => .obj [("Constant", value v)]
  | .statement p => .obj [("Statement", Json.ofNat p)]

/-- Method inputs: variables by position and constants by identity, and the mutation. -/
def inputs (ins : MethodInputs) : Json :=
  .obj [("variables", .obj (ins.primitives.map fun (p, v) => (toString p, value v))),
    ("constants", .obj (ins.constants.map fun (k, v) => (k, value v))),
    ("mutation", Json.ofOption (fun (mu : Mutation) => .obj [("position", Json.ofNat mu.position),
      ("before", value mu.before), ("after", value mu.after)]) ins.mutation)]

/-- One trial. -/
def record (r : ObservationRecord) : Json :=
  .obj [("trial", Json.ofNat r.trial.toNat), ("group", Json.ofNat r.group.toNat), ("inputs", inputs r.inputs),
    ("observations", .obj (r.observations.map fun (k, vs) => (k, .arr (vs.map value))))]

/-- The stored document of a report, with its ratios. -/
def report (r : Report) : Json :=
  .obj [("branch", Json.ofOption Json.ofNat r.branch),
    ("root_variables", .arr (r.roots.map rootVariable)),
    ("observations", .arr (r.sites.map instruction)),
    ("resolved_heads", .arr (r.resolvedHeads.map fun h => .obj [("root", .str h.root),
      ("input", resolvedInput h.input), ("head_positions", .arr (h.headPositions.map Json.ofNat))])),
    ("records", .arr (r.records.map record)),
    ("similarity", .obj [("threshold", double r.similarity.threshold),
      ("tolerance", double r.similarity.tolerance)]),
    ("sensitivity_ratio", double r.sensitivityRatio),
    ("value_preservation_ratio", double r.valuePreservationRatio)]

end BranchSensitivity.Stored
