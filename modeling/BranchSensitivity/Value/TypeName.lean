/-!
# Type names

A type name is written in source notation: `int`, `java.lang.String`, `int[]`. A name with a `[`
names an array; its element type is the part before the first `[`. A name with a `.` is
qualified by a package; its simple name is the part after the last `.`, and its internal name
writes each `.` as `/`, as bytecode owners do.
-/

namespace BranchSensitivity

/-- A declared or returned type, in source notation. -/
structure TypeName where
  name : String
deriving DecidableEq, Hashable, Inhabited, Repr

namespace TypeName

instance : Ord TypeName := ⟨fun a b => compare a.name b.name⟩

instance : ToString TypeName := ⟨TypeName.name⟩

/-- Names an array type. -/
def isArray (t : TypeName) : Bool := t.name.toList.contains '['

/-- Names a class scoped by a package. -/
def isQualified (t : TypeName) : Bool := t.name.toList.contains '.'

/-- The type with its array markers removed: the part before the first `[`. -/
def elementType (t : TypeName) : TypeName :=
  ⟨String.ofList (t.name.toList.takeWhile (· != '['))⟩

/-- The internal name, each `.` written `/`. -/
def internalName (t : TypeName) : String :=
  String.ofList (t.name.toList.map fun c => if c == '.' then '/' else c)

/-- The simple name: the part after the last `.`. -/
def simpleName (t : TypeName) : String :=
  String.ofList (t.name.toList.reverse.takeWhile (· != '.')).reverse

/-! ## Names of the values' types -/

/-- The root class, the declared type of a null value. -/
def object : TypeName := ⟨"java.lang.Object"⟩
/-- The string class. -/
def string : TypeName := ⟨"java.lang.String"⟩
/-- The primitive boolean type. -/
def boolean : TypeName := ⟨"boolean"⟩
/-- The primitive 16-bit character type. -/
def char : TypeName := ⟨"char"⟩
/-- The primitive 8-bit integer type. -/
def byte : TypeName := ⟨"byte"⟩
/-- The primitive 16-bit integer type. -/
def short : TypeName := ⟨"short"⟩
/-- The primitive 32-bit integer type. -/
def int : TypeName := ⟨"int"⟩
/-- The primitive 64-bit integer type. -/
def long : TypeName := ⟨"long"⟩
/-- The primitive 32-bit floating-point type. -/
def float : TypeName := ⟨"float"⟩
/-- The primitive 64-bit floating-point type. -/
def double : TypeName := ⟨"double"⟩

example : (TypeName.mk "x[]y.z").elementType = ⟨"x"⟩ := by decide
example : (TypeName.mk "a.").simpleName = "" := by decide
example : (TypeName.mk "java.lang.String").simpleName = "String" := by decide

end TypeName

end BranchSensitivity
