import BranchSensitivity.Value.TypeName
import BranchSensitivity.Decimal.Layout
import BranchSensitivity.Decimal.Nearest

/-!
# Values

A value is what a primitive statement holds or a probe captures: null, a boolean, a character,
a machine integer of 8, 16, 32 or 64 bits, a 32- or 64-bit float, a string, or an object known
only by its type.

Characters, integers and floats are *numeric*. Their integer view is the integer itself, a
character's digit in base 36 (`-1` when it has none), or a float truncated toward zero and held
within the 64-bit range (NaN is zero). Their float view is the same with floats kept exact.

Two values are equal when they are of one kind and hold equal contents, floats compared as
numbers: a NaN equals nothing, and `0.0` equals `-0.0`.

    (v == v) = false  ↔  v holds a NaN
-/

namespace BranchSensitivity

/-- A concrete value of the program under test. -/
inductive Value where
  | null
  | bool (b : Bool)
  | char (c : Char)
  | byte (v : Int8)
  | short (v : Int16)
  | int (v : Int32)
  | long (v : Int64)
  | float (v : Float32)
  | double (v : Float)
  | str (s : String)
  | object (ty : TypeName)
deriving Inhabited

namespace Value

/-- Equality of kinds and contents, floats compared as numbers. -/
def beq : Value → Value → Bool
  | .null, .null => true
  | .bool a, .bool b => a == b
  | .char a, .char b => a == b
  | .byte a, .byte b => a == b
  | .short a, .short b => a == b
  | .int a, .int b => a == b
  | .long a, .long b => a == b
  | .float a, .float b => a == b
  | .double a, .double b => a == b
  | .str a, .str b => a == b
  | .object a, .object b => a == b
  | _, _ => false

instance : BEq Value := ⟨beq⟩

/-- Is null. -/
def isNull : Value → Bool
  | .null => true
  | _ => false

/-- Takes part in numeric comparison: characters and numbers, not booleans. -/
def isNumeric : Value → Bool
  | .char _ | .byte _ | .short _ | .int _ | .long _ | .float _ | .double _ => true
  | _ => false

/-- The digit of a character in base 36, `-1` when it is none. -/
def charDigit (c : Char) : Int :=
  if '0' ≤ c && c ≤ '9' then c.toNat - '0'.toNat
  else if 'a' ≤ c && c ≤ 'z' then c.toNat - 'a'.toNat + 10
  else if 'A' ≤ c && c ≤ 'Z' then c.toNat - 'A'.toNat + 10
  else -1

/-- The least 64-bit integer. -/
def minLong : Int := -0x8000000000000000

/-- The greatest 64-bit integer. -/
def maxLong : Int := 0x7FFFFFFFFFFFFFFF

/-- A double truncated toward zero and held within the 64-bit range; NaN is zero. -/
def truncSaturate (x : Float) : Int :=
  match Decimal.Shape.ofFloat x with
  | .nan => 0
  | .infinite neg => if neg then minLong else maxLong
  | .finite neg b =>
    let t : Nat := if 0 ≤ b.q then b.m * Nat.pow 2 b.q.toNat else b.m / Nat.pow 2 (-b.q).toNat
    let t : Int := if neg then -(t : Int) else t
    max minLong (min maxLong t)

/-- The integer view of a numeric value. -/
def asInteger : Value → Option Int
  | .char c => some (charDigit c)
  | .byte v => some v.toInt
  | .short v => some v.toInt
  | .int v => some v.toInt
  | .long v => some v.toInt
  | .float v => some (truncSaturate v.toFloat)
  | .double v => some (truncSaturate v)
  | _ => none

/-- The double nearest to an integer. -/
def floatOfInt (n : Int) : Float :=
  if 0 ≤ n then Decimal.nearestOfNat n.toNat else -Decimal.nearestOfNat n.natAbs

/-- The float view of a numeric value. -/
def asFloat : Value → Option Float
  | .char c => some (floatOfInt (charDigit c))
  | .byte v => some (floatOfInt v.toInt)
  | .short v => some (floatOfInt v.toInt)
  | .int v => some (floatOfInt v.toInt)
  | .long v => some (floatOfInt v.toInt)
  | .float v => some v.toFloat
  | .double v => some v
  | _ => none

/-- The name of a value's kind, as documents tag it. -/
def kindName : Value → String
  | .null => "null" | .bool _ => "bool" | .char _ => "char" | .byte _ => "byte"
  | .short _ => "short" | .int _ => "int" | .long _ => "long" | .float _ => "float"
  | .double _ => "double" | .str _ => "str" | .object _ => "object"

/-- The type a statement holding this value declares. -/
def typeName : Value → TypeName
  | .null => .object
  | .bool _ => .boolean
  | .char _ => .char
  | .byte _ => .byte
  | .short _ => .short
  | .int _ => .int
  | .long _ => .long
  | .float _ => .float
  | .double _ => .double
  | .str _ => .string
  | .object ty => ty

/-- A float as source-like text: a whole number below `10^7` in size with one place (`3.0`,
`-0.0`), any other value by its shortest digits without exponent. -/
def floatText (x : Float) : String :=
  match Decimal.Shape.ofFloat x with
  | .finite _ b =>
    let whole := 0 ≤ b.q || b.m % Nat.pow 2 (-b.q).toNat == 0
    if whole && Decimal.cmpScaled 1 7 b.m b.q == .gt then Decimal.fixedText x 1
    else Decimal.plainText x
  | _ => Decimal.plainText x

/-- The source-like text of a value. -/
def display : Value → String
  | .null => "null"
  | .bool b => if b then "true" else "false"
  | .char c => c.toString
  | .byte v => toString v.toInt
  | .short v => toString v.toInt
  | .int v => toString v.toInt
  | .long v => toString v.toInt
  | .float v => floatText v.toFloat
  | .double v => floatText v
  | .str s => s
  | .object ty => ty.name ++ "@object"

example : display (.double 1.0) = "1.0" := by decide +kernel
example : display (.double (-0.0)) = "-0.0" := by decide +kernel
example : display (.double 1e7) = "10000000" := by decide +kernel
example : display (.double 2.5) = "2.5" := by decide +kernel

end Value

end BranchSensitivity
