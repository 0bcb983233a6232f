import BranchSensitivity.Json.Basic
import BranchSensitivity.Decimal.Layout

/-!
# Writing JSON text

`Json.render` writes a document on one line without blanks. A string escapes its quote, its
backslash and the control characters; all else is written as it is. An integer is written in
full. A double is written from its shortest decimal: positionally with a point when its leading
digit stands between `10^-5` and `10^16`, otherwise as digits and an exponent; so it always reads
back as a double, never as an integer. A NaN or infinite double has no JSON text and is written
`null`; the encoders of this library write those values as strings before they get here.
-/

namespace BranchSensitivity.Json

open Decimal

/-- Four hexadecimal digits of a code below `2^16`. -/
def hex4Text (n : Nat) : String :=
  let d := Nat.toDigits 16 n
  String.ofList (List.replicate (4 - d.length) '0' ++ d)

/-- One character inside a quoted string. -/
def escapeChar (c : Char) : String :=
  if c == '"' then "\\\""
  else if c == '\\' then "\\\\"
  else if c == '\n' then "\\n"
  else if c == '\r' then "\\r"
  else if c == '\t' then "\\t"
  else if c.toNat < 0x20 then "\\u" ++ hex4Text c.toNat
  else c.toString

/-- A quoted string. -/
def quote (s : String) : String :=
  "\"" ++ String.join (s.toList.map escapeChar) ++ "\""

/-- A finite magnitude as a JSON number text. -/
def magnitudeText (x : Binary) : String :=
  let d := shortest .toEven x
  let digits := Nat.toDigits 10 d.digits
  -- the exponent of the leading digit
  let lead := d.exp + digits.length - 1
  if -5 ≤ lead && lead < 16 then
    let p := d.plain
    if p.toList.contains (Char.ofNat 46) then p else p ++ ".0"
  else
    let mant := match digits with
      | [c] => c.toString
      | c :: rest => String.ofList (c :: '.' :: rest)
      | [] => "0"
    mant ++ "e" ++ toString lead

/-- A double as a JSON number text, `null` when it is NaN or infinite. -/
def floatText (f : Float) : String :=
  match Shape.ofFloat f with
  | .finite neg x => (if neg then "-" else "") ++ magnitudeText x
  | _ => "null"

/-- A number as JSON text. -/
def numberText : JsonNumber → String
  | .nat n => toString n
  | .neg n => toString n
  | .float x => floatText x

mutual

/-- A document as JSON text. -/
def render : Json → String
  | .null => "null"
  | .bool b => if b then "true" else "false"
  | .num n => numberText n
  | .str s => quote s
  | .arr items => "[" ++ renderItems items ++ "]"
  | .obj ms => "\x7b" ++ renderMembers ms ++ "\x7d"

/-- Items separated by commas. -/
def renderItems : List Json → String
  | [] => ""
  | [j] => render j
  | j :: rest => render j ++ "," ++ renderItems rest

/-- Members separated by commas. -/
def renderMembers : List (String × Json) → String
  | [] => ""
  | [(k, j)] => quote k ++ ":" ++ render j
  | (k, j) :: rest => quote k ++ ":" ++ render j ++ "," ++ renderMembers rest

end

example : floatText 0.1 = "0.1" := by decide +kernel
example : floatText 3 = "3.0" := by decide +kernel
example : floatText 1e20 = "1e20" := by decide +kernel
example : floatText (-2.5e-7) = "-2.5e-7" := by decide +kernel

end BranchSensitivity.Json
