import BranchSensitivity.Json.Basic
import BranchSensitivity.Json.Fault
import BranchSensitivity.Decimal.Nearest

/-!
# Reading JSON text

`Json.parse` reads one document surrounded by blanks (space, tab, line feed, carriage return), or
tells the first fault and its place (`Json.Fault`). Containers nest at most 127 deep. Strings may
not hold raw control characters, and a `\u` escape of a surrogate must be a high one followed by
an escaped low one.

Numbers follow one rule throughout. An integer without point or exponent is a `nat` when it is
non-negative and below `2^64`, a `neg` down to `-2^63`; `-0` and every other integer are doubles.
A double is computed from the first digits that fit a 64-bit significand `s` and a decimal
exponent `e` (later digits are dropped): `s` is rounded to a double, then multiplied by `10^e`
or divided by `10^-e`, with `10^308` taken out first while `-e` exceeds 308. A finite significand
that overflows is refused; one that underflows is zero.

Each reading step takes the text still to read and gives back what it read with the text after
it, or the fault it found (placed by the bytes after it).
-/

namespace BranchSensitivity.Json

open Decimal

/-! ## Numbers -/

/-- The largest unsigned 64-bit integer. -/
def maxU64 : Nat := 0xFFFFFFFFFFFFFFFF

/-- The largest signed 32-bit integer, the bound of a decimal exponent. -/
def maxI32 : Int := 0x7FFFFFFF

/-- Whether `s * 10 + d` leaves the 64-bit range. -/
def overflows (s d : Nat) : Bool := s * 10 + d > maxU64

/-- Apply the sign of the number to its magnitude. -/
def signed (positive : Bool) (f : Float) : Float := if positive then f else -f

/-- Scale a significand by a power of ten; `none` when the result is infinite. -/
def scaleByTen (positive : Bool) : Nat → Float → Int → Option Float
  | 0, _, _ => none
  | fuel + 1, f, e =>
    if e.natAbs ≤ 308 then
      if 0 ≤ e then
        let g := f * pow10 e.natAbs
        if g.isInf then none else some (signed positive g)
      else some (signed positive (f / pow10 e.natAbs))
    else if f == 0 then some (signed positive f)
    else if 0 ≤ e then none
    else scaleByTen positive fuel (f / pow10 308) (e + 308)

/-- The double of `significand * 10^exponent`, by the rule above. -/
def floatOfParts (positive : Bool) (significand : Nat) (exponent : Int) : Option Float :=
  scaleByTen positive 8 (nearestOfNat significand) exponent

/-- The value of a decimal digit. -/
def digitValue (c : Char) : Nat := c.toNat - '0'.toNat

/-- Skip the digits that no longer fit the significand. -/
def skipDigits : List Char → List Char := List.dropWhile Char.isDigit

/-- What a reading step gives: a value and the text after it, or a fault. -/
abbrev Parsed (α : Type) := Except Fault (α × List Char)

/-- The double of `significand * 10^exponent`, or `numberOutOfRange` where the number ends. -/
def fromParts (positive : Bool) (significand : Nat) (exponent : Int) (rest : List Char) :
    Parsed Float :=
  match floatOfParts positive significand exponent with
  | some f => .ok (f, rest)
  | none => .error (.after .numberOutOfRange rest)

/-- An exponent held in 32 bits, as an addition or subtraction saturates there. -/
def clampExponent (e : Int) : Int := max (-maxI32 - 1) (min maxI32 e)

/-- The digits of an exponent, accumulated in `acc`. An exponent beyond 32 bits makes a number
with a non-zero significand and a positive exponent too large, found on the digit that overflows;
any other such number is zero. -/
def exponentDigits (positive : Bool) (significand : Nat) (start : Int) (positiveExp : Bool) :
    Int → List Char → Parsed Float
  | acc, c :: rest =>
    if c.isDigit then
      if acc * 10 + digitValue c > maxI32 then
        if significand != 0 && positiveExp then .error (.after .numberOutOfRange rest)
        else .ok (signed positive 0, skipDigits rest)
      else exponentDigits positive significand start positiveExp (acc * 10 + digitValue c) rest
    else
      fromParts positive significand
        (clampExponent (if positiveExp then start + acc else start - acc)) (c :: rest)
  | acc, [] =>
    fromParts positive significand (clampExponent (if positiveExp then start + acc else start - acc)) []

/-- An exponent part, after its `e` or `E`: an optional sign and at least one digit. -/
def exponentPart (positive : Bool) (significand : Nat) (start : Int) (cs : List Char) :
    Parsed Float :=
  let (positiveExp, cs) := match cs with
    | '+' :: rest => (true, rest)
    | '-' :: rest => (false, rest)
    | _ => (true, cs)
  match cs with
  | c :: rest =>
    if c.isDigit then exponentDigits positive significand start positiveExp (digitValue c) rest
    else .error (.after .invalidNumber rest)
  | [] => .error (.after .eofInValue [])

/-- After the digits that fit, an optional exponent. -/
def afterSignificand (positive : Bool) (significand : Nat) (exponent : Int) (cs : List Char) :
    Parsed Float :=
  match cs with
  | 'e' :: rest | 'E' :: rest => exponentPart positive significand exponent rest
  | _ => fromParts positive significand exponent cs

/-- The digits after a point, of which there must be one; `count` of them are in the significand
already. -/
def fractionDigits (positive : Bool) (before : Int) :
    Nat → Nat → List Char → Parsed Float
  | significand, count, c :: rest =>
    if c.isDigit then
      if overflows significand (digitValue c) then
        afterSignificand positive significand (before - count) (skipDigits (c :: rest))
      else fractionDigits positive before (significand * 10 + digitValue c) (count + 1) rest
    else if count == 0 then .error (.peek .invalidNumber (c :: rest))
    else afterSignificand positive significand (before - count) (c :: rest)
  | significand, count, [] =>
    if count == 0 then .error (.peek .eofInValue [])
    else afterSignificand positive significand (before - count) []

/-- Integer digits beyond the significand: each one raises the exponent. -/
def extraIntegerDigits (positive : Bool) (significand : Nat) :
    Nat → List Char → Parsed Float
  | extra, c :: rest =>
    if c.isDigit then extraIntegerDigits positive significand (extra + 1) rest
    else if c == '.' then fractionDigits positive extra significand 0 rest
    else afterSignificand positive significand extra (c :: rest)
  | extra, [] => afterSignificand positive significand extra []

/-- The number after its integer digits, which fit the significand. -/
def afterInteger (positive : Bool) (significand : Nat) (cs : List Char) : Parsed JsonNumber :=
  match cs with
  | '.' :: rest => (fractionDigits positive 0 significand 0 rest).map fun (f, r) => (.float f, r)
  | 'e' :: rest | 'E' :: rest =>
    (exponentPart positive significand 0 rest).map fun (f, r) => (.float f, r)
  | _ =>
    if positive then .ok (.nat significand, cs)
    else if significand == 0 then .ok (.float (-0.0), cs)
    else if significand ≤ 0x8000000000000000 then .ok (.neg (-(significand : Int)), cs)
    else .ok (.float (-(nearestOfNat significand)), cs)

/-- Integer digits, accumulated while they fit 64 bits. -/
def integerDigits (positive : Bool) : Nat → List Char → Parsed JsonNumber
  | significand, c :: rest =>
    if c.isDigit then
      if overflows significand (digitValue c) then
        (extraIntegerDigits positive significand 0 (c :: rest)).map fun (f, r) => (.float f, r)
      else integerDigits positive (significand * 10 + digitValue c) rest
    else afterInteger positive significand (c :: rest)
  | significand, [] => afterInteger positive significand []

/-- A number after its optional minus: one zero, or digits not starting with zero. -/
def integer (positive : Bool) : List Char → Parsed JsonNumber
  | '0' :: rest =>
    match rest with
    | c :: _ => if c.isDigit then .error (.peek .invalidNumber rest) else afterInteger positive 0 rest
    | [] => afterInteger positive 0 []
  | c :: rest =>
    if c.isDigit then integerDigits positive (digitValue c) rest
    else .error (.after .invalidNumber rest)
  | [] => .error (.after .eofInValue [])

/-- A number: an optional minus, then its integer part, fraction and exponent. -/
def number : List Char → Parsed JsonNumber
  | '-' :: rest => integer false rest
  | cs => integer true cs

/-! ## Strings -/

/-- The value of a hexadecimal digit. -/
def hexValue (c : Char) : Option Nat :=
  if c.isDigit then some (digitValue c)
  else if 'a' ≤ c && c ≤ 'f' then some (c.toNat - 'a'.toNat + 10)
  else if 'A' ≤ c && c ≤ 'F' then some (c.toNat - 'A'.toNat + 10)
  else none

/-- Four hexadecimal digits. -/
def hex4 (a b c d : Char) : Option Nat := do
  return (← hexValue a) * 4096 + (← hexValue b) * 256 + (← hexValue c) * 16 + (← hexValue d)

/-- The four bytes after `\u`, read as hexadecimal digits: the text must hold four more bytes,
and a fault in them is placed after all four. -/
def hexEscape (cs : List Char) : Parsed Nat :=
  if byteLength (cs.take 4) < 4 then .error ⟨.eofInString, 0⟩
  else
    match cs with
    | a :: b :: c :: d :: rest =>
      match hex4 a b c d with
      | some n => .ok (n, rest)
      | none => .error ⟨.invalidEscape, byteLength cs - 4⟩
    | _ => .error ⟨.invalidEscape, byteLength cs - 4⟩

/-- Whether a code unit is a high (leading) surrogate. -/
def isHighSurrogate (n : Nat) : Bool := 0xD800 ≤ n && n ≤ 0xDBFF

/-- Whether a code unit is a low (trailing) surrogate. -/
def isLowSurrogate (n : Nat) : Bool := 0xDC00 ≤ n && n ≤ 0xDFFF

/-- The character of a `\u` escape, after the `u`: a code unit outside the surrogates, or a high
surrogate followed by an escaped low one. A low surrogate first, or a high one followed by
anything but `\u` and a low surrogate, is refused. -/
def unicodeEscape (cs : List Char) : Except Fault (Char × List Char) := do
  let (n, rest) ← hexEscape cs
  if isLowSurrogate n then throw (.after .loneSurrogate rest)
  if !isHighSurrogate n then return (Char.ofNat n, rest)
  match rest with
  | '\\' :: 'u' :: rest' =>
    let (m, rest'') ← hexEscape rest'
    if !isLowSurrogate m then throw (.after .loneSurrogate rest'')
    return (Char.ofNat ((n - 0xD800) * 1024 + (m - 0xDC00) + 0x10000), rest'')
  | '\\' :: [] => throw (.after .eofInString [])
  | '\\' :: rest' => throw (.peek .unexpectedEndOfHexEscape rest')
  | [] => throw (.after .eofInString [])
  | _ => throw (.peek .unexpectedEndOfHexEscape rest)

/-- The character of an escape letter other than `u`. -/
def simpleEscape : Char → Option Char
  | '"' => some '"'
  | '\\' => some '\\'
  | '/' => some '/'
  | 'b' => some (Char.ofNat 8)
  | 'f' => some (Char.ofNat 12)
  | 'n' => some '\n'
  | 'r' => some '\r'
  | 't' => some '\t'
  | _ => none

/-- The characters of a string up to its closing quote, collected in reverse in `acc`; `fuel`
bounds the characters read. -/
def stringChars : Nat → List Char → List Char → Parsed String
  | 0, _, cs => .error (.after .eofInString cs)
  | _ + 1, acc, '"' :: rest => .ok (String.ofList acc.reverse, rest)
  | fuel + 1, acc, '\\' :: 'u' :: rest =>
    match unicodeEscape rest with
    | .ok (c, rest) => stringChars fuel (c :: acc) rest
    | .error f => .error f
  | fuel + 1, acc, '\\' :: e :: rest =>
    match simpleEscape e with
    | some c => stringChars fuel (c :: acc) rest
    | none => .error (.after .invalidEscape rest)
  | _ + 1, _, '\\' :: [] => .error (.after .eofInString [])
  | fuel + 1, acc, c :: rest =>
    if c.toNat < 0x20 then .error (.after .controlCharacter rest)
    else stringChars fuel (c :: acc) rest
  | _ + 1, _, [] => .error (.after .eofInString [])

/-- A string after its opening quote. -/
def string (cs : List Char) : Parsed String := stringChars (cs.length + 1) [] cs

/-! ## Documents -/

/-- Blanks between tokens. -/
def isBlank (c : Char) : Bool := c == ' ' || c == '\n' || c == '\t' || c == '\r'

/-- Drop leading blanks. -/
def skipBlank (cs : List Char) : List Char := cs.dropWhile isBlank

/-- The rest of a literal word after its first letter. -/
def word : List Char → List Char → Except Fault (List Char)
  | [], cs => .ok cs
  | _ :: _, [] => .error (.after .eofInValue [])
  | w :: ws, c :: rest => if c == w then word ws rest else .error (.after .expectedIdent rest)

mutual

/-- One document; `depth` is one more than the containers that may still open. -/
def value : Nat → Nat → List Char → Parsed Json
  | 0, _, cs => .error (.peek .recursionLimit cs)
  | fuel + 1, depth, cs =>
    match skipBlank cs with
    | 'n' :: rest => (word ['u', 'l', 'l'] rest).map (.null, ·)
    | 't' :: rest => (word ['r', 'u', 'e'] rest).map (.bool true, ·)
    | 'f' :: rest => (word ['a', 'l', 's', 'e'] rest).map (.bool false, ·)
    | '"' :: rest => (string rest).map fun (s, r) => (.str s, r)
    | '[' :: rest =>
      if depth ≤ 1 then .error (.peek .recursionLimit ('[' :: rest))
      else items fuel (depth - 1) true [] rest
    | '{' :: rest =>
      if depth ≤ 1 then .error (.peek .recursionLimit ('{' :: rest))
      else members fuel (depth - 1) true [] rest
    | '-' :: rest => (number ('-' :: rest)).map fun (n, r) => (.num n, r)
    | c :: rest =>
      if c.isDigit then (number (c :: rest)).map fun (n, r) => (.num n, r)
      else .error (.peek .expectedValue (c :: rest))
    | [] => .error (.peek .eofInValue [])

/-- The items of an array after its opening bracket, collected in reverse in `acc`; `first`
tells that no item has been read. -/
def items : Nat → Nat → Bool → List Json → List Char → Parsed Json
  | 0, _, _, _, cs => .error (.peek .recursionLimit cs)
  | fuel + 1, depth, first, acc, cs =>
    let item (cs : List Char) : Parsed Json :=
      match value fuel depth cs with
      | .ok (v, rest) => items fuel depth false (v :: acc) rest
      | .error f => .error f
    match skipBlank cs with
    | ']' :: rest => .ok (.arr acc.reverse, rest)
    | ',' :: rest =>
      if first then item (',' :: rest)
      else match skipBlank rest with
        | ']' :: rest' => .error (.peek .trailingComma (']' :: rest'))
        | [] => .error (.peek .eofInValue [])
        | rest' => item rest'
    | [] => .error (.peek .eofInList [])
    | c :: rest => if first then item (c :: rest) else .error (.peek .expectedListCommaOrEnd (c :: rest))

/-- The members of an object after its opening brace, collected in reverse in `acc`; `first`
tells that no member has been read. -/
def members : Nat → Nat → Bool → List (String × Json) → List Char → Parsed Json
  | 0, _, _, _, cs => .error (.peek .recursionLimit cs)
  | fuel + 1, depth, first, acc, cs =>
    let member (cs : List Char) : Parsed Json :=
      match string cs with
      | .error f => .error f
      | .ok (key, rest) =>
        match skipBlank rest with
        | ':' :: rest =>
          match value fuel depth rest with
          | .ok (v, rest) => members fuel depth false ((key, v) :: acc) rest
          | .error f => .error f
        | [] => .error (.peek .eofInObject [])
        | rest => .error (.peek .expectedColon rest)
    match skipBlank cs with
    | '}' :: rest => .ok (.obj acc.reverse, rest)
    | ',' :: rest =>
      if first then .error (.peek .keyMustBeString (',' :: rest))
      else match skipBlank rest with
        | '"' :: rest' => member rest'
        | '}' :: rest' => .error (.peek .trailingComma ('}' :: rest'))
        | [] => .error (.peek .eofInValue [])
        | rest' => .error (.peek .keyMustBeString rest')
    | '"' :: rest =>
      if first then member rest else .error (.peek .expectedObjectCommaOrEnd ('"' :: rest))
    | [] => .error (.peek .eofInObject [])
    | c :: rest =>
      if first then .error (.peek .keyMustBeString (c :: rest))
      else .error (.peek .expectedObjectCommaOrEnd (c :: rest))

end

/-! ## Skipping unread values

A value that a reader has no use for is only checked for its form: strings may then hold any
`\u` escape, a lone surrogate included, numbers need only be well formed, and nesting is not
limited.
-/

/-- The text after a string whose opening quote is read, its escapes checked for form only. -/
def skipStringChars : List Char → Option (List Char)
  | '"' :: rest => some rest
  | '\\' :: 'u' :: a :: b :: c :: d :: rest => (hex4 a b c d).bind fun _ => skipStringChars rest
  | '\\' :: e :: rest => (simpleEscape e).bind fun _ => skipStringChars rest
  | c :: rest => if c.toNat < 0x20 then none else skipStringChars rest
  | [] => none

/-- The text after one or more digits. -/
def skipDigits1 : List Char → Option (List Char)
  | c :: rest => if c.isDigit then some (rest.dropWhile Char.isDigit) else none
  | [] => none

/-- The text after a well-formed number. -/
def skipNumber (cs : List Char) : Option (List Char) := do
  let cs := match cs with
    | '-' :: rest => rest
    | _ => cs
  let cs ← match cs with
    | '0' :: rest => if (rest.head?.map Char.isDigit).getD false then none else some rest
    | _ => skipDigits1 cs
  let cs ← match cs with
    | '.' :: rest => skipDigits1 rest
    | _ => some cs
  match cs with
  | 'e' :: rest | 'E' :: rest =>
    skipDigits1 (match rest with
      | '+' :: r => r
      | '-' :: r => r
      | _ => rest)
  | _ => some cs

mutual

/-- The text after one value, checked for form only. -/
def skipValue : Nat → List Char → Option (List Char)
  | 0, _ => none
  | fuel + 1, cs =>
    match skipBlank cs with
    | 'n' :: 'u' :: 'l' :: 'l' :: rest => some rest
    | 't' :: 'r' :: 'u' :: 'e' :: rest => some rest
    | 'f' :: 'a' :: 'l' :: 's' :: 'e' :: rest => some rest
    | '"' :: rest => skipStringChars rest
    | '[' :: rest =>
      match skipBlank rest with
      | ']' :: rest' => some rest'
      | rest' => skipItems fuel rest'
    | '{' :: rest =>
      match skipBlank rest with
      | '}' :: rest' => some rest'
      | rest' => skipMembers fuel rest'
    | other => skipNumber other

/-- The text after the items of an array and its closing bracket. -/
def skipItems : Nat → List Char → Option (List Char)
  | 0, _ => none
  | fuel + 1, cs =>
    match skipValue fuel cs with
    | none => none
    | some rest =>
      match skipBlank rest with
      | ',' :: rest' => skipItems fuel rest'
      | ']' :: rest' => some rest'
      | _ => none

/-- The text after the members of an object and its closing brace. -/
def skipMembers : Nat → List Char → Option (List Char)
  | 0, _ => none
  | fuel + 1, cs =>
    match skipBlank cs with
    | '"' :: rest =>
      match skipStringChars rest with
      | none => none
      | some rest =>
        match skipBlank rest with
        | ':' :: rest =>
          match skipValue fuel rest with
          | none => none
          | some rest =>
            match skipBlank rest with
            | ',' :: rest' => skipMembers fuel rest'
            | '}' :: rest' => some rest'
            | _ => none
        | _ => none
    | _ => none

end

/-- The document of a text that is exactly one document between blanks, or the first fault of
the text, placed in it. -/
def parse (s : String) : Except SyntaxError Json :=
  let cs := s.toList
  match value (2 * cs.length + 2) 128 cs with
  | .ok (j, rest) =>
    match skipBlank rest with
    | [] => .ok j
    | rest' => .error (SyntaxError.locate cs (.peek .trailingCharacters rest'))
  | .error f => .error (SyntaxError.locate cs f)

end BranchSensitivity.Json
