import BranchSensitivity.Json.Basic

/-!
# Why a text is no JSON document, and where

Reading stops at the first fault. A fault has a kind and a place: the place is a byte index into
the text, told as a line (counted from one) and a column (the bytes between the start of that
line and the index). A fault is found either after the characters read so far, or on looking at
the next character; in the second case its index is one byte further, but never past the end of
the text.

While reading, a fault keeps the number of bytes after its place, since the reader sees only the
rest of the text; `SyntaxError.locate` turns that into a line and a column once the whole text is
at hand.

    (SyntaxError.locate cs f).message = "<kind> at line <l> column <c>"
-/

namespace BranchSensitivity.Json

/-- The kinds of faults, each with its wording in `Fault.Kind.message`. -/
inductive Fault.Kind where
  | eofInList
  | eofInObject
  | eofInString
  | eofInValue
  | expectedColon
  | expectedListCommaOrEnd
  | expectedObjectCommaOrEnd
  | expectedIdent
  | expectedValue
  | invalidEscape
  | invalidNumber
  | numberOutOfRange
  | controlCharacter
  | keyMustBeString
  | loneSurrogate
  | trailingComma
  | trailingCharacters
  | unexpectedEndOfHexEscape
  | recursionLimit
deriving DecidableEq, Inhabited

/-- How a kind of fault is worded. -/
def Fault.Kind.message : Fault.Kind → String
  | .eofInList => "EOF while parsing a list"
  | .eofInObject => "EOF while parsing an object"
  | .eofInString => "EOF while parsing a string"
  | .eofInValue => "EOF while parsing a value"
  | .expectedColon => "expected `:`"
  | .expectedListCommaOrEnd => "expected `,` or `]`"
  | .expectedObjectCommaOrEnd => "expected `,` or `\x7d`"
  | .expectedIdent => "expected ident"
  | .expectedValue => "expected value"
  | .invalidEscape => "invalid escape"
  | .invalidNumber => "invalid number"
  | .numberOutOfRange => "number out of range"
  | .controlCharacter => "control character (\\u0000-\\u001F) found while parsing a string"
  | .keyMustBeString => "key must be a string"
  | .loneSurrogate => "lone leading surrogate in hex escape"
  | .trailingComma => "trailing comma"
  | .trailingCharacters => "trailing characters"
  | .unexpectedEndOfHexEscape => "unexpected end of hex escape"
  | .recursionLimit => "recursion limit exceeded"

/-- The number of bytes of characters written in UTF-8. -/
def byteLength (cs : List Char) : Nat := cs.foldr (fun c n => c.utf8Size + n) 0

/-- A fault found while reading: its kind, and how many bytes of the text lie after its place. -/
structure Fault where
  kind : Fault.Kind
  remaining : Nat
deriving Inhabited

/-- A fault found after the characters read so far, `rest` being the text not yet read. -/
def Fault.after (kind : Fault.Kind) (rest : List Char) : Fault := ⟨kind, byteLength rest⟩

/-- A fault found on looking at the start of `rest`: its place is one byte into `rest`, or the
end of the text when `rest` is empty. -/
def Fault.peek (kind : Fault.Kind) (rest : List Char) : Fault := ⟨kind, byteLength rest - 1⟩

/-- A fault with its line and column. -/
structure SyntaxError where
  kind : Fault.Kind
  line : Nat
  column : Nat
deriving Inhabited

namespace SyntaxError

/-- The line (from one) and column (bytes since the start of the line) of a byte index. -/
def lineColumn (cs : List Char) (index : Nat) : Nat × Nat :=
  let (line, lineStart, _) := cs.foldl (fun (line, lineStart, offset) c =>
      let next := offset + c.utf8Size
      if offset < index && c == '\n' then (line + 1, next, next) else (line, lineStart, next))
    (1, 0, 0)
  (line, index - lineStart)

/-- A fault of reading `cs`, placed in it. -/
def locate (cs : List Char) (f : Fault) : SyntaxError :=
  let (line, column) := lineColumn cs (byteLength cs - f.remaining)
  ⟨f.kind, line, column⟩

/-- The fault and its place in words. -/
def message (e : SyntaxError) : String :=
  e.kind.message ++ " at line " ++ toString e.line ++ " column " ++ toString e.column

end SyntaxError

example : SyntaxError.lineColumn "ab\ncd".toList 4 = (2, 1) := by decide

end BranchSensitivity.Json
