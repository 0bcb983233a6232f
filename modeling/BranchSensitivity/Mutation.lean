import BranchSensitivity.Value.Basic
import BranchSensitivity.Config
import BranchSensitivity.Random.Uniform

/-!
# Mutating values

A mutator changes a primitive value into a different value of the same kind. Under the *delta*
strategy a number moves by a non-zero delta of magnitude at most `maxDelta` (held within the
kind's range), a boolean flips, and a string gets one character inserted, removed or replaced.
Under *random replacement* an integer is drawn from `-maxInt..=maxInt` (within the kind's range),
a float from `-maxInt..maxInt`, and a string is a fresh one of one to ten letters or digits. The
*mixed* strategy replaces one time in three. Characters stay printable ASCII. Null and object
values are not mutated.

When the new value equals the old one, integers step by one and floats turn to their negation
(or to one, from zero), so the result always differs.
-/

namespace BranchSensitivity

open BranchSensitivity.Random

/-- Letters and digits, the characters of generated strings. -/
def alphabet : List Char :=
  "abcdefghijklmnopqrstuvwxyzABCDEFGHIJKLMNOPQRSTUVWXYZ0123456789".toList

/-- A letter or digit, uniformly. -/
def randomChar : Draw Char := do
  let i ← index alphabet.length
  lookup alphabet i 'a'

/-- Draw characters until one differs from `old`. The fuel only bounds the search: a search
that runs out of it ends on a fixed letter other than `old`, as the loop it stands for only
ends on such a character. -/
def charOtherThan (old : Char) : Nat → Draw Char
  | 0 => pure (if old == 'a' then 'b' else 'a')
  | fuel + 1 => do
    let c ← randomChar
    if c == old then charOtherThan old fuel else pure c

/-- The least printable ASCII code. -/
def printableMin : Int := 0x20

/-- The greatest printable ASCII code. -/
def printableMax : Int := 0x7e

/-- `x` held within `[lo, hi]`. -/
def clampInt (x lo hi : Int) : Int := max lo (min hi x)

/-- The character of a code, `a` when the code is no character. -/
def charOfCode (n : Int) : Char :=
  if 0 ≤ n && (n < 0xD800 || (0xE000 ≤ n && n < 0x110000)) then Char.ofNat n.toNat else 'a'

/-- Changes a primitive value by a strategy within bounds. -/
structure Mutator where
  strategy : MutationStrategy
  maxDelta : Int
  maxInt : Int
deriving Inhabited

namespace Mutator

/-- A mutator; bounds below one are raised to one. -/
def new (strategy : MutationStrategy) (maxDelta maxInt : Int) : Mutator :=
  ⟨strategy, max maxDelta 1, max maxInt 1⟩

/-- The mutator of a configuration. -/
def ofConfig (c : Config) : Mutator := new c.strategy c.maxDelta.toInt c.maxInt.toInt

/-- Whether `mutate` changes this kind of value: all but nulls and objects. -/
def canMutate : Value → Bool
  | .null | .object _ => false
  | _ => true

/-- A non-zero delta of magnitude at most `maxDelta`. -/
def delta (m : Mutator) : Draw Int := do
  let magnitude ← intInclusive .w64 1 m.maxDelta
  if ← coin 0.5 then checkedInt .w64 (-magnitude) else pure magnitude

/-- The range a replacement within `[lo, hi]` is drawn from: `[-maxInt, maxInt]` held within
`[lo, hi]`, or all of `[lo, hi]` when that leaves at most one value. -/
def replaceRange (m : Mutator) (lo hi : Int) : Int × Int :=
  let a := max (-m.maxInt) lo
  let b := min m.maxInt hi
  -- the bound may not overlap a narrow range (characters start at 0x20)
  if a ≥ b then (lo, hi) else (a, b)

/-- The next integer for the stored value `original`, whose clamp into `[lo, hi]` is `current`;
its sums are 128-bit. -/
def nextInteger (m : Mutator) (original current lo hi : Int) (replace : Bool) : Draw Int := do
  if replace then
    let (a, b) := m.replaceRange lo hi
    let next ← intInclusive .w128 a b
    if next != original then pure next
    else if next < b then checkedInt .w128 (next + 1) else checkedInt .w128 (next - 1)
  else
    let d ← m.delta
    let next := clampInt (← checkedInt .w128 (current + d)) lo hi
    if next != original then pure next
    else return clampInt (← checkedInt .w128 (current - d)) lo hi

/-- The next double after `current`. -/
def nextFloat (m : Mutator) (current : Float) (replace : Bool) : Draw Float := do
  if replace then
    let bound := Value.floatOfInt m.maxInt
    let next ← floatBelow (-bound) bound
    if next == current then pure (next + 1.0) else pure next
  else
    let d := Value.floatOfInt (← m.delta)
    if current.isFinite then pure (current + d) else pure d

/-- The next string after `current`. -/
def nextString (_m : Mutator) (current : String) (replace : Bool) : Draw String := do
  if replace then
    let len ← intInclusive .w32 1 10
    let chars ← (List.range len.toNat).mapM fun _ => randomChar
    let s := String.ofList chars
    if s == current then pure (s.push (← randomChar)) else pure s
  else
    let chars := current.toList
    if chars.isEmpty then return (← randomChar).toString
    let pos ← index chars.length
    let op ← intBelow .w32 0 3
    if op == 0 then
      let c ← randomChar
      -- an insertion may also go right after the last character
      require (pos ≤ chars.length) .indexOutOfRange
      return String.ofList (chars.insertIdx pos c)
    else if op == 1 then
      require (pos < chars.length) .indexOutOfRange
      return String.ofList (chars.eraseIdx pos)
    else
      let old ← lookup chars pos 'a'
      let c ← charOtherThan old 256
      return String.ofList (chars.set pos c)

/-- Whether a mutation replaces the value rather than moving it by a delta: the mixed strategy
replaces one time in three. -/
def drawReplace (m : Mutator) : Draw Bool :=
  match m.strategy with
  | .delta => pure false
  | .randomReplace => pure true
  | .mixed => coin (1.0 / 3.0)

/-- The value drawn for `v`, or `none` for nulls and objects. -/
def nextValue (m : Mutator) (v : Value) (replace : Bool) : Draw (Option Value) :=
  match v with
  | .null | .object _ => pure none
  | .bool b => pure (some (.bool !b))
  | .char c => do
    let code := clampInt c.toNat printableMin printableMax
    let next ← m.nextInteger c.toNat code printableMin printableMax replace
    pure (some (.char (charOfCode next)))
  | .byte x => do
    let n ← m.nextInteger x.toInt x.toInt (-0x80) 0x7F replace
    pure (some (.byte (Int8.ofInt n)))
  | .short x => do
    let n ← m.nextInteger x.toInt x.toInt (-0x8000) 0x7FFF replace
    pure (some (.short (Int16.ofInt n)))
  | .int x => do
    let n ← m.nextInteger x.toInt x.toInt (-0x80000000) 0x7FFFFFFF replace
    pure (some (.int (Int32.ofInt n)))
  | .long x => do
    let n ← m.nextInteger x.toInt x.toInt (-0x8000000000000000) 0x7FFFFFFFFFFFFFFF replace
    pure (some (.long (Int64.ofInt n)))
  | .float x => do
    let f ← m.nextFloat x.toFloat replace
    pure (some (.float f.toFloat32))
  | .double x => do
    let f ← m.nextFloat x replace
    pure (some (.double f))
  | .str s => do
    let s' ← m.nextString s replace
    pure (some (.str s'))

/-- The drawn value `w`, unless it is a float equal to the old value `v`: that one turns to the
negation of `v`, or to one from zero. -/
def awayFrom (v w : Value) : Value :=
  match w, v with
  | .float a, .float b => if a == b then .float (if b == 0.0 then 1.0 else -b) else w
  | .double a, .double b => if a == b then .double (if b == 0.0 then 1.0 else -b) else w
  | _, _ => w

/-- A different value of the same kind, or `none` for nulls and objects. -/
def mutate (m : Mutator) (v : Value) : Draw (Option Value) := do
  let replace ← m.drawReplace
  let mutated ← m.nextValue v replace
  -- rounding can swallow a small delta on a large float
  return mutated.map (awayFrom v)

end Mutator

end BranchSensitivity
