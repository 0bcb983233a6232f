/-!
# Shortest decimal digits of a binary floating-point value

A finite binary64 or binary32 value is `m * 2^q`. The reals that round back to it form an interval reaching halfway
to each neighbour, ends included exactly when `m` is even. The shortest decimal of the value is
the decimal with fewest significant digits inside that interval; of two such decimals of the same
length, the nearer one. An exact tie between them goes by a `Tie` rule.

The search walks the grids `10^(E - n + 1)` for `n = 1, 2, …` digits, `E` being the decimal
exponent of the leading digit, and tests the two neighbours of the value on each grid: if any
point of a grid lies in the interval, one of those two does.

    (Binary.ofBits b).readsBack (shortest tie (Binary.ofBits b))   -- what is returned reads back
-/

namespace BranchSensitivity.Decimal

/-! ## Binary values -/

/-- A finite non-negative binary magnitude, `m * 2^q`. -/
structure Binary where
  m : Nat
  q : Int
  /-- The gap to the value below is half the gap to the value above. -/
  narrowBelow : Bool
deriving Repr, DecidableEq

/-- The magnitude of finite bits; the sign bit is ignored. NaN and the infinities have no such
magnitude: callers test for them first. -/
def Binary.ofBits (b : UInt64) : Binary :=
  let e := ((b >>> 52) &&& 0x7FF).toNat
  let f := (b &&& 0xFFFFFFFFFFFFF).toNat
  if e == 0 then ⟨f, -1074, false⟩ else ⟨0x10000000000000 + f, (e : Int) - 1075, f == 0 && e > 1⟩

/-- The magnitude of finite binary32 bits, as above. -/
def Binary.ofBits32 (b : UInt32) : Binary :=
  let e := ((b >>> 23) &&& 0xFF).toNat
  let f := (b &&& 0x7FFFFF).toNat
  if e == 0 then ⟨f, -149, false⟩ else ⟨0x800000 + f, (e : Int) - 150, f == 0 && e > 1⟩

/-- A decimal `digits * 10^exp`. -/
structure Dec where
  digits : Nat
  exp : Int
deriving Repr, DecidableEq, Inhabited

/-- How an exact tie between two candidates of the same length is broken. -/
inductive Tie where
  /-- The candidate with an even last digit. -/
  | toEven
  /-- The larger candidate. -/
  | up
deriving Repr, DecidableEq

/-- Compare `a * 10^i` with `n * 2^j`, exactly. -/
def cmpScaled (a : Nat) (i : Int) (n : Nat) (j : Int) : Ordering :=
  compare (a * Nat.pow 10 i.toNat * Nat.pow 2 (-j).toNat) (n * Nat.pow 2 j.toNat * Nat.pow 10 (-i).toNat)

/-- The decimal lies among the reals that round to the value (to nearest, ties to even). -/
def Binary.readsBack (x : Binary) (d : Dec) : Bool :=
  let lo := if x.narrowBelow then 4 * x.m - 1 else 4 * x.m - 2
  let hi := 4 * x.m + 2
  let incl := x.m % 2 == 0
  let cl := cmpScaled d.digits d.exp lo (x.q - 2)
  let ch := cmpScaled d.digits d.exp hi (x.q - 2)
  (cl == .gt || (incl && cl == .eq)) && (ch == .lt || (incl && ch == .eq))

/-! ## Algorithm -/

/-- Number of decimal digits of a positive natural number (one for zero). -/
def digitCount (n : Nat) : Nat := (Nat.toDigits 10 n).length

/-- `10^e ≤ m * 2^q`. -/
def Binary.atLeastPow (x : Binary) (e : Int) : Bool :=
  cmpScaled 1 e x.m x.q != .gt

/-- Walk an estimate of the leading exponent to the exact one, a step at a time. -/
def Binary.settleExponent (x : Binary) : Nat → Int → Int
  | 0, e => e
  | fuel + 1, e =>
    if !x.atLeastPow e then x.settleExponent fuel (e - 1)
    else if x.atLeastPow (e + 1) then x.settleExponent fuel (e + 1)
    else e

/-- The exponent `E` with `10^E ≤ m * 2^q < 10^(E+1)`, for a non-zero value. The estimate
`log10 m + q * log10 2` is off by at most a few steps. -/
def Binary.leadingExponent (x : Binary) : Int :=
  let guess : Int := (digitCount x.m : Int) - 1 + (x.q * 30103).fdiv 100000
  x.settleExponent 8 guess

/-- `⌊m * 2^q / 10^k⌋`. -/
def Binary.floorOnGrid (x : Binary) (k : Int) : Nat :=
  (x.m * Nat.pow 2 x.q.toNat * Nat.pow 10 (-k).toNat) / (Nat.pow 2 (-x.q).toNat * Nat.pow 10 k.toNat)

/-- Of the two neighbours `c` and `c + 1` on the grid `10^k`, the reading-back one nearer to the
value, if any. -/
def Binary.pickOnGrid (x : Binary) (tie : Tie) (k : Int) : Option Nat :=
  let c := x.floorOnGrid k
  let lowOk := x.readsBack ⟨c, k⟩
  let highOk := x.readsBack ⟨c + 1, k⟩
  if lowOk && highOk then
    -- compare the value with the midpoint of the two neighbours
    match cmpScaled (2 * c + 1) k (2 * x.m) x.q with
    | .gt => some c
    | .lt => some (c + 1)
    | .eq => match tie with
      | .toEven => some (if c % 2 == 0 then c else c + 1)
      | .up => some (c + 1)
  else if lowOk then some c
  else if highOk then some (c + 1)
  else none

/-- Move trailing zeros of the digits into the exponent. -/
def Dec.strip : Nat → Dec → Dec
  | 0, d => d
  | fuel + 1, d =>
    if d.digits != 0 && d.digits % 10 == 0 then Dec.strip fuel ⟨d.digits / 10, d.exp + 1⟩ else d

/-- The exact decimal value of `m * 2^q`: the fallback that the search never reaches. -/
def Binary.exact (x : Binary) : Dec :=
  if 0 ≤ x.q then ⟨x.m * Nat.pow 2 x.q.toNat, 0⟩ else ⟨x.m * Nat.pow 5 (-x.q).toNat, x.q⟩

/-- The shortest decimal that reads back as `x`, nearest among the shortest. -/
def shortest (tie : Tie) (x : Binary) : Dec :=
  if x.m == 0 then ⟨0, 0⟩
  else
    let e := x.leadingExponent
    let found := (List.range 17).findSome? fun (n : Nat) =>
      (x.pickOnGrid tie (e - n)).map fun c => (⟨c, e - n⟩ : Dec)
    match found with
    | some d => Dec.strip 40 d
    | none => Dec.strip 1100 x.exact

/-! ## Examples -/

example : shortest .toEven (Binary.ofBits 0x3FF0000000000000) = ⟨1, 0⟩ := by decide +kernel
example : shortest .toEven (Binary.ofBits 0x3FB999999999999A) = ⟨1, -1⟩ := by decide +kernel
example : shortest .toEven (Binary.ofBits 1) = ⟨5, -324⟩ := by decide +kernel
example : shortest .toEven (Binary.ofBits32 0x3DCCCCCD) = ⟨1, -1⟩ := by decide +kernel
example : shortest .toEven (Binary.ofBits32 1) = ⟨1, -45⟩ := by decide +kernel

end BranchSensitivity.Decimal
