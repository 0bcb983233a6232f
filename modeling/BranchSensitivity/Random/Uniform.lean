import BranchSensitivity.Random.Source

/-!
# Uniform draws from ranges, and biased coins

**Integers.** A draw from `low..=high` is made for a machine integer of some width. The size of
the range, `high - low + 1` taken modulo `2^width`, is `r`; when it is zero the range is the whole
type, and one word of the type is drawn. Otherwise words `v` of the *sample width* (32 bits for
widths up to 32, else the width itself) are drawn until the low half of `v * r` is at most the
*zone*, and the result is `low` plus the high half. For widths 8 and 16 the zone is the largest
multiple-of-`r` boundary, `2^32 - 1 - (2^32 - r) % r`; for the others it is `r` shifted up to the
top bit, minus one.

**Doubles.** A draw from `low..high` takes the top 52 bits of a 64-bit word as the fraction of a
double in `[1, 2)`, subtracts one, scales by `high - low`, adds `low`, and retries while the
result is not below `high`.

**Coins.** A coin that shows heads with chance `p < 1` draws a 64-bit word and shows heads when
the word is below `⌊p * 2^64⌋`.

**Failures.** An integer range with no values fails, and so does a double range that is empty or
whose width is not finite; an integer operation that leaves its word fails too (`checkedInt`).

Rejection loops carry fuel; each try is rejected with chance below one half, so 256 tries are
never used up in practice. A loop out of fuel returns the low end.
-/

namespace BranchSensitivity.Random

/-- The width of a machine integer a range is drawn for. -/
inductive Width where
  | w8 | w16 | w32 | w64 | w128
deriving Repr, DecidableEq

/-- Number of bits. -/
def Width.bits : Width → Nat
  | .w8 => 8 | .w16 => 16 | .w32 => 32 | .w64 => 64 | .w128 => 128

/-- Number of bits of the words a draw consumes. -/
def Width.sampleBits : Width → Nat
  | .w8 | .w16 | .w32 => 32
  | .w64 => 64
  | .w128 => 128

/-- Draw one word of the sample width. -/
def Width.sample : Width → Draw Nat
  | .w8 | .w16 | .w32 => return (← word32).toNat
  | .w64 => return (← word64).toNat
  | .w128 => word128

/-- The signed value of the low `bits` bits of `v`, in two's complement. -/
def toSigned (bits v : Nat) : Int :=
  let v := v % Nat.pow 2 bits
  if v < Nat.pow 2 (bits - 1) then v else (v : Int) - Int.pow 2 bits

/-- Whether `x` is a signed integer of width `w`. -/
def Width.fits (w : Width) (x : Int) : Bool :=
  -Int.pow 2 (w.bits - 1) ≤ x && x < Int.pow 2 (w.bits - 1)

/-- The signed integer `x` of width `w`, computed by an operation that fails when it leaves the
word. -/
def checkedInt (w : Width) (x : Int) : Draw Int :=
  if w.fits x then pure x else failWith .overflow x

@[simp] theorem checkedInt_fst (w : Width) (x : Int) (r : Rng) : (checkedInt w x r).1 = x := by
  unfold checkedInt
  split <;> rfl

/-- Leading zero bits of `r` in a word of `bits` bits. -/
def leadingZeros (bits r : Nat) : Nat := bits - Nat.log2 r - 1

/-- The largest accepted low half for a range of size `r > 0`. -/
def Width.zone (w : Width) (r : Nat) : Nat :=
  match w with
  | .w8 | .w16 => 0xFFFFFFFF - (0x100000000 - r) % r
  | _ => (r <<< leadingZeros w.sampleBits r) % Nat.pow 2 w.sampleBits - 1

/-- Draw sample words until one is accepted. -/
def acceptLoop (w : Width) (low : Int) (r zone : Nat) : Nat → Draw Int
  | 0 => pure low
  | fuel + 1 => do
    let v ← w.sample
    let m := v * r
    if m % Nat.pow 2 w.sampleBits ≤ zone then pure (low + (m / Nat.pow 2 w.sampleBits : Nat))
    else acceptLoop w low r zone fuel

/-- A uniform integer of `low..=high`, for a machine integer of width `w`; an empty range
fails. -/
def intInclusive (w : Width) (low high : Int) : Draw Int :=
  if high < low then failWith .emptyRange low
  else
    let r := ((high - low + 1) % Int.pow 2 w.bits).toNat
    if r == 0 then do
      let v ← w.sample
      pure (toSigned w.bits v)
    else acceptLoop w low r (w.zone r) 256

/-- A uniform integer of `low..high`; an empty range fails. -/
def intBelow (w : Width) (low high : Int) : Draw Int := intInclusive w low (high - 1)

/-- A uniform index below `n`; with `n = 0` the range is empty and the draw fails. -/
def index (n : Nat) : Draw Nat := do
  return (← intInclusive .w64 0 ((n : Int) - 1)).toNat

/-- Draw doubles until one falls below `high`. -/
def floatLoop (low high scale : Float) : Nat → Draw Float
  | 0 => pure low
  | fuel + 1 => do
    let w ← word64
    let oneTwo := Float.ofBits (((1023 : UInt64) <<< 52) ||| (w >>> 12))
    let res := (oneTwo - 1.0) * scale + low
    if res < high then pure res else floatLoop low high scale fuel

/-- A uniform double of `low..high`. A range that is empty fails, and so does one whose width is
not finite, as when a bound is not. -/
def floatBelow (low high : Float) : Draw Float :=
  if !(low < high) then failWith .emptyRange low
  else if !(high - low).isFinite then failWith .rangeOverflow low
  else floatLoop low high (high - low) 256

/-- A coin showing heads with chance `p` (`0 ≤ p ≤ 1`). -/
def coin (p : Float) : Draw Bool := do
  if p == 1.0 then pure true
  else
    let threshold := (p * 18446744073709551616.0).toUInt64
    return (← word64) < threshold

end BranchSensitivity.Random
