import BranchSensitivity.Decimal.Shortest

/-!
# Laying out a double as text

A double is NaN, an infinity or a signed finite magnitude (`Shape.ofFloat`). A finite magnitude is
written either from its shortest decimal, positionally and without exponent (`plain`), or rounded
to a fixed number of places, a half going to the even neighbour (`fixed`).

    roundedScaled x 0 = the nearest integer to x, ties to even
-/

namespace BranchSensitivity.Decimal

/-- What a double is, for printing. -/
inductive Shape where
  | nan
  | infinite (neg : Bool)
  | finite (neg : Bool) (x : Binary)
deriving Repr, DecidableEq

/-- The shape of a double, read off its bits. -/
def Shape.ofFloat (f : Float) : Shape :=
  let b := f.toBits
  let neg := b >>> 63 == 1
  if (b >>> 52) &&& 0x7FF == 0x7FF then
    if b &&& 0xFFFFFFFFFFFFF == 0 then .infinite neg else .nan
  else .finite neg (Binary.ofBits b)

/-- `n` copies of the digit zero. -/
def zeros (n : Nat) : String := String.ofList (List.replicate n '0')

/-- The decimal written positionally: all its digits, a point only where the exponent is
negative, a zero before a leading point. -/
def Dec.plain (d : Dec) : String :=
  let s := String.ofList (Nat.toDigits 10 d.digits)
  if 0 ≤ d.exp then
    if d.digits == 0 then "0" else s ++ zeros d.exp.toNat
  else
    let p := (-d.exp).toNat
    let n := s.length
    if p < n then
      String.ofList ((s.toList.take (n - p)) ++ '.' :: s.toList.drop (n - p))
    else "0." ++ zeros (p - n) ++ s

/-- `round(m * 2^q * 10^places)`, a half going to the even neighbour. -/
def roundedScaled (x : Binary) (places : Nat) : Nat :=
  let num := x.m * Nat.pow 2 x.q.toNat * Nat.pow 10 places
  let den := Nat.pow 2 (-x.q).toNat
  let q := num / den
  let r := num % den
  if 2 * r > den || (2 * r == den && q % 2 == 1) then q + 1 else q

/-- The magnitude rounded to `places` places after the point, all of them written. -/
def Binary.fixed (x : Binary) (places : Nat) : String :=
  let n := roundedScaled x places
  let s := (Nat.toDigits 10 n)
  let s := List.replicate (places + 1 - s.length) '0' ++ s
  if places == 0 then String.ofList s
  else String.ofList (s.take (s.length - places) ++ '.' :: s.drop (s.length - places))

/-- The sign mark of a negative value, zero included. -/
def signMark (neg : Bool) : String := if neg then "-" else ""

/-- A double as the shortest positional text: `NaN`, `inf`, `-inf`, or the shortest decimal with
its sign and no exponent, so `1e20` is `100000000000000000000` and `-0.0` is `-0`. -/
def plainText (f : Float) : String :=
  match Shape.ofFloat f with
  | .nan => "NaN"
  | .infinite neg => signMark neg ++ "inf"
  | .finite neg x => signMark neg ++ (shortest .up x).plain

/-- A double rounded to `places` places: `NaN`, `inf`, `-inf`, or the rounded magnitude with the
sign of the value. -/
def fixedText (f : Float) (places : Nat) : String :=
  match Shape.ofFloat f with
  | .nan => "NaN"
  | .infinite neg => signMark neg ++ "inf"
  | .finite neg x => signMark neg ++ x.fixed places

/-! ## Examples -/

example : plainText 1e20 = "100000000000000000000" := by decide +kernel
example : plainText 1e-7 = "0.0000001" := by decide +kernel
example : plainText (-0.5) = "-0.5" := by decide +kernel
example : fixedText 0.625 2 = "0.62" := by decide +kernel
example : fixedText 0.675 2 = "0.68" := by decide +kernel
example : fixedText 3 1 = "3.0" := by decide +kernel

end BranchSensitivity.Decimal
