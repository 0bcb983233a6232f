/-!
# The double nearest to a natural number

`nearestOfNat n` rounds `n` to the nearest double, a half going to the even neighbour. Below
`2^64` the machine conversion does it. Above, the top 64 bits are kept and every lower bit is
folded into the lowest kept one (a sticky bit), so the second rounding, from 64 to 53 bits, still
sees whether the value was above a half; a value beyond the largest double becomes infinite.
`pow10 k` is `10^k` rounded this way.
-/

namespace BranchSensitivity.Decimal

/-- The double nearest to `n`, a half going to the even neighbour. -/
def nearestOfNat (n : Nat) : Float :=
  if n < 0x10000000000000000 then n.toUInt64.toFloat
  else
    let s := Nat.log2 n - 63
    let top := n >>> s
    let sticky := if n % Nat.pow 2 s == 0 then 0 else 1
    ((top ||| sticky).toUInt64.toFloat).scaleB (Int.ofNat s)

/-- `10^k` as the nearest double. -/
def pow10 (k : Nat) : Float := nearestOfNat (Nat.pow 10 k)

end BranchSensitivity.Decimal
