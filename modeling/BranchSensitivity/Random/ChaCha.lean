/-!
# The ChaCha block function, twelve rounds

A block is computed from sixteen 32-bit words: the four words of `"expand 32-byte k"`, eight key
words, a 64-bit block counter (low word first) and a 64-bit stream number, here zero. Twelve
rounds are six double rounds, each a column round and then a diagonal round of quarter rounds.
The block is the final state added word by word to the initial one.
-/

namespace BranchSensitivity.Random.ChaCha

/-- Sixteen words of state. -/
abbrev State := Vector UInt32 16

/-- Rotate a word left by `n < 32` places. -/
def rotl (x : UInt32) (n : UInt32) : UInt32 := (x <<< n) ||| (x >>> (32 - n))

/-- The quarter round on the words at `a`, `b`, `c` and `d`. -/
def quarterRound (s : State) (a b c d : Fin 16) : State :=
  let va := s[a] + s[b]
  let vd := rotl (s[d] ^^^ va) 16
  let vc := s[c] + vd
  let vb := rotl (s[b] ^^^ vc) 12
  let va := va + vb
  let vd := rotl (vd ^^^ va) 8
  let vc := vc + vd
  let vb := rotl (vb ^^^ vc) 7
  (((s.set a va).set b vb).set c vc).set d vd

/-- A column round, then a diagonal round. -/
def doubleRound (s : State) : State :=
  let s := quarterRound s 0 4 8 12
  let s := quarterRound s 1 5 9 13
  let s := quarterRound s 2 6 10 14
  let s := quarterRound s 3 7 11 15
  let s := quarterRound s 0 5 10 15
  let s := quarterRound s 1 6 11 12
  let s := quarterRound s 2 7 8 13
  quarterRound s 3 4 9 14

/-- The initial state of the block numbered `counter` under `key`. -/
def initial (key : Vector UInt32 8) (counter : UInt64) : State :=
  #v[0x61707865, 0x3320646e, 0x79622d32, 0x6b206574,
    key[0], key[1], key[2], key[3], key[4], key[5], key[6], key[7],
    counter.toUInt32, (counter >>> 32).toUInt32, 0, 0]

/-- The block numbered `counter` under `key`. -/
def block (key : Vector UInt32 8) (counter : UInt64) : State :=
  let s := initial key counter
  Vector.zipWith (· + ·) (Nat.repeat doubleRound 6 s) s

end BranchSensitivity.Random.ChaCha
