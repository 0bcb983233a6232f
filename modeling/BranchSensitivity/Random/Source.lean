import BranchSensitivity.Random.ChaCha
import BranchSensitivity.Error

/-!
# A seeded source of random words

`Rng.ofSeed n` expands a 64-bit seed into a 256-bit key with a permuted congruential generator:
each of the eight key words is the output of one step. The source then hands out the words of
ChaCha blocks 0, 1, 2, … in order, four blocks (64 words) at a time.

A 32-bit draw takes the next word. A 64-bit draw takes two words, low then high; when only one
word of the buffer is left, it is the low half and the first word of the next four blocks is the
high half. All draws are functions `Rng → α × Rng`, composed in the `Draw` state monad.

The state of the source also records the first failure of the run: the engine stops at a failed
check (a look-up past the end of a list, a count taken below zero, a draw from an empty range),
and a run that records none is one that never stops so. After a failure the computation goes on
with a stand-in value, which nothing reads.
-/

namespace BranchSensitivity.Random

/-- A random source: its key, the number of the next block, and four blocks of words of which
the first `index` have been handed out; and the first failure of the run, if any. -/
structure Rng where
  key : Vector UInt32 8
  counter : UInt64
  buffer : Vector UInt32 64
  index : Nat
  fault : Option Fault := none

/-- A computation that draws from a random source. -/
abbrev Draw := StateM Rng

/-- The multiplier of the seed expansion. -/
def seedMultiplier : UInt64 := 6364136223846793005

/-- The increment of the seed expansion. -/
def seedIncrement : UInt64 := 11634580027462260723

/-- One step of the seed expansion's state. -/
def seedStep (state : UInt64) : UInt64 := state * seedMultiplier + seedIncrement

/-- The output word of a seed-expansion state: an xorshift of the high bits, rotated right by
the top five bits. -/
def seedOutput (state : UInt64) : UInt32 :=
  let x := (((state >>> 18) ^^^ state) >>> 27).toUInt32
  let r := (state >>> 59).toUInt32
  (x >>> r) ||| (x <<< (32 - r))

/-- The key of a seed: the outputs of eight steps. -/
def keyOfSeed (seed : UInt64) : Vector UInt32 8 :=
  Vector.ofFn fun i => seedOutput (Nat.repeat seedStep (i.val + 1) seed)

/-- The source seeded with `seed`, its buffer used up. -/
def Rng.ofSeed (seed : UInt64) : Rng :=
  { key := keyOfSeed seed, counter := 0, buffer := Vector.replicate 64 0, index := 64 }

/-- The source with the next four blocks in its buffer, none handed out. -/
def Rng.refill (r : Rng) : Rng :=
  let b0 := ChaCha.block r.key r.counter
  let b1 := ChaCha.block r.key (r.counter + 1)
  let b2 := ChaCha.block r.key (r.counter + 2)
  let b3 := ChaCha.block r.key (r.counter + 3)
  { r with counter := r.counter + 4, buffer := b0 ++ b1 ++ b2 ++ b3, index := 0 }

/-- The next 32-bit word. -/
def Rng.nextU32 (r : Rng) : UInt32 × Rng :=
  if h : r.index < 64 then (r.buffer[r.index], { r with index := r.index + 1 })
  else
    let r := r.refill
    (r.buffer[0], { r with index := 1 })

/-- The next 64-bit word. -/
def Rng.nextU64 (r : Rng) : UInt64 × Rng :=
  if h : r.index + 1 < 64 then
    let lo := r.buffer[r.index].toUInt64
    let hi := r.buffer[r.index + 1].toUInt64
    ((hi <<< 32) ||| lo, { r with index := r.index + 2 })
  else if h : r.index < 64 then
    let lo := r.buffer[r.index].toUInt64
    let r := r.refill
    ((r.buffer[0].toUInt64 <<< 32) ||| lo, { r with index := 1 })
  else
    let r := r.refill
    ((r.buffer[1].toUInt64 <<< 32) ||| r.buffer[0].toUInt64, { r with index := 2 })

/-- Draw a 32-bit word. -/
def word32 : Draw UInt32 := fun r => r.nextU32

/-- Draw a 64-bit word. -/
def word64 : Draw UInt64 := fun r => r.nextU64

/-- Draw a 128-bit word: a low 64-bit word, then a high one. -/
def word128 : Draw Nat := do
  let lo ← word64
  let hi ← word64
  return hi.toNat * 0x10000000000000000 + lo.toNat

/-! ## Failures -/

/-- Record the failure `f`, unless one was recorded before. -/
def Rng.fail (f : Fault) (r : Rng) : Rng := { r with fault := r.fault.or (some f) }

/-- Fail with `f`, going on with the stand-in `a`. -/
def failWith {α : Type} (f : Fault) (a : α) : Draw α := fun r => (a, r.fail f)

/-- Fail with `f` unless the check holds. -/
def require (ok : Bool) (f : Fault) : Draw Unit := if ok then pure () else failWith f ()

/-- The item at index `i`; past the end of the list the look-up fails. -/
def lookup {α : Type} (l : List α) (i : Nat) (standIn : α) : Draw α :=
  match l[i]? with
  | some a => pure a
  | none => failWith .indexOutOfRange standIn

/-- One less than `n`; at zero the decrement fails. -/
def decrement (n : Nat) : Draw Nat :=
  if n == 0 then failWith .lengthUnderflow 0 else pure (n - 1)

@[simp] theorem Rng.fail_fault (f : Fault) (r : Rng) : (r.fail f).fault = r.fault.or (some f) :=
  rfl

@[simp] theorem failWith_fst {α : Type} (f : Fault) (a : α) (r : Rng) : (failWith f a r).1 = a :=
  rfl

@[simp] theorem require_true (f : Fault) : require true f = pure () := rfl

theorem lookup_fst {α : Type} (l : List α) (i : Nat) (standIn : α) (r : Rng) :
    (lookup l i standIn r).1 = l.getD i standIn := by
  unfold lookup
  rw [List.getD_eq_getElem?_getD]
  cases l[i]? <;> rfl

theorem lookup_of_lt {α : Type} {l : List α} {i : Nat} (h : i < l.length) (standIn : α) :
    lookup l i standIn = pure l[i] := by
  simp [lookup, List.getElem?_eq_getElem h]

theorem decrement_of_pos {n : Nat} (h : 0 < n) : decrement n = pure (n - 1) := by
  simp [decrement, Nat.pos_iff_ne_zero.1 h]

end BranchSensitivity.Random
