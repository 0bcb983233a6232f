import Mathlib
import BranchSensitivity.Mutation

/-!
# What the draws of a trial return

The draws that one mutation makes stay in their ranges for every state of the random source: a
sample word is below two to the power of its width, an accepted integer of a rejection loop lies
in `[low, low + r)`, an integer drawn in a range narrower than the word lies in it, and an index
drawn below `n > 0` is below `n`.

A mutator gives a value exactly for the values it can mutate, and that value is of the kind it
was given, whatever the source hands out:

    ((m.mutate v) s).1.isSome = Mutator.canMutate v          (Mutator.mutate_isSome)
    ((m.mutate v) s).1 = some w → w.kindName = v.kindName    (Mutator.mutate_kindName)
-/

namespace BranchSensitivity

@[simp] theorem Int.pow_eq (m : Int) (n : Nat) : m.pow n = m ^ n := rfl

open BranchSensitivity.Random

namespace Random

/-! ## Ranges of the integer draws -/

theorem Width.sample_lt (w : Width) (s : Rng) : (w.sample s).1 < 2 ^ w.sampleBits := by
  cases w with
  | w8 | w16 | w32 => exact UInt32.toNat_lt _
  | w64 => exact UInt64.toNat_lt _
  | w128 =>
    simp only [Width.sample, word128, word64, bind, StateT.bind, pure, StateT.pure]
    have hlo := UInt64.toNat_lt s.nextU64.1
    have hhi := UInt64.toNat_lt s.nextU64.2.nextU64.1
    simp only [Width.sampleBits]
    omega

/-- A rejection loop for a range of size `r > 0` gives a value of `[low, low + r)`: the high half
of `v * r` is below `r` for every sample `v`, and a loop out of fuel gives `low`. -/
theorem acceptLoop_mem (w : Width) (low : Int) {r : Nat} (zone : Nat) (hr : 0 < r) :
    ∀ fuel s, low ≤ (acceptLoop w low r zone fuel s).1 ∧
      (acceptLoop w low r zone fuel s).1 < low + r := by
  intro fuel
  induction fuel with
  | zero =>
    intro s
    simp only [acceptLoop, pure, StateT.pure]
    omega
  | succ fuel ih =>
    intro s
    simp only [acceptLoop, bind, StateT.bind]
    have hv := w.sample_lt s
    rcases hs : w.sample s with ⟨v, s'⟩
    rw [hs] at hv
    dsimp only at hv ⊢
    split
    · have hhigh : v * r / 2 ^ w.sampleBits < r :=
        Nat.div_lt_of_lt_mul (Nat.mul_lt_mul_of_pos_right hv hr)
      simp only [pure, StateT.pure]
      generalize v * r / 2 ^ w.sampleBits = q at hhigh ⊢
      omega
    · exact ih s'

/-- An integer drawn in `[low, high]`, a range narrower than the word, lies in it. -/
theorem intInclusive_mem (w : Width) {low high : Int} (h : low ≤ high)
    (hr : high - low + 1 < 2 ^ w.bits) (s : Rng) :
    low ≤ (intInclusive w low high s).1 ∧ (intInclusive w low high s).1 ≤ high := by
  have hsize : ((high - low + 1) % 2 ^ w.bits).toNat = (high - low + 1).toNat := by
    rw [Int.emod_eq_of_lt (by omega) hr]
  have hpos : 0 < ((high - low + 1) % 2 ^ w.bits).toNat := by omega
  have hx := acceptLoop_mem w low (w.zone ((high - low + 1) % 2 ^ w.bits).toNat) hpos 256 s
  unfold intInclusive
  rw [if_neg (by omega)]
  simp only [Int.pow_eq]
  rw [if_neg (by simpa using Nat.pos_iff_ne_zero.mp hpos)]
  omega

/-- An index drawn below `n > 0` is below `n`, also for `n ≥ 2 ^ 64`, where the range is
taken modulo the word size. -/
theorem index_lt {n : Nat} (hn : 0 < n) (s : Rng) : (index n s).1 < n := by
  simp only [index, bind, StateT.bind, pure, StateT.pure]
  rcases h : intInclusive .w64 0 ((n : Int) - 1) s with ⟨x, s'⟩
  dsimp only
  unfold intInclusive at h
  rw [if_neg (by omega)] at h
  simp only [Int.pow_eq] at h
  have hbits : Width.w64.bits = 64 := rfl
  by_cases hr : (((n : Int) - 1 - 0 + 1) % 2 ^ Width.w64.bits).toNat = 0
  · -- the range covers whole words: `n` is a non-zero multiple of `2 ^ 64`
    rw [if_pos (by rw [hr]; rfl)] at h
    have hbig : 2 ^ 64 ≤ n := by
      rw [Int.toNat_eq_zero, hbits] at hr
      omega
    simp only [bind, StateT.bind, pure, StateT.pure] at h
    rcases hv : Width.w64.sample s with ⟨v, s''⟩
    rw [hv] at h
    cases h
    simp only [toSigned, hbits, Nat.pow_eq, Int.pow_eq]
    split <;> omega
  · rw [if_neg (by simpa using hr)] at h
    have hx := acceptLoop_mem .w64 0
      (Width.w64.zone (((n : Int) - 1 - 0 + 1) % 2 ^ Width.w64.bits).toNat)
      (Nat.pos_of_ne_zero hr) 256 s
    rw [h, hbits] at hx
    omega

/-! ## Draws that record no failure -/

/-- The draw records no failure, from any state of the source, and its result satisfies `P`. -/
def Safe {α : Type} (d : Draw α) (P : α → Prop) : Prop :=
  ∀ s, (d s).2.fault = s.fault ∧ P (d s).1

namespace Safe

variable {α β : Type} {d : Draw α} {P Q : α → Prop}

theorem intro (hf : ∀ s, (d s).2.fault = s.fault) (hP : ∀ s, P (d s).1) : Safe d P :=
  fun s => ⟨hf s, hP s⟩

theorem fault (h : Safe d P) (s : Rng) : (d s).2.fault = s.fault := (h s).1

theorem mono (h : Safe d P) (hPQ : ∀ a, P a → Q a) : Safe d Q :=
  fun s => ⟨(h s).1, hPQ _ (h s).2⟩

theorem pure {a : α} (h : P a) : Safe (Pure.pure a) P := fun _ => ⟨rfl, h⟩

/-- What the first draw gives decides the second, and neither records a failure. -/
theorem bind {f : α → Draw β} {Q : β → Prop} (hd : Safe d P) (hf : ∀ a, P a → Safe (f a) Q) :
    Safe (d >>= f) Q := by
  intro s
  obtain ⟨h₁, hp⟩ := hd s
  obtain ⟨h₂, hq⟩ := hf _ hp (d s).2
  exact ⟨h₂.trans h₁, hq⟩

/-- A draw whose result is then only computed on. -/
theorem bind_pure {f : α → β} (h : Safe d P) : Safe (d >>= fun a => Pure.pure (f a)) fun _ => True :=
  h.bind fun _ _ => pure trivial

theorem map {f : α → β} (h : Safe d P) : Safe (f <$> d) fun _ => True :=
  fun s => ⟨(h s).1, trivial⟩

/-- Draws for every item of a list, none recording a failure. -/
theorem mapM {f : α → Draw β} : ∀ (l : List α), (∀ x ∈ l, Safe (f x) fun _ => True) →
    Safe (l.mapM f) fun _ => True
  | [], _ => Safe.pure trivial
  | x :: xs, h => by
    rw [List.mapM_cons]
    exact (h x (by simp)).bind fun _ _ =>
      (mapM xs fun y hy => h y (by simp [hy])).bind_pure

end Safe

theorem Rng.nextU32_fault (r : Rng) : r.nextU32.2.fault = r.fault := by
  unfold Rng.nextU32
  split <;> rfl

theorem Rng.nextU64_fault (r : Rng) : r.nextU64.2.fault = r.fault := by
  unfold Rng.nextU64
  split
  · rfl
  · split <;> rfl

theorem word64_safe : Safe word64 fun _ => True :=
  Safe.intro Rng.nextU64_fault fun _ => trivial

theorem Width.sample_safe (w : Width) : Safe w.sample (· < 2 ^ w.sampleBits) := by
  refine Safe.intro ?_ w.sample_lt
  cases w with
  | w8 | w16 | w32 => exact fun s => Rng.nextU32_fault s
  | w64 => exact fun s => Rng.nextU64_fault s
  | w128 =>
    exact (word64_safe.bind fun _ _ => word64_safe.bind_pure).fault

/-- A rejection loop records no failure and gives a value of `[low, low + r)`. -/
theorem acceptLoop_safe (w : Width) (low : Int) {r : Nat} (zone : Nat) (hr : 0 < r) (fuel : Nat) :
    Safe (acceptLoop w low r zone fuel) fun x => low ≤ x ∧ x < low + r :=
  Safe.intro (fun s => by
    induction fuel generalizing s with
    | zero => rfl
    | succ fuel ih =>
      simp only [acceptLoop, bind, StateT.bind]
      rcases hs : w.sample s with ⟨v, s'⟩
      have hf := (w.sample_safe s).1
      rw [hs] at hf
      dsimp only
      split
      · exact hf
      · exact (ih s').trans hf) (acceptLoop_mem w low zone hr fuel)

/-- A draw from a range with values records no failure. -/
theorem intInclusive_safe (w : Width) {low high : Int} (h : low ≤ high) :
    Safe (intInclusive w low high) fun _ => True := by
  unfold intInclusive
  rw [if_neg (by omega)]
  dsimp only
  split
  · exact (w.sample_safe).bind_pure
  · rename_i hr
    exact (acceptLoop_safe w low _ (Nat.pos_of_ne_zero (by simpa using hr)) 256).mono
      fun _ _ => trivial

/-- A draw from a range narrower than the word records no failure and lies in the range. -/
theorem intInclusive_safe_mem (w : Width) {low high : Int} (h : low ≤ high)
    (hr : high - low + 1 < 2 ^ w.bits) :
    Safe (intInclusive w low high) fun x => low ≤ x ∧ x ≤ high :=
  Safe.intro (intInclusive_safe w h).fault (intInclusive_mem w h hr)

theorem index_safe {n : Nat} (hn : 0 < n) : Safe (index n) (· < n) :=
  Safe.intro (fun s => by
    unfold index
    exact (intInclusive_safe .w64 (by omega)).bind_pure.fault s)
    (index_lt hn)

theorem coin_safe (p : Float) : Safe (coin p) fun _ => True := by
  unfold coin
  split
  · exact Safe.pure trivial
  · exact word64_safe.bind_pure

/-- A look-up within the list records no failure and gives the item there. -/
theorem lookup_safe {l : List α} {i : Nat} (h : i < l.length) (standIn : α) :
    Safe (lookup l i standIn) (· = l[i]) := by
  rw [lookup_of_lt h]
  exact Safe.pure rfl

theorem require_safe {ok : Bool} (h : ok = true) (f : Fault) : Safe (require ok f) fun _ => True := by
  rw [h, require_true]
  exact Safe.pure trivial

theorem decrement_safe {n : Nat} (h : 0 < n) : Safe (decrement n) (· = n - 1) := by
  rw [decrement_of_pos h]
  exact Safe.pure rfl

theorem Width.fits_iff (w : Width) (x : Int) :
    w.fits x = true ↔ -2 ^ (w.bits - 1) ≤ x ∧ x < 2 ^ (w.bits - 1) := by
  simp [Width.fits]

theorem checkedInt_safe {w : Width} {x : Int} (h : w.fits x = true) :
    Safe (checkedInt w x) (· = x) := by
  unfold checkedInt
  rw [if_pos h]
  exact Safe.pure rfl

theorem floatLoop_safe (low high scale : Float) (fuel : Nat) :
    Safe (floatLoop low high scale fuel) fun _ => True := by
  induction fuel with
  | zero => exact Safe.pure trivial
  | succ fuel ih =>
    refine word64_safe.bind fun _ _ => ?_
    dsimp only
    split
    · exact Safe.pure trivial
    · exact ih

/-- A draw of a double from a range that has values and a finite width records no failure. -/
theorem floatBelow_safe {low high : Float} (h : low < high) (hw : (high - low).isFinite = true) :
    Safe (floatBelow low high) fun _ => True := by
  unfold floatBelow
  rw [if_neg (by simp [h]), if_neg (by simp [hw])]
  exact floatLoop_safe low high (high - low) 256

end Random

/-! ## The mutator's result -/

/-- Null is the only value of the kind named `null`. -/
theorem Value.isNull_eq_kindName (v : Value) : v.isNull = (v.kindName == "null") := by
  cases v <;> rfl

namespace Mutator

theorem mutate_fst (m : Mutator) (v : Value) (s : Rng) :
    (m.mutate v s).1 =
      (m.nextValue v (m.drawReplace s).1 (m.drawReplace s).2).1.map (awayFrom v) := rfl

@[simp] theorem kindName_awayFrom (v w : Value) : (awayFrom v w).kindName = w.kindName := by
  unfold awayFrom
  split <;> (try split) <;> rfl

theorem nextValue_isSome (m : Mutator) (v : Value) (replace : Bool) (s : Rng) :
    (m.nextValue v replace s).1.isSome = canMutate v := by
  cases v <;> rfl

theorem nextValue_kindName (m : Mutator) {v w : Value} (replace : Bool) (s : Rng)
    (h : (m.nextValue v replace s).1 = some w) : w.kindName = v.kindName := by
  cases v <;> cases h <;> rfl

/-- The mutator gives a value exactly for the values it can mutate. -/
theorem mutate_isSome (m : Mutator) (v : Value) (s : Rng) :
    ((m.mutate v) s).1.isSome = canMutate v := by
  rw [mutate_fst, Option.isSome_map, nextValue_isSome]

/-- The mutated value is of the kind of the value it replaces. -/
theorem mutate_kindName (m : Mutator) {v w : Value} (s : Rng) (h : ((m.mutate v) s).1 = some w) :
    w.kindName = v.kindName := by
  rw [mutate_fst, Option.map_eq_some_iff] at h
  obtain ⟨u, hu, rfl⟩ := h
  rw [kindName_awayFrom, nextValue_kindName _ _ _ hu]

end Mutator

end BranchSensitivity
