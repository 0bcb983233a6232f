import BranchSensitivity.Proofs.MutationDiffers
import BranchSensitivity.Proofs.IntegerDoubles
import BranchSensitivity.Inputs
import BranchSensitivity.Collaborator.Factory
import BranchSensitivity.Observation
import BranchSensitivity.Similarity.Values

/-!
# No run of the engine fails

The engine stops at a failed check: a draw from a range with no values or, for doubles, of
infinite width (`intInclusive`, `index`, `floatBelow`), a look-up past the end of a list
(`lookup`), a count taken one below zero (`decrement`, and the final position of an empty test in
`ProgramFitness.execute`), and an integer that leaves its word (`checkedInt`). The model records
the first such failure, in the source's state or in the fitness function's. No run records one,
for every input and every state of the source:

    ((Mutator.new strategy maxDelta maxInt).mutate v s).2.fault = s.fault
    (m.nextString current replace s).2.fault = s.fault
    (ins.mutate t (Mutator.new strategy maxDelta maxInt) s).2.fault = s.fault
    (t.descentStep p st s).2.fault = s.fault          (t.rootValue p s).2.fault = s.fault
    (f.insert t position s).2.fault = s.fault         (f.changeNull t position s).2.fault = s.fault
    (ProgramFitness.ops.evaluate f goal c buf).2.2.fault = f.fault

with 64-bit bounds `maxDelta` and `maxInt`. Every guard stands before the check it protects: a
mutator raises both bounds to at least one, so its delta range `1..=maxDelta` has values and a
negated magnitude is a 64-bit integer; a replacement range holds two values or more, and the
replacement double range `-maxInt..maxInt` is not empty and of finite width; an index is drawn
only after a check that its list (a string's characters, the candidates, a call's arguments, the
templates) is not empty, and so lies in it; an array is stepped into only when its length is
positive; the program runs only on a test whose final statement calls it. Integers of a kind lie
within 64 bits, so their 128-bit sums and the difference of two integer views stay in range.

`Random.Safe d P` says that the draw `d` records no failure and gives a result satisfying `P`;
a composite draw is safe when each step is, given what the steps before it gave
(`Random.Safe.bind`).
-/

namespace BranchSensitivity

open BranchSensitivity.Random

/-! ## Letters -/

theorem randomChar_safe : Safe randomChar (· ∈ alphabet) :=
  (index_safe (by decide)).bind fun _ hi =>
    (lookup_safe hi 'a').mono fun _ hc => hc ▸ List.getElem_mem hi

theorem charOtherThan_safe (old : Char) (fuel : Nat) :
    Safe (charOtherThan old fuel) fun _ => True := by
  induction fuel with
  | zero => exact Safe.pure trivial
  | succ fuel ih =>
    rw [charOtherThan]
    refine randomChar_safe.bind fun c _ => ?_
    split
    · exact ih
    · exact Safe.pure trivial

/-- `x` held within a range is in it. -/
theorem clampInt_mem (x : Int) {lo hi : Int} (h : lo ≤ hi) :
    lo ≤ clampInt x lo hi ∧ clampInt x lo hi ≤ hi := by
  unfold clampInt
  omega

namespace Mutator

variable {m : Mutator}

/-! ## Numbers -/

/-- A delta is drawn from `1..=maxDelta`, which has values, and negated within 64 bits. -/
theorem delta_safe (hm : m.Bounded) :
    Safe m.delta fun d => -m.maxDelta ≤ d ∧ d ≤ m.maxDelta := by
  have hlt := hm.maxDelta_lt
  unfold delta
  refine (intInclusive_safe_mem .w64 hm.one_le_maxDelta
    (by simp only [Width.bits]; omega)).bind fun k hk => (coin_safe 0.5).bind fun b _ => ?_
  cases b with
  | false => exact Safe.pure (by omega)
  | true =>
    have hfits : Width.w64.fits (-k) = true := by
      rw [Width.fits_iff]
      simp only [Width.bits]
      omega
    exact (checkedInt_safe hfits).mono fun d hd => by omega

/-- The next integer of a value of a range within 64 bits records no failure: its draw is from a
range of two values or more, and its sums stay far inside 128 bits. -/
theorem nextInteger_safe (hm : m.Bounded) {original current lo hi : Int} (hlohi : lo < hi)
    (hlo : -2 ^ 63 ≤ lo) (hhi : hi < 2 ^ 63) (hcur : lo ≤ current ∧ current ≤ hi)
    (replace : Bool) : Safe (m.nextInteger original current lo hi replace) fun _ => True := by
  -- every sum below stays within `2 ^ 65` of zero
  have hfits : ∀ x : Int, -2 ^ 65 ≤ x → x ≤ 2 ^ 65 → Width.w128.fits x = true := by
    intro x h₁ h₂
    rw [Width.fits_iff]
    simp only [Width.bits]
    omega
  unfold nextInteger
  cases replace with
  | true =>
    obtain ⟨hlo', hab, hhi'⟩ := m.replaceRange_spec hlohi
    simp only [↓reduceIte]
    generalize m.replaceRange lo hi = p at hlo' hab hhi' ⊢
    obtain ⟨a, b⟩ := p
    dsimp only at hlo' hab hhi' ⊢
    refine (intInclusive_safe_mem .w128 hab.le (by simp only [Width.bits]; omega)).bind
      fun x hx => ?_
    split
    · exact Safe.pure trivial
    · split
      · exact (checkedInt_safe (hfits _ (by omega) (by omega))).mono fun _ _ => trivial
      · exact (checkedInt_safe (hfits _ (by omega) (by omega))).mono fun _ _ => trivial
  | false =>
    have hlt := hm.maxDelta_lt
    simp only [Bool.false_eq_true, ↓reduceIte]
    refine (delta_safe hm).bind fun d hd =>
      (checkedInt_safe (hfits (current + d) (by omega) (by omega))).bind fun y hy => ?_
    subst hy
    split
    · exact Safe.pure trivial
    · exact (checkedInt_safe (hfits (current - d) (by omega) (by omega))).bind fun _ _ =>
        Safe.pure trivial

/-- The replacement double is drawn from `-maxInt..maxInt`, a range with values and of finite
width. -/
theorem nextFloat_safe (hm : m.Bounded) (current : Float) (replace : Bool) :
    Safe (m.nextFloat current replace) fun _ => True := by
  unfold nextFloat
  cases replace with
  | true =>
    obtain ⟨-, -, hlt, hw⟩ := Value.floatOfInt_range hm.one_le_maxInt hm.maxInt_lt
    simp only [↓reduceIte]
    refine (floatBelow_safe hlt hw).bind fun _ _ => ?_
    split <;> exact Safe.pure trivial
  | false =>
    simp only [Bool.false_eq_true, ↓reduceIte]
    refine (delta_safe hm).bind fun _ _ => ?_
    split <;> exact Safe.pure trivial

/-! ## Strings -/

/-- A string is edited at a position drawn below its length, after a check that it is not
empty; the edit there is in range. -/
theorem nextString_safe (m : Mutator) (current : String) (replace : Bool) :
    Safe (m.nextString current replace) fun _ => True := by
  unfold nextString
  cases replace with
  | true =>
    simp only [↓reduceIte]
    refine (intInclusive_safe .w32 (by decide)).bind fun _ _ =>
      (Safe.mapM _ fun _ _ => randomChar_safe.mono fun _ _ => trivial).bind fun _ _ => ?_
    split
    · exact randomChar_safe.bind_pure
    · exact Safe.pure trivial
  | false =>
    simp only [Bool.false_eq_true, ↓reduceIte]
    split
    · exact randomChar_safe.bind_pure
    · rename_i hempty
      have hlen : 0 < current.toList.length :=
        List.length_pos_iff.2 fun h => hempty (List.isEmpty_iff.2 h)
      refine (index_safe hlen).bind fun pos hpos =>
        (intInclusive_safe .w32 (by decide)).bind fun _ _ => ?_
      split
      · exact randomChar_safe.bind fun _ _ =>
          (require_safe (decide_eq_true hpos.le) _).bind_pure
      · split
        · exact (require_safe (decide_eq_true hpos) _).bind_pure
        · exact (lookup_safe hpos 'a').bind fun _ _ =>
            (charOtherThan_safe _ 256).bind_pure

/-! ## A mutation -/

theorem drawReplace_safe (m : Mutator) : Safe m.drawReplace fun _ => True := by
  unfold drawReplace
  split
  · exact Safe.pure trivial
  · exact Safe.pure trivial
  · exact coin_safe _

theorem nextValue_safe (hm : m.Bounded) (v : Value) (replace : Bool) :
    Safe (m.nextValue v replace) fun _ => True := by
  cases v with
  | null | object _ | bool _ => exact Safe.pure trivial
  | char c =>
    exact (nextInteger_safe hm (by decide) (by decide) (by decide)
      (clampInt_mem _ (by decide)) replace).bind_pure
  | byte x =>
    exact (nextInteger_safe hm (by decide) (by decide) (by decide)
      ⟨x.le_toInt, by have := x.toInt_lt; omega⟩ replace).bind_pure
  | short x =>
    exact (nextInteger_safe hm (by decide) (by decide) (by decide)
      ⟨x.le_toInt, by have := x.toInt_lt; omega⟩ replace).bind_pure
  | int x =>
    exact (nextInteger_safe hm (by decide) (by decide) (by decide)
      ⟨x.le_toInt, by have := x.toInt_lt; omega⟩ replace).bind_pure
  | long x =>
    exact (nextInteger_safe hm (by decide) (by decide) (by decide)
      ⟨x.le_toInt, by have := x.toInt_lt; omega⟩ replace).bind_pure
  | float x => exact (nextFloat_safe hm _ replace).bind_pure
  | double x => exact (nextFloat_safe hm _ replace).bind_pure
  | str x => exact (nextString_safe m x replace).bind_pure

theorem mutate_safe (hm : m.Bounded) (v : Value) : Safe (m.mutate v) fun _ => True :=
  (drawReplace_safe m).bind fun r _ =>
    (nextValue_safe hm v r).bind_pure

end Mutator

/-- A variable to mutate is picked by an index drawn below the number of candidates, after a
check that there are some. -/
theorem MethodInputs.mutate_safe {m : Mutator} (hm : m.Bounded) (ins : MethodInputs)
    (t : TestCase) : Safe (ins.mutate t m) fun _ => True := by
  unfold MethodInputs.mutate
  dsimp only
  split
  · exact Safe.pure trivial
  · rename_i hsome
    have hlen := List.length_pos_iff.2 fun h => hsome (List.isEmpty_iff.2 h)
    refine (index_safe hlen).bind fun i hi => (lookup_safe hi 0).bind fun _ _ => ?_
    split
    · exact Safe.pure trivial
    · refine (Mutator.mutate_safe hm _).bind fun _ _ => ?_
      split
      · exact Safe.pure trivial
      · split <;> exact Safe.pure trivial

/-! ## The descent -/

namespace TestCase

/-- A step goes into an array only when its length is positive, and into a call's arguments by an
index drawn below their number, after a check that there are some. -/
theorem descentStep_safe (t : TestCase) (p : Nat) (st : Statement) :
    Safe (t.descentStep p st) fun _ => True := by
  unfold descentStep
  split
  case h_3 len _ =>
    split
    · rename_i hlen
      exact (decrement_safe hlen).bind_pure
    · exact Safe.pure trivial
  case h_5 c _ | h_6 c _ =>
    split
    · exact Safe.pure trivial
    · rename_i hempty
      have hlen := List.length_pos_iff.2 fun h => hempty (List.isEmpty_iff.2 h)
      exact (index_safe hlen).bind fun _ hi =>
        (lookup_safe hi default).bind_pure
  all_goals exact Safe.pure trivial

theorem descend_safe (t : TestCase) (fuel current : Nat) :
    Safe (t.descend fuel current) fun _ => True := by
  induction fuel generalizing current with
  | zero => exact Safe.pure trivial
  | succ fuel ih =>
    rw [descend]
    split
    · exact Safe.pure trivial
    · refine (t.descentStep_safe current _).bind fun o _ => ?_
      split
      · split
        · exact ih _
        · exact Safe.pure trivial
      · exact Safe.pure trivial

theorem rootValue_safe (t : TestCase) (p : Nat) : Safe (t.rootValue p) fun _ => True := by
  unfold rootValue
  split
  · exact (t.descend_safe t.len p).map
  · exact Safe.pure trivial

/-- A test whose last statement calls a method is not empty. -/
theorem len_pos_of_lastMethodCall (t : TestCase) (h : t.lastMethodCall?.isSome) : 0 < t.len := by
  unfold lastMethodCall? last? at h
  unfold len
  cases hs : t.statements with
  | nil => simp [hs] at h
  | cons _ _ => simp

end TestCase

/-! ## The factory -/

namespace TemplateFactory

theorem freshPrimitive_safe (v : Value) : Safe (freshPrimitive v) fun _ => True := by
  cases v
  case int => exact (intInclusive_safe .w32 (by decide)).bind_pure
  case long => exact (intInclusive_safe .w64 (by decide)).bind_pure
  case short => exact (intInclusive_safe .w16 (by decide)).bind_pure
  all_goals exact Safe.pure trivial

theorem randomize_safe (t : TestCase) (ps : List Nat) : Safe (randomize t ps) fun _ => True := by
  induction ps generalizing t with
  | nil => exact Safe.pure trivial
  | cons p ps ih =>
    rw [randomize]
    split
    · refine (freshPrimitive_safe _).bind fun _ _ => ?_
      split
      · exact ih _
      · exact ih _
    · exact ih _

/-- A template is picked by an index drawn below their number, after a check that there are
some. -/
theorem insert_safe (f : TemplateFactory) (t : TestCase) (position : Nat) :
    Safe (f.insert t position) fun _ => True := by
  unfold insert
  split
  · exact Safe.pure trivial
  · rename_i hguard
    have hlen : 0 < f.templates.length := by
      cases h : f.templates with
      | nil => simp [h] at hguard
      | cons _ _ => simp
    refine (index_safe hlen).bind fun i hi => (lookup_safe hi {}).bind fun copy _ => ?_
    dsimp only
    split
    · exact (randomize_safe _ _).bind_pure
    · exact (Safe.pure (P := fun _ => True) trivial).bind_pure

theorem defaultValue_safe (ty : TypeName) : Safe (defaultValue ty) fun _ => True := by
  unfold defaultValue
  split
  -- the four integer kinds under both their names draw from `-10..=10`, the booleans toss a coin
  case h_1 | h_2 | h_3 | h_4 | h_5 | h_6 | h_7 | h_8 =>
    exact (intInclusive_safe _ (by decide)).bind_pure
  case h_9 | h_10 => exact (coin_safe _).bind_pure
  all_goals exact Safe.pure trivial

theorem changeNull_safe (t : TestCase) (position : Nat) :
    Safe (changeNull t position) fun _ => True := by
  unfold changeNull
  split
  · split
    · exact Safe.pure trivial
    · refine (defaultValue_safe _).bind fun _ _ => ?_
      -- the kind of the new statement is chosen without a draw
      simp only [pure_bind]
      split
      · exact Safe.pure trivial
      · split <;> exact Safe.pure trivial
  · exact Safe.pure trivial

end TemplateFactory

/-! ## The program -/

/-- The program runs only on a test whose final statement calls the target method, which is not
empty, so the final position exists. -/
theorem ProgramFitness.execute_fault (f : ProgramFitness) (c : Chromosome) :
    (f.execute c).2.2.fault = f.fault := by
  unfold execute
  dsimp only
  split
  · rfl
  · rename_i hcalls
    have hsome : c.test.lastMethodCall?.isSome := by
      cases h : c.test.lastMethodCall? with
      | none => simp [h] at hcalls
      | some _ => rfl
    have hlen := c.test.len_pos_of_lastMethodCall hsome
    simp [Nat.pos_iff_ne_zero.1 hlen]

namespace Value

/-- A truncated double is held within the 64-bit range. -/
theorem truncSaturate_mem (x : Float) : minLong ≤ truncSaturate x ∧ truncSaturate x ≤ maxLong := by
  have hbounds : minLong ≤ maxLong := by decide
  unfold truncSaturate
  split
  · decide
  · split <;> omega
  · dsimp only
    omega

/-- An integer view lies in the 64-bit range: a character's digit is small, an integer is
one of its kind, and a float is truncated and held within the range. -/
theorem asInteger_mem {v : Value} {a : Int} (h : v.asInteger = some a) :
    -2 ^ 63 ≤ a ∧ a < 2 ^ 63 := by
  cases v <;> simp only [asInteger, Option.some.injEq, reduceCtorEq] at h <;> subst h
  case char c =>
    have : c.toNat < 2 ^ 32 := c.val.toNat_lt
    have h0 : '0'.toNat = 48 := rfl
    have ha : 'a'.toNat = 97 := rfl
    have hA : 'A'.toNat = 65 := rfl
    unfold charDigit
    split
    · omega
    · split
      · omega
      · split <;> omega
  case byte x => exact ⟨by have := x.le_toInt; omega, by have := x.toInt_lt; omega⟩
  case short x => exact ⟨by have := x.le_toInt; omega, by have := x.toInt_lt; omega⟩
  case int x => exact ⟨by have := x.le_toInt; omega, by have := x.toInt_lt; omega⟩
  case long x => exact ⟨x.le_toInt, x.toInt_lt⟩
  case float x =>
    have := truncSaturate_mem x.toFloat
    unfold minLong maxLong at this
    omega
  case double x =>
    have := truncSaturate_mem x
    unfold minLong maxLong at this
    omega

end Value

/-- **No run of the engine fails.** For every input and every state of the random source, no
run records a failure: a mutation by a mutator built from any 64-bit bounds, the next string of
any mutator, the mutation of one variable of a trial's inputs, a descent step and a whole descent
to a root value, the factory's insertion of a template and its replacement of a null, and the
simulated program's evaluation of a chromosome. Every draw is from a range with values, every
look-up within its list, every decrement from a positive count, and every integer within its word;
and the difference of two integer views is a 128-bit integer whose absolute value is too. -/
theorem engine_runs_record_no_fault :
    (∀ (strategy : MutationStrategy) (maxDelta maxInt : Int64) (v : Value) (s : Rng),
      ((Mutator.new strategy maxDelta.toInt maxInt.toInt).mutate v s).2.fault = s.fault) ∧
    (∀ (m : Mutator) (current : String) (replace : Bool) (s : Rng),
      (m.nextString current replace s).2.fault = s.fault) ∧
    (∀ (strategy : MutationStrategy) (maxDelta maxInt : Int64) (ins : MethodInputs)
      (t : TestCase) (s : Rng),
      (ins.mutate t (Mutator.new strategy maxDelta.toInt maxInt.toInt) s).2.fault = s.fault) ∧
    (∀ (t : TestCase) (p : Nat) (st : Statement) (s : Rng),
      (t.descentStep p st s).2.fault = s.fault ∧ (t.rootValue p s).2.fault = s.fault) ∧
    (∀ (f : TemplateFactory) (t : TestCase) (position : Nat) (s : Rng),
      (f.insert t position s).2.fault = s.fault ∧
        (TemplateFactory.changeNull t position s).2.fault = s.fault) ∧
    (∀ (f : ProgramFitness) (goal : Goal) (c : Chromosome) (buf : ObservationBuffer),
      (ProgramFitness.ops.evaluate f goal c buf).2.2.fault = f.fault) ∧
    (∀ (h t : Value) (a b : Int), h.asInteger = some a → t.asInteger = some b →
      (a - b).natAbs < 2 ^ 127) := by
  refine ⟨fun strategy maxDelta maxInt v s => ?_, fun m current replace s => ?_,
    fun strategy maxDelta maxInt ins t s => ?_, fun t p st s => ?_, fun f t position s => ?_,
    fun f _ c _ => ProgramFitness.execute_fault f c, fun h t a b ha hb => ?_⟩
  · exact (Mutator.mutate_safe (Mutator.new_bounded strategy maxDelta maxInt) v).fault s
  · exact (Mutator.nextString_safe m current replace).fault s
  · exact (MethodInputs.mutate_safe (Mutator.new_bounded strategy maxDelta maxInt) ins t).fault s
  · exact ⟨(t.descentStep_safe p st).fault s, (t.rootValue_safe p).fault s⟩
  · exact ⟨(f.insert_safe t position).fault s, (TemplateFactory.changeNull_safe t position).fault s⟩
  · -- both views lie in the 64-bit range, so their difference is far from `2 ^ 127`
    have := Value.asInteger_mem ha
    have := Value.asInteger_mem hb
    omega

end BranchSensitivity
