import BranchSensitivity.Proofs.Draws
import BranchSensitivity.Proofs.FloatLaws

/-!
# A mutation always changes the value

For every strategy, every pair of 64-bit bounds given to `Mutator.new`, every value and every
state of the random source, the mutator returns a value exactly for the values it can mutate, and
that value is of the old value's kind and differs from it:

    (m.mutate v s).1 = some w → w.kindName = v.kindName ∧ (w == v) = false

Each kind differs for its own reason. An integer is drawn in a range of at least two values and
steps inwards by one when it hits the stored value. A delta is never zero, and when the clamp at
a bound swallows it, the step the other way lands inside the range. A character is drawn as a
printable code, so it is read back as it was drawn. A string gets longer, shorter or a different
character, and a fresh string equal to the old one gets one more. A float may come out equal after
rounding; it then turns to its negation, or to one from zero, and no float equals that.
-/

namespace BranchSensitivity

open BranchSensitivity.Random

/-- The search for another character ends on one, also when it runs out of fuel. -/
theorem charOtherThan_ne (old : Char) : ∀ fuel s, (charOtherThan old fuel s).1 ≠ old
  | 0, s => by
    simp only [charOtherThan, pure, StateT.pure]
    split
    · rename_i h
      rw [beq_iff_eq.1 h]
      decide
    · rename_i h
      exact fun e => h (beq_iff_eq.2 e.symm)
  | fuel + 1, s => by
    simp only [charOtherThan, bind, StateT.bind]
    rcases h : randomChar s with ⟨c, s'⟩
    dsimp only
    by_cases hc : c = old
    · simp only [hc, beq_self_eq_true, ↓reduceIte]
      exact charOtherThan_ne old fuel s'
    · simp only [beq_iff_eq, hc, ↓reduceIte, pure, StateT.pure]
      exact hc

theorem clampInt_of_mem {x lo hi : Int} (h₁ : lo ≤ x) (h₂ : x ≤ hi) : clampInt x lo hi = x := by
  unfold clampInt
  omega

/-- A printable code is a character: it is taken as it is. -/
theorem charOfCode_of_printable {n : Int} (h₁ : printableMin ≤ n) (h₂ : n ≤ printableMax) :
    charOfCode n = Char.ofNat n.toNat ∧ (Char.ofNat n.toNat).toNat = n.toNat := by
  unfold printableMin at h₁
  unfold printableMax at h₂
  constructor
  · unfold charOfCode
    rw [if_pos (by simp only [Bool.and_eq_true, decide_eq_true_eq, Bool.or_eq_true]; omega)]
  · rw [Char.ofNat, dif_pos (Or.inl (by omega))]
    rfl

namespace Mutator

/-- The bounds of a mutator built from 64-bit integers: `new` raises each to at least one, and
each stays below `2 ^ 63`, so its negation is a 64-bit integer too. -/
structure Bounded (m : Mutator) : Prop where
  one_le_maxDelta : 1 ≤ m.maxDelta
  maxDelta_lt : m.maxDelta < 2 ^ 63
  one_le_maxInt : 1 ≤ m.maxInt
  maxInt_lt : m.maxInt < 2 ^ 63

theorem new_bounded (strategy : MutationStrategy) (maxDelta maxInt : Int64) :
    (new strategy maxDelta.toInt maxInt.toInt).Bounded where
  one_le_maxDelta := by
    simp only [new]
    omega
  maxDelta_lt := by
    have := maxDelta.toInt_lt
    simp only [new]
    omega
  one_le_maxInt := by
    simp only [new]
    omega
  maxInt_lt := by
    have := maxInt.toInt_lt
    simp only [new]
    omega

variable {m : Mutator}

/-- A delta is non-zero and of magnitude at most `maxDelta`. -/
theorem delta_mem (hm : m.Bounded) (s : Rng) :
    (m.delta s).1 ≠ 0 ∧ -m.maxDelta ≤ (m.delta s).1 ∧ (m.delta s).1 ≤ m.maxDelta := by
  have hmag := intInclusive_mem .w64 hm.one_le_maxDelta
    (by have := hm.maxDelta_lt; simp only [Width.bits]; omega) s
  simp only [delta, bind, StateT.bind]
  rcases hk : intInclusive .w64 1 m.maxDelta s with ⟨k, s'⟩
  rw [hk] at hmag
  dsimp only at hmag ⊢
  rcases hc : coin 0.5 s' with ⟨b, s''⟩
  cases b <;> simp only [pure, StateT.pure, Bool.false_eq_true, ↓reduceIte, checkedInt_fst] <;>
    omega

/-- The replacement range of a range of two values or more holds two values or more. -/
theorem replaceRange_spec (m : Mutator) {lo hi : Int} (h : lo < hi) :
    lo ≤ (m.replaceRange lo hi).1 ∧ (m.replaceRange lo hi).1 < (m.replaceRange lo hi).2 ∧
      (m.replaceRange lo hi).2 ≤ hi := by
  unfold replaceRange
  dsimp only
  split <;> dsimp only <;> omega

/-- A replacement is the integer drawn in the replacement range, stepped inwards by one when it
is the stored value. -/
theorem nextInteger_replace_fst (m : Mutator) (original current lo hi : Int) (s : Rng) :
    (m.nextInteger original current lo hi true s).1 =
      let x := (intInclusive .w128 (m.replaceRange lo hi).1 (m.replaceRange lo hi).2 s).1
      if x != original then x else if x < (m.replaceRange lo hi).2 then x + 1 else x - 1 := by
  simp only [nextInteger, if_true, bind, StateT.bind]
  generalize m.replaceRange lo hi = p
  obtain ⟨a, b⟩ := p
  rcases h : intInclusive .w128 a b s with ⟨x, s₁⟩
  dsimp only
  split
  · rfl
  · split <;> exact checkedInt_fst _ _ _

/-- A move by a delta is the clamped step, or the clamped step the other way when the first gives
back the stored value. -/
theorem nextInteger_delta_fst (m : Mutator) (original current lo hi : Int) (s : Rng) :
    (m.nextInteger original current lo hi false s).1 =
      let d := (m.delta s).1
      if clampInt (current + d) lo hi != original then clampInt (current + d) lo hi
      else clampInt (current - d) lo hi := by
  simp only [nextInteger, Bool.false_eq_true, ↓reduceIte, bind, StateT.bind]
  rcases h : m.delta s with ⟨d, s₁⟩
  dsimp only
  rcases h₁ : checkedInt .w128 (current + d) s₁ with ⟨y, s₂⟩
  obtain rfl : y = current + d := by rw [← checkedInt_fst .w128 (current + d) s₁, h₁]
  dsimp only
  split
  · rfl
  · simp only [StateT.bind]
    rcases h₂ : checkedInt .w128 (current - d) s₂ with ⟨z, s₃⟩
    obtain rfl : z = current - d := by rw [← checkedInt_fst .w128 (current - d) s₂, h₂]
    rfl

/-- The next integer lies in `[lo, hi]` and differs from the stored value, whether or not that
value lies in the range. -/
theorem nextInteger_mem_ne (hm : m.Bounded) {original current lo hi : Int} (hlohi : lo < hi)
    (hwide : hi - lo < 2 ^ 64) (hcur : current = clampInt original lo hi) (replace : Bool)
    (s : Rng) :
    lo ≤ (m.nextInteger original current lo hi replace s).1 ∧
      (m.nextInteger original current lo hi replace s).1 ≤ hi ∧
      (m.nextInteger original current lo hi replace s).1 ≠ original := by
  cases replace with
  | true =>
    obtain ⟨hlo, hab, hhi⟩ := m.replaceRange_spec hlohi
    have hx := intInclusive_mem .w128 (Int.le_of_lt hab) (by simp only [Width.bits]; omega) s
    rw [nextInteger_replace_fst]
    generalize (intInclusive .w128 (m.replaceRange lo hi).1 (m.replaceRange lo hi).2 s).1 = x at hx
    dsimp only
    by_cases hne : x = original
    · -- a draw equal to the stored value steps inwards by one
      simp only [hne, bne_self_eq_false, Bool.false_eq_true, ↓reduceIte]
      split <;> omega
    · simp only [bne_iff_ne, ne_eq, hne, not_false_eq_true, ↓reduceIte, and_true]
      omega
  | false =>
    have hd := delta_mem hm s
    rw [nextInteger_delta_fst]
    generalize (m.delta s).1 = d at hd
    dsimp only
    by_cases hn : clampInt (current + d) lo hi = original
    · -- the clamp swallowed the delta at a bound, so the step the other way is inside
      simp only [hn, bne_self_eq_false, Bool.false_eq_true, ↓reduceIte]
      unfold clampInt at hn hcur ⊢
      omega
    · simp only [bne_iff_ne, ne_eq, hn, not_false_eq_true, ↓reduceIte, and_true]
      unfold clampInt at hn ⊢
      omega

/-- What a delta edit of a string gives: from the empty string, the string of one drawn character;
from any other, one character inserted at, removed from or replaced at a position within it. -/
theorem nextString_delta_cases (m : Mutator) (current : String) (s : Rng) :
    (current.toList = [] ∧ (m.nextString current false s).1 = (randomChar s).1.toString) ∨
    ∃ pos, ∃ hpos : pos < current.toList.length, ∃ s',
      (m.nextString current false s).1.toList = current.toList.insertIdx pos (randomChar s').1 ∨
      (m.nextString current false s).1.toList = current.toList.eraseIdx pos ∨
      (m.nextString current false s).1.toList =
        current.toList.set pos (charOtherThan current.toList[pos] 256 s').1 := by
  simp only [nextString, Bool.false_eq_true, ↓reduceIte, bind]
  by_cases hempty : current.toList.isEmpty
  · left
    refine ⟨List.isEmpty_iff.1 hempty, ?_⟩
    simp only [hempty, ↓reduceIte, StateT.bind]
    rfl
  · right
    simp only [hempty, Bool.false_eq_true, ↓reduceIte, StateT.bind]
    have hlen : 0 < current.toList.length :=
      List.length_pos_iff.2 fun h => hempty (List.isEmpty_iff.2 h)
    have hpos := index_lt hlen s
    rcases h₃ : index current.toList.length s with ⟨pos, s₃⟩
    rw [h₃] at hpos
    refine ⟨pos, hpos, ?_⟩
    dsimp only [bind]
    rcases h₄ : intBelow .w32 0 3 s₃ with ⟨op, s₄⟩
    refine ⟨s₄, ?_⟩
    dsimp only [bind]
    split
    · left
      rw [decide_eq_true (Nat.le_of_lt hpos), require_true]
      simp only [StateT.bind]
      rcases randomChar s₄ with ⟨c, s₅⟩
      exact String.toList_ofList
    · right
      split
      · left
        rw [decide_eq_true hpos, require_true]
        exact String.toList_ofList
      · right
        rw [lookup_of_lt hpos]
        -- kept opaque, the search is not unfolded while the binds around it reduce
        generalize charOtherThan = co
        exact String.toList_ofList

/-- The next string differs from the current one. -/
theorem nextString_ne (m : Mutator) (current : String) (replace : Bool) (s : Rng) :
    (m.nextString current replace s).1 ≠ current := by
  cases replace with
  | true =>
    simp only [nextString, if_true, bind, StateT.bind]
    rcases h₁ : intInclusive .w32 1 10 s with ⟨len, s₁⟩
    dsimp only
    rcases h₂ : List.mapM (fun _ => randomChar) (List.range len.toNat) s₁ with ⟨chars, s₂⟩
    dsimp only
    by_cases heq : String.ofList chars = current
    · -- a fresh string equal to the old one gets one more character
      simp only [heq, beq_self_eq_true, ↓reduceIte, StateT.bind]
      rcases h₃ : randomChar s₂ with ⟨c, s₃⟩
      dsimp only [bind]
      simp only [pure, StateT.pure]
      intro h
      have := congrArg String.length h
      simp at this
    · simp only [beq_iff_eq, heq, ↓reduceIte, pure, StateT.pure]
      exact heq
  | false =>
    rcases nextString_delta_cases m current s with ⟨hnil, h⟩ | ⟨pos, hpos, s', h | h | h⟩
    · intro heq
      rw [← heq, h] at hnil
      simp [Char.toString] at hnil
    · -- an insertion makes the string longer
      intro heq
      have := congrArg List.length h
      rw [heq, List.length_insertIdx, if_pos (by omega)] at this
      omega
    · -- a removal makes it shorter
      intro heq
      have := congrArg List.length h
      rw [heq, List.length_eraseIdx, if_pos hpos] at this
      omega
    · -- a replacement draws a character other than the one it replaces
      intro heq
      have := congrArg (·[pos]?) h
      simp only [heq, List.getElem?_set_self hpos, List.getElem?_eq_getElem hpos,
        Option.some.injEq] at this
      exact charOtherThan_ne current.toList[pos] 256 s' this.symm

/-- A double that came out equal to the old one is set apart from it. -/
theorem awayFrom_double_beq (a b : Float) : (awayFrom (.double b) (.double a) == .double b) = false := by
  show ((if a == b then Value.double (if b == 0.0 then 1.0 else -b) else .double a) == .double b)
    = false
  split
  · exact Float.beq_nudge_eq_false a b ‹_›
  · exact Bool.eq_false_iff.2 ‹_›

/-- A float that came out equal to the old one is set apart from it. -/
theorem awayFrom_float_beq (a b : Float32) : (awayFrom (.float b) (.float a) == .float b) = false := by
  show ((if a == b then Value.float (if b == 0.0 then 1.0 else -b) else .float a) == .float b)
    = false
  split
  · exact Float32.beq_nudge_eq_false a b ‹_›
  · exact Bool.eq_false_iff.2 ‹_›

/-- An integer of a machine kind's range is read back as itself, so one that differs from the
old integer's value gives a different machine integer. -/
theorem beq_ofInt_eq_false {α : Type} [BEq α] [LawfulBEq α] {toInt : α → Int} {ofInt : Int → α}
    {n : Int} {x : α} (hread : toInt (ofInt n) = n) (hne : n ≠ toInt x) : (ofInt n == x) = false :=
  beq_eq_false_iff_ne.2 fun e => hne (calc
    n = toInt (ofInt n) := hread.symm
    _ = toInt x := congrArg toInt e)

/-- The next integer of a stored machine integer, taken back to its kind, differs from it: it
lies in the kind's range, where the kind reads it back as itself. -/
theorem nextInteger_ofInt_beq {α : Type} [BEq α] [LawfulBEq α] (toInt : α → Int)
    (ofInt : Int → α) {lo hi : Int} (hm : m.Bounded) (hlohi : lo < hi) (hwide : hi - lo < 2 ^ 64)
    (hread : ∀ n, lo ≤ n → n ≤ hi → toInt (ofInt n) = n) {x : α} (hx₁ : lo ≤ toInt x)
    (hx₂ : toInt x ≤ hi) (replace : Bool) (s : Rng) :
    (ofInt (m.nextInteger (toInt x) (toInt x) lo hi replace s).1 == x) = false := by
  obtain ⟨hlo, hhi, hne⟩ :=
    nextInteger_mem_ne hm hlohi hwide (clampInt_of_mem hx₁ hx₂).symm replace s
  exact beq_ofInt_eq_false (hread _ hlo hhi) hne

/-- The code drawn for a character is printable and differs from the character's own code. -/
theorem nextInteger_char (hm : m.Bounded) (c : Char) (replace : Bool) (s : Rng) :
    let code := (m.nextInteger c.toNat (clampInt c.toNat printableMin printableMax) printableMin
      printableMax replace s).1
    printableMin ≤ code ∧ code ≤ printableMax ∧ code ≠ c.toNat :=
  nextInteger_mem_ne hm (by decide) (by decide) rfl replace s

/-- The mutated value differs from the old one. -/
theorem mutate_ne (hm : m.Bounded) {v w : Value} (s : Rng) (h : (m.mutate v s).1 = some w) :
    (w == v) = false := by
  rw [mutate_fst, Option.map_eq_some_iff] at h
  obtain ⟨u, hu, rfl⟩ := h
  generalize (m.drawReplace s).1 = replace at hu
  generalize (m.drawReplace s).2 = s' at hu
  -- each kind's lemma holds whether or not the value is replaced
  cases v with
  | null | object => cases hu
  | bool b =>
    cases hu
    cases b <;> rfl
  | char c =>
    obtain ⟨hlo, hhi, hne⟩ := nextInteger_char hm c replace s'
    obtain ⟨hcode, hnat⟩ := charOfCode_of_printable hlo hhi
    cases hu
    show (charOfCode (m.nextInteger c.toNat (clampInt c.toNat printableMin printableMax)
      printableMin printableMax replace s').1 == c) = false
    rw [hcode]
    refine beq_eq_false_iff_ne.2 fun e => hne ?_
    rw [e] at hnat
    have hmin : printableMin = 0x20 := rfl
    omega
  | byte x =>
    cases hu
    exact nextInteger_ofInt_beq Int8.toInt Int8.ofInt hm (by decide) (by decide)
      (fun _ h₁ h₂ => Int8.toInt_ofInt_of_le h₁ (by omega)) x.le_toInt
      (by have := x.toInt_lt; omega) replace s'
  | short x =>
    cases hu
    exact nextInteger_ofInt_beq Int16.toInt Int16.ofInt hm (by decide) (by decide)
      (fun _ h₁ h₂ => Int16.toInt_ofInt_of_le h₁ (by omega)) x.le_toInt
      (by have := x.toInt_lt; omega) replace s'
  | int x =>
    cases hu
    exact nextInteger_ofInt_beq Int32.toInt Int32.ofInt hm (by decide) (by decide)
      (fun _ h₁ h₂ => Int32.toInt_ofInt_of_le h₁ (by omega)) x.le_toInt
      (by have := x.toInt_lt; omega) replace s'
  | long x =>
    cases hu
    exact nextInteger_ofInt_beq Int64.toInt Int64.ofInt hm (by decide) (by decide)
      (fun _ h₁ h₂ => Int64.toInt_ofInt_of_le h₁ (by omega)) x.le_toInt
      (by have := x.toInt_lt; omega) replace s'
  | float x =>
    cases hu
    exact awayFrom_float_beq _ x
  | double x =>
    cases hu
    exact awayFrom_double_beq _ x
  | str t =>
    cases hu
    show ((m.nextString t replace s').1 == t) = false
    exact beq_eq_false_iff_ne.2 (nextString_ne m t replace s')

/-- **A mutation changes the value.** For every strategy, every 64-bit bound, every value and every
state of the random source: the mutator gives no value exactly for nulls and objects, and any
value it gives is of the old value's kind and differs from it. A character is the character of the
code drawn for it, which is printable, so the fallback of `charOfCode` is never taken. -/
theorem mutate_changes_value (strategy : MutationStrategy) (maxDelta maxInt : Int64) (v : Value)
    (s : Rng) :
    let m := new strategy maxDelta.toInt maxInt.toInt
    ((m.mutate v s).1 = none ↔ canMutate v = false) ∧
      ∀ w, (m.mutate v s).1 = some w → w.kindName = v.kindName ∧ (w == v) = false ∧
        ∀ c, v = .char c →
          let code := (m.nextInteger c.toNat (clampInt c.toNat printableMin printableMax)
            printableMin printableMax (m.drawReplace s).1 (m.drawReplace s).2).1
          printableMin ≤ code ∧ code ≤ printableMax ∧ w = .char (Char.ofNat code.toNat) := by
  intro m
  have hm : m.Bounded := new_bounded strategy maxDelta maxInt
  refine ⟨?_, fun w h => ⟨mutate_kindName m s h, mutate_ne hm s h, ?_⟩⟩
  · rw [← Option.not_isSome_iff_eq_none, mutate_isSome, Bool.not_eq_true]
  · rintro c rfl
    obtain ⟨hlo, hhi, -⟩ := nextInteger_char hm c (m.drawReplace s).1 (m.drawReplace s).2
    refine ⟨hlo, hhi, ?_⟩
    rw [mutate_fst] at h
    cases h
    exact congrArg Value.char (charOfCode_of_printable hlo hhi).1

end Mutator

end BranchSensitivity
