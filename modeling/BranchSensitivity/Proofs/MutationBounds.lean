import Mathlib
import BranchSensitivity.Proofs.MutationDiffers
import BranchSensitivity.Proofs.Trials

/-!
# How far a mutation moves a value

For every strategy, every pair of 64-bit bounds given to `Mutator.new` (raised to at least one:
`D` bounds a delta, `M` a replacement) and every state of the random source, the mutator keeps
each value within what its strategy allows:

* a character becomes a printable ASCII character, under every strategy;
* an integer `x` of a machine kind with range `[lo, hi]` becomes an integer `y` with
  `1 ≤ |y - x| ≤ D` under a delta, and one of `[max (-M) lo, min M hi]` under a replacement;
* a string is edited once under a delta (a letter or digit inserted, a character removed, or a
  character replaced by another letter or digit), and replaced by one to eleven letters and digits
  under a replacement.

The delta bound rests on the clamp: a clamped step from inside the range is no longer than the
step. The replacement bound rests on the ranges of the integer kinds, which hold both signs, so
the replacement range `[max (-M) lo, min M hi]` never falls back to the whole range.
-/

namespace BranchSensitivity

open BranchSensitivity.Random

/-! ## What a strategy allows -/

/-- The least and greatest integers of a machine-integer kind. -/
def Value.integerRange? : Value → Option (Int × Int)
  | .byte _ => some (-0x80, 0x7F)
  | .short _ => some (-0x8000, 0x7FFF)
  | .int _ => some (-0x80000000, 0x7FFFFFFF)
  | .long _ => some (-0x8000000000000000, 0x7FFFFFFFFFFFFFFF)
  | _ => none

/-- What a strategy allows of a mutation, given what a move by a delta may give and what a
replacement may give: the mixed strategy allows either. -/
def MutationStrategy.Allows (st : MutationStrategy) (byDelta byReplacement : Prop) : Prop :=
  match st with
  | .delta => byDelta
  | .randomReplace => byReplacement
  | .mixed => byDelta ∨ byReplacement

/-- `w` is `v` edited once: a letter or digit inserted, a character removed, or a character
replaced by a different letter or digit. -/
inductive OneEdit : List Char → List Char → Prop
  | insert (pre suf : List Char) {c : Char} (hc : c ∈ alphabet) :
      OneEdit (pre ++ suf) (pre ++ c :: suf)
  | erase (pre suf : List Char) (c : Char) : OneEdit (pre ++ c :: suf) (pre ++ suf)
  | replace (pre suf : List Char) {c c' : Char} (hc' : c' ∈ alphabet) (hne : c' ≠ c) :
      OneEdit (pre ++ c :: suf) (pre ++ c' :: suf)

/-- The one edit of the empty string is a single letter or digit. -/
theorem OneEdit.nil_iff {w : List Char} : OneEdit [] w ↔ ∃ c ∈ alphabet, w = [c] := by
  constructor
  · intro h
    generalize hv : ([] : List Char) = v at h
    cases h with
    | insert pre suf hc =>
      obtain ⟨rfl, rfl⟩ := List.append_eq_nil_iff.1 hv.symm
      exact ⟨_, hc, rfl⟩
    | erase pre suf c => simp at hv
    | replace pre suf hc' hne => simp at hv
  · rintro ⟨c, hc, rfl⟩
    exact OneEdit.insert [] [] hc

/-! ## The draws of letters and digits -/

theorem getD_alphabet_mem (i : Nat) : alphabet.getD i 'a' ∈ alphabet := by
  rw [List.getD_eq_getElem?_getD]
  cases h : alphabet[i]? with
  | none => decide
  | some c => exact List.mem_of_getElem? h

theorem randomChar_mem (s : Rng) : (randomChar s).1 ∈ alphabet := by
  simp only [randomChar, bind, StateT.bind]
  rcases index alphabet.length s with ⟨i, s'⟩
  rw [lookup_fst]
  exact getD_alphabet_mem i

/-- The search for another character ends on a letter or digit, also when it runs out of fuel. -/
theorem charOtherThan_mem (old : Char) : ∀ fuel s, (charOtherThan old fuel s).1 ∈ alphabet
  | 0, s => by
    simp only [charOtherThan, pure, StateT.pure]
    split <;> decide
  | fuel + 1, s => by
    simp only [charOtherThan, bind, StateT.bind]
    have hc := randomChar_mem s
    rcases h : randomChar s with ⟨c, s'⟩
    rw [h] at hc
    dsimp only
    split
    · exact charOtherThan_mem old fuel s'
    · exact hc

/-! ## Edits of a list at a position -/

theorem insertIdx_eq_take_cons_drop {α : Type} :
    ∀ (l : List α) (i : Nat) (c : α), i ≤ l.length → l.insertIdx i c = l.take i ++ c :: l.drop i
  | l, 0, c, _ => by simp
  | [], _ + 1, _, h => absurd h (by simp)
  | x :: xs, i + 1, c, h => by
    rw [List.insertIdx_succ_cons, insertIdx_eq_take_cons_drop xs i c (by simpa using h)]
    rfl

/-- Inserting a letter or digit at a position of the list is one edit. -/
theorem oneEdit_insertIdx {l : List Char} {i : Nat} (hi : i ≤ l.length) {c : Char}
    (hc : c ∈ alphabet) : OneEdit l (l.insertIdx i c) := by
  have h := OneEdit.insert (l.take i) (l.drop i) hc
  rwa [List.take_append_drop, ← insertIdx_eq_take_cons_drop l i c hi] at h

/-- Removing the character at a position of the list is one edit. -/
theorem oneEdit_eraseIdx {l : List Char} {i : Nat} (hi : i < l.length) :
    OneEdit l (l.eraseIdx i) := by
  have h := OneEdit.erase (l.take i) (l.drop (i + 1)) l[i]
  rwa [List.cons_getElem_drop_succ, List.take_append_drop, ← List.eraseIdx_eq_take_drop_succ] at h

/-- Replacing the character at a position of the list by another letter or digit is one edit. -/
theorem oneEdit_set {l : List Char} {i : Nat} (hi : i < l.length) {c : Char} (hc : c ∈ alphabet)
    (hne : c ≠ l[i]) : OneEdit l (l.set i c) := by
  have h := OneEdit.replace (l.take i) (l.drop (i + 1)) hc hne
  rwa [List.cons_getElem_drop_succ, List.take_append_drop, ← List.set_eq_take_cons_drop c hi] at h

namespace Mutator

variable {m : Mutator}

/-! ## Integers -/

/-- A clamped step from a point of the range is no longer than the step. -/
theorem clampInt_near {x lo hi : Int} (d : Int) (hx₁ : lo ≤ x) (hx₂ : x ≤ hi) :
    x - |d| ≤ clampInt (x + d) lo hi ∧ clampInt (x + d) lo hi ≤ x + |d| := by
  unfold clampInt
  rcases abs_cases d with ⟨hd, _⟩ | ⟨hd, _⟩ <;> omega

/-- A move by a delta from a point of the range lands within `maxDelta` of it. -/
theorem nextInteger_delta_near (hm : m.Bounded) {x lo hi : Int} (hx₁ : lo ≤ x) (hx₂ : x ≤ hi)
    (s : Rng) :
    |(m.nextInteger x x lo hi false s).1 - x| ≤ m.maxDelta := by
  have hd := delta_mem hm s
  rw [nextInteger_delta_fst]
  generalize (m.delta s).1 = d at hd
  dsimp only
  obtain ⟨-, hlo, hhi⟩ := hd
  have habs : |d| ≤ m.maxDelta := abs_le.2 ⟨hlo, hhi⟩
  -- whichever way the step went, the clamp keeps it within `|d|`
  have hplus := clampInt_near d hx₁ hx₂
  have hminus := clampInt_near (-d) hx₁ hx₂
  rw [abs_neg, ← sub_eq_add_neg] at hminus
  rw [abs_sub_le_iff]
  split <;> constructor <;> linarith [hplus.1, hplus.2, hminus.1, hminus.2]

/-- A replacement is drawn in the replacement range, and a draw equal to the stored value steps
inwards by one, so it stays there. -/
theorem nextInteger_replace_mem (original current : Int) {lo hi : Int} (hlohi : lo < hi)
    (hwide : hi - lo < 2 ^ 64) (s : Rng) :
    (m.replaceRange lo hi).1 ≤ (m.nextInteger original current lo hi true s).1 ∧
      (m.nextInteger original current lo hi true s).1 ≤ (m.replaceRange lo hi).2 := by
  obtain ⟨hlo, hab, hhi⟩ := m.replaceRange_spec hlohi
  have hx := intInclusive_mem .w128 (Int.le_of_lt hab) (by simp only [Width.bits]; omega) s
  rw [nextInteger_replace_fst]
  generalize (intInclusive .w128 (m.replaceRange lo hi).1 (m.replaceRange lo hi).2 s).1 = x at hx
  dsimp only
  split
  · omega
  · split <;> omega

/-- A range that holds both signs meets `[-maxInt, maxInt]` in more than one value, so the
replacement range is that meet. -/
theorem replaceRange_of_signed (hm : m.Bounded) {lo hi : Int} (hlo : lo ≤ -1) (hhi : 1 ≤ hi) :
    m.replaceRange lo hi = (max (-m.maxInt) lo, min m.maxInt hi) := by
  have := hm.one_le_maxInt
  unfold replaceRange
  rw [if_neg (by omega)]

/-- Whether a mutation replaces: never under the delta strategy, always under random
replacement, either way under the mixed one. -/
theorem allows_of_drawReplace (m : Mutator) (s : Rng) {P Q : Prop}
    (hP : (m.drawReplace s).1 = false → P) (hQ : (m.drawReplace s).1 = true → Q) :
    m.strategy.Allows P Q := by
  unfold MutationStrategy.Allows
  unfold drawReplace at hP hQ
  split
  · rename_i h
    rw [h] at hP
    exact hP rfl
  · rename_i h
    rw [h] at hQ
    exact hQ rfl
  · rename_i h
    rw [h] at hP hQ
    cases hr : (coin (1.0 / 3.0) s).1
    · exact .inl (hP hr)
    · exact .inr (hQ hr)

/-- The next integer of a stored machine integer `x` of a signed range `[lo, hi]`, read back in
its kind, is within `maxDelta` of `x` and differs from it under a delta, and lies in
`[-maxInt, maxInt]` and the range under a replacement. -/
theorem nextInteger_allows {α : Type} (toInt : α → Int) (ofInt : Int → α) {lo hi : Int}
    (hm : m.Bounded) (hlo : lo ≤ -1) (hhi : 1 ≤ hi) (hwide : hi - lo < 2 ^ 64)
    (hread : ∀ n, lo ≤ n → n ≤ hi → toInt (ofInt n) = n) {x : α} (hx₁ : lo ≤ toInt x)
    (hx₂ : toInt x ≤ hi) (s : Rng) :
    let y := toInt (ofInt (m.nextInteger (toInt x) (toInt x) lo hi (m.drawReplace s).1
      (m.drawReplace s).2).1)
    m.strategy.Allows (1 ≤ |y - toInt x| ∧ |y - toInt x| ≤ m.maxDelta)
      (max (-m.maxInt) lo ≤ y ∧ y ≤ min m.maxInt hi) := by
  intro y
  have hlohi : lo < hi := by omega
  obtain ⟨hylo, hyhi, hne⟩ := nextInteger_mem_ne hm hlohi hwide (clampInt_of_mem hx₁ hx₂).symm
    (m.drawReplace s).1 (m.drawReplace s).2
  have hy : y = (m.nextInteger (toInt x) (toInt x) lo hi (m.drawReplace s).1
      (m.drawReplace s).2).1 := hread _ hylo hyhi
  apply allows_of_drawReplace m s
  · intro hr
    rw [hy, hr]
    rw [hr] at hne
    exact ⟨Int.one_le_abs (sub_ne_zero.2 hne), nextInteger_delta_near hm hx₁ hx₂ _⟩
  · intro hr
    have hmem := nextInteger_replace_mem (m := m) (toInt x) (toInt x) hlohi hwide
      (m.drawReplace s).2
    rw [replaceRange_of_signed hm hlo hhi] at hmem
    rw [hy, hr]
    exact hmem

/-! ## Strings -/

/-- A fresh string is one to ten letters and digits, and one more when it equals the old one. -/
theorem nextString_replace (m : Mutator) (current : String) (s : Rng) :
    let t := (m.nextString current true s).1.toList
    1 ≤ t.length ∧ t.length ≤ 11 ∧ ∀ c ∈ t, c ∈ alphabet := by
  intro t
  have hlen := intInclusive_mem .w32 (show (1 : Int) ≤ 10 by decide)
    (by simp only [Width.bits]; omega) s
  simp only [t, nextString, if_true, bind, StateT.bind]
  rcases h₁ : intInclusive .w32 1 10 s with ⟨len, s₁⟩
  rw [h₁] at hlen
  dsimp only at hlen ⊢
  have hchars := mapM_forall₂ (fun _ c => c ∈ alphabet) (List.range len.toNat)
    (fun _ _ s => randomChar_mem s) s₁
  rcases h₂ : List.mapM (fun _ => randomChar) (List.range len.toNat) s₁ with ⟨chars, s₂⟩
  rw [h₂] at hchars
  dsimp only at hchars ⊢
  have hcount : chars.length = len.toNat := by simpa using hchars.length_eq.symm
  have hall : ∀ c ∈ chars, c ∈ alphabet := by
    intro c hc
    obtain ⟨i, hi, rfl⟩ := List.getElem_of_mem hc
    exact hchars.get (by simpa [hcount] using hi) hi
  split
  · -- a fresh string equal to the old one gets one more letter or digit
    simp only [StateT.bind]
    have hc := randomChar_mem s₂
    rcases h₃ : randomChar s₂ with ⟨c, s₃⟩
    rw [h₃] at hc
    dsimp only [bind]
    simp only [pure, StateT.pure, String.toList_push, String.toList_ofList, List.length_append,
      List.length_singleton, List.mem_append, List.mem_singleton]
    refine ⟨by omega, by omega, ?_⟩
    rintro c' (hc' | rfl)
    · exact hall c' hc'
    · exact hc
  · simp only [pure, StateT.pure, String.toList_ofList]
    exact ⟨by omega, by omega, hall⟩

/-- Under a delta a string is edited once. -/
theorem nextString_delta (m : Mutator) (current : String) (s : Rng) :
    OneEdit current.toList (m.nextString current false s).1.toList := by
  rcases nextString_delta_cases m current s with ⟨hnil, h⟩ | ⟨pos, hpos, s', h | h | h⟩
  · rw [h, hnil, OneEdit.nil_iff]
    exact ⟨_, randomChar_mem s, by simp [Char.toString]⟩
  · rw [h]
    exact oneEdit_insertIdx (Nat.le_of_lt hpos) (randomChar_mem s')
  · rw [h]
    exact oneEdit_eraseIdx hpos
  · rw [h]
    exact oneEdit_set hpos (charOtherThan_mem _ 256 s') (charOtherThan_ne _ 256 s')

/-! ## The bounds of a mutation -/

theorem mutate_char_fst (m : Mutator) (c : Char) (s : Rng) :
    (m.mutate (.char c) s).1 = some (.char (charOfCode (m.nextInteger c.toNat
      (clampInt c.toNat printableMin printableMax) printableMin printableMax (m.drawReplace s).1
      (m.drawReplace s).2).1)) := rfl

theorem mutate_str_fst (m : Mutator) (t : String) (s : Rng) :
    (m.mutate (.str t) s).1 = some (.str (m.nextString t (m.drawReplace s).1
      (m.drawReplace s).2).1) := rfl

/-- **A mutation stays within the bounds of its strategy.** For every strategy, every 64-bit
`maxDelta` and `maxInt` (raised to at least one: `D` and `M`) and every state of the random
source: a character becomes a printable ASCII character; an integer `x` of a machine kind with
range `[lo, hi]` becomes an integer `y` of its kind with `1 ≤ |y - x| ≤ D` under a delta and
`max (-M) lo ≤ y ≤ min M hi` under a replacement; a string is edited once under a delta (to a
single letter or digit when it is empty) and becomes one to eleven letters and digits under a
replacement. The mixed strategy allows either. -/
theorem mutate_within_bounds (strategy : MutationStrategy) (maxDelta maxInt : Int64) (s : Rng) :
    let m := new strategy maxDelta.toInt maxInt.toInt
    let D := max maxDelta.toInt 1
    let M := max maxInt.toInt 1
    (∀ c, ∃ c', (m.mutate (.char c) s).1 = some (.char c') ∧ 0x20 ≤ c'.toNat ∧
      c'.toNat ≤ 0x7e) ∧
    (∀ v lo hi, v.integerRange? = some (lo, hi) →
      ∃ w x y, (m.mutate v s).1 = some w ∧ w.kindName = v.kindName ∧ v.asInteger = some x ∧
        w.asInteger = some y ∧
        strategy.Allows (1 ≤ |y - x| ∧ |y - x| ≤ D) (max (-M) lo ≤ y ∧ y ≤ min M hi)) ∧
    (∀ t, ∃ t', (m.mutate (.str t) s).1 = some (.str t') ∧
      strategy.Allows (OneEdit t.toList t'.toList ∧ (t = "" → ∃ c ∈ alphabet, t'.toList = [c]))
        (1 ≤ t'.toList.length ∧ t'.toList.length ≤ 11 ∧ ∀ c ∈ t'.toList, c ∈ alphabet)) := by
  intro m D M
  have hm : m.Bounded := new_bounded strategy maxDelta maxInt
  refine ⟨fun c => ?_, fun v lo hi hv => ?_, fun t => ?_⟩
  · -- a character is the character of a printable code
    obtain ⟨hlo, hhi, -⟩ := nextInteger_char hm c (m.drawReplace s).1 (m.drawReplace s).2
    obtain ⟨hcode, hnat⟩ := charOfCode_of_printable hlo hhi
    refine ⟨_, mutate_char_fst m c s, ?_⟩
    rw [hcode, hnat]
    have hmin : printableMin = 0x20 := rfl
    have hmax : printableMax = 0x7e := rfl
    omega
  · -- each integer kind reads its next integer back as it was drawn
    cases v with
    | byte x =>
      cases hv
      exact ⟨_, _, _, rfl, rfl, rfl, rfl, nextInteger_allows Int8.toInt Int8.ofInt hm
        (by decide) (by decide) (by decide) (fun _ h₁ h₂ => Int8.toInt_ofInt_of_le h₁ (by omega))
        x.le_toInt (by have := x.toInt_lt; omega) s⟩
    | short x =>
      cases hv
      exact ⟨_, _, _, rfl, rfl, rfl, rfl, nextInteger_allows Int16.toInt Int16.ofInt hm
        (by decide) (by decide) (by decide)
        (fun _ h₁ h₂ => Int16.toInt_ofInt_of_le h₁ (by omega))
        x.le_toInt (by have := x.toInt_lt; omega) s⟩
    | int x =>
      cases hv
      exact ⟨_, _, _, rfl, rfl, rfl, rfl, nextInteger_allows Int32.toInt Int32.ofInt hm
        (by decide) (by decide) (by decide)
        (fun _ h₁ h₂ => Int32.toInt_ofInt_of_le h₁ (by omega))
        x.le_toInt (by have := x.toInt_lt; omega) s⟩
    | long x =>
      cases hv
      exact ⟨_, _, _, rfl, rfl, rfl, rfl, nextInteger_allows Int64.toInt Int64.ofInt hm
        (by decide) (by decide) (by decide)
        (fun _ h₁ h₂ => Int64.toInt_ofInt_of_le h₁ (by omega))
        x.le_toInt (by have := x.toInt_lt; omega) s⟩
    | null | bool | char | float | double | str | object => cases hv
  · refine ⟨_, mutate_str_fst m t s, allows_of_drawReplace m s (fun hr => ?_) (fun hr => ?_)⟩
    · rw [hr]
      have h := nextString_delta m t (m.drawReplace s).2
      refine ⟨h, fun ht => ?_⟩
      subst ht
      exact OneEdit.nil_iff.1 h
    · rw [hr]
      exact nextString_replace m t (m.drawReplace s).2

end Mutator

end BranchSensitivity
