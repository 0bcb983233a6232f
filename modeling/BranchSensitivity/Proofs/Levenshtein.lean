import Mathlib.Order.MinMax
import Mathlib.Data.List.Infix
import Mathlib.Data.List.Forall2
import BranchSensitivity.Similarity.EditDistance

/-!
# The edit distance is the Levenshtein distance

`editDistance` fills the table of distances one row at a time, in place, carrying the entry
above-left along the row. The row it holds after `i` characters of the first string is the list
of distances from that prefix to every prefix of the second string (`t.inits`), so its last entry
is the Levenshtein distance of the two strings, the one defined by recursion on first characters:

    editDistance a b = levenshtein a.toList b.toList

The table works on prefixes and `levenshtein` on suffixes; the two meet in the recursion on last
characters (`levenshtein_append_singleton`). The laws of the distance follow from the recursion:

    editDistance a b = editDistance b a
    max |a| |b| - min |a| |b| ≤ editDistance a b ≤ max |a| |b|
    editDistance a b = 0 ↔ List.Forall₂ (sameLetter · ·) a.toList b.toList
-/

namespace BranchSensitivity

namespace Text

theorem sameLetter_comm (a b : Char) : sameLetter a b = sameLetter b a := by
  unfold sameLetter
  rw [Bool.beq_comm (a := a), Bool.beq_comm (a := lowercase a)]

end Text

namespace Similarity

open Text

theorem substitutionCost_comm (a b : Char) : substitutionCost a b = substitutionCost b a := by
  rw [substitutionCost, substitutionCost, sameLetter_comm]

theorem substitutionCost_le_one (a b : Char) : substitutionCost a b ≤ 1 := by
  unfold substitutionCost
  split <;> omega

theorem substitutionCost_eq_zero_iff {a b : Char} :
    substitutionCost a b = 0 ↔ sameLetter a b = true := by
  unfold substitutionCost
  split <;> simp_all

/-! ## The recursion on first characters -/

@[simp] theorem levenshtein_nil_left (ys : List Char) : levenshtein [] ys = ys.length :=
  levenshtein.eq_1 ys

@[simp] theorem levenshtein_nil_right (xs : List Char) : levenshtein xs [] = xs.length := by
  cases xs with
  | nil => exact levenshtein.eq_1 []
  | cons x xs => exact levenshtein.eq_2 x xs

theorem levenshtein_comm (xs ys : List Char) : levenshtein xs ys = levenshtein ys xs := by
  induction xs, ys using levenshtein.induct with
  | case1 ys => simp
  | case2 x xs => simp
  | case3 x xs y ys ih₁ ih₂ ih₃ =>
    rw [levenshtein.eq_3, levenshtein.eq_3, ih₁, ih₂, ih₃, substitutionCost_comm,
      min_comm (levenshtein ys (x :: xs) + 1)]

/-- The distance is at least the difference of the lengths. -/
theorem length_le_levenshtein_add (xs ys : List Char) :
    xs.length ≤ levenshtein xs ys + ys.length := by
  induction xs, ys using levenshtein.induct with
  | case1 ys => simp
  | case2 x xs => simp
  | case3 x xs y ys ih₁ ih₂ ih₃ =>
    rw [levenshtein.eq_3]
    simp only [List.length_cons] at ih₁ ih₂ ⊢
    omega

/-- The distance is at most the longer length: substitute along the shorter string, then
insert or delete the rest. -/
theorem levenshtein_le_max (xs ys : List Char) :
    levenshtein xs ys ≤ max xs.length ys.length := by
  induction xs, ys using levenshtein.induct with
  | case1 ys => simp
  | case2 x xs => simp
  | case3 x xs y ys _ _ ih =>
    rw [levenshtein.eq_3]
    have hc := substitutionCost_le_one x y
    simp only [List.length_cons]
    omega

/-- The distance is zero exactly for strings of the same letters, position by position: every
insertion and deletion costs one, so only free substitutions can add up to zero. -/
theorem levenshtein_eq_zero_iff (xs ys : List Char) :
    levenshtein xs ys = 0 ↔ List.Forall₂ (fun x y => sameLetter x y = true) xs ys := by
  induction xs, ys using levenshtein.induct with
  | case1 ys => rw [levenshtein_nil_left, List.length_eq_zero_iff, List.forall₂_nil_left_iff]
  | case2 x xs => simp [List.forall₂_nil_right_iff]
  | case3 x xs y ys _ _ ih =>
    rw [levenshtein.eq_3, List.forall₂_cons, ← ih, ← substitutionCost_eq_zero_iff]
    omega

/-! ## The recursion on last characters -/

/-- The distance of two strings each extended by one character, from the distances of the
prefixes: the same recursion as on first characters, read from the other end. -/
theorem levenshtein_append_singleton (a b : Char) (xs ys : List Char) :
    levenshtein (xs ++ [a]) (ys ++ [b]) =
      min (min (levenshtein xs (ys ++ [b]) + 1) (levenshtein (xs ++ [a]) ys + 1))
        (levenshtein xs ys + substitutionCost a b) := by
  induction xs generalizing ys with
  | nil =>
    induction ys with
    | nil => exact levenshtein.eq_3 a [] b []
    | cons y ys ih =>
      simp only [List.nil_append, List.cons_append] at ih ⊢
      rw [levenshtein.eq_3 a [] y (ys ++ [b]), ih, levenshtein.eq_3 a [] y ys]
      simp only [levenshtein_nil_left, List.length_cons, List.length_append, List.length_nil]
      omega
  | cons x xs ihx =>
    induction ys with
    | nil =>
      have h := ihx []
      simp only [List.nil_append, List.cons_append] at h ⊢
      rw [levenshtein.eq_3 x (xs ++ [a]) b [], h, levenshtein.eq_3 x xs b []]
      simp only [levenshtein_nil_right, List.length_cons, List.length_append, List.length_nil]
      omega
    | cons y ys ihy =>
      have h₁ := ihx (y :: ys)
      have h₃ := ihx ys
      simp only [List.cons_append] at h₁ h₃ ihy ⊢
      -- both sides open into the minimum of the same nine corner terms
      rw [levenshtein.eq_3 x (xs ++ [a]) y (ys ++ [b]), h₁, ihy, h₃,
        levenshtein.eq_3 x xs y (ys ++ [b]), levenshtein.eq_3 x (xs ++ [a]) y ys,
        levenshtein.eq_3 x xs y ys]
      simp only [← Nat.add_min_add_right]
      apply Nat.le_antisymm <;> (simp only [le_min_iff]; simp only [min_le_iff]) <;> omega

/-! ## The table, row by row -/

/-- The inner loop: from the row of `p` over the prefixes `pre ++ s` of the second string, and
the entry of `p ++ [c]` at `pre` on its left, `rowStep` gives the entries of `p ++ [c]` at the
longer prefixes. -/
theorem rowStep_inits (p : List Char) (c : Char) :
    ∀ ts pre : List Char,
      rowStep c ts (ts.inits.map fun s => levenshtein p (pre ++ s)) (levenshtein (p ++ [c]) pre) =
        ts.inits.tail.map fun s => levenshtein (p ++ [c]) (pre ++ s)
  | [], _ => by simp [rowStep]
  | t :: ts, pre => by
    cases ts with
    | nil =>
      simp only [List.inits, List.map_cons, List.map_nil, List.tail_cons, List.append_nil,
        rowStep]
      rw [levenshtein_append_singleton]
    | cons u us =>
      have ih := rowStep_inits p c (u :: us) (pre ++ [t])
      simp only [List.inits, List.map_cons, List.map_map, List.tail_cons, List.append_nil,
        rowStep] at ih ⊢
      rw [← levenshtein_append_singleton]
      simp only [Function.comp_def, List.append_assoc, List.singleton_append] at ih ⊢
      rw [ih]

/-- One pass of the outer loop turns the row of `p` into the row of `p ++ [c]`. -/
theorem nextRow_inits (t p : List Char) (c : Char) :
    nextRow t (t.inits.map (levenshtein p)) p.length c = t.inits.map (levenshtein (p ++ [c])) := by
  have h := rowStep_inits p c t []
  simp only [List.nil_append, levenshtein_nil_right, List.length_append, List.length_singleton]
    at h
  cases t with
  | nil => simp [nextRow, rowStep]
  | cons u us =>
    rw [nextRow, h]
    simp

/-- The outer loop over the characters `cs` turns the row of `p` into the row of `p ++ cs`. -/
theorem finalRow_inits (t : List Char) :
    ∀ cs p : List Char,
      finalRow t cs p.length (t.inits.map (levenshtein p)) = t.inits.map (levenshtein (p ++ cs))
  | [], p => by simp [finalRow]
  | c :: cs, p => by
    have hlen : p.length + 1 = (p ++ [c]).length := by simp
    rw [finalRow, nextRow_inits, hlen, finalRow_inits t cs (p ++ [c])]
    simp

/-- The first row: the distance from the empty prefix to each prefix is its length. -/
theorem map_length_inits : ∀ t : List Char, t.inits.map List.length = List.range (t.length + 1)
  | [] => rfl
  | c :: t => by
    rw [List.inits, List.map_cons, List.map_map, List.length_cons, List.range_succ_eq_map,
      ← map_length_inits t, List.map_map]
    rfl

theorem getLast?_inits : ∀ t : List Char, t.inits.getLast? = some t
  | [] => rfl
  | c :: t => by
    rw [List.inits, List.getLast?_cons, List.getLast?_map, getLast?_inits t]
    rfl

/-- **The edit distance is the Levenshtein distance** of the two character sequences. -/
theorem editDistance_eq_levenshtein (a b : String) :
    editDistance a b = levenshtein a.toList b.toList := by
  unfold editDistance
  dsimp only
  split
  · rename_i h
    rw [List.isEmpty_iff.1 h, levenshtein_nil_left]
  · split
    · rename_i h
      rw [List.isEmpty_iff.1 h, levenshtein_nil_right]
    · -- the first row is the row of the empty prefix
      have hfirst : levenshtein [] = List.length := funext levenshtein_nil_left
      have hrow := finalRow_inits b.toList a.toList []
      rw [hfirst, map_length_inits, List.length_nil, List.nil_append] at hrow
      rw [hrow, List.getLastD_eq_getLast?, List.getLast?_map, getLast?_inits]
      rfl

theorem editDistance_comm (a b : String) : editDistance a b = editDistance b a := by
  rw [editDistance_eq_levenshtein, editDistance_eq_levenshtein, levenshtein_comm]

/-- **The edit distance is the Levenshtein distance**, and so it is symmetric, lies between the
difference of the lengths and the longer length, and is zero exactly for strings that have the
same letter at every position. -/
theorem editDistance_levenshtein (a b : String) :
    editDistance a b = levenshtein a.toList b.toList ∧
      editDistance a b = editDistance b a ∧
      max a.length b.length - min a.length b.length ≤ editDistance a b ∧
      editDistance a b ≤ max a.length b.length ∧
      (editDistance a b = 0 ↔
        List.Forall₂ (fun x y => sameLetter x y = true) a.toList b.toList) := by
  have hab := length_le_levenshtein_add a.toList b.toList
  have hba := length_le_levenshtein_add b.toList a.toList
  have hmax := levenshtein_le_max a.toList b.toList
  rw [levenshtein_comm] at hba
  simp only [String.length_toList] at hab hba hmax
  refine ⟨editDistance_eq_levenshtein a b, editDistance_comm a b, ?_, ?_, ?_⟩
  · rw [editDistance_eq_levenshtein]
    omega
  · rwa [editDistance_eq_levenshtein]
  · rw [editDistance_eq_levenshtein, levenshtein_eq_zero_iff]

example : levenshtein "flaw".toList "lawn".toList = 2 := by decide +kernel

end Similarity

end BranchSensitivity
